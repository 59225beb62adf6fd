import DataShapes.Descriptor.Describe
import DataShapes.Text.Sorted

/-!
# Problems

Everything that can go wrong, by its cause.  The wording of every message is in one function, and
a coarser classification says how callers treat a problem.

Main definitions:
* `Problem`: the causes;
* `Problem.message`: the text of a problem;
* `Problem.Category`, `Problem.category`: the class that a problem belongs to;
* `Problem.isDefinition`: problems that make a shape definition fail;
* `Problem.isExpected`: problems that an export reports instead of passing them on.
-/

namespace DataShapes

/-- The options that only the string type takes. -/
inductive ConstraintOption where
  | enumeration
  | pattern
  | format
deriving DecidableEq, Repr

/-- The declared name of an option. -/
def ConstraintOption.name : ConstraintOption → String
  | .enumeration => "enum"
  | .pattern => "pattern"
  | .format => "format"

/-- The two kinds of option set. -/
inductive OptionSet where
  | property
  | object
deriving DecidableEq, Repr

/-- The word for a kind of option set. -/
def OptionSet.name : OptionSet → String
  | .property => "property"
  | .object => "object"

/-- What went wrong. -/
inductive Problem where
  -- Declarations that cannot be read.
  | unknownScalar (text : String) (valid : List String)
  | unknownContainer (text : String)
  | emptyUnion
  | notAType (value : Value)
  | notADeclaration (value : Value)
  | unknownOptions (set : OptionSet) (unknown : List Value) (valid : List String)
  | notIterable (kind : String)
  /-- A text in the place of a key with its value. -/
  | notAnEntry (length : Nat)
  | notARepresentation (value : Value)
  | unknownDescriptor (descriptor : Descriptor) (property : String)
  | unknownExpression (value : Value)
  -- Shapes that cannot be defined.
  | badShapeName (value : Value)
  | duplicateShape (name : String)
  | duplicateProperty (property title : String)
  | misplacedConstraint (property : String) (option : ConstraintOption) (descriptor : Descriptor)
  | nonTextEnumeration (property : String)
  | defaultMismatch (property : String) (value : Value) (descriptor : Descriptor)
  | closedRecordWithExtras (title : String)
  | valuelessField (title property : String)
  | shapeNotFound (name : String) (available : List String)
  | shapeNotDefined (name referrer : String) (available : List String)
  | inlinedIntoItself (property name : String)
  | extendsItself (name : String)
  | extendsNoShape (name : String) (value : Value)
  | extendsType (name parent : String)
  | extendsNoObject (title : Option String) (parent : String)
  | unrecordedReference (path registry : String)
  | sealedRegistry (owner : Option String) (key : String)
  -- Documents and their versions.
  | sharedTitle (title : String)
  | noDefinitions
  | invalidDefinition (title : String)
  | danglingReference (title path : String)
  | versionNotText (value : Value)
  | malformedVersion (text : String)
  | unreadableDocument (path : String)
  | documentNotMapping (path : String)
  | unsupportedVersion (path reason : String)
  | unserializable (kind : String)
  | unserializableKey (kind : String)
  -- Files, modules and catalogs.
  | fileNotFound (path : String)
  | isDirectory (path : String)
  | notDirectory (path : String)
  | fileExists (path : String)
  /-- A code point of a text that is written has no encoding. -/
  | unencodable (code position : Nat)
  | moduleNotFound (name : String)
  /-- A module is looked for inside one that holds no others. -/
  | notAPackage (name parent : String)
  | relativeModule (name : String)
  | emptyModuleName
  | notACatalog (module member : String)
  | catalogCount (module : String) (count : Nat)
  /-- An array node without a schema of items. -/
  | missingItems
  /-- A value is checked against a type shape that contains itself outside every container. -/
  | endless

namespace Problem

/-- A path in single quotes, the way the operating system's errors show it. -/
private def pathText (path : String) : String := Quoted.quote path

/-- The text of a problem. -/
def message : Problem → String
  | unknownScalar text valid =>
    "Unknown scalar type '" ++ text ++ "'. Valid types: " ++ Literal.texts valid
  | unknownContainer text =>
    "Unknown container type '" ++ text ++ "'. Expected 'array' or 'map'"
  | emptyUnion => "A union needs at least one member type"
  | notAType value => "Cannot interpret " ++ value.literal ++ " as a type descriptor"
  | notADeclaration value => "Cannot interpret " ++ value.literal ++ " as a property declaration"
  | unknownOptions set unknown valid =>
    "Unknown " ++ set.name ++ " options " ++ (Value.list unknown).literal ++ ". Valid options: "
      ++ Literal.texts valid
  | notIterable kind => "'" ++ kind ++ "' object is not iterable"
  | notAnEntry length =>
    "dictionary update sequence element #0 has length " ++ toString length ++ "; 2 is required"
  | notARepresentation value => value.literal ++ " is not a valid Representation"
  | unknownDescriptor descriptor property =>
    "Internal error: unknown type descriptor " ++ descriptor.literal ++ " for '" ++ property ++ "'"
  | unknownExpression value => "Internal error: unknown type expression " ++ value.literal
  | badShapeName value => "Shape name must be a non-empty string, got: " ++ value.literal
  | duplicateShape name => "Shape '" ++ name ++ "' is already defined in this catalog"
  | duplicateProperty property title =>
    "the property " ++ Quoted.quote property ++ " is already set in '" ++ title ++ "'"
  | misplacedConstraint property option descriptor =>
    property ++ " has " ++ (if option = .enumeration then "an " else "a ") ++ option.name
      ++ " option, but it can be provided only for string type (got " ++ descriptor.describe ++ ")"
  | nonTextEnumeration property =>
    property ++ " has values of invalid types in the enum option. They should be strings"
  | defaultMismatch property value descriptor =>
    "default value of " ++ property ++ " does not match its type: " ++ value.literal ++ " is not "
      ++ descriptor.describe
  | closedRecordWithExtras title =>
    "'" ++ title ++ "': a fixed record cannot be defined with additional_properties"
  | valuelessField title property =>
    "'" ++ title ++ "': a fixed record cannot have property '" ++ property
      ++ "' which is not required, not nullable and has no default value"
  | shapeNotFound name available =>
    "Shape '" ++ name ++ "' not found. Available shapes: " ++ Literal.texts available
  | shapeNotDefined name referrer available =>
    "Shape '" ++ name ++ "' referenced from '" ++ referrer
      ++ "' is not defined. Available shapes: " ++ Literal.texts (Text.sorted available)
  | inlinedIntoItself property name =>
    property ++ " cannot inline '" ++ name ++ "' into its own definition"
  | extendsItself name => "Shape '" ++ name ++ "' cannot extend itself"
  | extendsNoShape name value =>
    "Shape '" ++ name ++ "' extends " ++ value.literal ++ ", which is not a defined shape"
  | extendsType name parent =>
    "Shape '" ++ name ++ "' extends '" ++ parent ++ "', which is not an object shape"
  | extendsNoObject title parent =>
    "'" ++ title.getD Literal.none ++ "' can only extend an assembled object schema, got " ++ parent
  | unrecordedReference path registry =>
    "Reference '" ++ path ++ "' is not recorded in " ++ registry
  | sealedRegistry owner key =>
    "Reference registry of '" ++ owner.getD Literal.none ++ "' is sealed; cannot record '" ++ key
      ++ "'"
  | sharedTitle title =>
    "Two shapes share the title '" ++ title ++ "'; references to it would be ambiguous"
  | noDefinitions => "Definitions document has no 'definitions' mapping"
  | invalidDefinition title => "Definition '" ++ title ++ "' is not a valid JSON Schema"
  | danglingReference title path =>
    "Definition '" ++ title ++ "' references unknown schema '" ++ path ++ "'"
  | versionNotText value =>
    "Format version must be a string, got " ++ value.kindName ++ ": " ++ value.literal
  | malformedVersion text =>
    "Invalid format version '" ++ text ++ "', expected MAJOR.MINOR.PATCH"
  | unreadableDocument path => "Cannot parse definitions document " ++ path
  | documentNotMapping path => "Definitions document " ++ path ++ " must be a mapping"
  | unsupportedVersion path reason => path ++ ": " ++ reason
  | unserializable kind => "Object of type " ++ kind ++ " is not JSON serializable"
  | unserializableKey kind => "keys must be str, int, float, bool or None, not " ++ kind
  | fileNotFound path => "[Errno 2] No such file or directory: " ++ pathText path
  | isDirectory path => "[Errno 21] Is a directory: " ++ pathText path
  | notDirectory path => "[Errno 20] Not a directory: " ++ pathText path
  | fileExists path => "[Errno 17] File exists: " ++ pathText path
  | unencodable code position =>
    "'utf-8' codec can't encode character '\\u" ++ String.ofList (Text.hex 4 code) ++ "' in position "
      ++ toString position ++ ": surrogates not allowed"
  | moduleNotFound name => "No module named " ++ Quoted.quote name
  | notAPackage name parent =>
    "No module named " ++ Quoted.quote name ++ "; " ++ Quoted.quote parent ++ " is not a package"
  | relativeModule name =>
    "the 'package' argument is required to perform a relative import for " ++ Quoted.quote name
  | emptyModuleName => "Empty module name"
  | notACatalog module member => "'" ++ module ++ "." ++ member ++ "' is not a ShapeCatalog"
  | catalogCount module count =>
    "Expected exactly one ShapeCatalog in '" ++ module ++ "', found " ++ toString count
      ++ "; use --catalog"
  | missingItems => "'NoneType' object has no attribute 'kind'"
  | endless => "maximum recursion depth exceeded"

/-- The classes of problem that callers can tell apart. -/
inductive Category where
  | declaration
  | badValue
  | sealedRegistry
  | shapeDefinition
  | duplicateProperty
  | duplicateShape
  | invalidConstraint
  | defaultMismatch
  | recordCompatibility
  | unresolvedDependency
  | document
  | formatVersion
  | invalidDocument
  | missingFile
  | directory
  | notDirectory
  | existingFile
  | missingModule
  | exporting
  | missingPart
  | endless
deriving DecidableEq, Repr

/-- The class of a problem. -/
def category : Problem → Category
  | unknownScalar .. | unknownContainer _ | emptyUnion | notAType _ | notADeclaration _
  | unknownOptions .. | notIterable _ | unknownDescriptor .. | unknownExpression _
  | unserializable _ | unserializableKey _ | relativeModule _ => .declaration
  | notARepresentation _ | notAnEntry _ | unencodable .. | emptyModuleName => .badValue
  | Problem.sealedRegistry .. => .sealedRegistry
  | badShapeName _ => .shapeDefinition
  | Problem.duplicateShape _ => .duplicateShape
  | Problem.duplicateProperty .. => .duplicateProperty
  | misplacedConstraint .. | nonTextEnumeration _ => .invalidConstraint
  | Problem.defaultMismatch .. => .defaultMismatch
  | closedRecordWithExtras _ | valuelessField .. => .recordCompatibility
  | shapeNotFound .. | shapeNotDefined .. | inlinedIntoItself .. | extendsItself _
  | extendsNoShape .. | extendsType .. | extendsNoObject .. | unrecordedReference .. =>
    .unresolvedDependency
  | sharedTitle _ | noDefinitions | invalidDefinition _ | danglingReference .. => .invalidDocument
  | versionNotText _ | malformedVersion _ | unsupportedVersion .. => .formatVersion
  | unreadableDocument _ | documentNotMapping _ => .document
  | fileNotFound _ => .missingFile
  | isDirectory _ => .directory
  | Problem.notDirectory _ => .notDirectory
  | fileExists _ => .existingFile
  | moduleNotFound _ | notAPackage .. => .missingModule
  | notACatalog .. | catalogCount .. => .exporting
  | missingItems => .missingPart
  | Problem.endless => .endless

namespace Category

/-- The classes of problem that make a shape definition fail. -/
def isDefinition : Category → Bool
  | .shapeDefinition | .duplicateProperty | .duplicateShape | .invalidConstraint
  | .defaultMismatch | .recordCompatibility | .unresolvedDependency => true
  | _ => false

/-- The classes of problem that an export reports. -/
def isExpected : Category → Bool
  | .document | .formatVersion | .invalidDocument | .missingFile | .directory | .notDirectory
  | .existingFile | .missingModule | .exporting => true
  | c => c.isDefinition

end Category

/-- The problem makes a shape definition fail; others are mistakes in the declaration itself. -/
def isDefinition (p : Problem) : Bool := p.category.isDefinition

/-- An export reports the problem instead of passing it on. -/
def isExpected (p : Problem) : Bool := p.category.isExpected

end Problem

end DataShapes
