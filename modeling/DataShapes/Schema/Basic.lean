import DataShapes.Options
import DataShapes.Table
import DataShapes.Value.Equality

/-!
# Schema nodes

A schema is a tree of nodes.  A node is a bag of keywords: some hold plain data, others hold the
schemas of its parts.  Instead of a node there may be a reference to another schema by its path.

Main definitions:
* `SchemaKind`: what a node describes;
* `Facets`: the keywords of a node that hold no schemas;
* `Schema`: nodes and references;
* `Schema.toTitle`, `Schema.pathTitle`: the reference to a title, and the title of a path;
* `Schema.absent`: the node that stands for "no value".
-/

namespace DataShapes

/-- What a node describes. -/
inductive SchemaKind where
  | object
  | integer
  | number
  | string
  | boolean
  | array
  | union
  /-- No value. -/
  | null
deriving DecidableEq, Repr, Inhabited

namespace SchemaKind

/-- The word for a kind. -/
def name : SchemaKind → String
  | .object => "object"
  | .integer => "integer"
  | .number => "number"
  | .string => "string"
  | .boolean => "boolean"
  | .array => "array"
  | .union => "union"
  | .null => "null"

/-- All kinds. -/
def all : List SchemaKind :=
  [.object, .integer, .number, .string, .boolean, .array, .union, .null]

/-- The kind with the given word. -/
def ofName? (s : String) : Option SchemaKind := all.find? fun k => k.name == s

/-- The kind of a node that describes a scalar. -/
def ofScalar : ScalarKind → SchemaKind
  | .integer => .integer
  | .number => .number
  | .string => .string
  | .boolean => .boolean

/-- The scalar that a kind of node describes. -/
def scalar? : SchemaKind → Option ScalarKind
  | .integer => some .integer
  | .number => some .number
  | .string => some .string
  | .boolean => some .boolean
  | _ => none

/-- The kind describes a scalar. -/
def isScalar (k : SchemaKind) : Bool := k.scalar?.isSome

/-- The kind of a scalar is that scalar. -/
@[simp] theorem scalar?_ofScalar (k : ScalarKind) : (ofScalar k).scalar? = some k := by
  cases k <;> rfl

end SchemaKind

/-- The keywords of a node that hold no schemas. -/
structure Facets where
  kind : SchemaKind
  title : Option String := none
  nullable : Bool := false
  /-- The names of required properties. -/
  required : Option (List String) := none
  default : Option Value := none
  enumeration : Option (List Value) := none
  pattern : Option Value := none
  format : Option Value := none
  description : Option Value := none
  sample : Option Value := none
  representation : Option Representation := none
deriving Inhabited

/-- A node, with the schemas of its parts, or a reference. -/
inductive Schema where
  | reference (path : String)
  | node (facets : Facets) (properties : Option (List (String × Schema)))
      (items additional : Option Schema) (members : Option (List Schema))

instance : Inhabited Schema := ⟨.reference ""⟩

namespace Schema

/-! ### References -/

/-- What every reference to a definition starts with. -/
def definitionsPath : String := "#/definitions/"

/-- The reference to the definition with the given title. -/
def toTitle (title : String) : Schema := .reference (definitionsPath ++ title)

/-- The title that a path refers to: what follows its last slash. -/
def pathTitle (path : String) : String :=
  String.ofList (path.toList.reverse.takeWhile (· != '/')).reverse

/-! ### Views of a node -/

/-- The plain keywords, of a node. -/
def facets? : Schema → Option Facets
  | .reference _ => none
  | .node facets _ _ _ _ => some facets

/-- The kind, of a node. -/
def kind? (s : Schema) : Option SchemaKind := s.facets?.map Facets.kind

/-- The schemas of the properties. -/
def properties : Schema → Table Schema
  | .node _ (some properties) _ _ _ => properties
  | _ => []

/-- The names of required properties. -/
def required (s : Schema) : List String := (s.facets?.bind Facets.required).getD []

/-- The schema of items. -/
def items : Schema → Option Schema
  | .node _ _ items _ _ => items
  | .reference _ => none

/-- The schema of values under keys beyond the properties. -/
def additional : Schema → Option Schema
  | .node _ _ _ additional _ => additional
  | .reference _ => none

/-- The members of a union. -/
def members : Schema → List Schema
  | .node _ _ _ _ (some members) => members
  | _ => []

/-- The title, of a node. -/
def title (s : Schema) : Option String := s.facets?.bind Facets.title

/-- Null is admitted by the node itself. -/
def nullable (s : Schema) : Bool := (s.facets?.map Facets.nullable).getD false

/-- The representation that the node asks for. -/
def representation (s : Schema) : Option Representation := s.facets?.bind Facets.representation

/-- The description, of a node. -/
def description (s : Schema) : Option Value := s.facets?.bind Facets.description

/-- The node describes an object. -/
def isObject (s : Schema) : Bool := s.kind? == some .object

/-- The node is a union. -/
def isUnion (s : Schema) : Bool := s.kind? == some .union

/-- The node stands for "no value". -/
def isAbsent (s : Schema) : Bool := s.kind? == some .null

/-- The node describes a scalar. -/
def isScalar (s : Schema) : Bool := (s.kind?.map SchemaKind.isScalar).getD false

/-- The node has a default value. -/
def hasDefault (s : Schema) : Bool := (s.facets?.bind Facets.default).isSome

/-- A map: an object without properties whose other values have a schema, and which is not the
    schema of an object shape. -/
def isMap (s : Schema) : Bool :=
  s.isObject && s.properties.isEmpty && s.additional.isSome && s.representation.isNone

/-! ### Changes to a node -/

/-- Change the plain keywords. -/
def mapFacets (f : Facets → Facets) : Schema → Schema
  | .node facets properties items additional members =>
    .node (f facets) properties items additional members
  | s => s

/-- The node with another title. -/
def withTitle (title : String) (s : Schema) : Schema := s.mapFacets ({ · with title := some title })

/-- The node with other properties. -/
def withProperties (properties : Table Schema) : Schema → Schema
  | .node facets _ items additional members => .node facets (some properties) items additional members
  | s => s

/-- A node whose keywords hold plain data only. -/
def leaf (facets : Facets) : Schema := .node facets none none none none

/-- The node that stands for "no value". -/
def absent : Schema := leaf { kind := .null }

/-- The plain union of some members. -/
def unionOf (members : List Schema) : Schema := .node { kind := .union } none none none (some members)

end Schema

end DataShapes
