import DataShapes.Catalog.Basic
import DataShapes.Text.Identifier

/-!
# Stubs of shapes

The stub of a shape is what the generated module says about it: a type alias for a type shape, a
data class for a fixed record, and a typed dictionary for an open map.  A property name that is no
identifier cannot be an attribute, so the shape then becomes a typed dictionary in the functional
form.

Main definitions:
* `StubShape`, `StubField`: the stub of a shape and its fields;
* `StubShape.ofShape`: the stub of a defined shape;
* `Catalog.stubs`: the stubs of a catalog.
-/

namespace DataShapes

/-- A field of a stub. -/
structure StubField where
  name : String
  hint : String
  required : Bool := true
  /-- The source text of the default, if there is one. -/
  default : Option String := none
deriving DecidableEq, Repr

/-- The form of a stub. -/
inductive StubKind where
  | dataclass
  | typedDict
  | alias
deriving DecidableEq, Repr, Inhabited

namespace StubKind

/-- The word for a form. -/
def name : StubKind → String
  | .dataclass => "dataclass"
  | .typedDict => "typed_dict"
  | .alias => "alias"

/-- The form that a word means; every unknown word means a typed dictionary. -/
def ofName (s : String) : StubKind :=
  if s = "dataclass" then .dataclass else if s = "alias" then .alias else .typedDict

end StubKind

/-- The stub of a shape. -/
structure StubShape where
  name : String
  kind : StubKind
  hint : String := ""
  description : Option Value := none
  fields : List StubField := []
  /-- The type hint of values under other keys. -/
  extra : Option String := none
  /-- The typed dictionary is in the functional form. -/
  functional : Bool := false

/-- The name can be an attribute. -/
def isAttributeName (name : String) : Bool := Text.isIdentifier name && !Text.isKeyword name

/-- The source text of a default: containers are made anew for each instance. -/
def defaultSource (v : Value) : String :=
  match v with
  | .list _ | .tuple _ | .dict _ => "field(default_factory=lambda: " ++ v.literal ++ ")"
  | v => v.literal

namespace StubField

/-- The source text of the default of a property; null is the default of what is nullable. -/
def defaultOf (o : PropertyOptions) : Option String :=
  match o.default with
  | some v => some (defaultSource v)
  | none => if o.nullable then some Literal.none else none

/-- The options of the last property with the given name. -/
def optionsOf (specs : List PropertySpec) (name : String) : PropertyOptions :=
  ((specs.reverse.find? fun s => s.name == name).map PropertySpec.options).getD {}

/-- The field of a record type. -/
def ofField (specs : List PropertySpec) (f : FieldType) : Except Problem StubField := do
  return ⟨f.name, ← f.type.hint, f.required, defaultOf (optionsOf specs f.name)⟩

end StubField

namespace StubShape

/-- The type hint of values under other keys. -/
def extraHint : Option TypeExpr → Except Problem (Option String)
  | some e => do return some (← e.hint)
  | none => .ok none

/-- The stub of a record. -/
def ofRecord (s : Shape) (record : RecordType) : Noted StubShape := do
  let fields ← (record.fields.mapM (StubField.ofField s.specs) : Except Problem _)
  let functional := !fields.all fun f => isAttributeName f.name
  let fixed := record.representation == .fixedRecord
  if functional && fixed then
    Noted.note .warning .stubs
      ("Shape '" ++ s.name ++ "' has property names that are not Python identifiers; "
        ++ "rendering it as a TypedDict")
  let extra ← extraHint record.extra
  return { name := s.name, kind := if fixed && !functional then .dataclass else .typedDict,
           description := s.schema.description, fields, extra, functional }

/-- The stub of a defined shape. -/
def ofShape (s : Shape) : Noted StubShape :=
  match s.body, s.signature.record? with
  | .object .., some record => ofRecord s record
  | _, _ => do
    let hint ← (s.hint : Except Problem _)
    return { name := s.name, kind := .alias, hint }

/-- The stubs of shapes, in order. -/
def ofShapes : List Shape → Noted (List StubShape)
  | [] => pure []
  | s :: shapes => do
    let first ← ofShape s
    let rest ← ofShapes shapes
    return first :: rest

end StubShape

/-- The stubs of a catalog, in the order of definition. -/
def Catalog.stubs (c : Catalog) : Noted (List StubShape) := StubShape.ofShapes c.definitions

end DataShapes
