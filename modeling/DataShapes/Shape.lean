import DataShapes.Property
import DataShapes.TypeExpr.OfSchema

/-!
# Defined shapes

A defined shape carries both results of its definition, the schema and the type signature, and the
declarations that they came from.

Main definitions:
* `Shape`, `ShapeBody`: a defined shape, and what it was declared by;
* `Shape.enforcedKeys`, `Shape.defaults`, `Shape.required`: views of its properties;
* `Shape.handle`: the shape as a value.
-/

namespace DataShapes

/-- What a shape was declared by. -/
inductive ShapeBody where
  /-- A shape that is not an object: a type and its options. -/
  | type (descriptor : Descriptor) (options : PropertyOptions)
  /-- An object: its properties, inherited ones included, the type of values under other keys, and
      the name of the shape that it extends. -/
  | object (specs : List PropertySpec) (additional : Option (Descriptor × PropertyOptions))
      (options : ObjectOptions) (parent : Option String)
deriving Inhabited

/-- A defined shape. -/
structure Shape where
  /-- The declared name. -/
  name : String
  title : String
  schema : Schema
  registry : Registry
  signature : TypeExpr
  body : ShapeBody
deriving Inhabited

namespace Shape

/-- The shape describes objects. -/
def isObject (s : Shape) : Bool :=
  match s.body with
  | .object .. => true
  | .type .. => false

/-- Null is a value of the shape. -/
def nullable (s : Shape) : Bool :=
  match s.body with
  | .object _ _ options _ => options.nullable
  | .type _ options => options.nullable

/-- The type of a shape that is not an object. -/
def descriptor? (s : Shape) : Option Descriptor :=
  match s.body with
  | .type descriptor _ => some descriptor
  | .object .. => none

/-- The properties of an object, inherited ones included. -/
def specs (s : Shape) : List PropertySpec :=
  match s.body with
  | .object specs _ _ _ => specs
  | .type .. => []

/-- The type of values under keys beyond the properties. -/
def additional (s : Shape) : Option (Descriptor × PropertyOptions) :=
  match s.body with
  | .object _ additional _ _ => additional
  | .type .. => none

/-- The name of the shape that an object extends. -/
def parent (s : Shape) : Option String :=
  match s.body with
  | .object _ _ _ parent => parent
  | .type .. => none

/-- The representation that the schema asks for. -/
def representation (s : Shape) : Option Representation := s.schema.representation

/-- The names of required properties. -/
def required (s : Shape) : List String := s.schema.required

/-- The default of each property, null where there is none. -/
def defaults (s : Shape) : Table Value :=
  s.specs.map fun spec => (spec.name, spec.options.default.getD .null)

/-- The properties for which a value must be supplied. -/
def enforcedKeys (s : Shape) : List String :=
  (s.specs.filter PropertySpec.needsValue).map PropertySpec.name

/-- The signature as a type hint. -/
def hint (s : Shape) : Except Problem String := s.signature.hint

/-- The shape as a value, in the catalog with the given name. -/
def handle (s : Shape) (catalog : String) : ShapeHandle := ⟨catalog, s.name, s.title, s.isObject⟩

/-- What a shape that extends this one takes over. -/
def inherited (s : Shape) : TypeExpr.Inherited := ⟨s.signature, s.schema⟩

end Shape

end DataShapes
