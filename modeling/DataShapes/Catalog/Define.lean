import DataShapes.Assembly

/-!
# Definition of shapes

A definition assembles the schema of a shape in a registry of its own, seals the registry, reads the
type signature off the schema, and adds the shape to the catalog.  When any of these steps fails the
catalog stays as it was.

Main definitions:
* `ObjectDeclaration`, `TypeDeclaration`: the arguments of a definition;
* `Catalog.defineObject`, `Catalog.defineType`: the two kinds of definition.
-/

namespace DataShapes

/-- The declaration of an object shape. -/
structure ObjectDeclaration where
  name : Value
  properties : List Declaration := []
  title : Value := .null
  additional : Value := .null
  /-- Named options. -/
  options : List (Value × Value) := []

/-- The declaration of a shape that is not an object. -/
structure TypeDeclaration where
  name : Value
  type : Value
  title : Value := .null
  /-- Named options. -/
  options : List (Value × Value) := []

namespace Catalog

/-- The name of a new shape: a text that is not empty and not taken. -/
def newName (c : Catalog) (v : Value) : Except Problem String :=
  match v with
  | .str name =>
    if name.isEmpty then .error (.badShapeName v)
    else if c.contains name then .error (.duplicateShape name)
    else .ok name
  | v => .error (.badShapeName v)

/-- The title of a new shape, which is its name unless a title is given. -/
def titleOr (name : String) (title : Value) : String := if title.isTruthy then title.text else name

/-- The shape that a handle means, in this catalog or elsewhere. -/
def follow (c : Catalog) (elsewhere : ShapeHandle → Option Shape) (h : ShapeHandle) : Option Shape :=
  if h.catalog = c.id then c.shapes.get? h.name else elsewhere h

/-- The shape that a new shape extends. -/
def extended (c : Catalog) (elsewhere : ShapeHandle → Option Shape) (name : String) (base : Value) :
    Except Problem (Option Shape) := do
  let parent ← match base with
    | .null => return none
    | .str other => if other = name then .error (.extendsItself name) else c.get other
    | .shape h =>
      match c.follow elsewhere h with
      | some shape => pure shape
      | none => .error (.extendsNoShape name base)
    | v => .error (.extendsNoShape name v)
  if parent.isObject then return some parent else .error (.extendsType name parent.name)

/-- Add a finished shape to the catalog. -/
def register (c : Catalog) (shape : Shape) : Noted (Catalog × Shape) := do
  Noted.note .debug .definition
    ("Defined shape '" ++ shape.name ++ "' (title=" ++ Quoted.quote shape.title ++ ", references="
      ++ Literal.texts (Text.sorted shape.registry.entries.keys) ++ ")")
  return (c.add shape, shape)

/-- Define an object shape.  `elsewhere` finds the shapes of other catalogs. -/
def defineObject (c : Catalog) (elsewhere : ShapeHandle → Option Shape) (d : ObjectDeclaration) :
    Noted (Catalog × Shape) := do
  let name ← c.newName d.name
  let title := titleOr name d.title
  let options ← ObjectOptions.ofEntries d.options
  let specs ← (d.properties.mapM PropertySpec.ofDeclaration : Except Problem _)
  let additional ← additionalOfValue d.additional
  let parent ← c.extended elsewhere name options.base
  let a : Assembly := ⟨name, title, some c⟩
  let (schema, registry) ←
    (a.objectSchema name specs additional options parent { owner := some name }).onDefinitionProblem
      .definition fun p => "Failed to define object shape '" ++ name ++ "': " ++ p.message
  -- No reference is recorded any more once the signature is read off the schema.
  let registry := registry.close
  let own := specs.map (·.withDefaults options)
  -- The schema has been merged with that of the parent; the declarations are merged in the same
  -- way.
  let all ← match parent with
    | none => pure own
    | some parent => Inheritance.mergeSpecs parent.specs own
  let signature ← TypeExpr.ofObject registry schema options (some name) (parent.map Shape.inherited)
  c.register
    { name, title, schema, registry, signature,
      body := .object all additional options (parent.map Shape.name) }

/-- The schema of a type shape with its title.  A reference cannot carry one and an embedded schema
    keeps its own, so either becomes the only member of a union. -/
def titledSchema (title : String) (d : Descriptor) (s : Schema) : Schema :=
  let bare := s.kind?.isNone || d.isNamed && !s.isUnion
  (if bare then Schema.unionOf [s] else s).withTitle title

/-- Define a shape that is not an object. -/
def defineType (c : Catalog) (d : TypeDeclaration) : Noted (Catalog × Shape) := do
  let name ← c.newName d.name
  let title := titleOr name d.title
  let descriptor ← Shorthand.read d.type
  let options ← PropertyOptions.ofEntries d.options
  let a : Assembly := ⟨name, title, some c⟩
  let (s, registry) ←
    (a.schemaOf name descriptor options { owner := some name }).onDefinitionProblem
      .definition fun p => "Failed to define type shape '" ++ name ++ "': " ++ p.message
  let registry := registry.close
  let schema := titledSchema title descriptor s
  let signature ← TypeExpr.ofNormalForm registry schema
  c.register
    { name, title, schema, registry, signature, body := .type descriptor options }

/-! ### What a definition leaves behind -/

/-- Registering a shape succeeds and adds it. -/
@[simp] theorem result_register (c : Catalog) (shape : Shape) :
    (c.register shape).result = .ok (c.add shape, shape) := rfl

end Catalog

end DataShapes
