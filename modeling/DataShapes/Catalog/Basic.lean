import DataShapes.Shape

/-!
# Catalogs of shapes

A catalog holds the shapes defined so far under their declared names, in the order of their
definition.

Main definitions:
* `Catalog`, `Catalog.get`: a catalog, and its shape with a given name;
* `Scope`, `Scope.find`: where the names in a descriptor lead.
-/

namespace DataShapes

/-- The shapes defined so far. -/
structure Catalog where
  /-- What tells the catalog apart from others. -/
  id : String := ""
  shapes : Table Shape := []
deriving Inhabited

namespace Catalog

/-- The declared names, in the order of definition. -/
def names (c : Catalog) : List String := c.shapes.keys

/-- The shapes, in the order of definition. -/
def definitions (c : Catalog) : List Shape := c.shapes.values

/-- A shape with the name has been defined. -/
def contains (c : Catalog) (name : String) : Bool := c.shapes.contains name

/-- The shape with the given name. -/
def get (c : Catalog) (name : String) : Except Problem Shape :=
  match c.shapes.get? name with
  | some shape => .ok shape
  | none => .error (.shapeNotFound name c.names)

/-- Add a shape under its declared name. -/
def add (c : Catalog) (shape : Shape) : Catalog :=
  { c with shapes := c.shapes.put shape.name shape }

/-- Adding a shape does not change what another name means. -/
theorem get?_add {c : Catalog} {shape : Shape} {name : String} (h : name ≠ shape.name) :
    (c.add shape).shapes.get? name = c.shapes.get? name :=
  Table.get?_put_of_ne _ _ h

/-- The shape that was added is under its name. -/
@[simp] theorem get?_add_self (c : Catalog) (shape : Shape) :
    (c.add shape).shapes.get? shape.name = some shape := Table.get?_put_self _ _ _

end Catalog

/-- What a name leads to. -/
inductive Target where
  /-- Names lead nowhere here. -/
  | nothing
  /-- The shape that is being defined. -/
  | unfinished
  | shape (shape : Shape)
deriving Inhabited

/-- Where the names in a descriptor lead. -/
inductive Scope where
  /-- Names lead nowhere. -/
  | nowhere
  /-- Every name means the shape that is being defined. -/
  | unfinished
  /-- Names mean the shapes of a catalog. -/
  | within (catalog : Catalog)
  /-- One name means the shape that is being defined, the others the shapes of a catalog, if there
      is one. -/
  | defining (name : String) (catalog : Option Catalog)

namespace Scope

/-- What a name leads to.  A name that is not defined is a problem. -/
def find : Scope → String → Except Problem Target
  | .nowhere, _ => .ok .nothing
  | .unfinished, _ => .ok .unfinished
  | .within c, name => do return .shape (← c.get name)
  | .defining self catalog, name =>
    if name = self then .ok .unfinished
    else
      match catalog.bind (·.shapes.get? name) with
      | some shape => .ok (.shape shape)
      | none => .error (.shapeNotDefined name self ((catalog.map Catalog.names).getD []))

/-- The number of shapes that names can lead to. -/
def size : Scope → Nat
  | .nowhere | .unfinished => 0
  | .within c => c.shapes.length
  | .defining _ c => (c.map (·.shapes.length)).getD 0

end Scope

end DataShapes
