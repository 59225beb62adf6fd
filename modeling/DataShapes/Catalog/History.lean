import DataShapes.Catalog.Define

/-!
# Catalogs by their histories

A catalog is what a row of definitions makes of the empty one.  A definition that fails leaves it as it was,
so every row of definitions leads to a catalog.

Main definitions:
* `Definition`, `Catalog.define`: a definition of either kind, and what it does;
* `Catalog.after`: the catalog after a row of definitions.
-/

namespace DataShapes

/-- The definition of a shape of either kind. -/
inductive Definition where
  | object (d : ObjectDeclaration)
  | type (d : TypeDeclaration)

/-- The name that a definition is for. -/
def Definition.name : Definition → Value
  | .object d => d.name
  | .type d => d.name

namespace Catalog

/-- Define a shape of either kind. -/
def define (c : Catalog) (elsewhere : ShapeHandle → Option Shape) : Definition → Noted (Catalog × Shape)
  | .object d => c.defineObject elsewhere d
  | .type d => c.defineType d

/-- The catalog after a definition, which may have failed. -/
def step (c : Catalog) (elsewhere : ShapeHandle → Option Shape) (d : Definition) : Catalog :=
  match (c.define elsewhere d).result with
  | .ok (c, _) => c
  | .error _ => c

/-- The catalog after a row of definitions, where shapes of other catalogs cannot be meant. -/
def after (c : Catalog) (ds : List Definition) : Catalog :=
  ds.foldl (fun c d => c.step (fun _ => none) d) c

/-! ### Histories compose -/

@[simp] theorem after_nil (c : Catalog) : c.after [] = c := rfl

@[simp] theorem after_cons (c : Catalog) (d : Definition) (ds : List Definition) :
    c.after (d :: ds) = (c.step (fun _ => none) d).after ds := rfl

/-- A row of definitions can be made in two parts. -/
theorem after_append (c : Catalog) (ds es : List Definition) :
    c.after (ds ++ es) = (c.after ds).after es := by
  simp [after]

/-- A definition that fails leaves the catalog as it was. -/
theorem step_of_error {c : Catalog} {elsewhere : ShapeHandle → Option Shape} {d : Definition}
    {p : Problem} (h : (c.define elsewhere d).result = .error p) : c.step elsewhere d = c := by
  simp [step, h]

end Catalog

end DataShapes
