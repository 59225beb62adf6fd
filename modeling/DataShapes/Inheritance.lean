import DataShapes.Property
import DataShapes.Notice
import DataShapes.Schema.Literal

/-!
# Inheritance between object shapes

An object shape that extends another one takes over its properties.  A property that both declare
stays where the extended shape has it, with the declaration of the extending shape; the others
follow in the order of their declaration.  Whether a key is required follows the same rule.  Nothing
else is taken over.

Main definitions:
* `Inheritance.merge`: the merged list;
* `Inheritance.mergeSpecs`, `Inheritance.extend`: the merge of declarations, and of schemas.
-/

namespace DataShapes

namespace Inheritance

variable {α : Type}

/-- The last item under a key. -/
def lastWith (key : α → String) (name : String) (items : List α) : Option α :=
  items.reverse.find? fun x => key x == name

/-- Some item is under the key. -/
def hasKey (key : α → String) (name : String) (items : List α) : Bool :=
  items.any fun x => key x == name

/-- The inherited items, where one that is declared again is replaced by the last declaration.  Of
    inherited items under one key the last is replaced. -/
def settled (key : α → String) (own : List α) : List α → List α
  | [] => []
  | x :: xs =>
    (if hasKey key (key x) xs then x else (lastWith key (key x) own).getD x) :: settled key own xs

/-- The inherited items with their new declarations, followed by the items that are new. -/
def merge (key : α → String) (inherited own : List α) : List α :=
  settled key own inherited ++ own.filter fun x => !hasKey key (key x) inherited

/-- Leave a notice for each item that is declared again. -/
def noteOverrides (key : α → String) (inherited : List α) : List α → Noted Unit
  | [] => pure ()
  | x :: xs => do
    if hasKey key (key x) inherited then
      Noted.note .debug .inheritance ("Property '" ++ key x ++ "' overrides the inherited declaration")
    noteOverrides key inherited xs

/-- Merge the declarations of properties. -/
def mergeSpecs (inherited own : List PropertySpec) : Noted (List PropertySpec) := do
  noteOverrides PropertySpec.name inherited own
  return merge PropertySpec.name inherited own

/-- The required names: the inherited ones that are not declared again as optional, then the others
    of the extending shape. -/
def mergeRequired (declared : List String) (inherited own : List String) : List String :=
  let kept := inherited.filter fun name => !declared.contains name || own.contains name
  kept ++ own.filter (!kept.contains ·)

/-- The schema of an object shape with the properties and required names of the shape that it
    extends, which must be an object. -/
def extend (child : Schema) (parent : Option Schema) : Noted Schema :=
  match parent with
  | none => Noted.fail (.extendsNoObject child.title Literal.none)
  | some parent =>
    if !parent.isObject then Noted.fail (.extendsNoObject child.title parent.literal)
    else do
      noteOverrides Prod.fst parent.properties child.properties
      let properties := merge Prod.fst parent.properties child.properties
      let required := mergeRequired child.properties.keys parent.required child.required
      return (child.mapFacets ({ · with required := some required })).withProperties properties

/-! ### The merged list -/

/-- A key is there when it is the key of some item. -/
theorem hasKey_iff (key : α → String) (name : String) (items : List α) :
    hasKey key name items = true ↔ name ∈ items.map key := by
  simp [hasKey, List.any_eq_true]

/-- A new declaration stays under the key of the one that it replaces. -/
theorem key_lastWith {key : α → String} {name : String} {items : List α} {x : α}
    (h : lastWith key name items = some x) : key x = name := by
  have := List.find?_some h
  simpa using this

/-- Replacing inherited items keeps their keys. -/
theorem keys_settled (key : α → String) (own inherited : List α) :
    (settled key own inherited).map key = inherited.map key := by
  induction inherited with
  | nil => rfl
  | cons x xs ih =>
    simp only [settled, List.map_cons, ih, List.cons.injEq, and_true]
    split
    · rfl
    · cases h : lastWith key (key x) own with
      | none => rfl
      | some y => exact key_lastWith h

/-- The keys of the merged list: the inherited ones, then the new ones. -/
theorem keys_merge (key : α → String) (inherited own : List α) :
    (merge key inherited own).map key
      = inherited.map key ++ (own.map key).filter (!(inherited.map key).contains ·) := by
  unfold merge
  rw [List.map_append, keys_settled, List.filter_map]
  congr 3
  funext x
  have : hasKey key (key x) inherited = (inherited.map key).contains (key x) := by
    rw [Bool.eq_iff_iff, hasKey_iff]
    simp
  simp [this]

/-- Notices do not stop a merge. -/
@[simp] theorem result_noteOverrides (key : α → String) (inherited own : List α) :
    (noteOverrides key inherited own).result = .ok () := by
  induction own with
  | nil => rfl
  | cons x xs ih =>
    unfold noteOverrides
    split <;> simp [ih, Except.bind]

/-- Notices apart, declarations are merged by their names. -/
@[simp] theorem result_mergeSpecs (inherited own : List PropertySpec) :
    (mergeSpecs inherited own).result = .ok (merge PropertySpec.name inherited own) := by
  simp [mergeSpecs, Except.bind]

end Inheritance

end DataShapes
