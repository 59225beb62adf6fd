import DataShapes.Conformance

/-!
# Rules for the options of a property

The options of a property must fit its type: enumeration, pattern and format go with the string
type alone, an enumeration lists texts, and a default has the type of the property.

Main definitions:
* `checkConstraints`, `checkDefault`: the two rules;
* `checkProperty`: both of them.
-/

namespace DataShapes

/-- Enumeration, pattern and format are given for the string type only, and an enumeration lists
    texts. -/
def checkConstraints (name : String) (d : Descriptor) (o : PropertyOptions) : Except Problem Unit :=
  match o.enumeration with
  | some values =>
    if !d.isString then .error (.misplacedConstraint name .enumeration d)
    else if values.any (!·.isStr) then .error (.nonTextEnumeration name)
    else .ok ()
  | none =>
    if o.pattern.isSome && !d.isString then .error (.misplacedConstraint name .pattern d)
    else if o.format.isSome && !d.isString then .error (.misplacedConstraint name .format d)
    else .ok ()

/-- A default has the type of the property. -/
def checkDefault (scope : Scope) (name : String) (d : Descriptor) (o : PropertyOptions) :
    Noted Unit := do
  match o.default with
  | none => pure ()
  | some v =>
    if !(← conforms scope v d) then Noted.fail (.defaultMismatch name v d)

/-- The options of a property fit its type. -/
def checkProperty (scope : Scope) (name : String) (d : Descriptor) (o : PropertyOptions) :
    Noted Unit := do
  checkConstraints name d o
  checkDefault scope name d o

/-- The constraints of a property are in order exactly when those that are given go with the string
    type and the enumeration lists texts. -/
theorem checkConstraints_eq_ok_iff (name : String) (d : Descriptor) (o : PropertyOptions) :
    checkConstraints name d o = .ok () ↔
      (o.enumeration.isSome ∨ o.pattern.isSome ∨ o.format.isSome → d.isString = true)
        ∧ ∀ values, o.enumeration = some values → ∀ v ∈ values, v.isStr = true := by
  unfold checkConstraints
  cases he : o.enumeration with
  | none => cases hp : o.pattern <;> cases hf : o.format <;> cases d.isString <;> simp
  | some values =>
    cases hd : d.isString
    · simp
    · -- On a text the constraints go together, and all that is left to check are the listed values.
      by_cases h : values.any (!·.isStr) = true
      · simp only [Bool.not_true, Bool.false_eq_true, if_false, h, if_true]
        simp only [reduceCtorEq, false_iff, not_and]
        intro _ hall
        obtain ⟨v, hv, hn⟩ := List.any_eq_true.1 h
        have := hall values rfl v hv
        simp [this] at hn
      · simp only [Bool.not_true, Bool.false_eq_true, if_false, h]
        simp only [true_iff]
        refine ⟨fun _ => trivial, ?_⟩
        intro vs hvs v hv
        cases hvs
        by_cases hs : v.isStr = true
        · exact hs
        · exact absurd (List.any_eq_true.2 ⟨v, hv, by simpa using hs⟩) h

end DataShapes
