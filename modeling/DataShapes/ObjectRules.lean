import DataShapes.Property
import DataShapes.Notice

/-!
# Rules for the properties of an object

No two properties of an object share a name, and a fixed record has a value for each of its fields
and no other keys.

Main definitions:
* `checkDistinctNames`, `checkRecord`: the two rules.
-/

namespace DataShapes

/-- No name occurs twice; `seen` are the names before. -/
def checkNamesAfter (title : String) (seen : List String) : List PropertySpec → Except Problem Unit
  | [] => .ok ()
  | s :: specs =>
    if seen.contains s.name then .error (.duplicateProperty s.name title)
    else checkNamesAfter title (s.name :: seen) specs

/-- No two properties share a name. -/
def checkDistinctNames (title : String) (specs : List PropertySpec) : Except Problem Unit :=
  checkNamesAfter title [] specs

/-- A fixed record admits no other keys, and there is a value for each of its properties. -/
def checkRecord (title : String) (specs : List PropertySpec)
    (additional : Option (Descriptor × PropertyOptions)) (options : ObjectOptions) :
    Except Problem Unit :=
  if !options.isFixedRecord then .ok ()
  else if additional.isSome then .error (.closedRecordWithExtras title)
  else
    match specs.find? (!·.alwaysHasValue) with
    | some s => .error (.valuelessField title s.name)
    | none => .ok ()

/-! ### What passes the rules -/

/-- The check that goes along the names passes when they are distinct and none has been seen before. -/
theorem checkNamesAfter_eq_ok_iff (title : String) (seen : List String) (specs : List PropertySpec) :
    checkNamesAfter title seen specs = .ok () ↔
      (specs.map PropertySpec.name).Nodup ∧ ∀ s ∈ specs, s.name ∉ seen := by
  induction specs generalizing seen with
  | nil => simp [checkNamesAfter]
  | cons s specs ih =>
    -- A name that passes joins those that have been seen, so the list of these grows along the induction.
    unfold checkNamesAfter
    by_cases h : seen.contains s.name = true
    · simp only [h, if_true, reduceCtorEq, false_iff]
      rintro ⟨-, hall⟩
      exact hall s (List.mem_cons_self ..) (by simpa using h)
    · rw [if_neg h, ih]
      have hs : s.name ∉ seen := by simpa using h
      simp only [List.map_cons, List.nodup_cons, List.mem_cons, not_or, List.mem_map, forall_eq_or_imp]
      constructor
      · rintro ⟨hnodup, hall⟩
        refine ⟨⟨?_, hnodup⟩, hs, fun t ht => (hall t ht).2⟩
        rintro ⟨t, ht, hname⟩
        exact (hall t ht).1 hname
      · rintro ⟨⟨hnew, hnodup⟩, -, hall⟩
        exact ⟨hnodup, fun t ht => ⟨fun hname => hnew ⟨t, ht, hname⟩, hall t ht⟩⟩

/-- The names are in order exactly when they are distinct. -/
theorem checkDistinctNames_eq_ok_iff (title : String) (specs : List PropertySpec) :
    checkDistinctNames title specs = .ok () ↔ (specs.map PropertySpec.name).Nodup := by
  simp [checkDistinctNames, checkNamesAfter_eq_ok_iff]

/-- An object is in order exactly when it is no fixed record, or it admits no other keys and has a
    value for each property. -/
theorem checkRecord_eq_ok_iff (title : String) (specs : List PropertySpec)
    (additional : Option (Descriptor × PropertyOptions)) (options : ObjectOptions) :
    checkRecord title specs additional options = .ok () ↔
      (options.isFixedRecord = true →
        additional = none ∧ ∀ s ∈ specs, s.alwaysHasValue = true) := by
  unfold checkRecord
  cases options.isFixedRecord
  · simp
  · cases additional with
    | some a => simp
    | none =>
      -- The check reports the first property that may lack a value, if there is one.
      cases h : specs.find? (!·.alwaysHasValue) with
      | some s =>
        simp only [Bool.not_true, Bool.false_eq_true, if_false, Option.isSome_none, reduceCtorEq,
          false_iff, true_implies, true_and]
        intro hall
        have := List.find?_some h
        simp [hall s (List.mem_of_find?_eq_some h)] at this
      | none =>
        simp only [Bool.not_true, Bool.false_eq_true, if_false, Option.isSome_none, true_implies,
          true_and, true_iff]
        intro s hs
        have := List.find?_eq_none.1 h s hs
        simpa using this

end DataShapes
