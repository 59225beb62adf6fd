import DataShapes.Proofs.Table
import DataShapes.Value.Equality

/-!
# Dictionaries under texts

A dictionary all of whose keys are texts is a table: a look-up in it is one in the table, and entries
build it as they build the table.

Main statements:
* `Value.lookup_record`: what is found under a text;
* `Value.dictOf_record`: what a list of entries builds.
-/

namespace DataShapes

namespace Value

/-- Texts are equal as values when they are equal as texts. -/
theorem str_beq (a b : String) : ((.str a : Value) == .str b) = (a == b) := by
  show Value.equal (.str a) (.str b) = (a == b)
  rw [Value.equal]

/-- A look-up in a dictionary under texts is one in the table. -/
theorem lookup_record (es : List (String × Value)) (key : String) :
    lookup (es.map fun e => (.str e.1, e.2)) (.str key) = Table.get? es key := by
  induction es with
  | nil => rfl
  | cons e es ih =>
    obtain ⟨k, v⟩ := e
    unfold lookup at ih ⊢
    rw [List.map_cons, List.find?_cons, str_beq, Table.get?]
    by_cases h : k = key
    · simp [h]
    · rw [if_neg h, ← ih, beq_eq_false_iff_ne.2 h]

/-- A write to a record is a write to its table. -/
theorem putEntry_record (t : Table Value) (key : String) (value : Value) :
    putEntry (t.map fun e => (.str e.1, e.2)) (.str key) value =
      (t.put key value).map fun e => (.str e.1, e.2) := by
  induction t with
  | nil => rfl
  | cons e t ih =>
    obtain ⟨k, v⟩ := e
    rw [List.map_cons, putEntry, Table.put, str_beq, ih]
    by_cases h : k = key
    · simp [h]
    · simp [h]

/-- Entries under texts build a dictionary as they build a table. -/
theorem dictOf_record (es : List (String × Value)) :
    dictOf (es.map fun e => (.str e.1, e.2)) = (Table.ofList es).map fun e => (.str e.1, e.2) := by
  have hfrom : ∀ t : Table Value,
      (es.map fun e => ((.str e.1 : Value), e.2)).foldl (fun fs e => putEntry fs e.1 e.2)
          (t.map fun e => (.str e.1, e.2)) =
        (t.putAll es).map fun e => (.str e.1, e.2) := by
    induction es with
    | nil => exact fun t => rfl
    | cons e es ih =>
      intro t
      rw [List.map_cons, List.foldl_cons, putEntry_record, ih, Table.putAll_cons]
  exact hfrom []

end Value

end DataShapes
