import DataShapes.Proofs.Value.Records

/-!
# Plain data

Null, truth values, numbers and texts are plain data, and so are lists, tuples and dictionaries of plain data
when the keys of each dictionary are distinct texts.

Main definitions:
* `Value.Plain`: plain data;
* `Value.hasDistinctKeys`: no dictionary in the value has two equal keys;
* `Value.isFinite`: no number in the value is an infinity or a NaN.
-/

namespace DataShapes

namespace Value

/-- Null, truth values, numbers and texts, and lists, tuples and dictionaries of such, where the keys of a
    dictionary are distinct texts. -/
inductive Plain : Value → Prop
  | null : Plain .null
  | bool (b : Bool) : Plain (.bool b)
  | int (n : Int) : Plain (.int n)
  | float (d : Double) : Plain (.float d)
  | str (s : String) : Plain (.str s)
  | list {items : List Value} : (∀ v ∈ items, Plain v) → Plain (.list items)
  | tuple {items : List Value} : (∀ v ∈ items, Plain v) → Plain (.tuple items)
  | record {entries : List (String × Value)} : (entries.map Prod.fst).Nodup →
      (∀ e ∈ entries, Plain e.2) → Plain (record entries)

mutual

/-- No dictionary in the value has two equal keys. -/
def hasDistinctKeys : Value → Bool
  | .list items | .tuple items => haveDistinctKeys items
  | .dict entries =>
    decide ((entries.map Prod.fst).Pairwise fun a b => (a == b) = false) &&
      entriesHaveDistinctKeys entries
  | _ => true

/-- No dictionary in the values of a list has two equal keys. -/
def haveDistinctKeys : List Value → Bool
  | [] => true
  | v :: vs => hasDistinctKeys v && haveDistinctKeys vs

/-- No dictionary in the keys and values of a dictionary has two equal keys. -/
def entriesHaveDistinctKeys : List (Value × Value) → Bool
  | [] => true
  | (k, v) :: es => hasDistinctKeys k && hasDistinctKeys v && entriesHaveDistinctKeys es

end

mutual

/-- No number in the value is an infinity or a NaN. -/
def isFinite : Value → Bool
  | .float d => d.isFinite
  | .list items | .tuple items => areFinite items
  | .dict entries => entriesAreFinite entries
  | _ => true

/-- No number in the values of a list is an infinity or a NaN. -/
def areFinite : List Value → Bool
  | [] => true
  | v :: vs => isFinite v && areFinite vs

/-- No number in the keys and values of a dictionary is an infinity or a NaN. -/
def entriesAreFinite : List (Value × Value) → Bool
  | [] => true
  | (k, v) :: es => isFinite k && isFinite v && entriesAreFinite es

end

/-- The values of a list have distinct keys when each of them has. -/
theorem haveDistinctKeys_iff {vs : List Value} :
    haveDistinctKeys vs = true ↔ ∀ v ∈ vs, v.hasDistinctKeys = true := by
  induction vs with
  | nil => simp [haveDistinctKeys]
  | cons v vs ih => simp [haveDistinctKeys, ih]

/-- The entries of a dictionary do when all their keys and values do. -/
theorem entriesHaveDistinctKeys_iff {es : List (Value × Value)} : entriesHaveDistinctKeys es = true ↔
    ∀ e ∈ es, e.1.hasDistinctKeys = true ∧ e.2.hasDistinctKeys = true := by
  induction es with
  | nil => simp [entriesHaveDistinctKeys]
  | cons e es ih =>
    obtain ⟨k, v⟩ := e
    simp [entriesHaveDistinctKeys, ih]

/-- A dictionary under texts is the record of its entries. -/
theorem dict_eq_record {es : List (Value × Value)} (h : ∀ e ∈ es, e.1.isStr = true) :
    ∃ entries, Value.dict es = record entries ∧ es.map Prod.snd = entries.map Prod.snd ∧
      es.map Prod.fst = entries.map fun e => .str e.1 := by
  induction es with
  | nil => exact ⟨[], rfl, rfl, rfl⟩
  | cons e es ih =>
    obtain ⟨entries, hdict, hvalues, hkeys⟩ := ih fun f hf => h f (List.mem_cons_of_mem _ hf)
    obtain ⟨k, v⟩ := e
    cases k with
    | str s =>
      refine ⟨(s, v) :: entries, ?_, by simp [hvalues], by simp [hkeys]⟩
      rw [record, Value.dict.injEq] at hdict ⊢
      rw [hdict, List.map_cons]
    | _ => exact absurd (h _ List.mem_cons_self) (by simp [isStr, str?])

/-- A dictionary of plain data under distinct texts is plain. -/
theorem Plain.dict {es : List (Value × Value)} (hkeys : ∀ e ∈ es, e.1.isStr = true)
    (hdistinct : (Value.dict es).hasDistinctKeys = true) (h : ∀ e ∈ es, e.2.Plain) :
    (Value.dict es).Plain := by
  obtain ⟨entries, hdict, hvalues, htexts⟩ := dict_eq_record hkeys
  rw [hasDistinctKeys, Bool.and_eq_true, decide_eq_true_eq, htexts] at hdistinct
  rw [hdict]
  refine .record ?_ fun e he => ?_
  · -- Keys are distinct as values; on texts that is the same as being different.
    rw [List.Nodup, List.pairwise_map]
    rw [List.pairwise_map] at hdistinct
    refine hdistinct.1.imp fun {a b} hne heq => ?_
    rw [str_beq, heq, beq_self_eq_true] at hne
    cases hne
  · have hmem : e.2 ∈ es.map Prod.snd := by
      rw [hvalues]
      exact List.mem_map_of_mem he
    obtain ⟨f, hf, hvalue⟩ := List.mem_map.1 hmem
    rw [← hvalue]
    exact h f hf

end Value

end DataShapes
