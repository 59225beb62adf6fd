import DataShapes.Proofs.Assembly.Objects
import Mathlib.Data.List.Nodup

/-!
# The order of properties

Declaring the properties of an object in another order permutes its schema and changes nothing else
about it.  What is written to the registry is another matter: when several properties write one key,
the last of them counts.

Main statements:
* `Inheritance.merge_perm`: merging keeps inherited properties in place and permutes the others;
* `Assembly.find?_writesOfSpecs`: what properties write under a key on which they agree.
-/

namespace DataShapes

namespace Inheritance

variable {α : Type} {key : α → String} {own own' : List α}

/-- When no key occurs twice, the last item under a key is the one. -/
theorem lastWith_eq_some_iff (h : (own.map key).Nodup) {name : String} {x : α} :
    lastWith key name own = some x ↔ x ∈ own ∧ key x = name := by
  constructor
  · intro hx
    exact ⟨List.mem_reverse.1 (List.mem_of_find?_eq_some hx), key_lastWith hx⟩
  · rintro ⟨hx, hname⟩
    cases hlast : lastWith key name own with
    | none =>
      have := List.find?_eq_none.1 hlast x (List.mem_reverse.2 hx)
      simp [hname] at this
    | some y =>
      have hy : y ∈ own := List.mem_reverse.1 (List.mem_of_find?_eq_some hlast)
      -- Another item under the key would have the same key.
      have heq : key y = key x := (key_lastWith hlast).trans hname.symm
      rw [List.inj_on_of_nodup_map h hy hx heq]

/-- The last item with a name is the same in every order when the names are distinct. -/
theorem lastWith_perm (h : own.Perm own') (hnodup : (own.map key).Nodup) (name : String) :
    lastWith key name own = lastWith key name own' := by
  refine Option.ext fun x => ?_
  rw [lastWith_eq_some_iff hnodup, lastWith_eq_some_iff ((h.map key).nodup_iff.1 hnodup),
    h.mem_iff]

/-- What is settled under a name does not depend on the order of distinct names. -/
theorem settled_perm (h : own.Perm own') (hnodup : (own.map key).Nodup) (inherited : List α) :
    settled key own inherited = settled key own' inherited := by
  induction inherited with
  | nil => rfl
  | cons x xs ih => rw [settled, settled, ih, lastWith_perm h hnodup]

/-- Merging keeps inherited items where they are and permutes the others. -/
theorem merge_perm (h : own.Perm own') (hnodup : (own.map key).Nodup) (inherited : List α) :
    (merge key inherited own).Perm (merge key inherited own') := by
  rw [merge, merge, settled_perm h hnodup]
  exact (h.filter _).append_left _

/-- What a look-up finds among merged entries does not depend on the order of the own ones. -/
theorem get?_merge_perm {α : Type} {own own' inherited : Table α} (h : own.Perm own')
    (hnodup : own.keys.Nodup) (name : String) :
    Table.get? (merge Prod.fst inherited own) name
      = Table.get? (merge Prod.fst inherited own') name := by
  rw [merge, merge, settled_perm h hnodup, Table.get?_append, Table.get?_append]
  congr 1
  refine Table.get?_perm (h.filter _) ?_ name
  exact hnodup.sublist (List.filter_sublist.map Prod.fst)

/-- A required name is declared so, or taken over and not declared otherwise. -/
theorem mem_mergeRequired {declared inherited own : List String} {name : String} :
    name ∈ mergeRequired declared inherited own ↔
      name ∈ own ∨ name ∈ inherited ∧ name ∉ declared := by
  simp only [mergeRequired, List.mem_append, List.mem_filter, Bool.or_eq_true, Bool.not_eq_true',
    List.contains_eq_mem, decide_eq_true_eq, decide_eq_false_iff_not]
  tauto

end Inheritance

/-! ### Writes -/

namespace Assembly

variable {a : Assembly}

/-- What is written for the last property counts before what is written for the others. -/
theorem find?_writesOfSpecs_concat (specs : List PropertySpec) (s : PropertySpec) (k : LookupKey) :
    (a.writesOfSpecs (specs ++ [s])).find? k
      = ((a.writes s.descriptor s.options).find? k).or ((a.writesOfSpecs specs).find? k) := by
  induction specs with
  | nil => simp [writesOfSpecs, Writes.find?_append]
  | cons t specs ih =>
    rw [List.cons_append, writesOfSpecs, writesOfSpecs, Writes.find?_append, Writes.find?_append,
      ih, Option.or_assoc]

/-- Under a key that some property writes and on which all that write it agree, the properties write
    what they agree on. -/
theorem find?_writesOfSpecs {specs : List PropertySpec} {k : LookupKey} {unit : String}
    (hagree : ∀ s ∈ specs, ∀ u, (a.writes s.descriptor s.options).find? k = some u → u = unit) :
    (a.writesOfSpecs specs).find? k
      = if ∃ s ∈ specs, ((a.writes s.descriptor s.options).find? k).isSome = true
        then some unit else none := by
  induction specs with
  | nil => simp [writesOfSpecs]
  | cons s specs ih =>
    rw [List.forall_mem_cons] at hagree
    rw [writesOfSpecs, Writes.find?_append, ih hagree.2]
    simp only [List.exists_mem_cons_iff]
    -- What a later property writes counts first, and it is what all of them write.
    by_cases htail : ∃ s ∈ specs, ((a.writes s.descriptor s.options).find? k).isSome = true
    · rw [if_pos htail, if_pos (.inr htail), Option.some_or]
    · rw [if_neg htail, Option.none_or]
      cases hs : (a.writes s.descriptor s.options).find? k with
      | none => simp [htail]
      | some u => simp [hagree.1 u hs]

end Assembly

end DataShapes
