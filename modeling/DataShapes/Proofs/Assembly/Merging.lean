import DataShapes.Proofs.Assembly.Order

/-!
# What a merged list holds

When no key occurs twice on either side, a merged list holds the own items and those inherited items
whose keys are not declared again.  The keys stand in the order in which they first occur, and none
occurs twice.

Main statements:
* `Inheritance.mem_merge_iff`: the items of a merged list;
* `Inheritance.keys_merge_eq_eraseDups`: the order of their keys;
* `Inheritance.get?_merge`: what is found under a key of merged tables;
* `Inheritance.nodup_mergeRequired`: no name is required twice.
-/

namespace DataShapes

namespace Inheritance

variable {α : Type} {key : α → String} {inherited own : List α} {x : α}

/-- No item is the last one under a key exactly when none is under it. -/
theorem lastWith_eq_none_iff {name : String} : lastWith key name own = none ↔ name ∉ own.map key := by
  unfold lastWith
  rw [List.find?_eq_none]
  constructor
  · intro h hname
    obtain ⟨y, hy, hyname⟩ := List.mem_map.1 hname
    exact h y (List.mem_reverse.2 hy) (by simp [hyname])
  · intro h y hy hyname
    have hkey : key y = name := by simpa using hyname
    exact h (hkey ▸ List.mem_map_of_mem (List.mem_reverse.1 hy))

/-- In the places of inherited items stand the own items under their keys, or they themselves when
    there are none. -/
theorem mem_settled_iff (hinherited : (inherited.map key).Nodup) (hown : (own.map key).Nodup) :
    x ∈ settled key own inherited ↔
      (x ∈ own ∧ key x ∈ inherited.map key) ∨ (x ∈ inherited ∧ key x ∉ own.map key) := by
  induction inherited with
  | nil => simp [settled]
  | cons y ys ih =>
    rw [List.map_cons, List.nodup_cons] at hinherited
    have hlast : hasKey key (key y) ys = false := by
      rw [← Bool.not_eq_true, hasKey_iff]
      exact hinherited.1
    rw [settled, List.mem_cons, ih hinherited.2, hlast]
    simp only [Bool.false_eq_true, if_false, List.map_cons, List.mem_cons]
    cases hy : lastWith key (key y) own with
    | none =>
      -- The first item stays, and no own item is under its key.
      have hno : key y ∉ own.map key := lastWith_eq_none_iff.1 hy
      have hne : x ∈ own → key x ≠ key y := fun hx heq => hno (heq ▸ List.mem_map_of_mem hx)
      rw [Option.getD_none]
      constructor
      · rintro (rfl | ⟨hx, hkey⟩ | ⟨hx, hkey⟩)
        · exact .inr ⟨.inl rfl, hno⟩
        · exact .inl ⟨hx, .inr hkey⟩
        · exact .inr ⟨.inr hx, hkey⟩
      · rintro (⟨hx, hkey⟩ | ⟨rfl | hx, hkey⟩)
        · exact .inr (.inl ⟨hx, hkey.resolve_left (hne hx)⟩)
        · exact .inl rfl
        · exact .inr (.inr ⟨hx, hkey⟩)
    | some z =>
      -- The one own item under the key of the first item takes its place.
      obtain ⟨hz, hzkey⟩ := (lastWith_eq_some_iff hown).1 hy
      have hdeclared : key y ∈ own.map key := hzkey ▸ List.mem_map_of_mem hz
      have hunique : x ∈ own → key x = key y → x = z := fun hx heq =>
        List.inj_on_of_nodup_map hown hx hz (heq.trans hzkey.symm)
      rw [Option.getD_some]
      constructor
      · rintro (rfl | ⟨hx, hkey⟩ | ⟨hx, hkey⟩)
        · exact .inl ⟨hz, .inl hzkey⟩
        · exact .inl ⟨hx, .inr hkey⟩
        · exact .inr ⟨.inr hx, hkey⟩
      · rintro (⟨hx, hkey | hkey⟩ | ⟨rfl | hx, hkey⟩)
        · exact .inl (hunique hx hkey)
        · exact .inr (.inl ⟨hx, hkey⟩)
        · exact absurd hdeclared hkey
        · exact .inr (.inr ⟨hx, hkey⟩)

/-- A merged list holds the own items, and the inherited ones that are not declared again. -/
theorem mem_merge_iff (hinherited : (inherited.map key).Nodup) (hown : (own.map key).Nodup) :
    x ∈ merge key inherited own ↔ x ∈ own ∨ x ∈ inherited ∧ key x ∉ own.map key := by
  rw [merge, List.mem_append, mem_settled_iff hinherited hown, List.mem_filter, Bool.not_eq_true',
    ← Bool.not_eq_true, hasKey_iff]
  tauto

/-- A list without repetitions is its own list of first occurrences. -/
theorem eraseDups_of_nodup {names : List String} (h : names.Nodup) : names.eraseDups = names := by
  induction names with
  | nil => rfl
  | cons name names ih =>
    rw [List.nodup_cons] at h
    have hothers : names.filter (fun other => !other == name) = names := by
      refine List.filter_eq_self.2 fun other hother => ?_
      have hne : other ≠ name := fun heq => h.1 (heq ▸ hother)
      simp [hne]
    rw [List.eraseDups_cons, hothers, ih h.2]

/-- The keys of a merged list are those of both lists in the order in which they first occur. -/
theorem keys_merge_eq_eraseDups (hinherited : (inherited.map key).Nodup)
    (hown : (own.map key).Nodup) :
    (merge key inherited own).map key = (inherited.map key ++ own.map key).eraseDups := by
  have hnew : ((own.map key).removeAll (inherited.map key)).Nodup := hown.filter _
  have hkeys : (own.map key).removeAll (inherited.map key)
      = (own.map key).filter (!(inherited.map key).contains ·) := rfl
  rw [keys_merge, List.eraseDups_append, eraseDups_of_nodup hinherited, eraseDups_of_nodup hnew,
    hkeys]

/-- What is found under a key of merged tables is the own entry, or else the inherited one. -/
theorem get?_merge {inherited own : Table α} (hinherited : inherited.keys.Nodup)
    (hown : own.keys.Nodup) (name : String) :
    Table.get? (merge Prod.fst inherited own) name = (own.get? name).or (inherited.get? name) := by
  have hmerged : (Table.keys (merge Prod.fst inherited own)).Nodup := nodup_merge hinherited hown
  refine Option.ext fun value => ?_
  rw [Table.get?_eq_some_iff hmerged, mem_merge_iff hinherited hown, Option.or_eq_some_iff,
    Table.get?_eq_some_iff hown, Table.get?_eq_some_iff hinherited, Table.get?_eq_none_iff]
  exact or_congr_right and_comm

/-! ### Required names -/

/-- No name is required twice. -/
theorem nodup_mergeRequired {declared inherited own : List String} (hinherited : inherited.Nodup)
    (hown : own.Nodup) : (mergeRequired declared inherited own).Nodup := by
  unfold mergeRequired
  refine (hinherited.filter _).append (hown.filter _) fun name hkept hnew => ?_
  have hno := (List.mem_filter.1 hnew).2
  simp only [Bool.not_eq_true', ← Bool.not_eq_true, List.contains_iff_mem] at hno
  exact hno hkept

end Inheritance

end DataShapes
