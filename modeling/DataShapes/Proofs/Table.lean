import DataShapes.Table
import Mathlib.Data.List.Induction
import Mathlib.Data.List.Nodup

/-!
# Look-ups in tables

What a look-up finds after a row of writes, in two tables one behind the other, and in a table whose
entries were permuted.

Main definitions:
* `Table.lastOf`: the last value under a key of a list of entries;
* `Table.putAll`: a table with the entries of a list written to it.

Main statements:
* `Table.get?_putAll`: a look-up finds the last write of its key, else what was there before;
* `Table.keys_putAll_nil`: a new table lists the keys that were written, each where it came first;
* `Table.get?_eq_some_iff`: when no key occurs twice, a look-up finds exactly the entries;
* `Table.ofList_of_nodup`: and the entries build themselves.
-/

namespace DataShapes

namespace Table

universe u

variable {α : Type u}

/-! ### Writes -/

/-- The last value under a key of a list of entries. -/
def lastOf : List (String × α) → String → Option α
  | [], _ => none
  | (k, v) :: es, key => (lastOf es key).or (if k = key then some v else none)

/-- Write the entries of a list one after the other to a table. -/
def putAll (t : Table α) (entries : List (String × α)) : Table α :=
  entries.foldl (fun t e => put t e.1 e.2) t

@[simp] theorem putAll_nil (t : Table α) : t.putAll [] = t := rfl

@[simp] theorem putAll_cons (t : Table α) (e : String × α) (es : List (String × α)) :
    t.putAll (e :: es) = (t.put e.1 e.2).putAll es := rfl

/-- Writes can be made in two parts. -/
theorem putAll_append (t : Table α) (es fs : List (String × α)) :
    t.putAll (es ++ fs) = (t.putAll es).putAll fs := List.foldl_append

/-- Of two lists of entries the second one counts first. -/
theorem lastOf_append (es fs : List (String × α)) (key : String) :
    lastOf (es ++ fs) key = (lastOf fs key).or (lastOf es key) := by
  induction es with
  | nil => simp [lastOf]
  | cons e es ih => rw [List.cons_append, lastOf, lastOf, ih, Option.or_assoc]

/-- What is found under a key was written there. -/
theorem mem_of_lastOf {es : List (String × α)} {key : String} {value : α}
    (h : lastOf es key = some value) : (key, value) ∈ es := by
  induction es with
  | nil => simp [lastOf] at h
  | cons e es ih =>
    obtain ⟨k, v⟩ := e
    rw [lastOf, Option.or_eq_some_iff] at h
    -- A later write under the key counts before an earlier one.
    rcases h with h | ⟨-, h⟩
    · exact List.mem_cons_of_mem _ (ih h)
    · split at h
      · rename_i hk
        rw [← hk, ← Option.some.inj h]
        exact List.mem_cons_self
      · simp at h

/-- Something is found under every key that was written. -/
theorem isSome_lastOf {es : List (String × α)} {e : String × α} (h : e ∈ es) :
    (lastOf es e.1).isSome = true := by
  induction es with
  | nil => simp at h
  | cons f es ih =>
    rw [lastOf, Option.isSome_or, Bool.or_eq_true]
    rcases List.mem_cons.1 h with rfl | h
    · exact .inr (by simp)
    · exact .inl (ih h)

/-- A look-up finds the last write of its key, and what was there before when there is none. -/
theorem get?_putAll (t : Table α) (es : List (String × α)) (key : String) :
    get? (t.putAll es) key = (lastOf es key).or (get? t key) := by
  induction es generalizing t with
  | nil => simp [lastOf]
  | cons e es ih =>
    rw [putAll_cons, ih, lastOf, Option.or_assoc]
    congr 1
    by_cases h : e.1 = key
    · rw [if_pos h, ← h, get?_put_self, Option.some_or]
    · rw [if_neg h, get?_put_of_ne _ _ (Ne.symm h), Option.none_or]

/-- The entry that a look-up finds is an entry of the table. -/
theorem mem_of_get? {t : Table α} {key : String} {value : α} (h : get? t key = some value) :
    (key, value) ∈ t := by
  induction t with
  | nil => simp at h
  | cons e t ih =>
    obtain ⟨k, v⟩ := e
    rw [get?] at h
    split at h
    · rename_i hk
      rw [← hk, ← Option.some.inj h]
      exact List.mem_cons_self
    · exact List.mem_cons_of_mem _ (ih h)

/-- The entries of a table after some writes: what was there and what was written. -/
theorem mem_put {t : Table α} {key : String} {value : α} {e : String × α}
    (h : e ∈ t.put key value) : e ∈ t ∨ e = (key, value) := by
  induction t with
  | nil => exact .inr (List.mem_singleton.1 h)
  | cons f t ih =>
    rw [put] at h
    -- The value of a known key is replaced in its place.
    split at h
    · rename_i hk
      rcases List.mem_cons.1 h with rfl | h
      · exact .inr (by rw [hk])
      · exact .inl (List.mem_cons_of_mem _ h)
    · rcases List.mem_cons.1 h with rfl | h
      · exact .inl List.mem_cons_self
      · exact (ih h).imp_left (List.mem_cons_of_mem _)

/-- The entries of a table after some writes are among those that were there and those that were
    written. -/
theorem mem_putAll {t : Table α} {es : List (String × α)} {e : String × α}
    (h : e ∈ t.putAll es) : e ∈ t ∨ e ∈ es := by
  induction es generalizing t with
  | nil => exact .inl h
  | cons f es ih =>
    rcases ih h with h | h
    · rcases mem_put h with h | rfl
      · exact .inl h
      · exact .inr List.mem_cons_self
    · exact .inr (List.mem_cons_of_mem _ h)

/-- A new key goes to the end with its value. -/
theorem put_of_not_mem {t : Table α} {key : String} (value : α) (h : key ∉ keys t) :
    put t key value = t ++ [(key, value)] := by
  induction t with
  | nil => rfl
  | cons e t ih =>
    obtain ⟨k, v⟩ := e
    simp only [keys, List.map_cons, List.mem_cons, not_or] at h
    rw [put, if_neg (Ne.symm h.1), ih h.2, List.cons_append]

/-- A new table lists the keys that were written, each where it came first. -/
theorem keys_putAll_nil (es : List (String × α)) : keys (putAll [] es) = (keys es).eraseDups := by
  induction es using List.reverseRecOn with
  | nil => rfl
  | append_singleton es e ih =>
    have hsplit : keys (es ++ [e]) = keys es ++ [e.1] := by simp [keys]
    -- The last write adds its key unless an earlier one did.
    rw [putAll_append, putAll_cons, putAll_nil, hsplit, List.eraseDups_append, List.cons_removeAll,
      List.nil_removeAll]
    by_cases h : e.1 ∈ keys es
    · have hold : e.1 ∈ keys (putAll [] es) := by rwa [ih, List.mem_eraseDups]
      rw [keys_put_of_mem _ hold, ih, List.contains_iff_mem.2 h]
      simp
    · have hnew : e.1 ∉ keys (putAll [] es) := by rwa [ih, List.mem_eraseDups]
      rw [keys_put_of_not_mem _ hnew, ih, if_pos (by simpa using h)]
      rfl

/-- Writing what is there changes nothing. -/
theorem put_of_get? {t : Table α} {key : String} {value : α} (h : get? t key = some value) :
    t.put key value = t := by
  induction t with
  | nil => simp at h
  | cons e t ih =>
    obtain ⟨k, v⟩ := e
    rw [get?] at h
    rw [put]
    split at h
    · rename_i hk
      rw [if_pos hk, Option.some.inj h]
    · rename_i hk
      rw [if_neg hk, ih h]

/-- Writing what is found already changes nothing. -/
theorem putAll_of_get? {t : Table α} {es : List (String × α)}
    (h : ∀ e ∈ es, get? t e.1 = some e.2) : t.putAll es = t := by
  induction es with
  | nil => rfl
  | cons e es ih =>
    rw [putAll_cons, put_of_get? (h e List.mem_cons_self)]
    exact ih fun f hf => h f (List.mem_cons_of_mem _ hf)

/-! ### Tables without repeated keys -/

/-- A write keeps the keys distinct. -/
theorem nodup_keys_put {t : Table α} (h : (keys t).Nodup) (key : String) (value : α) :
    (keys (t.put key value)).Nodup := by
  by_cases hkey : key ∈ keys t
  · rwa [keys_put_of_mem _ hkey]
  · rw [keys_put_of_not_mem _ hkey, List.nodup_append]
    refine ⟨h, List.nodup_singleton _, ?_⟩
    rintro k hk _ hmem rfl
    exact hkey (List.mem_singleton.1 hmem ▸ hk)

/-- Any writes keep the keys distinct. -/
theorem nodup_keys_putAll {t : Table α} (h : (keys t).Nodup) (es : List (String × α)) :
    (keys (t.putAll es)).Nodup := by
  induction es generalizing t with
  | nil => exact h
  | cons e es ih => exact ih (nodup_keys_put h e.1 e.2)

/-- Entries under distinct new keys go to the end one by one. -/
theorem putAll_of_nodup {t : Table α} {es : List (String × α)} (h : (keys (t ++ es)).Nodup) :
    t.putAll es = t ++ es := by
  induction es generalizing t with
  | nil => simp
  | cons e es ih =>
    have hsplit : t ++ e :: es = t ++ [e] ++ es := by simp
    have hnew : e.1 ∉ keys t := by
      intro hmem
      rw [keys, List.map_append, List.nodup_append] at h
      exact h.2.2 e.1 hmem e.1 (by simp) rfl
    rw [putAll_cons, put_of_not_mem _ hnew]
    rw [hsplit] at h ⊢
    exact ih h

/-- A list of entries under distinct keys is the table that it builds. -/
theorem ofList_of_nodup {es : List (String × α)} (h : (keys es).Nodup) : ofList es = es :=
  putAll_of_nodup (t := []) h

/-- When no key occurs twice, a look-up finds exactly the entries of the table. -/
theorem get?_eq_some_iff {t : Table α} (h : (keys t).Nodup) {key : String} {value : α} :
    get? t key = some value ↔ (key, value) ∈ t := by
  refine ⟨mem_of_get?, fun hmem => ?_⟩
  induction t with
  | nil => simp at hmem
  | cons e t ih =>
    obtain ⟨k, v⟩ := e
    rw [keys, List.map_cons, List.nodup_cons] at h
    rcases List.mem_cons.1 hmem with heq | hmem
    · obtain ⟨rfl, rfl⟩ := Prod.mk.inj heq
      rw [get?, if_pos rfl]
    · -- The first entry has another key, since the keys are distinct.
      have hne : k ≠ key := by
        rintro rfl
        exact h.1 (List.mem_map.2 ⟨_, hmem, rfl⟩)
      rw [get?, if_neg hne]
      exact ih h.2 hmem

/-- When no key occurs twice, writing the entries of a table to itself changes nothing. -/
theorem putAll_self {t : Table α} (h : (keys t).Nodup) : t.putAll t = t :=
  putAll_of_get? fun _ he => (get?_eq_some_iff h).2 he

/-- When no key occurs twice, the order of entries does not matter for look-ups. -/
theorem get?_perm {t t' : Table α} (h : t.Perm t') (hnodup : (keys t).Nodup) (key : String) :
    get? t key = get? t' key := by
  have hnodup' : (keys t').Nodup := (h.map Prod.fst).nodup_iff.1 hnodup
  refine Option.ext fun value => ?_
  rw [get?_eq_some_iff hnodup, get?_eq_some_iff hnodup', h.mem_iff]

/-! ### Two tables -/

/-- Of two tables the first one counts first. -/
theorem get?_append (t u : Table α) (key : String) :
    get? (t ++ u) key = (get? t key).or (get? u key) := by
  induction t with
  | nil => rfl
  | cons e t ih =>
    rw [List.cons_append, get?, get?, ih]
    split
    · rfl
    · rfl

/-- Nothing is found under a key exactly when the table does not list it. -/
theorem get?_eq_none_iff {t : Table α} {key : String} : get? t key = none ↔ key ∉ keys t := by
  rw [mem_keys_iff, Option.not_isSome_iff_eq_none]

end Table

end DataShapes
