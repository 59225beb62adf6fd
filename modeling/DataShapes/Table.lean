/-!
# Tables in order of arrival

A table holds one entry for each text key and lists its entries in the order in which their keys
first arrived.  Registries, catalogs and the properties of an object are tables: writing to a key
that is present replaces the value and moves nothing, and a new key goes to the end.

Main definitions:
* `Table.get?`, `Table.contains`: the entry of a key;
* `Table.put`: write one entry;
* `Table.ofList`: write a list of entries one after the other, so the last write of a key wins.
-/

namespace DataShapes

universe u

/-- Entries under text keys, in the order in which the keys first arrived. -/
abbrev Table (α : Type u) : Type u := List (String × α)

namespace Table

variable {α : Type u}

/-- The keys, in order of arrival. -/
def keys (t : Table α) : List String := t.map Prod.fst

/-- The values, in order of arrival of their keys. -/
def values (t : Table α) : List α := t.map Prod.snd

/-- The value under a key. -/
def get? : Table α → String → Option α
  | [], _ => none
  | (k, v) :: t, key => if k = key then some v else get? t key

/-- Whether a key is present. -/
def contains (t : Table α) (key : String) : Bool := (get? t key).isSome

/-- Write one entry: in place when the key is present, at the end otherwise. -/
def put : Table α → String → α → Table α
  | [], key, value => [(key, value)]
  | (k, v) :: t, key, value => if k = key then (k, value) :: t else (k, v) :: put t key value

/-- Write the entries of a list one after the other. -/
def ofList (entries : List (String × α)) : Table α :=
  entries.foldl (fun t e => put t e.1 e.2) []

/-! ### What one write does to the view -/

@[simp] theorem get?_nil (key : String) : get? ([] : Table α) key = none := rfl

/-- A key that was just written holds the value written. -/
@[simp] theorem get?_put_self (t : Table α) (key : String) (value : α) :
    get? (put t key value) key = some value := by
  induction t with
  | nil => simp [put, get?]
  | cons e t ih =>
    obtain ⟨k, v⟩ := e
    by_cases h : k = key <;> simp [put, get?, h, ih]

/-- Every other key keeps its value. -/
theorem get?_put_of_ne (t : Table α) {key other : String} (value : α) (h : other ≠ key) :
    get? (put t key value) other = get? t other := by
  induction t with
  | nil => simp [put, get?, Ne.symm h]
  | cons e t ih =>
    obtain ⟨k, v⟩ := e
    by_cases hk : k = key
    · subst hk; simp [put, get?, Ne.symm h]
    · simp [put, get?, hk, ih]

/-- A key is present exactly when it is listed. -/
theorem mem_keys_iff (t : Table α) (key : String) : key ∈ keys t ↔ (get? t key).isSome := by
  induction t with
  | nil => simp [keys, get?]
  | cons e t ih =>
    obtain ⟨k, v⟩ := e
    by_cases hk : k = key
    · simp [keys, get?, hk]
    · simp only [keys, List.map_cons, List.mem_cons, get?, hk, if_false]
      rw [← ih]
      simp [keys, Ne.symm hk]

/-- Writing to a key that is present moves nothing. -/
theorem keys_put_of_mem {t : Table α} {key : String} (value : α) (h : key ∈ keys t) :
    keys (put t key value) = keys t := by
  induction t with
  | nil => simp [keys] at h
  | cons e t ih =>
    obtain ⟨k, v⟩ := e
    by_cases hk : k = key
    · simp [put, keys, hk]
    · have h' : key ∈ keys t := by simpa [keys, Ne.symm hk] using h
      have := ih h'
      simp only [keys] at this
      simp [put, keys, hk, this]

/-- A new key goes to the end. -/
theorem keys_put_of_not_mem {t : Table α} {key : String} (value : α) (h : key ∉ keys t) :
    keys (put t key value) = keys t ++ [key] := by
  induction t with
  | nil => simp [put, keys]
  | cons e t ih =>
    obtain ⟨k, v⟩ := e
    have hk : k ≠ key := by
      intro hk
      exact h (by simp [keys, hk])
    have h' : key ∉ keys t := fun hm => h (by simp only [keys] at hm ⊢; simp [hm])
    have := ih h'
    simp only [keys] at this
    simp [put, keys, hk, this]

end Table

end DataShapes
