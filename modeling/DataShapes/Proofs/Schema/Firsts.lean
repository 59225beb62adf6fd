import DataShapes.Schema.Equality

/-!
# First occurrences

Repetitions are dropped from a list by comparing each item with those that are kept.  When equality of
the items is transitive, that finds the same repetitions as comparing it with all items before it, and it
does not matter whether the repetitions of a part have been dropped before.

Main definitions:
* `firsts`: the items of a list that are equal to no item before them.

Main statements:
* `distinctFrom_distinctFrom`, `distinct_distinct_append`: repetitions of parts may be dropped before
  those of the whole;
* `distinct_eq_firsts`: what is kept are the items that are equal to no item before them.
-/

namespace DataShapes

variable {α : Type} [BEq α]

/-- The items that are equal neither to an `earlier` one nor to one before them in the list. -/
def firstsBehind (earlier : List α) : List α → List α
  | [] => []
  | x :: xs =>
    if earlier.any (· == x) then firstsBehind (x :: earlier) xs
    else x :: firstsBehind (x :: earlier) xs

/-- The items that are equal to no item before them, in order. -/
def firsts (xs : List α) : List α := firstsBehind [] xs

/-- The first occurrences in two lists are those of the first list with the new ones of the second. -/
theorem distinctFrom_append (kept xs ys : List α) :
    distinctFrom kept (xs ++ ys) = distinctFrom (distinctFrom kept xs) ys := by
  induction xs generalizing kept with
  | nil => rfl
  | cons x xs ih =>
    rw [List.cons_append, distinctFrom, distinctFrom]
    split
    · exact ih kept
    · exact ih (kept ++ [x])

variable {P : α → Prop}

/-- An item is equal to something kept exactly when it is equal to some item at all. -/
theorem any_distinctFrom
    (htrans : ∀ x y z, P x → P y → P z → (x == y) = true → (y == z) = true → (x == z) = true)
    {kept xs : List α} (hkept : ∀ x ∈ kept, P x) (hxs : ∀ x ∈ xs, P x) {z : α} (hz : P z) :
    (distinctFrom kept xs).any (· == z) = (kept ++ xs).any (· == z) := by
  induction xs generalizing kept with
  | nil => rw [List.append_nil, distinctFrom]
  | cons x xs ih =>
    obtain ⟨hx, hxs⟩ := List.forall_mem_cons.1 hxs
    rw [distinctFrom]
    by_cases hseen : kept.any (· == x) = true
    · -- What stands for the item that is dropped is equal to whatever the item is equal to.
      obtain ⟨k, hk, hkx⟩ := List.any_eq_true.1 hseen
      have hstands : (x == z) = true → kept.any (· == z) = true := fun hxz =>
        List.any_eq_true.2 ⟨k, hk, htrans k x z (hkept k hk) hx hz hkx hxz⟩
      rw [if_pos hseen, ih hkept hxs, List.any_append, List.any_append, List.any_cons]
      cases hxz : x == z with
      | false => rw [Bool.false_or]
      | true => rw [hstands hxz, Bool.true_or, Bool.true_or]
    · have hnext : ∀ y ∈ kept ++ [x], P y :=
        List.forall_mem_append.2 ⟨hkept, List.forall_mem_singleton.2 hx⟩
      rw [if_neg hseen, ih hnext hxs, List.append_assoc, List.singleton_append]

/-- Repetitions of a part may be dropped before those of the whole. -/
theorem distinctFrom_distinctFrom
    (htrans : ∀ x y z, P x → P y → P z → (x == y) = true → (y == z) = true → (x == z) = true)
    {kept acc xs : List α} (hkept : ∀ x ∈ kept, P x) (hacc : ∀ x ∈ acc, P x)
    (hxs : ∀ x ∈ xs, P x) :
    distinctFrom kept (distinctFrom acc xs) = distinctFrom (distinctFrom kept acc) xs := by
  induction xs generalizing acc with
  | nil => rfl
  | cons x xs ih =>
    obtain ⟨hx, hxs⟩ := List.forall_mem_cons.1 hxs
    -- What was seen within the part was seen or is equal to something seen in the whole.
    by_cases hseen : acc.any (· == x) = true
    · have hwhole : (distinctFrom kept acc).any (· == x) = true := by
        rw [any_distinctFrom htrans hkept hacc hx, List.any_append, hseen, Bool.or_true]
      rw [distinctFrom, if_pos hseen, distinctFrom, if_pos hwhole]
      exact ih hacc hxs
    · have hnext : ∀ y ∈ acc ++ [x], P y :=
        List.forall_mem_append.2 ⟨hacc, List.forall_mem_singleton.2 hx⟩
      rw [distinctFrom, if_neg hseen, ih hnext hxs, distinctFrom_append, ← distinctFrom_append,
        List.singleton_append]

/-- Taking the first occurrences in the two lists before changes nothing. -/
theorem distinct_distinct_append
    (htrans : ∀ x y z, P x → P y → P z → (x == y) = true → (y == z) = true → (x == z) = true)
    {xs ys : List α} (hxs : ∀ x ∈ xs, P x) (hys : ∀ y ∈ ys, P y) :
    distinct (distinct xs ++ distinct ys) = distinct (xs ++ ys) := by
  have hnone : ∀ x ∈ ([] : List α), P x := fun x hx => absurd hx List.not_mem_nil
  have hdistinct : ∀ x ∈ distinct xs, P x := fun x hx => hxs x (mem_of_mem_distinct hx)
  calc distinct (distinct xs ++ distinct ys)
      = distinctFrom (distinct (distinct xs)) (distinct ys) := distinctFrom_append ..
    _ = distinctFrom (distinct xs) (distinct ys) := by
        rw [distinct, distinct, distinctFrom_distinctFrom htrans hnone hnone hxs]
        rfl
    _ = distinctFrom (distinct xs) ys := distinctFrom_distinctFrom htrans hdistinct hnone hys
    _ = distinct (xs ++ ys) := (distinctFrom_append ..).symm

/-- Comparing items with those that are kept finds the same repetitions as comparing them with all
    items before them. -/
theorem distinct_eq_firsts
    (htrans : ∀ x y z, P x → P y → P z → (x == y) = true → (y == z) = true → (x == z) = true)
    {xs : List α} (hxs : ∀ x ∈ xs, P x) : distinct xs = firsts xs := by
  -- The items that are kept have been found equal to an item as often as all items before it.
  have hfrom : ∀ (kept earlier : List α), (∀ x ∈ kept, P x) → (∀ x ∈ earlier, P x) →
      (∀ z, P z → kept.any (· == z) = earlier.any (· == z)) →
      distinctFrom kept xs = kept ++ firstsBehind earlier xs := by
    induction xs with
    | nil => intro kept earlier _ _ _; simp [distinctFrom, firstsBehind]
    | cons x xs ih =>
      obtain ⟨hx, hxs⟩ := List.forall_mem_cons.1 hxs
      intro kept earlier hkept hearlier hany
      have hnext : ∀ y ∈ x :: earlier, P y := List.forall_mem_cons.2 ⟨hx, hearlier⟩
      rw [distinctFrom, firstsBehind, hany x hx]
      by_cases hseen : earlier.any (· == x) = true
      · rw [if_pos hseen, if_pos hseen]
        refine ih hxs kept (x :: earlier) hkept hnext fun z hz => ?_
        obtain ⟨y, hy, hyx⟩ := List.any_eq_true.1 hseen
        rw [hany z hz, List.any_cons]
        cases hxz : x == z with
        | false => rw [Bool.false_or]
        | true =>
          rw [Bool.true_or, List.any_eq_true]
          exact ⟨y, hy, htrans y x z (hearlier y hy) hx hz hyx hxz⟩
      · have hkept' : ∀ y ∈ kept ++ [x], P y :=
          List.forall_mem_append.2 ⟨hkept, List.forall_mem_singleton.2 hx⟩
        rw [if_neg hseen, if_neg hseen, ih hxs (kept ++ [x]) (x :: earlier) hkept' hnext,
          List.append_assoc, List.singleton_append]
        intro z hz
        rw [List.any_append, List.any_cons, hany z hz, List.any_cons, List.any_nil, Bool.or_false,
          Bool.or_comm]
  exact hfrom [] [] nofun nofun fun _ _ => rfl

end DataShapes
