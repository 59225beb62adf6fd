import DataShapes.Notice
import Mathlib.Data.List.Forall2

/-!
# Results of composed computations

A composed computation succeeds exactly when each of its steps does.  These are the inversions by
which later modules take definitions apart.

Main statements:
* `Outcome.bind_eq_ok_iff`: one step after the other;
* `Outcome.mapM_eq_ok_iff`: the same step for each item of a list.
-/

namespace DataShapes

namespace Outcome

universe u v

variable {ε : Type u} {α β γ : Type v}

/-- A sequence succeeds when its first part does and the second one does with what the first
    gave. -/
theorem bind_eq_ok_iff {x : Except ε α} {f : α → Except ε β} {b : β} :
    x.bind f = .ok b ↔ ∃ a, x = .ok a ∧ f a = .ok b := by
  cases x with
  | error e => simp [Except.bind]
  | ok a => simp [Except.bind]

/-- The same for the notation of monads. -/
theorem do_eq_ok_iff {x : Except ε α} {f : α → Except ε β} {b : β} :
    (x >>= f) = .ok b ↔ ∃ a, x = .ok a ∧ f a = .ok b := bind_eq_ok_iff

/-- A mapped computation succeeds when the computation does. -/
theorem map_eq_ok_iff {x : Except ε α} {f : α → β} {b : β} :
    x.map f = .ok b ↔ ∃ a, x = .ok a ∧ f a = b := by
  cases x with
  | error e => simp [Except.map]
  | ok a => simp [Except.map]

/-- A mapped computation fails as the computation does. -/
theorem map_eq_error_iff {x : Except ε α} {f : α → β} {e : ε} : x.map f = .error e ↔ x = .error e := by
  cases x with
  | error e => simp [Except.map]
  | ok a => simp [Except.map]

@[simp] theorem pure_eq_ok_iff {a b : α} : (pure a : Except ε α) = .ok b ↔ a = b := by
  show Except.ok a = .ok b ↔ a = b
  rw [Except.ok.injEq]

/-- Doing something for each item of a list succeeds with the list of what is given for each. -/
theorem mapM_eq_ok_iff {f : α → Except ε β} {xs : List α} {ys : List β} :
    xs.mapM f = .ok ys ↔ List.Forall₂ (fun x y => f x = .ok y) xs ys := by
  induction xs generalizing ys with
  | nil =>
    rw [List.mapM_nil, pure_eq_ok_iff, List.forall₂_nil_left_iff]
    exact eq_comm
  | cons x xs ih =>
    -- The first item is done before the others, and each failure ends the row.
    rw [List.mapM_cons, do_eq_ok_iff, List.forall₂_cons_left_iff]
    constructor
    · rintro ⟨y, hy, h⟩
      obtain ⟨ys', hys, h⟩ := do_eq_ok_iff.1 h
      exact ⟨y, ys', hy, ih.1 hys, (pure_eq_ok_iff.1 h).symm⟩
    · rintro ⟨y, ys', hy, hys, rfl⟩
      exact ⟨y, hy, do_eq_ok_iff.2 ⟨ys', ih.2 hys, rfl⟩⟩

/-- Where every item has a related one, the list has a related list. -/
theorem exists_forall₂ {R : α → β → Prop} {xs : List α} (h : ∀ x ∈ xs, ∃ y, R x y) :
    ∃ ys, List.Forall₂ R xs ys := by
  induction xs with
  | nil => exact ⟨[], .nil⟩
  | cons x xs ih =>
    obtain ⟨y, hy⟩ := h x List.mem_cons_self
    obtain ⟨ys, hys⟩ := ih fun z hz => h z (List.mem_cons_of_mem _ hz)
    exact ⟨y :: ys, .cons hy hys⟩

/-- That an item is known to be in the list makes no difference to what is done with it. -/
theorem mapM_attach (f : α → Except ε β) (xs : List α) :
    (xs.attach.mapM fun x => f x.1) = xs.mapM f := by
  have h : (xs.attach.map Subtype.val).mapM f = xs.attach.mapM (f ∘ Subtype.val) := List.mapM_map
  rw [List.attach_map_subtype_val] at h
  exact h.symm

/-- Every item of the second list has a partner in the first. -/
theorem mem_of_forall₂ {R : α → β → Prop} {xs : List α} {ys : List β}
    (h : List.Forall₂ R xs ys) {y : β} (hy : y ∈ ys) : ∃ x ∈ xs, R x y := by
  induction h with
  | nil => simp at hy
  | cons hR _ ih =>
    rcases List.mem_cons.1 hy with rfl | hy
    · exact ⟨_, List.mem_cons_self, hR⟩
    · obtain ⟨x, hx, hR⟩ := ih hy
      exact ⟨x, List.mem_cons_of_mem _ hx, hR⟩

end Outcome

namespace Noted

universe u

variable {α : Type u}

@[simp] theorem result_liftM (x : Except Problem α) : (liftM x : Noted α).result = x := rfl

end Noted

end DataShapes
