import Mathlib.Data.List.Forall2
import Mathlib.Data.Option.Basic

/-!
# Equivalences, seen from one item

Equality of nested data compares parts with parts, so it is an equivalence when equality of the parts
is.  In a proof by induction this is known of the parts of one item only, not of all that they are
compared with.  Therefore being an equivalence is stated from the point of view of one item, and
carried from the parts of an item to the item.

Main definitions:
* `EquivAt`: seen from an item, a relation is an equivalence;
* `MutuallyWithin`: two lists have related items, in whatever order.

Main statements:
* `EquivAt.lift`: from the contents of a constructor to what is constructed;
* `EquivAt.forall₂`, `EquivAt.mutuallyWithin`, `EquivAt.option`, `EquivAt.pointwise`: from items to
  lists, to lists without regard to order, to optional items and to functions.
-/

namespace DataShapes

/-- Seen from the item, the relation is an equivalence: the item is related to itself, and to the same
    items as whatever it is related to. -/
structure EquivAt {α : Type} (R : α → α → Prop) (x : α) : Prop where
  refl : R x x
  congr {y : α} : R x y → ∀ z, R x z ↔ R y z

/-- Each item of the first list is related to an item of the second one, and to each item of the
    second one an item of the first. -/
def MutuallyWithin {α : Type} (R : α → α → Prop) (xs ys : List α) : Prop :=
  (∀ x ∈ xs, ∃ y ∈ ys, R x y) ∧ ∀ y ∈ ys, ∃ x ∈ xs, R x y

namespace EquivAt

variable {α β : Type} {R : α → α → Prop} {x y : α}

/-- A relation that is an equivalence at a point can be turned around there. -/
theorem symm (h : EquivAt R x) (hxy : R x y) : R y x := (h.congr hxy x).1 h.refl

/-- Equality is an equivalence at every point. -/
theorem eq (x : α) : EquivAt (fun a b => a = b) x where
  refl := rfl
  congr hxy z := by rw [hxy]

/-- Items are compared by what a function gives for them. -/
theorem comap {g : β → α} {x : β} (h : EquivAt R (g x)) : EquivAt (fun a b => R (g a) (g b)) x where
  refl := h.refl
  congr hxy z := h.congr hxy (g z)

/-- Two relations that are equivalences at a point are one together. -/
theorem and {S : α → α → Prop} (hR : EquivAt R x) (hS : EquivAt S x) :
    EquivAt (fun a b => R a b ∧ S a b) x where
  refl := ⟨hR.refl, hS.refl⟩
  congr hxy z := and_congr (hR.congr hxy.1 z) (hS.congr hxy.2 z)

/-- What is constructed is compared by its contents. -/
theorem lift {S : β → β → Prop} {f : α → β}
    (hf : ∀ a b, S (f a) b ↔ ∃ c, b = f c ∧ R a c) (h : EquivAt R x) : EquivAt S (f x) where
  refl := (hf x (f x)).2 ⟨x, rfl, h.refl⟩
  congr := by
    intro b hb z
    obtain ⟨c, rfl, hxc⟩ := (hf x b).1 hb
    rw [hf, hf]
    exact exists_congr fun d => and_congr_right fun _ => h.congr hxc d

/-- What may be missing is related when both are missing or both are there and related. -/
theorem option {o : Option α} (h : ∀ a, o = some a → EquivAt R a) : EquivAt (Option.Rel R) o := by
  -- Whether something is there decides which of the two rules applies.
  cases o with
  | none =>
    refine ⟨.none, ?_⟩
    rintro _ ⟨⟩ z
    exact Iff.rfl
  | some a =>
    have ha : EquivAt R a := h a rfl
    refine ⟨.some ha.refl, ?_⟩
    rintro _ ⟨hab⟩ z
    cases z with
    | none => exact ⟨nofun, nofun⟩
    | some c => rw [Option.rel_some_some, Option.rel_some_some, ha.congr hab c]

/-- Functions are related when their values are, one by one. -/
theorem pointwise {ι : Type} {f : ι → α} (h : ∀ k, EquivAt R (f k)) :
    EquivAt (fun f g : ι → α => ∀ k, R (f k) (g k)) f where
  refl k := (h k).refl
  congr hfg z := forall_congr' fun k => (h k).congr (hfg k) (z k)

/-- Lists are related when their items are, one by one. -/
theorem forall₂ {xs : List α} (h : ∀ x ∈ xs, EquivAt R x) : EquivAt (List.Forall₂ R) xs where
  refl := List.forall₂_same.2 fun x hx => (h x hx).refl
  congr := by
    intro ys hys
    -- The induction is on the second list; the third one is taken apart along with it.
    induction hys with
    | nil => exact fun zs => Iff.rfl
    | @cons x y xs ys hxy hys ih =>
      obtain ⟨hx, hxs⟩ := List.forall_mem_cons.1 h
      intro zs
      cases zs with
      | nil => exact ⟨nofun, nofun⟩
      | cons z zs => rw [List.forall₂_cons, List.forall₂_cons, hx.congr hxy z, ih hxs zs]

/-- Lists are related when each item of either is related to one of the other. -/
theorem mutuallyWithin {xs : List α} (h : ∀ x ∈ xs, EquivAt R x) :
    EquivAt (MutuallyWithin R) xs where
  refl := ⟨fun x hx => ⟨x, hx, (h x hx).refl⟩, fun x hx => ⟨x, hx, (h x hx).refl⟩⟩
  congr := by
    rintro ys ⟨hxs, hys⟩ zs
    -- Both lists reach each other through related items, so they reach the same third lists.
    constructor
    · rintro ⟨hxz, hzx⟩
      refine ⟨fun y hy => ?_, fun z hz => ?_⟩
      · obtain ⟨x, hx, hxy⟩ := hys y hy
        obtain ⟨z, hz, hxz⟩ := hxz x hx
        exact ⟨z, hz, ((h x hx).congr hxy z).1 hxz⟩
      · obtain ⟨x, hx, hxz⟩ := hzx z hz
        obtain ⟨y, hy, hxy⟩ := hxs x hx
        exact ⟨y, hy, ((h x hx).congr hxy z).1 hxz⟩
    · rintro ⟨hyz, hzy⟩
      refine ⟨fun x hx => ?_, fun z hz => ?_⟩
      · obtain ⟨y, hy, hxy⟩ := hxs x hx
        obtain ⟨z, hz, hyz⟩ := hyz y hy
        exact ⟨z, hz, ((h x hx).congr hxy z).2 hyz⟩
      · obtain ⟨y, hy, hyz⟩ := hzy z hz
        obtain ⟨x, hx, hxy⟩ := hys y hy
        exact ⟨x, hx, ((h x hx).congr hxy z).2 hyz⟩

end EquivAt

end DataShapes
