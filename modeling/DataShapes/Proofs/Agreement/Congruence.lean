import DataShapes.Proofs.Agreement.Checks

/-!
# Checks that follow names alike

The check of a value does the same whatever names lead to, save where it follows a name.  Two ways to
follow names that are related, for the names and values at hand, therefore lead to related checks, for
every relation between computations that holds of what succeeds and that composition keeps.

Main definitions:
* `Noted.Composes`: a relation between computations that is of this kind.

Main statements:
* `Descriptor.accepts_congr`: names are followed for the value itself where they are bare, and for
  less deep values elsewhere;
* `Shape.admits_congr`: so it is with the declarations of a shape.
-/

namespace DataShapes

namespace Noted

variable {R : (α : Type) → Noted α → Noted α → Prop}

/-- The relation holds of what succeeds, and composition keeps it. -/
structure Composes (R : (α : Type) → Noted α → Noted α → Prop) : Prop where
  succeed {α : Type} {x : Noted α} {a : α} : x.result = .ok a → R α x x
  bind {α β : Type} {x y : Noted α} {f g : α → Noted β} : R α x y →
    (∀ a, x.result = .ok a → R β (f a) (g a)) → R β (x >>= f) (y >>= g)

/-- A computation without steps is related to itself. -/
theorem Composes.pure {α : Type} (hR : Composes R) (a : α) : R α (pure a) (pure a) :=
  hR.succeed rfl

/-- Branches on one condition are related when they are one by one. -/
theorem rel_ite {α : Type} {p : Prop} [Decidable p] {x x' y y' : Noted α} (h : R α x y)
    (h' : R α x' y') : R α (if p then x else x') (if p then y else y') := by
  by_cases hp : p
  · rw [if_pos hp, if_pos hp]
    exact h
  · rw [if_neg hp, if_neg hp]
    exact h'

/-- Checks of all items of a list are related when the checks of each item are. -/
theorem Composes.all {α : Type} {check check' : α → Noted Bool} {xs : List α} (hR : Composes R)
    (h : ∀ x ∈ xs, R Bool (check x) (check' x)) : R Bool (all check xs) (all check' xs) := by
  induction xs with
  | nil => exact hR.pure true
  | cons x xs ih =>
    have hxs : R Bool (Noted.all check xs) (Noted.all check' xs) :=
      ih fun y hy => h y (List.mem_cons_of_mem _ hy)
    exact hR.bind (h x List.mem_cons_self) fun _ _ => rel_ite hxs (hR.pure false)

end Noted

variable {R : (α : Type) → Noted α → Noted α → Prop}

namespace Descriptor

variable {follow follow' : String → Value → Noted Bool}

/-- Members are tried in the same way when each of them is checked in the same way. -/
theorem acceptingMembers_congr (hR : Noted.Composes R) {ds : List Descriptor} {v : Value}
    (h : ∀ d ∈ ds, R Bool (d.accepts follow v) (d.accepts follow' v)) :
    R (List Descriptor) (acceptingMembers follow ds v) (acceptingMembers follow' ds v) := by
  induction ds with
  | nil =>
    unfold acceptingMembers
    exact hR.pure []
  | cons d ds ih =>
    have hds := ih fun e he => h e (List.mem_cons_of_mem _ he)
    unfold acceptingMembers
    exact hR.bind (h d List.mem_cons_self) fun _ _ => hR.bind hds fun _ _ => hR.pure _

/-- The checks of a descriptor are related when following a bare name for the value is, and following
    any name for less deep values. -/
theorem accepts_congr (hR : Noted.Composes R) {d : Descriptor} {v : Value}
    (hbare : ∀ name ∈ d.bareNames, R Bool (follow name v) (follow' name v))
    (hdeep : ∀ name ∈ d.names, ∀ w, w.depth < v.depth → R Bool (follow name w) (follow' name w)) :
    R Bool (d.accepts follow v) (d.accepts follow' v) := by
  induction d using induction_parts generalizing v with
  | scalar kind =>
    unfold accepts
    exact hR.pure _
  | array item ih =>
    have hdeep : ∀ name ∈ item.names, ∀ w, w.depth < v.depth →
        R Bool (follow name w) (follow' name w) := hdeep
    -- Items are less deep, and so are the values in them.
    have hitem : ∀ w, w.depth < v.depth → R Bool (item.accepts follow w) (item.accepts follow' w) := by
      intro w hw
      refine ih (fun name hname => ?_) fun name hname x hx => ?_
      · exact hdeep name (mem_names_of_mem_bareNames hname) w hw
      · exact hdeep name hname x (Nat.lt_trans hx hw)
    unfold accepts
    cases v with
    | list vs => exact hR.all fun w hw => hitem w (Value.depth_lt_list hw)
    | tuple vs => exact hR.all fun w hw => hitem w (Value.depth_lt_tuple hw)
    | _ => exact hR.pure false
  | map value ih =>
    have hdeep : ∀ name ∈ value.names, ∀ w, w.depth < v.depth →
        R Bool (follow name w) (follow' name w) := hdeep
    have hvalue : ∀ w, w.depth < v.depth →
        R Bool (value.accepts follow w) (value.accepts follow' w) := by
      intro w hw
      refine ih (fun name hname => ?_) fun name hname x hx => ?_
      · exact hdeep name (mem_names_of_mem_bareNames hname) w hw
      · exact hdeep name hname x (Nat.lt_trans hx hw)
    unfold accepts
    cases v with
    | dict es => exact hR.all fun e he =>
      Noted.rel_ite (hvalue e.2 (Value.depth_lt_dict he)) (hR.pure false)
    | _ => exact hR.pure false
  | union members ih =>
    have hmembers : ∀ m ∈ members, R Bool (m.accepts follow v) (m.accepts follow' v) := by
      intro m hm
      refine ih m hm (fun name hname => ?_) fun name hname => ?_
      · exact hbare name (mem_bareNames_union.2 ⟨m, hm, hname⟩)
      · exact hdeep name (mem_names_union.2 ⟨m, hm, hname⟩)
    unfold accepts
    refine hR.bind (acceptingMembers_congr hR hmembers) fun admitting _ => ?_
    -- What is pointed out is the same in both.
    split
    · exact hR.bind (hR.succeed rfl) fun _ _ => hR.pure _
    · exact hR.bind (hR.pure _) fun _ _ => hR.pure _
  | named name =>
    unfold accepts
    exact hbare name (by simp [bareNames])
  | raw w =>
    unfold accepts
    exact hR.pure false

/-- So they are when following any name is, for all values that are no deeper. -/
theorem accepts_congr_of_names (hR : Noted.Composes R) {d : Descriptor} {v : Value}
    (h : ∀ name ∈ d.names, ∀ w, w.depth ≤ v.depth → R Bool (follow name w) (follow' name w)) :
    R Bool (d.accepts follow v) (d.accepts follow' v) := by
  refine accepts_congr hR (fun name hname => ?_) fun name hname w hw => ?_
  · exact h name (mem_names_of_mem_bareNames hname) v (Nat.le_refl _)
  · exact h name hname w (Nat.le_of_lt hw)

/-- What composes holds of the checks of a descriptor when it holds of following its names. -/
theorem accepts_of_composes {P : (α : Type) → Noted α → Prop} (hP : Noted.Composes fun α x _ => P α x)
    {d : Descriptor} {v : Value}
    (h : ∀ name ∈ d.names, ∀ w, w.depth ≤ v.depth → P Bool (follow name w)) :
    P Bool (d.accepts follow v) :=
  @accepts_congr_of_names (fun α x _ => P α x) follow follow hP d v h

end Descriptor

namespace Shape

variable {s : Shape} {accepts accepts' : Descriptor → Value → Noted Bool} {v : Value}

/-- An entry is checked in the same way when the types that it may have are. -/
theorem admitsEntry_congr (hR : Noted.Composes R) {key : String}
    (hspec : ∀ spec ∈ s.specs, R Bool (accepts spec.descriptor v) (accepts' spec.descriptor v))
    (hother : ∀ e, s.additional = some e → R Bool (accepts e.1 v) (accepts' e.1 v)) :
    R Bool (s.admitsEntry accepts key v) (s.admitsEntry accepts' key v) := by
  unfold admitsEntry
  cases hfind : s.specs.find? fun spec => spec.name == key with
  | some spec => exact Noted.rel_ite (hR.pure true) (hspec spec (List.mem_of_find?_eq_some hfind))
  | none =>
    cases hadditional : s.additional with
    | none => exact hR.pure false
    | some e => exact Noted.rel_ite (hR.pure true) (hother e hadditional)

/-- The checks of a shape are related when those of its type are for the value, and those of its
    properties and other keys for less deep values. -/
theorem admits_congr (hR : Noted.Composes R)
    (htype : ∀ d, s.descriptor? = some d → R Bool (accepts d v) (accepts' d v))
    (hspec : ∀ spec ∈ s.specs, ∀ w, w.depth < v.depth →
      R Bool (accepts spec.descriptor w) (accepts' spec.descriptor w))
    (hother : ∀ e, s.additional = some e → ∀ w, w.depth < v.depth →
      R Bool (accepts e.1 w) (accepts' e.1 w)) :
    R Bool (s.admits accepts v) (s.admits accepts' v) := by
  unfold admits
  refine Noted.rel_ite (hR.pure true) ?_
  cases hbody : s.body with
  | type d o => exact htype d (by simp [descriptor?, hbody])
  | object specs additional options parent =>
    cases v with
    | dict es =>
      have hentries : R Bool (Noted.all (fun e => s.admitsEntry accepts e.1.text e.2) es)
          (Noted.all (fun e => s.admitsEntry accepts' e.1.text e.2) es) := by
        refine hR.all fun e he => ?_
        have hdepth : e.2.depth < (Value.dict es).depth := Value.depth_lt_dict he
        exact admitsEntry_congr hR (fun spec hmem => hspec spec hmem e.2 hdepth)
          fun other hmem => hother other hmem e.2 hdepth
      -- The keys are checked before the entries, and what is needed behind them.
      exact Noted.rel_ite (hR.pure false) (hR.bind hentries fun _ _ =>
        Noted.rel_ite (hR.pure false) (hR.pure _))
    | _ => exact hR.pure false

/-- The checks of a shape are related when following its bare names for the value is, and following any
    of its names for less deep values. -/
theorem admits_accepts_congr {follow follow' : String → Value → Noted Bool}
    (hR : Noted.Composes R)
    (hbare : ∀ name ∈ s.bareNames, R Bool (follow name v) (follow' name v))
    (hdeep : ∀ name ∈ s.names, ∀ w, w.depth < v.depth → R Bool (follow name w) (follow' name w)) :
    R Bool (s.admits (Descriptor.accepts follow) v) (s.admits (Descriptor.accepts follow') v) := by
  -- What is checked below a value is less deep than the value.
  have hinner : ∀ d : Descriptor, (∀ name ∈ d.names, name ∈ s.names) → ∀ w, w.depth < v.depth →
      R Bool (d.accepts follow w) (d.accepts follow' w) := by
    intro d hd w hw
    exact Descriptor.accepts_congr_of_names hR fun name hname x hx =>
      hdeep name (hd name hname) x (Nat.lt_of_le_of_lt hx hw)
  refine admits_congr hR (fun d hd => ?_) (fun spec hspec => ?_) fun e he => ?_
  · refine Descriptor.accepts_congr hR (fun name hname => hbare name ?_) fun name hname =>
      hdeep name (mem_names_of_descriptor hd hname)
    rw [bareNames, hd]
    exact hname
  · exact hinner spec.descriptor fun name hname => mem_names_of_spec hspec hname
  · exact hinner e.1 fun name hname => mem_names_of_additional he hname

/-- So they are when following any of its names is, for all values that are no deeper. -/
theorem admits_accepts_congr_of_names {follow follow' : String → Value → Noted Bool}
    (hR : Noted.Composes R)
    (h : ∀ name ∈ s.names, ∀ w, w.depth ≤ v.depth → R Bool (follow name w) (follow' name w)) :
    R Bool (s.admits (Descriptor.accepts follow) v) (s.admits (Descriptor.accepts follow') v) := by
  refine admits_accepts_congr hR (fun name hname => ?_) fun name hname w hw => ?_
  · exact h name (mem_names_of_mem_bareNames hname) v (Nat.le_refl _)
  · exact h name hname w (Nat.le_of_lt hw)

/-- What composes holds of the checks of a shape when it holds of following its names. -/
theorem admits_accepts_of_composes {P : (α : Type) → Noted α → Prop}
    (hP : Noted.Composes fun α x _ => P α x) {follow : String → Value → Noted Bool}
    (h : ∀ name ∈ s.names, ∀ w, w.depth ≤ v.depth → P Bool (follow name w)) :
    P Bool (s.admits (Descriptor.accepts follow) v) :=
  @admits_accepts_congr_of_names (fun α x _ => P α x) s v follow follow hP h

end Shape

end DataShapes
