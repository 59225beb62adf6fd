import DataShapes.Proofs.Descriptor.Parts
import DataShapes.Property

/-!
# What a written type stands for

A type is written as a descriptor, in short form, or in short form with descriptors inside.  Short
forms give descriptors all of whose parts are descriptors, and no union without members; descriptors
are taken as they are.  So what a written type stands for is in order when the descriptors in it
are.

Main definitions:
* `Value.instances`: the descriptors in a written type.

Main statements:
* `Shorthand.read_eq_ok_cases`: the forms in which a type can be written;
* `Shorthand.read_closed`: what holds of the descriptors in a written type holds of what it stands
  for;
* `Shorthand.wellFormed_of_read`, `Shorthand.populated_of_read`: it is in order.
-/

namespace DataShapes

namespace Value

mutual

/-- The descriptors that a written type is or holds, at any depth. -/
def instances : Value → List Descriptor
  | .descriptor d => [d]
  | .list vs | .tuple vs => instancesOfAll vs
  | _ => []

/-- The descriptors in the written types of a list. -/
def instancesOfAll : List Value → List Descriptor
  | [] => []
  | v :: vs => instances v ++ instancesOfAll vs

end

theorem instancesOfAll_eq (vs : List Value) : instancesOfAll vs = vs.flatMap instances := by
  induction vs with
  | nil => rfl
  | cons v vs ih => rw [instancesOfAll, ih, List.flatMap_cons]

/-- The descriptors in an item are in the list. -/
theorem mem_instances_list {vs : List Value} {v : Value} (hv : v ∈ vs) {e : Descriptor}
    (he : e ∈ v.instances) : e ∈ (Value.list vs).instances := by
  rw [instances, instancesOfAll_eq]
  exact List.mem_flatMap.2 ⟨v, hv, he⟩

/-- The descriptors in an item are in the tuple. -/
theorem mem_instances_tuple {vs : List Value} {v : Value} (hv : v ∈ vs) {e : Descriptor}
    (he : e ∈ v.instances) : e ∈ (Value.tuple vs).instances := by
  rw [instances, instancesOfAll_eq]
  exact List.mem_flatMap.2 ⟨v, hv, he⟩

end Value

namespace Shorthand

/-- The types of a list are read one by one. -/
theorem readAll_eq_ok_iff {vs : List Value} {ds : List Descriptor} :
    readAll vs = .ok ds ↔ List.Forall₂ (fun v d => read v = .ok d) vs ds := by
  induction vs generalizing ds with
  | nil =>
    rw [readAll, List.forall₂_nil_left_iff]
    exact ⟨fun h => (Except.ok.inj h).symm, fun h => by rw [h]⟩
  | cons v vs ih =>
    rw [readAll, Outcome.do_eq_ok_iff, List.forall₂_cons_left_iff]
    constructor
    · rintro ⟨d, hd, h⟩
      obtain ⟨ds', hds, h⟩ := Outcome.do_eq_ok_iff.1 h
      exact ⟨d, ds', hd, ih.1 hds, (Outcome.pure_eq_ok_iff.1 h).symm⟩
    · rintro ⟨d, ds', hd, hds, rfl⟩
      exact ⟨d, hd, Outcome.do_eq_ok_iff.2 ⟨ds', ih.2 hds, rfl⟩⟩

/-- A pair is read as the container that it names. -/
theorem readTuple_eq_ok {items : List Value} {d : Descriptor} (h : readTuple items = .ok d) :
    ∃ container inner e, items = [.str container, inner] ∧ read inner = .ok e
      ∧ (d = .array e ∨ d = .map e) := by
  unfold readTuple at h
  split at h
  · rename_i container inner
    -- The word in front says whether this is an array or a map.
    split at h
    · obtain ⟨e, he, h⟩ := Outcome.do_eq_ok_iff.1 h
      exact ⟨container, inner, e, rfl, he, .inl (Outcome.pure_eq_ok_iff.1 h).symm⟩
    · split at h
      · obtain ⟨e, he, h⟩ := Outcome.do_eq_ok_iff.1 h
        exact ⟨container, inner, e, rfl, he, .inr (Outcome.pure_eq_ok_iff.1 h).symm⟩
      · cases h
  · cases h

/-- A list is read as a union, and it is not empty. -/
theorem read_list_eq_ok {vs : List Value} {d : Descriptor} (h : read (.list vs) = .ok d) :
    ∃ ds, ds ≠ [] ∧ List.Forall₂ (fun v d => read v = .ok d) vs ds ∧ d = .union ds := by
  cases vs with
  | nil =>
    rw [read] at h
    cases h
  | cons v vs =>
    rw [read] at h
    obtain ⟨e, he, h⟩ := Outcome.do_eq_ok_iff.1 h
    obtain ⟨es, hes, h⟩ := Outcome.do_eq_ok_iff.1 h
    exact ⟨e :: es, List.cons_ne_nil e es, .cons he (readAll_eq_ok_iff.1 hes),
      (Outcome.pure_eq_ok_iff.1 h).symm⟩

/-- The forms in which a type can be written: a descriptor, the name of a scalar, a shape, a pair
    for an array or a map, and a list for a union. -/
theorem read_eq_ok_cases {v : Value} {d : Descriptor} (h : read v = .ok d) :
    v = .descriptor d ∨ (∃ kind, d = .scalar kind) ∨ (∃ name, d = .named name)
      ∨ (∃ container inner e, v = .tuple [.str container, inner] ∧ read inner = .ok e
          ∧ (d = .array e ∨ d = .map e))
      ∨ ∃ vs ds, v = .list vs ∧ ds ≠ []
          ∧ List.Forall₂ (fun v d => read v = .ok d) vs ds ∧ d = .union ds := by
  cases v with
  | descriptor e =>
    rw [read] at h
    exact .inl (by rw [Except.ok.inj h])
  | str s =>
    rw [read] at h
    split at h
    · exact .inr (.inl ⟨_, (Except.ok.inj h).symm⟩)
    · cases h
  | shape handle =>
    rw [read] at h
    exact .inr (.inr (.inl ⟨_, (Except.ok.inj h).symm⟩))
  | tuple items =>
    rw [read] at h
    obtain ⟨container, inner, e, rfl, he, hd⟩ := readTuple_eq_ok h
    exact .inr (.inr (.inr (.inl ⟨container, inner, e, rfl, he, hd⟩)))
  | list vs =>
    obtain ⟨ds, hne, hds, hd⟩ := read_list_eq_ok h
    exact .inr (.inr (.inr (.inr ⟨vs, ds, rfl, hne, hds, hd⟩)))
  | null | bool b | int n | float x | dict es | foreign kind text =>
    simp [read] at h

/-- What holds of the descriptors in a written type, and passes from parts to the containers that
    short forms make of them, holds of the descriptor that the written type stands for. -/
theorem read_closed {P : Descriptor → Prop} (scalar : ∀ kind, P (.scalar kind))
    (named : ∀ name, P (.named name)) (array : ∀ d, P d → P (.array d))
    (map : ∀ d, P d → P (.map d))
    (union : ∀ ds, ds ≠ [] → (∀ d ∈ ds, P d) → P (.union ds)) (v : Value) :
    ∀ {d : Descriptor}, read v = .ok d → (∀ e ∈ v.instances, P e) → P d := by
  intro d hread h
  -- The recursion follows the written type, whose items are smaller than it.
  rcases read_eq_ok_cases hread with rfl | ⟨kind, rfl⟩ | ⟨name, rfl⟩ |
    ⟨container, inner, e, rfl, he, hd⟩ | ⟨vs, ds, rfl, hne, hds, rfl⟩
  · exact h d (by simp [Value.instances])
  · exact scalar kind
  · exact named name
  · have hinner : P e := read_closed scalar named array map union inner he fun x hx =>
      h x (Value.mem_instances_tuple (by simp) hx)
    rcases hd with rfl | rfl
    · exact array e hinner
    · exact map e hinner
  · apply union ds hne
    intro d hd
    obtain ⟨w, hw, hwd⟩ := Outcome.mem_of_forall₂ hds hd
    have : sizeOf w < sizeOf vs := List.sizeOf_lt_of_mem hw
    exact read_closed scalar named array map union w hwd fun x hx =>
      h x (Value.mem_instances_list hw hx)
termination_by sizeOf v

/-- All parts of what a written type stands for are descriptors when those of the descriptors in it
    are. -/
theorem wellFormed_of_read {v : Value} {d : Descriptor} (hread : read v = .ok d)
    (h : ∀ e ∈ v.instances, e.WellFormed = true) : d.WellFormed = true := by
  refine read_closed (P := fun d => d.WellFormed = true) (fun _ => rfl) (fun _ => rfl)
    (fun _ hd => hd) (fun _ hd => hd) (fun ds _ hds => ?_) v hread h
  rw [Descriptor.WellFormed, Descriptor.allWellFormed_iff]
  exact hds

/-- What a written type stands for holds no union without members when the descriptors in it hold
    none. -/
theorem populated_of_read {v : Value} {d : Descriptor} (hread : read v = .ok d)
    (h : ∀ e ∈ v.instances, e.Populated) : d.Populated := by
  have hleaf : ∀ d : Descriptor, d.children = [] → (∀ members, d ≠ .union members) →
      d.Populated := by
    intro d hchildren hunion
    rw [Descriptor.populated_iff, hchildren]
    exact ⟨fun members hd => absurd hd (hunion members), by simp⟩
  refine read_closed (fun kind => hleaf _ rfl (by simp)) (fun name => hleaf _ rfl (by simp))
    (fun d hd => ?_) (fun d hd => ?_) (fun ds hne hds => ?_) v hread h
  · rw [Descriptor.populated_iff]
    exact ⟨by simp, by simpa [Descriptor.children] using hd⟩
  · rw [Descriptor.populated_iff]
    exact ⟨by simp, by simpa [Descriptor.children] using hd⟩
  · rw [Descriptor.populated_iff]
    -- A list of types is never empty, since the short form of a union needs a member.
    refine ⟨fun members heq => ?_, hds⟩
    cases heq
    exact hne

end Shorthand

end DataShapes
