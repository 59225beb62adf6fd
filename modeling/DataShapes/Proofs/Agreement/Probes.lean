import DataShapes.Proofs.Agreement.Congruence
import Mathlib.Data.Fintype.EquivFin

/-!
# Values that lead checks to names

A check that gives an answer has made all the checks on its way: those of all members of a union, and of
all names that it followed.  So for each name in a declaration there is a value whose check follows the
name, with any value but null for it, before it can give an answer.

Main definitions:
* `Noted.Ends`, `Noted.Succeeds`: a computation ends, and it gives a result.

Main statements:
* `Descriptor.succeeds_of_mem_bareNames`, `Shape.succeeds_of_mem_bareNames`: bare names have been
  followed for the value itself;
* `Descriptor.exists_probe`, `Shape.exists_probe`: some value leads a check to a name.
-/

namespace DataShapes

/-! ### Computations that end -/

namespace Noted

variable {α β : Type} {x : Noted α} {f : α → Noted β}

/-- The computation ends, with a result or with a problem that is not a lack of an end. -/
def Ends (x : Noted α) : Prop := x.result ≠ .error .endless

/-- The computation gives a result. -/
def Succeeds (x : Noted α) : Prop := ∃ a, x.result = .ok a

/-- A sequence gives a result when both of its parts do. -/
theorem succeeds_bind_iff :
    (x >>= f).Succeeds ↔ ∃ a, x.result = .ok a ∧ (f a).Succeeds := by
  simp only [Succeeds, result_bind, Outcome.bind_eq_ok_iff]
  constructor
  · rintro ⟨b, a, ha, hb⟩
    exact ⟨a, ha, b, hb⟩
  · rintro ⟨a, ha, b, hb⟩
    exact ⟨b, a, ha, hb⟩

/-- A sequence that gives a result has a first part that does. -/
theorem Succeeds.of_bind (h : (x >>= f).Succeeds) : x.Succeeds := by
  obtain ⟨a, ha, -⟩ := succeeds_bind_iff.1 h
  exact ⟨a, ha⟩

/-- What gives a result has not run out of fuel. -/
theorem Succeeds.ends (h : x.Succeeds) : x.Ends := by
  obtain ⟨a, ha⟩ := h
  rw [Ends, ha]
  exact nofun

/-- Giving a result is kept by all the ways in which checks are put together. -/
theorem composes_succeeds : Composes fun _ x _ => Succeeds x where
  succeed h := ⟨_, h⟩
  bind h hf := by
    obtain ⟨a, ha⟩ := h
    exact succeeds_bind_iff.2 ⟨a, ha, hf a ha⟩

/-- So is having the same result as another check. -/
theorem composes_result : Composes fun _ x y => x.result = y.result where
  succeed _ := rfl
  bind {_ _ x y f g} h hf := by
    rw [result_bind, result_bind, ← h]
    cases hx : x.result with
    | error p => rfl
    | ok a => exact hf a hx

/-- Whether a computation ends without a result is decided by its parts. -/
theorem composes_ends : Composes fun _ x _ => Ends x → Succeeds x where
  succeed h := fun _ => ⟨_, h⟩
  bind {_ _ x y f g} h hf := by
    intro hends
    unfold Ends at hends
    rw [result_bind] at hends
    cases hx : x.result with
    | error p =>
      -- The whole has the problem of its first part, so that ends, and gives a result after all.
      have hfirst : x.Ends := by
        intro hendless
        rw [hendless] at hends
        exact hends rfl
      obtain ⟨a, ha⟩ := h hfirst
      rw [hx] at ha
      cases ha
    | ok a =>
      rw [hx] at hends
      exact succeeds_bind_iff.2 ⟨a, hx, hf a hx hends⟩

end Noted

/-! ### Names that are followed -/

namespace Descriptor

variable {follow : String → Value → Noted Bool}

/-- All members of a union are checked. -/
theorem succeeds_of_acceptingMembers {ds : List Descriptor} {v : Value}
    (h : (acceptingMembers follow ds v).Succeeds) : ∀ d ∈ ds, (d.accepts follow v).Succeeds := by
  induction ds with
  | nil => exact fun d hd => absurd hd List.not_mem_nil
  | cons d ds ih =>
    rw [acceptingMembers] at h
    obtain ⟨b, hb, h⟩ := Noted.succeeds_bind_iff.1 h
    exact List.forall_mem_cons.2 ⟨⟨b, hb⟩, ih h.of_bind⟩

/-- The check of a union tries all of its members, even behind one that admits the value. -/
theorem succeeds_of_union {members : List Descriptor} {v : Value}
    (h : ((Descriptor.union members).accepts follow v).Succeeds) :
    ∀ m ∈ members, (m.accepts follow v).Succeeds := by
  rw [accepts] at h
  exact succeeds_of_acceptingMembers h.of_bind

/-- A check that gives an answer has followed all bare names for the value. -/
theorem succeeds_of_mem_bareNames {d : Descriptor} {v : Value} (h : (d.accepts follow v).Succeeds) :
    ∀ name ∈ d.bareNames, (follow name v).Succeeds := by
  induction d using induction_parts with
  | union members ih =>
    intro name hname
    obtain ⟨m, hm, hname⟩ := mem_bareNames_union.1 hname
    exact ih m hm (succeeds_of_union h m hm) name hname
  | named other =>
    intro name hname
    rw [bareNames, List.mem_singleton] at hname
    rwa [hname]
  | _ => exact fun name hname => absurd hname List.not_mem_nil

/-- Some value leads the check of a descriptor to a name in it, with a given value. -/
theorem exists_probe {d : Descriptor} {name : String} (hname : name ∈ d.names) {w : Value}
    (hw : w ≠ .null) : ∃ v, v ≠ .null ∧ ∀ follow : String → Value → Noted Bool,
      (d.accepts follow v).Succeeds → (follow name w).Succeeds := by
  induction d using induction_parts with
  | scalar kind => exact absurd hname List.not_mem_nil
  | array item ih =>
    -- The probe of a part goes into a container with nothing else in it.
    obtain ⟨v, -, hv⟩ := ih hname
    refine ⟨.list [v], by simp, fun follow h => hv follow ?_⟩
    rw [accepts] at h
    exact h.of_bind
  | map value ih =>
    obtain ⟨v, -, hv⟩ := ih hname
    refine ⟨.dict [(.str "", v)], by simp, fun follow h => hv follow ?_⟩
    rw [accepts] at h
    exact h.of_bind
  | union members ih =>
    obtain ⟨m, hm, hname⟩ := mem_names_union.1 hname
    obtain ⟨v, hnull, hv⟩ := ih m hm hname
    -- All members of a union are tried, so the probe of one is a probe of the union.
    exact ⟨v, hnull, fun follow h => hv follow (succeeds_of_union h m hm)⟩
  | named other =>
    rw [names, List.mem_singleton] at hname
    refine ⟨w, hw, fun follow h => ?_⟩
    rw [accepts] at h
    rwa [hname]
  | raw v => exact absurd hname List.not_mem_nil

end Descriptor

namespace Shape

variable {s : Shape} {accepts : Descriptor → Value → Noted Bool} {v : Value}

/-- Null is a value of a shape that admits it. -/
theorem admits_null (h : s.nullable = true) : s.admits accepts .null = pure true := by
  simp [admits, h]

/-- Other values are checked against the type of a type shape. -/
theorem admits_of_descriptor {d : Descriptor} (hd : s.descriptor? = some d)
    (hv : v = .null → s.nullable = false) : s.admits accepts v = accepts d v := by
  cases hbody : s.body with
  | object specs additional options parent => simp [descriptor?, hbody] at hd
  | type e o =>
    have heq : e = d := by simpa [descriptor?, hbody] using hd
    cases v with
    | null => simp [admits, hbody, heq, hv rfl]
    | _ => simp [admits, hbody, heq]

/-- A check that gives an answer has followed all bare names of a type shape for a value that is not
    null. -/
theorem succeeds_of_mem_bareNames {follow : String → Value → Noted Bool}
    (hv : v = .null → s.nullable = false)
    (h : (s.admits (Descriptor.accepts follow) v).Succeeds) :
    ∀ name ∈ s.bareNames, (follow name v).Succeeds := by
  intro name hname
  cases hd : s.descriptor? with
  | none => simp [bareNames, hd] at hname
  | some d =>
    have hbare : name ∈ d.bareNames := by simpa [bareNames, hd] using hname
    rw [admits_of_descriptor hd hv] at h
    exact Descriptor.succeeds_of_mem_bareNames h name hbare

/-- An object with one entry is admitted only after the check of the entry. -/
theorem succeeds_of_admits_single {key : String} {x : Value} (hobject : s.isObject = true)
    (h : (s.admits accepts (.dict [(.str key, x)])).Succeeds) :
    (s.admitsEntry accepts key x).Succeeds := by
  cases hbody : s.body with
  | type d o => simp [isObject, hbody] at hobject
  | object specs additional options parent =>
    let entries : List (Value × Value) := [(.str key, x)]
    have hcheck : s.admits accepts (.dict entries)
        = (Noted.all (fun e => s.admitsEntry accepts e.1.text e.2) entries >>= fun b =>
          if !b then pure false else pure (s.hasNeededKeys entries)) := by
      simp [admits, hbody, entries, Value.isTextKeyed, Value.isStr, Value.str?]
    rw [hcheck] at h
    -- The entries are checked before the needed keys are looked for.
    exact h.of_bind.of_bind

/-- The entry under the key of a property is checked against its type. -/
theorem admitsEntry_of_spec (hnames : (s.specs.map PropertySpec.name).Nodup) {spec : PropertySpec}
    (hspec : spec ∈ s.specs) (hv : v ≠ .null) :
    s.admitsEntry accepts spec.name v = accepts spec.descriptor v := by
  unfold admitsEntry
  cases hfind : s.specs.find? fun other => other.name == spec.name with
  | none =>
    have hno := List.find?_eq_none.1 hfind spec hspec
    simp at hno
  | some other =>
    have hname : other.name = spec.name := by simpa using List.find?_some hfind
    -- No name is declared twice, so the look-up finds this declaration.
    have hsame : other = spec :=
      List.inj_on_of_nodup_map hnames (List.mem_of_find?_eq_some hfind) hspec hname
    cases v with
    | null => exact absurd rfl hv
    | _ => simp [hsame]

/-- The entry under another key is checked against the type for these. -/
theorem admitsEntry_of_additional {e : Descriptor × PropertyOptions} (he : s.additional = some e)
    {key : String} (hkey : ∀ spec ∈ s.specs, spec.name ≠ key) (hv : v ≠ .null) :
    s.admitsEntry accepts key v = accepts e.1 v := by
  have hfind : (s.specs.find? fun spec => spec.name == key) = none := by
    rw [List.find?_eq_none]
    intro spec hspec
    simpa using hkey spec hspec
  unfold admitsEntry
  rw [hfind, he]
  cases v with
  | null => exact absurd rfl hv
  | _ => simp

/-- Some value leads the check of a shape to a name in its declarations, with a given value. -/
theorem exists_probe (hnames : (s.specs.map PropertySpec.name).Nodup) {name : String}
    (hname : name ∈ s.names) {w : Value} (hw : w ≠ .null) :
    ∃ v, v ≠ .null ∧ ∀ follow : String → Value → Noted Bool,
      (s.admits (Descriptor.accepts follow) v).Succeeds → (follow name w).Succeeds := by
  rcases List.mem_append.1 hname with hname | hname
  · rcases List.mem_append.1 hname with hname | hname
    · -- A name in the type of a type shape.
      cases hd : s.descriptor? with
      | none => simp [hd] at hname
      | some d =>
        have hmem : name ∈ d.names := by simpa [hd] using hname
        obtain ⟨v, hnull, hv⟩ := Descriptor.exists_probe hmem hw
        refine ⟨v, hnull, fun follow h => hv follow ?_⟩
        rwa [admits_of_descriptor hd fun heq => absurd heq hnull] at h
    · -- A name in the type of a property.
      obtain ⟨spec, hspec, hmem⟩ := List.mem_flatMap.1 hname
      obtain ⟨v, hnull, hv⟩ := Descriptor.exists_probe hmem hw
      refine ⟨.dict [(.str spec.name, v)], by simp, fun follow h => hv follow ?_⟩
      have hentry := succeeds_of_admits_single (isObject_of_mem_specs hspec) h
      rwa [admitsEntry_of_spec hnames hspec hnull] at hentry
  · -- A name in the type of what other keys have.
    obtain ⟨e, he, hmem⟩ := List.mem_flatMap.1 hname
    have hadditional : s.additional = some e := Option.mem_toList.1 he
    obtain ⟨v, hnull, hv⟩ := Descriptor.exists_probe hmem hw
    obtain ⟨key, hkey⟩ := Infinite.exists_notMem_finset (s.specs.map PropertySpec.name).toFinset
    have hother : ∀ spec ∈ s.specs, spec.name ≠ key := by
      rintro spec hspec rfl
      exact hkey (List.mem_toFinset.2 (List.mem_map_of_mem hspec))
    refine ⟨.dict [(.str key, v)], by simp, fun follow h => hv follow ?_⟩
    have hentry := succeeds_of_admits_single (isObject_of_additional hadditional) h
    rwa [admitsEntry_of_additional hadditional hother hnull] at hentry

end Shape

end DataShapes
