import DataShapes.Proofs.Descriptor.Parts

/-!
# Rules at every depth

The rules for the options of a property are run again for every part of its type, with the options that
are left for parts.  A pattern and a format are left, but where they pass there are no parts; nothing
else that is left can be refused.  So what decides over the checks of a descriptor is the rules for the
descriptor as a whole, and its names.

Main statements:
* `checkProperty_eq_ok_iff`: when the rules pass;
* `checkProperty_innerPart`: where they pass for a descriptor, they pass for its parts;
* `Assembly.check_eq_ok_iff`: when all checks of a descriptor pass.
-/

namespace DataShapes

/-- The string type is the only descriptor of texts alone. -/
theorem Descriptor.isString_iff {d : Descriptor} : d.isString = true ↔ d = .scalar .string := by
  cases d with
  | scalar kind => cases kind <;> simp [isString]
  | _ => simp [isString]

variable {scope : Scope} {property : String} {d : Descriptor} {o : PropertyOptions}

/-- The rules pass exactly when the constraints are in order and a default conforms to the type. -/
theorem checkProperty_eq_ok_iff :
    (checkProperty scope property d o).result = .ok () ↔ checkConstraints property d o = .ok ()
      ∧ ∀ v, o.default = some v → (conforms scope v d).result = .ok true := by
  have hdefault : (checkDefault scope property d o).result = .ok () ↔
      ∀ v, o.default = some v → (conforms scope v d).result = .ok true := by
    unfold checkDefault
    cases o.default with
    | none => simp
    | some v =>
      simp only [Option.some.injEq, forall_eq', Noted.result_bind, Outcome.bind_eq_ok_iff]
      constructor
      · -- The check has to give an answer, and the answer has to be yes.
        rintro ⟨b, hb, h⟩
        cases b with
        | true => exact hb
        | false => cases h
      · exact fun h => ⟨true, h, rfl⟩
  unfold checkProperty
  rw [Noted.result_bind, Noted.result_liftM, Outcome.bind_eq_ok_iff, ← hdefault]
  exact ⟨fun ⟨_, hconstraints, h⟩ => ⟨hconstraints, h⟩, fun ⟨hconstraints, h⟩ => ⟨_, hconstraints, h⟩⟩

/-- Where the rules pass for a descriptor, they pass for its parts. -/
theorem checkProperty_innerPart (h : (checkProperty scope property d o).result = .ok ())
    {part : Descriptor} (hpart : part ∈ d.innerParts) :
    (checkProperty scope property part o.forPart).result = .ok () := by
  obtain ⟨htext, -⟩ := (checkConstraints_eq_ok_iff ..).1 (checkProperty_eq_ok_iff.1 h).1
  -- The string scalar, which alone takes a constraint, has no parts.
  have hfree : ¬ (o.enumeration.isSome ∨ o.pattern.isSome ∨ o.format.isSome) := by
    intro hgiven
    rw [Descriptor.isString_iff.1 (htext hgiven)] at hpart
    cases hpart
  rw [not_or] at hfree
  -- Enumeration and default have been dropped, the other constraints were not given.
  refine checkProperty_eq_ok_iff.2 ⟨(checkConstraints_eq_ok_iff ..).2 ⟨fun hgiven => ?_, nofun⟩, nofun⟩
  exact absurd (hgiven.resolve_left nofun) hfree.2

namespace Assembly

variable {a : Assembly}

/-- The options of a descriptor are checked before its parts. -/
theorem checkProperty_of_check (h : a.check property d o = .ok ()) :
    (checkProperty a.scope property d o).result = .ok () := by
  cases d with
  | scalar kind => exact h
  | _ =>
    rw [check, Outcome.do_eq_ok_iff] at h
    obtain ⟨⟨⟩, h, -⟩ := h
    exact h

/-- All checks of a descriptor pass exactly when the rules pass for the descriptor as a whole, it is
    well formed, its names lead somewhere, and the shape that is being defined is not embedded. -/
theorem check_eq_ok_iff :
    a.check property d o = .ok () ↔ (checkProperty a.scope property d o).result = .ok ()
      ∧ d.WellFormed = true
      ∧ ∀ name ∈ d.names, a.knows name ∧ (o.isInline = true → name ≠ a.name) := by
  refine ⟨fun h => ⟨checkProperty_of_check h, a.of_check h⟩, ?_⟩
  rintro ⟨hrules, hwell, hnames⟩
  -- The options are those of the whole at first and those for parts further down.
  induction d using Descriptor.induction_parts generalizing o with
  | scalar kind => exact hrules
  | array item ih =>
    have hitem : item ∈ (Descriptor.array item).innerParts :=
      Descriptor.mem_innerParts_of_mem_children List.mem_cons_self
    rw [check, Outcome.do_eq_ok_iff]
    exact ⟨(), hrules, ih (checkProperty_innerPart hrules hitem) hwell hnames⟩
  | map value ih =>
    have hvalue : value ∈ (Descriptor.map value).innerParts :=
      Descriptor.mem_innerParts_of_mem_children List.mem_cons_self
    rw [check, Outcome.do_eq_ok_iff]
    exact ⟨(), hrules, ih (checkProperty_innerPart hrules hvalue) hwell hnames⟩
  | union members ih =>
    rw [Descriptor.WellFormed, Descriptor.allWellFormed_iff] at hwell
    rw [check, Outcome.do_eq_ok_iff]
    refine ⟨(), hrules, (a.checkAll_eq_ok_iff property members _).2 fun m hm => ?_⟩
    have hmember : m ∈ (Descriptor.union members).innerParts :=
      Descriptor.mem_innerParts_of_mem_children hm
    refine ih m hm (checkProperty_innerPart hrules hmember) (hwell m hm) fun name hname => ?_
    exact hnames name (Descriptor.mem_names_union.2 ⟨m, hm, hname⟩)
  | named name =>
    obtain ⟨hknown, hembedded⟩ := hnames name List.mem_cons_self
    rw [check, Outcome.do_eq_ok_iff]
    refine ⟨(), hrules, Outcome.do_eq_ok_iff.2 ?_⟩
    rcases hknown with hself | hshape
    · refine ⟨.unfinished, (a.find_eq_ok_iff name _).2 (.inl ⟨hself, rfl⟩), if_neg fun hinline => ?_⟩
      exact hembedded hinline hself
    · obtain ⟨s, hs⟩ := Option.isSome_iff_exists.1 hshape
      exact ⟨.shape s, (a.find_eq_ok_iff name _).2 (.inr ⟨s, hs, rfl⟩), rfl⟩
  | raw v => cases hwell

end Assembly

end DataShapes
