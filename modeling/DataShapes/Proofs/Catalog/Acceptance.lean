import DataShapes.Proofs.Catalog.Endings

/-!
# Which properties are assembled

The schema of a property is assembled part by part, and at every part the rules for options, the look-up
of names and the embedding of shapes can refuse it.  What is refused nonetheless depends on the type as
a whole: its constraints, the names in it and its default.

Main definitions:
* `Catalog.Acceptable`: what a property must fulfil so that its schema is assembled.

Main statements:
* `Catalog.Reachable.succeeds_conforms_defining`: checks have an answer also while a shape is being
  defined;
* `Catalog.Reachable.assembles_iff`: a schema is assembled exactly for acceptable properties.
-/

namespace DataShapes

namespace Catalog

variable {c : Catalog} {d : Descriptor}

/-! ### Checks while a shape is being defined -/

/-- What a descriptor reaches, another one reaches that has all its names of the catalog. -/
theorem Reaches.mono {e : Descriptor} {s : Shape} (h : c.Reaches d s)
    (hnames : ∀ name ∈ d.names, name ∈ c.names → name ∈ e.names) : c.Reaches e s := by
  induction h with
  | @named name s hname hget =>
    have hmem : name ∈ c.names := by
      rw [names, Table.mem_keys_iff, hget]
      rfl
    exact .named (hnames name hname hmem) hget
  | through _ hname hget ih => exact .through ih hname hget

/-- A check that reaches no shape that contains itself gives an answer also while a shape is being
    defined, whose name may stand in the descriptor. -/
theorem Reachable.succeeds_conforms_defining (hc : c.Reachable) {self : String}
    (hself : self ∉ c.names) (hnames : ∀ name ∈ d.names, name ∈ c.names ∨ name = self)
    (hguard : ∀ s, c.Reaches d s → ¬ s.Unguarded) (v : Value) :
    (conforms (.defining self (some c)) v d).Succeeds := by
  have hshares : (Scope.within c).Shares (.defining self (some c)) c.names :=
    hc.shares (Continues.refl c).leadsInto ((Continues.refl c).leadsInto_defining hself)
  have hsize : (Scope.within c).size ≤ (Scope.defining self (some c)).size := Nat.le_refl _
  have hfollow : ∀ name ∈ d.names, ∀ w : Value, w.depth ≤ v.depth →
      ((Scope.defining self (some c)).follow
        ((Scope.defining self (some c)).followLimit v) name w).Succeeds := by
    intro name hname w hw
    rcases hnames name hname with hknown | rfl
    · -- A finished shape: within the catalog the check ends, with a limit that is no larger.
      have hanswer : (conforms (.within c) w (.named name)).Succeeds := by
        refine hc.succeeds_conforms (fun other hother => ?_) (fun s hs => hguard s (hs.mono ?_)) w
        · rwa [List.mem_singleton.1 hother]
        · intro other hother _
          rwa [List.mem_singleton.1 hother]
      obtain ⟨b, hb⟩ := hanswer
      have hless : (Scope.within c).followLimit w
          ≤ (Scope.defining self (some c)).followLimit v :=
        Scope.followLimit_le hsize hw
      exact ⟨b, Scope.follow_persists hshares hless hknown w b hb⟩
    · -- Of the shape that is being defined only the form of its values is looked at.
      obtain ⟨fuel, hfuel⟩ := (Scope.defining name (some c)).exists_followLimit_eq v
      have hfind : (Scope.defining name (some c)).find name = .ok .unfinished := if_pos rfl
      refine ⟨w.isTextKeyed, ?_⟩
      rw [hfuel, Scope.follow, hfind]
      rfl
  exact Descriptor.accepts_of_composes Noted.composes_succeeds hfollow

/-! ### Acceptable properties -/

/-- What a property must fulfil, beside being well formed, so that its schema is assembled. -/
structure Acceptable (c : Catalog) (a : Assembly) (d : Descriptor) (o : PropertyOptions) : Prop where
  /-- Enumeration, pattern and format go with the string scalar. -/
  constrained : o.enumeration.isSome ∨ o.pattern.isSome ∨ o.format.isSome → d = .scalar .string
  /-- Enumerations list texts. -/
  enumerated : ∀ values, o.enumeration = some values → ∀ v ∈ values, v.isStr = true
  /-- Names at any depth are defined or being defined. -/
  known : ∀ name ∈ d.names, name ∈ c.names ∨ name = a.name
  /-- The shape that is being defined is not embedded. -/
  embedded : o.isInline = true → a.name ∉ d.names
  /-- The default conforms to the type. -/
  default : ∀ v, o.default = some v → (conforms a.scope v d).result = .ok true

/-- The checks of a descriptor pass exactly when it is well formed and the property acceptable. -/
theorem check_eq_ok_iff_acceptable {a : Assembly} (ha : a.catalog = some c) (hself : a.name ∉ c.names)
    {property : String} {o : PropertyOptions} :
    a.check property d o = .ok () ↔ d.WellFormed = true ∧ c.Acceptable a d o := by
  -- The shape under definition is new, so its name is none of the catalog.
  have hknows : ∀ name, a.knows name ↔ name ∈ c.names ∨ name = a.name := by
    intro name
    refine ⟨fun h => (mem_names_of_knows ha h).symm, fun h => ?_⟩
    rcases h with hmem | hname
    · have hne : name ≠ a.name := fun heq => hself (heq ▸ hmem)
      right
      rw [Assembly.shape?, if_neg hne, ha]
      exact (Table.mem_keys_iff _ _).1 hmem
    · exact .inl hname
  rw [Assembly.check_eq_ok_iff, checkProperty_eq_ok_iff, checkConstraints_eq_ok_iff,
    Descriptor.isString_iff]
  constructor
  · rintro ⟨⟨⟨hconstrained, henumerated⟩, hdefault⟩, hwell, hnames⟩
    exact ⟨hwell, hconstrained, henumerated, fun name hname => (hknows name).1 (hnames name hname).1,
      fun hinline hname => (hnames _ hname).2 hinline rfl, hdefault⟩
  · rintro ⟨hwell, hconstrained, henumerated, hknown, hembedded, hdefault⟩
    refine ⟨⟨⟨hconstrained, henumerated⟩, hdefault⟩, hwell, fun name hname => ?_⟩
    exact ⟨(hknows name).2 (hknown name hname), fun hinline heq => hembedded hinline (heq ▸ hname)⟩

/-- Exactly the acceptable properties are assembled.  Let a shape be under definition whose name is new
    in a reachable catalog, and take a well-formed descriptor that reaches no type shape that contains
    itself outside every array and map.  Whatever the options, a schema is assembled exactly when
    constraints come with the string scalar and enumerations list texts, all names are known, the shape
    that is being defined is not embedded, and the default conforms, a check that has an answer.  The
    rules for options refuse no part where they pass for the whole. -/
theorem Reachable.assembles_iff (hc : c.Reachable) {a : Assembly} (ha : a.catalog = some c)
    (hself : a.name ∉ c.names) (hwell : d.WellFormed = true)
    (hguard : ∀ s, c.Reaches d s → ¬ s.Unguarded) (property : String) (o : PropertyOptions)
    {r : Registry} (hr : r.isSealed = false) :
    ((∃ s r', (a.schemaOf property d o r).result = .ok (s, r')) ↔ c.Acceptable a d o)
    ∧ ((∀ name ∈ d.names, name ∈ c.names ∨ name = a.name) → ∀ v, (conforms a.scope v d).Succeeds)
    ∧ ((checkProperty a.scope property d o).result = .ok () →
        ∀ part ∈ d.innerParts, (checkProperty a.scope property part o.forPart).result = .ok ()) := by
  refine ⟨?_, fun hnames v => ?_, fun hrules part hpart => checkProperty_innerPart hrules hpart⟩
  · -- An open registry takes all writes, so only the checks decide.
    have hassembled : (∃ s r', (a.schemaOf property d o r).result = .ok (s, r'))
        ↔ a.check property d o = .ok () := by
      rw [a.result_schemaOf property d o hr]
      cases a.check property d o <;> simp [Except.map]
    rw [hassembled, check_eq_ok_iff_acceptable ha hself]
    exact and_iff_right hwell
  · rw [Assembly.scope, ha]
    exact hc.succeeds_conforms_defining hself hnames hguard v

namespace Nests

/-- Forests are being defined beside nests. -/
def forests : Assembly := ⟨"Forest", "Forest", some catalog⟩

/-- Groves are lists of nests and forests. -/
def grove : Descriptor := .array (.union [.named "Nest", .named "Forest"])

end Nests

/-- Groves may be empty by default, but the forest that is being defined cannot be embedded in them. -/
theorem Reachable.assembles_iff_nests :
    Nests.catalog.Reachable
      ∧ (∃ s r', (Nests.forests.schemaOf "grove" Nests.grove { default := some (.list []) } {}).result
          = .ok (s, r'))
      ∧ ¬ ∃ s r', (Nests.forests.schemaOf "grove" Nests.grove { inline := some true } {}).result
          = .ok (s, r') := by
  -- A nest holds nests below an array.
  have hguarded : ¬ Nests.nest.Unguarded := List.not_mem_nil
  have hguard : ∀ s, Nests.catalog.Reaches Nests.grove s → ¬ s.Unguarded := by
    intro s hs
    have hnest : Nests.catalog.Reaches (.named "Nest") s := hs.mono (by decide)
    exact Nests.eq_nest_of_reaches hnest ▸ hguarded
  have hassembles := fun o => Reachable.assembles_iff Nests.reachable_catalog (a := Nests.forests)
    (d := Nests.grove) rfl (by decide) rfl hguard "grove" o (r := {}) rfl
  have hdefault : Nests.catalog.Acceptable Nests.forests Nests.grove { default := some (.list []) } :=
    { constrained := by simp
      enumerated := nofun
      known := by decide
      embedded := nofun
      default := by
        rintro v ⟨⟩
        rfl }
  refine ⟨Nests.reachable_catalog, (hassembles _).1.2 hdefault, fun h => ?_⟩
  have hembedded := ((hassembles { inline := some true }).1.1 h).embedded
  exact hembedded rfl (by decide)

end Catalog

end DataShapes
