import DataShapes.Proofs.Catalog.Frame

/-!
# Independent definitions commute

Two definitions are independent when they are for different names and neither mentions the name of the
other.  Whichever is made first, each of them ends in the same way, and the catalogs that they lead to
hold the same shapes.  Titles do not matter for that: every definition has a registry of its own.

Main definitions:
* `Definition.Mentions`: the declarations of a definition mention a name;
* `Catalog.SameOutcome`: two definitions end with one shape, or with problems of one class.

Main statements:
* `Catalog.Reachable.define_matches`: a further shape that is not mentioned makes no difference;
* `Catalog.Reachable.define_comm`: independent definitions commute.
-/

namespace DataShapes

/-- The value says that the shape of the name is extended, by its name or by a handle. -/
def Value.Extends (base : Value) (name : String) : Prop :=
  base = .str name ∨ ∃ h : ShapeHandle, base = .shape h ∧ h.name = name

/-- The declarations of a definition mention the name: the type of a type shape, the types of
    properties and of values under other keys, or what is extended. -/
inductive Definition.Mentions : Definition → String → Prop where
  | type {d : TypeDeclaration} {descriptor : Descriptor} {name : String} :
      Shorthand.read d.type = .ok descriptor → name ∈ descriptor.names → Mentions (.type d) name
  | property {d : ObjectDeclaration} {declaration : Declaration} {spec : PropertySpec}
      {name : String} : declaration ∈ d.properties →
      PropertySpec.ofDeclaration declaration = .ok spec → name ∈ spec.descriptor.names →
      Mentions (.object d) name
  | additional {d : ObjectDeclaration} {e : Descriptor × PropertyOptions} {name : String} :
      additionalOfValue d.additional = .ok (some e) → name ∈ e.1.names → Mentions (.object d) name
  | base {d : ObjectDeclaration} {options : ObjectOptions} {name : String} :
      ObjectOptions.ofEntries d.options = .ok options → options.base.Extends name →
      Mentions (.object d) name

namespace Catalog

/-- Two definitions end with the same shape, or with problems of the same class. -/
def SameOutcome (x y : Noted (Catalog × Shape)) : Prop :=
  Noted.Matches (fun a b => a.2 = b.2) x y

/-- Every definition has the outcome that it has. -/
theorem SameOutcome.refl (x : Noted (Catalog × Shape)) : SameOutcome x x := by
  unfold SameOutcome Noted.Matches
  cases x.result with
  | error p => exact .error rfl
  | ok a => exact .ok rfl

variable {c : Catalog} {t : Shape}

/-! ### A further shape -/

/-- Another shape in the catalog makes no difference to a name that is not its own. -/
theorem newName_add {v : Value} (hv : v ≠ .str t.name) : (c.add t).newName v = c.newName v := by
  cases v with
  | str name =>
    have hne : name ≠ t.name := fun heq => hv (heq ▸ rfl)
    have hcontains : (c.add t).contains name = c.contains name := by
      unfold contains Table.contains
      rw [get?_add hne]
    simp only [newName, hcontains]
  | _ => rfl

/-- What an object extends, when this is not the further shape. -/
theorem extended_matches (elsewhere : ShapeHandle → Option Shape) (self : String) {base : Value}
    (hbase : ¬ base.Extends t.name) :
    Outcome.Matches Eq (c.extended elsewhere self base) ((c.add t).extended elsewhere self base) := by
  cases base with
  | str other =>
    have hne : other ≠ t.name := fun heq => hbase (.inl (heq ▸ rfl))
    have hget : Outcome.Matches Eq (c.get other) ((c.add t).get other) := by
      unfold get
      rw [get?_add hne]
      cases c.shapes.get? other with
      | some s => exact .ok rfl
      | none => exact .error rfl
    unfold extended
    -- A shape that extends its own name is refused before the catalog is asked.
    by_cases hself : other = self
    · simp only [hself, if_true]
      exact .refl _
    · simp only [hself, if_false]
      exact hget.bind fun _ _ => .refl _
  | shape h =>
    have hne : h.name ≠ t.name := fun heq => hbase (.inr ⟨h, rfl, heq⟩)
    have hfollow : (c.add t).follow elsewhere h = c.follow elsewhere h := by
      -- Handles name the catalog they belong to, and both catalogs are the same one.
      have hid : (c.add t).id = c.id := rfl
      unfold follow
      rw [hid, get?_add hne]
    simp only [extended, hfollow]
    exact .refl _
  | _ => exact .refl _

/-- A notice about a problem makes no difference. -/
theorem onDefinitionProblem_matches {α : Type} {x y : Noted α} (h : Noted.Matches Eq x y)
    (source : Source) (describe : Problem → String) :
    Noted.Matches Eq (x.onDefinitionProblem source describe) (y.onDefinitionProblem source describe) := by
  unfold Noted.Matches
  rw [Noted.result_onDefinitionProblem, Noted.result_onDefinitionProblem]
  exact h

/-- A definition of a type shape that does not mention the further shape. -/
theorem Reachable.defineType_matches (hc : c.Reachable) (ht : t.name ∉ c.names)
    {d : TypeDeclaration} (hname : d.name ≠ .str t.name)
    (hd : ¬ (Definition.type d).Mentions t.name) :
    SameOutcome (c.defineType d) ((c.add t).defineType d) := by
  unfold defineType
  rw [newName_add hname]
  refine (Noted.Matches.refl _).bind fun name hnew => ?_
  refine (Noted.Matches.refl _).bind fun descriptor hread => ?_
  refine (Noted.Matches.refl _).bind fun options _ => ?_
  -- Only building the schema looks at the catalog; all other stages are the same computation.
  have hself : name ∉ c.names := (newName_eq_ok_iff.1 hnew).2.2
  have hdescriptor : t.name ∉ descriptor.names := fun hmem => hd (.type hread hmem)
  have hschema := hc.schemaOf_matches (titleOr name d.title) name ht hself hdescriptor options
    { owner := some name }
  refine (onDefinitionProblem_matches hschema .definition _).bind fun x _ => ?_
  exact (Noted.Matches.refl _).bind fun _ _ => .ok rfl

/-- A definition of an object shape that does not mention the further shape. -/
theorem Reachable.defineObject_matches (hc : c.Reachable) (ht : t.name ∉ c.names)
    (elsewhere : ShapeHandle → Option Shape) {d : ObjectDeclaration} (hname : d.name ≠ .str t.name)
    (hd : ¬ (Definition.object d).Mentions t.name) :
    SameOutcome (c.defineObject elsewhere d) ((c.add t).defineObject elsewhere d) := by
  unfold defineObject
  rw [newName_add hname]
  refine (Noted.Matches.refl _).bind fun name hnew => ?_
  refine (Noted.Matches.refl _).bind fun options hoptions => ?_
  refine (Noted.Matches.refl _).bind fun specs hspecs => ?_
  refine (Noted.Matches.refl _).bind fun additional hadditional => ?_
  have hbase : ¬ options.base.Extends t.name := fun hextends => hd (.base hoptions hextends)
  have hparent : Noted.Matches Eq (liftM (c.extended elsewhere name options.base))
      (liftM ((c.add t).extended elsewhere name options.base)) :=
    extended_matches elsewhere name hbase
  refine hparent.bind fun parent _ => ?_
  have hself : name ∉ c.names := (newName_eq_ok_iff.1 hnew).2.2
  have hproperties : ∀ spec ∈ specs, t.name ∉ spec.descriptor.names := by
    intro spec hspec hmem
    obtain ⟨declaration, hdeclaration, hread⟩ :=
      Outcome.mem_of_forall₂ (Outcome.mapM_eq_ok_iff.1 hspecs) hspec
    exact hd (.property hdeclaration hread hmem)
  have hothers : ∀ e, additional = some e → t.name ∉ e.1.names := by
    rintro e rfl hmem
    exact hd (.additional hadditional hmem)
  have hschema := hc.objectSchema_matches (titleOr name d.title) ht hself hproperties hothers options
    parent { owner := some name }
  refine (onDefinitionProblem_matches hschema .definition _).bind fun x _ => ?_
  -- What is left does not look at the catalog until the shape is added to it.
  cases parent with
  | none =>
    refine (Noted.Matches.refl _).bind fun _ _ => ?_
    exact (Noted.Matches.refl _).bind fun _ _ => .ok rfl
  | some p =>
    refine (Noted.Matches.refl _).bind fun _ _ => ?_
    exact (Noted.Matches.refl _).bind fun _ _ => .ok rfl

/-- A definition that does not mention the further shape. -/
theorem Reachable.define_matches (hc : c.Reachable) (ht : t.name ∉ c.names)
    (elsewhere : ShapeHandle → Option Shape) {d : Definition} (hname : d.name ≠ .str t.name)
    (hd : ¬ d.Mentions t.name) :
    SameOutcome (c.define elsewhere d) ((c.add t).define elsewhere d) := by
  cases d with
  | object d => exact hc.defineObject_matches ht elsewhere hname hd
  | type d => exact hc.defineType_matches ht hname hd

/-! ### Two definitions -/

/-- A definition that succeeds is for the name of its shape. -/
theorem name_of_define {elsewhere : ShapeHandle → Option Shape} {d : Definition}
    {x : Catalog × Shape} (h : (c.define elsewhere d).result = .ok x) : d.name = .str x.2.name := by
  obtain ⟨c', s⟩ := x
  cases d with
  | type d =>
    obtain ⟨args, u, hargs, -, -, rfl, -⟩ := defineType_eq_ok_iff.1 h
    obtain ⟨hname, -⟩ := typeArguments_eq_ok_iff.1 hargs
    exact (newName_eq_ok_iff.1 hname).1
  | object d =>
    obtain ⟨args, u, hargs, -, -, rfl, -⟩ := defineObject_eq_ok_iff.1 h
    obtain ⟨hname, -⟩ := objectArguments_eq_ok_iff.1 hargs
    exact (newName_eq_ok_iff.1 hname).1

/-- A definition ends in the same way after one that it is independent of. -/
theorem Reachable.define_step_matches (hc : c.Reachable) {a b : Definition} (hname : a.name ≠ b.name)
    (hab : ∀ name, b.name = .str name → ¬ a.Mentions name) :
    SameOutcome (c.define (fun _ => none) a)
      ((c.step (fun _ => none) b).define (fun _ => none) a) := by
  cases hb : (c.define (fun _ => none) b).result with
  | error p =>
    -- A refused definition leaves the catalog as it is.
    rw [step_of_error hb]
    exact .refl _
  | ok x =>
    obtain ⟨c', t⟩ := x
    obtain ⟨rfl, ht⟩ := finishes_of_define hb
    have hstep : c.step (fun _ => none) b = c.add t := by rw [Catalog.step, hb]
    have hbname : b.name = .str t.name := name_of_define hb
    rw [hstep]
    exact hc.define_matches ht.name_not_mem _ (hbname ▸ hname) (hab t.name hbname)

/-- Definitions with the same outcome in two catalogs add one shape to both or to neither. -/
theorem step_cases_of_sameOutcome {c' : Catalog} {d : Definition}
    (h : SameOutcome (c.define (fun _ => none) d) (c'.define (fun _ => none) d)) :
    (c.step (fun _ => none) d = c ∧ c'.step (fun _ => none) d = c')
      ∨ ∃ s, (c.step (fun _ => none) d = c.add s ∧ s.name ∉ c.names)
        ∧ c'.step (fun _ => none) d = c'.add s ∧ s.name ∉ c'.names := by
  unfold SameOutcome Noted.Matches at h
  unfold step
  generalize hx : (c.define (fun _ => none) d).result = x at h
  generalize hy : (c'.define (fun _ => none) d).result = y at h
  cases h with
  | error _ => exact .inl ⟨rfl, rfl⟩
  | @ok p q hpq =>
    obtain ⟨c₁, s⟩ := p
    obtain ⟨c₂, s'⟩ := q
    -- The outcomes agree on the shape alone: the catalogs around it differ.
    have hsame : s = s' := hpq
    subst hsame
    obtain ⟨rfl, hs⟩ := finishes_of_define hx
    obtain ⟨rfl, hs'⟩ := finishes_of_define hy
    exact .inr ⟨s, ⟨rfl, hs.name_not_mem⟩, rfl, hs'.name_not_mem⟩

/-- Independent definitions commute.  In a reachable catalog, take two definitions for different names
    of which neither mentions the name of the other.  Each of them ends with the same shape or with a
    problem of the same class, whether it is made first or second, and in both orders the same shapes
    are defined. -/
theorem Reachable.define_comm (hc : c.Reachable) {a b : Definition} (hname : a.name ≠ b.name)
    (hab : ∀ name, b.name = .str name → ¬ a.Mentions name)
    (hba : ∀ name, a.name = .str name → ¬ b.Mentions name) :
    SameOutcome (c.define (fun _ => none) a) ((c.after [b]).define (fun _ => none) a)
      ∧ SameOutcome (c.define (fun _ => none) b) ((c.after [a]).define (fun _ => none) b)
      ∧ (c.after [a, b]).id = (c.after [b, a]).id
      ∧ (c.after [a, b]).shapes.Perm (c.after [b, a]).shapes := by
  have ha := hc.define_step_matches hname hab
  have hb := hc.define_step_matches hname.symm hba
  refine ⟨ha, hb, ?_⟩
  simp only [after_cons, after_nil]
  rcases step_cases_of_sameOutcome ha with ⟨ha, ha'⟩ | ⟨s, ⟨ha, hs⟩, ha', hs'⟩
  · rw [ha, ha']
    exact ⟨rfl, .refl _⟩
  · rcases step_cases_of_sameOutcome hb with ⟨hb, hb'⟩ | ⟨t, ⟨hb, ht⟩, hb', ht'⟩
    · rw [hb']
      rw [hb] at ha' ⊢
      exact ⟨rfl, .refl _⟩
    · -- Both shapes are added, in one order or in the other.
      rw [ha] at hb' ht' ⊢
      rw [hb] at ha' hs' ⊢
      rw [hb', ha', shapes_add ht', shapes_add hs', shapes_add hs, shapes_add ht, List.append_assoc,
        List.append_assoc]
      exact ⟨rfl, (List.Perm.swap ..).append_left _⟩

/-! ### Paths and trees of one title -/

namespace Trees

/-- Paths, with the title that trees have. -/
def titledPaths : TypeDeclaration := { paths with title := .str "Tree" }

/-- The shape of these paths. -/
def titledPath : Shape :=
  TypeArguments.shape ⟨"Path", "Tree", .array (.named "Key"), {}⟩ (({} : Catalog).add key)
    (.sequence (.named "Key"))

theorem defineType_titledPaths : ((({} : Catalog).add key).defineType titledPaths).result
    = .ok ((({} : Catalog).add key).add titledPath, titledPath) :=
  defineType_eq_ok_iff.2 ⟨⟨"Path", "Tree", .array (.named "Key"), {}⟩, _, rfl, rfl,
    (TypeExpr.ofSchema_array_eq_ok_iff rfl).2
      ⟨_, _, rfl, TypeExpr.ofSchema_reference_eq_ok_iff.2 ⟨"Key", rfl, rfl⟩, rfl⟩, rfl, rfl⟩

/-- Paths mention keys only. -/
theorem not_mentions_titledPaths : ¬ (Definition.type titledPaths).Mentions "Tree" := by
  rintro (⟨hread, hmem⟩)
  cases hread
  exact absurd hmem (by decide)

/-- Trees mention keys and themselves. -/
theorem not_mentions_trees : ¬ (Definition.object trees).Mentions "Path" := by
  intro h
  -- One case for each place of a declaration that a name can stand in.
  cases h with
  | @property _ declaration spec _ hmem hread hname =>
    rcases List.mem_cons.1 hmem with rfl | hmem
    · cases hread
      exact absurd hname (by decide)
    · rw [List.mem_singleton.1 hmem] at hread
      cases hread
      exact absurd hname (by decide)
  | additional hread _ => cases hread
  | base hread hextends =>
    cases hread
    rcases hextends with h | ⟨_, h, -⟩ <;> cases h

end Trees

/-- Paths and trees of one title can be defined in either order. -/
theorem Reachable.define_comm_trees :
    ∃ c : Catalog, c.Reachable ∧ Trees.titledPaths.name ≠ Trees.trees.name
      ∧ SameOutcome (c.defineType Trees.titledPaths)
        ((c.after [.object Trees.trees]).defineType Trees.titledPaths)
      ∧ c.after [.type Trees.titledPaths] = c.add Trees.titledPath
      ∧ (c.after [.type Trees.titledPaths, .object Trees.trees]).shapes.Perm
        (c.after [.object Trees.trees, .type Trees.titledPaths]).shapes := by
  let c := ({} : Catalog).add Trees.key
  have hc : c.Reachable := ⟨"", _, Trees.after_keys.symm⟩
  have hname : (Definition.type Trees.titledPaths).name ≠ (Definition.object Trees.trees).name := by
    intro h
    exact absurd (Value.str.inj h) (by decide)
  have hpaths : ∀ name, (Definition.object Trees.trees).name = .str name →
      ¬ (Definition.type Trees.titledPaths).Mentions name := by
    rintro name h
    cases h
    exact Trees.not_mentions_titledPaths
  have htrees : ∀ name, (Definition.type Trees.titledPaths).name = .str name →
      ¬ (Definition.object Trees.trees).Mentions name := by
    rintro name h
    cases h
    exact Trees.not_mentions_trees
  obtain ⟨houtcome, -, -, hshapes⟩ := Reachable.define_comm hc hname hpaths htrees
  refine ⟨c, hc, hname, houtcome, ?_, hshapes⟩
  rw [after_cons, after_nil, Catalog.step, define, Trees.defineType_titledPaths]

end Catalog

end DataShapes
