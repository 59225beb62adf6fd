import DataShapes.Proofs.Catalog.Views

/-!
# Lineages of object shapes

An object shape goes back to a row of definitions: the first of them extends nothing, and each other
one extends the shape before it.  Merging goes on at each of them, so what a shape has under a name is
what the most derived definition that declares the name says, and the names stand in the order in
which they were first declared.  Nothing else is taken over.

Main definitions:
* `Generation`: one definition of an object shape;
* `Lineage`: the definitions that an object shape goes back to;
* `MostDerived`: the generation of a lineage that decides about a property;
* `Generation.Decides`: a shape has a property as a generation declares it.

Main statements:
* `Lineage.names`, `Lineage.keys`, `Lineage.decides`: the order of properties, and what decides about
  each of them;
* `Catalog.Reached.child_wins`: child wins along the whole lineage of every object shape.
-/

namespace DataShapes

/-! ### Merged properties -/

namespace ObjectArguments

variable {args : ObjectArguments} {c : Catalog}

/-- The required names of the extended shape. -/
def inheritedRequired (args : ObjectArguments) : List String :=
  (args.parent.map Shape.required).getD []

/-- The required names of the extended shape that are not declared again as optional. -/
def keptRequired (args : ObjectArguments) : List String :=
  args.inheritedRequired.filter fun name =>
    !args.own.any fun spec => spec.name == name && !spec.options.isRequired

/-- The names that the object requires itself, in the order of declaration. -/
def ownRequired (args : ObjectArguments) : List String :=
  (args.own.filter (·.options.isRequired)).map PropertySpec.name

/-- No property of a shape is declared twice when none of the extended shape is. -/
theorem nodup_all (h : args.Accepted c)
    (hparent : ∀ p, args.parent = some p → (p.specs.map PropertySpec.name).Nodup) :
    (args.all.map PropertySpec.name).Nodup :=
  Inheritance.nodup_merge (nodup_inheritedSpecs hparent) (nodup_own h)

/-- A property is declared by the object itself, or taken over and not declared again. -/
theorem mem_all_iff (h : args.Accepted c)
    (hparent : ∀ p, args.parent = some p → (p.specs.map PropertySpec.name).Nodup)
    {spec : PropertySpec} :
    spec ∈ args.all ↔ spec ∈ args.own
      ∨ spec ∈ args.inheritedSpecs ∧ spec.name ∉ args.own.map PropertySpec.name :=
  Inheritance.mem_merge_iff (nodup_inheritedSpecs hparent) (nodup_own h)

/-- The schema of a property is the one that is built for its declaration, or else the one that is
    taken over. -/
theorem get?_properties (h : args.Accepted c)
    (hparent : ∀ p, args.parent = some p → p.schema.properties.keys.Nodup) (name : String) :
    (args.schema c).properties.get? name
      = (Table.get? (buildProperties (args.assembly c).naming args.own) name).or
        (Table.get? ((args.parent.map (·.schema.properties)).getD []) name) := by
  have hinherited : (Table.keys ((args.parent.map (·.schema.properties)).getD [])).Nodup := by
    cases hp : args.parent with
    | none => exact List.nodup_nil
    | some p => exact hparent p hp
  rw [properties_schema]
  exact Inheritance.get?_merge hinherited (nodup_keys_built h) name

/-- A name is declared again as optional exactly when it is declared again and not required. -/
theorem stays_eq (h : args.Accepted c) (name : String) :
    (!(args.own.map PropertySpec.name).contains name || args.ownRequired.contains name)
      = !args.own.any fun spec => spec.name == name && !spec.options.isRequired := by
  rw [Bool.eq_iff_iff]
  simp only [Bool.or_eq_true, Bool.not_eq_true', List.contains_eq_mem, decide_eq_true_eq,
    decide_eq_false_iff_not, List.any_eq_false, Bool.and_eq_true, beq_iff_eq, not_and,
    Bool.not_eq_false]
  constructor
  · rintro (hnew | hrequired) spec hspec rfl
    · exact absurd (List.mem_map_of_mem hspec) hnew
    · -- Under one name there is one own declaration.
      obtain ⟨other, hother, hname⟩ := List.mem_map.1 hrequired
      obtain ⟨hmem, hflag⟩ := List.mem_filter.1 hother
      rwa [← List.inj_on_of_nodup_map (nodup_own h) hmem hspec hname]
  · intro hall
    by_cases hname : name ∈ args.own.map PropertySpec.name
    · obtain ⟨spec, hspec, rfl⟩ := List.mem_map.1 hname
      exact .inr (List.mem_map_of_mem (List.mem_filter.2 ⟨hspec, hall spec hspec rfl⟩))
    · exact .inl hname

/-- The required names of an object: those of the extended shape that are not declared again as
    optional, then the others that it requires itself. -/
theorem required_eq (h : args.Accepted c) :
    (args.schema c).required
      = args.keptRequired ++ args.ownRequired.filter (!args.inheritedRequired.contains ·) := by
  have hkept : (args.inheritedRequired.filter fun name =>
        !(args.own.map PropertySpec.name).contains name || args.ownRequired.contains name)
      = args.keptRequired := List.filter_congr fun name _ => stays_eq h name
  -- What the object requires itself is never dropped from the names of the extended shape.
  have hothers : args.ownRequired.filter (!args.keptRequired.contains ·)
      = args.ownRequired.filter (!args.inheritedRequired.contains ·) := by
    refine List.filter_congr fun name hname => ?_
    have hstays := stays_eq h name
    rw [List.contains_iff_mem.2 hname, Bool.or_true] at hstays
    rw [Bool.eq_iff_iff]
    simp only [keptRequired, Bool.not_eq_true', List.contains_eq_mem, decide_eq_false_iff_not,
      List.mem_filter, ← hstays, and_true]
  rw [required_schema]
  show Inheritance.mergeRequired _ args.inheritedRequired args.ownRequired = _
  unfold Inheritance.mergeRequired
  dsimp only
  rw [hkept, hothers]

end ObjectArguments

/-! ### Generations -/

/-- One definition of an object shape: the catalog that it was made in, what it said, and the shape
    that it ended with. -/
structure Generation where
  catalog : Catalog
  arguments : ObjectArguments
  shape : Shape

namespace Generation

variable {g : Generation} {spec : PropertySpec}

/-- The definition was made and ended with the shape. -/
def Made (g : Generation) : Prop :=
  ∃ elsewhere d, g.catalog.objectArguments elsewhere d = .ok g.arguments
    ∧ (g.catalog.defineObject elsewhere d).result = .ok (g.catalog.add g.shape, g.shape)

/-- The properties that the definition declares. -/
def declared (g : Generation) : List String := g.arguments.own.map PropertySpec.name

/-- The definition assembles the declaration to the node. -/
def Assembles (g : Generation) (property : String) (d : Descriptor) (o : PropertyOptions)
    (node : Schema) : Prop :=
  ∃ r, ((g.arguments.assembly g.catalog).schemaOf property d o {}).result = .ok (node, r)

/-- The shape has the property as the generation declares it: the declaration is the one under its
    name, the schema of the property is that of the generation, which is what the declaration was
    assembled to, and the name is required when the declaration says so. -/
structure Decides (g : Generation) (spec : PropertySpec) (s : Shape) : Prop where
  spec_iff {other : PropertySpec} : other ∈ s.specs ∧ other.name = spec.name ↔ other = spec
  node : ∃ node, s.schema.properties.get? spec.name = some node
    ∧ g.shape.schema.properties.get? spec.name = some node
    ∧ g.Assembles spec.name spec.descriptor spec.options node
  required : spec.name ∈ s.required ↔ spec.options.isRequired = true

/-- The declarations passed their checks, and the shape is the declared one with the signature that
    was read off its schema, with the types of the extended shape at hand. -/
theorem Made.cases (h : g.Made) : g.arguments.Accepted g.catalog
    ∧ ∃ t, g.arguments.signature g.catalog = .ok t ∧ g.shape = g.arguments.shape g.catalog t := by
  obtain ⟨elsewhere, d, hargs, hresult⟩ := h
  obtain ⟨haccepted, t, ht, heq⟩ := (Catalog.defineObject_eq_ok_iff_of_arguments hargs).1 hresult
  exact ⟨haccepted, t, ht, (Prod.mk.inj heq).2⟩

/-- The name was not empty and new. -/
theorem Made.newName (h : g.Made) :
    g.arguments.name ≠ "" ∧ g.arguments.name ∉ g.catalog.names := by
  obtain ⟨elsewhere, d, hargs, -⟩ := h
  obtain ⟨hname, -⟩ := Catalog.objectArguments_eq_ok_iff.1 hargs
  exact (Catalog.newName_eq_ok_iff.1 hname).2

/-- The shape has the name that its definition gave it. -/
theorem Made.name (h : g.Made) : g.shape.name = g.arguments.name := by
  obtain ⟨-, t, -, heq⟩ := h.cases
  rw [heq]
  rfl

/-- The name of the shape was new. -/
theorem Made.name_not_mem (h : g.Made) : g.shape.name ∉ g.catalog.names := by
  rw [h.name]
  exact h.newName.2

/-- The shape has the merged declarations of its definition. -/
theorem Made.specs (h : g.Made) : g.shape.specs = g.arguments.all := by
  obtain ⟨-, t, -, heq⟩ := h.cases
  rw [heq]
  rfl

/-- The shape has the schema that its definition built. -/
theorem Made.schema (h : g.Made) : g.shape.schema = g.arguments.schema g.catalog := by
  obtain ⟨-, t, -, heq⟩ := h.cases
  rw [heq]
  rfl

/-- A declaration that passes its checks is assembled to the schema that is built for it. -/
theorem assembles_of_check {property : String} {d : Descriptor} {o : PropertyOptions}
    (h : (g.arguments.assembly g.catalog).check property d o = .ok ()) :
    g.Assembles property d o (d.build (g.arguments.assembly g.catalog).naming o) := by
  refine ⟨({} : Registry).write ((g.arguments.assembly g.catalog).writes d o), ?_⟩
  rw [Assembly.result_schemaOf _ _ _ _ rfl, h]
  rfl

end Generation

/-- No property of the shape is declared twice, and its schema follows its declarations. -/
structure Shape.Ordered (s : Shape) : Prop where
  names : (s.specs.map PropertySpec.name).Nodup
  declared : s.Declared

/-- The properties of the schema have distinct names as well. -/
theorem Shape.Ordered.keys {s : Shape} (h : s.Ordered) : s.schema.properties.keys.Nodup := by
  rw [h.declared.keys]
  exact h.names

namespace Generation

variable {g : Generation} {spec : PropertySpec} {p : Shape}

/-- A definition keeps properties in order when those of the extended shape are. -/
theorem Made.ordered (h : g.Made) (hparent : ∀ p, g.arguments.parent = some p → p.Ordered) :
    g.shape.Ordered := by
  obtain ⟨haccepted, t, -, heq⟩ := h.cases
  have hnames : ∀ p, g.arguments.parent = some p → (p.specs.map PropertySpec.name).Nodup :=
    fun p hp => (hparent p hp).names
  rw [heq]
  exact ⟨g.arguments.nodup_all haccepted hnames,
    g.arguments.declared haccepted hnames (fun p hp => (hparent p hp).declared) t⟩

/-- The names of the shape: those that are taken over and those that are declared, in the order in
    which they first occur. -/
theorem Made.names (h : g.Made) (hparent : ∀ p, g.arguments.parent = some p → p.Ordered) :
    g.shape.specs.map PropertySpec.name
      = (g.arguments.inheritedSpecs.map PropertySpec.name ++ g.declared).eraseDups := by
  have hinherited := ObjectArguments.nodup_inheritedSpecs fun p hp => (hparent p hp).names
  rw [h.specs]
  exact Inheritance.keys_merge_eq_eraseDups hinherited (ObjectArguments.nodup_own h.cases.1)

/-- A definition decides about the properties that it declares. -/
theorem Made.decides (h : g.Made) (hparent : ∀ p, g.arguments.parent = some p → p.Ordered)
    (hspec : spec ∈ g.arguments.own) : g.Decides spec g.shape := by
  obtain ⟨haccepted, -⟩ := h.cases
  have hordered := h.ordered hparent
  have hmem : spec ∈ g.shape.specs := by
    rw [h.specs]
    exact (ObjectArguments.mem_all_iff haccepted fun p hp => (hparent p hp).names).2 (.inl hspec)
  -- Its own properties are built without duplicates, so the one under the name is this one.
  have hbuilt : Table.get? (buildProperties (g.arguments.assembly g.catalog).naming g.arguments.own)
      spec.name = some (spec.descriptor.build (g.arguments.assembly g.catalog).naming spec.options) :=
    (Table.get?_eq_some_iff (ObjectArguments.nodup_keys_built haccepted)).2
      (List.mem_map.2 ⟨spec, hspec, rfl⟩)
  have hnode : g.shape.schema.properties.get? spec.name
      = some (spec.descriptor.build (g.arguments.assembly g.catalog).naming spec.options) := by
    -- In the overlay an own property hides the inherited one.
    rw [h.schema, ObjectArguments.get?_properties haccepted fun p hp => (hparent p hp).keys, hbuilt,
      Option.some_or]
  refine ⟨?_, ⟨_, hnode, hnode, assembles_of_check (haccepted.specs spec hspec)⟩,
    hordered.declared.required.name_mem_iff hordered.names hmem⟩
  intro other
  constructor
  · rintro ⟨hother, hname⟩
    exact List.inj_on_of_nodup_map hordered.names hother hmem hname
  · rintro rfl
    exact ⟨hmem, rfl⟩

/-- What an earlier definition decides about a property still holds of a shape that extends the
    shape and does not declare the property. -/
theorem Decides.inherit {earlier : Generation} (h : earlier.Decides spec p) (hp : p.Ordered)
    (hg : g.Made) (hparent : g.arguments.parent = some p) (hnew : spec.name ∉ g.declared) :
    earlier.Decides spec g.shape := by
  obtain ⟨haccepted, -⟩ := hg.cases
  have hparents : ∀ q, g.arguments.parent = some q → q.Ordered := by
    intro q hq
    rw [hparent] at hq
    cases hq
    exact hp
  have hordered := hg.ordered hparents
  have hinherited : spec ∈ g.arguments.inheritedSpecs := by
    rw [ObjectArguments.inheritedSpecs, hparent]
    exact (h.spec_iff.2 rfl).1
  have hmem : spec ∈ g.shape.specs := by
    rw [hg.specs]
    exact (ObjectArguments.mem_all_iff haccepted fun q hq => (hparents q hq).names).2
      (.inr ⟨hinherited, hnew⟩)
  -- Nothing of the same name is built here, so the overlay shows what is inherited.
  have hnone : Table.get? (buildProperties (g.arguments.assembly g.catalog).naming g.arguments.own)
      spec.name = none := by
    rw [Table.get?_eq_none_iff, Assembly.keys_buildProperties]
    exact hnew
  obtain ⟨node, hnode, hearlier, hassembles⟩ := h.node
  have hkept : g.shape.schema.properties.get? spec.name = some node := by
    rw [hg.schema, ObjectArguments.get?_properties haccepted fun q hq => (hparents q hq).keys, hnone,
      Option.none_or, hparent]
    exact hnode
  refine ⟨?_, ⟨node, hkept, hearlier, hassembles⟩,
    hordered.declared.required.name_mem_iff hordered.names hmem⟩
  intro other
  constructor
  · rintro ⟨hother, hname⟩
    exact List.inj_on_of_nodup_map hordered.names hother hmem hname
  · rintro rfl
    exact ⟨hmem, rfl⟩

end Generation

/-! ### Lineages -/

/-- The definitions that an object shape goes back to: the first extends nothing, each other one
    extends the shape before it, and the last ended with the shape. -/
inductive Lineage : List Generation → Shape → Prop
  | root (g : Generation) : g.Made → g.arguments.parent = none → Lineage [g] g.shape
  | extend {gs : List Generation} {p : Shape} (g : Generation) : Lineage gs p → g.Made →
      g.arguments.parent = some p → Lineage (gs ++ [g]) g.shape

/-- The generation declares the property, and no later one of the row declares the name. -/
def MostDerived (gs : List Generation) (g : Generation) (spec : PropertySpec) : Prop :=
  spec ∈ g.arguments.own ∧ ∃ before after, gs = before ++ g :: after
    ∧ ∀ later ∈ after, spec.name ∉ later.declared

/-- The last generation decides about what it declares, and the others about what it does not. -/
theorem mostDerived_concat_iff {gs : List Generation} {g last : Generation} {spec : PropertySpec} :
    MostDerived (gs ++ [last]) g spec ↔ (g = last ∧ spec ∈ last.arguments.own)
      ∨ MostDerived gs g spec ∧ spec.name ∉ last.declared := by
  constructor
  · rintro ⟨hspec, before, after, heq, hlater⟩
    -- Either the deciding generation is the last one, or the last one stands after it.
    rcases List.eq_nil_or_concat after with rfl | ⟨after, other, rfl⟩
    · obtain ⟨-, hlast⟩ := List.append_inj' heq rfl
      cases hlast
      exact .inl ⟨rfl, hspec⟩
    · rw [List.concat_eq_append, ← List.cons_append, ← List.append_assoc] at heq
      obtain ⟨hgs, hlast⟩ := List.append_inj' heq rfl
      cases hlast
      simp only [List.concat_eq_append, List.forall_mem_append, List.mem_singleton,
        forall_eq] at hlater
      exact .inr ⟨⟨hspec, before, after, hgs, hlater.1⟩, hlater.2⟩
  · rintro (⟨rfl, hspec⟩ | ⟨⟨hspec, before, after, rfl, hlater⟩, hnew⟩)
    · exact ⟨hspec, gs, [], rfl, by simp⟩
    · refine ⟨hspec, before, after ++ [last], by simp, ?_⟩
      simp only [List.forall_mem_append, List.mem_singleton, forall_eq]
      exact ⟨hlater, hnew⟩

namespace Lineage

variable {gs : List Generation} {s : Shape}

/-- The last definition of a lineage ended with the shape, and what it extends has the lineage before
    it. -/
theorem last (h : Lineage gs s) : ∃ init g, gs = init ++ [g] ∧ g.Made ∧ s = g.shape
    ∧ ∀ p, g.arguments.parent = some p → Lineage init p := by
  cases h with
  | root g hg hparent => exact ⟨[], g, rfl, hg, rfl, by simp [hparent]⟩
  | @extend gs p g hp hg hparent =>
    refine ⟨gs, g, rfl, hg, rfl, fun q hq => ?_⟩
    rw [hparent] at hq
    cases hq
    exact hp

/-- Every generation of a lineage was made. -/
theorem made (h : Lineage gs s) : ∀ g ∈ gs, g.Made := by
  induction h with
  | root g hg _ => simpa using hg
  | extend g _ hg _ ih =>
    simp only [List.forall_mem_append, List.mem_singleton, forall_eq]
    exact ⟨ih, hg⟩

/-- Properties are in order along a lineage. -/
theorem ordered (h : Lineage gs s) : s.Ordered := by
  induction h with
  | root g hg hparent => exact hg.ordered (by simp [hparent])
  | extend g _ hg hparent ih => exact hg.ordered (by simpa [hparent] using ih)

/-- The names of the properties are those that some generation declares, in the order in which they
    are first declared. -/
theorem names (h : Lineage gs s) :
    s.specs.map PropertySpec.name = (gs.flatMap Generation.declared).eraseDups := by
  induction h with
  | root g hg hparent =>
    rw [hg.names (by simp [hparent]), ObjectArguments.inheritedSpecs, hparent]
    simp
  | @extend gs p g hp hg hparent ih =>
    have hordered : ∀ q, g.arguments.parent = some q → q.Ordered := by
      simpa [hparent] using hp.ordered
    have hinherited : g.arguments.inheritedSpecs.map PropertySpec.name
        = (gs.flatMap Generation.declared).eraseDups := by
      rw [ObjectArguments.inheritedSpecs, hparent]
      exact ih
    have hnodup : (gs.flatMap Generation.declared).eraseDups.Nodup := ih ▸ hp.ordered.names
    -- What is new among the declared names is the same beside the first occurrences and beside all.
    have hnew : g.declared.removeAll (gs.flatMap Generation.declared).eraseDups
        = g.declared.removeAll (gs.flatMap Generation.declared) := by
      refine List.filter_congr fun name _ => ?_
      simp
    rw [hg.names hordered, hinherited, List.flatMap_append, List.flatMap_singleton,
      List.eraseDups_append, List.eraseDups_append, Inheritance.eraseDups_of_nodup hnodup, hnew]

/-- The schema has the same properties in the same order, and no others. -/
theorem keys (h : Lineage gs s) :
    s.schema.properties.keys = (gs.flatMap Generation.declared).eraseDups := by
  rw [h.ordered.declared.keys]
  exact h.names

/-- Some generation decides about each property. -/
theorem exists_mostDerived (h : Lineage gs s) {spec : PropertySpec} (hspec : spec ∈ s.specs) :
    ∃ g, MostDerived gs g spec := by
  -- From the root on: what a generation does not declare again was decided before it.
  induction h with
  | root g hg hparent =>
    rw [hg.specs, ObjectArguments.mem_all_iff hg.cases.1 (by simp [hparent]),
      ObjectArguments.inheritedSpecs, hparent] at hspec
    have hown : spec ∈ g.arguments.own := by simpa using hspec
    have hlast : MostDerived ([] ++ [g]) g spec := mostDerived_concat_iff.2 (.inl ⟨rfl, hown⟩)
    exact ⟨g, hlast⟩
  | extend g hp hg hparent ih =>
    rw [hg.specs, ObjectArguments.mem_all_iff hg.cases.1 (by simpa [hparent] using hp.ordered.names),
      ObjectArguments.inheritedSpecs, hparent] at hspec
    rcases hspec with hspec | ⟨hspec, hnew⟩
    · exact ⟨g, mostDerived_concat_iff.2 (.inl ⟨rfl, hspec⟩)⟩
    · obtain ⟨earlier, hearlier⟩ := ih hspec
      exact ⟨earlier, mostDerived_concat_iff.2 (.inr ⟨hearlier, hnew⟩)⟩

/-- The most derived generation that declares a property decides about it. -/
theorem decides (h : Lineage gs s) {g : Generation} {spec : PropertySpec}
    (hg : MostDerived gs g spec) : g.Decides spec s := by
  induction h with
  | root last hmade hparent =>
    have hlast : MostDerived ([] ++ [last]) g spec := hg
    rcases mostDerived_concat_iff.1 hlast with ⟨rfl, hspec⟩ | ⟨⟨-, before, after, heq, -⟩, -⟩
    · exact hmade.decides (by simp [hparent]) hspec
    · simp at heq
  | extend last hp hmade hparent ih =>
    rcases mostDerived_concat_iff.1 hg with ⟨rfl, hspec⟩ | ⟨hg, hnew⟩
    · exact hmade.decides (by simpa [hparent] using hp.ordered) hspec
    · exact (ih hg).inherit hp.ordered hmade hparent hnew

end Lineage

namespace Catalog

variable {c : Catalog}

/-- Every object shape of a reached catalog has a lineage. -/
theorem Reached.exists_lineage (hc : c.Reached) :
    ∀ s ∈ c.definitions, s.isObject = true → ∃ gs, Lineage gs s := by
  refine hc.forall_defined fun c c' elsewhere d s hc hbefore helse hdefine hobject => ?_
  cases d with
  | type d =>
    obtain ⟨args, t, -, -, -, rfl, -⟩ := defineType_eq_ok_iff.1 hdefine
    cases hobject
  | object d =>
    obtain ⟨args, t, hargs, haccepted, ht, rfl, rfl⟩ := defineObject_eq_ok_iff.1 hdefine
    have hmade : Generation.Made ⟨c, args, args.shape c t⟩ := ⟨elsewhere, d, hargs, hdefine⟩
    obtain ⟨-, -, -, -, hparent, -⟩ := objectArguments_eq_ok_iff.1 hargs
    cases hp : args.parent with
    | none => exact ⟨_, .root _ hmade hp⟩
    | some p =>
      obtain ⟨hmem, hpobject⟩ := mem_of_extended (hp ▸ hparent)
      -- The extended shape stands in the catalog as it was, or in another reached catalog.
      obtain ⟨gs, hgs⟩ : ∃ gs, Lineage gs p := by
        rcases hmem with hmem | ⟨handle, hhandle⟩
        · exact hbefore p hmem hpobject
        · exact helse handle p hhandle hpobject
      exact ⟨_, .extend _ hgs hmade hp⟩

/-- Child wins along the whole lineage.  Every object shape of a reached catalog goes back to a row
    of definitions, root first.  Its properties are those that some generation declares, in the
    order in which they are first declared, and the properties of its schema are the same; some most
    derived generation declares each of them, and decides about it.  The required names are those of
    the extended shape that the shape does not declare again as optional, then the others that it
    requires itself.  All other keywords of its schema are its own. -/
theorem Reached.child_wins (hc : c.Reached) {s : Shape} (hs : s ∈ c.definitions)
    (hobject : s.isObject = true) :
    (∃ gs, Lineage gs s) ∧ ∀ gs, Lineage gs s →
      (∀ name, name ∈ s.specs.map PropertySpec.name ↔ ∃ g ∈ gs, name ∈ g.declared)
      ∧ s.specs.map PropertySpec.name = (gs.flatMap Generation.declared).eraseDups
      ∧ s.schema.properties.keys = (gs.flatMap Generation.declared).eraseDups
      ∧ (∀ spec ∈ s.specs, ∃ g, MostDerived gs g spec)
      ∧ (∀ g spec, MostDerived gs g spec → g.Decides spec s)
      ∧ ∃ init g, gs = init ++ [g] ∧ g.shape = s
        ∧ (∀ p, g.arguments.parent = some p → Lineage init p)
        ∧ s.required = g.arguments.keptRequired
          ++ g.arguments.ownRequired.filter (!g.arguments.inheritedRequired.contains ·)
        ∧ s.schema.facets? = some
          { kind := .object, title := some g.arguments.title,
            nullable := g.arguments.options.nullable, required := some s.required,
            description := g.arguments.options.description, sample := g.arguments.options.sample,
            representation := some g.arguments.options.representation }
        ∧ (g.arguments.additional = none → s.schema.additional = none)
        ∧ ∀ d o, g.arguments.additional = some (d, o) → ∃ node,
          s.schema.additional = some node ∧ g.Assembles "additional_properties" d o node := by
  refine ⟨hc.exists_lineage s hs hobject, fun gs hgs => ⟨fun name => ?_, hgs.names,
    hgs.keys, fun spec hspec => hgs.exists_mostDerived hspec, fun g spec hg => hgs.decides hg, ?_⟩⟩
  · rw [hgs.names, List.mem_eraseDups, List.mem_flatMap]
  · obtain ⟨init, g, heq, hg, rfl, hparent⟩ := hgs.last
    obtain ⟨haccepted, -⟩ := hg.cases
    refine ⟨init, g, heq, rfl, hparent, ?_⟩
    unfold Shape.required
    rw [hg.schema]
    refine ⟨ObjectArguments.required_eq haccepted, ?_⟩
    rw [ObjectArguments.schema_eq]
    refine ⟨rfl, fun hnone => ?_, fun d o hsome => ?_⟩
    · rw [hnone]
      rfl
    · rw [hsome]
      exact ⟨_, rfl, Generation.assembles_of_check (haccepted.additional (d, o) hsome)⟩

namespace Pages

/-- The definition of entities. -/
def entityGeneration : Generation := ⟨{}, entityArguments, entity⟩

/-- The definition of pages. -/
def pageGeneration : Generation := ⟨started, pageArguments, page⟩

/-- Pages extend entities, which extend nothing. -/
theorem lineage_page : Lineage [entityGeneration, pageGeneration] page := by
  have hentities : entityGeneration.Made := ⟨fun _ => none, entities, rfl, defineObject_entities⟩
  have hpages : pageGeneration.Made := ⟨fun _ => none, pages, rfl, defineObject_pages⟩
  exact .extend pageGeneration (.root entityGeneration hentities rfl) hpages rfl

/-- Pages declare no tags, so entities decide about them. -/
theorem mostDerived_tags : MostDerived [entityGeneration, pageGeneration] entityGeneration
    ⟨"tags", .array (.scalar .string),
      { default := some (.list []), required := some true, inline := some false }⟩ := by
  refine ⟨.tail _ (.head _), [], [pageGeneration], rfl, ?_⟩
  intro later hlater
  rw [List.mem_singleton.1 hlater]
  decide

end Pages

/-- The lineage of pages: a page has the properties of entities and one more, the note as pages declare
    it and the tags as entities do. -/
theorem Reached.child_wins_pages :
    Pages.catalog.Reached ∧ Pages.page ∈ Pages.catalog.definitions ∧ Pages.page.isObject = true
      ∧ Lineage [Pages.entityGeneration, Pages.pageGeneration] Pages.page
      ∧ Pages.page.specs.map PropertySpec.name = ["id", "tags", "note", "body"]
      ∧ Pages.page.schema.properties.keys = ["id", "tags", "note", "body"]
      ∧ Pages.pageGeneration.Decides
        ⟨"note", .scalar .string, { required := some true, inline := some false }⟩ Pages.page
      ∧ Pages.entityGeneration.Decides
        ⟨"tags", .array (.scalar .string),
          { default := some (.list []), required := some true, inline := some false }⟩
        Pages.page := by
  have hc := Pages.reachable_catalog.reached
  obtain ⟨-, hlineages⟩ := Reached.child_wins hc Pages.page_mem_definitions rfl
  obtain ⟨-, hnames, hkeys, -, hdecides, -⟩ := hlineages _ Pages.lineage_page
  refine ⟨hc, Pages.page_mem_definitions, rfl, Pages.lineage_page, hnames.trans (by decide),
    hkeys.trans (by decide),
    hdecides Pages.pageGeneration _ ⟨.head _, [Pages.entityGeneration], [], rfl, by simp⟩,
    hdecides Pages.entityGeneration _ Pages.mostDerived_tags⟩

end Catalog

end DataShapes
