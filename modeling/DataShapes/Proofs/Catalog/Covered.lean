import DataShapes.Proofs.Catalog.Reached
import DataShapes.Proofs.TypeExpr.Total

/-!
# Registries cover the schemas of shapes

The registry of a definition knows whatever the schema of the shape refers to or embeds: the writes
of each property cover the schema of that property, an embedded shape brings its own registry
along, and so does the shape that is extended.  So the type signature can always be read off.

Main definitions:
* `Shape.Covered`: the registry of a finished shape knows what is in its schema.

Main statements:
* `Assembly.covers_build`: the writes of a descriptor cover the schema that is built from it;
* `Catalog.Reached.covered`: the registry of every shape knows what is in its schema;
* `TypeArguments.signature_total`, `ObjectArguments.signature_total`: once the schema is assembled,
  reading the signature off it succeeds.
-/

namespace DataShapes

/-- The registry of the shape knows what is in its schema, which is a node with the title of the
    shape. -/
structure Shape.Covered (s : Shape) : Prop where
  node : ∃ f ps i a ms, s.schema = .node f ps i a ms ∧ f.title = some s.title
    ∧ (f.kind = .array → i.isSome = true)
  covers {n} : n ∈ s.schema.innerNodes → s.registry.Covers n
  records {n} : n ∈ s.schema.innerNodes → s.registry.Records n

namespace Assembly

variable {a : Assembly} {r : Registry}

/-- The registry knows what the node means, and the embedded shape that it is the schema of. -/
def Knows (r : Registry) (n : Schema) : Prop := r.Covers n ∧ r.Records n

/-- A schema that cannot be changed itself goes into a union. -/
theorem each_wrap {Q : Schema → Prop} {o : PropertyOptions} {s : Schema}
    (hself : Q (.node { kind := .union, nullable := o.nullable, default := o.default } none none none
      (some [s]))) (h : s.Each Q) : (wrap o s).Each Q := by
  unfold wrap
  split
  · exact Schema.each_node_iff.2 ⟨hself, nofun, nofun, by simpa using h, by simp⟩
  · exact h

/-- The schema of an embedded shape is covered by the writes that embed it. -/
theorem each_knows_of_covered {t : Shape} (ht : t.Covered)
    (h : r.Holds (⟨[], [(t.title, t.name)]⟩ ++ t.registry.content)) :
    t.schema.Each (Knows r) := by
  obtain ⟨htitle, hcontent⟩ := Registry.holds_append_iff.1 h
  have hsome : (r.inlined.get? t.title).isSome = true :=
    htitle.inlined (e := (t.title, t.name)) (List.mem_singleton_self _)
  intro n hn
  -- The root is known by the title that is written, the other nodes by the registry of the shape.
  rcases Schema.mem_nodes_iff.1 hn with rfl | hn
  · obtain ⟨f, ps, i, a, ms, heq, hf, hitems⟩ := ht.node
    rw [heq]
    refine ⟨⟨hitems, fun _ => .inr ⟨t.title, hf, hsome⟩⟩, fun _ title htitle' => ?_⟩
    rw [show f.title = some title from htitle'] at hf
    cases hf
    exact hsome
  · exact ⟨(ht.covers hn).mono hcontent, (ht.records hn).mono hcontent⟩

/-- What the writes of all members say is what the writes of each of them say. -/
theorem holds_writesOfAll {ds : List Descriptor} {o : PropertyOptions}
    (h : r.Holds (a.writesOfAll ds o)) {d : Descriptor} (hd : d ∈ ds) : r.Holds (a.writes d o) := by
  induction ds with
  | nil => simp at hd
  | cons e ds ih =>
    rw [writesOfAll, Registry.holds_append_iff] at h
    rcases List.mem_cons.1 hd with rfl | hd
    · exact h.1
    · exact ih h.2 hd

/-- The writes of a descriptor cover the schema that is built from it. -/
theorem covers_build {d : Descriptor} {o : PropertyOptions}
    (hcovered : ∀ name t, a.shape? name = some t → t.Covered) (hwell : d.WellFormed = true)
    (hinline : ∀ name ∈ d.names, o.isInline = true → (a.shape? name).isSome = true)
    (h : r.Holds (a.writes d o)) : (d.build a.naming o).Each (Knows r) := by
  induction d using Descriptor.induction_parts generalizing o with
  -- Arrays, maps and unions carry no title: the registry only has to know their parts.
  | scalar kind =>
    refine Schema.each_leaf.2 ⟨⟨fun hk => ?_, fun hk => ?_⟩, fun hobject => ?_⟩
    · cases kind <;> cases hk
    · cases kind <;> cases hk
    · cases kind <;> cases hobject
  | array item ih =>
    have hitem := ih (o := o.forPart) hwell hinline h
    rw [Descriptor.build, Schema.each_node_iff]
    refine ⟨⟨⟨fun _ => rfl, fun hk => ?_⟩, fun hobject => ?_⟩, by simpa using hitem, by simp,
      by simp, by simp⟩
    · cases hk
    · cases hobject
  | map value ih =>
    have hvalue := ih (o := o.forPart) hwell hinline h
    rw [Descriptor.build, Schema.each_node_iff]
    refine ⟨⟨⟨fun hk => ?_, fun _ => .inl ⟨rfl, rfl, rfl⟩⟩, fun _ _ htitle => ?_⟩, by simp,
      by simpa using hvalue, by simp, by simp⟩
    · cases hk
    · cases htitle
  | union members ih =>
    rw [Descriptor.build, Schema.each_node_iff]
    refine ⟨⟨⟨fun hk => ?_, fun hk => ?_⟩, fun hobject => ?_⟩, by simp, by simp, fun c hc => ?_,
      by simp⟩
    · cases hk
    · cases hk
    · cases hobject
    · rw [Option.getD_some, Descriptor.buildAll_eq] at hc
      obtain ⟨m, hm, rfl⟩ := List.mem_map.1 (mem_of_mem_distinct hc)
      rw [Descriptor.WellFormed, Descriptor.allWellFormed_iff] at hwell
      refine ih m hm (o := o.forPart) (hwell m hm) (fun name hname => ?_) (holds_writesOfAll h hm)
      exact hinline name (Descriptor.mem_names_union.2 ⟨m, hm, hname⟩)
  | named name =>
    refine each_wrap ⟨⟨fun hk => ?_, fun hk => ?_⟩, fun hobject => ?_⟩ ?_
    · cases hk
    · cases hk
    · cases hobject
    · rw [writes, writesOfName] at h
      split
      · -- An embedded shape brings its registry along, and its own title is written besides.
        rename_i hinline'
        obtain ⟨t, ht⟩ := Option.isSome_iff_exists.1
          (hinline name (by simp [Descriptor.names]) hinline')
        simp only [ht, hinline', if_true] at h
        simp only [naming, ht, Option.map_some, Option.getD_some]
        exact each_knows_of_covered (hcovered name t ht) h
      · -- A reference is written with the title that it leads to.
        rename_i hinline'
        refine Schema.each_reference.2 ⟨?_, fun hobject => ?_⟩
        · cases ht : a.shape? name with
          | none =>
            simp only [ht] at h
            simpa [Registry.Covers, naming, ht] using h.entries (List.mem_singleton_self _)
          | some t =>
            simp only [ht, hinline'] at h
            simpa [Registry.Covers, naming, ht] using h.entries (List.mem_singleton_self _)
        · cases hobject
  | raw v => cases hwell

/-- The writes of a checked descriptor cover the schema that is built from it. -/
theorem covers_of_check {property : String} {d : Descriptor} {o : PropertyOptions}
    (hcovered : ∀ name t, a.shape? name = some t → t.Covered)
    (hcheck : a.check property d o = .ok ()) (h : r.Holds (a.writes d o)) :
    (d.build a.naming o).Each (Knows r) := by
  obtain ⟨hwell, hnames⟩ := a.of_check hcheck
  refine covers_build hcovered hwell (fun name hname hinline => ?_) h
  obtain ⟨hknown, hne⟩ := hnames name hname
  exact hknown.resolve_left (hne hinline)

/-- What a name leads to is a shape of the catalog. -/
theorem mem_of_shape? {c : Catalog} (hc : a.catalog = some c) {name : String} {t : Shape}
    (h : a.shape? name = some t) : t ∈ c.definitions := by
  unfold shape? at h
  split at h
  · cases h
  · rw [hc] at h
    exact List.mem_map_of_mem (Table.mem_of_get? h)

/-- What a name leads to in a catalog of well-named shapes is the shape with the name. -/
theorem of_shape? {c : Catalog} (hc : a.catalog = some c) (hnamed : c.WellNamed) {name : String}
    {t : Shape} (h : a.shape? name = some t) : t ∈ c.definitions ∧ t.name = name := by
  unfold shape? at h
  split at h
  · cases h
  · rw [hc] at h
    exact hnamed.get?_eq_some_iff.1 h

/-- What the writes of properties say is what the writes of each of them say. -/
theorem holds_writesOfSpecs {specs : List PropertySpec} (h : r.Holds (a.writesOfSpecs specs))
    {s : PropertySpec} (hs : s ∈ specs) : r.Holds (a.writes s.descriptor s.options) := by
  induction specs with
  | nil => simp at hs
  | cons t specs ih =>
    rw [writesOfSpecs, Registry.holds_append_iff] at h
    rcases List.mem_cons.1 hs with rfl | hs
    · exact h.1
    · exact ih h.2 hs

end Assembly

/-! ### Type shapes -/

namespace Catalog

/-- A titled schema is the schema itself with the title, or a union of which it is the only
    member. -/
theorem titledSchema_cases (title : String) (d : Descriptor) (s : Schema) :
    titledSchema title d s
        = .node { kind := .union, title := some title } none none none (some [s])
      ∨ ∃ f ps i a ms, s = .node f ps i a ms
        ∧ titledSchema title d s = .node { f with title := some title } ps i a ms
        ∧ (d.isNamed = true → f.kind = .union) := by
  cases s with
  | reference path => exact .inl rfl
  | node f ps i a ms =>
    -- An embedded schema keeps its own title, so a union goes around it.
    by_cases hbare : (d.isNamed && !(Schema.node f ps i a ms).isUnion) = true
    · left
      simp [titledSchema, hbare, Schema.unionOf, Schema.withTitle, Schema.mapFacets]
    · refine .inr ⟨f, ps, i, a, ms, rfl, ?_, fun hnamed => ?_⟩
      · simp only [titledSchema, Schema.kind?, Schema.facets?, Option.map_some, Option.isNone_some,
          Bool.false_or, if_neg hbare]
        rfl
      · simpa [hnamed, Schema.isUnion, Schema.kind?, Schema.facets?] using hbare

end Catalog

namespace TypeArguments

variable {args : TypeArguments} {c : Catalog}

/-- A registry that holds the writes of a type shape knows all references in its schema. -/
theorem each_built (hc : ∀ t ∈ c.definitions, t.Covered) (h : args.Accepted c) {r : Registry}
    (hr : r.Holds ((args.assembly c).writes args.descriptor args.options)) :
    (args.built c).Each (Assembly.Knows r) :=
  Assembly.covers_of_check (fun _ _ ht => hc _ (Assembly.mem_of_shape? rfl ht)) h hr

/-- The schema of a type shape is what was built with the title, or a union of which that is the
    only member.  An object that was built and takes the title is a map. -/
theorem schema_cases (args : TypeArguments) (c : Catalog) :
    args.schema c
        = .node { kind := .union, title := some args.title } none none none (some [args.built c])
      ∨ ∃ f ps i a ms, args.built c = .node f ps i a ms
        ∧ args.schema c = .node { f with title := some args.title } ps i a ms
        ∧ (f.kind = .object → Schema.IsMapNode f ps a) := by
  unfold schema
  rcases Catalog.titledSchema_cases args.title args.descriptor (args.built c) with
    heq | ⟨f, ps, i, a, ms, hbuilt, heq, hnamed⟩
  · exact .inl heq
  · refine .inr ⟨f, ps, i, a, ms, hbuilt, heq, fun hkind => ?_⟩
    -- An object that is not an embedded shape is a map.
    unfold built at hbuilt
    cases hd : args.descriptor with
    | map value =>
      rw [hd, Descriptor.build] at hbuilt
      cases hbuilt
      exact ⟨rfl, rfl, rfl⟩
    | named name =>
      rw [hnamed (by simp [hd, Descriptor.isNamed])] at hkind
      cases hkind
    | scalar kind =>
      rw [hd, Descriptor.build, Schema.leaf] at hbuilt
      cases hbuilt
      cases kind <;> cases hkind
    | array item =>
      rw [hd, Descriptor.build] at hbuilt
      cases hbuilt
      cases hkind
    | union members =>
      rw [hd, Descriptor.build] at hbuilt
      cases hbuilt
      cases hkind
    | raw v =>
      rw [hd, Descriptor.build] at hbuilt
      cases hbuilt

/-- The schema of a type shape is covered, its root included. -/
theorem each_schema {r : Registry} (h : (args.built c).Each (Assembly.Knows r)) :
    (args.schema c).Each r.Covers := by
  have hcovers : (args.built c).Each r.Covers := h.mono fun _ hn => hn.1
  rcases args.schema_cases c with heq | ⟨f, ps, i, a, ms, hbuilt, heq, hmap⟩
  · rw [heq, Schema.each_node_iff]
    exact ⟨⟨nofun, nofun⟩, nofun, nofun, by simpa using hcovers, by simp⟩
  · rw [heq, Schema.each_node_iff]
    rw [hbuilt, Schema.each_node_iff] at hcovers
    exact ⟨⟨hcovers.1.1, fun hkind => .inl (hmap hkind)⟩, hcovers.2⟩

/-- Once the schema of a type shape is assembled, the signature can be read off it. -/
theorem signature_total (hc : ∀ t ∈ c.definitions, t.Covered) (h : args.Accepted c) :
    ∃ t, args.signature c = .ok t :=
  TypeExpr.ofNormalForm_total (each_schema (each_built hc h (Registry.holds_write _ _).close))

/-- A type shape is covered by its registry. -/
theorem covered_shape (hc : ∀ t ∈ c.definitions, t.Covered) (h : args.Accepted c) (t : TypeExpr) :
    (args.shape c t).Covered := by
  have hbuilt := each_built hc h (Registry.holds_write { owner := some args.name } _).close
  rcases args.schema_cases c with heq | ⟨f, ps, i, a, ms, hs, heq, -⟩
  · -- The union around the schema has the schema for its only part.
    have hinner : ∀ n ∈ (args.schema c).innerNodes, n ∈ (args.built c).nodes := by
      intro n hn
      simpa [heq, Schema.innerNodes, Schema.children] using hn
    refine ⟨⟨_, _, _, _, _, heq, rfl, fun hk => ?_⟩, fun hn => (hbuilt _ (hinner _ hn)).1,
      fun hn => (hbuilt _ (hinner _ hn)).2⟩
    cases hk
  · have hinner : ∀ n ∈ (args.schema c).innerNodes, n ∈ (args.built c).nodes := by
      intro n hn
      rw [heq] at hn
      rw [Schema.mem_nodes_iff, hs]
      exact .inr hn
    refine ⟨⟨_, _, _, _, _, heq, rfl, ?_⟩, fun hn => (hbuilt _ (hinner _ hn)).1,
      fun hn => (hbuilt _ (hinner _ hn)).2⟩
    rw [hs] at hbuilt
    exact hbuilt.self.1.1

end TypeArguments

/-! ### Object shapes -/

namespace ObjectArguments

variable {args : ObjectArguments} {c : Catalog}

/-- The schema of other values is a part of the schema of the object. -/
theorem mem_children_of_additional (args : ObjectArguments) {value : Schema}
    (ha : (args.schema c).additional = some value) : value ∈ (args.schema c).children := by
  rw [schema, Assembly.objectBuilt_eq] at ha ⊢
  simp only [Schema.additional] at ha
  simp [Schema.children, ha]

/-- The parts of an object are covered by what its definition writes. -/
theorem each_child (hc : ∀ t ∈ c.definitions, t.Covered)
    (hparent : ∀ p, args.parent = some p → p.Covered) (h : args.Accepted c) {r : Registry}
    (hr : r.Holds ((args.assembly c).objectWrites args.own args.additional args.parent)) :
    ∀ s ∈ (args.schema c).children, s.Each (Assembly.Knows r) := by
  rw [Assembly.objectWrites, Registry.holds_append_iff, Registry.holds_append_iff] at hr
  obtain ⟨⟨hspecs, hadditional⟩, hinherited⟩ := hr
  have hshapes : ∀ name t, (args.assembly c).shape? name = some t → t.Covered :=
    fun _ _ ht => hc _ (Assembly.mem_of_shape? rfl ht)
  intro s hs
  simp only [schema, Assembly.objectBuilt_eq, Schema.children, Option.toList_none, List.nil_append,
    Option.getD_none, List.append_nil, List.mem_append, Option.getD_some] at hs
  rcases hs with hs | hs
  · cases hadd : args.additional with
    | none => simp [hadd, buildAdditional] at hs
    | some e =>
      rw [hadd] at hs hadditional
      simp only [buildAdditional, Option.map_some, Option.toList_some, List.mem_singleton] at hs
      rw [hs]
      exact Assembly.covers_of_check hshapes (h.additional e hadd) hadditional
  · obtain ⟨p, hp, rfl⟩ := List.mem_map.1 hs
    rcases Inheritance.mem_merge hp with hp | hp
    · -- An inherited property brings the registry of the extended shape along.
      cases hpar : args.parent with
      | none => simp [hpar] at hp
      | some q =>
        simp only [hpar, Option.map_some, Option.getD_some] at hp hinherited
        have hq := hparent q hpar
        intro n hn
        have hinner : n ∈ q.schema.innerNodes :=
          Schema.mem_innerNodes_iff.2 ⟨p.2, Schema.mem_children_of_mem_properties hp, hn⟩
        exact ⟨(hq.covers hinner).mono hinherited, (hq.records hinner).mono hinherited⟩
    · obtain ⟨spec, hspec, rfl⟩ := List.mem_map.1 hp
      exact Assembly.covers_of_check hshapes (h.specs spec hspec)
        (Assembly.holds_writesOfSpecs hspecs hspec)

/-- Once the schema of an object shape is assembled, the signature can be read off it. -/
theorem signature_total (hname : args.name ≠ "") (hc : ∀ t ∈ c.definitions, t.Covered)
    (hparent : ∀ p, args.parent = some p → p.Covered) (h : args.Accepted c) :
    ∃ t, args.signature c = .ok t := by
  have hchild := each_child hc hparent h (Registry.holds_write { owner := some args.name } _).close
  have hread : ∀ s ∈ (args.schema c).children, ∃ t,
      TypeExpr.ofNormalForm (args.registry c).close s = .ok t := fun s hs =>
    TypeExpr.ofNormalForm_total ((hchild s hs).mono fun _ hn => hn.1)
  -- A field takes its type over from the extended shape, or its schema is read.
  have hfield : ∀ p ∈ (args.schema c).properties, ∃ field, ∃ u,
      TypeExpr.fieldType (args.registry c).close (args.parent.map Shape.inherited) p = .ok u
        ∧ field = FieldType.mk p.1 u ((args.schema c).required.contains p.1) := by
    intro p hp
    unfold TypeExpr.fieldType
    split
    · exact ⟨_, _, rfl, rfl⟩
    · obtain ⟨u, hu⟩ := hread p.2 (Schema.mem_children_of_mem_properties hp)
      exact ⟨_, u, hu, rfl⟩
  obtain ⟨fields, hfields⟩ := Outcome.exists_forall₂ hfield
  obtain ⟨extra, hextra⟩ := TypeExpr.exists_extraOf fun value ha =>
    hread value (args.mem_children_of_additional ha)
  exact ⟨_, (TypeExpr.ofObject_eq_ok_iff hname).2
    ⟨fields, extra, TypeExpr.fieldsOf_eq_ok_iff.2 hfields, hextra, rfl⟩⟩

/-- An object shape is covered by its registry. -/
theorem covered_shape (hc : ∀ t ∈ c.definitions, t.Covered)
    (hparent : ∀ p, args.parent = some p → p.Covered) (h : args.Accepted c) (t : TypeExpr) :
    (args.shape c t).Covered := by
  have hchild := each_child hc hparent h (Registry.holds_write { owner := some args.name } _).close
  have hinner : ∀ n ∈ (args.schema c).innerNodes, Assembly.Knows (args.registry c).close n := by
    intro n hn
    obtain ⟨s, hs, hn⟩ := Schema.mem_innerNodes_iff.1 hn
    exact hchild s hs n hn
  refine ⟨?_, fun hn => (hinner _ hn).1, fun hn => (hinner _ hn).2⟩
  exact ⟨_, _, _, _, _, Assembly.objectBuilt_eq .., rfl, nofun⟩

end ObjectArguments

/-! ### All shapes -/

/-- The registry of every shape knows what is in its schema. -/
theorem Catalog.Reached.covered {c : Catalog} (h : c.Reached) : ∀ s ∈ c.definitions, s.Covered := by
  refine h.forall_shape fun c s _ hc hs => ?_
  cases hs with
  | type args t _ _ haccepted _ => exact TypeArguments.covered_shape hc haccepted t
  | object args t _ _ hparent haccepted _ =>
    exact ObjectArguments.covered_shape hc (fun p hp => (hparent p hp).1) haccepted t

end DataShapes
