import DataShapes.Proofs.Agreement.Descriptors
import DataShapes.Proofs.Agreement.Signatures

/-!
# Shapes agree with their signatures

The values of the signature of a shape, the values that its schema admits, and the values that its
declaration admits are the same.  A definition sees the shapes before it only, so this is proved for
one finished shape at a time, from the shapes of the catalog that it was defined in.

Main definitions:
* `Shape.DistinctProperties`: no property of a shape is declared twice, at any depth;
* `Shape.Agrees`: the signature, the schema and the declaration of a shape have the same values;
* `Catalog.Settled`: all shapes of a part of a catalog do so.

Main statements:
* `Catalog.Reached.distinctProperties`: no property is ever declared twice;
* `Catalog.Settled.agrees_finished`: a shape that a definition ends with agrees.
-/

namespace DataShapes

/-! ### Distinct properties -/

/-- No property of the shape is declared twice, neither in its declaration nor in a node of its
    schema. -/
structure Shape.DistinctProperties (s : Shape) : Prop where
  specs : (s.specs.map PropertySpec.name).Nodup
  schema : s.schema.Each Schema.DistinctKeys

namespace Assembly

variable {a : Assembly} {o : PropertyOptions} {name : String}

/-- The schema that stands for a checked name is that of a finished shape, or a reference to the
    shape that is being defined. -/
theorem target_cases (hknown : a.knows name) (hself : o.isInline = true → name ≠ a.name) :
    (∃ t, a.shape? name = some t
        ∧ a.naming.target name o = if o.isInline then t.schema else Schema.toTitle t.title)
      ∨ name = a.name ∧ a.naming.target name o = Schema.toTitle a.title := by
  unfold Naming.target naming
  -- A name that is known without a shape can only be that of the shape itself.
  cases ht : a.shape? name with
  | some t => exact .inl ⟨t, rfl, by simp [ht]⟩
  | none =>
    have hname : name = a.name := hknown.resolve_right (by simp [ht])
    have hinline : o.isInline = false := by
      cases h : o.isInline with
      | false => rfl
      | true => exact absurd hname (hself h)
    exact .inr ⟨hname, by simp [hinline, ht]⟩

end Assembly

/-- The schema of a type shape has distinct properties. -/
theorem TypeArguments.distinctProperties {args : TypeArguments} {c : Catalog}
    (hc : ∀ t ∈ c.definitions, t.DistinctProperties) (t : TypeExpr) :
    (args.shape c t).DistinctProperties where
  specs := List.nodup_nil
  schema := by
    have hbuilt : (args.built c).Each Schema.DistinctKeys :=
      args.each_built_of_plain (fun _ hs _ => hs.distinctKeys) fun t ht => (hc t ht).schema
    show (args.schema c).Each Schema.DistinctKeys
    -- The title is put on the schema itself or on a union around it.
    rcases args.schema_cases c with heq | ⟨f, ps, i, a, ms, hs, heq, -⟩
    · rw [heq, Schema.each_node_iff]
      exact ⟨List.nodup_nil, nofun, nofun, by simpa using hbuilt, by simp⟩
    · rw [hs, Schema.each_node_iff] at hbuilt
      rw [heq, Schema.each_node_iff]
      exact hbuilt

/-- The schema of an object shape has distinct properties. -/
theorem ObjectArguments.distinctProperties {args : ObjectArguments} {c : Catalog}
    (hc : ∀ t ∈ c.definitions, t.DistinctProperties)
    (hparent : ∀ p, args.parent = some p → p.DistinctProperties) (h : args.Accepted c)
    (t : TypeExpr) :
    (args.shape c t).DistinctProperties where
  specs := by
    have hown : (args.own.map PropertySpec.name).Nodup := args.names_own ▸ h.names
    refine Inheritance.nodup_merge ?_ hown
    cases hp : args.parent with
    | none => exact List.nodup_nil
    | some p => exact (hparent p hp).specs
  schema := by
    show (args.schema c).Each Schema.DistinctKeys
    -- The properties of the object itself are merged; those of its parts come from elsewhere.
    refine Schema.each_iff.2 ⟨?_, ?_⟩
    · rw [schema, Assembly.objectBuilt_eq]
      refine Inheritance.nodup_merge ?_ (nodup_keys_built h)
      cases hp : args.parent with
      | none => exact List.nodup_nil
      | some p => exact (hparent p hp).schema.self.nodup_properties
    · exact args.each_child_of_plain (fun _ hs _ => hs.distinctKeys)
        (fun t ht => (hc t ht).schema) fun p hp _ hm => (hparent p hp).schema.child hm

/-- In a shape that a definition ends with, no property is declared twice. -/
theorem Catalog.Finishes.distinctProperties {c : Catalog} {parents : Shape → Prop} {s : Shape}
    (h : c.Finishes parents s) (hc : ∀ t ∈ c.definitions, t.DistinctProperties)
    (hparent : ∀ p, parents p → p.DistinctProperties) : s.DistinctProperties := by
  cases h with
  | type args t _ _ _ _ => exact args.distinctProperties hc t
  | object args t _ _ hpar haccepted _ =>
    exact args.distinctProperties hc (fun p hp => hparent p (hpar p hp).1) haccepted t

/-- No property is ever declared twice. -/
theorem Catalog.Reached.distinctProperties {c : Catalog} (h : c.Reached) :
    ∀ s ∈ c.definitions, s.DistinctProperties :=
  h.forall_shape fun _ _ _ hc hs => hs.distinctProperties hc fun _ hp => hp

/-! ### Agreement -/

/-- The signature, the schema and the declaration of the shape have the same values in the catalog.
    Of an object, so have the types of fields, the schemas of properties and their declarations. -/
structure Shape.Agrees (c : Catalog) (s : Shape) : Prop where
  schema (v : Value) : s.schema.Admits c v ↔ s.Admits c v
  signature (v : Value) : Inhabits c v s.signature ↔ s.schema.Admits c v
  properties : s.isObject = true → List.Forall₂ (fun spec p => spec.name = p.1
    ∧ ∀ v, spec.descriptor.AdmitsAs c spec.options v ↔ p.2.Admits c v) s.specs s.schema.properties
  fields {record : RecordType} {field : FieldType} {name : String} {node : Schema} :
    s.isObject = true → s.signature.record? = some record → record.field? name = some field →
    s.schema.properties.get? name = some node →
    ∀ v, Inhabits c v field.type ↔ node.Admits c v

/-- All shapes of a part of the catalog agree in the catalog. -/
structure Catalog.Settled (part c : Catalog) : Prop where
  reached : part.Reached
  distinct : c.Distinct
  mem {t : Shape} : t ∈ part.definitions → t ∈ c.definitions
  agrees {t : Shape} : t ∈ part.definitions → t.Agrees c

namespace Catalog.Settled

variable {part c : Catalog} {a : Assembly} {o : PropertyOptions} {v : Value}

/-- The schema of a shape admits the values of its name. -/
theorem admits_schema_iff (h : part.Settled c) {t : Shape} (ht : t ∈ part.definitions) :
    t.schema.Admits c v ↔ Inhabits c v (.named t.name) := by
  rw [h.distinct.inhabits_named_iff (h.mem ht), (h.agrees ht).signature]

/-- What stands for a name admits the values of the name. -/
theorem admits_target_iff (h : part.Settled c) (ha : a.catalog = some part) {name : String}
    (hknown : a.knows name) (hself : o.isInline = true → name ≠ a.name)
    (hown : name = a.name → ∃ s ∈ c.definitions, s.name = a.name ∧ s.title = a.title) :
    (a.naming.target name o).Admits c v ↔ Inhabits c v (.named name) := by
  rcases Assembly.target_cases hknown hself with ⟨t, ht, heq⟩ | ⟨hname, heq⟩
  · obtain ⟨hmem, hname⟩ := Assembly.of_shape? ha h.reached.wellNamed ht
    rw [heq, ← hname]
    split
    · exact h.admits_schema_iff hmem
    · exact h.distinct.admits_toTitle_iff (h.mem hmem)
  · -- The shape that is being defined is a shape of the whole catalog.
    obtain ⟨s, hs, hsname, hstitle⟩ := hown hname
    rw [heq, hname, ← hsname, ← hstitle]
    exact h.distinct.admits_toTitle_iff hs

/-- The schema of a checked descriptor admits what the descriptor admits. -/
theorem admits_build_iff (h : part.Settled c) (ha : a.catalog = some part) {property : String}
    {d : Descriptor}
    (hown : ∀ name ∈ d.names, name = a.name →
      ∃ s ∈ c.definitions, s.name = a.name ∧ s.title = a.title)
    (hcheck : a.check property d o = .ok ()) :
    (d.build a.naming o).Admits c v ↔ d.AdmitsAs c o v := by
  obtain ⟨hwell, hnames⟩ := a.of_check hcheck
  have hshape : ∀ name t, a.shape? name = some t → t.schema.Each Schema.DistinctKeys :=
    fun name t ht =>
      (h.reached.distinctProperties t (Assembly.of_shape? ha h.reached.wellNamed ht).1).schema
  -- The schema is built part by part, so it is enough to know what stands for the names.
  refine Descriptor.admits_build_iff hwell (fun name _ => ?_) fun name hname x => ?_
  · exact Assembly.each_target (fun _ => trivial) hshape name o
  · exact h.admits_target_iff ha (hnames name hname).1 (hnames name hname).2 (hown name hname)

end Catalog.Settled

/-! ### Type shapes -/

namespace TypeArguments

variable {args : TypeArguments} {part c : Catalog}

/-- The title of a type shape does not matter for what its schema admits. -/
theorem admits_schema_iff {v : Value} :
    (args.schema part).Admits c v ↔ (args.built part).Admits c v := by
  rcases args.schema_cases part with heq | ⟨f, ps, i, a, ms, hbuilt, heq, hmap⟩
  · rw [heq, Schema.admits_union_iff rfl]
    simp
  · rw [heq, hbuilt]
    -- No kind of node is read by its title unless it is an object that is no map.
    set g : Facets := { f with title := some args.title } with hg
    have hflag : g.nullable = f.nullable := rfl
    rcases f.kind.cases_read with ⟨k, hk⟩ | hk | hk | hk | hk
    · rw [Schema.admits_scalar_iff hk, Schema.admits_scalar_iff (f := g) hk, hflag]
    · rw [Schema.admits_null_iff hk, Schema.admits_null_iff (f := g) hk]
    · rw [Schema.admits_array_iff hk, Schema.admits_array_iff (f := g) hk, hflag]
    · rw [Schema.admits_union_iff hk, Schema.admits_union_iff (f := g) hk, hflag]
    · rw [Schema.admits_map_iff hk (hmap hk), Schema.admits_map_iff (f := g) hk (hmap hk), hflag]

/-- A type shape agrees when all shapes before it do. -/
theorem agrees (h : part.Settled c) (haccepted : args.Accepted part) {t : TypeExpr}
    (ht : args.signature part = .ok t) (hmem : args.shape part t ∈ c.definitions)
    (hexplains : c.Explains (args.shape part t).registry.content) :
    (args.shape part t).Agrees c where
  schema v := by
    show (args.schema part).Admits c v ↔ args.descriptor.AdmitsAs c args.options v
    -- The title counts for nothing here, since a type shape is no object.
    rw [admits_schema_iff]
    exact h.admits_build_iff (a := args.assembly part) rfl
      (fun _ _ _ => ⟨args.shape part t, hmem, rfl, rfl⟩) haccepted
  signature v := by
    have hbuilt := each_built h.reached.covered haccepted
      (Registry.holds_write { owner := some args.name } _).close
    have hkeys := (args.distinctProperties (c := part) h.reached.distinctProperties t).schema
    exact TypeExpr.inhabits_ofNormalForm_iff h.distinct hexplains (each_schema hbuilt) hkeys ht
  properties := nofun
  fields := nofun

end TypeArguments

/-! ### Object shapes -/

namespace ObjectArguments

variable {args : ObjectArguments} {part c : Catalog}

/-- The declarations of the properties of an object shape and their schemas have the same values one
    by one, when all shapes before it agree. -/
theorem forall₂_properties (h : part.Settled c) (haccepted : args.Accepted part)
    (hparent : ∀ p, args.parent = some p → p ∈ part.definitions ∧ p.isObject = true)
    (hself : ∃ s ∈ c.definitions, s.name = args.name ∧ s.title = args.title) :
    List.Forall₂ (fun spec p => spec.name = p.1
        ∧ ∀ v, spec.descriptor.AdmitsAs c spec.options v ↔ p.2.Admits c v)
      args.all ((args.assembly part).objectProperties args.own args.parent) := by
  -- Declarations and schemas are merged alike, so it is enough to look at what is merged.
  refine Inheritance.forall₂_merge (fun spec p hp => hp.1) ?_ ?_
  · cases hp : args.parent with
    | none => exact .nil
    | some p => exact (h.agrees (hparent p hp).1).properties (hparent p hp).2
  · have hspecs := haccepted.specs
    unfold Assembly.AcceptsSpecs at hspecs
    show List.Forall₂ _ args.own (args.own.map fun spec => spec.entry (args.assembly part).naming)
    rw [List.forall₂_map_right_iff, List.forall₂_same]
    intro spec hspec
    refine ⟨rfl, fun v => ?_⟩
    exact (h.admits_build_iff (a := args.assembly part) rfl (fun _ _ _ => hself)
      (hspecs spec hspec)).symm

/-- What is declared for other keys and its schema have the same values. -/
theorem exists_additional_iff (h : part.Settled c) (haccepted : args.Accepted part)
    (hself : ∃ s ∈ c.definitions, s.name = args.name ∧ s.title = args.title) (v : Value) :
    (∃ e, args.additional = some e ∧ e.1.AdmitsAs c e.2 v)
      ↔ ∃ s, buildAdditional (args.assembly part).naming args.additional = some s
        ∧ s.Admits c v := by
  cases hadditional : args.additional with
  | none => simp [buildAdditional]
  | some e =>
    have hbuilt := h.admits_build_iff (v := v) (a := args.assembly part) rfl (fun _ _ _ => hself)
      (haccepted.additional e hadditional)
    simp [buildAdditional, hbuilt]

/-- What is read off a part of the schema of an object has the values that the part admits. -/
theorem inhabits_child_iff (h : part.Settled c) (haccepted : args.Accepted part)
    (hparent : ∀ p, args.parent = some p → p ∈ part.definitions ∧ p.isObject = true)
    (hexplains : c.Explains (args.registry part).close.content) {s : Schema}
    (hs : s ∈ (args.schema part).children) {u : TypeExpr}
    (hu : TypeExpr.ofNormalForm (args.registry part).close s = .ok u) (v : Value) :
    Inhabits c v u ↔ s.Admits c v := by
  have hkeys : (args.schema part).Each Schema.DistinctKeys :=
    (args.distinctProperties h.reached.distinctProperties
      (fun q hq => h.reached.distinctProperties q (hparent q hq).1) haccepted .none).schema
  -- The registry knows what the part refers to, so its type is read in the same way everywhere.
  have hknows : s.Each (Assembly.Knows (args.registry part).close) :=
    each_child h.reached.covered (fun q hq => h.reached.covered q (hparent q hq).1) haccepted
      (Registry.holds_write { owner := some args.name } _).close s hs
  exact TypeExpr.inhabits_ofNormalForm_iff h.distinct hexplains (hknows.mono fun _ hn => hn.1)
    (hkeys.child hs) hu

/-- The type of a field has the values that the schema of its property admits, be it read off that
    schema or taken over from the extended shape. -/
theorem inhabits_fieldType_iff (h : part.Settled c) (haccepted : args.Accepted part)
    (hparent : ∀ p, args.parent = some p → p ∈ part.definitions ∧ p.isObject = true)
    (hexplains : c.Explains (args.registry part).close.content) {p : String × Schema}
    (hp : p ∈ (args.schema part).properties) {u : TypeExpr}
    (hu : TypeExpr.fieldType (args.registry part).close (args.parent.map Shape.inherited) p = .ok u)
    (v : Value) : Inhabits c v u ↔ p.2.Admits c v := by
  have hkeys : (args.schema part).Each Schema.DistinctKeys :=
    (args.distinctProperties h.reached.distinctProperties
      (fun q hq => h.reached.distinctProperties q (hparent q hq).1) haccepted .none).schema
  have hchild : p.2 ∈ (args.schema part).children := Schema.mem_children_of_mem_properties hp
  unfold TypeExpr.fieldType at hu
  split at hu
  · -- The field of the extended shape stands for an equal schema.
    rename_i type hreuse
    cases Except.ok.inj hu
    obtain ⟨inherited, hinherited, hreuse⟩ := Option.bind_eq_some_iff.1 hreuse
    obtain ⟨q, hq, rfl⟩ := Option.map_eq_some_iff.1 hinherited
    obtain ⟨hmem, hobject⟩ := hparent q hq
    obtain ⟨record, field, node, hrecord, hfield, hnode, hequal, rfl⟩ :=
      TypeExpr.reuse?_eq_some_iff.1 hreuse
    have hnodeKeys : node.Each Schema.DistinctKeys :=
      (h.reached.distinctProperties q hmem).schema.child
        (Schema.mem_children_of_mem_properties (Table.mem_of_get? hnode))
    have hsame : Schema.Same node p.2 := ⟨hnodeKeys, hkeys.child hchild, hequal⟩
    rw [(h.agrees hmem).fields hobject hrecord hfield hnode, hsame.admits_iff]
  · exact inhabits_child_iff h haccepted hparent hexplains hchild hu v

/-- The schema of an object by its parts. -/
theorem schema_eq (args : ObjectArguments) (part : Catalog) :
    args.schema part = .node ((args.assembly part).objectFacets args.own args.options args.parent)
      (some ((args.assembly part).objectProperties args.own args.parent)) none
      (buildAdditional (args.assembly part).naming args.additional) none :=
  Assembly.objectBuilt_eq ..

/-- An object shape agrees when all shapes before it do. -/
theorem agrees (h : part.Settled c) (hname : args.name ≠ "")
    (hparent : ∀ p, args.parent = some p → p ∈ part.definitions ∧ p.isObject = true)
    (haccepted : args.Accepted part) {t : TypeExpr} (ht : args.signature part = .ok t)
    (hmem : args.shape part t ∈ c.definitions)
    (hexplains : c.Explains (args.shape part t).registry.content) :
    (args.shape part t).Agrees c := by
  have hself : ∃ s ∈ c.definitions, s.name = args.name ∧ s.title = args.title :=
    ⟨args.shape part t, hmem, rfl, rfl⟩
  have hrows := forall₂_properties h haccepted hparent hself
  -- An object shape asks for a representation, so its schema is never taken for that of a map.
  have hmap : ¬ Schema.IsMapNode
      ((args.assembly part).objectFacets args.own args.options args.parent)
      (some ((args.assembly part).objectProperties args.own args.parent))
      (buildAdditional (args.assembly part).naming args.additional) := by
    rintro ⟨-, hrep, -⟩
    cases hrep
  have hfield : ∀ p ∈ (args.schema part).properties, ∀ u, TypeExpr.fieldType
      (args.registry part).close (args.parent.map Shape.inherited) p = .ok u →
      ∀ v, Inhabits c v u ↔ p.2.Admits c v := fun p hp u hu v =>
    inhabits_fieldType_iff h haccepted hparent hexplains hp hu v
  have hextra : ∀ value u,
      buildAdditional (args.assembly part).naming args.additional = some value →
      TypeExpr.ofNormalForm (args.registry part).close value = .ok u →
      ∀ v, Inhabits c v u ↔ value.Admits c v := by
    intro value u hvalue hu v
    have hadditional : (args.schema part).additional = some value := by
      rw [schema_eq]
      exact hvalue
    exact inhabits_child_iff h haccepted hparent hexplains
      (args.mem_children_of_additional hadditional) hu v
  refine ⟨fun v => ?_, fun v => ?_, fun _ => ?_, fun _ hrecord hfound hnode => ?_⟩
  · have hentries : ∀ k x, FitsEntry PropertySpec.name args.all args.additional
          (fun spec x => spec.descriptor.AdmitsAs c spec.options x)
          (fun e x => e.1.AdmitsAs c e.2 x) k x
        ↔ FitsEntry Prod.fst ((args.assembly part).objectProperties args.own args.parent)
          (buildAdditional (args.assembly part).naming args.additional) (fun p x => p.2.Admits c x)
          (Schema.Admits c) k x := by
      intro k x
      refine FitsEntry.congr (hrows.imp fun spec p hp => ⟨hp.1, hp.2 x⟩) ?_
      exact exists_additional_iff h haccepted hself x
    show (args.schema part).Admits c v ↔ (args.options.nullable = true ∧ v = .null)
      ∨ v.IsObjectOf (args.shape part t) (FitsEntry PropertySpec.name args.all args.additional
        (fun spec x => spec.descriptor.AdmitsAs c spec.options x) fun e x => e.1.AdmitsAs c e.2 x)
    rw [Value.IsObjectOf.congr hentries, schema_eq, h.distinct.admits_object_iff hmem rfl hmap rfl]
    rfl
  · have hsignature := ht
    unfold signature at hsignature
    show Inhabits c v t ↔ (args.schema part).Admits c v
    rw [schema_eq] at hsignature hfield ⊢
    exact TypeExpr.inhabits_ofObject_iff h.distinct hmem hname rfl hmap rfl hfield hextra hsignature
  · show List.Forall₂ _ args.all (args.schema part).properties
    rw [properties_schema]
    exact hrows
  · exact TypeExpr.inhabits_field_iff hname hfield ht hrecord hfound hnode

end ObjectArguments

/-! ### All shapes -/

namespace Catalog

/-- A shape that a definition ends with agrees when all shapes before it do. -/
theorem Settled.agrees_finished {part c : Catalog} (h : part.Settled c) {s : Shape}
    (hs : part.FinishesWithin s) (hmem : s ∈ c.definitions)
    (hexplains : c.Explains s.registry.content) : s.Agrees c := by
  cases hs with
  | type args t _ _ haccepted ht => exact args.agrees h haccepted ht hmem hexplains
  | object args t hname _ hparent haccepted ht =>
    exact args.agrees h hname hparent haccepted ht hmem hexplains

/-- The signature, the schema and the declaration of every shape have the same values. -/
theorem Reachable.settled {c : Catalog} (hc : c.Reachable)
    (htitles : (c.definitions.map Shape.title).Nodup) : c.Settled c := by
  have hdistinct : c.Distinct := hc.reached.wellNamed.distinct htitles
  -- The induction is on the shapes in the order of their definitions; names mean the whole catalog.
  have hpart : ∀ {part : Catalog}, part.Reachable → (∀ t ∈ part.definitions, t ∈ c.definitions) →
      ∀ t ∈ part.definitions, t.Agrees c := by
    intro part hreach
    refine Reachable.induction (P := fun part => (∀ t ∈ part.definitions, t ∈ c.definitions) →
      ∀ t ∈ part.definitions, t.Agrees c) ?_ ?_ hreach
    · intro id _ t ht
      simp [definitions, Table.values] at ht
    · intro part s hreach ih hs hsub
      rw [definitions_add (Finishes.name_not_mem hs)] at hsub ⊢
      have hbefore : ∀ t ∈ part.definitions, t ∈ c.definitions := fun t ht =>
        hsub t (List.mem_append_left _ ht)
      have hsettled : part.Settled c :=
        ⟨hreach.reached, hdistinct, fun ht => hbefore _ ht, fun ht => ih hbefore _ ht⟩
      intro t ht
      rcases List.mem_append.1 ht with ht | ht
      · exact ih hbefore t ht
      · rw [List.mem_singleton.1 ht]
        have hmem : s ∈ c.definitions :=
          hsub s (List.mem_append_right _ (List.mem_singleton_self s))
        exact hsettled.agrees_finished hs hmem (hc.explains s hmem)
  exact ⟨hc.reached, hdistinct, fun ht => ht, fun ht => hpart hc (fun _ ht => ht) _ ht⟩

end Catalog

end DataShapes
