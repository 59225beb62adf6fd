import DataShapes.Proofs.Agreement.Shapes
import DataShapes.Proofs.Assembly.Merging
import DataShapes.Stub.Basic

/-!
# The views of an object shape

An object shape tells of its properties three times: in its schema, in its declarations and in the
record of its signature.  Schemas, declarations and required names are merged each on their own when
a shape extends another one, and the record is read off the merged schema.  Here the three views
stay in step along every chain of extensions, and so do the rules for fixed records.

Main definitions:
* `RequiredOf`: names are those of the required properties;
* `Shape.Aligned`: the three views of a shape tell of the same properties;
* `Schema.IsClosed`: a node of a fixed record admits no other keys.

Main statements:
* `RequiredOf.merge`: merging required names follows merging declarations;
* `Catalog.Reached.views_aligned`: the views of every object shape are aligned, no node of a fixed
  record admits other keys, and the look-ups that the stub of a shape needs succeed.
-/

namespace DataShapes

/-! ### Required names -/

/-- The names are those of the required properties, each once. -/
structure RequiredOf (specs : List PropertySpec) (required : List String) : Prop where
  nodup : required.Nodup
  mem_iff {name : String} :
    name ∈ required ↔ ∃ spec ∈ specs, spec.name = name ∧ spec.options.isRequired = true

namespace RequiredOf

variable {specs inherited own : List PropertySpec} {required : List String}

/-- Without properties nothing is required. -/
theorem nil : RequiredOf [] [] := ⟨List.nodup_nil, by simp⟩

/-- When no name occurs twice, a property is required exactly when its name is among the names. -/
theorem name_mem_iff (h : RequiredOf specs required) (hnames : (specs.map PropertySpec.name).Nodup)
    {spec : PropertySpec} (hspec : spec ∈ specs) :
    spec.name ∈ required ↔ spec.options.isRequired = true := by
  rw [h.mem_iff]
  constructor
  · rintro ⟨other, hother, hname, hrequired⟩
    rwa [← List.inj_on_of_nodup_map hnames hother hspec hname]
  · intro hrequired
    exact ⟨spec, hspec, rfl, hrequired⟩

/-- Only properties are required. -/
theorem subset_names (h : RequiredOf specs required) :
    required ⊆ specs.map PropertySpec.name := by
  intro name hname
  obtain ⟨spec, hspec, rfl, -⟩ := h.mem_iff.1 hname
  exact List.mem_map_of_mem hspec

/-- Merging required names follows merging declarations. -/
theorem merge (h : RequiredOf inherited required)
    (hinherited : (inherited.map PropertySpec.name).Nodup)
    (hown : (own.map PropertySpec.name).Nodup) :
    RequiredOf (Inheritance.merge PropertySpec.name inherited own)
      (Inheritance.mergeRequired (own.map PropertySpec.name) required
        ((own.filter (·.options.isRequired)).map PropertySpec.name)) where
  nodup := Inheritance.nodup_mergeRequired h.nodup
    (hown.sublist (List.filter_sublist.map PropertySpec.name))
  mem_iff := by
    intro name
    have hownRequired : name ∈ (own.filter (·.options.isRequired)).map PropertySpec.name
        ↔ ∃ spec ∈ own, spec.name = name ∧ spec.options.isRequired = true := by
      rw [List.mem_map]
      refine exists_congr fun spec => ?_
      rw [List.mem_filter]
      tauto
    rw [Inheritance.mem_mergeRequired, hownRequired, h.mem_iff]
    constructor
    · rintro (⟨spec, hspec, hname, hrequired⟩ | ⟨⟨spec, hspec, rfl, hrequired⟩, hnew⟩)
      · exact ⟨spec, (Inheritance.mem_merge_iff hinherited hown).2 (.inl hspec), hname, hrequired⟩
      · exact ⟨spec, (Inheritance.mem_merge_iff hinherited hown).2 (.inr ⟨hspec, hnew⟩), rfl,
          hrequired⟩
    · rintro ⟨spec, hspec, rfl, hrequired⟩
      -- A declaration of the extending shape decides, whatever was taken over.
      rcases (Inheritance.mem_merge_iff hinherited hown).1 hspec with hspec | ⟨hspec, hnew⟩
      · exact .inl ⟨spec, hspec, rfl, hrequired⟩
      · exact .inr ⟨⟨spec, hspec, rfl, hrequired⟩, hnew⟩

end RequiredOf

/-! ### Schema and declarations -/

/-- The schema has a property for each declaration, in order, and requires those that are declared
    so. -/
structure Shape.Declared (s : Shape) : Prop where
  keys : s.schema.properties.keys = s.specs.map PropertySpec.name
  required : RequiredOf s.specs s.required

namespace ObjectArguments

variable {args : ObjectArguments} {c : Catalog}

/-- The declarations that are taken over. -/
def inheritedSpecs (args : ObjectArguments) : List PropertySpec :=
  (args.parent.map Shape.specs).getD []

/-- No property is declared twice by a definition that is accepted. -/
theorem nodup_own (h : args.Accepted c) : (args.own.map PropertySpec.name).Nodup := by
  rw [names_own]
  exact h.names

/-- No property is taken over twice when none of the extended shape is declared twice. -/
theorem nodup_inheritedSpecs
    (hparent : ∀ p, args.parent = some p → (p.specs.map PropertySpec.name).Nodup) :
    (args.inheritedSpecs.map PropertySpec.name).Nodup := by
  unfold inheritedSpecs
  cases hp : args.parent with
  | none => exact List.nodup_nil
  | some p => exact hparent p hp

/-- A definition merges the schema and the declarations of an object alike. -/
theorem declared (h : args.Accepted c)
    (hdistinct : ∀ p, args.parent = some p → (p.specs.map PropertySpec.name).Nodup)
    (hparent : ∀ p, args.parent = some p → p.Declared) (t : TypeExpr) :
    (args.shape c t).Declared where
  keys := by
    have hinherited : ((args.parent.map (·.schema.properties)).getD []).map Prod.fst
        = args.inheritedSpecs.map PropertySpec.name := by
      unfold inheritedSpecs
      cases hp : args.parent with
      | none => rfl
      | some p => exact (hparent p hp).keys
    have hown : (buildProperties (args.assembly c).naming args.own).map Prod.fst
        = args.own.map PropertySpec.name := Assembly.keys_buildProperties ..
    show (args.schema c).properties.map Prod.fst = args.all.map PropertySpec.name
    rw [properties_schema, Assembly.objectProperties, Inheritance.keys_merge, hinherited, hown, all,
      Inheritance.keys_merge]
    rfl
  -- Both merges keep inherited entries in their place and append what is new.
  required := by
    have hinherited : RequiredOf args.inheritedSpecs ((args.parent.map Shape.required).getD []) := by
      unfold inheritedSpecs
      cases hp : args.parent with
      | none => exact RequiredOf.nil
      | some p => exact (hparent p hp).required
    show RequiredOf args.all (args.schema c).required
    rw [required_schema]
    exact hinherited.merge (nodup_inheritedSpecs hdistinct) (nodup_own h)

end ObjectArguments

/-- The schema of every object shape follows its declarations. -/
theorem Catalog.Reached.declared {c : Catalog} (hc : c.Reached) :
    ∀ s ∈ c.definitions, s.isObject = true → s.Declared := by
  -- Merging needs distinct names on both sides, so both facts go through one induction.
  have hboth := hc.forall_shape (P := fun s => s.DistinctProperties
    ∧ (s.isObject = true → s.Declared)) fun c s _ hbefore hs => ?_
  · exact fun s hs => (hboth s hs).2
  · cases hs with
    | type args t _ _ _ _ =>
      exact ⟨args.distinctProperties (fun t ht => (hbefore t ht).1) t, nofun⟩
    | object args t _ _ hparent haccepted _ =>
      have hdistinct : ∀ p, args.parent = some p → p.DistinctProperties :=
        fun p hp => (hparent p hp).1.1
      refine ⟨args.distinctProperties (fun t ht => (hbefore t ht).1) hdistinct haccepted t,
        fun _ => ?_⟩
      exact args.declared haccepted (fun p hp => (hdistinct p hp).specs)
        (fun p hp => (hparent p hp).1.2 (hparent p hp).2) t

/-! ### The record -/

/-- The record in the signature has a field for each property of the schema, in order, and the
    fields that it requires are the required properties. -/
structure Shape.RecordOf (s : Shape) (record : RecordType) : Prop where
  signature : s.signature.record? = some record
  fields : record.fields.map FieldType.name = s.schema.properties.keys
  required {field : FieldType} : field ∈ record.fields →
    (field.name ∈ s.required ↔ field.required = true)
  representation : some record.representation = s.representation

/-- The signature of an object shape is read off property by property. -/
theorem ObjectArguments.exists_recordOf {args : ObjectArguments} {c : Catalog}
    (hname : args.name ≠ "") {t : TypeExpr} (ht : args.signature c = .ok t) :
    ∃ record, (args.shape c t).RecordOf record := by
  obtain ⟨fields, extra, hfields, -, ht'⟩ := (TypeExpr.ofObject_eq_ok_iff hname).1 ht
  -- Field by field, the record repeats the name and the required-ness of a property.
  have hrows : List.Forall₂ (fun (p : String × Schema) (field : FieldType) => p.1 = field.name
      ∧ (args.schema c).required.contains p.1 = field.required)
      (args.schema c).properties fields := by
    refine (TypeExpr.fieldsOf_eq_ok_iff.1 hfields).imp fun p field hp => ?_
    obtain ⟨u, -, rfl⟩ := hp
    exact ⟨rfl, rfl⟩
  have hrep : (args.schema c).representation = some args.options.representation := by
    rw [schema_eq]
    rfl
  refine ⟨⟨some args.name, fields, args.options.representation, extra⟩, ?_, ?_, ?_, hrep.symm⟩
  · show t.record? = _
    rw [ht', hrep]
    -- A nullable shape has the record as the first option of its union.
    split <;> rfl
  · have hnames : List.Forall₂ (· = ·) ((args.schema c).properties.map Prod.fst)
        (fields.map FieldType.name) := by
      rw [List.forall₂_map_left_iff, List.forall₂_map_right_iff]
      exact hrows.imp fun p field hp => hp.1
    rw [List.forall₂_eq_eq_eq] at hnames
    exact hnames.symm
  · intro field hfield
    obtain ⟨p, -, hname, hrequired⟩ := Outcome.mem_of_forall₂ hrows hfield
    rw [← hname, ← hrequired, List.contains_iff_mem]
    rfl

/-! ### Fixed records -/

/-- The node does not admit other keys when it is an object that asks for a fixed record. -/
def Schema.IsClosed (n : Schema) : Prop :=
  n.isObject = true → n.representation = some .fixedRecord → n.additional = none

/-- Plain nodes ask for no representation. -/
theorem Schema.IsPlain.isClosed {n : Schema} (h : n.IsPlain) : n.IsClosed := by
  intro _ hfixed
  cases n with
  | reference path => rfl
  | node f ps i a ms =>
    obtain ⟨-, hrep, -⟩ := h
    cases hrep.symm.trans hfixed

/-- The schema of a type shape asks for no representation where it is an object. -/
theorem TypeArguments.isClosed_schema (args : TypeArguments) (c : Catalog) :
    (args.schema c).IsClosed := by
  intro hobject hfixed
  rcases args.schema_cases c with heq | ⟨f, ps, i, a, ms, -, heq, hmap⟩
  · rw [heq] at hobject
    cases hobject
  · rw [heq] at hobject hfixed
    have hkind : f.kind = .object := by
      simpa [Schema.isObject, Schema.kind?, Schema.facets?] using hobject
    obtain ⟨-, hrep, -⟩ := hmap hkind
    cases hrep.symm.trans hfixed

/-- The rules of fixed records hold of an accepted object. -/
theorem ObjectArguments.fixedRecord {args : ObjectArguments} {c : Catalog} (h : args.Accepted c)
    (hfixed : (args.schema c).representation = some .fixedRecord) :
    (args.schema c).additional = none ∧ ∀ spec ∈ args.all, spec.alwaysHasValue = true := by
  rw [schema_eq] at hfixed ⊢
  have hoption : args.options.isFixedRecord = true := by
    have hrep : args.options.representation = .fixedRecord := Option.some.inj hfixed
    simp [ObjectOptions.isFixedRecord, hrep]
  obtain ⟨hadditional, hvalues⟩ := (checkRecord_eq_ok_iff _ _ _ _).1 h.record hoption
  refine ⟨?_, hvalues⟩
  rw [hadditional]
  rfl

/-- No node of a fixed record admits other keys, at any depth. -/
theorem Catalog.Reached.isClosed {c : Catalog} (hc : c.Reached) :
    ∀ s ∈ c.definitions, s.schema.Each Schema.IsClosed := by
  refine hc.forall_shape fun c s _ hbefore hs => Schema.each_iff.2 ⟨?_, ?_⟩
  · cases hs with
    | type args t _ _ _ _ => exact args.isClosed_schema c
    | object args t _ _ _ haccepted _ =>
      exact fun _ hfixed => (ObjectArguments.fixedRecord haccepted hfixed).1
  · exact hs.each_child (fun _ => Schema.IsPlain.isClosed) hbefore fun p hp _ hm => hp.child hm

/-! ### All views -/

/-- The schema, the declarations and the record of the object shape tell of the same properties, in
    one order and each once, and agree on which of them are required. -/
structure Shape.Aligned (s : Shape) (record : RecordType) : Prop where
  signature : s.signature.record? = some record
  properties : s.schema.properties.keys = s.specs.map PropertySpec.name
  fields : record.fields.map FieldType.name = s.specs.map PropertySpec.name
  names : (s.specs.map PropertySpec.name).Nodup
  required : s.required.Nodup
  requiredNames : s.required ⊆ s.specs.map PropertySpec.name
  requiredSpec {spec : PropertySpec} : spec ∈ s.specs →
    (spec.name ∈ s.required ↔ spec.options.isRequired = true)
  requiredField {field : FieldType} : field ∈ record.fields →
    (field.name ∈ s.required ↔ field.required = true)

/-- The three views together. -/
theorem Shape.Declared.aligned {s : Shape} {record : RecordType} (h : s.Declared)
    (hrecord : s.RecordOf record) (hnames : (s.specs.map PropertySpec.name).Nodup) :
    s.Aligned record where
  signature := hrecord.signature
  properties := h.keys
  fields := hrecord.fields.trans h.keys
  names := hnames
  required := h.required.nodup
  requiredNames := h.required.subset_names
  requiredSpec := h.required.name_mem_iff hnames
  requiredField := hrecord.required

/-- The options that are looked up under the name of a property are its own. -/
theorem StubField.optionsOf_of_mem {specs : List PropertySpec}
    (hnames : (specs.map PropertySpec.name).Nodup) {spec : PropertySpec} (hspec : spec ∈ specs) :
    optionsOf specs spec.name = spec.options := by
  have hlast : Inheritance.lastWith PropertySpec.name spec.name specs = some spec :=
    (Inheritance.lastWith_eq_some_iff hnames).2 ⟨hspec, rfl⟩
  unfold Inheritance.lastWith at hlast
  rw [optionsOf, hlast]
  rfl

/-- The options that are looked up under the name of a field are those of the property of that
    name. -/
theorem Shape.Aligned.exists_optionsOf {s : Shape} {record : RecordType} (h : s.Aligned record)
    {field : FieldType} (hfield : field ∈ record.fields) :
    ∃ spec ∈ s.specs, spec.name = field.name
      ∧ StubField.optionsOf s.specs field.name = spec.options := by
  have hname : field.name ∈ s.specs.map PropertySpec.name := by
    rw [← h.fields]
    exact List.mem_map_of_mem hfield
  obtain ⟨spec, hspec, hsame⟩ := List.mem_map.1 hname
  exact ⟨spec, hspec, hsame, hsame ▸ StubField.optionsOf_of_mem h.names hspec⟩

/-- The stub of an object shape is that of the record in its signature. -/
theorem StubShape.ofShape_eq_ofRecord {s : Shape} {record : RecordType} (hobject : s.isObject = true)
    (hrecord : s.signature.record? = some record) : ofShape s = ofRecord s record := by
  unfold ofShape
  unfold Shape.isObject at hobject
  rw [hrecord]
  cases hbody : s.body with
  | object specs additional options parent => rfl
  | type descriptor options => simp [hbody] at hobject

namespace Catalog

/-- The record of every object shape follows its schema, and every property of a fixed record has a
    value. -/
theorem Reached.exists_recordOf {c : Catalog} (hc : c.Reached) :
    ∀ s ∈ c.definitions, s.isObject = true → (∃ record, s.RecordOf record)
      ∧ (s.representation = some .fixedRecord → ∀ spec ∈ s.specs, spec.alwaysHasValue = true) := by
  refine hc.forall_shape fun c s _ _ hs hobject => ?_
  cases hs with
  | type args t _ _ _ _ => cases hobject
  | object args t hname _ _ haccepted ht =>
    exact ⟨ObjectArguments.exists_recordOf hname ht,
      fun hfixed => (ObjectArguments.fixedRecord haccepted hfixed).2⟩

/-- The views of an object shape stay aligned.  In a reached catalog the schema, the declarations and
    the record of every object shape tell of the same properties in one order, each once, and agree
    on which of them are required; every property of a fixed record is required, nullable or has a
    default.  So the stub of the shape is that of its record, and the options of each field are found.
    No node of a fixed record, at any depth of any schema, admits other keys. -/
theorem Reached.views_aligned {c : Catalog} (hc : c.Reached) :
    (∀ s ∈ c.definitions, s.isObject = true → ∃ record, s.Aligned record
      ∧ StubShape.ofShape s = StubShape.ofRecord s record
      ∧ (∀ field ∈ record.fields, ∃ spec ∈ s.specs, spec.name = field.name
        ∧ StubField.optionsOf s.specs field.name = spec.options)
      ∧ (s.representation = some .fixedRecord → ∀ spec ∈ s.specs,
        spec.options.isRequired = true ∨ spec.options.nullable = true
          ∨ spec.options.hasDefault = true))
    ∧ ∀ s ∈ c.definitions, ∀ n ∈ s.schema.nodes, n.isObject = true →
      n.representation = some .fixedRecord → n.additional = none := by
  refine ⟨fun s hs hobject => ?_, fun s hs n hn => hc.isClosed s hs n hn⟩
  obtain ⟨⟨record, hrecord⟩, hvalues⟩ := hc.exists_recordOf s hs hobject
  have haligned : s.Aligned record :=
    (hc.declared s hs hobject).aligned hrecord (hc.distinctProperties s hs).specs
  refine ⟨record, haligned, StubShape.ofShape_eq_ofRecord hobject hrecord.signature,
    fun field hfield => haligned.exists_optionsOf hfield, fun hfixed spec hspec => ?_⟩
  have hvalue := hvalues hfixed spec hspec
  simpa [PropertySpec.alwaysHasValue, Bool.or_eq_true, or_assoc] using hvalue

/-! ### A catalog of pages -/

namespace Pages

/-- Entities have an identifier and tags, of which there may be none, and may have a note. -/
def entities : ObjectDeclaration where
  name := .str "Entity"
  properties :=
    [.spec ⟨"id", .scalar .string, {}⟩,
     .spec ⟨"tags", .array (.scalar .string), { default := some (.list []) }⟩,
     .spec ⟨"note", .scalar .string, { required := some false, nullable := true }⟩]

/-- Pages are entities with a note and a body. -/
def pages : ObjectDeclaration where
  name := .str "Page"
  properties := [.spec ⟨"note", .scalar .string, {}⟩, .spec ⟨"body", .scalar .string, {}⟩]
  options := [(.str "extends", .str "Entity")]

/-- What the definition of entities says. -/
def entityArguments : ObjectArguments where
  name := "Entity"
  title := "Entity"
  options := {}
  specs :=
    [⟨"id", .scalar .string, {}⟩,
     ⟨"tags", .array (.scalar .string), { default := some (.list []) }⟩,
     ⟨"note", .scalar .string, { required := some false, nullable := true }⟩]
  additional := none
  parent := none

/-- The record of an entity. -/
def entityRecord : TypeExpr :=
  .record (some "Entity")
    [.mk "id" (.primitive .string) true, .mk "tags" (.sequence (.primitive .string)) true,
     .mk "note" (.union [.primitive .string, .none]) false]
    .fixedRecord none

/-- The shape of entities. -/
def entity : Shape := entityArguments.shape {} entityRecord

/-- The catalog of entities. -/
def started : Catalog := ({} : Catalog).add entity

/-- What the definition of pages says. -/
def pageArguments : ObjectArguments where
  name := "Page"
  title := "Page"
  options := { base := .str "Entity" }
  specs := [⟨"note", .scalar .string, {}⟩, ⟨"body", .scalar .string, {}⟩]
  additional := none
  parent := some entity

/-- The record of a page. -/
def pageRecord : TypeExpr :=
  .record (some "Page")
    [.mk "id" (.primitive .string) true, .mk "tags" (.sequence (.primitive .string)) true,
     .mk "note" (.primitive .string) true, .mk "body" (.primitive .string) true]
    .fixedRecord none

/-- The shape of pages. -/
def page : Shape := pageArguments.shape started pageRecord

/-- The catalog of entities and pages. -/
def catalog : Catalog := started.add page

theorem accepted_entities : entityArguments.Accepted {} where
  names := by decide
  record := rfl
  specs := by
    intro s hs
    simp only [entityArguments, ObjectArguments.own, List.map_cons, List.map_nil, List.mem_cons,
      List.not_mem_nil, or_false] at hs
    rcases hs with rfl | rfl | rfl <;> rfl
  additional := by
    intro e he
    cases he
  parent := by
    intro p hp
    cases hp

/-- The types of the fields of an entity are read off the schemas of its properties. -/
theorem signature_entity : entityArguments.signature {} = .ok entityRecord := by
  have hname : entityArguments.name ≠ "" := by decide
  refine (TypeExpr.ofObject_eq_ok_iff hname).2 ⟨_, _, TypeExpr.fieldsOf_eq_ok_iff.2
    (.cons ⟨_, ?_, rfl⟩ (.cons ⟨_, ?_, rfl⟩ (.cons ⟨_, ?_, rfl⟩ .nil))), rfl, rfl⟩
  · exact TypeExpr.ofSchema_scalar rfl
  · exact (TypeExpr.ofSchema_array_eq_ok_iff rfl).2 ⟨_, _, rfl, TypeExpr.ofSchema_scalar rfl, rfl⟩
  · -- A note that may be null is read as a union with null.
    exact (TypeExpr.ofSchema_union_eq_ok_iff rfl).2
      ⟨_, .cons (TypeExpr.ofSchema_scalar rfl) (.cons (TypeExpr.ofSchema_null rfl) .nil), rfl⟩

theorem accepted_pages : pageArguments.Accepted started where
  names := by decide
  record := rfl
  specs := by
    intro s hs
    simp only [pageArguments, ObjectArguments.own, List.map_cons, List.map_nil, List.mem_cons,
      List.not_mem_nil, or_false] at hs
    rcases hs with rfl | rfl <;> rfl
  additional := by
    intro e he
    cases he
  parent := by
    intro p hp
    cases hp
    rfl

/-- Those of a page are taken over or read, for a page declares the note anew. -/
theorem signature_page : pageArguments.signature started = .ok pageRecord := by
  have hname : pageArguments.name ≠ "" := by decide
  -- The types of the identifier and of the tags are taken over.
  refine (TypeExpr.ofObject_eq_ok_iff hname).2 ⟨_, _, TypeExpr.fieldsOf_eq_ok_iff.2
    (.cons ⟨_, rfl, rfl⟩ (.cons ⟨_, rfl, rfl⟩ (.cons ⟨_, ?_, rfl⟩ (.cons ⟨_, ?_, rfl⟩ .nil)))),
    rfl, rfl⟩
  · exact TypeExpr.ofSchema_scalar rfl
  · exact TypeExpr.ofSchema_scalar rfl

theorem defineObject_entities :
    (({} : Catalog).defineObject (fun _ => none) entities).result = .ok (started, entity) :=
  defineObject_eq_ok_iff.2 ⟨entityArguments, _, rfl, accepted_entities, signature_entity, rfl, rfl⟩

theorem defineObject_pages :
    (started.defineObject (fun _ => none) pages).result = .ok (catalog, page) :=
  defineObject_eq_ok_iff.2 ⟨pageArguments, _, rfl, accepted_pages, signature_page, rfl, rfl⟩

theorem after_pages : ({} : Catalog).after [.object entities, .object pages] = catalog := by
  have hentities : ({} : Catalog).step (fun _ => none) (.object entities) = started := by
    rw [step, define, defineObject_entities]
  rw [after_cons, after_cons, after_nil, hentities, step, define, defineObject_pages]

/-- The catalog of pages is reached by two definitions. -/
theorem reachable_catalog : catalog.Reachable := ⟨"", _, after_pages.symm⟩

theorem page_mem_definitions : page ∈ catalog.definitions := self_mem_definitions_add (by decide)

end Pages

/-- The views of pages are aligned: the note, which entities may lack, is required of a page, in its
    old place. -/
theorem Reached.views_aligned_pages :
    Pages.catalog.Reached ∧ Pages.page ∈ Pages.catalog.definitions
      ∧ Pages.entity.required = ["id", "tags"]
      ∧ Pages.page.required = ["id", "tags", "note", "body"]
      ∧ ∃ record, Pages.page.Aligned record
        ∧ StubShape.ofShape Pages.page = StubShape.ofRecord Pages.page record := by
  have hc := Pages.reachable_catalog.reached
  obtain ⟨hviews, -⟩ := Reached.views_aligned hc
  obtain ⟨record, haligned, hstub, -⟩ := hviews Pages.page Pages.page_mem_definitions rfl
  exact ⟨hc, Pages.page_mem_definitions, rfl, rfl, record, haligned, hstub⟩

end Catalog

end DataShapes
