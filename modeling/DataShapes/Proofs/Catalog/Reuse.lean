import DataShapes.Proofs.Catalog.Defaults
import DataShapes.Proofs.Catalog.Meaning
import DataShapes.Proofs.Catalog.SiblingOrder
import DataShapes.Proofs.TypeExpr.Alike

/-!
# Field types that are taken over

An object shape takes over the type of a field when the schema of the property is the same as in the
shape that it extends.  That type was read with an older registry, or was taken over itself.  It is
nevertheless the type that the registry of the shape would give, when titles are distinct: then the
registries of both shapes mean the same by each key, and equal schemas are read alike, because all
nodes with a title and all nodes with properties are schemas of shapes.

Main definitions:
* `Schema.IsKnown`: a node is bare or the schema of a shape;
* `Shape.Fresh`: all field types of a shape are what its own registry gives.

Main statements:
* `Catalog.Reachable.known`, `Catalog.separates_known`: all nodes are known, and known nodes are told
  apart by their titles;
* `Catalog.Reachable.ofNormalForm_inherited`: what was read off the extended shape is read again;
* `Catalog.Reachable.reuse_changes_nothing`: taking types over changes no signature.
-/

namespace DataShapes

/-! ### Registries that agree -/

/-- Reading a covered schema finds every key that it looks up. -/
theorem Schema.Consults.isSome_find? {r : Registry} {s : Schema} {k : LookupKey}
    (hk : s.Consults k) (h : s.Each r.Covers) : (r.find? k).isSome = true := by
  induction hk with
  | reference path => exact h.self
  | title hobject hmap htitle =>
    obtain ⟨other, hother, hsome⟩ := (h.self.2 hobject).resolve_left hmap
    rw [htitle] at hother
    cases hother
    exact hsome
  | @next s m k hm _ ih => exact ih (TypeExpr.each_readNext r.normalStable_covers h m hm)

/-- Two registries that cover a schema and mean the same by each key read the same off it. -/
theorem TypeExpr.ofNormalForm_of_agree {r r' : Registry} {s : Schema} {t : TypeExpr}
    (h : s.Each r.Covers) (h' : s.Each r'.Covers)
    (hagree : ∀ k u v, r.find? k = some u → r'.find? k = some v → u = v)
    (ht : ofNormalForm r s = .ok t) : ofNormalForm r' s = .ok t := by
  obtain ⟨t', ht'⟩ := ofNormalForm_total h'
  have heq : t = t' := by
    refine (ofSchema_eq_iff ht ht').2 fun k hk => ?_
    obtain ⟨u, hu⟩ := Option.isSome_iff_exists.1 (hk.isSome_find? (h.normalize r.normalStable_covers))
    obtain ⟨v, hv⟩ :=
      Option.isSome_iff_exists.1 (hk.isSome_find? (h'.normalize r'.normalStable_covers))
    rw [Registry.nameOf_of_find? hu, Registry.nameOf_of_find? hv, hagree k u v hu hv]
  rw [heq]
  exact ht'

/-- Where the types that would be taken over are what the registry reads, the signature of an object
    shape is the same without the extended shape. -/
theorem TypeExpr.ofObject_afresh {r : Registry} {s : Schema} {options : ObjectOptions} {name : String}
    {parent : Inherited} {t : TypeExpr} (hname : name ≠ "") (hkeys : s.properties.keys.Nodup)
    (h : ofObject r s options (some name) (some parent) = .ok t)
    (hreuse : ∀ key node u, s.properties.get? key = some node → parent.reuse? key node = some u →
      ofNormalForm r node = .ok u) : ofObject r s options (some name) Option.none = .ok t := by
  obtain ⟨fields, extra, hfields, hextra, heq⟩ := (ofObject_eq_ok_iff hname).1 h
  refine (ofObject_eq_ok_iff hname).2 ⟨fields, extra, ?_, hextra, heq⟩
  rw [fieldsOf_eq_ok_iff] at hfields ⊢
  refine forall₂_imp_of_mem hfields ?_
  rintro ⟨key, node⟩ hp field - ⟨u, hu, rfl⟩
  have hnode : s.properties.get? key = some node := (Table.get?_eq_some_iff hkeys).2 hp
  refine ⟨u, ?_, rfl⟩
  show ofNormalForm r node = .ok u
  unfold fieldType at hu
  -- The type was taken over, or it was read off the node already.
  split at hu
  · rename_i type hsome
    cases Except.ok.inj hu
    exact hreuse key node u hnode hsome
  · exact hu

/-! ### Known nodes -/

/-- A node that a declaration makes by itself is bare. -/
theorem Schema.IsPlain.isBare {n : Schema} (h : n.IsPlain) : n.IsBare := by
  cases n with
  | reference path => exact ⟨rfl, rfl⟩
  | node f ps i a ms =>
    obtain ⟨htitle, -, hps⟩ := h
    refine ⟨htitle, ?_⟩
    cases ps with
    | none => rfl
    | some ps => exact hps

/-- The node is bare, or the schema of a shape of the catalog. -/
def Schema.IsKnown (c : Catalog) (n : Schema) : Prop :=
  n.IsBare ∨ ∃ s ∈ c.definitions, n = s.schema

/-- The schema of a shape has the title of the shape. -/
theorem Shape.Covered.title {s : Shape} (h : s.Covered) : s.schema.title = some s.title := by
  obtain ⟨f, ps, i, a, ms, heq, htitle, -⟩ := h.node
  rw [heq]
  exact htitle

namespace Catalog

variable {c : Catalog}

/-- All nodes of all shapes are known. -/
theorem Reachable.known (hc : c.Reachable) :
    ∀ s ∈ c.definitions, s.schema.Each (Schema.IsKnown c) := by
  have hmono : ∀ {c : Catalog} {t : Shape} {n : Schema}, t.name ∉ c.names → n.IsKnown c →
      n.IsKnown (c.add t) := by
    rintro c t n ht (hbare | ⟨s, hs, heq⟩)
    · exact .inl hbare
    · exact .inr ⟨s, mem_definitions_add ht hs, heq⟩
  refine hc.forall_shape (P := fun c s => s.schema.Each (Schema.IsKnown c)) ?_ ?_
  · intro c s t _ ht hs
    exact hs.mono fun _ hn => hmono ht.name_not_mem hn
  · intro c s _ hbefore hs
    have hnew := hs.name_not_mem
    have hold : ∀ t ∈ c.definitions, t.schema.Each (Schema.IsKnown (c.add s)) := fun t ht =>
      (hbefore t ht).mono fun _ hn => hmono hnew hn
    -- The root is that of the new shape; its children are built here or known before.
    refine Schema.each_iff.2 ⟨.inr ⟨s, self_mem_definitions_add hnew, rfl⟩, ?_⟩
    exact hs.each_child (fun _ hn => .inl hn.isBare) hold fun p hp _ hm => (hold p hp).child hm

/-- Known nodes that are equal are one or bare, when titles are distinct. -/
theorem separates_known (hcovered : ∀ s ∈ c.definitions, s.Covered)
    (htitles : (c.definitions.map Shape.title).Nodup) : Schema.Separates (Schema.IsKnown c) := by
  -- Bare nodes have no title and roots have one, so a bare node never equals a root.
  rintro x y (hx | ⟨s, hs, rfl⟩) (hy | ⟨t, ht, rfl⟩) h
  · exact .inr ⟨hx, hy⟩
  · have htitle := hx.1.symm.trans (h.title.trans (hcovered t ht).title)
    cases htitle
  · have htitle := hy.1.symm.trans (h.title.symm.trans (hcovered s hs).title)
    cases htitle
  · have htitle : s.title = t.title := by
      have hroots := h.title
      rw [(hcovered s hs).title, (hcovered t ht).title] at hroots
      exact Option.some.inj hroots
    rw [List.inj_on_of_nodup_map htitles hs ht htitle]
    exact .inl rfl

/-! ### Types of taken over properties -/

section Inherited

variable {s p : Shape} {name : String} {node : Schema} {t : TypeExpr}

/-- What the registry of the extended shape reads off a property, the registry of the extending shape
    reads off an equal one, when it holds all that the other one holds. -/
theorem Reachable.ofNormalForm_inherited (hc : c.Reachable)
    (htitles : (c.definitions.map Shape.title).Nodup) (hs : s ∈ c.definitions)
    (hp : p ∈ c.definitions) (hholds : s.registry.Holds p.registry.content) {inherited : Schema}
    (hnode : s.schema.properties.get? name = some node)
    (hinherited : p.schema.properties.get? name = some inherited)
    (heq : (inherited == node) = true)
    (ht : TypeExpr.ofNormalForm p.registry inherited = .ok t) :
    TypeExpr.ofNormalForm s.registry node = .ok t := by
  have hchild : node ∈ s.schema.children :=
    Schema.mem_children_of_mem_properties (Table.mem_of_get? hnode)
  have hchild' : inherited ∈ p.schema.children :=
    Schema.mem_children_of_mem_properties (Table.mem_of_get? hinherited)
  have hcovered := hc.reached.covered
  -- Both registries read the inherited schema, and they mean the same by each key.
  have hcovers : inherited.Each p.registry.Covers := fun n hn =>
    (hcovered p hp).covers (Schema.mem_innerNodes_iff.2 ⟨inherited, hchild', hn⟩)
  have hagree : ∀ k u v, p.registry.find? k = some u → s.registry.find? k = some v → u = v := by
    intro k u v hu hv
    have hmeans := (hc.explains p hp).meansKey_of_registry hu
    exact hmeans.unique htitles ((hc.explains s hs).meansKey_of_registry hv)
  have hread : TypeExpr.ofNormalForm s.registry inherited = .ok t :=
    TypeExpr.ofNormalForm_of_agree hcovers (hcovers.mono fun _ hn => hn.mono hholds) hagree ht
  -- Then the one registry reads both schemas alike.
  have hkeys := fun u hu => (hc.reached.distinctProperties u hu).schema
  have hsame : Schema.Same inherited node :=
    ⟨(hkeys p hp).child hchild', (hkeys s hs).child hchild, heq⟩
  exact (TypeExpr.ofNormalForm_congr (separates_known hcovered htitles) hsame
    ((hc.known p hp).child hchild') ((hc.known s hs).child hchild)).1 hread

end Inherited

end Catalog

/-- The type of each field is what the registry of the shape reads off the schema of the property. -/
def Shape.Fresh (s : Shape) : Prop :=
  ∀ name node field, s.schema.properties.get? name = some node → s.field? name = some field →
    TypeExpr.ofNormalForm s.registry node = .ok field.type

/-- A field type is taken over from a shape that has the field and an equal property. -/
theorem Shape.reuse?_eq_some_iff {p : Shape} {name : String} {node : Schema} {t : TypeExpr} :
    p.inherited.reuse? name node = some t ↔ ∃ field inherited, p.field? name = some field
      ∧ p.schema.properties.get? name = some inherited ∧ (inherited == node) = true
      ∧ t = field.type := by
  rw [TypeExpr.reuse?_eq_some_iff]
  constructor
  · rintro ⟨record, field, inherited, hrecord, hfield, hinherited, heq, ht⟩
    exact ⟨field, inherited, Option.bind_eq_some_iff.2 ⟨record, hrecord, hfield⟩, hinherited, heq,
      ht⟩
  · rintro ⟨field, inherited, hfield, hinherited, heq, ht⟩
    obtain ⟨record, hrecord, hfield⟩ := Option.bind_eq_some_iff.1 hfield
    exact ⟨record, field, inherited, hrecord, hfield, hinherited, heq, ht⟩

namespace Generation

variable {c : Catalog} {g : Generation} {p : Shape}

/-- The shape has a field for each property, with the type of the property. -/
theorem Made.exists_field (h : g.Made) {name : String} {node : Schema}
    (hnode : g.shape.schema.properties.get? name = some node) :
    ∃ field, g.shape.field? name = some field
      ∧ TypeExpr.fieldType g.shape.registry (g.arguments.parent.map Shape.inherited) (name, node)
        = .ok field.type := by
  obtain ⟨-, t, ht, heq⟩ := h.cases
  rw [heq] at hnode ⊢
  -- The node is given, so the case without a property is out.
  rcases g.arguments.field?_shape h.newName.1 ht name with ⟨hnone, -⟩ | ⟨node', u, hsome, hu, hfield⟩
  · have hnone : (g.arguments.shape g.catalog t).schema.properties.get? name = none := hnone
    rw [hnode] at hnone
    cases hnone
  · have hsome : (g.arguments.shape g.catalog t).schema.properties.get? name = some node' := hsome
    rw [hnode] at hsome
    cases hsome
    exact ⟨_, hfield, hu⟩

/-- The registry holds what the registry of the extended shape holds. -/
theorem Made.holds (h : g.Made) (hparent : g.arguments.parent = some p) :
    g.shape.registry.Holds p.registry.content := by
  obtain ⟨-, t, -, heq⟩ := h.cases
  have hwrites : (g.arguments.registry g.catalog).Holds
      ((g.arguments.assembly g.catalog).objectWrites g.arguments.own g.arguments.additional
        g.arguments.parent) := Registry.holds_write _ _
  rw [Assembly.objectWrites, Registry.holds_append_iff, hparent] at hwrites
  rw [heq]
  exact hwrites.2.close

/-- A type that is taken over from a fresh shape is what the registry of the shape reads. -/
theorem Made.ofNormalForm_of_reuse? (h : g.Made) (hparent : g.arguments.parent = some p)
    (hc : c.Reachable) (htitles : (c.definitions.map Shape.title).Nodup)
    (hs : g.shape ∈ c.definitions) (hp : p ∈ c.definitions) (hfresh : p.Fresh) {name : String}
    {node : Schema} {t : TypeExpr} (hnode : g.shape.schema.properties.get? name = some node)
    (hreuse : p.inherited.reuse? name node = some t) :
    TypeExpr.ofNormalForm g.shape.registry node = .ok t := by
  obtain ⟨field, inherited, hfield, hinherited, heq, rfl⟩ := Shape.reuse?_eq_some_iff.1 hreuse
  exact hc.ofNormalForm_inherited htitles hs hp (h.holds hparent) hnode hinherited heq
    (hfresh name inherited field hinherited hfield)

/-- A definition keeps shapes fresh. -/
theorem Made.fresh (h : g.Made) (hc : c.Reachable)
    (htitles : (c.definitions.map Shape.title).Nodup) (hs : g.shape ∈ c.definitions)
    (hparent : ∀ p, g.arguments.parent = some p → p ∈ c.definitions ∧ p.Fresh) :
    g.shape.Fresh := by
  intro name node field hnode hfield
  obtain ⟨field', hfield', htype⟩ := h.exists_field hnode
  rw [hfield] at hfield'
  cases hfield'
  unfold TypeExpr.fieldType at htype
  -- A type is taken over only where the nodes are equal; the parent is fresh, and its registry reads the node
  -- as this one does.
  split at htype
  · rename_i t hreuse
    cases Except.ok.inj htype
    obtain ⟨inherited, hinherited, hreuse⟩ := Option.bind_eq_some_iff.1 hreuse
    obtain ⟨p, hp, rfl⟩ := Option.map_eq_some_iff.1 hinherited
    obtain ⟨hmem, hfresh⟩ := hparent p hp
    exact h.ofNormalForm_of_reuse? hp hc htitles hs hmem hfresh hnode hreuse
  · exact htype

end Generation

namespace Lineage

variable {c : Catalog} {gs : List Generation} {s : Shape}

/-- Only objects have a lineage. -/
theorem isObject (h : Lineage gs s) : s.isObject = true := by
  obtain ⟨-, g, -, hg, rfl, -⟩ := h.last
  obtain ⟨-, t, -, heq⟩ := hg.cases
  rw [heq]
  rfl

/-- There is a field for each property. -/
theorem exists_field (h : Lineage gs s) {name : String} {node : Schema}
    (hnode : s.schema.properties.get? name = some node) : ∃ field, s.field? name = some field := by
  obtain ⟨-, g, -, hg, rfl, -⟩ := h.last
  obtain ⟨field, hfield, -⟩ := hg.exists_field hnode
  exact ⟨field, hfield⟩

/-- A lineage within a catalog ends with a shape of the catalog. -/
theorem mem_definitions (h : Lineage gs s) (hwithin : ∀ g ∈ gs, g.Within c) :
    s ∈ c.definitions := by
  obtain ⟨init, g, rfl, hg, rfl, -⟩ := h.last
  have hcontinues := (hwithin g (by simp)).continues
  have hadded : g.shape ∈ (g.catalog.add g.shape).definitions :=
    Catalog.self_mem_definitions_add hg.name_not_mem
  exact (List.IsPrefix.map Prod.snd hcontinues).subset hadded

/-- Along a lineage all field types are what the registries read afresh. -/
theorem fresh (h : Lineage gs s) (hc : c.Reachable)
    (htitles : (c.definitions.map Shape.title).Nodup) (hwithin : ∀ g ∈ gs, g.Within c) :
    s.Fresh := by
  -- By induction on the lineage: the parent is fresh before its child is looked at.
  induction h with
  | root g hg hparent =>
    have hmem := (Lineage.root g hg hparent).mem_definitions hwithin
    exact hg.fresh hc htitles hmem (by simp [hparent])
  | @extend gs p g hp hg hparent ih =>
    have hmem := (Lineage.extend g hp hg hparent).mem_definitions hwithin
    have hbefore : ∀ g ∈ gs, g.Within c := fun g hg => hwithin g (List.mem_append_left _ hg)
    refine hg.fresh hc htitles hmem fun q hq => ?_
    rw [hparent] at hq
    cases hq
    exact ⟨hp.mem_definitions hbefore, ih hbefore⟩

end Lineage

namespace Catalog

variable {c : Catalog} {s : Shape}

/-- Taking field types over changes nothing.  Let the titles of a reachable catalog be distinct, and
    let an object shape extend another one.  Then reading the signature off the schema of the shape
    gives the same with and without the extended shape, and a property that is equal to that of the
    extended shape has a field there whose type is the one that the registry of the shape reads
    afresh. -/
theorem Reachable.reuse_changes_nothing (hc : c.Reachable)
    (htitles : (c.definitions.map Shape.title).Nodup) (hs : s ∈ c.definitions)
    {specs : List PropertySpec} {additional : Option (Descriptor × PropertyOptions)}
    {options : ObjectOptions} {parent : String}
    (hbody : s.body = .object specs additional options (some parent)) :
    ∃ p, c.shapes.get? parent = some p ∧ p.isObject = true
      ∧ TypeExpr.ofObject s.registry s.schema options (some s.name) (some p.inherited)
        = .ok s.signature
      ∧ TypeExpr.ofObject s.registry s.schema options (some s.name) none = .ok s.signature
      ∧ ∀ name node inherited, s.schema.properties.get? name = some node →
        p.schema.properties.get? name = some inherited → (inherited == node) = true →
        ∃ field, p.field? name = some field ∧ p.inherited.reuse? name node = some field.type
          ∧ TypeExpr.ofNormalForm s.registry node = .ok field.type := by
  have hobject : s.isObject = true := by
    unfold Shape.isObject
    rw [hbody]
  obtain ⟨gs, hgs, hwithin⟩ := hc.exists_lineage s hs hobject
  obtain ⟨init, g, rfl, hg, rfl, hlineage⟩ := hgs.last
  obtain ⟨-, t, ht, heq⟩ := hg.cases
  -- The body tells what was extended, and that shape has a lineage of its own.
  have hobjectBody : (g.arguments.shape g.catalog t).body
      = .object specs additional options (some parent) := heq ▸ hbody
  obtain ⟨-, -, rfl, hextended⟩ := ShapeBody.object.inj hobjectBody
  obtain ⟨p, hparent, rfl⟩ := Option.map_eq_some_iff.1 hextended
  have hp : Lineage init p := hlineage p hparent
  have hbefore : ∀ g ∈ init, g.Within c := fun g hg => hwithin g (List.mem_append_left _ hg)
  have hpmem : p ∈ c.definitions := hp.mem_definitions hbefore
  have hfresh : p.Fresh := hp.fresh hc htitles hbefore
  have hreuse : ∀ name node u, g.shape.schema.properties.get? name = some node →
      p.inherited.reuse? name node = some u →
      TypeExpr.ofNormalForm g.shape.registry node = .ok u := fun _ _ _ =>
    hg.ofNormalForm_of_reuse? hparent hc htitles hs hpmem hfresh
  have hsignature : TypeExpr.ofObject g.shape.registry g.shape.schema g.arguments.options
      (some g.shape.name) (some p.inherited) = .ok g.shape.signature := by
    unfold ObjectArguments.signature at ht
    rw [hparent] at ht
    rw [heq]
    exact ht
  have hkeys := (hc.reached.distinctProperties _ hs).schema.self.nodup_properties
  have hlabel : g.shape.name ≠ "" := by
    rw [hg.name]
    exact hg.newName.1
  refine ⟨p, hc.reached.wellNamed.get?_eq_some_iff.2 ⟨hpmem, rfl⟩, hp.isObject, hsignature,
    TypeExpr.ofObject_afresh hlabel hkeys hsignature hreuse, ?_⟩
  intro name node inherited hnode hinherited hequal
  obtain ⟨field, hfield⟩ := hp.exists_field hinherited
  have hsome : p.inherited.reuse? name node = some field.type :=
    Shape.reuse?_eq_some_iff.2 ⟨field, inherited, hfield, hinherited, hequal, rfl⟩
  exact ⟨field, hfield, hsome, hreuse name node field.type hnode hsome⟩

/-! ### A catalog of parcels -/

namespace Parcels

/-- Labels are texts. -/
def labels : TypeDeclaration := { name := .str "Label", type := .descriptor (.scalar .string) }

/-- The property that refers to labels. -/
def labelSpec : PropertySpec := ⟨"label", .named "Label", {}⟩

/-- Boxes have a label. -/
def boxes : ObjectDeclaration := { name := .str "Box", properties := [.spec labelSpec] }

/-- Crates are boxes with a weight, which declare the label again. -/
def crates : ObjectDeclaration where
  name := .str "Crate"
  properties := [.spec ⟨"weight", .scalar .integer, {}⟩, .spec labelSpec]
  options := [(.str "extends", .str "Box")]

/-- The shape of labels. -/
def label : Shape :=
  TypeArguments.shape ⟨"Label", "Label", .scalar .string, {}⟩ {} (.primitive .string)

/-- The catalog of labels. -/
def empty : Catalog := ({} : Catalog).add label

/-- What the definition of boxes says. -/
def boxArguments : ObjectArguments := ⟨"Box", "Box", {}, [labelSpec], none, none⟩

/-- The record of a box. -/
def boxRecord : TypeExpr :=
  .record (some "Box") [.mk "label" (.named "Label") true] .fixedRecord none

/-- The shape of boxes. -/
def box : Shape := boxArguments.shape empty boxRecord

/-- The catalog of labels and boxes. -/
def started : Catalog := empty.add box

/-- What the definition of crates says. -/
def crateArguments : ObjectArguments :=
  ⟨"Crate", "Crate", { base := .str "Box" }, [⟨"weight", .scalar .integer, {}⟩, labelSpec], none,
    some box⟩

/-- The record of a crate. -/
def crateRecord : TypeExpr :=
  .record (some "Crate")
    [.mk "label" (.named "Label") true, .mk "weight" (.primitive .integer) true] .fixedRecord none

/-- The shape of crates. -/
def crate : Shape := crateArguments.shape started crateRecord

/-- The catalog of labels, boxes and crates. -/
def catalog : Catalog := started.add crate

theorem defineType_labels : (({} : Catalog).defineType labels).result = .ok (empty, label) :=
  defineType_eq_ok_iff.2 ⟨⟨"Label", "Label", .scalar .string, {}⟩, _, rfl, rfl,
    TypeExpr.ofSchema_scalar rfl, rfl, rfl⟩

theorem accepted_boxes : boxArguments.Accepted empty where
  names := by decide
  record := rfl
  specs := by
    intro s hs
    rw [List.mem_singleton.1 hs]
    rfl
  additional := by
    intro e he
    cases he
  parent := by
    intro p hp
    cases hp

theorem signature_box : boxArguments.signature empty = .ok boxRecord := by
  have hname : boxArguments.name ≠ "" := by decide
  have hlabel : ∀ node, node = Schema.toTitle "Label" →
      TypeExpr.ofNormalForm (boxArguments.registry empty).close node = .ok (.named "Label") := by
    rintro node rfl
    exact TypeExpr.ofSchema_reference_eq_ok_iff.2 ⟨"Label", rfl, rfl⟩
  exact (TypeExpr.ofObject_eq_ok_iff hname).2 ⟨_, _, TypeExpr.fieldsOf_eq_ok_iff.2
    (.cons ⟨_, hlabel _ rfl, rfl⟩ .nil), rfl, rfl⟩

theorem defineObject_boxes :
    (empty.defineObject (fun _ => none) boxes).result = .ok (started, box) :=
  defineObject_eq_ok_iff.2 ⟨boxArguments, _, rfl, accepted_boxes, signature_box, rfl, rfl⟩

/-- Crates pass all checks behind boxes. -/
theorem accepted_crates : crateArguments.Accepted started where
  names := by decide
  record := rfl
  specs := by
    intro s hs
    rcases List.mem_cons.1 hs with rfl | hs
    · rfl
    · rw [List.mem_singleton.1 hs]
      rfl
  additional := by
    intro e he
    cases he
  parent := by
    intro p hp
    cases hp
    rfl

/-- The type of the label is taken over from boxes, and the other one is read. -/
theorem signature_crate : crateArguments.signature started = .ok crateRecord := by
  have hname : crateArguments.name ≠ "" := by decide
  -- The type of the label is taken over, although the label is declared again.
  exact (TypeExpr.ofObject_eq_ok_iff hname).2 ⟨_, _, TypeExpr.fieldsOf_eq_ok_iff.2
    (.cons ⟨_, rfl, rfl⟩ (.cons ⟨_, TypeExpr.ofSchema_scalar rfl, rfl⟩ .nil)), rfl, rfl⟩

theorem defineObject_crates :
    (started.defineObject (fun _ => none) crates).result = .ok (catalog, crate) :=
  defineObject_eq_ok_iff.2 ⟨crateArguments, _, rfl, accepted_crates, signature_crate, rfl, rfl⟩

theorem reachable_catalog : catalog.Reachable := by
  refine ⟨"", [.type labels, .object boxes, .object crates], ?_⟩
  have hlabels : ({} : Catalog).step (fun _ => none) (.type labels) = empty := by
    rw [step, define, defineType_labels]
  have hboxes : empty.step (fun _ => none) (.object boxes) = started := by
    rw [step, define, defineObject_boxes]
  rw [after_cons, after_cons, after_cons, after_nil, hlabels, hboxes, step, define,
    defineObject_crates]

end Parcels

/-- Crates take the type of the label over from boxes, and their own registry leads to the same
    shape. -/
theorem Reachable.reuse_changes_nothing_crates :
    Parcels.catalog.Reachable ∧ (Parcels.catalog.definitions.map Shape.title).Nodup
      ∧ Parcels.crate ∈ Parcels.catalog.definitions
      ∧ Parcels.crate.body
        = .object Parcels.crateArguments.all none Parcels.crateArguments.options (some "Box")
      ∧ TypeExpr.ofObject Parcels.crate.registry Parcels.crate.schema Parcels.crateArguments.options
        (some "Crate") (some Parcels.box.inherited) = .ok Parcels.crateRecord
      ∧ TypeExpr.ofObject Parcels.crate.registry Parcels.crate.schema Parcels.crateArguments.options
        (some "Crate") none = .ok Parcels.crateRecord
      ∧ Parcels.box.inherited.reuse? "label" (Schema.toTitle "Label") = some (.named "Label")
      ∧ TypeExpr.ofNormalForm Parcels.crate.registry (Schema.toTitle "Label")
        = .ok (.named "Label") := by
  have hc := Parcels.reachable_catalog
  have htitles : (Parcels.catalog.definitions.map Shape.title).Nodup := by decide
  have hs : Parcels.crate ∈ Parcels.catalog.definitions := self_mem_definitions_add (by decide)
  have hbody : Parcels.crate.body
      = .object Parcels.crateArguments.all none Parcels.crateArguments.options (some "Box") := rfl
  obtain ⟨p, hp, -, hwith, hwithout, hfields⟩ := Reachable.reuse_changes_nothing hc htitles hs hbody
  -- The parent and the field that the theorem speaks of are computed here.
  have hbox : Parcels.box = p := Option.some.inj hp
  subst hbox
  obtain ⟨field, hfield, hreuse, hread⟩ := hfields "label" (Schema.toTitle "Label")
    (Schema.toTitle "Label") rfl rfl rfl
  have hlabel : FieldType.mk "label" (.named "Label") true = field := Option.some.inj hfield
  subst hlabel
  exact ⟨hc, htitles, hs, hbody, hwith, hwithout, hreuse, hread⟩

end Catalog

end DataShapes
