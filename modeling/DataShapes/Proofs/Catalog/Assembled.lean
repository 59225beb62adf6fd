import DataShapes.Proofs.Catalog.Nodes

/-!
# The makeup of assembled nodes

The kind of a node says which parts it has: an object has properties and perhaps other values, an
array has items, a union has members, a scalar has no part at all.  Only the node of an object shape
names required properties, and only that node has a representation.  All nodes in the schemas of
finished shapes are made up like this, whatever they were declared with, embedded from or taken over
from.

Main definitions:
* `Schema.Assembled`: the parts and keywords of a node go with its kind.

Main statements:
* `Descriptor.each_assembled_build`: the nodes that are built for a descriptor are made up like this;
* `Catalog.Reached.assembled`: so are all nodes of the schemas of a reached catalog.
-/

namespace DataShapes

/-- The parts and the keywords of a node go with its kind. -/
inductive Schema.Assembled : Schema → Prop
  | reference (path : String) : Assembled (.reference path)
  | object {f : Facets} {ps : List (String × Schema)} {a : Option Schema} : f.kind = .object →
      (f.required = none ↔ f.representation = none) → Assembled (.node f (some ps) none a none)
  | array {f : Facets} {i : Schema} : f.kind = .array → f.required = none →
      f.representation = none → Assembled (.node f none (some i) none none)
  | union {f : Facets} {ms : List Schema} : f.kind = .union → f.required = none →
      f.representation = none → Assembled (.node f none none none (some ms))
  | scalar {f : Facets} : f.kind.isScalar = true → f.required = none →
      f.representation = none → Assembled (.node f none none none none)

namespace Schema.Assembled

/-- Another title leaves the makeup of a node as it is. -/
theorem withTitle {s : Schema} (h : s.Assembled) (title : String) :
    (s.withTitle title).Assembled := by
  cases h with
  | reference path => exact .reference path
  | object hkind hboth => exact .object hkind hboth
  | array hkind hrequired hrep => exact .array hkind hrequired hrep
  | union hkind hrequired hrep => exact .union hkind hrequired hrep
  | scalar hkind hrequired hrep => exact .scalar hkind hrequired hrep

/-- No assembled node stands for "no value". -/
theorem kind_ne_null {f : Facets} {ps : Option (List (String × Schema))} {i a : Option Schema}
    {ms : Option (List Schema)} (h : Assembled (.node f ps i a ms)) : f.kind ≠ .null := by
  intro hnull
  cases h with
  | object hkind _ => cases hnull.symm.trans hkind
  | array hkind _ _ => cases hnull.symm.trans hkind
  | union hkind _ _ => cases hnull.symm.trans hkind
  | scalar hkind _ _ =>
    rw [hnull] at hkind
    cases hkind

end Schema.Assembled

/-! ### Descriptors -/

/-- The nodes that are built for a descriptor are made up as their kinds say, when those are that
    stand for names. -/
theorem Descriptor.each_assembled_build {n : Naming} {d : Descriptor} {o : PropertyOptions}
    (h : ∀ name ∈ d.names, (n.target name o).Each Schema.Assembled) :
    (d.build n o).Each Schema.Assembled := by
  induction d using induction_parts generalizing o with
  | scalar kind =>
    have hkind : (SchemaKind.ofScalar kind).isScalar = true := by
      rw [SchemaKind.isScalar, SchemaKind.scalar?_ofScalar]
      rfl
    exact Schema.each_leaf.2 (.scalar hkind rfl rfl)
  | array item ih =>
    have hitem : (item.build n o.forPart).Each Schema.Assembled := ih (o := o.forPart) h
    rw [build, Schema.each_node_iff]
    exact ⟨.array rfl rfl rfl, by simpa using hitem, by simp, by simp, by simp⟩
  | map value ih =>
    have hvalue : (value.build n o.forPart).Each Schema.Assembled := ih (o := o.forPart) h
    -- A map has neither of the two keywords that only object shapes have.
    have hboth : (Assembly.containerFacets .object o).required = none
        ↔ (Assembly.containerFacets .object o).representation = none := ⟨fun _ => rfl, fun _ => rfl⟩
    rw [build, Schema.each_node_iff]
    exact ⟨.object rfl hboth, by simp, by simpa using hvalue, by simp, by simp⟩
  | union members ih =>
    rw [build, Schema.each_node_iff]
    refine ⟨.union rfl rfl rfl, by simp, by simp, ?_, by simp⟩
    intro s hs
    rw [Option.getD_some, buildAll_eq] at hs
    obtain ⟨m, hm, rfl⟩ := List.mem_map.1 (mem_of_mem_distinct hs)
    apply ih m hm (o := o.forPart)
    intro name hname
    exact h name (mem_names_union.2 ⟨m, hm, hname⟩)
  | named name =>
    have htarget : (n.target name o).Each Schema.Assembled := h name (by simp [names])
    exact Assembly.each_wrap (.union rfl rfl rfl) htarget
  | raw w => exact Schema.each_reference.2 (.reference "")

/-- The nodes that are built in a catalog are made up as their kinds say, when those of the finished
    shapes are. -/
theorem Assembly.each_assembled_build {a : Assembly} {d : Descriptor} (o : PropertyOptions)
    (hshape : ∀ name t, a.shape? name = some t → t.schema.Each Schema.Assembled) :
    (d.build a.naming o).Each Schema.Assembled :=
  Descriptor.each_assembled_build fun name _ => each_target .reference hshape name o

/-! ### Shapes -/

variable {c : Catalog}

/-- The nodes of a type shape are made up as their kinds say, when those of the catalog are. -/
theorem TypeArguments.each_assembled (args : TypeArguments)
    (hc : ∀ t ∈ c.definitions, t.schema.Each Schema.Assembled) :
    (args.schema c).Each Schema.Assembled := by
  have hbuilt : (args.built c).Each Schema.Assembled :=
    Assembly.each_assembled_build _ fun _ t ht => hc t (Assembly.mem_of_shape? rfl ht)
  rcases args.schema_cases c with heq | ⟨f, ps, i, a, ms, hs, heq, -⟩
  · -- What was built is the only member of a titled union.
    rw [heq, Schema.each_node_iff]
    exact ⟨.union rfl rfl rfl, by simp, by simp, by simpa using hbuilt, by simp⟩
  · rw [hs] at hbuilt
    rw [heq]
    exact Schema.each_iff.2
      ⟨hbuilt.self.withTitle args.title, fun child hchild => hbuilt.child hchild⟩

/-- The nodes of an object shape are made up as their kinds say, when those of the catalog and of
    the extended shape are. -/
theorem ObjectArguments.each_assembled (args : ObjectArguments)
    (hc : ∀ t ∈ c.definitions, t.schema.Each Schema.Assembled)
    (hparent : ∀ p, args.parent = some p → p.schema.Each Schema.Assembled) :
    (args.schema c).Each Schema.Assembled := by
  have hbuilt : ∀ (d : Descriptor) (o : PropertyOptions),
      (d.build (args.assembly c).naming o).Each Schema.Assembled := fun d o =>
    Assembly.each_assembled_build o fun _ t ht => hc t (Assembly.mem_of_shape? rfl ht)
  rw [schema, Assembly.objectBuilt_eq, Schema.each_node_iff]
  refine ⟨.object rfl (by simp [Assembly.objectFacets]), by simp, ?_, by simp, ?_⟩
  · intro s hs
    obtain ⟨e, -, rfl⟩ := Option.map_eq_some_iff.1 hs
    exact hbuilt e.1 e.2
  · -- A property is one of the extended shape, or it was declared here.
    intro p hp
    rcases Inheritance.mem_merge hp with hp | hp
    · cases hpar : args.parent with
      | none => simp [hpar] at hp
      | some q =>
        simp only [hpar, Option.map_some, Option.getD_some] at hp
        exact (hparent q hpar).child (Schema.mem_children_of_mem_properties hp)
    · obtain ⟨spec, -, rfl⟩ := List.mem_map.1 hp
      exact hbuilt spec.descriptor spec.options

/-- All nodes in the schemas of a reached catalog are made up as their kinds say. -/
theorem Catalog.Reached.assembled (hc : c.Reached) :
    ∀ s ∈ c.definitions, s.schema.Each Schema.Assembled := by
  refine hc.forall_shape fun c s _ hbefore hs => ?_
  cases hs with
  | type args t _ _ _ _ => exact args.each_assembled hbefore
  | object args t _ _ hparent _ _ =>
    exact args.each_assembled hbefore fun p hp => (hparent p hp).1

end DataShapes
