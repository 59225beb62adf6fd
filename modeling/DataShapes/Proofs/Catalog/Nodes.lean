import DataShapes.Proofs.Catalog.Covered
import DataShapes.Proofs.Descriptor.Parts
import DataShapes.Proofs.Schema.Populated

/-!
# Where the nodes of shapes come from

A declaration makes few kinds of nodes by itself, and none of them has a title, a representation or
properties.  All other nodes below the root of a schema were nodes of a shape before: they were
embedded with it, or taken over from the shape that is extended.  So what holds of plain nodes and
of shapes holds of whatever is assembled from them.

Main definitions:
* `Schema.IsPlain`: the nodes that a declaration makes by itself.

Main statements:
* `Assembly.each_build`: what holds of plain nodes and of shapes holds of a schema that is built;
* `Catalog.Finishes.each_child`: it holds of the parts of a shape that a definition ends with;
* `Catalog.Finishes.each_signature`: what holds of what is read holds of the parts of a signature.
-/

namespace DataShapes

/-- A node that a declaration makes by itself: a reference, or a node without a title, a
    representation and properties. -/
def Schema.IsPlain : Schema → Prop
  | .reference _ => True
  | .node f ps _ _ _ => f.title = none ∧ f.representation = none ∧ ps.getD [] = []

variable {Q : Schema → Prop}

namespace Descriptor

/-- What holds of plain nodes and of the schemas that stand for names holds of all nodes of the
    schema that is built with them.  The unions among the plain nodes have members when those in the
    descriptor have. -/
theorem each_build {n : Naming} {d : Descriptor} {o : PropertyOptions}
    (hplain : ∀ s, s.IsPlain → (d.Populated → s.Populated) → Q s)
    (h : ∀ name ∈ d.names, (n.target name o).Each Q) : (d.build n o).Each Q := by
  induction d using induction_parts generalizing o with
  | scalar kind =>
    exact Schema.each_leaf.2 (hplain _ ⟨rfl, rfl, rfl⟩ fun _ =>
      Schema.populated_of_kind_ne (by cases kind <;> rintro ⟨⟩))
  | array item ih =>
    have hchild : (array item).Populated → item.Populated := fun hd =>
      hd.child (List.mem_singleton_self item)
    have hitem : (item.build n o.forPart).Each Q :=
      ih (o := o.forPart) (fun s hs hd => hplain s hs fun h => hd (hchild h)) h
    rw [build, Schema.each_node_iff]
    exact ⟨hplain _ ⟨rfl, rfl, rfl⟩ fun _ => Schema.populated_of_kind_ne (by rintro ⟨⟩),
      by simpa using hitem, by simp, by simp, by simp⟩
  | map value ih =>
    have hchild : (map value).Populated → value.Populated := fun hd =>
      hd.child (List.mem_singleton_self value)
    have hvalue : (value.build n o.forPart).Each Q :=
      ih (o := o.forPart) (fun s hs hd => hplain s hs fun h => hd (hchild h)) h
    rw [build, Schema.each_node_iff]
    exact ⟨hplain _ ⟨rfl, rfl, rfl⟩ fun _ => Schema.populated_of_kind_ne (by rintro ⟨⟩), by simp,
      by simpa using hvalue, by simp, by simp⟩
  | union members ih =>
    rw [build, Schema.each_node_iff]
    refine ⟨hplain _ ⟨rfl, rfl, rfl⟩ fun hd _ => ?_, by simp, by simp, fun s hs => ?_, by simp⟩
    · -- Dropping equal members leaves the first one.
      have hmembers : members ≠ [] := (populated_iff.1 hd).1 members rfl
      rw [Schema.members_node, Option.getD_some, buildAll_eq]
      exact Schema.distinct_ne_nil (by simpa using hmembers)
    · rw [Option.getD_some, buildAll_eq] at hs
      obtain ⟨m, hm, rfl⟩ := List.mem_map.1 (mem_of_mem_distinct hs)
      have hchild : (union members).Populated → m.Populated := fun hd => hd.child hm
      exact ih m hm (o := o.forPart) (fun s hs hd => hplain s hs fun h => hd (hchild h))
        fun name hname => h name (mem_names_union.2 ⟨m, hm, hname⟩)
  | named name =>
    have htarget : (n.target name o).Each Q := h name (by simp [names])
    refine Assembly.each_wrap (hplain _ ⟨rfl, rfl, rfl⟩ fun _ _ => ?_) htarget
    exact List.cons_ne_nil _ _
  | raw w =>
    exact Schema.each_reference.2 (hplain _ trivial fun _ => Schema.populated_of_isUnion_eq_false rfl)

end Descriptor

namespace Assembly

variable {a : Assembly}

/-- What stands for a name is the schema of a finished shape or a reference. -/
theorem each_target (hreference : ∀ path, Q (.reference path))
    (hshape : ∀ name t, a.shape? name = some t → t.schema.Each Q) (name : String)
    (o : PropertyOptions) : (a.naming.target name o).Each Q := by
  unfold Naming.target
  split
  · show (((a.shape? name).map Shape.schema).getD default).Each Q
    cases ht : a.shape? name with
    | none => exact Schema.each_reference.2 (hreference "")
    | some t => exact hshape name t ht
  · exact Schema.each_reference.2 (hreference _)

/-- What holds of plain nodes and of the shapes that names lead to holds of a schema that is
    built. -/
theorem each_build {d : Descriptor} (hplain : ∀ s, s.IsPlain → (d.Populated → s.Populated) → Q s)
    (hshape : ∀ name t, a.shape? name = some t → t.schema.Each Q) (o : PropertyOptions) :
    (d.build a.naming o).Each Q := by
  refine Descriptor.each_build hplain fun name _ => each_target (fun path => ?_) hshape name o
  exact hplain _ trivial fun _ => Schema.populated_of_isUnion_eq_false rfl

end Assembly

/-! ### Parts of finished shapes -/

variable {c : Catalog}

/-- What holds of plain nodes and of the shapes of the catalog holds of the schema that is built for
    a type shape. -/
theorem TypeArguments.each_built_of_plain (args : TypeArguments)
    (hplain : ∀ s, s.IsPlain → (args.descriptor.Populated → s.Populated) → Q s)
    (hc : ∀ t ∈ c.definitions, t.schema.Each Q) : (args.built c).Each Q :=
  Assembly.each_build hplain (fun _ t ht => hc t (Assembly.mem_of_shape? rfl ht)) _

/-- Every union in what the arguments declare has a member. -/
structure ObjectArguments.Populated (args : ObjectArguments) : Prop where
  own : ∀ spec ∈ args.own, spec.descriptor.Populated
  additional : ∀ e, args.additional = some e → e.1.Populated

/-- What holds of plain nodes, of the shapes of the catalog and of what is taken over holds of the
    parts of an object shape. -/
theorem ObjectArguments.each_child_of_plain (args : ObjectArguments)
    (hplain : ∀ s, s.IsPlain → (args.Populated → s.Populated) → Q s)
    (hc : ∀ t ∈ c.definitions, t.schema.Each Q)
    (hparent : ∀ p, args.parent = some p → ∀ m ∈ p.schema.children, m.Each Q) :
    ∀ m ∈ (args.schema c).children, m.Each Q := by
  have hbuilt : ∀ (d : Descriptor) (o : PropertyOptions), (args.Populated → d.Populated) →
      (d.build (args.assembly c).naming o).Each Q := fun d o hd =>
    Assembly.each_build (fun s hs hs' => hplain s hs fun h => hs' (hd h))
      (fun _ t ht => hc t (Assembly.mem_of_shape? rfl ht)) o
  intro m hm
  simp only [schema, Assembly.objectBuilt_eq, Schema.children, Option.toList_none, List.nil_append,
    Option.getD_none, List.append_nil, List.mem_append, Option.getD_some, List.mem_map] at hm
  rcases hm with hm | ⟨p, hp, rfl⟩
  · obtain ⟨e, he, rfl⟩ := Option.map_eq_some_iff.1 (Option.mem_toList.1 hm)
    exact hbuilt e.1 e.2 fun h => h.additional e he
  · rcases Inheritance.mem_merge hp with hp | hp
    · -- The property is one of the extended shape.
      cases hpar : args.parent with
      | none => simp [hpar] at hp
      | some q =>
        simp only [hpar, Option.map_some, Option.getD_some] at hp
        exact hparent q hpar p.2 (Schema.mem_children_of_mem_properties hp)
    · obtain ⟨spec, hspec, rfl⟩ := List.mem_map.1 hp
      exact hbuilt spec.descriptor spec.options fun h => h.own spec hspec

namespace Catalog

/-- What holds of plain nodes, of the shapes of the catalog and of the parts of what is extended
    holds of the parts of a shape that a definition ends with. -/
theorem Finishes.each_child {parents : Shape → Prop} {s : Shape} (h : c.Finishes parents s)
    (hplain : ∀ n, n.IsPlain → Q n) (hc : ∀ t ∈ c.definitions, t.schema.Each Q)
    (hparent : ∀ p, parents p → ∀ m ∈ p.schema.children, m.Each Q) :
    ∀ m ∈ s.schema.children, m.Each Q := by
  cases h with
  | type args t _ _ _ _ =>
    have hbuilt : (args.built c).Each Q := args.each_built_of_plain (fun n hn _ => hplain n hn) hc
    intro m hm
    change m ∈ (args.schema c).children at hm
    rcases args.schema_cases c with heq | ⟨f, ps, i, a, ms, hs, heq, -⟩
    · -- The schema that was built is the only part.
      rw [heq] at hm
      have hbuilt' : m = args.built c := by simpa [Schema.children] using hm
      exact hbuilt' ▸ hbuilt
    · rw [heq] at hm
      rw [hs] at hbuilt
      exact hbuilt.child hm
  | object args t _ _ hpar _ _ =>
    exact args.each_child_of_plain (fun n hn _ => hplain n hn) hc fun p hp => hparent p (hpar p hp).1

end Catalog

/-! ### Parts of signatures -/

/-- The type of a field is a part of the signature of the extended shape, or it is read off the
    schema of the property. -/
theorem TypeExpr.each_fieldType {Q : TypeExpr → Prop} {r : Registry} {parent : Option Shape}
    {p : String × Schema} {u : TypeExpr} (hparent : ∀ q, parent = some q → q.signature.Each Q)
    (hread : TypeExpr.ofNormalForm r p.2 = .ok u → u.Each Q)
    (h : TypeExpr.fieldType r (parent.map Shape.inherited) p = .ok u) : u.Each Q := by
  unfold TypeExpr.fieldType at h
  split at h
  · rename_i type hreuse
    cases Except.ok.inj h
    obtain ⟨inherited, hinherited, hreuse⟩ := Option.bind_eq_some_iff.1 hreuse
    obtain ⟨q, hq, rfl⟩ := Option.map_eq_some_iff.1 hinherited
    obtain ⟨record, field, _, hrecord, hfield, _, _, rfl⟩ := TypeExpr.reuse?_eq_some_iff.1 hreuse
    exact (hparent q hq).field hrecord (List.mem_of_find?_eq_some hfield)
  · exact hread h

/-- What holds of what is read off the schema of a finished shape, and of what it takes over, holds
    of all parts of its signature. -/
theorem Catalog.Finishes.each_signature {Q : TypeExpr → Prop} {parents : Shape → Prop} {s : Shape}
    (h : c.Finishes parents s) (hparent : ∀ p, parents p → p.signature.Each Q)
    (htype : s.isObject = false → ∀ u, TypeExpr.ofNormalForm s.registry s.schema = .ok u → u.Each Q)
    (hobject : s.isObject = true → ∀ n ∈ s.schema.children, ∀ u,
      TypeExpr.ofNormalForm s.registry n = .ok u → u.Each Q)
    (hrecord : ∀ fields rep extra, Q (.record (some s.name) fields rep extra))
    (hunion : ∀ fields rep extra, Q (.union [.record (some s.name) fields rep extra, .none]))
    (hnone : Q .none) : s.signature.Each Q := by
  cases h with
  | type args t _ _ _ ht => exact htype rfl t ht
  | object args t hname _ hpar _ ht =>
    refine TypeExpr.each_ofObject hname ht hrecord hunion hnone (fun p hp u hu => ?_)
      fun value u ha hu => hobject rfl value (args.mem_children_of_additional ha) u hu
    -- A field has the type of the extended shape or the one that the node reads as.
    refine TypeExpr.each_fieldType (fun q hq => hparent q (hpar q hq).1) (fun hu => ?_) hu
    exact hobject rfl p.2 (Schema.mem_children_of_mem_properties hp) u hu

end DataShapes
