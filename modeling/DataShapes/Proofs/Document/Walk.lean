import DataShapes.Proofs.Catalog.Assembled
import DataShapes.Proofs.Document.References

/-!
# The walk over a written schema

The check of a document looks for references in written definitions, which are nested dictionaries
with user-chosen names and data between the keywords.  The walk is exact: in the written form of an
assembled schema it finds the references of the schema, each as often as it occurs and in the order
of the nodes, and nothing else.

Main definitions:
* `Schema.path?`: the path of a reference;
* `Catalog.Entries.entry`: a shape whose property names are keywords and whose examples look like
  references.

Main statements:
* `Document.references_eq_of_assembled`: the walk over a schema whose nodes are assembled;
* `Catalog.Reached.references_toValue_eq`: the walk over each node of the schemas of a reached
  catalog.
-/

namespace DataShapes

namespace Schema

/-- The path, of a reference. -/
def path? : Schema → Option String
  | .reference path => some path
  | .node .. => none

/-- The nodes of a node are nodes of the schema. -/
theorem mem_nodes_trans {s n m : Schema} (hn : n ∈ s.nodes) (hm : m ∈ n.nodes) : m ∈ s.nodes := by
  induction s using induction_children with
  | h s ih =>
    rcases mem_nodes_iff.1 hn with rfl | hinner
    · exact hm
    · obtain ⟨c, hc, hn⟩ := mem_innerNodes_iff.1 hinner
      exact mem_nodes_iff.2 (.inr (mem_innerNodes_iff.2 ⟨c, hc, ih c hc hn⟩))

/-- What every node of a schema has, every node of one of its nodes has. -/
theorem Each.of_mem_nodes {Q : Schema → Prop} {s n : Schema} (h : s.Each Q) (hn : n ∈ s.nodes) :
    n.Each Q := fun m hm => h m (mem_nodes_trans hn hm)

end Schema

namespace Document

/-- In a written schema whose nodes are assembled the walk finds the references of the schema, each
    as often as it occurs. -/
theorem references_eq_of_assembled {s : Schema} (h : s.Each Schema.Assembled) :
    references s.toValue = s.nodes.filterMap Schema.path? := by
  induction s using Schema.induction_children with
  | h s ih =>
    have hchild : ∀ c ∈ s.children,
        references c.toValue = c.nodes.filterMap Schema.path? := fun c hc => ih c hc (h.child hc)
    have hinner : (s.children.flatMap fun c => references c.toValue)
        = s.innerNodes.filterMap Schema.path? := by
      rw [Schema.innerNodes, List.filterMap_flatMap]
      exact List.flatMap_congr hchild
    rw [Schema.nodes_eq, List.filterMap_cons, ← hinner]
    -- Which parts are written is decided by the kind, and the kind also says which parts there are.
    cases h.self with
    | reference path =>
      simp [Schema.path?, Schema.children, Schema.toValue, Value.record, references, ownReference,
        referencesUnder, referencesOfMembers, referencesOfProperties, Value.str_beq]
    | object hkind _ =>
      rw [references_toValue (by simp [hkind])]
      simp [hkind, Schema.path?, Schema.children, List.flatMap_map]
    | array hkind _ _ =>
      rw [references_toValue (by simp [hkind])]
      simp [hkind, Schema.path?, Schema.children]
    | union hkind _ _ =>
      rw [references_toValue (by simp [hkind])]
      simp [hkind, Schema.path?, Schema.children]
    | scalar hkind _ _ =>
      rw [references_toValue h.self.kind_ne_null]
      simp [Schema.path?, Schema.children]

end Document

namespace Catalog

/-- The walk over a written schema is exact.  In the written form of a node of a schema of a reached
    catalog it finds the references among the nodes of that node, in their order and each as often
    as it occurs, and nothing else, whatever the names of properties are and whatever defaults,
    examples and listed values hold. -/
theorem Reached.references_toValue_eq {c : Catalog} (hc : c.Reached) {s : Shape}
    (hs : s ∈ c.definitions) {n : Schema} (hn : n ∈ s.schema.nodes) :
    Document.references n.toValue = n.nodes.filterMap Schema.path? :=
  Document.references_eq_of_assembled ((hc.assembled s hs).of_mem_nodes hn)

/-! ### A shape with keywords for names -/

namespace Entries

/-- Data that look like a reference. -/
def lookalike : Value := Value.record [("$ref", .str "#/definitions/Nowhere")]

/-- An entry has properties whose names are keywords, and examples that look like references. -/
def entries : ObjectDeclaration where
  name := .str "Entry"
  properties :=
    [.spec ⟨"$ref", .named "Key", {}⟩, .spec ⟨"items", .array (.named "Key"), {}⟩,
     .spec ⟨"default", .scalar .string, { sample := some lookalike }⟩]
  options := [(.str "example", lookalike)]

/-- What the definition of entries says. -/
def arguments : ObjectArguments where
  name := "Entry"
  title := "Entry"
  options := { sample := some lookalike }
  specs :=
    [⟨"$ref", .named "Key", {}⟩, ⟨"items", .array (.named "Key"), {}⟩,
     ⟨"default", .scalar .string, { sample := some lookalike }⟩]
  additional := none
  parent := none

/-- The catalog of keys. -/
def started : Catalog := ({} : Catalog).add Trees.key

/-- The record of an entry. -/
def record : TypeExpr :=
  .record (some "Entry")
    [.mk "$ref" (.named "Key") true, .mk "items" (.sequence (.named "Key")) true,
     .mk "default" (.primitive .string) true]
    .fixedRecord none

/-- The shape of entries. -/
def entry : Shape := arguments.shape started record

/-- The catalog of keys and entries. -/
def catalog : Catalog := started.add entry

/-- Properties may have the names of keywords. -/
theorem accepted : arguments.Accepted started where
  names := by decide
  record := rfl
  specs := by
    intro s hs
    simp only [arguments, ObjectArguments.own, List.map_cons, List.map_nil, List.mem_cons,
      List.not_mem_nil, or_false] at hs
    rcases hs with rfl | rfl | rfl <;> rfl
  additional := by
    intro e he
    cases he
  parent := by
    intro p hp
    cases hp

/-- Such properties are fields like all others. -/
theorem signature : arguments.signature started = .ok record := by
  have hname : arguments.name ≠ "" := by decide
  refine (TypeExpr.ofObject_eq_ok_iff hname).2 ⟨_, _, TypeExpr.fieldsOf_eq_ok_iff.2
    (.cons ⟨_, ?_, rfl⟩ (.cons ⟨_, ?_, rfl⟩ (.cons ⟨_, ?_, rfl⟩ .nil))), rfl, rfl⟩
  · exact TypeExpr.ofSchema_reference_eq_ok_iff.2 ⟨"Key", rfl, rfl⟩
  · exact (TypeExpr.ofSchema_array_eq_ok_iff rfl).2
      ⟨_, _, rfl, TypeExpr.ofSchema_reference_eq_ok_iff.2 ⟨"Key", rfl, rfl⟩, rfl⟩
  · exact TypeExpr.ofSchema_scalar rfl

theorem defineObject_entries :
    (started.defineObject (fun _ => none) entries).result = .ok (catalog, entry) :=
  defineObject_eq_ok_iff.2 ⟨arguments, _, rfl, accepted, signature, rfl, rfl⟩

theorem after_entries : ({} : Catalog).after [.type Trees.keys, .object entries] = catalog := by
  have hkeys : ({} : Catalog).step (fun _ => none) (.type Trees.keys) = started := by
    rw [step, define, Trees.defineType_keys, started]
  rw [after_cons, after_cons, after_nil, hkeys, step, define, defineObject_entries]

/-- The catalog of entries is reached by two definitions. -/
theorem reachable_catalog : catalog.Reachable := ⟨"", _, after_entries.symm⟩

theorem entry_mem_definitions : entry ∈ catalog.definitions :=
  self_mem_definitions_add (by decide)

end Entries

/-- The walk over the written schema of entries finds the two references to keys, and nothing that
    only looks like one. -/
theorem Reached.references_toValue_eq_entries :
    Entries.catalog.Reached ∧ Entries.entry ∈ Entries.catalog.definitions
      ∧ Entries.entry.schema ∈ Entries.entry.schema.nodes
      ∧ Document.references Entries.entry.schema.toValue
          = ["#/definitions/Key", "#/definitions/Key"] := by
  have hc : Entries.catalog.Reached := Entries.reachable_catalog.reached
  have hself : Entries.entry.schema ∈ Entries.entry.schema.nodes :=
    Schema.mem_nodes_iff.2 (.inl rfl)
  refine ⟨hc, Entries.entry_mem_definitions, hself, ?_⟩
  rw [Reached.references_toValue_eq hc Entries.entry_mem_definitions hself]
  rfl

end Catalog

end DataShapes
