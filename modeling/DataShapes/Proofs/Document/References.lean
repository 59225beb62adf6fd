import DataShapes.Document.Build
import DataShapes.Proofs.Catalog.Generation
import DataShapes.Proofs.Schema.Written
import DataShapes.Proofs.Value.Records

/-!
# References in a definitions document

The check of a document walks the written definitions for references.  What it finds in a written
schema are references of the schema, whatever the names of properties are and whatever defaults and
examples hold.  In the document of a catalog whose titles are distinct, each of them leads to the
definition of the shape that the registry means.

Main statements:
* `Document.references_toValue`: the references in a written node, part by part;
* `Catalog.Reachable.document_in_order`: no reference of a document dangles or is misdirected.
-/

namespace DataShapes

/-! ### The walk over a written node -/

namespace Document

/-- A record without the keyword is no reference itself. -/
theorem ownReference_record {es : List (String × Value)} (h : Table.get? es "$ref" = none) :
    ownReference (es.map fun e => (.str e.1, e.2)) = [] := by
  induction es with
  | nil => rfl
  | cons e es ih =>
    obtain ⟨k, v⟩ := e
    rw [Table.get?] at h
    split at h
    · cases h
    · rename_i hk
      rw [List.map_cons, ownReference, ih h]
      intro path hpath
      exact absurd (Value.str.inj (Prod.mk.inj hpath).1) hk

/-- The references under a keyword are those in its value. -/
theorem referencesUnder_record (keyword : String) (es : List (String × Value)) :
    referencesUnder keyword (es.map fun e => (.str e.1, e.2))
      = ((Table.get? es keyword).map references).getD [] := by
  induction es with
  | nil => rfl
  | cons e es ih =>
    obtain ⟨k, v⟩ := e
    rw [List.map_cons, referencesUnder, Value.str_beq, Table.get?, ih]
    by_cases h : k = keyword
    · rw [if_pos (beq_iff_eq.2 h), if_pos h, Option.map_some, Option.getD_some]
    · rw [if_neg (by simpa using h), if_neg h]

/-- The members of a union are looked through one by one. -/
theorem referencesOfMembers_record (es : List (String × Value)) :
    referencesOfMembers (es.map fun e => (.str e.1, e.2))
      = match Table.get? es "oneOf" with
        | some (.list vs) | some (.tuple vs) => referencesOfAll vs
        | _ => [] := by
  induction es with
  | nil => rfl
  | cons e es ih =>
    obtain ⟨k, v⟩ := e
    rw [Table.get?]
    by_cases h : k = "oneOf"
    · cases v <;> simp [referencesOfMembers, Value.str_beq, h]
    · cases v <;> simp [referencesOfMembers, Value.str_beq, h, ih]

/-- The properties are looked through one by one, whatever their names are. -/
theorem referencesOfProperties_record (es : List (String × Value)) :
    referencesOfProperties (es.map fun e => (.str e.1, e.2))
      = match Table.get? es "properties" with
        | some (.dict properties) => referencesOfValues properties
        | _ => [] := by
  induction es with
  | nil => rfl
  | cons e es ih =>
    obtain ⟨k, v⟩ := e
    rw [Table.get?]
    by_cases h : k = "properties"
    · cases v <;> simp [referencesOfProperties, Value.str_beq, h]
    · cases v <;> simp [referencesOfProperties, Value.str_beq, h, ih]

theorem referencesOfAll_eq (vs : List Value) : referencesOfAll vs = vs.flatMap references := by
  induction vs with
  | nil => rfl
  | cons v vs ih => rw [referencesOfAll, ih, List.flatMap_cons]

theorem referencesOfValues_record (es : List (String × Value)) :
    referencesOfValues (es.map fun e => (.str e.1, e.2)) = es.flatMap fun e => references e.2 := by
  induction es with
  | nil => rfl
  | cons e es ih => rw [List.map_cons, referencesOfValues, ih, List.flatMap_cons]

/-- The references in a written node are those of its items, its other values, its members and its
    properties, as far as the kind of the node has them. -/
theorem references_toValue {f : Facets} {ps : Option (List (String × Schema))} {i a : Option Schema}
    {ms : Option (List Schema)} (h : f.kind ≠ .null) :
    references (Schema.toValue (.node f ps i a ms))
      = i.toList.flatMap (fun s => references s.toValue)
        ++ (if f.kind = .object then a.toList.flatMap (fun s => references s.toValue) else [])
        ++ (if f.kind = .union then (ms.getD []).flatMap (fun s => references s.toValue) else [])
        ++ (if f.kind = .object then
              (ps.getD []).flatMap (fun p => references p.2.toValue) else []) := by
  -- A part that is missing writes no keyword and holds no reference.
  have hpart : ∀ s : Option Schema, ((Schema.partToValue s).map references).getD []
      = s.toList.flatMap fun s => references s.toValue := by
    intro s
    cases s <;> simp [Schema.partToValue]
  have href : Table.get? (Schema.keywords f ps i a ms) "$ref" = none := by
    rw [Schema.get?_keywords]
    simp
  have hitems : Table.get? (Schema.keywords f ps i a ms) "items" = Schema.partToValue i := by
    rw [Schema.get?_keywords]
    simp
  have hadditional : ((Table.get? (Schema.keywords f ps i a ms) "additionalProperties").map
      references).getD [] = if f.kind = .object then
        a.toList.flatMap (fun s => references s.toValue) else [] := by
    rw [Schema.get?_keywords, ← hpart a]
    by_cases hkind : f.kind = .object <;> simp [hkind]
  have hmembers : referencesOfMembers ((Schema.keywords f ps i a ms).map fun e => (.str e.1, e.2))
      = if f.kind = .union then
          (ms.getD []).flatMap (fun s => references s.toValue) else [] := by
    rw [referencesOfMembers_record, Schema.get?_keywords]
    by_cases hkind : f.kind = .union
    · cases ms <;> simp [hkind, Schema.membersToValues, referencesOfAll_eq, Schema.toValues_eq,
        List.flatMap_map]
    · simp [hkind]
  have hproperties : referencesOfProperties
      ((Schema.keywords f ps i a ms).map fun e => (.str e.1, e.2))
      = if f.kind = .object then
          (ps.getD []).flatMap (fun p => references p.2.toValue) else [] := by
    rw [referencesOfProperties_record, Schema.get?_keywords]
    by_cases hkind : f.kind = .object
    · cases ps <;> simp [hkind, Value.record, Schema.propertiesToEntries, referencesOfValues_record,
        Schema.propertyEntries_eq, List.flatMap_map, referencesOfValues, -List.map_map]
    · simp [hkind]
  -- The keywords of a node are looked up one by one, in the order of the walk.
  rw [Schema.toValue_node h, Value.record, references, ownReference_record href,
    referencesUnder_record, referencesUnder_record, hitems, hpart, hadditional, hmembers,
    hproperties, List.nil_append]

/-- What the walk over a written schema finds are references of the schema. -/
theorem mem_nodes_of_mem_references {s : Schema} {path : String}
    (h : path ∈ references s.toValue) : .reference path ∈ s.nodes := by
  induction s using Schema.induction_children with
  | h s ih =>
    rw [Schema.mem_nodes_iff]
    cases s with
    | reference p =>
      have hpath : path = p := by
        simpa [Schema.toValue, Value.record, references, ownReference, referencesUnder,
          referencesOfMembers, referencesOfProperties, Value.str_beq] using h
      exact .inl (by rw [hpath])
    | node f ps i a ms =>
      by_cases hkind : f.kind = .null
      · -- A node that stands for no value is written without its parts.
        exfalso
        simp [Schema.toValue, hkind, Value.record, references, ownReference, referencesUnder,
          referencesOfMembers, referencesOfProperties, Value.str_beq] at h
      · right
        rw [references_toValue hkind] at h
        have hchild : ∀ c ∈ (Schema.node f ps i a ms).children, path ∈ references c.toValue →
            .reference path ∈ (Schema.node f ps i a ms).innerNodes := fun c hc hpath =>
          Schema.mem_innerNodes_iff.2 ⟨c, hc, ih c hc hpath⟩
        simp only [Schema.children, List.mem_append] at hchild
        simp only [List.mem_append, List.mem_flatMap] at h
        rcases h with ((⟨c, hc, hpath⟩ | h) | h) | h
        · exact hchild c (.inl (.inl (.inl hc))) hpath
        · split at h
          · obtain ⟨c, hc, hpath⟩ := List.mem_flatMap.1 h
            exact hchild c (.inl (.inl (.inr hc))) hpath
          · simp at h
        · split at h
          · obtain ⟨c, hc, hpath⟩ := List.mem_flatMap.1 h
            exact hchild c (.inl (.inr hc)) hpath
          · simp at h
        · split at h
          · obtain ⟨p, hp, hpath⟩ := List.mem_flatMap.1 h
            exact hchild p.2 (.inr (List.mem_map_of_mem hp)) hpath
          · simp at h

/-! ### The document of a catalog -/

/-- The definitions of shapes with distinct titles that are not defined yet. -/
theorem definitionsFrom_eq_ok {defined : Table Value} {shapes : List Shape}
    (hnew : ∀ s ∈ shapes, s.title ∉ defined.keys) (hdistinct : (shapes.map Shape.title).Nodup) :
    definitionsFrom defined shapes
      = .ok (defined ++ shapes.map fun s => (s.title, s.schema.toValue)) := by
  induction shapes generalizing defined with
  | nil => simp [definitionsFrom]
  | cons s shapes ih =>
    rw [List.map_cons, List.nodup_cons] at hdistinct
    have hs : ¬ defined.contains s.title = true := by
      rw [Table.contains, ← Table.mem_keys_iff]
      exact hnew s List.mem_cons_self
    rw [definitionsFrom, if_neg hs, ih ?_ hdistinct.2]
    · simp
    · -- What is already defined now includes the first title, which is not repeated.
      intro t ht hmem
      simp only [Table.keys, List.map_append, List.map_cons, List.map_nil, List.mem_append,
        List.mem_singleton] at hmem
      rcases hmem with hmem | hmem
      · exact hnew t (List.mem_cons_of_mem _ ht) hmem
      · exact hdistinct.1 (hmem ▸ List.mem_map_of_mem ht)

/-- The written schemas of a catalog under the titles of the shapes. -/
def entries (c : Catalog) : Table Value := c.definitions.map fun s => (s.title, s.schema.toValue)

/-- Definitions are listed under their titles when these are distinct. -/
theorem definitions_eq_ok {c : Catalog} (h : (c.definitions.map Shape.title).Nodup) :
    definitions c = .ok (entries c) :=
  definitionsFrom_eq_ok (by simp [Table.keys]) h

/-- They stand in the order of the shapes. -/
theorem keys_entries (c : Catalog) : (entries c).keys = c.definitions.map Shape.title := by
  simp [entries, Table.keys]

/-- The definition under the title of a shape is its written schema. -/
theorem get?_entries {c : Catalog} (h : (c.definitions.map Shape.title).Nodup) {s : Shape}
    (hs : s ∈ c.definitions) : (entries c).get? s.title = some s.schema.toValue := by
  rw [Table.get?_eq_some_iff (by rwa [keys_entries])]
  exact List.mem_map_of_mem hs

/-- A reference is defined when its title is. -/
theorem isDefined_of_mem {es : Table Value} {title : String} (h : title ∈ es.keys) :
    isDefined (es.map fun e => (.str e.1, e.2)) (Schema.definitionsPath ++ title) = true := by
  rw [isDefined, referredTitle?_append, Option.any_some, Value.lookup_record]
  exact (Table.mem_keys_iff es title).1 h

/-- The check of a definition fails with a dangling reference only when the definition holds it. -/
theorem dangling_of_checkDefinition {definitions : List (Value × Value)} {name title path : String}
    {v : Value} (h : checkDefinition definitions name v = .error (.danglingReference title path)) :
    path ∈ references v ∧ isDefined definitions path = false := by
  unfold checkDefinition at h
  split at h
  · cases h
  · split at h
    · rename_i found hfind
      cases Except.error.inj h
      refine ⟨List.mem_of_find?_eq_some hfind, ?_⟩
      simpa using List.find?_some hfind
    · cases h

/-- The check of a document fails with a dangling reference only when there is one. -/
theorem exists_of_check_eq_dangling {time title path : String} {es : Table Value}
    (h : check (ofDefinitions time es) = .error (.danglingReference title path)) :
    ∃ e ∈ es, path ∈ references e.2
      ∧ isDefined (es.map fun e => (.str e.1, e.2)) path = false := by
  have hget : (ofDefinitions time es).get? "definitions" = some (Value.record es) := by
    rw [ofDefinitions, Value.record, Value.get?, Value.lookup_record]
    simp [Table.get?]
  -- The definitions are checked in order, always against the whole document.
  have hforM : ∀ fs : Table Value, (fs.map fun e => (Value.str e.1, e.2)).forM (fun e =>
      checkDefinition (es.map fun e => (.str e.1, e.2)) e.1.text e.2)
        = .error (.danglingReference title path) →
      ∃ e ∈ fs, path ∈ references e.2
        ∧ isDefined (es.map fun e => (.str e.1, e.2)) path = false := by
    intro fs hfs
    induction fs with
    | nil => cases hfs
    | cons e fs ih =>
      rw [List.map_cons, List.forM] at hfs
      cases hcheck : checkDefinition (es.map fun e => (.str e.1, e.2)) (Value.str e.1).text e.2 with
      | ok u =>
        rw [hcheck] at hfs
        obtain ⟨e', he', h⟩ := ih hfs
        exact ⟨e', List.mem_cons_of_mem _ he', h⟩
      | error p =>
        rw [hcheck] at hfs
        cases Except.error.inj hfs
        exact ⟨e, List.mem_cons_self, dangling_of_checkDefinition hcheck⟩
  rw [check, hget] at h
  exact hforM es h

end Document

namespace Catalog

/-- In a catalog without others, the reference of a schema leads to the shape that the registry
    means, and the title in it is the title of that shape. -/
theorem Reachable.resolves {c : Catalog} (hc : c.Reachable) {s : Shape} (hs : s ∈ c.definitions)
    {path : String} (hpath : .reference path ∈ s.schema.nodes) :
    ∃ t ∈ c.definitions, path = Schema.definitionsPath ++ t.title
      ∧ s.registry.resolve path = some t.name ∧ c.get t.name = .ok t := by
  have hcovered := hc.reached.covered s hs
  -- The root of the schema of a shape is no reference.
  have hinner : .reference path ∈ s.schema.innerNodes := by
    rcases Schema.mem_nodes_iff.1 hpath with hroot | hinner
    · obtain ⟨f, ps, i, a, ms, heq, -⟩ := hcovered.node
      rw [heq] at hroot
      cases hroot
    · exact hinner
  obtain ⟨unit, hunit⟩ := Option.isSome_iff_exists.1 (hcovered.covers hinner)
  obtain ⟨title, hpath', t, ht, rfl, rfl⟩ :=
    (hc.explains s hs).entries (Table.mem_of_get? hunit)
  have hget : c.shapes.get? t.name = some t := hc.reached.wellNamed.get?_eq_some_iff.2 ⟨ht, rfl⟩
  exact ⟨t, ht, hpath', hunit, by rw [get, hget]⟩

/-- No reference of a document dangles or is misdirected.  A catalog without others whose titles
    are distinct has a document; each reference that the check of the document walks leads to a
    definition, so the check never finds one that dangles; and the definition that a reference of a
    schema leads to is the written schema of the shape that the registry means. -/
theorem Reachable.document_in_order {c : Catalog} (hc : c.Reachable)
    (htitles : (c.definitions.map Shape.title).Nodup) (time : String) :
    ∃ entries : Table Value,
      Document.build time c = .ok (Document.ofDefinitions time entries)
      ∧ (∀ e ∈ entries, ∀ path ∈ Document.references e.2,
          ∃ title ∈ entries.keys, path = Schema.definitionsPath ++ title)
      ∧ (∀ title path, Document.check (Document.ofDefinitions time entries)
          ≠ .error (.danglingReference title path))
      ∧ ∀ s ∈ c.definitions, ∀ path, .reference path ∈ s.schema.nodes →
          ∃ title unit t, path = Schema.definitionsPath ++ title
            ∧ s.registry.resolve path = some unit ∧ c.get unit = .ok t
            ∧ entries.get? title = some t.schema.toValue := by
  have hwalk : ∀ e ∈ Document.entries c, ∀ path ∈ Document.references e.2,
      ∃ title ∈ (Document.entries c).keys, path = Schema.definitionsPath ++ title := by
    intro e he path hpath
    obtain ⟨s, hs, rfl⟩ := List.mem_map.1 he
    obtain ⟨t, ht, rfl, -⟩ := hc.resolves hs (Document.mem_nodes_of_mem_references hpath)
    refine ⟨t.title, ?_, rfl⟩
    rw [Document.keys_entries]
    exact List.mem_map_of_mem ht
  refine ⟨Document.entries c, ?_, hwalk, ?_, ?_⟩
  · rw [Document.build, Document.definitions_eq_ok htitles]
    rfl
  · -- A reference that dangles would have been walked.
    intro title path hdangling
    obtain ⟨e, he, hpath, hundefined⟩ := Document.exists_of_check_eq_dangling hdangling
    obtain ⟨title', htitle', rfl⟩ := hwalk e he path hpath
    rw [Document.isDefined_of_mem htitle'] at hundefined
    cases hundefined
  · intro s hs path hpath
    obtain ⟨t, ht, hpath, hresolve, hget⟩ := hc.resolves hs hpath
    exact ⟨t.title, t.name, t, hpath, hresolve, hget, Document.get?_entries htitles ht⟩

/-- In the document of keys and paths the reference to keys leads to keys. -/
theorem Reachable.document_in_order_paths :
    ∃ (c : Catalog) (entries : Table Value), c = (({} : Catalog).add Trees.key).add Trees.path
      ∧ Document.build "now" c = .ok (Document.ofDefinitions "now" entries)
      ∧ (∀ title path, Document.check (Document.ofDefinitions "now" entries)
          ≠ .error (.danglingReference title path))
      ∧ ∃ title unit t, "#/definitions/Key" = Schema.definitionsPath ++ title
          ∧ Trees.path.registry.resolve "#/definitions/Key" = some unit ∧ c.get unit = .ok t
          ∧ entries.get? title = some t.schema.toValue := by
  have hreachable : ((({} : Catalog).add Trees.key).add Trees.path).Reachable :=
    ⟨"", _, Trees.after_paths.symm⟩
  obtain ⟨entries, hbuild, -, hcheck, hregistry⟩ :=
    Reachable.document_in_order hreachable (by decide) "now"
  refine ⟨_, entries, rfl, hbuild, hcheck, hregistry Trees.path ?_ _ ?_⟩
  · exact .tail _ (.head _)
  · exact .tail _ (.head _)

end Catalog

end DataShapes
