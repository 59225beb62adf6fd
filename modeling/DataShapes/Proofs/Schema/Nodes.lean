import DataShapes.Schema.Levels
import Mathlib.Data.List.Basic

/-!
# The nodes of a schema

A statement about a schema "at any depth" is a statement about its nodes: the schema itself, its
parts, their parts and so on.

Main definitions:
* `Schema.children`: the parts of a node;
* `Schema.nodes`, `Schema.innerNodes`: all nodes of a schema, with and without the schema itself;
* `Schema.Each`: a property of every node.

Main statements:
* `Schema.induction_children`: induction over a schema, with a hypothesis for each part;
* `Schema.Each.normalize`: the normal form has the properties of the schema that do not look at
  null and at members.
-/

namespace DataShapes

namespace Schema

/-- The parts of a node: its items, its other values, its members and its properties. -/
def children : Schema → List Schema
  | .reference _ => []
  | .node _ properties items additional members =>
    items.toList ++ additional.toList ++ members.getD [] ++ (properties.getD []).map Prod.snd

mutual

/-- All nodes of a schema, parts behind what they are part of. -/
def nodes : Schema → List Schema
  | .reference path => [.reference path]
  | .node f properties items additional members =>
    .node f properties items additional members
      :: (nodesOfPart items ++ nodesOfPart additional ++ nodesOfMembers members
        ++ nodesOfProperties properties)

/-- The nodes of a part. -/
def nodesOfPart : Option Schema → List Schema
  | none => []
  | some s => nodes s

/-- The nodes of members. -/
def nodesOfMembers : Option (List Schema) → List Schema
  | none => []
  | some ss => nodesOfAll ss

/-- The nodes of the schemas of a list. -/
def nodesOfAll : List Schema → List Schema
  | [] => []
  | s :: ss => nodes s ++ nodesOfAll ss

/-- The nodes of properties. -/
def nodesOfProperties : Option (List (String × Schema)) → List Schema
  | none => []
  | some ps => nodesOfEntries ps

/-- The nodes of the properties of a list. -/
def nodesOfEntries : List (String × Schema) → List Schema
  | [] => []
  | (_, s) :: ps => nodes s ++ nodesOfEntries ps

end

/-- The nodes of a schema but the schema itself. -/
def innerNodes (s : Schema) : List Schema := s.children.flatMap nodes

theorem nodesOfPart_eq (s : Option Schema) : nodesOfPart s = s.toList.flatMap nodes := by
  cases s <;> simp [nodesOfPart]

theorem nodesOfAll_eq (ss : List Schema) : nodesOfAll ss = ss.flatMap nodes := by
  induction ss with
  | nil => rfl
  | cons s ss ih => rw [nodesOfAll, ih, List.flatMap_cons]

theorem nodesOfMembers_eq (ss : Option (List Schema)) :
    nodesOfMembers ss = (ss.getD []).flatMap nodes := by
  cases ss with
  | none => rfl
  | some ss => exact nodesOfAll_eq ss

theorem nodesOfEntries_eq (ps : List (String × Schema)) :
    nodesOfEntries ps = (ps.map Prod.snd).flatMap nodes := by
  induction ps with
  | nil => rfl
  | cons p ps ih => rw [nodesOfEntries, ih, List.map_cons, List.flatMap_cons]

theorem nodesOfProperties_eq (ps : Option (List (String × Schema))) :
    nodesOfProperties ps = ((ps.getD []).map Prod.snd).flatMap nodes := by
  cases ps with
  | none => rfl
  | some ps => exact nodesOfEntries_eq ps

/-- The nodes of a schema are itself and the nodes of its parts. -/
theorem nodes_eq (s : Schema) : s.nodes = s :: s.innerNodes := by
  cases s with
  | reference path => rfl
  | node f ps i a ms =>
    rw [nodes, nodesOfPart_eq, nodesOfPart_eq, nodesOfMembers_eq, nodesOfProperties_eq, innerNodes,
      children]
    simp only [List.flatMap_append]

/-- The inner nodes of a schema are the nodes of its children. -/
theorem mem_innerNodes_iff {s n : Schema} : n ∈ s.innerNodes ↔ ∃ c ∈ s.children, n ∈ c.nodes :=
  List.mem_flatMap

/-- The nodes of a schema are itself and its inner nodes. -/
theorem mem_nodes_iff {s n : Schema} : n ∈ s.nodes ↔ n = s ∨ n ∈ s.innerNodes := by
  rw [nodes_eq, List.mem_cons]

/-- The schema of a property is a part. -/
theorem mem_children_of_mem_properties {s : Schema} {p : String × Schema} (h : p ∈ s.properties) :
    p.2 ∈ s.children := by
  cases s with
  | reference path => simp [properties] at h
  | node f ps i a ms =>
    cases ps with
    | none => simp [properties] at h
    | some ps => exact List.mem_append_right _ (List.mem_map_of_mem h)

/-- Parts are smaller. -/
theorem sizeOf_child_lt {s c : Schema} (h : c ∈ s.children) : sizeOf c < sizeOf s := by
  cases s with
  | reference path => simp [children] at h
  | node f ps i a ms =>
    simp only [children, List.mem_append, Option.mem_toList, List.mem_map] at h
    -- Items, additional properties, members and properties.
    rcases h with ((h | h) | h) | ⟨p, h, rfl⟩
    · subst h
      simp only [node.sizeOf_spec, Option.some.sizeOf_spec]
      omega
    · subst h
      simp only [node.sizeOf_spec, Option.some.sizeOf_spec]
      omega
    · exact sizeOf_member_lt h
    · cases ps with
      | none => simp at h
      | some ps =>
        have hp : sizeOf p < sizeOf ps := List.sizeOf_lt_of_mem h
        have hs : sizeOf p.2 < sizeOf p := by
          obtain ⟨name, t⟩ := p
          simp only [Prod.mk.sizeOf_spec]
          omega
        simp only [node.sizeOf_spec, Option.some.sizeOf_spec]
        omega

/-- Induction over a schema: what holds of a schema when it holds of its parts holds of all. -/
theorem induction_children {P : Schema → Prop} (h : ∀ s, (∀ c ∈ s.children, P c) → P s)
    (s : Schema) : P s :=
  h s fun c hc =>
    have : sizeOf c < sizeOf s := sizeOf_child_lt hc
    induction_children h c
termination_by sizeOf s

/-! ### Properties of every node -/

/-- Every node of the schema has the property. -/
def Each (Q : Schema → Prop) (s : Schema) : Prop := ∀ n ∈ s.nodes, Q n

/-- All nodes have a property when the schema itself does and all nodes of its children do. -/
theorem each_iff {Q : Schema → Prop} {s : Schema} :
    Each Q s ↔ Q s ∧ ∀ c ∈ s.children, Each Q c := by
  simp only [Each, nodes_eq s, List.forall_mem_cons, mem_innerNodes_iff]
  refine and_congr_right fun _ => ?_
  constructor
  · intro h c hc n hn
    exact h n ⟨c, hc, hn⟩
  · rintro h n ⟨c, hc, hn⟩
    exact h c hc n hn

theorem Each.self {Q : Schema → Prop} {s : Schema} (h : Each Q s) : Q s := (each_iff.1 h).1

theorem Each.child {Q : Schema → Prop} {s c : Schema} (h : Each Q s) (hc : c ∈ s.children) :
    Each Q c := (each_iff.1 h).2 c hc

theorem Each.mono {Q R : Schema → Prop} {s : Schema} (h : Each Q s) (hQR : ∀ n, Q n → R n) :
    Each R s := fun n hn => hQR n (h n hn)

/-- A reference has no other nodes. -/
theorem each_reference {Q : Schema → Prop} {path : String} :
    Each Q (.reference path) ↔ Q (.reference path) := by
  simp [Each, nodes]

/-- A property of every node of a node is one of the node and of each kind of part. -/
theorem each_node_iff {Q : Schema → Prop} {f : Facets} {ps : Option (List (String × Schema))}
    {i a : Option Schema} {ms : Option (List Schema)} :
    Each Q (.node f ps i a ms) ↔ Q (.node f ps i a ms) ∧ (∀ s, i = some s → Each Q s)
      ∧ (∀ s, a = some s → Each Q s) ∧ (∀ m ∈ ms.getD [], Each Q m)
      ∧ ∀ p ∈ ps.getD [], Each Q p.2 := by
  rw [each_iff]
  simp only [children, List.forall_mem_append, List.forall_mem_map, Option.mem_toList, and_assoc]

/-- Nor has a schema without parts. -/
theorem each_leaf {Q : Schema → Prop} {f : Facets} : Each Q (leaf f) ↔ Q (leaf f) := by
  rw [each_iff]
  simp [leaf, children]

/-- The other nodes of a union are those of its members. -/
theorem each_unionOf {Q : Schema → Prop} {ms : List Schema} :
    Each Q (unionOf ms) ↔ Q (unionOf ms) ∧ ∀ m ∈ ms, Each Q m := by
  rw [each_iff]
  simp [unionOf, children]

/-- The property is kept when null becomes a member and members are put into normal form. -/
structure NormalStable (Q : Schema → Prop) : Prop where
  unionOf (ms : List Schema) : Q (unionOf ms)
  absent : Q absent
  notNullable {f ps i a ms} :
    Q (.node f ps i a ms) → Q (.node { f with nullable := false } ps i a ms)
  members {f ps i a ms} (ms' : List Schema) :
    f.kind = .union → Q (.node f ps i a ms) → Q (.node f ps i a (some ms'))
  items {f ps i a ms} (i' : Schema) :
    f.kind = .array → Q (.node f ps (some i) a ms) → Q (.node f ps (some i') a ms)

/-- The flat members of a list come from the normal forms of its schemas. -/
theorem mem_flattenAll {ss : List Schema} {t : Schema} :
    t ∈ flattenAll ss ↔ ∃ s ∈ ss, t ∈ flatten (normalize s) := by
  induction ss with
  | nil => simp [flattenAll]
  | cons s ss ih => simp [flattenAll, ih]

/-- So do those of a union. -/
theorem mem_flattenMembers {ms : Option (List Schema)} {t : Schema} :
    t ∈ flattenMembers ms ↔ ∃ s ∈ ms.getD [], t ∈ flatten (normalize s) := by
  cases ms with
  | none => simp [flattenMembers]
  | some ss => exact mem_flattenAll

/-- A tidy member is one of the flat members or null. -/
theorem mem_of_mem_tidyMembers {nullable : Bool} {flat : List Schema} {t : Schema}
    (h : t ∈ tidyMembers nullable flat) : t ∈ flat ∨ t = Schema.absent := by
  rcases List.mem_append.1 h with h | h
  · exact .inl (List.mem_filter.1 (mem_of_mem_distinct h)).1
  · split at h
    · exact .inr (List.mem_singleton.1 h)
    · simp at h

/-- What all nodes of a schema have, those of its flat members have. -/
theorem Each.flatten {Q : Schema → Prop} {s t : Schema} (h : Each Q s) (ht : t ∈ flatten s) :
    Each Q t := by
  unfold Schema.flatten at ht
  split at ht
  · refine h.child ?_
    cases s with
    | reference path => simp [members] at ht
    | node f ps i a ms => cases ms <;> simp_all [members, children]
  · rw [List.mem_singleton.1 ht]
    exact h

/-- A property that normal forms keep is kept when the flag for null is taken off. -/
theorem Each.splitNull {Q : Schema → Prop} (hQ : NormalStable Q) {s : Schema} (h : Each Q s)
    (nullable : Bool) : Each Q (splitNull nullable s) := by
  cases nullable
  · exact h
  · refine each_unionOf.2 ⟨hQ.unionOf _, ?_⟩
    intro m hm
    simp only [List.mem_cons, List.not_mem_nil, or_false] at hm
    rcases hm with rfl | rfl
    · exact h
    · exact each_leaf.2 hQ.absent

/-- The nodes of a normal form have the properties that all nodes of the schema have, unless these
    look at null or at members. -/
theorem Each.normalize {Q : Schema → Prop} (hQ : NormalStable Q) {s : Schema} (h : Each Q s) :
    Each Q s.normalize := by
  induction s using induction_children with
  | h s ih =>
    cases s with
    | reference path => exact h
    | node f ps i a ms =>
      have hself := hQ.notNullable h.self
      unfold Schema.normalize
      split
      · exact h
      · rename_i hkind
        refine each_iff.2 ⟨hQ.members _ hkind hself, ?_⟩
        intro c hc
        simp only [children, Option.getD_some, List.mem_append] at hc
        rcases hc with (hc | hc) | hc
        · exact h.child (by simp only [children, List.mem_append]; exact .inl (.inl hc))
        · -- A tidy member is one of the normal forms, flattened, or the one for "no value".
          rcases mem_of_mem_tidyMembers hc with hc | rfl
          · obtain ⟨m, hm, hc⟩ := mem_flattenMembers.1 hc
            have hchild : m ∈ (node f ps i a ms).children := by
              simp only [children, List.mem_append]
              exact .inl (.inr hm)
            exact (ih m hchild (h.child hchild)).flatten hc
          · exact each_leaf.2 hQ.absent
        · exact h.child (by simp only [children, List.mem_append]; exact .inr hc)
      · rename_i hkind
        refine Each.splitNull hQ ?_ _
        cases i with
        | none => exact each_iff.2 ⟨hself, (each_iff.1 h).2⟩
        | some i =>
          refine each_iff.2 ⟨hQ.items _ hkind hself, ?_⟩
          intro c hc
          have hi : i ∈ (node f ps (some i) a ms).children := by simp [children]
          simp only [children, normalizePart, Option.toList_some, List.mem_append,
            List.mem_singleton] at hc
          rcases hc with ((rfl | hc) | hc) | hc
          · exact ih i hi (h.child hi)
          all_goals exact h.child (by simp only [children, List.mem_append]; simp [hc])
      · exact Each.splitNull hQ (each_iff.2 ⟨hself, (each_iff.1 h).2⟩) _

end Schema

end DataShapes
