import DataShapes.Proofs.Schema.Nodes
import DataShapes.Proofs.Table
import DataShapes.Proofs.Value.Equality
import Mathlib.Data.List.Nodup
import Mathlib.Data.List.Perm.Subperm

/-!
# Equality of schemas is an equivalence

Equal schemas have equal values among their keywords and equal parts, where the order of properties does
not count.  When no property occurs twice, tables of properties are equal as soon as look-ups in them give
equal schemas, and then equality of schemas is an equivalence.

Main definitions:
* `Schema.DistinctKeys`: no property of a node occurs twice;
* `Schema.Same`: schemas in which no property occurs twice are equal;
* `Schema.Contents`: what a node is made of.

Main statements:
* `Schema.get?_of_equalProperties`: equal tables of properties by look-ups;
* `Schema.same_toSchema_iff`: nodes are equal when their contents are;
* `Schema.equivAt`: equality of schemas is an equivalence.
-/

namespace DataShapes

/-! ### Optional items -/

section Optional

variable {α β : Type} {R : α → β → Prop} {x : Option α} {y : Option β}

/-- Of related optional items, both are missing or none is. -/
theorem eq_none_iff_of_rel (h : Option.Rel R x y) : x = none ↔ y = none := by
  cases h with
  | none => exact iff_of_true rfl rfl
  | some => simp

/-- Of related optional items, both are missing, or what holds of one of them holds of the other. -/
theorem exists_some_iff_of_rel {p : α → Prop} {q : β → Prop} (h : Option.Rel R x y)
    (hpq : ∀ a b, x = some a → y = some b → R a b → (p a ↔ q b)) :
    (∃ a, x = some a ∧ p a) ↔ ∃ b, y = some b ∧ q b := by
  cases h with
  | none => simp
  | @some a b hab =>
    have hvalues : p a ↔ q b := hpq a b rfl rfl hab
    simp [hvalues]

/-- Tables that are related under all keys have the same keys. -/
theorem Table.mem_keys_iff_of_rel {t : Table α} {u : Table β}
    (h : ∀ k, Option.Rel R (t.get? k) (u.get? k)) (k : String) : k ∈ t.keys ↔ k ∈ u.keys := by
  have hmissing : k ∉ t.keys ↔ k ∉ u.keys := by
    rw [← Table.get?_eq_none_iff, ← Table.get?_eq_none_iff]
    exact eq_none_iff_of_rel (h k)
  exact not_iff_not.1 hmissing

end Optional

/-! ### Keywords -/

/-- Equality of plain keywords, as a relation. -/
def Facets.Same (f g : Facets) : Prop := f.equal g = true

/-- Parts that may be missing are equal when both are missing or both are there and equal. -/
theorem equalOptional_iff {α : Type} {equal : α → α → Bool} {x y : Option α} :
    equalOptional equal x y = true ↔ Option.Rel (fun a b => equal a b = true) x y := by
  cases x <;> cases y <;> simp [equalOptional, Option.rel_some_some]

/-- Equality of plain keywords is an equivalence. -/
theorem Facets.equivAt (f : Facets) : EquivAt Facets.Same f := by
  have hvalue : ∀ o : Option Value, EquivAt (fun x y => equalOptional Value.equal x y = true) o := by
    intro o
    simp only [equalOptional_iff]
    exact EquivAt.option fun v _ => v.equivAt
  have hvalues : ∀ o : Option (List Value),
      EquivAt (fun x y => equalOptional Value.equalLists x y = true) o := by
    intro o
    simp only [equalOptional_iff, Value.equalLists_iff]
    exact EquivAt.option fun vs _ => EquivAt.forall₂ fun v _ => v.equivAt
  have hkind : EquivAt (fun f g : Facets => f.kind = g.kind) f := (EquivAt.eq f.kind).comap
  have htitle : EquivAt (fun f g : Facets => f.title = g.title) f := (EquivAt.eq f.title).comap
  have hnullable : EquivAt (fun f g : Facets => f.nullable = g.nullable) f :=
    (EquivAt.eq f.nullable).comap
  have hrequired : EquivAt (fun f g : Facets => f.required = g.required) f :=
    (EquivAt.eq f.required).comap
  have hrepresentation : EquivAt (fun f g : Facets => f.representation = g.representation) f :=
    (EquivAt.eq f.representation).comap
  -- The keywords are compared one by one; equivalences are closed under conjunction.
  have hplain := ((hkind.and htitle).and hnullable).and hrequired
  have hgiven := ((hplain.and (hvalue f.default).comap).and (hvalues f.enumeration).comap).and
    (hvalue f.pattern).comap
  have htold := ((hgiven.and (hvalue f.format).comap).and (hvalue f.description).comap).and
    (hvalue f.sample).comap
  unfold Facets.Same Facets.equal
  simp only [Bool.and_eq_true, beq_iff_eq]
  exact htold.and hrepresentation

namespace Schema

/-! ### Tables and parts -/

/-- No property of the node occurs twice. -/
def DistinctKeys : Schema → Prop
  | .reference _ => True
  | .node _ ps _ _ _ => (Table.keys (ps.getD [])).Nodup

/-- The properties of such a schema have distinct names. -/
theorem DistinctKeys.nodup_properties {s : Schema} (h : s.DistinctKeys) :
    s.properties.keys.Nodup := by
  cases s with
  | reference path => exact List.nodup_nil
  | node f ps i a ms => cases ps <;> exact h

/-- The distinctness of properties is kept by the normal form. -/
theorem normalStable_distinctKeys : NormalStable DistinctKeys where
  unionOf _ := List.nodup_nil
  absent := List.nodup_nil
  notNullable h := h
  members _ _ h := h
  items _ _ h := h

/-- What equal plain keywords agree on. -/
theorem of_equal_facets {f g : Facets} (h : f.equal g = true) :
    f.kind = g.kind ∧ f.title = g.title ∧ f.nullable = g.nullable
      ∧ f.representation = g.representation := by
  simp only [Facets.equal, Bool.and_eq_true, beq_iff_eq] at h
  tauto

/-- Properties that are within a table are found in it, with equal schemas. -/
theorem get?_of_propertiesWithin {ps qs : Table Schema} (h : propertiesWithin ps qs = true) :
    ∀ p ∈ ps, ∃ t, Table.get? qs p.1 = some t ∧ p.2.equal t = true := by
  induction ps with
  | nil => simp
  | cons p ps ih =>
    obtain ⟨name, s⟩ := p
    rw [propertiesWithin, propertyIn, Bool.and_eq_true] at h
    rw [List.forall_mem_cons]
    refine ⟨?_, ih h.2⟩
    cases ht : Table.get? qs name with
    | none => simp [ht] at h
    | some t => exact ⟨t, rfl, by simpa [ht] using h.1⟩

/-- Equal property tables have a property under a key together, with equal schemas. -/
theorem get?_of_equalProperties {ps qs : Option (List (String × Schema))}
    (h : equalProperties ps qs = true) (hps : (Table.keys (ps.getD [])).Nodup)
    (hqs : (Table.keys (qs.getD [])).Nodup) (k : String) :
    (Table.get? (ps.getD []) k = none ∧ Table.get? (qs.getD []) k = none)
      ∨ ∃ s t, Table.get? (ps.getD []) k = some s ∧ Table.get? (qs.getD []) k = some t
        ∧ s.equal t = true := by
  cases ps with
  | none =>
    cases qs with
    | none => exact .inl ⟨rfl, rfl⟩
    | some qs => simp [equalProperties] at h
  | some ps =>
    cases qs with
    | none => simp [equalProperties] at h
    | some qs =>
      simp only [Option.getD_some] at hps hqs ⊢
      rw [equalProperties, Bool.and_eq_true, beq_iff_eq] at h
      obtain ⟨hlength, hwithin⟩ := h
      have hfind := get?_of_propertiesWithin hwithin
      -- As many distinct keys, all of which are keys of the other table, are all of its keys.
      have hsub : Table.keys ps ⊆ Table.keys qs := by
        intro key hkey
        obtain ⟨p, hp, rfl⟩ := List.mem_map.1 hkey
        obtain ⟨t, ht, -⟩ := hfind p hp
        rw [Table.mem_keys_iff, ht]
        rfl
      have hperm : (Table.keys ps).Perm (Table.keys qs) := by
        refine (hps.subperm hsub).perm_of_length_le ?_
        simp only [Table.keys, List.length_map]
        omega
      cases hs : Table.get? ps k with
      | none =>
        left
        rw [Table.get?_eq_none_iff, hperm.mem_iff] at hs
        exact ⟨rfl, Table.get?_eq_none_iff.2 hs⟩
      | some s =>
        obtain ⟨t, ht, heq⟩ := hfind _ (Table.mem_of_get? hs)
        exact .inr ⟨s, t, rfl, ht, heq⟩

/-- Tables without repeated keys are equal when look-ups in them give equal schemas. -/
theorem equalProperties_of_get? {ps qs : Table Schema} (hps : (Table.keys ps).Nodup)
    (hqs : (Table.keys qs).Nodup)
    (h : ∀ k, Option.Rel (fun s t => s.equal t = true) (Table.get? ps k) (Table.get? qs k)) :
    equalProperties (some ps) (some qs) = true := by
  -- The same keys, each once, are equally many.
  have hlength : ps.length = qs.length := by
    have hperm : (Table.keys ps).Perm (Table.keys qs) :=
      (List.perm_ext_iff_of_nodup hps hqs).2 (Table.mem_keys_iff_of_rel h)
    simpa [Table.keys] using hperm.length_eq
  have hwithin : ∀ rs : Table Schema, (∀ p ∈ rs, ∃ t, Table.get? qs p.1 = some t
      ∧ p.2.equal t = true) → propertiesWithin rs qs = true := by
    intro rs hrs
    induction rs with
    | nil => rfl
    | cons p rs ih =>
      obtain ⟨name, s⟩ := p
      obtain ⟨⟨t, ht, hst⟩, hrest⟩ := List.forall_mem_cons.1 hrs
      rw [propertiesWithin, propertyIn, ht, Bool.and_eq_true]
      exact ⟨hst, ih hrest⟩
  rw [equalProperties, Bool.and_eq_true, beq_iff_eq]
  refine ⟨hlength, hwithin ps fun p hp => ?_⟩
  have hp' : Table.get? ps p.1 = some p.2 := (Table.get?_eq_some_iff hps).2 hp
  have hk := h p.1
  rw [hp'] at hk
  cases hk' : Table.get? qs p.1 with
  | none => simp [hk'] at hk
  | some t => exact ⟨t, rfl, by simpa [hk'] using hk⟩

/-! ### Contents of nodes -/

/-- Schemas in which no property occurs twice are equal. -/
structure Same (s t : Schema) : Prop where
  left : s.Each DistinctKeys
  right : t.Each DistinctKeys
  equal : s.equal t = true

/-- Schemas are the same when they are equal and no part of either has a property twice. -/
theorem same_iff {s t : Schema} :
    Same s t ↔ s.Each DistinctKeys ∧ t.Each DistinctKeys ∧ s.equal t = true := by
  constructor
  · rintro ⟨hs, ht, heq⟩
    exact ⟨hs, ht, heq⟩
  · rintro ⟨hs, ht, heq⟩
    exact ⟨hs, ht, heq⟩

/-- References are the same when they lead to the same path. -/
theorem same_reference_iff {path : String} {t : Schema} :
    Same (.reference path) t ↔ ∃ other, t = .reference other ∧ path = other := by
  have heach : ∀ other, (reference other).Each DistinctKeys := fun _ => each_reference.2 trivial
  rw [same_iff]
  cases t with
  | reference other => simp [heach, Schema.equal, @eq_comm _ other]
  | node f ps i a ms => simp [Schema.equal]

/-- Lists of schemas are the same when they are equal, one by one. -/
theorem forall₂_same_iff {ss ts : List Schema} :
    List.Forall₂ Same ss ts ↔ (∀ s ∈ ss, s.Each DistinctKeys) ∧ (∀ t ∈ ts, t.Each DistinctKeys)
      ∧ equalLists ss ts = true := by
  induction ss generalizing ts with
  | nil => cases ts <;> simp [equalLists]
  | cons s ss ih =>
    cases ts with
    | nil => simp [equalLists]
    | cons t ts =>
      rw [List.forall₂_cons, ih, same_iff, List.forall_mem_cons, List.forall_mem_cons, equalLists,
        Bool.and_eq_true]
      tauto

/-- So are parts that may be missing. -/
theorem rel_part_iff {x y : Option Schema} :
    Option.Rel Same x y ↔ (∀ s, x = some s → s.Each DistinctKeys)
      ∧ (∀ t, y = some t → t.Each DistinctKeys) ∧ equalPart x y = true := by
  cases x <;> cases y <;> simp [equalPart, same_iff]

/-- So are the members of unions. -/
theorem rel_members_iff {ms ns : Option (List Schema)} :
    Option.Rel (List.Forall₂ Same) ms ns ↔ (∀ m ∈ ms.getD [], m.Each DistinctKeys)
      ∧ (∀ n ∈ ns.getD [], n.Each DistinctKeys) ∧ equalMembers ms ns = true := by
  cases ms <;> cases ns <;> simp [equalMembers, forall₂_same_iff]

/-- Tables without repeated keys have equal schemas under all keys. -/
def SameTable (ps qs : Table Schema) : Prop :=
  (ps.keys.Nodup ∧ qs.keys.Nodup) ∧ ∀ k, Option.Rel Same (ps.get? k) (qs.get? k)

/-- A table that is left out counts as an empty one. -/
theorem sameTable_getD {ps qs : Option (Table Schema)} (h : Option.Rel SameTable ps qs) :
    SameTable (ps.getD []) (qs.getD []) := by
  cases h with
  | none => exact ⟨⟨List.nodup_nil, List.nodup_nil⟩, fun _ => .none⟩
  | some h => exact h

/-- Of two tables that are the same both are empty or neither is. -/
theorem SameTable.eq_nil_iff {ps qs : Table Schema} (h : SameTable ps qs) : ps = [] ↔ qs = [] := by
  have hkeys : ps.keys = [] ↔ qs.keys = [] := by
    simp only [List.eq_nil_iff_forall_not_mem, Table.mem_keys_iff_of_rel h.2]
  simpa [Table.keys] using hkeys

/-- Properties are the same when they are equal, in whatever order they stand. -/
theorem rel_properties_iff {ps qs : Option (Table Schema)} :
    Option.Rel SameTable ps qs ↔
      ((ps.getD []).keys.Nodup ∧ ∀ p ∈ ps.getD [], p.2.Each DistinctKeys)
      ∧ ((qs.getD []).keys.Nodup ∧ ∀ q ∈ qs.getD [], q.2.Each DistinctKeys)
      ∧ equalProperties ps qs = true := by
  cases ps with
  | none => cases qs <;> simp [equalProperties, Table.keys]
  | some ps =>
    cases qs with
    | none => simp [equalProperties]
    | some qs =>
      rw [Option.rel_some_some, Option.getD_some, Option.getD_some]
      -- Equality looks the keys of the left table up in the right one; without repetitions that is symmetric.
      constructor
      · rintro ⟨⟨hps, hqs⟩, h⟩
        refine ⟨⟨hps, fun p hp => ?_⟩, ⟨hqs, fun q hq => ?_⟩, equalProperties_of_get? hps hqs ?_⟩
        · have hk := h p.1
          rw [(Table.get?_eq_some_iff hps).2 hp] at hk
          cases hk' : qs.get? p.1 with
          | none => simp [hk'] at hk
          | some t => exact (show Same p.2 t by simpa [hk'] using hk).left
        · have hk := h q.1
          rw [(Table.get?_eq_some_iff hqs).2 hq] at hk
          cases hk' : ps.get? q.1 with
          | none => simp [hk'] at hk
          | some s => exact (show Same s q.2 by simpa [hk'] using hk).right
        · intro k
          have hk := h k
          cases hk' : ps.get? k <;> cases hk'' : qs.get? k <;> simp_all [same_iff]
      · rintro ⟨⟨hps, hleft⟩, ⟨hqs, hright⟩, h⟩
        refine ⟨⟨hps, hqs⟩, fun k => ?_⟩
        rcases get?_of_equalProperties h hps hqs k with ⟨hp, hq⟩ | ⟨s, t, hp, hq, hst⟩
        · rw [Option.getD_some] at hp hq
          rw [hp, hq]
          exact .none
        · rw [Option.getD_some] at hp hq
          rw [hp, hq]
          exact .some ⟨hleft _ (Table.mem_of_get? hp), hright _ (Table.mem_of_get? hq), hst⟩

/-- What a node is made of. -/
structure Contents where
  facets : Facets
  properties : Option (Table Schema)
  items : Option Schema
  additional : Option Schema
  members : Option (List Schema)

namespace Contents

/-- The node that is made of the contents. -/
def toSchema (x : Contents) : Schema := .node x.facets x.properties x.items x.additional x.members

/-- Contents are equal part by part. -/
def Same (x y : Contents) : Prop :=
  x.facets.Same y.facets ∧ Option.Rel SameTable x.properties y.properties
    ∧ Option.Rel Schema.Same x.items y.items ∧ Option.Rel Schema.Same x.additional y.additional
    ∧ Option.Rel (List.Forall₂ Schema.Same) x.members y.members

end Contents

/-- Nodes are equal when their contents are. -/
theorem same_toSchema_iff {x : Contents} {t : Schema} :
    Same x.toSchema t ↔ ∃ y : Contents, t = y.toSchema ∧ x.Same y := by
  obtain ⟨f, ps, i, a, ms⟩ := x
  rw [same_iff]
  -- A reference is equal to references only.
  cases t with
  | reference path =>
    simp only [Contents.toSchema, Schema.equal, Bool.false_eq_true, and_false, false_iff]
    rintro ⟨y, hy, -⟩
    cases hy
  | node g qs j b ns =>
    have hcontents : (∃ y : Contents, Schema.node g qs j b ns = y.toSchema
        ∧ (⟨f, ps, i, a, ms⟩ : Contents).Same y)
        ↔ (⟨f, ps, i, a, ms⟩ : Contents).Same ⟨g, qs, j, b, ns⟩ := by
      constructor
      · rintro ⟨y, hy, h⟩
        cases hy
        exact h
      · intro h
        exact ⟨_, rfl, h⟩
    rw [hcontents]
    simp only [Contents.toSchema, Contents.Same, Schema.equal, Bool.and_eq_true, each_node_iff,
      rel_part_iff, rel_members_iff, rel_properties_iff, Facets.Same, DistinctKeys]
    tauto

/-- Two nodes are equal when their keywords and their parts are. -/
theorem same_node_iff {f g : Facets} {ps qs : Option (Table Schema)} {i j a b : Option Schema}
    {ms ns : Option (List Schema)} :
    Same (.node f ps i a ms) (.node g qs j b ns) ↔ f.Same g ∧ Option.Rel SameTable ps qs
      ∧ Option.Rel Same i j ∧ Option.Rel Same a b ∧ Option.Rel (List.Forall₂ Same) ms ns := by
  have hcontents : Same (⟨f, ps, i, a, ms⟩ : Contents).toSchema (.node g qs j b ns) ↔
      ∃ y : Contents, Schema.node g qs j b ns = y.toSchema
        ∧ (⟨f, ps, i, a, ms⟩ : Contents).Same y := same_toSchema_iff
  constructor
  · intro h
    obtain ⟨y, hy, hsame⟩ := hcontents.1 h
    cases hy
    exact hsame
  · intro h
    exact hcontents.2 ⟨⟨g, qs, j, b, ns⟩, rfl, h⟩

/-- What is equal to a node is a node with equal keywords and parts. -/
theorem Same.exists_node {f : Facets} {ps : Option (Table Schema)} {i a : Option Schema}
    {ms : Option (List Schema)} {t : Schema} (h : Same (.node f ps i a ms) t) :
    ∃ g qs j b ns, t = .node g qs j b ns ∧ f.Same g ∧ Option.Rel SameTable ps qs
      ∧ Option.Rel Same i j ∧ Option.Rel Same a b ∧ Option.Rel (List.Forall₂ Same) ms ns := by
  cases t with
  | reference path =>
    have hequal := h.equal
    simp [Schema.equal] at hequal
  | node g qs j b ns => exact ⟨g, qs, j, b, ns, rfl, same_node_iff.1 h⟩

/-! ### The equivalence -/

/-- Sameness of tables is an equivalence where that of their schemas is. -/
theorem equivAt_table {ps : Table Schema} (hps : ps.keys.Nodup)
    (h : ∀ p ∈ ps, EquivAt Same p.2) : EquivAt SameTable ps := by
  have hkeys : EquivAt (fun ps qs : Table Schema => ps.keys.Nodup ∧ qs.keys.Nodup) ps :=
    ⟨⟨hps, hps⟩, fun hqs rs => by simp [hps, hqs.2]⟩
  have hentries : EquivAt (fun ps qs : Table Schema => ∀ k, Option.Rel Same (ps.get? k) (qs.get? k))
      ps :=
    (EquivAt.pointwise fun k => EquivAt.option fun s hs =>
      h (k, s) (Table.mem_of_get? hs)).comap (g := fun ps : Table Schema => ps.get?)
  exact hkeys.and hentries

/-- Equality of schemas in which no property occurs twice is an equivalence. -/
theorem equivAt {s : Schema} (h : s.Each DistinctKeys) : EquivAt Same s := by
  induction s using induction_children with
  | h s ih =>
    cases s with
    | reference path => exact (EquivAt.eq path).lift fun _ _ => same_reference_iff
    | node f ps i a ms =>
      have hchild : ∀ c ∈ (node f ps i a ms).children, EquivAt Same c := fun c hc =>
        ih c hc (h.child hc)
      simp only [children, List.forall_mem_append, Option.mem_toList, List.forall_mem_map] at hchild
      obtain ⟨⟨⟨hi, ha⟩, hms⟩, hps⟩ := hchild
      have hproperties : EquivAt (Option.Rel SameTable) ps := by
        refine EquivAt.option fun qs hqs => ?_
        subst hqs
        exact equivAt_table h.self hps
      have hmembers : EquivAt (Option.Rel (List.Forall₂ Same)) ms := by
        refine EquivAt.option fun ns hns => ?_
        subst hns
        exact EquivAt.forall₂ hms
      -- The node is seen as the record of its parts, which are compared each for itself.
      let x : Contents := ⟨f, ps, i, a, ms⟩
      have hcontents : EquivAt Contents.Same x :=
        (f.equivAt.comap (x := x) (g := Contents.facets)).and
          ((hproperties.comap (x := x) (g := Contents.properties)).and
            (((EquivAt.option hi).comap (x := x) (g := Contents.items)).and
              (((EquivAt.option ha).comap (x := x) (g := Contents.additional)).and
                (hmembers.comap (x := x) (g := Contents.members)))))
      show EquivAt Same x.toSchema
      exact hcontents.lift fun _ _ => same_toSchema_iff

/-- A schema without repeated properties is the same as itself. -/
theorem Same.refl {s : Schema} (h : s.Each DistinctKeys) : Same s s := (equivAt h).refl

/-- Sameness can be turned around. -/
theorem Same.symm {s t : Schema} (h : Same s t) : Same t s := (equivAt h.left).symm h

/-- Sameness goes on from schema to schema. -/
theorem Same.trans {s t u : Schema} (h : Same s t) (h' : Same t u) : Same s u :=
  ((equivAt h.left).congr h u).2 h'

end Schema

end DataShapes
