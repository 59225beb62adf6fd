import DataShapes.Proofs.Agreement.Inhabits
import DataShapes.Proofs.Registry.Covering
import DataShapes.Proofs.Schema.NormalForm
import DataShapes.Proofs.TypeExpr.Reading

/-!
# Values that a schema admits

A schema admits values whatever a registry says about it: a reference admits the values of the shape
with the title in the path, and the schema of an object asks for the keys that the shape with its
title needs.  Schemas that are equal admit the same values.

Main definitions:
* `Schema.Admits`: the values that a schema admits in a catalog.

Main statements:
* `Schema.admits_array_iff`, `Schema.admits_object_iff` and the like: what each kind of node admits;
* `Schema.Same.admits_iff`: equal schemas admit the same values.
-/

namespace DataShapes

namespace Schema

/-- The schema admits the value, where titles mean the shapes of the catalog. -/
inductive Admits (c : Catalog) : Schema → Value → Prop
  | reference {s : Shape} {v : Value} : s ∈ c.definitions → Inhabits c v (.named s.name) →
      Admits c (toTitle s.title) v
  | null {f : Facets} {ps : Option (List (String × Schema))} {i a : Option Schema}
      {ms : Option (List Schema)} : f.nullable = true ∨ f.kind = .null →
      Admits c (.node f ps i a ms) .null
  | scalar {f : Facets} {ps : Option (List (String × Schema))} {i a : Option Schema}
      {ms : Option (List Schema)} {kind : ScalarKind} {v : Value} : f.kind.scalar? = some kind →
      v.hasKind kind = true → Admits c (.node f ps i a ms) v
  | list {f : Facets} {ps : Option (List (String × Schema))} {item : Schema} {a : Option Schema}
      {ms : Option (List Schema)} {items : List Value} : f.kind = .array →
      (∀ x ∈ items, Admits c item x) → Admits c (.node f ps (some item) a ms) (.list items)
  | tuple {f : Facets} {ps : Option (List (String × Schema))} {item : Schema} {a : Option Schema}
      {ms : Option (List Schema)} {items : List Value} : f.kind = .array →
      (∀ x ∈ items, Admits c item x) → Admits c (.node f ps (some item) a ms) (.tuple items)
  | member {f : Facets} {ps : Option (List (String × Schema))} {i a : Option Schema}
      {ms : Option (List Schema)} {m : Schema} {v : Value} : f.kind = .union → m ∈ ms.getD [] →
      Admits c m v → Admits c (.node f ps i a ms) v
  | map {f : Facets} {ps : Option (List (String × Schema))} {i : Option Schema} {value : Schema}
      {ms : Option (List Schema)} {es : List (Value × Value)} : f.kind = .object →
      IsMapNode f ps (some value) → (∀ e ∈ es, e.1.isStr = true) →
      (∀ e ∈ es, Admits c value e.2) → Admits c (.node f ps i (some value) ms) (.dict es)
  /-- What is under the key of a property is admitted by its schema, other keys need a schema of
      their own, and no key that the shape with the title needs is missing. -/
  | object {f : Facets} {ps : Option (List (String × Schema))} {i a : Option Schema}
      {ms : Option (List Schema)} {s : Shape} {es : List (Value × Value)} : f.kind = .object →
      ¬ IsMapNode f ps a → s ∈ c.definitions → f.title = some s.title →
      (∀ e ∈ es, e.1.isStr = true) →
      (∀ k v, (Value.str k, v) ∈ es → ∀ p ∈ ps.getD [], p.1 = k → Admits c p.2 v) →
      (∀ k v, (Value.str k, v) ∈ es → (∀ p ∈ ps.getD [], p.1 ≠ k) → a ≠ none) →
      (∀ k v, (Value.str k, v) ∈ es → (∀ p ∈ ps.getD [], p.1 ≠ k) →
        ∀ t, a = some t → Admits c t v) →
      s.HasNeeded es → Admits c (.node f ps i a ms) (.dict es)

/-! ### Kinds of nodes -/

section Kinds

variable {c : Catalog} {v : Value} {f : Facets} {ps : Option (List (String × Schema))}
  {i a : Option Schema} {ms : Option (List Schema)}

/-- A reference admits the values of the shape whose title it leads to. -/
theorem admits_reference_iff {path : String} :
    Admits c (.reference path) v ↔ ∃ s ∈ c.definitions, path = definitionsPath ++ s.title
      ∧ Inhabits c v (.named s.name) := by
  constructor
  · intro h
    cases h with
    | reference hs h => exact ⟨_, hs, rfl, h⟩
  · rintro ⟨s, hs, rfl, h⟩
    exact .reference hs h

/-- The schema of null admits null alone. -/
theorem admits_null_iff (h : f.kind = .null) : Admits c (.node f ps i a ms) v ↔ v = .null := by
  constructor
  · intro hv
    cases hv with
    | null => rfl
    | scalar hk | list hk | tuple hk | member hk | map hk | object hk =>
      rw [h] at hk
      cases hk
  · rintro rfl
    exact .null (.inr h)

/-- The schema of a scalar admits the scalars of its kind, and null by its flag. -/
theorem admits_scalar_iff {kind : ScalarKind} (h : f.kind.scalar? = some kind) :
    Admits c (.node f ps i a ms) v ↔ (f.nullable = true ∧ v = .null) ∨ v.hasKind kind = true := by
  constructor
  · intro hv
    -- The rules for all other kinds are out of the question, since a node has one kind.
    cases hv with
    | null hnull =>
      refine .inl ⟨hnull.resolve_right fun hk => ?_, rfl⟩
      rw [hk] at h
      cases h
    | scalar hkind hv =>
      rw [h] at hkind
      cases hkind
      exact .inr hv
    | list hk | tuple hk | member hk | map hk | object hk =>
      rw [hk] at h
      cases h
  · rintro (⟨hnull, rfl⟩ | hv)
    · exact .null (.inl hnull)
    · exact .scalar h hv

/-- The schema of an array admits the lists and tuples of what its items admit, and null by its
    flag. -/
theorem admits_array_iff (h : f.kind = .array) :
    Admits c (.node f ps i a ms) v ↔
      (f.nullable = true ∧ v = .null) ∨ ∃ item, i = some item ∧ v.IsArrayOf (Admits c item) := by
  constructor
  · intro hv
    cases hv with
    | null hnull => exact .inl ⟨hnull.resolve_right (by simp [h]), rfl⟩
    | list _ hitems => exact .inr ⟨_, rfl, _, .inl rfl, hitems⟩
    | tuple _ hitems => exact .inr ⟨_, rfl, _, .inr rfl, hitems⟩
    | scalar hk | member hk | map hk | object hk =>
      rw [h] at hk
      cases hk
  · rintro (⟨hnull, rfl⟩ | ⟨item, rfl, items, rfl | rfl, hitems⟩)
    · exact .null (.inl hnull)
    · exact .list h hitems
    · exact .tuple h hitems

/-- The schema of a union admits what its members admit, and null by its flag. -/
theorem admits_union_iff (h : f.kind = .union) :
    Admits c (.node f ps i a ms) v ↔
      (f.nullable = true ∧ v = .null) ∨ ∃ m ∈ ms.getD [], Admits c m v := by
  constructor
  · intro hv
    cases hv with
    | null hnull => exact .inl ⟨hnull.resolve_right (by simp [h]), rfl⟩
    | member _ hm hv => exact .inr ⟨_, hm, hv⟩
    | scalar hk | list hk | tuple hk | map hk | object hk =>
      rw [h] at hk
      cases hk
  · rintro (⟨hnull, rfl⟩ | ⟨m, hm, hv⟩)
    · exact .null (.inl hnull)
    · exact .member h hm hv

/-- The schema of a map admits the dictionaries from texts to what its values admit, and null by its
    flag. -/
theorem admits_map_iff (h : f.kind = .object) (hmap : IsMapNode f ps a) :
    Admits c (.node f ps i a ms) v ↔
      (f.nullable = true ∧ v = .null) ∨ ∃ value, a = some value ∧ v.IsMapOf (Admits c value) := by
  constructor
  · intro hv
    cases hv with
    | null hnull => exact .inl ⟨hnull.resolve_right (by simp [h]), rfl⟩
    | map _ _ hkeys hvalues => exact .inr ⟨_, rfl, _, rfl, hkeys, hvalues⟩
    | object _ hno => exact absurd hmap hno
    | scalar hk | list hk | tuple hk | member hk =>
      rw [h] at hk
      cases hk
  · rintro (⟨hnull, rfl⟩ | ⟨value, rfl, es, rfl, hkeys, hvalues⟩)
    · exact .null (.inl hnull)
    · exact .map h hmap hkeys hvalues

/-- The schema of an object admits the objects of a shape with its title whose entries fit its
    properties or its schema for other keys, and null by its flag. -/
theorem admits_object_iff (h : f.kind = .object) (hmap : ¬ IsMapNode f ps a) :
    Admits c (.node f ps i a ms) v ↔
      (f.nullable = true ∧ v = .null)
        ∨ ∃ s ∈ c.definitions, f.title = some s.title
          ∧ v.IsObjectOf s (FitsEntry Prod.fst (ps.getD []) a (fun p x => Admits c p.2 x)
            (Admits c)) := by
  constructor
  · intro hv
    cases hv with
    | null hnull => exact .inl ⟨hnull.resolve_right (by simp [h]), rfl⟩
    | map _ hyes => exact absurd hyes hmap
    -- The rules ask for properties and other keys one by one; an entry fits when both are right.
    | @object _ _ _ _ _ s es _ _ hs htitle hkeys hps hextra hother hneeded =>
      refine .inr ⟨s, hs, htitle, es, rfl, hkeys, fun k x hx => ⟨hps k x hx, fun hno => ?_⟩,
        hneeded⟩
      obtain ⟨t, ht⟩ := Option.ne_none_iff_exists'.1 (hextra k x hx hno)
      exact ⟨t, ht, hother k x hx hno t ht⟩
    | scalar hk | list hk | tuple hk | member hk =>
      rw [h] at hk
      cases hk
  · rintro (⟨hnull, rfl⟩ | ⟨s, hs, htitle, es, rfl, hkeys, hentries, hneeded⟩)
    · exact .null (.inl hnull)
    · refine .object h hmap hs htitle hkeys (fun k x hx => (hentries k x hx).1)
        (fun k x hx hno => ?_) (fun k x hx hno t ht => ?_) hneeded
      · obtain ⟨t, ht, -⟩ := (hentries k x hx).2 hno
        simp [ht]
      · obtain ⟨t', ht', hv⟩ := (hentries k x hx).2 hno
        rw [ht] at ht'
        cases ht'
        exact hv

end Kinds

/-! ### Equal schemas -/

/-- Of equal objects, both are maps or none is. -/
theorem isMapNode_congr {f g : Facets} {ps qs : Option (Table Schema)} {a b : Option Schema}
    (hf : f.Same g) (hps : Option.Rel SameTable ps qs) (ha : Option.Rel Same a b) :
    IsMapNode f ps a ↔ IsMapNode g qs b := by
  obtain ⟨-, -, -, hrepresentation⟩ := of_equal_facets hf
  have hsome : a.isSome = true ↔ b.isSome = true := by
    simp only [Option.isSome_iff_ne_none, ne_eq, eq_none_iff_of_rel ha]
  unfold IsMapNode
  rw [(sameTable_getD hps).eq_nil_iff, hrepresentation, hsome]

/-- In a table without repeated keys, an entry of an object fits what the look-up of its key
    finds. -/
theorem fitsEntry_table_iff {β : Type} {t : Table Schema} (h : (Table.keys t).Nodup)
    {other : Option β} {isValue : Schema → Value → Prop} {isOther : β → Value → Prop} {k : String}
    {v : Value} :
    FitsEntry Prod.fst t other (fun p x => isValue p.2 x) isOther k v ↔
      (∃ s, Table.get? t k = some s ∧ isValue s v)
        ∨ Table.get? t k = none ∧ ∃ y, other = some y ∧ isOther y v := by
  -- Whether the key is declared decides which of the two demands counts.
  cases hs : Table.get? t k with
  | none =>
    have hno : ∀ p ∈ t, p.1 ≠ k := by
      intro p hp hk
      rw [Table.get?_eq_none_iff] at hs
      exact hs (hk ▸ List.mem_map_of_mem hp)
    constructor
    · rintro ⟨-, hother⟩
      exact .inr ⟨rfl, hother hno⟩
    · rintro (⟨s, hs, -⟩ | ⟨-, hother⟩)
      · cases hs
      · exact ⟨fun p hp hk => absurd hk (hno p hp), fun _ => hother⟩
  | some s =>
    have hmem : (k, s) ∈ t := Table.mem_of_get? hs
    constructor
    · rintro ⟨hvalue, -⟩
      exact .inl ⟨s, rfl, hvalue (k, s) hmem rfl⟩
    · rintro (⟨s', hs', hvalue⟩ | ⟨hnone, -⟩)
      · cases hs'
        refine ⟨fun p hp hk => ?_, fun hno => absurd rfl (hno (k, s) hmem)⟩
        obtain ⟨key, u⟩ := p
        cases hk
        have hu : Table.get? t key = some u := (Table.get?_eq_some_iff h).2 hp
        rw [hs] at hu
        cases hu
        exact hvalue
      · cases hnone

/-- Equal schemas admit the same values. -/
theorem Same.admits_iff {c : Catalog} {s t : Schema} (h : Same s t) (v : Value) :
    Admits c s v ↔ Admits c t v := by
  induction s using induction_children generalizing t v with
  | h s ih =>
    cases s with
    | reference path =>
      obtain ⟨other, rfl, rfl⟩ := same_reference_iff.1 h
      exact Iff.rfl
    | node f ps i a ms =>
      obtain ⟨g, qs, j, b, ns, rfl, hf, hps, hi, ha, -⟩ := h.exists_node
      obtain ⟨hkind, htitle, hnull, -⟩ := of_equal_facets hf
      -- Parts at the same place admit the same values.
      have hchild : ∀ x ∈ (node f ps i a ms).children, ∀ y, Same x y → ∀ u,
          (Admits c x u ↔ Admits c y u) := fun x hx y hxy u => ih x hx hxy u
      simp only [children, List.mem_append, Option.mem_toList] at hchild
      have hother : ∀ x y, a = some x → b = some y → Same x y → ∀ u,
          (Admits c x u ↔ Admits c y u) := fun x y hx _ => hchild x (.inl (.inl (.inr hx))) y
      rcases f.kind.cases_read with ⟨k, hk⟩ | hk | hk | hk | hk
      · have hk' : g.kind.scalar? = some k := hkind ▸ hk
        rw [admits_scalar_iff hk, admits_scalar_iff hk', hnull]
      · have hk' : g.kind = .null := hkind ▸ hk
        rw [admits_null_iff hk, admits_null_iff hk']
      · have hk' : g.kind = .array := hkind ▸ hk
        have hitems := exists_some_iff_of_rel hi (p := fun x => v.IsArrayOf (Admits c x))
          (q := fun y => v.IsArrayOf (Admits c y)) fun x y hx _ hxy =>
            Value.IsArrayOf.congr (hchild x (.inl (.inl (.inl hx))) y hxy)
        rw [admits_array_iff hk, admits_array_iff hk', hnull, hitems]
      · have hk' : g.kind = .union := hkind ▸ hk
        have hmembers : (∃ m ∈ ms.getD [], Admits c m v) ↔ ∃ m ∈ ns.getD [], Admits c m v := by
          have hequal := h.members
          rw [members_node, members_node] at hequal
          refine exists_mem_of_forall₂ hequal fun x hx y _ hxy => ?_
          exact hchild x (.inl (.inr hx)) y hxy v
        rw [admits_union_iff hk, admits_union_iff hk', hnull, hmembers]
      · have hk' : g.kind = .object := hkind ▸ hk
        have hmap := isMapNode_congr hf hps ha
        by_cases hm : IsMapNode f ps a
        · have hvalues := exists_some_iff_of_rel ha (p := fun x => v.IsMapOf (Admits c x))
            (q := fun y => v.IsMapOf (Admits c y)) fun x y hx hy hxy =>
              Value.IsMapOf.congr (hother x y hx hy hxy)
          rw [admits_map_iff hk hm, admits_map_iff hk' (hmap.1 hm), hnull, hvalues]
        · -- The tables may list the properties in different orders, so entries are compared by
          -- looking their keys up.
          have htable := sameTable_getD hps
          have hentries : ∀ k u,
              FitsEntry Prod.fst (ps.getD []) a (fun p x => Admits c p.2 x) (Admits c) k u
                ↔ FitsEntry Prod.fst (qs.getD []) b (fun p x => Admits c p.2 x) (Admits c)
                  k u := by
            intro k u
            have hfound := exists_some_iff_of_rel (htable.2 k) (p := fun x => Admits c x u)
              (q := fun y => Admits c y u) fun x y hx _ hxy =>
                hchild x (.inr (List.mem_map_of_mem (Table.mem_of_get? hx))) y hxy u
            have hextra := exists_some_iff_of_rel ha (p := fun x => Admits c x u)
              (q := fun y => Admits c y u) fun x y hx hy hxy => hother x y hx hy hxy u
            rw [fitsEntry_table_iff htable.1.1, fitsEntry_table_iff htable.1.2, hextra, hfound,
              eq_none_iff_of_rel (htable.2 k)]
          rw [admits_object_iff hk hm, admits_object_iff hk' (mt hmap.2 hm), hnull, htitle]
          simp only [Value.IsObjectOf.congr hentries]

end Schema

end DataShapes
