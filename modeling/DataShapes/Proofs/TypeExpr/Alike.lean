import DataShapes.Proofs.Registry.Covering
import DataShapes.Proofs.Schema.NormalForm

/-!
# Equal schemas are read alike

Equality of schemas does not see the order of properties, while the record that is read off an object
lists its fields in that order, so equal schemas need not have equal type expressions.  They do when
only equal titles tell objects with properties apart: then equal nodes are either one node, or nodes
without title and properties, and of these nothing is read that equality does not compare.

Main definitions:
* `Schema.IsBare`: a node without a title and properties;
* `Schema.Separates`: nodes of a kind are equal only when they are one or bare;
* `Schema.ReadAlike`: equal schemas off which every registry reads the same.

Main statements:
* `TypeExpr.ofSchema_eq_ok_iff_flatten`: a schema is read member by member when it is flat;
* `TypeExpr.ofNormalForm_congr`: equal schemas are read alike.
-/

namespace DataShapes

namespace Schema

/-- The node has no title and no properties. -/
def IsBare (s : Schema) : Prop := s.title = none ∧ s.properties = []

/-- Among the nodes with the property, equal ones are one node or bare. -/
def Separates (K : Schema → Prop) : Prop :=
  ∀ s t, K s → K t → Same s t → s = t ∨ s.IsBare ∧ t.IsBare

/-- Every registry reads the same type expression off both schemas, if it reads any. -/
def SameTypes (s t : Schema) : Prop :=
  ∀ r u, TypeExpr.ofSchema r s = .ok u ↔ TypeExpr.ofSchema r t = .ok u

/-- The schemas are equal, and every registry reads the same off both. -/
structure ReadAlike (s t : Schema) : Prop where
  same : Same s t
  types : SameTypes s t

/-- A schema without repeated properties is read like itself. -/
theorem ReadAlike.refl {s : Schema} (h : s.Each DistinctKeys) : ReadAlike s s :=
  ⟨.refl h, fun _ _ => Iff.rfl⟩

theorem readAlike_absent : ReadAlike absent absent := ⟨same_absent, fun _ _ => Iff.rfl⟩

end Schema

open Schema

namespace TypeExpr

variable {r : Registry} {t : TypeExpr}

/-- What is read off a schema is the union of what is read off its flat members. -/
theorem ofSchema_eq_ok_iff_flatten {s : Schema} :
    ofSchema r s = .ok t ↔ ∃ ts, List.Forall₂ (fun m u => ofSchema r m = .ok u) s.flatten ts
      ∧ t = unionOf ts := by
  -- A union of one alternative is that alternative.
  have halone : ofSchema r s = .ok t ↔ ∃ ts, List.Forall₂ (fun m u => ofSchema r m = .ok u) [s] ts
      ∧ t = unionOf ts := by
    constructor
    · intro h
      exact ⟨[t], .cons h .nil, rfl⟩
    · rintro ⟨ts, hts, rfl⟩
      cases hts with
      | cons h hnil =>
        cases hnil
        exact h
  unfold flatten
  by_cases hunion : s.isUnion = true
  · rw [if_pos hunion]
    cases s with
    | reference path => simp [isUnion, kind?, facets?] at hunion
    | node f ps i a ms =>
      have hk : f.kind = .union := by simpa [isUnion, kind?, facets?] using hunion
      rw [ofSchema_union_eq_ok_iff hk]
      cases ms <;> rfl
  · rw [if_neg hunion]
    exact halone

/-- Schemas whose flat members are read alike are read alike. -/
theorem sameTypes_of_flatten {s s' : Schema}
    (h : List.Forall₂ ReadAlike s.flatten s'.flatten) : SameTypes s s' := by
  intro r u
  have hlists : ∀ ts, List.Forall₂ (fun m u => ofSchema r m = .ok u) s.flatten ts
      ↔ List.Forall₂ (fun m u => ofSchema r m = .ok u) s'.flatten ts := by
    generalize s.flatten = ms at h
    generalize s'.flatten = ms' at h
    -- The lists of alternatives are compared side by side.
    induction h with
    | nil => exact fun ts => Iff.rfl
    | cons hm _ ih =>
      intro ts
      cases ts with
      | nil => exact ⟨nofun, nofun⟩
      | cons u ts => rw [List.forall₂_cons, List.forall₂_cons, hm.types r u, ih ts]
  rw [ofSchema_eq_ok_iff_flatten, ofSchema_eq_ok_iff_flatten]
  exact exists_congr fun ts => and_congr_left fun _ => hlists ts

/-- What is read for other keys is the same when the schemas of other values are read alike. -/
theorem extraOf_congr {s s' : Schema} {extra : Option TypeExpr}
    (h : Option.Rel (fun v v' => SameTypes v.normalize v'.normalize) s.additional s'.additional) :
    extraOf r s = .ok extra ↔ extraOf r s' = .ok extra := by
  have hvalue := exists_some_iff_of_rel h
    (p := fun v => ∃ u, ofNormalForm r v = .ok u ∧ extra = some u)
    (q := fun v => ∃ u, ofNormalForm r v = .ok u ∧ extra = some u) fun v v' _ _ hv =>
      exists_congr fun u => and_congr_left fun _ => hv r u
  rw [extraOf_eq_ok_iff, extraOf_eq_ok_iff, eq_none_iff_of_rel h]
  simp only [exists_and_left, hvalue]

/-! ### Nodes -/

section Nodes

variable {f g : Facets} {ps qs : Option (List (String × Schema))} {i j a b : Option Schema}
  {ms ns : Option (List Schema)}

/-- Scalars of one kind are read as the same type. -/
theorem sameTypes_scalar {k : ScalarKind} (h : f.kind.scalar? = some k)
    (h' : g.kind.scalar? = some k) : SameTypes (.node f ps i a ms) (.node g qs j b ns) := by
  intro r u
  rw [ofSchema_scalar h, ofSchema_scalar h']

/-- So are the schemas of null. -/
theorem sameTypes_null (h : f.kind = .null) (h' : g.kind = .null) :
    SameTypes (.node f ps i a ms) (.node g qs j b ns) := by
  intro r u
  rw [ofSchema_null h, ofSchema_null h']

/-- Arrays are read alike when their items are. -/
theorem sameTypes_array (h : f.kind = .array) (h' : g.kind = .array)
    (hitems : Option.Rel SameTypes i j) :
    SameTypes (.node f ps i a ms) (.node g qs j b ns) := by
  intro r u
  have hread := exists_some_iff_of_rel hitems
    (p := fun item => ∃ u', ofSchema r item = .ok u' ∧ u = .sequence u')
    (q := fun item => ∃ u', ofSchema r item = .ok u' ∧ u = .sequence u') fun m n _ _ hmn =>
      exists_congr fun u' => and_congr_left fun _ => hmn r u'
  rw [ofSchema_array_eq_ok_iff h, ofSchema_array_eq_ok_iff h']
  simp only [exists_and_left, hread]

/-- Objects without titles and properties are read alike when the schemas of other values are. -/
theorem sameTypes_object (h : f.kind = .object) (h' : g.kind = .object)
    (htitle : f.title = Option.none) (htitle' : g.title = Option.none)
    (hrepresentation : f.representation = g.representation) (hps : ps.getD [] = [])
    (hqs : qs.getD [] = [])
    (hadditional : Option.Rel (fun v v' => SameTypes v.normalize v'.normalize) a b) :
    SameTypes (.node f ps i a ms) (.node g qs j b ns) := by
  intro r u
  have hextra : ∀ extra, extraOf r (.node f ps i a ms) = .ok extra
      ↔ extraOf r (.node g qs j b ns) = .ok extra := fun _ => extraOf_congr hadditional
  -- With neither title nor properties only the representation and the other values count.
  have hparts : ∀ extra, ofObjectParts r f [] extra = ofObjectParts r g [] extra := by
    intro extra
    unfold ofObjectParts
    rw [htitle, htitle', hrepresentation]
  rw [ofSchema_object_eq_ok_iff h, ofSchema_object_eq_ok_iff h', hps, hqs]
  simp only [List.forall₂_nil_left_iff, exists_and_left, exists_eq_left, hextra, hparts]

end Nodes

/-- Splitting null off equal nodes that are no unions leaves them alike when they are read alike. -/
theorem forall₂_readAlike_splitNull {nullable : Bool} {s s' : Schema} (hs : s.isUnion = false)
    (hs' : s'.isUnion = false)
    (h : List.Forall₂ Same (flatten (splitNull nullable s)) (flatten (splitNull nullable s')))
    (htypes : SameTypes s s') :
    List.Forall₂ ReadAlike (flatten (splitNull nullable s)) (flatten (splitNull nullable s')) := by
  -- Either the node stands alone or null stands beside it.
  cases nullable with
  | false =>
    have h : List.Forall₂ Same (flatten s) (flatten s') := h
    show List.Forall₂ ReadAlike (flatten s) (flatten s')
    rw [flatten_of_isUnion_eq_false hs, flatten_of_isUnion_eq_false hs'] at h ⊢
    obtain ⟨hsame, -⟩ := List.forall₂_cons.1 h
    exact .cons ⟨hsame, htypes⟩ .nil
  | true =>
    have h : List.Forall₂ Same [s, absent] [s', absent] := h
    show List.Forall₂ ReadAlike [s, absent] [s', absent]
    obtain ⟨hsame, -⟩ := List.forall₂_cons.1 h
    exact .cons ⟨hsame, htypes⟩ (.cons readAlike_absent .nil)

/-- Equal schemas have flat members that are read alike, when their nodes are separated. -/
theorem forall₂_readAlike_flatten {K : Schema → Prop} (hK : Separates K) {s s' : Schema}
    (h : Same s s') (hs : s.Each K) (hs' : s'.Each K) :
    List.Forall₂ ReadAlike s.normalize.flatten s'.normalize.flatten := by
  induction s using Schema.induction_children generalizing s' with
  | h s ih =>
    rcases hK s s' hs.self hs'.self h with rfl | ⟨⟨htitle, hps⟩, htitle', hqs⟩
    · -- One node has the same flat members as itself.
      refine List.forall₂_same.2 fun m hm => .refl ?_
      exact (h.left.normalize normalStable_distinctKeys).flatten hm
    · cases s with
      | reference path =>
        obtain ⟨other, rfl, rfl⟩ := same_reference_iff.1 h
        exact .cons (.refl h.left) .nil
      | node f ps i a ms =>
        obtain ⟨g, qs, j, b, ns, rfl, hf, -, hi, ha, hms⟩ := h.exists_node
        obtain ⟨hkind, -, hnullable, hrepresentation⟩ := of_equal_facets hf
        have hflat := h.normalize.flatten
        -- The flat members of parts at the same place are read alike.
        have hchild : ∀ m ∈ (node f ps i a ms).children, ∀ n ∈ (node g qs j b ns).children,
            Same m n → List.Forall₂ ReadAlike m.normalize.flatten n.normalize.flatten :=
          fun m hm n hn hmn => ih m hm hmn (hs.child hm) (hs'.child hn)
        simp only [Schema.children, List.mem_append, Option.mem_toList] at hchild
        rcases f.kind.cases_read with ⟨k, hk⟩ | hk | hk | hk | hk
        · have hk' : g.kind.scalar? = some k := hkind ▸ hk
          have hunion : ∀ kind : SchemaKind, kind.scalar? = some k → kind ≠ .union := by
            rintro kind hkind rfl
            cases hkind
          rw [normalize_scalar hk, normalize_scalar hk', hnullable] at hflat ⊢
          exact forall₂_readAlike_splitNull (isUnion_eq_false (hunion _ hk))
            (isUnion_eq_false (hunion _ hk')) hflat (sameTypes_scalar hk hk')
        · have hk' : g.kind = .null := hkind ▸ hk
          rw [normalize_null hk, normalize_null hk',
            flatten_of_isUnion_eq_false (isUnion_eq_false (by simp [hk])),
            flatten_of_isUnion_eq_false (isUnion_eq_false (by simp [hk']))]
          exact .cons ⟨h, sameTypes_null hk hk'⟩ .nil
        · have hk' : g.kind = .array := hkind ▸ hk
          have hitems : Option.Rel SameTypes (normalizePart i) (normalizePart j) := by
            cases hi with
            | none => exact .none
            | @some m n hmn =>
              exact .some (sameTypes_of_flatten
                (hchild m (.inl (.inl (.inl rfl))) n (.inl (.inl (.inl rfl))) hmn))
          rw [normalize_array hk, normalize_array hk', hnullable] at hflat ⊢
          exact forall₂_readAlike_splitNull (isUnion_eq_false (by simp [hk]))
            (isUnion_eq_false (by simp [hk'])) hflat (sameTypes_array hk hk' hitems)
        · have hk' : g.kind = .union := hkind ▸ hk
          have hmembers : List.Forall₂ ReadAlike (flattenMembers ms) (flattenMembers ns) := by
            refine forall₂_flattenMembers hms fun m hm n hn hmn => ?_
            exact hchild m (.inl (.inr hm)) n (.inl (.inr hn)) hmn
          have htidy := forall₂_tidyMembers (fun _ _ hst => hst.same) readAlike_absent g.nullable
            hmembers
          rw [normalize_union hk, normalize_union hk', hnullable,
            flatten_union (f := { f with nullable := false }) hk,
            flatten_union (f := { g with nullable := false }) hk']
          exact htidy
        · have hk' : g.kind = .object := hkind ▸ hk
          have hadditional : Option.Rel (fun v v' => SameTypes v.normalize v'.normalize) a b := by
            cases ha with
            | none => exact .none
            | @some m n hmn =>
              exact .some (sameTypes_of_flatten
                (hchild m (.inl (.inl (.inr rfl))) n (.inl (.inl (.inr rfl))) hmn))
          have hempty : ps.getD [] = [] := by cases ps <;> exact hps
          have hempty' : qs.getD [] = [] := by cases qs <;> exact hqs
          rw [normalize_object hk, normalize_object hk', hnullable] at hflat ⊢
          exact forall₂_readAlike_splitNull (isUnion_eq_false (by simp [hk]))
            (isUnion_eq_false (by simp [hk'])) hflat
            (sameTypes_object hk hk' htitle htitle' hrepresentation hempty hempty' hadditional)

/-- Equal schemas whose nodes are separated are read alike. -/
theorem ofNormalForm_congr {K : Schema → Prop} (hK : Separates K) {s s' : Schema}
    (h : Same s s') (hs : s.Each K) (hs' : s'.Each K) :
    ofNormalForm r s = .ok t ↔ ofNormalForm r s' = .ok t :=
  sameTypes_of_flatten (forall₂_readAlike_flatten hK h hs hs') r t

end TypeExpr

end DataShapes
