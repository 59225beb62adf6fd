import DataShapes.Proofs.Schema.Alternatives

/-!
# Unions with members

The normal form drops equal members and takes the members of inner unions out of them, but it never
leaves a union without members: of the members of an inner union at least one is kept.

Main definitions:
* `Schema.Populated`: a node that has members if it is a union;
* `Schema.InNormalForm`: what type signatures are read off.

Main statements:
* `Schema.each_populated_normalize`: the normal form of unions with members has unions with members;
* `Schema.InNormalForm.members_eq`: the members of a union in normal form are tidy.
-/

namespace DataShapes

namespace Schema

variable {f : Facets} {ps : Option (List (String × Schema))} {i a : Option Schema}
  {ms : Option (List Schema)} {s : Schema}

/-- If the node is a union it has members. -/
def Populated (s : Schema) : Prop := s.isUnion = true → s.members ≠ []

/-- What is no union is no union without members. -/
theorem populated_of_isUnion_eq_false (h : s.isUnion = false) : s.Populated := by
  intro hunion
  rw [h] at hunion
  cases hunion

theorem isUnion_node_iff : (node f ps i a ms).isUnion = true ↔ f.kind = .union := by
  simp [isUnion, kind?, facets?]

/-- A node is none when it has members in case it is a union. -/
theorem populated_node_iff :
    (node f ps i a ms).Populated ↔ (f.kind = .union → ms.getD [] ≠ []) := by
  rw [Populated, isUnion_node_iff, members_node]

/-- The members of a node do not matter unless it is a union. -/
theorem populated_of_kind_ne (h : f.kind ≠ .union) : (node f ps i a ms).Populated :=
  populated_node_iff.2 fun hkind => absurd hkind h

/-! ### Normal forms -/

/-- The first item is kept. -/
theorem distinct_ne_nil {α : Type} [BEq α] {xs : List α} (h : xs ≠ []) : distinct xs ≠ [] := by
  -- Nothing that is kept is dropped again.
  have hkept : ∀ (kept : List α) (xs : List α), kept ≠ [] → distinctFrom kept xs ≠ [] := by
    intro kept xs
    induction xs generalizing kept with
    | nil => exact id
    | cons x xs ih =>
      intro hkept
      rw [distinctFrom]
      split
      · exact ih kept hkept
      · exact ih _ (List.append_ne_nil_of_left_ne_nil hkept _)
  cases xs with
  | nil => exact absurd rfl h
  | cons x xs =>
    rw [distinct, distinctFrom, List.any_nil, if_neg Bool.false_ne_true]
    exact hkept _ xs (List.cons_ne_nil x [])

/-- A schema that is "no value" is moved to the end of tidy members, and any other one is kept. -/
theorem tidyMembers_ne_nil {nullable : Bool} {flat : List Schema} (h : flat ≠ []) :
    tidyMembers nullable flat ≠ [] := by
  unfold tidyMembers
  by_cases habsent : flat.any (·.isAbsent) = true
  · rw [habsent, Bool.or_true, if_pos rfl]
    exact List.append_ne_nil_of_right_ne_nil _ (List.cons_ne_nil _ _)
  · have hall : flat.filter (!·.isAbsent) = flat := by
      rw [List.filter_eq_self]
      intro s hs
      rw [Bool.not_eq_true, List.any_eq_false] at habsent
      simpa using habsent s hs
    rw [hall]
    exact List.append_ne_nil_of_left_ne_nil (distinct_ne_nil h) _

/-- There is a flat member unless the schema is a union without members. -/
theorem flatten_ne_nil (h : s.Populated) : s.flatten ≠ [] := by
  unfold flatten
  split
  · exact h ‹_›
  · exact List.cons_ne_nil _ _

/-- Taking off the flag for null makes a union with members. -/
theorem each_populated_splitNull (h : s.Each Populated) (nullable : Bool) :
    (splitNull nullable s).Each Populated := by
  cases nullable with
  | false => exact h
  | true =>
    have habsent : absent.Each Populated := each_leaf.2 (populated_of_kind_ne (by simp))
    refine each_unionOf.2 ⟨fun _ => List.cons_ne_nil _ _, ?_⟩
    simpa using ⟨h, habsent⟩

/-- The normal form of unions with members has unions with members. -/
theorem each_populated_normalize (h : s.Each Populated) : s.normalize.Each Populated := by
  induction s using induction_children with
  | h s ih =>
    cases s with
    | reference path => exact h
    | node f ps i a ms =>
      obtain ⟨hself, hitems, hother, hmembers, hproperties⟩ := each_node_iff.1 h
      -- Parts of any node but a union are left as they are, up to the items of an array.
      have hplain : f.kind ≠ .union → ∀ i', (∀ s, i' = some s → s.Each Populated) →
          (splitNull f.nullable (.node { f with nullable := false } ps i' a ms)).Each Populated := by
        intro hkind i' hitems'
        refine each_populated_splitNull (each_node_iff.2 ?_) _
        exact ⟨populated_of_kind_ne hkind, hitems', hother, hmembers, hproperties⟩
      rcases f.kind.cases_read with ⟨k, hk⟩ | hk | hk | hk | hk
      · rw [normalize_scalar hk]
        refine hplain (fun hunion => ?_) i hitems
        rw [hunion] at hk
        cases hk
      · rw [normalize_null hk]
        exact h
      · rw [normalize_array hk]
        refine hplain (by simp [hk]) _ fun t ht => ?_
        cases i with
        | none => cases ht
        | some item =>
          cases ht
          exact ih item (by simp [children]) (hitems item rfl)
      · -- Of each member something is listed, so the union keeps members.
        have hnormal : ∀ m ∈ ms.getD [], m.normalize.Each Populated := fun m hm =>
          ih m (by simp [children, hm]) (hmembers m hm)
        have hflat : flattenMembers ms ≠ [] := by
          have hms : ms.getD [] ≠ [] := populated_node_iff.1 hself hk
          obtain ⟨m, hm⟩ := List.exists_mem_of_ne_nil _ hms
          obtain ⟨t, ht⟩ := List.exists_mem_of_ne_nil _ (flatten_ne_nil (hnormal m hm).self)
          exact List.ne_nil_of_mem (mem_flattenMembers.2 ⟨m, hm, ht⟩)
        rw [normalize_union hk, each_node_iff]
        refine ⟨populated_node_iff.2 fun _ => tidyMembers_ne_nil hflat, hitems, hother, fun t ht => ?_,
          hproperties⟩
        rcases mem_of_mem_tidyMembers ht with ht | rfl
        · obtain ⟨m, hm, ht⟩ := mem_flattenMembers.1 ht
          exact (hnormal m hm).flatten ht
        · exact each_leaf.2 (populated_of_kind_ne (by simp))
      · rw [normalize_object hk]
        exact hplain (by simp [hk]) i hitems

/-! ### What signatures are read off -/

/-- The schema is in normal form, its unions have members, and no property of it occurs twice. -/
structure InNormalForm (s : Schema) : Prop where
  normal : s.normalize = s
  populated : s.Each Populated
  distinct : s.Each DistinctKeys

/-- Normal forms are in normal form. -/
theorem inNormalForm_normalize (hpopulated : s.Each Populated) (hdistinct : s.Each DistinctKeys) :
    s.normalize.InNormalForm where
  normal := normalize_normalize hdistinct
  populated := each_populated_normalize hpopulated
  distinct := hdistinct.normalize normalStable_distinctKeys

namespace InNormalForm

/-- The members of a union in normal form are tidy. -/
theorem members_eq (h : (node f ps i a ms).InNormalForm) (hkind : f.kind = .union) :
    ms.getD [] = tidyMembers f.nullable (flattenMembers ms) := by
  have hmembers : (node f ps i a ms).normalize.members = ms.getD [] := by
    rw [h.normal, members_node]
  rw [← hmembers, normalize_union hkind, members_node, Option.getD_some]

/-- No member of a union in normal form is a union, and all are in normal form. -/
theorem member (h : (node f ps i a ms).InNormalForm) (hkind : f.kind = .union) {m : Schema}
    (hm : m ∈ ms.getD []) : m.isUnion = false ∧ m.InNormalForm := by
  have hchild : m ∈ (node f ps i a ms).children := by simp [children, hm]
  have hflat : m ∈ flatten (node f ps i a ms).normalize := by
    rw [h.normal, flatten, if_pos (isUnion_node_iff.2 hkind), members_node]
    exact hm
  obtain ⟨hunion, hnormal⟩ := normalize_eq_self_of_mem_flatten h.distinct m hflat
  exact ⟨hunion, hnormal, h.populated.child hchild, h.distinct.child hchild⟩

/-- What reading goes on with is in normal form. -/
theorem next (h : s.InNormalForm) : ∀ m ∈ s.readNext, m.InNormalForm := by
  intro m hm
  cases s with
  | reference path => simp [readNext] at hm
  | node f ps i a ms =>
    rcases f.kind.cases_read with ⟨k, hk⟩ | hk | hk | hk | hk
    · cases hkind : f.kind <;> simp_all [readNext, SchemaKind.scalar?]
    · simp [readNext, hk] at hm
    · -- The items of an array were put into normal form with it.
      simp only [readNext, hk, Option.mem_toList] at hm
      subst hm
      have hchild : m ∈ (node f ps (some m) a ms).children := by simp [children]
      exact ⟨normalize_items_of_normalize_eq_self h.normal (by simp [kind?, facets?, hk]) rfl,
        h.populated.child hchild, h.distinct.child hchild⟩
    · simp only [readNext, hk] at hm
      exact (h.member hk hm).2
    · -- The contents of an object are put into normal form when they are reached.
      simp only [readNext, hk] at hm
      obtain ⟨c, hc, rfl⟩ := List.mem_map.1 hm
      have hchild : c ∈ (node f ps i a ms).children := by
        simp only [children, List.mem_append] at hc ⊢
        exact hc.elim .inr fun hc => .inl (.inl (.inr hc))
      exact inNormalForm_normalize (h.populated.child hchild) (h.distinct.child hchild)

end InNormalForm

end Schema

end DataShapes
