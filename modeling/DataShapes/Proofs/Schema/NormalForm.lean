import DataShapes.Proofs.Schema.Equality
import DataShapes.Proofs.TypeExpr.Reading

/-!
# Normal forms of equal schemas

Equal schemas have equal normal forms: null is split off both or neither, and of the flat members of
two unions the same ones are dropped, since equality is an equivalence.

Main statements:
* `Schema.normalize_union`, `Schema.normalize_array` and the like: the normal form of each kind of
  node;
* `Schema.forall₂_tidyMembers`: whatever relates equal schemas is kept when members are put into
  normal form;
* `Schema.Same.normalize`: equal schemas have equal normal forms.
-/

namespace DataShapes

/-! ### Related lists -/

section Related

variable {α β : Type} {R : α → β → Prop} {xs : List α} {ys : List β}

/-- Items that are related one by one may be related otherwise when this is so for items of the
    lists. -/
theorem forall₂_imp_of_mem {S : α → β → Prop} (h : List.Forall₂ R xs ys)
    (hRS : ∀ x ∈ xs, ∀ y ∈ ys, R x y → S x y) : List.Forall₂ S xs ys := by
  rw [List.forall₂_iff_zip] at h ⊢
  obtain ⟨hlength, hzip⟩ := h
  refine ⟨hlength, fun hmem => ?_⟩
  obtain ⟨hx, hy⟩ := List.of_mem_zip hmem
  exact hRS _ hx _ hy (hzip hmem)

/-- Some item of a list passes a test when some item of a related list does. -/
theorem any_eq_of_forall₂ {p : α → Bool} {q : β → Bool} (h : List.Forall₂ R xs ys)
    (hpq : ∀ x y, R x y → p x = q y) : xs.any p = ys.any q := by
  induction h with
  | nil => rfl
  | cons hxy _ ih => rw [List.any_cons, List.any_cons, hpq _ _ hxy, ih]

/-- Related lists have related first occurrences when equality does not tell related items apart. -/
theorem forall₂_distinct {R : α → α → Prop} {xs ys : List α} [BEq α]
    (hbeq : ∀ x y x' y', R x y → R x' y' → (x == x') = (y == y')) (h : List.Forall₂ R xs ys) :
    List.Forall₂ R (distinct xs) (distinct ys) := by
  -- The claim is about every list of items that were kept before.
  have hfrom : ∀ kept kept', List.Forall₂ R kept kept' →
      List.Forall₂ R (distinctFrom kept xs) (distinctFrom kept' ys) := by
    induction h with
    | nil => exact fun _ _ hkept => hkept
    | @cons x y xs ys hxy _ ih =>
      intro kept kept' hkept
      have hany : kept.any (· == x) = kept'.any (· == y) :=
        any_eq_of_forall₂ hkept fun x' y' hxy' => hbeq x' y' x y hxy' hxy
      rw [distinctFrom, distinctFrom, hany]
      by_cases hseen : kept'.any (· == y) = true
      · rw [if_pos hseen, if_pos hseen]
        exact ih kept kept' hkept
      · rw [if_neg hseen, if_neg hseen]
        exact ih _ _ (List.rel_append hkept (.cons hxy .nil))
  exact hfrom [] [] .nil

end Related

/-- Equal keywords stay equal when null is no longer admitted. -/
theorem Facets.Same.notNullable {f g : Facets} (h : f.Same g) :
    Facets.Same { f with nullable := false } { g with nullable := false } := by
  unfold Facets.Same Facets.equal at h ⊢
  simp only [Bool.and_eq_true] at h ⊢
  tauto

namespace Schema

/-! ### Normal forms by kind -/

section Kinds

variable {f : Facets} {ps : Option (List (String × Schema))} {i a : Option Schema}
  {ms : Option (List Schema)}

/-- Null is in normal form. -/
theorem normalize_null (h : f.kind = .null) :
    normalize (.node f ps i a ms) = .node f ps i a ms := by
  simp [normalize, h]

/-- The normal form of a union has tidy members and no flag for null. -/
theorem normalize_union (h : f.kind = .union) :
    normalize (.node f ps i a ms) = .node { f with nullable := false } ps i a
      (some (tidyMembers f.nullable (flattenMembers ms))) := by
  simp [normalize, h]

/-- That of an array has its items in normal form, with null beside the array. -/
theorem normalize_array (h : f.kind = .array) :
    normalize (.node f ps i a ms)
      = splitNull f.nullable (.node { f with nullable := false } ps (normalizePart i) a ms) := by
  simp [normalize, h]

/-- That of a scalar has null beside the scalar. -/
theorem normalize_scalar {k : ScalarKind} (h : f.kind.scalar? = some k) :
    normalize (.node f ps i a ms)
      = splitNull f.nullable (.node { f with nullable := false } ps i a ms) := by
  cases hk : f.kind <;> simp_all [normalize, SchemaKind.scalar?]

/-- That of an object has null beside the object, whose contents stay. -/
theorem normalize_object (h : f.kind = .object) :
    normalize (.node f ps i a ms)
      = splitNull f.nullable (.node { f with nullable := false } ps i a ms) := by
  simp [normalize, h]

/-- The flat members are those of each member, one after the other. -/
theorem flattenMembers_eq :
    flattenMembers ms = (ms.getD []).flatMap fun m => flatten m.normalize := by
  have hall : ∀ ss : List Schema, flattenAll ss = ss.flatMap fun s => flatten s.normalize := by
    intro ss
    induction ss with
    | nil => rfl
    | cons s ss ih => rw [flattenAll, ih, List.flatMap_cons]
  cases ms with
  | none => rfl
  | some ss => exact hall ss

/-- Only unions are unions. -/
theorem isUnion_eq_false (h : f.kind ≠ .union) : (node f ps i a ms).isUnion = false := by
  simpa [isUnion, kind?, facets?] using h

/-- Other schemas are flat. -/
theorem flatten_of_isUnion_eq_false {s : Schema} (h : s.isUnion = false) : flatten s = [s] := by
  rw [flatten, h]
  rfl

theorem members_node : (node f ps i a ms).members = ms.getD [] := by
  cases ms <;> rfl

/-- A union is flattened to its members. -/
theorem flatten_union (h : f.kind = .union) {ss : List Schema} :
    flatten (.node f ps i a (some ss)) = ss := by
  simp [flatten, isUnion, kind?, facets?, h, members]

end Kinds

/-! ### Equal schemas -/

namespace Same

variable {s t : Schema}

/-- Equal schemas have equal keywords. -/
theorem facets? (h : Same s t) : Option.Rel Facets.Same s.facets? t.facets? := by
  cases s with
  | reference path =>
    obtain ⟨other, rfl, -⟩ := same_reference_iff.1 h
    exact .none
  | node f ps i a ms =>
    obtain ⟨g, qs, j, b, ns, rfl, hf, -⟩ := h.exists_node
    exact .some hf

/-- Schemas that are the same have the same kind. -/
theorem kind? (h : Same s t) : s.kind? = t.kind? := by
  have hfacets := h.facets?
  unfold Schema.kind?
  generalize s.facets? = x at hfacets ⊢
  generalize t.facets? = y at hfacets ⊢
  cases hfacets with
  | none => rfl
  | some hf =>
    obtain ⟨hkind, -⟩ := of_equal_facets hf
    exact congrArg some hkind

/-- They have the same title. -/
theorem title (h : Same s t) : s.title = t.title := by
  have hfacets := h.facets?
  unfold Schema.title
  generalize s.facets? = x at hfacets ⊢
  generalize t.facets? = y at hfacets ⊢
  cases hfacets with
  | none => rfl
  | some hf =>
    obtain ⟨-, htitle, -⟩ := of_equal_facets hf
    exact htitle

/-- Both are null or neither is. -/
theorem isAbsent (h : Same s t) : s.isAbsent = t.isAbsent := by
  unfold Schema.isAbsent
  rw [h.kind?]

/-- Both are unions or neither is. -/
theorem isUnion (h : Same s t) : s.isUnion = t.isUnion := by
  unfold Schema.isUnion
  rw [h.kind?]

/-- Equality does not tell equal schemas apart. -/
theorem beq_eq {s' t' : Schema} (h : Same s t) (h' : Same s' t') : (s == s') = (t == t') := by
  rw [Bool.eq_iff_iff]
  constructor
  · intro hss
    have hsame : Same s s' := ⟨h.left, h'.left, hss⟩
    exact ((h.symm.trans hsame).trans h').equal
  · intro htt
    have hsame : Same t t' := ⟨h.right, h'.right, htt⟩
    exact ((h.trans hsame).trans h'.symm).equal

/-- Equal schemas have members that are equal one by one. -/
theorem members (h : Same s t) : List.Forall₂ Same s.members t.members := by
  cases s with
  | reference path =>
    obtain ⟨other, rfl, -⟩ := same_reference_iff.1 h
    exact .nil
  | node f ps i a ms =>
    obtain ⟨g, qs, j, b, ns, rfl, -, -, -, -, hms⟩ := h.exists_node
    cases hms with
    | none => exact .nil
    | some hms => exact hms

/-- They are flattened to members that are the same, one by one. -/
theorem flatten (h : Same s t) : List.Forall₂ Same s.flatten t.flatten := by
  unfold Schema.flatten
  rw [h.isUnion]
  by_cases hunion : t.isUnion = true
  · rw [if_pos hunion, if_pos hunion]
    exact h.members
  · rw [if_neg hunion, if_neg hunion]
    exact .cons h .nil

end Same

theorem same_absent : Same absent absent :=
  .refl (each_leaf.2 List.nodup_nil)

/-- Equal schemas stay equal when null is split off both. -/
theorem Same.splitNull {s t : Schema} (h : Same s t) (nullable : Bool) :
    Same (splitNull nullable s) (splitNull nullable t) := by
  cases nullable with
  | false => exact h
  | true =>
    have hfacets : Facets.Same { kind := .union } { kind := .union } := (Facets.equivAt _).refl
    have hmembers : List.Forall₂ Same [s, absent] [t, absent] := .cons h (.cons same_absent .nil)
    exact same_node_iff.2 ⟨hfacets, .none, .none, .none, .some hmembers⟩

/-- Whatever relates equal schemas is kept when flat members are put into normal form. -/
theorem forall₂_tidyMembers {R : Schema → Schema → Prop} (hsame : ∀ s t, R s t → Same s t)
    (habsent : R absent absent) (nullable : Bool) {ss ts : List Schema}
    (h : List.Forall₂ R ss ts) :
    List.Forall₂ R (tidyMembers nullable ss) (tidyMembers nullable ts) := by
  -- All tests on members give the same answer for equal schemas.
  have hflag : ∀ s t, R s t → s.isAbsent = t.isAbsent := fun s t hst => (hsame s t hst).isAbsent
  have hpresent : List.Forall₂ R (ss.filter (!·.isAbsent)) (ts.filter (!·.isAbsent)) := by
    refine List.rel_filter ?_ h
    intro s t hst
    show (!s.isAbsent) = true ↔ (!t.isAbsent) = true
    rw [hflag s t hst]
  have hdistinct := forall₂_distinct (fun s t s' t' hst hst' => (hsame s t hst).beq_eq
    (hsame s' t' hst')) hpresent
  have hany : ss.any (·.isAbsent) = ts.any (·.isAbsent) := any_eq_of_forall₂ h hflag
  unfold tidyMembers
  rw [hany]
  refine List.rel_append hdistinct ?_
  by_cases hnull : (nullable || ts.any (·.isAbsent)) = true
  · rw [if_pos hnull]
    exact .cons habsent .nil
  · rw [if_neg hnull]
    exact .nil

/-- Members that are related one by one when they are flat are related when all are. -/
theorem forall₂_flattenMembers {R : Schema → Schema → Prop} {ms ns : Option (List Schema)}
    (h : Option.Rel (List.Forall₂ Same) ms ns)
    (hR : ∀ m ∈ ms.getD [], ∀ n ∈ ns.getD [], Same m n →
      List.Forall₂ R (flatten m.normalize) (flatten n.normalize)) :
    List.Forall₂ R (flattenMembers ms) (flattenMembers ns) := by
  rw [flattenMembers_eq, flattenMembers_eq]
  cases h with
  | none => exact .nil
  | @some ss ts h =>
    have hnext : List.Forall₂ (fun s t => List.Forall₂ R (flatten s.normalize)
        (flatten t.normalize)) ss ts := forall₂_imp_of_mem h hR
    exact List.rel_flatMap hnext fun _ _ hst => hst

/-- Equal schemas have equal normal forms. -/
theorem Same.normalize {s t : Schema} (h : Same s t) : Same s.normalize t.normalize := by
  induction s using induction_children generalizing t with
  | h s ih =>
    cases s with
    | reference path =>
      obtain ⟨other, rfl, rfl⟩ := same_reference_iff.1 h
      exact h
    | node f ps i a ms =>
      obtain ⟨g, qs, j, b, ns, rfl, hf, hps, hi, ha, hms⟩ := h.exists_node
      obtain ⟨hkind, -, hnullable, -⟩ := of_equal_facets hf
      have hsplit := hf.notNullable
      have hsame : Same (.node { f with nullable := false } ps i a ms)
          (.node { g with nullable := false } qs j b ns) :=
        same_node_iff.2 ⟨hsplit, hps, hi, ha, hms⟩
      rcases f.kind.cases_read with ⟨k, hk⟩ | hk | hk | hk | hk
      · have hk' : g.kind.scalar? = some k := hkind ▸ hk
        rw [normalize_scalar hk, normalize_scalar hk', hnullable]
        exact hsame.splitNull _
      · have hk' : g.kind = .null := hkind ▸ hk
        rw [normalize_null hk, normalize_null hk']
        exact h
      · -- The items of an array are put into normal form.
        have hk' : g.kind = .array := hkind ▸ hk
        have hitems : Option.Rel Same (normalizePart i) (normalizePart j) := by
          cases hi with
          | none => exact .none
          | some hi => exact .some (ih _ (by simp [children]) hi)
        rw [normalize_array hk, normalize_array hk', hnullable]
        exact (same_node_iff.2 ⟨hsplit, hps, hitems, ha, hms⟩).splitNull _
      · -- The members of a union are flat before they are tidy.
        have hk' : g.kind = .union := hkind ▸ hk
        have hflat : List.Forall₂ Same (flattenMembers ms) (flattenMembers ns) := by
          refine forall₂_flattenMembers hms fun m hm n _ hmn => ?_
          exact (ih m (by simp [children, hm]) hmn).flatten
        have htidy := forall₂_tidyMembers (fun _ _ hst => hst) same_absent g.nullable hflat
        rw [normalize_union hk, normalize_union hk', hnullable]
        exact same_node_iff.2 ⟨hsplit, hps, hi, ha, .some htidy⟩
      · have hk' : g.kind = .object := hkind ▸ hk
        rw [normalize_object hk, normalize_object hk', hnullable]
        exact hsame.splitNull _

end Schema

end DataShapes
