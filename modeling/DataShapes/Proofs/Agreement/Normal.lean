import DataShapes.Proofs.Agreement.Schemas

/-!
# Normal forms admit what schemas admit

Putting a schema into normal form moves null out of the flags of nodes into members of unions, takes
unions out of unions and drops members that are equal to one before them.  None of this changes the
values that are admitted.  In a normal form no flag is left where a type signature is read, so the
signature misses nothing.

Main definitions:
* `Schema.NullSplit`: reading the schema meets no flag for null.

Main statements:
* `Schema.admits_normalize_iff`: the normal form admits the same values;
* `Schema.nullSplit_normalize`: a normal form has no flag for null where it is read.
-/

namespace DataShapes

section Distinct

variable {α : Type} [BEq α]

/-- Whatever is in a list is among its first occurrences, or something equal to it is. -/
theorem exists_mem_distinctFrom {kept xs : List α} {x : α} (h : x ∈ kept ∨ x ∈ xs) :
    ∃ y ∈ distinctFrom kept xs, y = x ∨ (y == x) = true := by
  induction xs generalizing kept with
  | nil => exact ⟨x, h.resolve_right List.not_mem_nil, .inl rfl⟩
  | cons z xs ih =>
    unfold distinctFrom
    split
    · rename_i hany
      obtain ⟨w, hw, hwz⟩ := List.any_eq_true.1 hany
      -- h ##1
      rcases h with h | h
      · exact ih (.inl h)
      · rcases List.mem_cons.1 h with rfl | h
        · -- The item that was kept stands for this one, and it is still kept at the end.
          have hkept : ∀ {xs kept : List α}, w ∈ kept → w ∈ distinctFrom kept xs := by
            intro xs
            induction xs with
            | nil => exact fun hw => hw
            | cons u xs ih =>
              intro kept hw
              unfold distinctFrom
              split
              · exact ih hw
              · exact ih (List.mem_append_left _ hw)
          exact ⟨w, hkept hw, .inr hwz⟩
        · exact ih (.inr h)
    · rcases h with h | h
      · exact ih (.inl (List.mem_append_left _ h))
      · rcases List.mem_cons.1 h with rfl | h
        · exact ih (.inl (List.mem_append_right _ (List.mem_singleton_self _)))
        · exact ih (.inr h)

/-- What does not tell equal items apart holds of some item of a list exactly when it holds of some
    first occurrence. -/
theorem exists_mem_distinct_iff {P : α → Prop} {xs : List α}
    (h : ∀ x ∈ xs, ∀ y ∈ xs, (x == y) = true → (P x ↔ P y)) :
    (∃ x ∈ distinct xs, P x) ↔ ∃ x ∈ xs, P x := by
  constructor
  · rintro ⟨x, hx, hP⟩
    exact ⟨x, mem_of_mem_distinct hx, hP⟩
  · rintro ⟨x, hx, hP⟩
    have hstart : x ∈ ([] : List α) ∨ x ∈ xs := .inr hx
    obtain ⟨y, hy, rfl | heq⟩ := exists_mem_distinctFrom hstart
    · exact ⟨y, hy, hP⟩
    · exact ⟨y, hy, (h y (mem_of_mem_distinct hy) x hx heq).2 hP⟩

end Distinct

namespace Schema

variable {c : Catalog} {v : Value}

/-! ### Members of unions -/

/-- A node that stands for "no value" admits null alone. -/
theorem admits_iff_of_isAbsent {s : Schema} (h : s.isAbsent = true) : Admits c s v ↔ v = .null := by
  cases s with
  | reference path => simp [isAbsent, kind?, facets?] at h
  | node f ps i a ms => exact admits_null_iff (by simpa [isAbsent, kind?, facets?] using h)

/-- Splitting null off a node changes nothing but the place where null is admitted. -/
theorem admits_splitNull_iff {s : Schema} {nullable : Bool} :
    Admits c (splitNull nullable s) v ↔ (nullable = true ∧ v = .null) ∨ Admits c s v := by
  cases nullable with
  | false => simp [splitNull]
  | true =>
    have habsent : Admits c absent v ↔ v = .null := admits_iff_of_isAbsent rfl
    show Admits c (unionOf [s, absent]) v ↔ _
    rw [unionOf, admits_union_iff rfl]
    simp only [Option.getD_some, List.mem_cons, List.not_mem_nil, or_false, exists_eq_or_imp,
      exists_eq_left, Bool.false_eq_true, false_and, false_or, habsent, true_and]
    exact or_comm

/-- Tidy members admit what the flat members admit, and null when it is admitted besides. -/
theorem admits_tidyMembers_iff {nullable : Bool} {flat : List Schema}
    (h : ∀ m ∈ flat, m.Each DistinctKeys) :
    (∃ m ∈ tidyMembers nullable flat, Admits c m v) ↔
      (nullable = true ∧ v = .null) ∨ ∃ m ∈ flat, Admits c m v := by
  have habsent : Admits c absent v ↔ v = .null := admits_iff_of_isAbsent rfl
  have hdistinct : (∃ m ∈ distinct (flat.filter (!·.isAbsent)), Admits c m v)
      ↔ ∃ m ∈ flat.filter (!·.isAbsent), Admits c m v := by
    refine exists_mem_distinct_iff fun x hx y hy hxy => ?_
    have hsame : Same x y := ⟨h x (List.mem_filter.1 hx).1, h y (List.mem_filter.1 hy).1, hxy⟩
    exact hsame.admits_iff v
  constructor
  · -- A tidy member is one of the flat members or the null at the end.
    rintro ⟨m, hm, hv⟩
    rcases List.mem_append.1 hm with hm | hm
    · obtain ⟨m, hm, hv⟩ := hdistinct.1 ⟨m, hm, hv⟩
      exact .inr ⟨m, (List.mem_filter.1 hm).1, hv⟩
    · split at hm
      · rename_i hcond
        rw [List.mem_singleton.1 hm, habsent] at hv
        rcases Bool.or_eq_true .. ▸ hcond with hnull | hany
        · exact .inl ⟨hnull, hv⟩
        · obtain ⟨m, hm, hmabsent⟩ := List.any_eq_true.1 hany
          exact .inr ⟨m, hm, (admits_iff_of_isAbsent hmabsent).2 hv⟩
      · cases hm
  · -- "No value" is put at the end once, wherever null was admitted before.
    have hlast : v = .null → (nullable || flat.any (·.isAbsent)) = true →
        ∃ m ∈ tidyMembers nullable flat, Admits c m v := by
      intro hv hcond
      refine ⟨absent, List.mem_append_right _ ?_, habsent.2 hv⟩
      rw [if_pos hcond]
      exact List.mem_singleton_self _
    rintro (⟨hnull, hv⟩ | ⟨m, hm, hv⟩)
    · exact hlast hv (by rw [hnull, Bool.true_or])
    · by_cases hmabsent : m.isAbsent = true
      · have hany : flat.any (·.isAbsent) = true := List.any_eq_true.2 ⟨m, hm, hmabsent⟩
        exact hlast ((admits_iff_of_isAbsent hmabsent).1 hv) (by rw [hany, Bool.or_true])
      · obtain ⟨m', hm', hv'⟩ :=
          hdistinct.2 ⟨m, List.mem_filter.2 ⟨hm, by simpa using hmabsent⟩, hv⟩
        exact ⟨m', List.mem_append_left _ hm', hv'⟩

/-- A union in normal form has no flag for null. -/
theorem nullable_normalize_of_isUnion {s : Schema} (h : s.normalize.isUnion = true) :
    s.normalize.nullable = false := by
  cases s with
  | reference path => rfl
  | node f ps i a ms =>
    unfold normalize at h ⊢
    split
    · rename_i hk
      simp [hk, isUnion, kind?, facets?] at h
    · rfl
    · cases hn : f.nullable <;> rfl
    · cases hn : f.nullable <;> rfl

/-- The members that a schema in normal form is flattened to admit what it admits. -/
theorem exists_mem_flatten_normalize_iff {s : Schema} :
    (∃ m ∈ flatten s.normalize, Admits c m v) ↔ Admits c s.normalize v := by
  unfold flatten
  split
  · rename_i hunion
    have hnull := nullable_normalize_of_isUnion hunion
    generalize s.normalize = t at hunion hnull
    cases t with
    | reference path => simp [isUnion, kind?, facets?] at hunion
    | node f ps i a ms =>
      have hk : f.kind = .union := by simpa [isUnion, kind?, facets?] using hunion
      -- The normal form of a union has no flag for null, so its members admit everything.
      have hflag : f.nullable = false := hnull
      rw [admits_union_iff hk, hflag]
      cases ms <;> simp [members]
  · simp

/-! ### Normal forms -/

/-- The flag for null adds null to what a node admits without it. -/
theorem admits_flag_iff {f : Facets} {ps : Option (List (String × Schema))} {i a : Option Schema}
    {ms : Option (List Schema)} :
    Admits c (.node f ps i a ms) v ↔
      (f.nullable = true ∧ v = .null) ∨
        Admits c (.node { f with nullable := false } ps i a ms) v := by
  have hbare : ∀ p : Prop, (false = true ∧ v = .null) ∨ p ↔ p := by simp
  -- Whatever the kind, null by the flag comes beside what the rest of the node admits.
  rcases f.kind.cases_read with ⟨k, hk⟩ | hk | hk | hk | hk
  · rw [admits_scalar_iff hk, admits_scalar_iff (f := { f with nullable := false }) hk, hbare]
  · rw [admits_null_iff hk, admits_null_iff (f := { f with nullable := false }) hk]
    tauto
  · rw [admits_array_iff hk, admits_array_iff (f := { f with nullable := false }) hk, hbare]
  · rw [admits_union_iff hk, admits_union_iff (f := { f with nullable := false }) hk, hbare]
  · by_cases hmap : IsMapNode f ps a
    · rw [admits_map_iff hk hmap, admits_map_iff (f := { f with nullable := false }) hk hmap, hbare]
    · rw [admits_object_iff hk hmap, admits_object_iff (f := { f with nullable := false }) hk hmap,
        hbare]

/-- The normal form of a schema admits what the schema admits. -/
theorem admits_normalize_iff {s : Schema} (h : s.Each DistinctKeys) :
    Admits c s.normalize v ↔ Admits c s v := by
  induction s using induction_children generalizing v with
  | h s ih =>
    cases s with
    | reference path => rfl
    | node f ps i a ms =>
      unfold normalize
      split
      · rfl
      · -- A union admits what its members admit, and so do their normal forms one by one.
        rename_i hk
        have hflat : ∀ m ∈ flattenMembers ms, m.Each DistinctKeys := by
          intro m hm
          obtain ⟨m', hm', hflatten⟩ := mem_flattenMembers.1 hm
          have hchild : m' ∈ (node f ps i a ms).children := by simp [children, hm']
          exact ((h.child hchild).normalize normalStable_distinctKeys).flatten hflatten
        have hmembers : (∃ m ∈ flattenMembers ms, Admits c m v) ↔
            ∃ m ∈ ms.getD [], Admits c m v := by
          have hone : ∀ m ∈ ms.getD [],
              ((∃ t ∈ flatten m.normalize, Admits c t v) ↔ Admits c m v) := by
            intro m hm
            have hchild : m ∈ (node f ps i a ms).children := by simp [children, hm]
            rw [exists_mem_flatten_normalize_iff, ih m hchild (h.child hchild)]
          constructor
          · rintro ⟨t, ht, hv⟩
            obtain ⟨m, hm, ht⟩ := mem_flattenMembers.1 ht
            exact ⟨m, hm, (hone m hm).1 ⟨t, ht, hv⟩⟩
          · rintro ⟨m, hm, hv⟩
            obtain ⟨t, ht, hv⟩ := (hone m hm).2 hv
            exact ⟨t, mem_flattenMembers.2 ⟨m, hm, ht⟩, hv⟩
        have htidy : (∃ m ∈ tidyMembers f.nullable (flattenMembers ms), Admits c m v) ↔
            (f.nullable = true ∧ v = .null) ∨ ∃ m ∈ flattenMembers ms, Admits c m v :=
          admits_tidyMembers_iff hflat
        rw [admits_union_iff hk, admits_union_iff (f := { f with nullable := false }) hk,
          Option.getD_some, htidy, hmembers]
        simp
      · -- Only the items of an array are put into normal form.
        rename_i hk
        rw [admits_splitNull_iff, admits_flag_iff (f := f),
          admits_array_iff (f := { f with nullable := false }) hk,
          admits_array_iff (f := { f with nullable := false }) hk]
        cases i with
        | none => rfl
        | some item =>
          have hchild : item ∈ (node f ps (some item) a ms).children := by simp [children]
          have hitem : v.IsArrayOf (Admits c item.normalize) ↔ v.IsArrayOf (Admits c item) :=
            Value.IsArrayOf.congr fun x => ih item hchild (h.child hchild)
          simp [normalizePart, hitem]
      · -- An object keeps its contents, and any other node has none.
        rw [admits_splitNull_iff, admits_flag_iff (f := f)]

/-! ### Reading normal forms -/

/-- No node that reading meets has a flag for null, unless it stands for "no value" anyway. -/
inductive NullSplit : Schema → Prop
  | intro {s : Schema} : s.isAbsent = true ∨ s.nullable = false → (∀ m ∈ s.readNext, NullSplit m) →
      NullSplit s

/-- Where a split schema is read it is null itself or has no flag for null. -/
theorem NullSplit.flag {s : Schema} (h : s.NullSplit) : s.isAbsent = true ∨ s.nullable = false := by
  cases h
  assumption

/-- What is read behind a split schema is split as well. -/
theorem NullSplit.next {s m : Schema} (h : s.NullSplit) (hm : m ∈ s.readNext) : m.NullSplit := by
  cases h with
  | intro _ hnext => exact hnext m hm

/-- A schema is split after its flag has been taken off. -/
theorem NullSplit.splitNull {s : Schema} (h : s.NullSplit) (nullable : Bool) :
    (splitNull nullable s).NullSplit := by
  cases nullable with
  | false => exact h
  | true =>
    refine .intro (.inr rfl) fun m hm => ?_
    have hm : m ∈ [s, absent] := hm
    rcases List.mem_cons.1 hm with rfl | hm
    · exact h
    · rw [List.mem_singleton.1 hm]
      exact .intro (.inl rfl) (by simp [absent, leaf, readNext])

/-- The members that a split schema is flattened to are split. -/
theorem NullSplit.flatten {s m : Schema} (h : s.NullSplit) (hm : m ∈ flatten s) : m.NullSplit := by
  unfold Schema.flatten at hm
  split at hm
  · rename_i hunion
    -- The members of a union are read next.
    refine h.next ?_
    cases s with
    | reference path => simp [members] at hm
    | node f ps i a ms =>
      have hk : f.kind = .union := by simpa [isUnion, kind?, facets?] using hunion
      cases ms with
      | none => simp [members] at hm
      | some ms => simpa [readNext, hk, members] using hm
  · rw [List.mem_singleton.1 hm]
    exact h

/-- A normal form has no flag for null where it is read. -/
theorem nullSplit_normalize (s : Schema) : s.normalize.NullSplit := by
  induction s using induction_children with
  | h s ih =>
    cases s with
    | reference path => exact .intro (.inr rfl) (by simp [normalize, readNext])
    | node f ps i a ms =>
      unfold normalize
      split
      · rename_i hk
        exact .intro (.inl (by simp [isAbsent, kind?, facets?, hk])) (by simp [readNext, hk])
      · -- The members of a union are tidy, and each comes from the normal form of a member.
        rename_i hk
        refine .intro (.inr rfl) fun m hm => ?_
        simp only [readNext, hk, Option.getD_some] at hm
        rcases mem_of_mem_tidyMembers hm with hm | rfl
        · obtain ⟨m', hm', hflatten⟩ := mem_flattenMembers.1 hm
          exact (ih m' (by simp [children, hm'])).flatten hflatten
        · exact .intro (.inl rfl) (by simp [absent, leaf, readNext])
      · rename_i hk
        refine NullSplit.splitNull (.intro (.inr rfl) fun m hm => ?_) _
        cases i with
        | none => simp [readNext, hk, normalizePart] at hm
        | some item =>
          simp only [readNext, hk, normalizePart, Option.toList_some, List.mem_singleton] at hm
          rw [hm]
          exact ih item (by simp [children])
      · -- The contents of an object are put into normal form when they are read.
        refine NullSplit.splitNull (.intro (.inr rfl) fun m hm => ?_) _
        rcases f.kind.cases_read with ⟨k, hk⟩ | hk | hk | hk | hk
        · cases hkind : f.kind <;> simp_all [readNext, SchemaKind.scalar?]
        · simp_all
        · simp_all
        · simp_all
        · simp only [readNext, hk] at hm
          obtain ⟨t, ht, rfl⟩ := List.mem_map.1 hm
          refine ih t ?_
          simp only [children, List.mem_append] at ht ⊢
          tauto

end Schema

end DataShapes
