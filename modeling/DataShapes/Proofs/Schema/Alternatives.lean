import DataShapes.Proofs.Schema.Firsts
import DataShapes.Proofs.Schema.NormalForm

/-!
# Normal forms list alternatives

A schema admits a flat list of alternatives: those of the members of a union one after the other, any
other node alone, and "no value" behind what is nullable.  Normal forms are computed from the inside
out, and equal members are dropped at every level.  What comes out is the flat list all the same, with
equal alternatives dropped once and "no value" moved to the end, since dropping the repetitions of a
part first does not change which items of the whole are repetitions.

Main definitions:
* `Schema.bare`: a node without its admission of null;
* `Schema.Within`: what is reached through members of unions and items of arrays;
* `Schema.Plain`: null is no flag of the node, and no member of it is a union.

Main statements:
* `Schema.tidyMembers_append`: parts of a list may be tidied up before the whole;
* `Schema.tidyMembers_flatten_normalize`: the normal form lists the alternatives;
* `Schema.normalize_normalize`: a second run changes nothing;
* `Schema.plain_of_within_normalize`: no flag for null and no nested union is left;
* `Schema.normalize_lists_alternatives`: all of it together.
-/

namespace DataShapes

namespace Schema

/-! ### Tidy members -/

/-- Admitting null comes to "no value" behind the flat members. -/
theorem tidyMembers_eq (nullable : Bool) (flat : List Schema) :
    tidyMembers nullable flat = tidyMembers false (flat ++ if nullable then [absent] else []) := by
  have habsent : absent.isAbsent = true := rfl
  cases nullable <;> simp [tidyMembers, List.filter_append, habsent]

/-- Apart from null, tidy members are the distinct ones of the flat members. -/
theorem filter_tidyMembers (nullable : Bool) (flat : List Schema) :
    (tidyMembers nullable flat).filter (!·.isAbsent) = distinct (flat.filter (!·.isAbsent)) := by
  have hpresent : (distinct (flat.filter (!·.isAbsent))).filter (!·.isAbsent)
      = distinct (flat.filter (!·.isAbsent)) :=
    List.filter_eq_self.2 fun _ ht => (List.mem_filter.1 (mem_of_mem_distinct ht)).2
  have hlast : (if nullable || flat.any (·.isAbsent) then [absent] else []).filter (!·.isAbsent)
      = [] := by
    split <;> rfl
  rw [tidyMembers, List.filter_append, hpresent, hlast, List.append_nil]

/-- Null is a tidy member when it is a flat one or is admitted besides. -/
theorem any_tidyMembers (nullable : Bool) (flat : List Schema) :
    (tidyMembers nullable flat).any (·.isAbsent) = (nullable || flat.any (·.isAbsent)) := by
  have hpresent : (distinct (flat.filter (!·.isAbsent))).any (·.isAbsent) = false := by
    rw [List.any_eq_false]
    intro t ht
    simpa using (List.mem_filter.1 (mem_of_mem_distinct ht)).2
  have habsent : absent.isAbsent = true := rfl
  rw [tidyMembers, List.any_append, hpresent, Bool.false_or]
  by_cases hnull : (nullable || flat.any (·.isAbsent)) = true
  · rw [if_pos hnull, hnull, List.any_cons, habsent, Bool.true_or]
  · rw [if_neg hnull, Bool.eq_false_iff.2 hnull, List.any_nil]

/-- Null is a tidy member once at most. -/
theorem length_filter_tidyMembers_le (nullable : Bool) (flat : List Schema) :
    ((tidyMembers nullable flat).filter (·.isAbsent)).length ≤ 1 := by
  have hpresent : (distinct (flat.filter (!·.isAbsent))).filter (·.isAbsent) = [] := by
    rw [List.filter_eq_nil_iff]
    intro t ht
    simpa using (List.mem_filter.1 (mem_of_mem_distinct ht)).2
  rw [tidyMembers, List.filter_append, hpresent, List.nil_append]
  refine (List.length_filter_le _ _).trans ?_
  split <;> simp

/-- Equality of schemas in which no property occurs twice is transitive. -/
theorem beq_trans (x y z : Schema) (hx : x.Each DistinctKeys) (hy : y.Each DistinctKeys)
    (hz : z.Each DistinctKeys) (hxy : (x == y) = true) (hyz : (y == z) = true) :
    (x == z) = true := by
  have hleft : Same x y := ⟨hx, hy, hxy⟩
  have hright : Same y z := ⟨hy, hz, hyz⟩
  exact (hleft.trans hright).equal

theorem each_absent : absent.Each DistinctKeys := each_leaf.2 List.nodup_nil

/-- Null has no properties, so they are distinct. -/
theorem each_of_mem_ite {nullable : Bool} {t : Schema}
    (ht : t ∈ if nullable then [absent] else []) : t.Each DistinctKeys := by
  split at ht
  · rw [List.mem_singleton.1 ht]
    exact each_absent
  · exact absurd ht List.not_mem_nil

/-- Parts of a list may be tidied up before the whole. -/
theorem tidyMembers_append {xs ys : List Schema} (hxs : ∀ x ∈ xs, x.Each DistinctKeys)
    (hys : ∀ y ∈ ys, y.Each DistinctKeys) :
    tidyMembers false (tidyMembers false xs ++ tidyMembers false ys)
      = tidyMembers false (xs ++ ys) := by
  have hdistinct : distinct (distinct (xs.filter (!·.isAbsent))
      ++ distinct (ys.filter (!·.isAbsent))) = distinct ((xs ++ ys).filter (!·.isAbsent)) := by
    rw [List.filter_append]
    exact distinct_distinct_append beq_trans (fun x hx => hxs x (List.mem_of_mem_filter hx))
      fun y hy => hys y (List.mem_of_mem_filter hy)
  rw [tidyMembers, List.filter_append, filter_tidyMembers, filter_tidyMembers, hdistinct,
    List.any_append, any_tidyMembers, any_tidyMembers, Bool.false_or, Bool.false_or, Bool.false_or,
    ← List.any_append]
  rfl

/-- Tidying up twice changes nothing. -/
theorem tidyMembers_tidyMembers {nullable : Bool} {xs : List Schema}
    (hxs : ∀ x ∈ xs, x.Each DistinctKeys) :
    tidyMembers false (tidyMembers nullable xs) = tidyMembers nullable xs := by
  have hall : ∀ x ∈ xs ++ (if nullable then [absent] else []), x.Each DistinctKeys := by
    rw [List.forall_mem_append]
    exact ⟨hxs, fun _ hx => each_of_mem_ite hx⟩
  have hnil : tidyMembers false ([] : List Schema) = [] := rfl
  have htwice := tidyMembers_append hall fun y (hy : y ∈ []) => absurd hy List.not_mem_nil
  rw [hnil, List.append_nil, List.append_nil] at htwice
  rw [tidyMembers_eq nullable xs]
  exact htwice

/-- What the parts of a list come to when they are tidy decides what the list comes to. -/
theorem tidyMembers_append_congr {xs xs' ys ys' : List Schema}
    (hxs : ∀ x ∈ xs, x.Each DistinctKeys) (hxs' : ∀ x ∈ xs', x.Each DistinctKeys)
    (hys : ∀ y ∈ ys, y.Each DistinctKeys) (hys' : ∀ y ∈ ys', y.Each DistinctKeys)
    (hleft : tidyMembers false xs = tidyMembers false xs')
    (hright : tidyMembers false ys = tidyMembers false ys') :
    tidyMembers false (xs ++ ys) = tidyMembers false (xs' ++ ys') := by
  rw [← tidyMembers_append hxs hys, hleft, hright, tidyMembers_append hxs' hys']

/-- Lists of members that are tidied alike, one by one, are tidied alike together. -/
theorem tidyMembers_flatMap_congr {ss : List Schema} {g h : Schema → List Schema}
    (hg : ∀ s ∈ ss, ∀ t ∈ g s, t.Each DistinctKeys) (hh : ∀ s ∈ ss, ∀ t ∈ h s, t.Each DistinctKeys)
    (hgh : ∀ s ∈ ss, tidyMembers false (g s) = tidyMembers false (h s)) :
    tidyMembers false (ss.flatMap g) = tidyMembers false (ss.flatMap h) := by
  induction ss with
  | nil => rfl
  | cons s ss ih =>
    obtain ⟨hg, hgs⟩ := List.forall_mem_cons.1 hg
    obtain ⟨hh, hhs⟩ := List.forall_mem_cons.1 hh
    obtain ⟨hgh, hghs⟩ := List.forall_mem_cons.1 hgh
    rw [List.flatMap_cons, List.flatMap_cons]
    exact tidyMembers_append_congr hg hh (List.forall_mem_flatMap.2 hgs)
      (List.forall_mem_flatMap.2 hhs) hgh (ih hgs hhs hghs)

/-- Tidy members are the first occurrences, with "no value" moved to the end. -/
theorem tidyMembers_eq_firsts {xs : List Schema} (hxs : ∀ x ∈ xs, x.Each DistinctKeys) :
    tidyMembers false xs = firsts (xs.filter (!·.isAbsent))
      ++ if xs.any (·.isAbsent) then [absent] else [] := by
  rw [tidyMembers, distinct_eq_firsts beq_trans fun x hx => hxs x (List.mem_of_mem_filter hx),
    Bool.false_or]

/-! ### The normal form lists the alternatives -/

section Alternatives

variable {f : Facets} {ps : Option (List (String × Schema))} {i a : Option Schema}
  {ms : Option (List Schema)}

/-- The alternatives of a union are those of its members, with null behind them when it is nullable. -/
theorem alternatives_union (h : f.kind = .union) :
    alternatives (.node f ps i a ms)
      = (ms.getD []).flatMap alternatives ++ if f.nullable then [absent] else [] := by
  have hall : ∀ ss : List Schema, alternativesOfAll ss = ss.flatMap alternatives := by
    intro ss
    induction ss with
    | nil => rfl
    | cons s ss ih => rw [alternativesOfAll, ih, List.flatMap_cons]
  have hmembers : alternativesOfMembers ms = (ms.getD []).flatMap alternatives := by
    cases ms with
    | none => rfl
    | some ss => exact hall ss
  simp only [alternatives, h, hmembers]

/-- A union is a node of that kind. -/
theorem exists_node_of_isUnion {s : Schema} (h : s.isUnion = true) :
    ∃ f ps i a ms, s = .node f ps i a ms ∧ f.kind = .union := by
  cases s with
  | reference path => exact absurd h Bool.false_ne_true
  | node f ps i a ms => exact ⟨f, ps, i, a, ms, rfl, by simpa [isUnion, kind?, facets?] using h⟩

/-- "No value" is its own normal form. -/
theorem normalize_of_isAbsent {s : Schema} (h : s.isAbsent = true) :
    s.normalize = s ∧ s.alternatives = [s] := by
  cases s with
  | reference path => exact ⟨rfl, rfl⟩
  | node f ps i a ms =>
    have hkind : f.kind = .null := by simpa [isAbsent, kind?, facets?] using h
    exact ⟨normalize_null hkind, by simp only [alternatives, hkind]⟩

/-- The node without admission of null, and the items of an array in normal form. -/
def bare : Schema → Schema
  | .reference path => .reference path
  | .node f ps i a ms =>
    .node { f with nullable := false } ps (if f.kind = .array then normalizePart i else i) a ms

@[simp] theorem kind?_bare (s : Schema) : s.bare.kind? = s.kind? := by
  cases s <;> rfl

@[simp] theorem isUnion_bare (s : Schema) : s.bare.isUnion = s.isUnion := by
  rw [isUnion, kind?_bare, isUnion]

@[simp] theorem isAbsent_bare (s : Schema) : s.bare.isAbsent = s.isAbsent := by
  rw [isAbsent, kind?_bare, isAbsent]

@[simp] theorem nullable_bare (s : Schema) : s.bare.nullable = false := by
  cases s <;> rfl

/-- Null is split off a node that is neither a union nor "no value". -/
theorem normalize_eq_splitNull {s : Schema} (hunion : s.isUnion = false)
    (habsent : s.isAbsent = false) :
    s.normalize = splitNull s.nullable s.bare
      ∧ s.alternatives = s.bare :: if s.nullable then [absent] else [] := by
  cases s with
  | reference path => exact ⟨rfl, rfl⟩
  | node f ps i a ms =>
    have hnullable : (node f ps i a ms).nullable = f.nullable := rfl
    rw [hnullable]
    cases hkind : f.kind with
    | union => simp [isUnion, kind?, facets?, hkind] at hunion
    | null => simp [isAbsent, kind?, facets?, hkind] at habsent
    | _ => simp [normalize, alternatives, bare, hkind]

/-- What is no union lists its alternatives as they are. -/
theorem flatten_normalize_of_isUnion_eq_false {s : Schema} (hunion : s.isUnion = false) :
    flatten s.normalize = s.alternatives := by
  by_cases habsent : s.isAbsent = true
  · obtain ⟨hnormal, halternatives⟩ := normalize_of_isAbsent habsent
    rw [hnormal, halternatives, flatten_of_isUnion_eq_false hunion]
  · obtain ⟨hnormal, halternatives⟩ := normalize_eq_splitNull hunion (Bool.eq_false_iff.2 habsent)
    rw [hnormal, halternatives]
    cases s.nullable with
    | true => rfl
    | false => exact flatten_of_isUnion_eq_false ((isUnion_bare s).trans hunion)

/-- No property occurs twice in an alternative. -/
theorem Each.alternatives {s : Schema} (hs : s.Each DistinctKeys) :
    ∀ t ∈ s.alternatives, t.Each DistinctKeys := by
  induction s using induction_children with
  | h s ih =>
    -- A union collects from its members; another node is taken apart in one step.
    by_cases hunion : s.isUnion = true
    · obtain ⟨f, ps, i, a, ms, rfl, hkind⟩ := exists_node_of_isUnion hunion
      have hmembers : ∀ m ∈ ms.getD [], ∀ t ∈ m.alternatives, t.Each DistinctKeys := by
        intro m hm
        have hchild : m ∈ (node f ps i a ms).children := by simp [children, hm]
        exact ih m hchild (hs.child hchild)
      rw [alternatives_union hkind, List.forall_mem_append]
      exact ⟨List.forall_mem_flatMap.2 hmembers, fun _ ht => each_of_mem_ite ht⟩
    · intro t ht
      rw [← flatten_normalize_of_isUnion_eq_false (Bool.eq_false_iff.2 hunion)] at ht
      exact (hs.normalize normalStable_distinctKeys).flatten ht

/-- The flat members of a normal form have distinct properties when the schema has. -/
theorem Each.flatten_normalize {s : Schema} (hs : s.Each DistinctKeys) :
    ∀ t ∈ s.normalize.flatten, t.Each DistinctKeys :=
  fun _ ht => (hs.normalize normalStable_distinctKeys).flatten ht

/-- So have the flat members of a union. -/
theorem each_flattenMembers (hs : (node f ps i a ms).Each DistinctKeys) :
    ∀ t ∈ flattenMembers ms, t.Each DistinctKeys := by
  rw [flattenMembers_eq, List.forall_mem_flatMap]
  intro m hm
  have hchild : m ∈ (node f ps i a ms).children := by simp [children, hm]
  exact (hs.child hchild).flatten_normalize

/-- The normal form lists the alternatives. -/
theorem tidyMembers_flatten_normalize {s : Schema} (hs : s.Each DistinctKeys) :
    tidyMembers false (flatten s.normalize) = tidyMembers false s.alternatives := by
  induction s using induction_children with
  | h s ih =>
    by_cases hunion : s.isUnion = true
    · obtain ⟨f, ps, i, a, ms, rfl, hkind⟩ := exists_node_of_isUnion hunion
      have hms : ∀ m ∈ ms.getD [], m.Each DistinctKeys := fun m hm =>
        hs.child (by simp [children, hm])
      have hflat : ∀ m ∈ ms.getD [], ∀ t ∈ flatten m.normalize, t.Each DistinctKeys :=
        fun m hm => (hms m hm).flatten_normalize
      have hlisted : ∀ m ∈ ms.getD [], ∀ t ∈ m.alternatives, t.Each DistinctKeys :=
        fun m hm => (hms m hm).alternatives
      have hmembers : tidyMembers false ((ms.getD []).flatMap fun m => flatten m.normalize)
          = tidyMembers false ((ms.getD []).flatMap alternatives) :=
        tidyMembers_flatMap_congr hflat hlisted fun m hm => ih m (by simp [children, hm]) (hms m hm)
      -- The members of the normal form are tidy already, and "no value" stands behind the others.
      calc tidyMembers false (flatten (normalize (.node f ps i a ms)))
          = tidyMembers false (tidyMembers f.nullable (flattenMembers ms)) := by
            rw [normalize_union hkind, flatten_union (by exact hkind)]
        _ = tidyMembers f.nullable (flattenMembers ms) := by
            rw [tidyMembers_tidyMembers (each_flattenMembers hs)]
        _ = tidyMembers false (((ms.getD []).flatMap fun m => flatten m.normalize)
              ++ if f.nullable then [absent] else []) := by
            rw [flattenMembers_eq, tidyMembers_eq]
        _ = tidyMembers false (alternatives (.node f ps i a ms)) := by
            rw [alternatives_union hkind]
            exact tidyMembers_append_congr (List.forall_mem_flatMap.2 hflat)
              (List.forall_mem_flatMap.2 hlisted) (fun _ ht => each_of_mem_ite ht)
              (fun _ ht => each_of_mem_ite ht) hmembers rfl
    · rw [flatten_normalize_of_isUnion_eq_false (Bool.eq_false_iff.2 hunion)]

/-- The members of a union in normal form are the first occurrences of its alternatives, with "no
    value" at the end. -/
theorem normalize_union_eq_firsts (hkind : f.kind = .union)
    (hs : (node f ps i a ms).Each DistinctKeys) :
    normalize (.node f ps i a ms) = .node { f with nullable := false } ps i a
      (some (firsts ((alternatives (.node f ps i a ms)).filter (!·.isAbsent))
        ++ if (alternatives (.node f ps i a ms)).any (·.isAbsent) then [absent] else [])) := by
  have hmembers := tidyMembers_flatten_normalize hs
  rw [normalize_union hkind, flatten_union (by exact hkind),
    tidyMembers_tidyMembers (each_flattenMembers hs), tidyMembers_eq_firsts hs.alternatives]
    at hmembers
  rw [normalize_union hkind, hmembers]

end Alternatives

/-! ### What is in normal form -/

section InNormalForm

variable {f : Facets} {ps : Option (List (String × Schema))} {i a : Option Schema} {s : Schema}

/-- The items of an array are a part of it. -/
theorem mem_children_of_items {c : Schema} (h : s.items = some c) : c ∈ s.children := by
  cases s with
  | reference path => cases h
  | node f ps i a ms =>
    have hi : i = some c := h
    simp [children, hi]

/-- A union is in normal form when its members are tidy, no unions and in normal form. -/
theorem normalize_eq_self_of_members {ss : List Schema} (hkind : f.kind = .union)
    (hnullable : f.nullable = false) (htidy : tidyMembers false ss = ss)
    (h : ∀ t ∈ ss, t.isUnion = false ∧ t.normalize = t) :
    normalize (.node f ps i a (some ss)) = .node f ps i a (some ss) := by
  have hflat : flattenMembers (some ss) = ss := by
    rw [flattenMembers_eq, Option.getD_some]
    have hsingle : ss.flatMap (fun t => flatten t.normalize) = ss.flatMap fun t => [t] := by
      refine List.flatMap_congr fun t ht => ?_
      obtain ⟨hunion, hnormal⟩ := h t ht
      rw [hnormal, flatten_of_isUnion_eq_false hunion]
    rw [hsingle, List.flatMap_singleton']
  have hfacets : { f with nullable := false } = f := by rw [← hnullable]
  rw [normalize_union hkind, hflat, hfacets, hnullable, htidy]

/-- A schema is in normal form after one run when that lists no unions, and only what is in normal
    form. -/
theorem normalize_normalize_of_flatten (hs : s.Each DistinctKeys)
    (h : ∀ t ∈ flatten s.normalize, t.isUnion = false ∧ t.normalize = t) :
    s.normalize.normalize = s.normalize := by
  by_cases hunion : s.isUnion = true
  · obtain ⟨f, ps, i, a, ms, rfl, hkind⟩ := exists_node_of_isUnion hunion
    have htidy : tidyMembers false (tidyMembers f.nullable _) = tidyMembers f.nullable _ :=
      tidyMembers_tidyMembers (each_flattenMembers hs)
    rw [normalize_union hkind, flatten_union (by exact hkind)] at h
    rw [normalize_union hkind]
    exact normalize_eq_self_of_members hkind rfl htidy h
  · rw [Bool.not_eq_true] at hunion
    by_cases habsent : s.isAbsent = true
    · rw [(normalize_of_isAbsent habsent).1, (normalize_of_isAbsent habsent).1]
    · obtain ⟨hnormal, -⟩ := normalize_eq_splitNull hunion (Bool.eq_false_iff.2 habsent)
      rw [hnormal] at h ⊢
      cases hnullable : s.nullable with
      | false =>
        -- Nothing is split off, and the node is all that is listed.
        have hbare : s.bare.isUnion = false := (isUnion_bare s).trans hunion
        rw [hnullable, splitNull, if_neg Bool.false_ne_true, flatten_of_isUnion_eq_false hbare] at h
        exact (h s.bare (List.mem_singleton.2 rfl)).2
      | true =>
        have hpresent : s.bare.isAbsent = false :=
          (isAbsent_bare s).trans (Bool.eq_false_iff.2 habsent)
        have htidy : tidyMembers false [s.bare, absent] = [s.bare, absent] := by
          have habsent : absent.isAbsent = true := rfl
          simp [tidyMembers, hpresent, habsent, distinct, distinctFrom]
        rw [hnullable] at h
        exact normalize_eq_self_of_members rfl rfl htidy h

/-- A node without admission of null is in normal form when the items of an array are. -/
theorem normalize_bare (hunion : s.isUnion = false) (habsent : s.isAbsent = false)
    (hitems : ∀ i, s.items = some i → i.normalize.normalize = i.normalize) :
    s.bare.normalize = s.bare := by
  have hbare : s.bare.bare = s.bare := by
    cases s with
    | reference path => rfl
    | node f ps i a ms =>
      -- Taking the null off changes nothing in a node that has none, except through its items.
      cases i with
      | none => by_cases hkind : f.kind = .array <;> simp [bare, hkind, normalizePart]
      | some i =>
        by_cases hkind : f.kind = .array <;> simp [bare, hkind, normalizePart, hitems i rfl]
  obtain ⟨hnormal, -⟩ := normalize_eq_splitNull ((isUnion_bare s).trans hunion)
    ((isAbsent_bare s).trans habsent)
  rw [hnormal, nullable_bare, hbare]
  rfl

/-- What the normal form lists is no union, and in normal form. -/
theorem normalize_eq_self_of_mem_flatten (hs : s.Each DistinctKeys) :
    ∀ t ∈ flatten s.normalize, t.isUnion = false ∧ t.normalize = t := by
  have hnone : absent.isUnion = false ∧ absent.normalize = absent := ⟨rfl, rfl⟩
  induction s using induction_children with
  | h s ih =>
    intro t ht
    by_cases hunion : s.isUnion = true
    · obtain ⟨f, ps, i, a, ms, rfl, hkind⟩ := exists_node_of_isUnion hunion
      rw [normalize_union hkind, flatten_union (by exact hkind)] at ht
      rcases mem_of_mem_tidyMembers ht with ht | rfl
      · obtain ⟨m, hm, ht⟩ := mem_flattenMembers.1 ht
        have hchild : m ∈ (node f ps i a ms).children := by simp [children, hm]
        exact ih m hchild (hs.child hchild) t ht
      · exact hnone
    · rw [Bool.not_eq_true] at hunion
      rw [flatten_normalize_of_isUnion_eq_false hunion] at ht
      by_cases habsent : s.isAbsent = true
      · obtain ⟨hnormal, halternatives⟩ := normalize_of_isAbsent habsent
        rw [halternatives, List.mem_singleton] at ht
        subst ht
        exact ⟨hunion, hnormal⟩
      · rw [Bool.not_eq_true] at habsent
        rw [(normalize_eq_splitNull hunion habsent).2, List.mem_cons] at ht
        rcases ht with rfl | ht
        · -- The items of an array are a part, so one run has put them into normal form.
          have hitems : ∀ i, s.items = some i → i.normalize.normalize = i.normalize := by
            intro i hi
            have hchild := mem_children_of_items hi
            exact normalize_normalize_of_flatten (hs.child hchild) (ih i hchild (hs.child hchild))
          exact ⟨(isUnion_bare s).trans hunion, normalize_bare hunion habsent hitems⟩
        · split at ht
          · rw [List.mem_singleton.1 ht]
            exact hnone
          · exact absurd ht List.not_mem_nil

/-- A second run changes nothing. -/
theorem normalize_normalize (hs : s.Each DistinctKeys) : s.normalize.normalize = s.normalize :=
  normalize_normalize_of_flatten hs (normalize_eq_self_of_mem_flatten hs)

/-- Null is no flag of the node, and no member of it is a union. -/
structure Plain (s : Schema) : Prop where
  notNullable : s.isAbsent = false → s.nullable = false
  noUnion : s.isUnion = true → ∀ m ∈ s.members, m.isUnion = false

/-- What is reached from a schema through members of unions and items of arrays. -/
inductive Within (s : Schema) : Schema → Prop where
  | self : Within s s
  | member {t m : Schema} : Within s t → t.isUnion = true → m ∈ t.members → Within s m
  | item {t i : Schema} : Within s t → t.kind? = some .array → t.items = some i → Within s i

/-- What is in normal form does not admit null by a flag. -/
theorem nullable_of_normalize_eq_self (h : s.normalize = s) (habsent : s.isAbsent = false) :
    s.nullable = false := by
  by_cases hunion : s.isUnion = true
  · obtain ⟨f, ps, i, a, ms, rfl, hkind⟩ := exists_node_of_isUnion hunion
    rw [normalize_union hkind] at h
    rw [← h]
    rfl
  · rw [Bool.not_eq_true] at hunion
    rw [Bool.eq_false_iff]
    intro hnullable
    -- Otherwise null would be split off, and the normal form would be a union.
    rw [(normalize_eq_splitNull hunion habsent).1, hnullable] at h
    have hsplit : (splitNull true s.bare).isUnion = true := rfl
    rw [h, hunion] at hsplit
    exact Bool.false_ne_true hsplit

/-- The items of an array in normal form are in normal form. -/
theorem normalize_items_of_normalize_eq_self (h : s.normalize = s) (hkind : s.kind? = some .array)
    {i : Schema} (hi : s.items = some i) : i.normalize = i := by
  have hunion : s.isUnion = false := by simp [isUnion, hkind]
  have habsent : s.isAbsent = false := by simp [isAbsent, hkind]
  -- A nullable array would have become a union.
  have hnullable : s.nullable = false := nullable_of_normalize_eq_self h habsent
  rw [(normalize_eq_splitNull hunion habsent).1, hnullable] at h
  cases s with
  | reference path => cases hi
  | node f ps j a ms =>
    have hj : j = some i := hi
    have harray : f.kind = .array := by simpa [kind?, facets?] using hkind
    subst hj
    have hitems : (bare (.node f ps (some i) a ms)).items = some i := congrArg items h
    rw [bare, if_pos harray] at hitems
    exact Option.some.inj hitems

/-- What stands within a normal form is in normal form. -/
theorem normalize_eq_self_of_within (hs : s.Each DistinctKeys) {t : Schema}
    (h : Within s.normalize t) : t.normalize = t ∧ t.Each DistinctKeys := by
  -- By induction on the way down: members of unions and items of arrays, as far as the normal form goes.
  induction h with
  | self => exact ⟨normalize_normalize hs, hs.normalize normalStable_distinctKeys⟩
  | @member t m _ hunion hm ih =>
    obtain ⟨hnormal, heach⟩ := ih
    have hflat : m ∈ flatten t.normalize := by
      rw [hnormal, flatten, if_pos hunion]
      exact hm
    exact ⟨(normalize_eq_self_of_mem_flatten heach m hflat).2, heach.flatten_normalize m hflat⟩
  | @item t i _ hkind hi ih =>
    obtain ⟨hnormal, heach⟩ := ih
    exact ⟨normalize_items_of_normalize_eq_self hnormal hkind hi,
      heach.child (mem_children_of_items hi)⟩

/-- No flag for null and no nested union is left in the normal form, through members of unions and
    items of arrays. -/
theorem plain_of_within_normalize (hs : s.Each DistinctKeys) {t : Schema}
    (h : Within s.normalize t) : t.Plain := by
  obtain ⟨hnormal, heach⟩ := normalize_eq_self_of_within hs h
  refine ⟨nullable_of_normalize_eq_self hnormal, fun hunion m hm => ?_⟩
  have hflat : m ∈ flatten t.normalize := by
    rw [hnormal, flatten, if_pos hunion]
    exact hm
  exact (normalize_eq_self_of_mem_flatten heach m hflat).1

/-- The normal form is flat: no member of it is a union, and "no value" is one at most once. -/
theorem isFlat_normalize (hs : s.Each DistinctKeys) : s.normalize.isFlat = true := by
  rw [isFlat]
  by_cases hunion : s.normalize.isUnion = true
  · have hmembers := (plain_of_within_normalize hs .self).noUnion hunion
    have hnone : s.normalize.members.any (·.isUnion) = false := by
      rw [List.any_eq_false]
      exact fun m hm => Bool.eq_false_iff.1 (hmembers m hm)
    -- The normal form is its own normal form, so its members are tidy.
    have htidy : ∃ nullable flat, s.normalize.members = tidyMembers nullable flat := by
      have hnormal := normalize_normalize hs
      obtain ⟨f, ps, i, a, ms, hnode, hkind⟩ := exists_node_of_isUnion hunion
      rw [hnode, normalize_union hkind] at hnormal
      rw [hnode, ← hnormal]
      exact ⟨_, _, rfl⟩
    obtain ⟨nullable, flat, htidy⟩ := htidy
    rw [hnone, htidy, decide_eq_true (length_filter_tidyMembers_le nullable flat)]
    simp
  · rw [Bool.eq_false_iff.2 hunion]
    rfl

/-- The normal form is the flat list of alternatives: for a union their first occurrences, with "no
    value" at the end, for any other node the alternatives as they are.  It is flat through and through,
    and a second run changes nothing. -/
theorem normalize_lists_alternatives (s : Schema) (hs : s.Each DistinctKeys) :
    (∀ f ps i a ms, s = .node f ps i a ms → f.kind = .union →
        s.normalize = .node { f with nullable := false } ps i a
          (some (firsts (s.alternatives.filter (!·.isAbsent))
            ++ if s.alternatives.any (·.isAbsent) then [absent] else [])))
      ∧ (s.isUnion = false → s.isAbsent = false → s.nullable = true →
        ∃ first, s.alternatives = [first, absent] ∧ s.normalize = unionOf [first, absent])
      ∧ (s.isUnion = false → s.isAbsent = true ∨ s.nullable = false →
        s.alternatives = [s.normalize])
      ∧ s.normalize.isFlat = true
      ∧ (∀ t, Within s.normalize t → t.Plain)
      ∧ s.normalize.normalize = s.normalize := by
  -- The three kinds of nodes, then what holds of all of them.
  refine ⟨?_, ?_, ?_, isFlat_normalize hs, fun t ht => plain_of_within_normalize hs ht,
    normalize_normalize hs⟩
  · rintro f ps i a ms rfl hkind
    exact normalize_union_eq_firsts hkind hs
  · intro hunion habsent hnullable
    obtain ⟨hnormal, halternatives⟩ := normalize_eq_splitNull hunion habsent
    rw [hnullable] at hnormal halternatives
    exact ⟨s.bare, halternatives, hnormal⟩
  · intro hunion hsingle
    by_cases habsent : s.isAbsent = true
    · obtain ⟨hnormal, halternatives⟩ := normalize_of_isAbsent habsent
      rw [halternatives, hnormal]
    · have hnullable : s.nullable = false := hsingle.resolve_left habsent
      obtain ⟨hnormal, halternatives⟩ :=
        normalize_eq_splitNull hunion (Bool.eq_false_iff.2 habsent)
      rw [halternatives, hnormal, hnullable]
      rfl

/-- A union with equal members at several levels, of which some admit null. -/
def layered : Schema :=
  unionOf [leaf { kind := .integer, nullable := true },
    .node { kind := .union, nullable := true } none none none
      (some [leaf { kind := .string }, leaf { kind := .integer }]),
    .node { kind := .array } none (some (leaf { kind := .string, nullable := true })) none none,
    leaf { kind := .string }]

/-- A union in a union, with null in both, is laid out flat with null at the end. -/
theorem normalize_lists_alternatives_layered :
    layered.Each DistinctKeys
      ∧ layered.normalize = unionOf [leaf { kind := .integer }, leaf { kind := .string },
          .node { kind := .array } none (some (unionOf [leaf { kind := .string }, absent])) none none,
          absent]
      ∧ layered.normalize.normalize = layered.normalize := by
  have hkeys : layered.Each DistinctKeys := by
    simp [layered, Each, nodes, nodesOfMembers, nodesOfAll, nodesOfPart, nodesOfProperties, unionOf,
      leaf, DistinctKeys, Table.keys]
  obtain ⟨hunion, -, -, -, -, hagain⟩ := normalize_lists_alternatives layered hkeys
  exact ⟨hkeys, hunion _ _ _ _ _ rfl rfl, hagain⟩

end InNormalForm

end Schema

end DataShapes
