import DataShapes.Schema.Normal

/-!
# Levels of objects in a schema

Reading a type signature off a schema goes down into the normal form of the contents of objects,
which may be larger than the contents themselves.  What goes down is the number of object levels:
taking the normal form never adds one.

Main definitions:
* `Schema.levels`: how deep objects are nested.

Main statements:
* `Schema.levels_normalize_le`: the normal form has no more levels;
* `Schema.levels_property_lt`, `Schema.levels_additional_lt`: the contents of an object have fewer.
-/

namespace DataShapes

namespace Schema

mutual

/-- How deep objects are nested. -/
def levels : Schema → Nat
  | .reference _ => 0
  | .node f properties items additional members =>
    let inner := max (max (levelsOfProperties properties) (levelsOfPart items))
      (max (levelsOfPart additional) (levelsOfMembers members))
    if f.kind = .object then inner + 1 else inner

/-- The greatest number of levels among properties. -/
def levelsOfProperties : Option (List (String × Schema)) → Nat
  | none => 0
  | some ps => levelsOfEntries ps

/-- The greatest number of levels among a list of properties. -/
def levelsOfEntries : List (String × Schema) → Nat
  | [] => 0
  | (_, s) :: ps => max (levels s) (levelsOfEntries ps)

/-- The number of levels of a part. -/
def levelsOfPart : Option Schema → Nat
  | none => 0
  | some s => levels s

/-- The greatest number of levels among members. -/
def levelsOfMembers : Option (List Schema) → Nat
  | none => 0
  | some ss => levelsOfAll ss

/-- The greatest number of levels in a list. -/
def levelsOfAll : List Schema → Nat
  | [] => 0
  | s :: ss => max (levels s) (levelsOfAll ss)

end

/-- The schemas of a list have at most so many levels when each of them has. -/
theorem levelsOfAll_le_iff (ss : List Schema) (n : Nat) :
    levelsOfAll ss ≤ n ↔ ∀ s ∈ ss, levels s ≤ n := by
  induction ss with
  | nil => simp [levelsOfAll]
  | cons s ss ih => rw [levelsOfAll, Nat.max_le, ih, List.forall_mem_cons]

/-- No schema of a list has more levels than the list. -/
theorem levels_le_levelsOfAll {ss : List Schema} {s : Schema} (h : s ∈ ss) :
    levels s ≤ levelsOfAll ss :=
  (levelsOfAll_le_iff ss _).1 (Nat.le_refl _) s h

/-- No schema of a table has more levels than the table. -/
theorem levels_le_levelsOfEntries {ps : List (String × Schema)} {p : String × Schema}
    (h : p ∈ ps) : levels p.2 ≤ levelsOfEntries ps := by
  induction ps with
  | nil => simp at h
  | cons q ps ih =>
    obtain ⟨name, s⟩ := q
    unfold levelsOfEntries
    rcases List.mem_cons.1 h with rfl | h
    · exact Nat.le_max_left _ _
    · exact Nat.le_trans (ih h) (Nat.le_max_right _ _)

/-- The schema of null has no object level. -/
@[simp] theorem levels_absent : levels absent = 0 := by
  simp [absent, leaf, levels, levelsOfProperties, levelsOfPart, levelsOfMembers]

/-- Admitting "no value" adds no level. -/
theorem levels_splitNull (nullable : Bool) (s : Schema) :
    levels (splitNull nullable s) = levels s := by
  cases nullable
  · rfl
  · simp [splitNull, orAbsent, unionOf, levels, levelsOfProperties, levelsOfPart, levelsOfMembers,
      levelsOfAll]

/-- Flattening a schema adds no level. -/
theorem levels_le_of_mem_flatten {s t : Schema} (h : t ∈ flatten s) : levels t ≤ levels s := by
  unfold flatten at h
  split at h
  · -- Only a union is taken apart, and its members are among its levels.
    cases s with
    | reference path => simp [Schema.members] at h
    | node f ps i a ms =>
      cases ms with
      | none => simp [Schema.members] at h
      | some ss =>
        have hm : levels t ≤ levelsOfAll ss := levels_le_levelsOfAll (by simpa [Schema.members] using h)
        simp only [levels, levelsOfMembers]
        split <;> omega
  · simp only [List.mem_singleton] at h
    subst h
    exact Nat.le_refl _

/-- Putting union members into normal form adds no level. -/
theorem levels_le_of_mem_tidyMembers {nullable : Bool} {flat : List Schema} {t : Schema} {n : Nat}
    (hflat : ∀ s ∈ flat, levels s ≤ n) (h : t ∈ tidyMembers nullable flat) : levels t ≤ n := by
  unfold tidyMembers at h
  rcases List.mem_append.1 h with h | h
  · exact hflat t (List.mem_filter.1 (mem_of_mem_distinct h)).1
  · split at h
    · simp only [List.mem_singleton] at h
      subst h
      simp
    · simp at h

mutual

/-- The normal form has no more levels. -/
theorem levels_normalize_le : ∀ s : Schema, levels (normalize s) ≤ levels s
  | .reference _ => Nat.le_refl _
  | .node f ps items a ms => by
    -- The recursion follows that of the normal form; an object keeps its parts as they are.
    have hitems := levelsOfPart_normalizePart_le items
    have hms := levels_le_of_mem_flattenMembers ms
    unfold normalize
    split
    · exact Nat.le_refl _
    · rename_i hkind
      have : levelsOfAll (tidyMembers f.nullable (flattenMembers ms)) ≤ levelsOfMembers ms :=
        (levelsOfAll_le_iff _ _).2 fun t ht => levels_le_of_mem_tidyMembers hms ht
      simp only [levels, hkind, levelsOfMembers]
      simp only [reduceCtorEq, if_false]
      omega
    · rename_i hkind
      rw [levels_splitNull]
      simp only [levels, hkind]
      simp only [reduceCtorEq, if_false]
      omega
    · rw [levels_splitNull]
      exact Nat.le_refl _

/-- The normal form of a part has no more levels. -/
theorem levelsOfPart_normalizePart_le : ∀ s : Option Schema,
    levelsOfPart (normalizePart s) ≤ levelsOfPart s
  | none => Nat.le_refl _
  | some s => levels_normalize_le s

/-- Flattening the members of a union adds no level. -/
theorem levels_le_of_mem_flattenMembers : ∀ ms : Option (List Schema),
    ∀ t ∈ flattenMembers ms, levels t ≤ levelsOfMembers ms
  | none => by simp [flattenMembers]
  | some ss => levels_le_of_mem_flattenAll ss

/-- Flattening the normal forms of schemas adds no level. -/
theorem levels_le_of_mem_flattenAll : ∀ ss : List Schema,
    ∀ t ∈ flattenAll ss, levels t ≤ levelsOfAll ss
  | [] => by simp [flattenAll]
  | s :: ss => by
    have hs := levels_normalize_le s
    have hss := levels_le_of_mem_flattenAll ss
    intro t ht
    unfold flattenAll at ht
    unfold levelsOfAll
    rcases List.mem_append.1 ht with ht | ht
    · have := levels_le_of_mem_flatten ht
      omega
    · have := hss t ht
      omega

end

/-- The contents of an object have fewer levels, its properties first. -/
theorem levels_property_lt {f : Facets} {ps : Option (List (String × Schema))}
    {i a : Option Schema} {ms : Option (List Schema)} {p : String × Schema}
    (hkind : f.kind = .object) (h : p ∈ ps.getD []) :
    levels (normalize p.2) < levels (.node f ps i a ms) := by
  cases ps with
  | none => simp at h
  | some ps =>
    have h₁ := levels_normalize_le p.2
    have h₂ := levels_le_levelsOfEntries (show p ∈ ps from h)
    simp only [levels, hkind, if_true, levelsOfProperties]
    omega

/-- The contents of an object have fewer levels, its other values too. -/
theorem levels_additional_lt {f : Facets} {ps : Option (List (String × Schema))}
    {i : Option Schema} {ms : Option (List Schema)} {a : Schema} (hkind : f.kind = .object) :
    levels (normalize a) < levels (.node f ps i (some a) ms) := by
  have h := levels_normalize_le a
  simp only [levels, hkind, if_true, levelsOfPart]
  omega

/-- Items have no more levels than the node. -/
theorem levels_items_le {f : Facets} {ps : Option (List (String × Schema))} {a : Option Schema}
    {ms : Option (List Schema)} {i : Schema} : levels i ≤ levels (.node f ps (some i) a ms) := by
  simp only [levels, levelsOfPart]
  split <;> omega

/-- Members have no more levels than the union. -/
theorem levels_member_le {f : Facets} {ps : Option (List (String × Schema))} {i a : Option Schema}
    {ms : Option (List Schema)} {m : Schema} (h : m ∈ ms.getD []) :
    levels m ≤ levels (.node f ps i a ms) := by
  cases ms with
  | none => simp at h
  | some ms =>
    have := levels_le_levelsOfAll (show m ∈ ms from h)
    simp only [levels, levelsOfMembers]
    split <;> omega

/-- Members are smaller than the union. -/
theorem sizeOf_member_lt {f : Facets} {ps : Option (List (String × Schema))} {i a : Option Schema}
    {ms : Option (List Schema)} {m : Schema} (h : m ∈ ms.getD []) :
    sizeOf m < sizeOf (Schema.node f ps i a ms) := by
  cases ms with
  | none => simp at h
  | some ms =>
    have := List.sizeOf_lt_of_mem (show m ∈ ms from h)
    simp only [node.sizeOf_spec, Option.some.sizeOf_spec]
    omega

end Schema

end DataShapes
