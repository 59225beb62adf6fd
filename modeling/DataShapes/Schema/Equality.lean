import DataShapes.Schema.Basic

/-!
# Equality of schemas

Two schemas are equal when all their keywords are.  Values among the keywords are compared as
values, and properties without regard to their order.

Main definitions:
* `Schema.equal`: the equality;
* `distinct`: the first occurrences of a list.
-/

namespace DataShapes

/-- Equality of what may be given or not. -/
def equalOptional {α : Type} (equal : α → α → Bool) : Option α → Option α → Bool
  | none, none => true
  | some a, some b => equal a b
  | _, _ => false

/-- Equality of plain keywords. -/
def Facets.equal (a b : Facets) : Bool :=
  a.kind == b.kind && a.title == b.title && a.nullable == b.nullable && a.required == b.required
    && equalOptional Value.equal a.default b.default
    && equalOptional Value.equalLists a.enumeration b.enumeration
    && equalOptional Value.equal a.pattern b.pattern
    && equalOptional Value.equal a.format b.format
    && equalOptional Value.equal a.description b.description
    && equalOptional Value.equal a.sample b.sample
    && a.representation == b.representation

mutual

/-- Equality of schemas. -/
def Schema.equal : Schema → Schema → Bool
  | .reference a, .reference b => a == b
  | .node f ps i a ms, .node g qs j b ns =>
    f.equal g && Schema.equalProperties ps qs && Schema.equalPart i j && Schema.equalPart a b
      && Schema.equalMembers ms ns
  | _, _ => false
termination_by structural s => s

/-- Equality of property tables: the same number, and each property of the first in the second. -/
def Schema.equalProperties : Option (List (String × Schema)) → Option (List (String × Schema)) → Bool
  | none, none => true
  | some ps, some qs => ps.length == qs.length && Schema.propertiesWithin ps qs
  | _, _ => false
termination_by structural ps => ps

/-- Every property of the first table is an equal property of the second. -/
def Schema.propertiesWithin : List (String × Schema) → List (String × Schema) → Bool
  | [], _ => true
  | p :: ps, qs => Schema.propertyIn p qs && Schema.propertiesWithin ps qs
termination_by structural ps => ps

/-- The table has an equal property under the name. -/
def Schema.propertyIn : String × Schema → List (String × Schema) → Bool
  | (name, s), qs =>
    match Table.get? qs name with
    | some t => Schema.equal s t
    | none => false
termination_by structural p => p

/-- Equality of a part that may be missing. -/
def Schema.equalPart : Option Schema → Option Schema → Bool
  | none, none => true
  | some s, some t => Schema.equal s t
  | _, _ => false
termination_by structural s => s

/-- Equality of union members. -/
def Schema.equalMembers : Option (List Schema) → Option (List Schema) → Bool
  | none, none => true
  | some ss, some ts => Schema.equalLists ss ts
  | _, _ => false
termination_by structural ss => ss

/-- Equality of lists of schemas, in order. -/
def Schema.equalLists : List Schema → List Schema → Bool
  | [], [] => true
  | s :: ss, t :: ts => Schema.equal s t && Schema.equalLists ss ts
  | _, _ => false
termination_by structural ss => ss

end

instance : BEq Schema := ⟨Schema.equal⟩

/-! ### First occurrences -/

section Distinct

variable {α : Type} [BEq α]

/-- The items that are equal to none before them, in order, after those already `kept`. -/
def distinctFrom (kept : List α) : List α → List α
  | [] => kept
  | x :: xs => if kept.any (· == x) then distinctFrom kept xs else distinctFrom (kept ++ [x]) xs

/-- The first occurrences of a list, in order. -/
def distinct (xs : List α) : List α := distinctFrom [] xs

/-- Nothing is in the list of distinct values that was not there before. -/
theorem mem_of_mem_distinctFrom {kept xs : List α} {x : α} (h : x ∈ distinctFrom kept xs) :
    x ∈ kept ∨ x ∈ xs := by
  induction xs generalizing kept with
  | nil => exact .inl h
  | cons y xs ih =>
    unfold distinctFrom at h
    split at h
    · rcases ih h with h | h
      · exact .inl h
      · exact .inr (List.mem_cons_of_mem _ h)
    · rcases ih h with h | h
      · rcases List.mem_append.1 h with h | h
        · exact .inl h
        · exact .inr (by simp_all)
      · exact .inr (List.mem_cons_of_mem _ h)

/-- Taking first occurrences adds nothing. -/
theorem mem_of_mem_distinct {xs : List α} {x : α} (h : x ∈ distinct xs) : x ∈ xs :=
  (mem_of_mem_distinctFrom h).resolve_left List.not_mem_nil

end Distinct

end DataShapes
