import DataShapes.Proofs.Schema.Populated
import DataShapes.Proofs.TypeExpr.Total

/-!
# Canonical unions

Reading does not tidy up unions: what it gives for a union has a member for each member of the union.
That the unions in a type expression are canonical all the same is due to what is read, which is in
normal form wherever reading goes on.

Main definitions:
* `TypeExpr.Canonical`: a union of two members or more, none of them a union, with null at the end.

Main statements:
* `TypeExpr.canonical_ofNormalForm`: the unions in what is read off a normal form are canonical.
-/

namespace DataShapes

/-- Only the last tidy member may be "no value". -/
theorem Schema.isAbsent_of_mem_dropLast_tidyMembers {nullable : Bool} {flat : List Schema} {s : Schema}
    (h : s ∈ (tidyMembers nullable flat).dropLast) : s.isAbsent = false := by
  have hpresent : ∀ t ∈ distinct (flat.filter (!·.isAbsent)), t.isAbsent = false := fun t ht => by
    simpa using (List.mem_filter.1 (mem_of_mem_distinct ht)).2
  unfold tidyMembers at h
  split at h
  · rw [List.dropLast_concat] at h
    exact hpresent s h
  · rw [List.append_nil] at h
    exact hpresent s (List.dropLast_subset _ h)

namespace TypeExpr

variable {r : Registry} {s : Schema} {t : TypeExpr}

/-- If the expression is a union it has two members or more, none of which is a union, and null is at
    most the last of them. -/
def Canonical : TypeExpr → Prop
  | .union members =>
    2 ≤ members.length ∧ (∀ inner, .union inner ∉ members) ∧ .none ∉ members.dropLast
  | _ => True

/-- Only unions are read as unions. -/
theorem ReadOff.ne_union (h : ReadOff r s t) (hs : s.isUnion = false) (inner : List TypeExpr) :
    t ≠ .union inner := by
  cases h with
  | union hk _ =>
    rw [Schema.isUnion_node_iff.2 hk] at hs
    cases hs
  | _ => nofun

/-- Apart from unions, only "no value" is read as null. -/
theorem ReadOff.isAbsent (h : ReadOff r s t) (hs : s.isUnion = false) (ht : t = .none) :
    s.isAbsent = true := by
  cases h with
  | null hk => simp [Schema.isAbsent, Schema.kind?, Schema.facets?, hk]
  | union hk _ =>
    rw [Schema.isUnion_node_iff.2 hk] at hs
    cases hs
  | _ => cases ht

/-- What is read off a normal form is canonical when what is read off its next parts is. -/
theorem canonical_of_readOff (hs : s.InNormalForm)
    (hbelow : ∀ m ∈ s.readNext, ∀ u, ofSchema r m = .ok u → Canonical u) (h : ReadOff r s t) :
    Canonical t := by
  cases h with
  | @union f ps i a ms ts hk hts =>
    refine unionOf_of_read hk hts hbelow fun hlength => ⟨?_, fun inner hinner => ?_, fun hnone => ?_⟩
    · -- There is a member, so there are two when there is not just one.
      have hpositive := List.length_pos_of_ne_nil (Schema.populated_node_iff.1 hs.populated.self hk)
      rw [hts.length_eq] at hpositive
      omega
    · obtain ⟨m, hm, hmu⟩ := Outcome.mem_of_forall₂ hts hinner
      exact (readOff_of_ofSchema hmu).ne_union (hs.member hk hm).1 inner rfl
    · have hinit :
          List.Forall₂ (fun m u => ofSchema r m = .ok u) (ms.getD []).dropLast ts.dropLast := by
        rw [List.dropLast_eq_take, List.dropLast_eq_take, hts.length_eq]
        exact List.forall₂_take _ hts
      obtain ⟨m, hm, hmu⟩ := Outcome.mem_of_forall₂ hinit hnone
      have habsent := (readOff_of_ofSchema hmu).isAbsent
        (hs.member hk (List.dropLast_subset _ hm)).1 rfl
      rw [hs.members_eq hk] at hm
      rw [Schema.isAbsent_of_mem_dropLast_tidyMembers hm] at habsent
      cases habsent
  | _ => trivial

/-- The unions in what is read off a normal form are canonical, when the unions in the schema have
    members. -/
theorem canonical_ofNormalForm (hpopulated : s.Each Schema.Populated)
    (hdistinct : s.Each Schema.DistinctKeys) (ht : ofNormalForm r s = .ok t) : t.Each Canonical :=
  each_ofSchema (fun _ hs => hs.next) (fun _ _ hs hbelow hread => canonical_of_readOff hs hbelow hread)
    (Schema.inNormalForm_normalize hpopulated hdistinct) ht

end TypeExpr

end DataShapes
