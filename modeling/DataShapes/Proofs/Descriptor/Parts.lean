import DataShapes.Proofs.Assembly.Parts

/-!
# The parts of a descriptor

What holds "at any depth" of a descriptor holds of its parts: the descriptor itself, its items, its
values and its members, their parts and so on.

Main definitions:
* `Descriptor.children`: the descriptors right below a descriptor;
* `Descriptor.parts`, `Descriptor.innerParts`: all descriptors in a descriptor, with and without the
  descriptor itself;
* `Descriptor.Populated`: every union in a descriptor has a member.

Main statements:
* `Descriptor.parts_eq`: the parts of a descriptor are itself and the parts of its children;
* `Descriptor.populated_iff`: the unions in a descriptor are the descriptor itself and those in its
  children.
-/

namespace DataShapes

namespace Descriptor

/-- The descriptors right below a descriptor. -/
def children : Descriptor → List Descriptor
  | .array item => [item]
  | .map value => [value]
  | .union members => members
  | _ => []

mutual

/-- The descriptors in a descriptor, itself included. -/
def parts : Descriptor → List Descriptor
  | .array item => .array item :: parts item
  | .map value => .map value :: parts value
  | .union members => .union members :: partsOfAll members
  | .scalar kind => [.scalar kind]
  | .named name => [.named name]
  | .raw v => [.raw v]

/-- The descriptors in the descriptors of a list. -/
def partsOfAll : List Descriptor → List Descriptor
  | [] => []
  | d :: ds => parts d ++ partsOfAll ds

end

/-- The descriptors in a descriptor but the descriptor itself. -/
def innerParts (d : Descriptor) : List Descriptor := d.children.flatMap parts

theorem partsOfAll_eq (ds : List Descriptor) : partsOfAll ds = ds.flatMap parts := by
  induction ds with
  | nil => rfl
  | cons d ds ih => rw [partsOfAll, ih, List.flatMap_cons]

/-- The parts of a descriptor are itself and the parts of its children. -/
theorem parts_eq (d : Descriptor) : d.parts = d :: d.innerParts := by
  cases d with
  | union members => rw [parts, partsOfAll_eq, innerParts, children]
  | _ => simp [parts, innerParts, children]

/-- The children of a descriptor are among its inner parts. -/
theorem mem_innerParts_of_mem_children {d c : Descriptor} (hc : c ∈ d.children) : c ∈ d.innerParts := by
  refine List.mem_flatMap.2 ⟨c, hc, ?_⟩
  rw [parts_eq]
  exact List.mem_cons_self

/-! ### Unions with members -/

/-- Every union in the descriptor has a member. -/
def Populated (d : Descriptor) : Prop := ∀ members, .union members ∈ d.parts → members ≠ []

/-- All unions in a descriptor have members when the descriptor is no empty union and its children hold
    none. -/
theorem populated_iff {d : Descriptor} :
    d.Populated ↔ (∀ members, d = .union members → members ≠ []) ∧ ∀ c ∈ d.children, c.Populated := by
  simp only [Populated, parts_eq d, List.mem_cons, innerParts, List.mem_flatMap]
  constructor
  · intro h
    refine ⟨fun members hd => h members (.inl hd.symm), fun c hc members hmembers => ?_⟩
    exact h members (.inr ⟨c, hc, hmembers⟩)
  · rintro ⟨hself, hchild⟩ members (hd | ⟨c, hc, hmembers⟩)
    · exact hself members hd.symm
    · exact hchild c hc members hmembers

/-- The children of such a descriptor are such descriptors. -/
theorem Populated.child {d c : Descriptor} (h : d.Populated) (hc : c ∈ d.children) : c.Populated :=
  (populated_iff.1 h).2 c hc

end Descriptor

end DataShapes
