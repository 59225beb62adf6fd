import DataShapes.Proofs.Registry.Writes
import DataShapes.Proofs.Schema.Nodes

/-!
# Registries that cover a schema

A type signature can be read off a schema when its registry knows every reference in it, and the
records in the signature have names when the registry knows every embedded shape.

Main definitions:
* `Registry.Covers`: the registry knows what a node means;
* `Registry.Records`: the registry knows the embedded shape that a node is the schema of;
* `Registry.Holds`: the registry has an entry wherever a bundle of writes has one.

Main statements:
* `Registry.Covers.mono`, `Registry.Records.mono`: a registry that holds what another one holds
  knows what that one knows.
-/

namespace DataShapes

namespace Schema

/-- The node of a map: no properties and no representation, but a schema for other values. -/
def IsMapNode (f : Facets) (ps : Option (List (String × Schema))) (a : Option Schema) : Prop :=
  ps.getD [] = [] ∧ f.representation = none ∧ a.isSome = true

end Schema

namespace Registry

/-- The registry knows what a node means: it has the reference; an array says what its items are; an
    object is a map or the registry has its title. -/
def Covers (r : Registry) : Schema → Prop
  | .reference path => (r.resolve path).isSome = true
  | .node f ps i a _ =>
    (f.kind = .array → i.isSome = true)
      ∧ (f.kind = .object → Schema.IsMapNode f ps a
        ∨ ∃ title, f.title = some title ∧ (r.inlined.get? title).isSome = true)

/-- The registry has the title of an object. -/
def Records (r : Registry) (n : Schema) : Prop :=
  n.isObject = true → ∀ title, n.title = some title → (r.inlined.get? title).isSome = true

/-- What a registry knows is not lost in the normal form. -/
theorem normalStable_covers (r : Registry) : Schema.NormalStable r.Covers where
  unionOf ms := ⟨by simp, by simp⟩
  absent := ⟨by simp, by simp⟩
  notNullable h := h
  members ms' hkind _ := ⟨by simp [hkind], by simp [hkind]⟩
  items i' hkind _ := ⟨fun _ => rfl, by simp [hkind]⟩

/-! ### What a registry holds -/

/-- The registry has an entry wherever the writes have one. -/
structure Holds (r : Registry) (w : Writes) : Prop where
  entries {e} : e ∈ w.entries → (r.resolve e.1).isSome = true
  inlined {e} : e ∈ w.inlined → (r.inlined.get? e.1).isSome = true

/-- A registry holds two rows of writes when it holds each. -/
theorem holds_append_iff {r : Registry} {w x : Writes} :
    r.Holds (w ++ x) ↔ r.Holds w ∧ r.Holds x := by
  constructor
  · intro h
    exact ⟨⟨fun he => h.entries (List.mem_append_left _ he),
        fun he => h.inlined (List.mem_append_left _ he)⟩,
      ⟨fun he => h.entries (List.mem_append_right _ he),
        fun he => h.inlined (List.mem_append_right _ he)⟩⟩
  · rintro ⟨hw, hx⟩
    exact ⟨fun he => (List.mem_append.1 he).elim hw.entries hx.entries,
      fun he => (List.mem_append.1 he).elim hw.inlined hx.inlined⟩

/-- What was written is held. -/
theorem holds_write (r : Registry) (w : Writes) : (r.write w).Holds w where
  entries he := by
    rw [resolve_write, Option.isSome_or, Table.isSome_lastOf he, Bool.true_or]
  inlined he := by
    rw [inlined_write, Table.get?_putAll, Option.isSome_or, Table.isSome_lastOf he, Bool.true_or]

/-- Closing a registry loses nothing. -/
theorem Holds.close {r : Registry} {w : Writes} (h : r.Holds w) : r.close.Holds w := ⟨h.1, h.2⟩

/-- A path that another registry has is in a registry that holds what that one holds. -/
theorem Holds.resolve {r t : Registry} (h : r.Holds t.content) {path : String}
    (hpath : (t.resolve path).isSome = true) : (r.resolve path).isSome = true := by
  obtain ⟨unit, hunit⟩ := Option.isSome_iff_exists.1 hpath
  exact h.entries (Table.mem_of_get? hunit)

/-- An embedded title that a registry knows is known where its content is held. -/
theorem Holds.get?_inlined {r t : Registry} (h : r.Holds t.content) {title : String}
    (htitle : (t.inlined.get? title).isSome = true) : (r.inlined.get? title).isSome = true := by
  obtain ⟨unit, hunit⟩ := Option.isSome_iff_exists.1 htitle
  exact h.inlined (Table.mem_of_get? hunit)

/-- So are the references. -/
theorem Covers.mono {r t : Registry} {n : Schema} (h : t.Covers n) (hr : r.Holds t.content) :
    r.Covers n := by
  cases n with
  | reference path => exact hr.resolve h
  | node f ps i a ms =>
    refine ⟨h.1, fun hkind => ?_⟩
    rcases h.2 hkind with hmap | ⟨title, htitle, hsome⟩
    · exact .inl hmap
    · exact .inr ⟨title, htitle, hr.get?_inlined hsome⟩

/-- So are the names of objects. -/
theorem Records.mono {r t : Registry} {n : Schema} (h : t.Records n) (hr : r.Holds t.content) :
    r.Records n := fun hobject title htitle => hr.get?_inlined (h hobject title htitle)

end Registry

end DataShapes
