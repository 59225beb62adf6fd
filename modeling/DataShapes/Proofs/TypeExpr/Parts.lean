import DataShapes.TypeExpr.Basic
import Mathlib.Data.List.Basic

/-!
# The parts of a type expression

What holds "anywhere in a type signature" holds of the parts of the expression: the expression
itself, the types of its fields, their parts and so on.

Main definitions:
* `TypeExpr.children`: the expressions right below an expression;
* `TypeExpr.parts`: all expressions in an expression;
* `TypeExpr.Each`: a property of every part.

Main statements:
* `TypeExpr.induction_children`: induction over an expression, with a hypothesis for each child;
* `TypeExpr.each_iff`: a property of every part is one of the expression and of its children.
-/

namespace DataShapes

namespace TypeExpr

/-- The expressions right below an expression. -/
def children : TypeExpr → List TypeExpr
  | .sequence item => [item]
  | .mapping value => [value]
  | .union members => members
  | .record _ fields _ extra => fields.map FieldType.type ++ extra.toList
  | _ => []

mutual

/-- The expressions in an expression, itself included. -/
def parts : TypeExpr → List TypeExpr
  | .sequence item => .sequence item :: parts item
  | .mapping value => .mapping value :: parts value
  | .union members => .union members :: partsOfAll members
  | .record name fields representation extra =>
    .record name fields representation extra :: (partsOfFields fields ++ partsOfExtra extra)
  | .primitive kind => [.primitive kind]
  | .none => [.none]
  | .named name => [.named name]
  | .raw value => [.raw value]

/-- The expressions in the expressions of a list. -/
def partsOfAll : List TypeExpr → List TypeExpr
  | [] => []
  | e :: es => parts e ++ partsOfAll es

/-- The expressions in the types of fields. -/
def partsOfFields : List FieldType → List TypeExpr
  | [] => []
  | .mk _ type _ :: fields => parts type ++ partsOfFields fields

/-- The expressions in the type of other keys. -/
def partsOfExtra : Option TypeExpr → List TypeExpr
  | Option.none => []
  | some e => parts e

end

theorem partsOfAll_eq (es : List TypeExpr) : partsOfAll es = es.flatMap parts := by
  induction es with
  | nil => rfl
  | cons e es ih => rw [partsOfAll, ih, List.flatMap_cons]

theorem partsOfFields_eq (fields : List FieldType) :
    partsOfFields fields = (fields.map FieldType.type).flatMap parts := by
  induction fields with
  | nil => rfl
  | cons field fields ih =>
    obtain ⟨name, type, required⟩ := field
    rw [partsOfFields, ih, List.map_cons, List.flatMap_cons, FieldType.type]

/-- The parts of an expression are itself and the parts of its children. -/
theorem parts_eq (e : TypeExpr) : e.parts = e :: e.children.flatMap parts := by
  cases e with
  | union members => rw [parts, partsOfAll_eq, children]
  | record name fields representation extra =>
    cases extra <;> simp [parts, partsOfFields_eq, partsOfExtra, children]
  | _ => simp [parts, children]

/-- Children are smaller. -/
theorem sizeOf_child_lt {e c : TypeExpr} (h : c ∈ e.children) : sizeOf c < sizeOf e := by
  cases e with
  | sequence item =>
    rw [children, List.mem_singleton] at h
    subst h
    simp
  | mapping value =>
    rw [children, List.mem_singleton] at h
    subst h
    simp
  | union members =>
    have := List.sizeOf_lt_of_mem (show c ∈ members from h)
    simp only [union.sizeOf_spec]
    omega
  | record name fields representation extra =>
    simp only [children, List.mem_append, List.mem_map, Option.mem_toList] at h
    rcases h with ⟨⟨n, type, required⟩, hfield, rfl⟩ | rfl
    · have := List.sizeOf_lt_of_mem hfield
      simp only [FieldType.mk.sizeOf_spec, FieldType.type, record.sizeOf_spec] at this ⊢
      omega
    · simp only [record.sizeOf_spec, Option.some.sizeOf_spec]
      omega
  | _ => simp [children] at h

/-- Induction over an expression: what holds of an expression when it holds of its children holds of
    all. -/
theorem induction_children {P : TypeExpr → Prop} (h : ∀ e, (∀ c ∈ e.children, P c) → P e)
    (e : TypeExpr) : P e :=
  h e fun c hc =>
    have : sizeOf c < sizeOf e := sizeOf_child_lt hc
    induction_children h c
termination_by sizeOf e

/-! ### Properties of every part -/

/-- Every part of the expression has the property. -/
def Each (Q : TypeExpr → Prop) (e : TypeExpr) : Prop := ∀ p ∈ e.parts, Q p

/-- All parts have a property when the expression itself does and all parts of its children do. -/
theorem each_iff {Q : TypeExpr → Prop} {e : TypeExpr} :
    Each Q e ↔ Q e ∧ ∀ c ∈ e.children, Each Q c := by
  simp only [Each, parts_eq e, List.forall_mem_cons, List.mem_flatMap]
  refine and_congr_right fun _ => ?_
  constructor
  · intro h c hc p hp
    exact h p ⟨c, hc, hp⟩
  · rintro h p ⟨c, hc, hp⟩
    exact h c hc p hp

theorem Each.self {Q : TypeExpr → Prop} {e : TypeExpr} (h : Each Q e) : Q e := (each_iff.1 h).1

theorem Each.child {Q : TypeExpr → Prop} {e c : TypeExpr} (h : Each Q e) (hc : c ∈ e.children) :
    Each Q c := (each_iff.1 h).2 c hc

theorem Each.mono {Q R : TypeExpr → Prop} {e : TypeExpr} (h : Each Q e) (hQR : ∀ p, Q p → R p) :
    Each R e := fun p hp => hQR p (h p hp)

/-- The record in an expression is a part of the expression. -/
theorem Each.record {Q : TypeExpr → Prop} {e : TypeExpr} {r : RecordType} (h : Each Q e)
    (hr : e.record? = some r) : Each Q r.toExpr := by
  -- In a union the record is a member, else it is the expression itself.
  have hself : ∀ {e : TypeExpr}, Each Q e → e.asRecord? = some r → Each Q r.toExpr := by
    intro e he hr
    cases e with
    | record name fields representation extra =>
      simp only [asRecord?, Option.some.injEq] at hr
      subst hr
      exact he
    | _ => simp [asRecord?] at hr
  cases e with
  | union members =>
    obtain ⟨m, hm, hr⟩ := List.exists_of_findSome?_eq_some hr
    exact hself (h.child hm) hr
  | _ => exact hself h hr

/-- The type of a field of the record in an expression is a part of the expression. -/
theorem Each.field {Q : TypeExpr → Prop} {e : TypeExpr} {r : RecordType} {field : FieldType}
    (h : Each Q e) (hr : e.record? = some r) (hfield : field ∈ r.fields) : Each Q field.type :=
  (h.record hr).child (List.mem_append_left _ (List.mem_map_of_mem hfield))

/-- The type of other keys of the record in an expression is a part of the expression. -/
theorem Each.extra {Q : TypeExpr → Prop} {e u : TypeExpr} {r : RecordType} (h : Each Q e)
    (hr : e.record? = some r) (hu : r.extra = some u) : Each Q u :=
  (h.record hr).child (List.mem_append_right _ (Option.mem_toList.2 hu))

end TypeExpr

end DataShapes
