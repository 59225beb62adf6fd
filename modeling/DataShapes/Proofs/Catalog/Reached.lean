import DataShapes.Proofs.Catalog.Stages
import Mathlib.Data.List.Induction
import Mathlib.Data.List.Nodup

/-!
# Reached catalogs

A catalog is reached by definitions from an empty one.  What an object shape extends may belong to
another catalog, which was reached in its turn.  A definition that succeeds adds one shape behind
those there are, so a statement about all shapes of all catalogs is proved for one shape at a time,
from the shapes that were there before it.

Main definitions:
* `Catalog.Finishes`: a definition in a catalog can end with a shape;
* `Catalog.Reached`: catalogs that definitions lead to, with shapes of other such catalogs extended;
* `Catalog.Reachable`: catalogs that definitions lead to without other catalogs.

Main statements:
* `Catalog.Reached.forall_defined`, `Catalog.Reachable.forall_defined`: induction over definitions;
* `Catalog.Reached.forall_shape`, `Catalog.Reachable.forall_shape`: induction over shapes;
* `Catalog.Reachable.origin`: every shape was finished in a catalog that the present one continues.
-/

namespace DataShapes

namespace Catalog

/-! ### One definition -/

/-- A definition in the catalog can end with the shape, when what it extends is among `parents`. -/
inductive Finishes (c : Catalog) (parents : Shape → Prop) : Shape → Prop
  | type (args : TypeArguments) (t : TypeExpr) : args.name ≠ "" → args.name ∉ c.names →
      args.Accepted c → args.signature c = .ok t → Finishes c parents (args.shape c t)
  | object (args : ObjectArguments) (t : TypeExpr) : args.name ≠ "" → args.name ∉ c.names →
      (∀ p, args.parent = some p → parents p ∧ p.isObject = true) →
      args.Accepted c → args.signature c = .ok t → Finishes c parents (args.shape c t)

/-- A definition can end with the same shape when more shapes may be extended. -/
theorem Finishes.mono {c : Catalog} {parents parents' : Shape → Prop} {s : Shape}
    (h : c.Finishes parents s) (hsub : ∀ p, parents p → parents' p) : c.Finishes parents' s := by
  cases h with
  | type args t hname hnew haccepted ht => exact .type args t hname hnew haccepted ht
  | object args t hname hnew hparent haccepted ht =>
    exact .object args t hname hnew (fun p hp => (hparent p hp).imp_left (hsub p)) haccepted ht

/-- The name of a finished shape is new. -/
theorem Finishes.name_not_mem {c : Catalog} {parents : Shape → Prop} {s : Shape}
    (h : c.Finishes parents s) : s.name ∉ c.names := by
  cases h <;> assumption

/-- A name for a shape is a text that is not empty and not taken. -/
theorem newName_eq_ok_iff {c : Catalog} {v : Value} {name : String} :
    c.newName v = .ok name ↔ v = .str name ∧ name ≠ "" ∧ name ∉ c.names := by
  unfold newName
  cases v with
  | str s =>
    have hmem : c.contains s = true ↔ s ∈ c.names := (Table.mem_keys_iff c.shapes s).symm
    show (if s.isEmpty then Except.error (Problem.badShapeName (.str s))
      else if c.contains s then .error (.duplicateShape s) else .ok s) = .ok name ↔ _
    -- The three tests in their order: a text, not empty, not taken.
    by_cases hempty : s = ""
    · rw [if_pos (by simp [hempty])]
      simp only [reduceCtorEq, Value.str.injEq, false_iff]
      rintro ⟨rfl, hne, -⟩
      exact hne hempty
    · by_cases hin : s ∈ c.names
      · rw [if_neg (by simpa using hempty), if_pos (hmem.2 hin)]
        simp only [reduceCtorEq, Value.str.injEq, false_iff]
        rintro ⟨rfl, -, hnew⟩
        exact hnew hin
      · rw [if_neg (by simpa using hempty), if_neg (by rwa [hmem])]
        simp only [Except.ok.injEq, Value.str.injEq]
        constructor
        · rintro rfl
          exact ⟨rfl, hempty, hin⟩
        · rintro ⟨rfl, -, -⟩
          rfl
  | _ => simp

/-- What an object shape extends is an object shape of the catalog, or one from elsewhere. -/
theorem mem_of_extended {c : Catalog} {elsewhere : ShapeHandle → Option Shape} {name : String}
    {base : Value} {p : Shape} (h : c.extended elsewhere name base = .ok (some p)) :
    (p ∈ c.definitions ∨ ∃ handle, elsewhere handle = some p) ∧ p.isObject = true := by
  have hmem : ∀ {n : String} {s : Shape}, c.shapes.get? n = some s → s ∈ c.definitions :=
    fun hs => List.mem_map_of_mem (Table.mem_of_get? hs)
  have hobject : ∀ {s : Shape}, (if s.isObject = true then (.ok (some s) : Except Problem _)
      else .error (.extendsType name s.name)) = .ok (some p) → s = p ∧ p.isObject = true := by
    intro s hs
    split at hs
    · rename_i hs'
      cases hs
      exact ⟨rfl, hs'⟩
    · cases hs
  unfold extended at h
  cases base with
  | null => cases h
  | str other =>
    -- A name is looked up in the catalog, but a shape cannot extend itself.
    by_cases hself : other = name
    · simp only [hself, if_true] at h
      cases h
    · simp only [hself, if_false] at h
      obtain ⟨s, hs, h⟩ := Outcome.do_eq_ok_iff.1 h
      obtain ⟨rfl, hs'⟩ := hobject h
      refine ⟨.inl ?_, hs'⟩
      unfold get at hs
      cases hget : c.shapes.get? other with
      | none => simp [hget] at hs
      | some t =>
        simp only [hget, Except.ok.injEq] at hs
        exact hs ▸ hmem hget
  | shape handle =>
    -- A handle may lead to another catalog.
    cases hfollow : c.follow elsewhere handle with
    | none =>
      simp only [hfollow] at h
      cases h
    | some s =>
      simp only [hfollow] at h
      obtain ⟨rfl, hs'⟩ := hobject h
      refine ⟨?_, hs'⟩
      unfold follow at hfollow
      split at hfollow
      · exact .inl (hmem hfollow)
      · exact .inr ⟨handle, hfollow⟩
  | _ => cases h

/-- A definition that succeeds adds the shape that it ends with. -/
theorem finishes_of_define {c c' : Catalog} {elsewhere : ShapeHandle → Option Shape}
    {d : Definition} {s : Shape} (h : (c.define elsewhere d).result = .ok (c', s)) :
    c' = c.add s
      ∧ c.Finishes (fun p => p ∈ c.definitions ∨ ∃ handle, elsewhere handle = some p) s := by
  cases d with
  | type d =>
    obtain ⟨args, t, hargs, haccepted, ht, rfl, rfl⟩ := defineType_eq_ok_iff.1 h
    obtain ⟨hname, -⟩ := typeArguments_eq_ok_iff.1 hargs
    obtain ⟨-, hne, hnew⟩ := newName_eq_ok_iff.1 hname
    exact ⟨rfl, .type args t hne hnew haccepted ht⟩
  | object d =>
    obtain ⟨args, t, hargs, haccepted, ht, rfl, rfl⟩ := defineObject_eq_ok_iff.1 h
    obtain ⟨hname, -, -, -, hparent, -⟩ := objectArguments_eq_ok_iff.1 hargs
    obtain ⟨-, hne, hnew⟩ := newName_eq_ok_iff.1 hname
    refine ⟨rfl, .object args t hne hnew (fun p hp => ?_) haccepted ht⟩
    exact mem_of_extended (hp ▸ hparent)

/-- A step adds a finished shape or leaves the catalog as it was. -/
theorem step_cases (c : Catalog) (elsewhere : ShapeHandle → Option Shape) (d : Definition) :
    c.step elsewhere d = c ∨ ∃ s, c.step elsewhere d = c.add s
      ∧ c.Finishes (fun p => p ∈ c.definitions ∨ ∃ handle, elsewhere handle = some p) s := by
  unfold step
  cases h : (c.define elsewhere d).result with
  | error p => exact .inl rfl
  | ok x =>
    obtain ⟨c', s⟩ := x
    obtain ⟨rfl, hs⟩ := finishes_of_define h
    exact .inr ⟨s, rfl, hs⟩

/-- A finished shape goes behind those there are. -/
theorem shapes_add {c : Catalog} {s : Shape} (h : s.name ∉ c.names) :
    (c.add s).shapes = c.shapes ++ [(s.name, s)] := Table.put_of_not_mem s h

/-- A finished shape goes behind the other shapes. -/
theorem definitions_add {c : Catalog} {s : Shape} (h : s.name ∉ c.names) :
    (c.add s).definitions = c.definitions ++ [s] := by
  simp [definitions, Table.values, shapes_add h]

/-- Its name goes behind the other names. -/
theorem names_add {c : Catalog} {s : Shape} (h : s.name ∉ c.names) :
    (c.add s).names = c.names ++ [s.name] := by
  simp [names, Table.keys, shapes_add h]

/-! ### Reached catalogs -/

/-- The catalog is what definitions made of an empty one.  A shape from elsewhere belongs to a
    catalog that was reached in its turn. -/
inductive Reached : Catalog → Prop
  | empty (id : String) : Reached { id := id }
  | step {c : Catalog} (elsewhere : ShapeHandle → Option Shape) (other : ShapeHandle → Catalog)
      (d : Definition) : Reached c → (∀ h s, elsewhere h = some s → Reached (other h)) →
      (∀ h s, elsewhere h = some s → s ∈ (other h).definitions) → Reached (c.step elsewhere d)

/-- Induction over the definitions of reached catalogs: a property of every shape is proved for a
    shape that a definition ends with, when all shapes of its catalog and all shapes from elsewhere
    have it. -/
theorem Reached.forall_defined {P : Shape → Prop}
    (h : ∀ (c c' : Catalog) (elsewhere : ShapeHandle → Option Shape) (d : Definition) (s : Shape),
      c.Reached → (∀ t ∈ c.definitions, P t) → (∀ handle p, elsewhere handle = some p → P p) →
      (c.define elsewhere d).result = .ok (c', s) → P s)
    {c : Catalog} (hc : c.Reached) : ∀ s ∈ c.definitions, P s := by
  induction hc with
  | empty id => simp [definitions, Table.values]
  | @step c elsewhere other d hc _ hmem ih ihother =>
    unfold Catalog.step
    cases hdefine : (c.define elsewhere d).result with
    | error p => exact ih
    | ok x =>
      obtain ⟨c', s⟩ := x
      obtain ⟨rfl, hs⟩ := finishes_of_define hdefine
      -- A shape from elsewhere is one of another reached catalog.
      have hother : ∀ handle p, elsewhere handle = some p → P p := fun handle p hp =>
        ihother handle p hp p (hmem handle p hp)
      show ∀ t ∈ (c.add s).definitions, P t
      rw [definitions_add hs.name_not_mem]
      intro t ht
      rcases List.mem_append.1 ht with ht | ht
      · exact ih t ht
      · rw [List.mem_singleton.1 ht]
        exact h c (c.add s) elsewhere d s hc ih hother hdefine

/-- Induction over the shapes of reached catalogs: a property of every shape is proved for a shape
    that a definition ends with, when all shapes of its catalog and the one that it extends have
    it. -/
theorem Reached.forall_shape {P : Shape → Prop}
    (h : ∀ (c : Catalog) (s : Shape), c.Reached → (∀ t ∈ c.definitions, P t) → c.Finishes P s → P s)
    {c : Catalog} (hc : c.Reached) : ∀ s ∈ c.definitions, P s := by
  refine hc.forall_defined fun c c' elsewhere d s hc hbefore helse hdefine => ?_
  obtain ⟨-, hs⟩ := finishes_of_define hdefine
  refine h c s hc hbefore (hs.mono fun p hp => ?_)
  rcases hp with hp | ⟨handle, hp⟩
  · exact hbefore p hp
  · exact helse handle p hp

/-! ### Catalogs without others -/

/-- The catalog is what definitions made of an empty one, where nothing from elsewhere is
    extended. -/
def Reachable (c : Catalog) : Prop := ∃ id ds, c = ({ id := id } : Catalog).after ds

/-- In the catalog a definition can end with the shape, and what it extends is in the catalog. -/
def FinishesWithin (c : Catalog) (s : Shape) : Prop := c.Finishes (· ∈ c.definitions) s

/-- A property of catalogs is proved by adding one finished shape. -/
theorem Reachable.induction {P : Catalog → Prop} (empty : ∀ id, P { id := id })
    (add : ∀ c s, c.Reachable → P c → c.FinishesWithin s → P (c.add s)) {c : Catalog}
    (h : c.Reachable) : P c := by
  obtain ⟨id, ds, rfl⟩ := h
  -- The last definition is the last step, so the row of definitions is taken apart from its end.
  induction ds using List.reverseRecOn with
  | nil => exact empty id
  | append_singleton ds d ih =>
    rw [after_append, after_cons, after_nil]
    rcases step_cases (({ id := id } : Catalog).after ds) (fun _ => none) d with heq | ⟨s, heq, hs⟩
    · rwa [heq]
    · rw [heq]
      refine add _ s ⟨id, ds, rfl⟩ ih (hs.mono fun p hp => ?_)
      simpa using hp

/-- A catalog without others is reached. -/
theorem Reachable.reached {c : Catalog} (h : c.Reachable) : c.Reached := by
  obtain ⟨id, ds, rfl⟩ := h
  induction ds using List.reverseRecOn with
  | nil => exact .empty id
  | append_singleton ds d ih =>
    rw [after_append, after_cons, after_nil]
    exact .step (fun _ => none) (fun _ => default) d ih (by simp) (by simp)

/-- Shapes are stored under their names, and no name is taken twice. -/
structure WellNamed (c : Catalog) : Prop where
  name {e} : e ∈ c.shapes → e.1 = e.2.name
  nodup : c.names.Nodup

/-- A shape with a new name leaves the catalog well named. -/
theorem WellNamed.add {c : Catalog} (h : c.WellNamed) {s : Shape} (hs : s.name ∉ c.names) :
    (c.add s).WellNamed where
  name := by
    intro e he
    rw [shapes_add hs] at he
    rcases List.mem_append.1 he with he | he
    · exact h.name he
    · rw [List.mem_singleton.1 he]
  nodup := by
    rw [names_add hs]
    exact h.nodup.append (List.nodup_singleton _) (by simpa using hs)

/-- Every reached catalog lists its shapes under their own names, each once. -/
theorem Reached.wellNamed {c : Catalog} (h : c.Reached) : c.WellNamed := by
  induction h with
  | empty id => exact ⟨by simp, by simp [names, Table.keys]⟩
  | @step c elsewhere other d _ _ _ ih _ =>
    rcases step_cases c elsewhere d with heq | ⟨s, heq, hs⟩
    · rwa [heq]
    · rw [heq]
      exact ih.add hs.name_not_mem

/-- What is found under a name is the shape of that name. -/
theorem WellNamed.get?_eq_some_iff {c : Catalog} (h : c.WellNamed) {name : String} {s : Shape} :
    c.shapes.get? name = some s ↔ s ∈ c.definitions ∧ s.name = name := by
  rw [Table.get?_eq_some_iff h.nodup]
  constructor
  · intro hmem
    exact ⟨List.mem_map_of_mem hmem, (h.name hmem).symm⟩
  · rintro ⟨hmem, rfl⟩
    obtain ⟨⟨n, t⟩, he, rfl⟩ := List.mem_map.1 hmem
    have hn : n = t.name := h.name he
    rwa [← hn]

/-- The names are the names of the shapes. -/
theorem WellNamed.names_eq {c : Catalog} (h : c.WellNamed) :
    c.names = c.definitions.map Shape.name := by
  rw [names, definitions, Table.keys, Table.values, List.map_map]
  exact List.map_congr_left fun e he => h.name he

/-- Every shape was finished in a catalog that the present one continues. -/
theorem Reachable.origin {c : Catalog} (h : c.Reachable) {s : Shape} (hs : s ∈ c.definitions) :
    ∃ (before : Catalog) (after : Table Shape), before.Reachable ∧ before.FinishesWithin s
      ∧ before.id = c.id ∧ c.shapes = before.shapes ++ (s.name, s) :: after := by
  -- By induction over definitions: a later one appends its shape and moves none.
  revert hs
  refine Reachable.induction (P := fun c => s ∈ c.definitions → ∃ (before : Catalog)
    (after : Table Shape), before.Reachable ∧ before.FinishesWithin s ∧ before.id = c.id
      ∧ c.shapes = before.shapes ++ (s.name, s) :: after) ?_ ?_ h
  · intro id hs
    simp [definitions, Table.values] at hs
  · intro c t hc ih ht hs
    have hnew := Finishes.name_not_mem ht
    rw [definitions_add hnew] at hs
    rcases List.mem_append.1 hs with hs | hs
    · obtain ⟨before, after, hbefore, hfinish, hid, heq⟩ := ih hs
      refine ⟨before, after ++ [(t.name, t)], hbefore, hfinish, hid, ?_⟩
      rw [shapes_add hnew, heq, List.append_assoc, List.cons_append]
    · rw [List.mem_singleton.1 hs]
      exact ⟨c, [], hc, ht, rfl, shapes_add hnew⟩

/-- Induction over the definitions of catalogs without others: a property of every shape is kept by
    later definitions, and proved for a shape that a definition ends with. -/
theorem Reachable.forall_defined {P : Catalog → Shape → Prop}
    (extend : ∀ c s t, c.Reachable → c.FinishesWithin t → P c s → P (c.add t) s)
    (finish : ∀ c d s, c.Reachable → (∀ t ∈ c.definitions, P c t) →
      (c.define (fun _ => none) d).result = .ok (c.add s, s) → P (c.add s) s)
    {c : Catalog} (h : c.Reachable) : ∀ s ∈ c.definitions, P c s := by
  obtain ⟨id, ds, rfl⟩ := h
  -- The last definition is taken off, so that the shapes before it stand in a reachable catalog.
  induction ds using List.reverseRecOn with
  | nil => simp [definitions, Table.values]
  | append_singleton ds d ih =>
    rw [after_append, after_cons, after_nil]
    have hbefore : (({ id := id } : Catalog).after ds).Reachable := ⟨id, ds, rfl⟩
    unfold Catalog.step
    cases hdefine : ((({ id := id } : Catalog).after ds).define (fun _ => none) d).result with
    | error p => exact ih
    | ok x =>
      obtain ⟨c', t⟩ := x
      obtain ⟨rfl, ht⟩ := finishes_of_define hdefine
      have hwithin : (({ id := id } : Catalog).after ds).FinishesWithin t :=
        ht.mono fun p hp => by simpa using hp
      show ∀ s ∈ ((({ id := id } : Catalog).after ds).add t).definitions, P _ s
      rw [definitions_add ht.name_not_mem]
      intro s hs
      rcases List.mem_append.1 hs with hs | hs
      · exact extend _ s t hbefore hwithin (ih s hs)
      · rw [List.mem_singleton.1 hs]
        exact finish _ d t hbefore ih hdefine

/-- Induction over the shapes of catalogs without others. -/
theorem Reachable.forall_shape {P : Catalog → Shape → Prop}
    (extend : ∀ c s t, c.Reachable → c.FinishesWithin t → P c s → P (c.add t) s)
    (finish : ∀ c s, c.Reachable → (∀ t ∈ c.definitions, P c t) → c.FinishesWithin s →
      P (c.add s) s)
    {c : Catalog} (h : c.Reachable) : ∀ s ∈ c.definitions, P c s := by
  refine h.forall_defined extend fun c d s hc hbefore hdefine => finish c s hc hbefore ?_
  obtain ⟨-, hs⟩ := finishes_of_define hdefine
  exact hs.mono fun p hp => by simpa using hp

end Catalog

end DataShapes
