import DataShapes.Conformance
import Mathlib.Data.List.Forall2

/-!
# Values of type expressions

A type expression has values: the least relation between values and type expressions in which a
named type has the values of the signature of its shape.  The forms that a value takes at an array,
at a map and at an object are stated apart, since schemas and declarations ask for the same forms.

Main definitions:
* `Value.IsArrayOf`, `Value.IsMapOf`: lists of values, and values under text keys;
* `FitsEntry`, `Value.IsObjectOf`: an entry of an object, and an object of a shape;
* `Inhabits`: the values of a type expression in a catalog.

Main statements:
* `FitsEntry.congr`: related rows of declarations ask the same of an entry;
* `inhabits_record_iff`, `inhabits_named_iff` and the like: what values a type expression has.
-/

namespace DataShapes

/-! ### Forms of values -/

/-- A value that is equal to a text is that text. -/
theorem Value.beq_str_iff {v : Value} {s : String} : (v == .str s) = true ↔ v = .str s := by
  show Value.equal v (.str s) = true ↔ v = .str s
  cases v with
  | str t =>
    rw [Value.equal]
    simp
  | _ => simp [Value.equal, Value.sameNumber, Value.numeric?]

/-- A text is the text that it shows. -/
theorem Value.eq_str_of_isStr {v : Value} (h : v.isStr = true) : v = .str v.text := by
  cases v with
  | str s => rfl
  | _ => simp [Value.isStr, Value.str?] at h

/-- The value is a list or a tuple, and all items have the property. -/
def Value.IsArrayOf (P : Value → Prop) (v : Value) : Prop :=
  ∃ items, (v = .list items ∨ v = .tuple items) ∧ ∀ item ∈ items, P item

/-- The value is a dictionary, its keys are texts, and all values under them have the property. -/
def Value.IsMapOf (P : Value → Prop) (v : Value) : Prop :=
  ∃ es, v = .dict es ∧ (∀ e ∈ es, e.1.isStr = true) ∧ ∀ e ∈ es, P e.2

/-- Every property of the shape for which there must be a value is a key: it is required, null is
    none of its values, and it has no default. -/
def Shape.HasNeeded (s : Shape) (es : List (Value × Value)) : Prop :=
  ∀ spec ∈ s.specs, spec.options.isRequired = true → spec.options.nullable = false →
    spec.options.hasDefault = false → ∃ e ∈ es, e.1 = .str spec.name

/-- The value is a dictionary, its keys are texts, its entries have the property, and every key that
    the shape needs is present. -/
def Value.IsObjectOf (s : Shape) (entry : String → Value → Prop) (v : Value) : Prop :=
  ∃ es, v = .dict es ∧ (∀ e ∈ es, e.1.isStr = true) ∧ (∀ k x, (Value.str k, x) ∈ es → entry k x)
    ∧ s.HasNeeded es

section Forms

variable {P Q : Value → Prop} {v : Value}

/-- Arrays of equivalent properties are the same. -/
theorem Value.IsArrayOf.congr (h : ∀ x, P x ↔ Q x) : v.IsArrayOf P ↔ v.IsArrayOf Q := by
  unfold IsArrayOf
  simp only [h]

/-- Maps to equivalent properties are the same. -/
theorem Value.IsMapOf.congr (h : ∀ x, P x ↔ Q x) : v.IsMapOf P ↔ v.IsMapOf Q := by
  unfold IsMapOf
  simp only [h]

/-- Objects whose entries are asked for the same are the same. -/
theorem Value.IsObjectOf.congr {s : Shape} {p q : String → Value → Prop}
    (h : ∀ k x, p k x ↔ q k x) : v.IsObjectOf s p ↔ v.IsObjectOf s q := by
  unfold IsObjectOf
  simp only [h]

end Forms

/-! ### Entries of objects -/

section Entries

variable {α β γ δ : Type}

/-- An entry of an object fits a row of declarations: where its key is declared, the value is one of
    the declaration; under another key it is one of the declaration for other keys, which must
    exist. -/
def FitsEntry (name : α → String) (declared : List α) (other : Option β)
    (isValue : α → Value → Prop) (isOther : β → Value → Prop) (k : String) (v : Value) : Prop :=
  (∀ x ∈ declared, name x = k → isValue x v)
    ∧ ((∀ x ∈ declared, name x ≠ k) → ∃ y, other = some y ∧ isOther y v)

/-- What holds of every item of a list holds of every item of a related one. -/
theorem forall_mem_of_forall₂ {R : α → γ → Prop} {p : α → Prop} {q : γ → Prop} {xs : List α}
    {ys : List γ} (h : List.Forall₂ R xs ys) (hpq : ∀ x ∈ xs, ∀ y ∈ ys, R x y → (p x ↔ q y)) :
    (∀ x ∈ xs, p x) ↔ ∀ y ∈ ys, q y := by
  induction h with
  | nil => simp
  | @cons x y xs ys hxy _ ih =>
    have hhead : p x ↔ q y := hpq x List.mem_cons_self y List.mem_cons_self hxy
    have htail : (∀ x ∈ xs, p x) ↔ ∀ y ∈ ys, q y := ih fun x hx y hy =>
      hpq x (List.mem_cons_of_mem _ hx) y (List.mem_cons_of_mem _ hy)
    rw [List.forall_mem_cons, List.forall_mem_cons, hhead, htail]

/-- What holds of some item of a list holds of some item of a related one. -/
theorem exists_mem_of_forall₂ {R : α → γ → Prop} {p : α → Prop} {q : γ → Prop} {xs : List α}
    {ys : List γ} (h : List.Forall₂ R xs ys) (hpq : ∀ x ∈ xs, ∀ y ∈ ys, R x y → (p x ↔ q y)) :
    (∃ x ∈ xs, p x) ↔ ∃ y ∈ ys, q y := by
  have hnone := forall_mem_of_forall₂ (p := fun x => ¬ p x) (q := fun y => ¬ q y) h
    fun x hx y hy hxy => not_congr (hpq x hx y hy hxy)
  simpa using not_congr hnone

/-- Two rows of declarations ask the same of an entry when they declare the same names in order, the
    same values under each of them, and the same values under other keys. -/
theorem FitsEntry.congr {name : α → String} {name' : γ → String} {xs : List α} {ys : List γ}
    {other : Option β} {other' : Option δ} {isValue : α → Value → Prop}
    {isValue' : γ → Value → Prop} {isOther : β → Value → Prop} {isOther' : δ → Value → Prop}
    {k : String} {v : Value}
    (h : List.Forall₂ (fun x y => name x = name' y ∧ (isValue x v ↔ isValue' y v)) xs ys)
    (hother : (∃ y, other = some y ∧ isOther y v) ↔ ∃ y, other' = some y ∧ isOther' y v) :
    FitsEntry name xs other isValue isOther k v ↔
      FitsEntry name' ys other' isValue' isOther' k v := by
  have hvalues : (∀ x ∈ xs, name x = k → isValue x v) ↔ ∀ y ∈ ys, name' y = k → isValue' y v :=
    forall_mem_of_forall₂ h fun x _ y _ ⟨hname, hvalue⟩ => by rw [hname, hvalue]
  have hnames : (∀ x ∈ xs, name x ≠ k) ↔ ∀ y ∈ ys, name' y ≠ k :=
    forall_mem_of_forall₂ h fun x _ y _ ⟨hname, _⟩ => by rw [hname]
  -- An entry fits by its declared values, or by the others when no name is its key.
  unfold FitsEntry
  rw [hvalues, hnames, hother]

end Entries

/-! ### Values of type expressions -/

/-- The value is one of the type expression, where names mean the shapes of the catalog. -/
inductive Inhabits (c : Catalog) : Value → TypeExpr → Prop
  | primitive {v : Value} {kind : ScalarKind} : v.hasKind kind = true →
      Inhabits c v (.primitive kind)
  | none : Inhabits c .null .none
  | list {items : List Value} {type : TypeExpr} :
      (∀ item ∈ items, Inhabits c item type) → Inhabits c (.list items) (.sequence type)
  | tuple {items : List Value} {type : TypeExpr} :
      (∀ item ∈ items, Inhabits c item type) → Inhabits c (.tuple items) (.sequence type)
  | mapping {es : List (Value × Value)} {type : TypeExpr} : (∀ e ∈ es, e.1.isStr = true) →
      (∀ e ∈ es, Inhabits c e.2 type) → Inhabits c (.dict es) (.mapping type)
  | member {v : Value} {members : List TypeExpr} {m : TypeExpr} : m ∈ members → Inhabits c v m →
      Inhabits c v (.union members)
  | named {v : Value} {s : Shape} : s ∈ c.definitions → Inhabits c v s.signature →
      Inhabits c v (.named s.name)
  /-- The present fields have values of their types, other keys need a type of their own, and no key
      that the shape of that name needs is missing. -/
  | record {es : List (Value × Value)} {s : Shape} {fields : List FieldType}
      {representation : Representation} {extra : Option TypeExpr} : s ∈ c.definitions →
      (∀ e ∈ es, e.1.isStr = true) →
      (∀ k v, (Value.str k, v) ∈ es → ∀ field ∈ fields, field.name = k → Inhabits c v field.type) →
      (∀ k v, (Value.str k, v) ∈ es → (∀ field ∈ fields, field.name ≠ k) → extra ≠ Option.none) →
      (∀ k v, (Value.str k, v) ∈ es → (∀ field ∈ fields, field.name ≠ k) →
        ∀ type, extra = some type → Inhabits c v type) →
      s.HasNeeded es → Inhabits c (.dict es) (.record (some s.name) fields representation extra)

section Inversion

variable {c : Catalog} {v : Value}

/-- A primitive has the scalars of its kind. -/
theorem inhabits_primitive_iff {kind : ScalarKind} :
    Inhabits c v (.primitive kind) ↔ v.hasKind kind = true :=
  ⟨fun h => by cases h; assumption, .primitive⟩

/-- The type of null has null alone. -/
theorem inhabits_none_iff : Inhabits c v .none ↔ v = .null :=
  ⟨fun h => by cases h; rfl, fun h => h ▸ .none⟩

/-- A sequence has the lists and tuples of values of its items. -/
theorem inhabits_sequence_iff {type : TypeExpr} :
    Inhabits c v (.sequence type) ↔ v.IsArrayOf fun x => Inhabits c x type := by
  constructor
  · intro h
    cases h with
    | list hitems => exact ⟨_, .inl rfl, hitems⟩
    | tuple hitems => exact ⟨_, .inr rfl, hitems⟩
  · rintro ⟨items, rfl | rfl, hitems⟩
    · exact .list hitems
    · exact .tuple hitems

/-- A mapping has the dictionaries from texts to values of its values. -/
theorem inhabits_mapping_iff {type : TypeExpr} :
    Inhabits c v (.mapping type) ↔ v.IsMapOf fun x => Inhabits c x type := by
  constructor
  · intro h
    cases h with
    | mapping hkeys hvalues => exact ⟨_, rfl, hkeys, hvalues⟩
  · rintro ⟨es, rfl, hkeys, hvalues⟩
    exact .mapping hkeys hvalues

/-- A union has the values of its members. -/
theorem inhabits_union_iff {members : List TypeExpr} :
    Inhabits c v (.union members) ↔ ∃ m ∈ members, Inhabits c v m := by
  constructor
  · intro h
    cases h with
    | member hm h => exact ⟨_, hm, h⟩
  · rintro ⟨m, hm, h⟩
    exact .member hm h

/-- A single member stands for its union. -/
theorem inhabits_unionOf_iff {members : List TypeExpr} :
    Inhabits c v (.unionOf members) ↔ ∃ m ∈ members, Inhabits c v m := by
  unfold TypeExpr.unionOf
  split
  · simp
  · exact inhabits_union_iff

/-- A name has the values of the signature of the shape with the name. -/
theorem inhabits_named_iff {name : String} :
    Inhabits c v (.named name) ↔ ∃ s ∈ c.definitions, s.name = name ∧ Inhabits c v s.signature := by
  constructor
  · intro h
    cases h with
    | named hs h => exact ⟨_, hs, rfl, h⟩
  · rintro ⟨s, hs, rfl, h⟩
    exact .named hs h

/-- A record has the objects of its shape whose entries fit its fields or its type for other
    keys. -/
theorem inhabits_record_iff {label : Option String} {fields : List FieldType}
    {representation : Representation} {extra : Option TypeExpr} :
    Inhabits c v (.record label fields representation extra) ↔
      ∃ s ∈ c.definitions, label = some s.name
        ∧ v.IsObjectOf s (FitsEntry FieldType.name fields extra
          (fun field x => Inhabits c x field.type) fun type x => Inhabits c x type) := by
  constructor
  · intro h
    cases h with
    -- The rules ask for fields and for other keys one by one; an entry fits when both are right.
    | @record es s _ _ _ hs hkeys hfields hextra hother hneeded =>
      refine ⟨s, hs, rfl, es, rfl, hkeys, fun k x hx => ⟨hfields k x hx, fun hno => ?_⟩, hneeded⟩
      obtain ⟨type, htype⟩ := Option.ne_none_iff_exists'.1 (hextra k x hx hno)
      exact ⟨type, htype, hother k x hx hno type htype⟩
  · rintro ⟨s, hs, rfl, es, rfl, hkeys, hentries, hneeded⟩
    refine .record hs hkeys (fun k x hx => (hentries k x hx).1) (fun k x hx hno => ?_)
      (fun k x hx hno type htype => ?_) hneeded
    · obtain ⟨type, htype, -⟩ := (hentries k x hx).2 hno
      simp [htype]
    · obtain ⟨type', htype', hinhabits⟩ := (hentries k x hx).2 hno
      rw [htype] at htype'
      cases htype'
      exact hinhabits

end Inversion

end DataShapes
