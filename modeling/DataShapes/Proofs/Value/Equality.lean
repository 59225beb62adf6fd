import DataShapes.Proofs.Equivalence
import DataShapes.Proofs.Value.Numbers

/-!
# Equality of values is an equivalence

Equality of values compares numbers across their kinds and dictionaries without regard to order, so it
identifies values that are not the same.  It is still an equivalence, as is equality of descriptors: what
is equal to one of two equal values is equal to the other.

Main statements:
* `Value.equal_list_iff` and the like: what is equal to each kind of value;
* `Value.equivAt`, `Descriptor.equivAt`: both equalities are equivalences.
-/

namespace DataShapes

/-- Equality of values, as a relation. -/
def Value.Same (a b : Value) : Prop := a.equal b = true

/-- Equality of descriptors, as a relation. -/
def Descriptor.Same (a b : Descriptor) : Prop := a.equal b = true

namespace Value

variable {b : Value}

/-! ### Parts -/

/-- Lists are compared item by item. -/
theorem equalLists_iff {xs ys : List Value} :
    equalLists xs ys = true ↔ List.Forall₂ Same xs ys := by
  induction xs generalizing ys with
  | nil =>
    cases ys with
    | nil => exact ⟨fun _ => .nil, fun _ => rfl⟩
    | cons y ys => exact ⟨nofun, nofun⟩
  | cons x xs ih =>
    cases ys with
    | nil => exact ⟨nofun, nofun⟩
    | cons y ys =>
      show (x.equal y && equalLists xs ys) = true ↔ _
      rw [Bool.and_eq_true, List.forall₂_cons, ih, Same]

/-- Equality of entries, as a relation. -/
def SameEntry (e f : Value × Value) : Prop := e.1.Same f.1 ∧ e.2.Same f.2

/-- Entries are compared by their keys and their values. -/
theorem equalEntry_iff {e f : Value × Value} : equalEntry e f = true ↔ SameEntry e f := by
  obtain ⟨k, v⟩ := e
  show (k.equal f.1 && v.equal f.2) = true ↔ _
  rw [Bool.and_eq_true]
  rfl

/-- The entries of one dictionary are looked for among those of the other. -/
theorem within_iff {es fs : List (Value × Value)} :
    within es fs = true ↔ ∀ e ∈ es, ∃ f ∈ fs, SameEntry e f := by
  induction es with
  | nil => exact ⟨fun _ => by simp, fun _ => rfl⟩
  | cons e es ih =>
    show (fs.any (equalEntry e) && within es fs) = true ↔ _
    rw [Bool.and_eq_true, List.any_eq_true, List.forall_mem_cons, ih]
    simp only [equalEntry_iff]

/-- An entry occurs when some entry is the same. -/
theorem occursIn_iff {es : List (Value × Value)} {f : Value × Value} :
    occursIn es f = true ↔ ∃ e ∈ es, SameEntry e f := by
  induction es with
  | nil => exact ⟨nofun, by simp⟩
  | cons e es ih =>
    show (equalEntry e f || occursIn es f) = true ↔ _
    rw [Bool.or_eq_true, equalEntry_iff, ih, List.exists_mem_cons_iff]

/-! ### Kinds of values -/

/-- Values are compared by kind, and as numbers otherwise. -/
theorem equal_eq (a b : Value) : a.equal b = match a, b with
    | .null, .null => true
    | .str s, .str t => s == t
    | .list xs, .list ys => equalLists xs ys
    | .tuple xs, .tuple ys => equalLists xs ys
    | .dict es, .dict fs => within es fs && fs.all (occursIn es)
    | .descriptor d, .descriptor e => d.equal e
    | .shape h, .shape k => h.catalog == k.catalog && h.name == k.name
    | .foreign k s, .foreign l t => k == l && s == t
    | a, b => a.sameNumber b := by
  cases a <;> cases b <;> rfl

theorem equal_null_iff : null.Same b ↔ b = .null := by
  rw [Same, equal_eq]
  cases b <;> simp [sameNumber, numeric?]

theorem equal_str_iff {s : String} : (str s).Same b ↔ ∃ t, b = .str t ∧ s = t := by
  rw [Same, equal_eq]
  cases b with
  | str t => simp [@eq_comm _ t]
  | _ => simp [sameNumber, numeric?]

/-- A list equals the lists of the same items; it equals no tuple. -/
theorem equal_list_iff {xs : List Value} :
    (list xs).Same b ↔ ∃ ys, b = .list ys ∧ List.Forall₂ Same xs ys := by
  rw [Same, equal_eq]
  cases b <;> simp [sameNumber, numeric?, equalLists_iff]

/-- A tuple equals the tuples of the same items. -/
theorem equal_tuple_iff {xs : List Value} :
    (tuple xs).Same b ↔ ∃ ys, b = .tuple ys ∧ List.Forall₂ Same xs ys := by
  rw [Same, equal_eq]
  cases b <;> simp [sameNumber, numeric?, equalLists_iff]

/-- Dictionaries are equal when each has the entries of the other. -/
theorem equal_dict_iff {es : List (Value × Value)} :
    (dict es).Same b ↔ ∃ fs, b = .dict fs ∧ MutuallyWithin SameEntry es fs := by
  rw [Same, equal_eq]
  cases b <;> simp [sameNumber, numeric?, within_iff, occursIn_iff, MutuallyWithin]

theorem equal_descriptor_iff {d : Descriptor} :
    (descriptor d).Same b ↔ ∃ e, b = .descriptor e ∧ d.Same e := by
  rw [Same, equal_eq]
  cases b <;> simp [Descriptor.Same, sameNumber, numeric?]

/-- Handles are equal when they lead to the same shape. -/
theorem equal_shape_iff {h : ShapeHandle} :
    (shape h).Same b ↔ ∃ k, b = .shape k ∧ (h.catalog = k.catalog ∧ h.name = k.name) := by
  rw [Same, equal_eq]
  cases b <;> simp [sameNumber, numeric?]

theorem equal_foreign_iff {p : String × String} :
    (foreign p.1 p.2).Same b ↔ ∃ q : String × String, b = .foreign q.1 q.2 ∧ p = q := by
  obtain ⟨kind, text⟩ := p
  rw [Same, equal_eq]
  cases b with
  | foreign k t => simp [@eq_comm _ k, @eq_comm _ t]
  | _ => simp [sameNumber, numeric?]

/-- Numbers are equal to numbers that denote the same. -/
theorem equal_number_iff {a : Value} {x : Numeric} (h : a.numeric? = some x) :
    a.Same b ↔ ∃ y, b.numeric? = some y ∧ x.denoted = y.denoted := by
  have hsame : a.Same b ↔ a.sameNumber b = true := by
    unfold Same
    cases a with
    | bool _ => cases b <;> rfl
    | int _ => cases b <;> rfl
    | float _ => cases b <;> rfl
    | _ => cases h
  rw [hsame, sameNumber, h]
  cases b.numeric? with
  | none => simp
  | some y => simp [Numeric.equal_iff]

/-- Numbers of all kinds are compared by what they denote. -/
theorem equivAt_of_numeric {a : Value} {x : Numeric} (h : a.numeric? = some x) :
    EquivAt Same a where
  refl := (equal_number_iff h).2 ⟨x, h, rfl⟩
  congr := by
    intro b hb z
    obtain ⟨y, hy, hxy⟩ := (equal_number_iff h).1 hb
    rw [equal_number_iff h, equal_number_iff hy, hxy]

end Value

namespace Descriptor

variable {b : Descriptor}

/-! ### Kinds of descriptors -/

/-- Members of unions are compared one by one, in their order. -/
theorem equalLists_iff {ds es : List Descriptor} :
    equalLists ds es = true ↔ List.Forall₂ Same ds es := by
  induction ds generalizing es with
  | nil =>
    cases es with
    | nil => exact ⟨fun _ => .nil, fun _ => rfl⟩
    | cons e es => exact ⟨nofun, nofun⟩
  | cons d ds ih =>
    cases es with
    | nil => exact ⟨nofun, nofun⟩
    | cons e es =>
      show (d.equal e && equalLists ds es) = true ↔ _
      rw [Bool.and_eq_true, List.forall₂_cons, ih, Same]

/-- Descriptors are compared by kind. -/
theorem equal_eq (a b : Descriptor) : a.equal b = match a, b with
    | .scalar k, .scalar l => k == l
    | .array d, .array e => d.equal e
    | .map d, .map e => d.equal e
    | .union ds, .union es => equalLists ds es
    | .named m, .named n => m == n
    | .raw v, .raw w => v.equal w
    | _, _ => false := by
  cases a <;> cases b <;> rfl

theorem equal_scalar_iff {kind : ScalarKind} :
    (scalar kind).Same b ↔ ∃ k, b = .scalar k ∧ kind = k := by
  rw [Same, equal_eq]
  cases b with
  | scalar k => simp [@eq_comm _ k]
  | _ => simp

theorem equal_array_iff {d : Descriptor} : (array d).Same b ↔ ∃ e, b = .array e ∧ d.Same e := by
  rw [Same, equal_eq]
  cases b <;> simp [Same]

theorem equal_map_iff {d : Descriptor} : (map d).Same b ↔ ∃ e, b = .map e ∧ d.Same e := by
  rw [Same, equal_eq]
  cases b <;> simp [Same]

theorem equal_union_iff {ds : List Descriptor} :
    (union ds).Same b ↔ ∃ es, b = .union es ∧ List.Forall₂ Same ds es := by
  rw [Same, equal_eq]
  cases b <;> simp [equalLists_iff]

theorem equal_named_iff {name : String} : (named name).Same b ↔ ∃ n, b = .named n ∧ name = n := by
  rw [Same, equal_eq]
  cases b with
  | named n => simp [@eq_comm _ n]
  | _ => simp

/-- What is no descriptor is compared as a value. -/
theorem equal_raw_iff {v : Value} : (raw v).Same b ↔ ∃ w, b = .raw w ∧ v.Same w := by
  rw [Same, equal_eq]
  cases b <;> simp [Value.Same]

end Descriptor

/-! ### Equivalences -/

theorem Value.equivAt_null : EquivAt Value.Same .null where
  refl := Value.equal_null_iff.2 rfl
  congr hb z := by rw [Value.equal_null_iff.1 hb]

theorem Value.equivAt_shape (h : ShapeHandle) : EquivAt Value.Same (.shape h) := by
  have hplace : EquivAt (fun a b : ShapeHandle => a.catalog = b.catalog ∧ a.name = b.name) h :=
    (EquivAt.eq h.catalog).comap.and (EquivAt.eq h.name).comap
  exact hplace.lift fun _ _ => Value.equal_shape_iff

theorem Value.equivAt_foreign (kind text : String) : EquivAt Value.Same (.foreign kind text) := by
  have hpair : EquivAt (fun p q : String × String => p = q) (kind, text) := .eq _
  exact hpair.lift (f := fun p => Value.foreign p.1 p.2) fun _ _ => Value.equal_foreign_iff

mutual

/-- Equality of values is an equivalence. -/
theorem Value.equivAt (a : Value) : EquivAt Value.Same a := by
  cases a with
  | null => exact Value.equivAt_null
  | bool b => exact Value.equivAt_of_numeric rfl
  | int n => exact Value.equivAt_of_numeric rfl
  | float d => exact Value.equivAt_of_numeric rfl
  | str s => exact (EquivAt.eq s).lift fun _ _ => Value.equal_str_iff
  | list xs =>
    have hitems : ∀ x ∈ xs, EquivAt Value.Same x := fun x hx =>
      have : sizeOf x < sizeOf xs := List.sizeOf_lt_of_mem hx
      Value.equivAt x
    exact (EquivAt.forall₂ hitems).lift fun _ _ => Value.equal_list_iff
  | tuple xs =>
    have hitems : ∀ x ∈ xs, EquivAt Value.Same x := fun x hx =>
      have : sizeOf x < sizeOf xs := List.sizeOf_lt_of_mem hx
      Value.equivAt x
    exact (EquivAt.forall₂ hitems).lift fun _ _ => Value.equal_tuple_iff
  | dict es =>
    have hentries : ∀ e ∈ es, EquivAt Value.SameEntry e := fun e he =>
      have : sizeOf e < sizeOf es := List.sizeOf_lt_of_mem he
      have : sizeOf e = 1 + sizeOf e.1 + sizeOf e.2 := rfl
      (Value.equivAt e.1).comap.and (Value.equivAt e.2).comap
    exact (EquivAt.mutuallyWithin hentries).lift fun _ _ => Value.equal_dict_iff
  | descriptor d => exact (Descriptor.equivAt d).lift fun _ _ => Value.equal_descriptor_iff
  | shape h => exact Value.equivAt_shape h
  | foreign kind text => exact Value.equivAt_foreign kind text
termination_by sizeOf a

/-- Equality of descriptors is an equivalence. -/
theorem Descriptor.equivAt (a : Descriptor) : EquivAt Descriptor.Same a := by
  cases a with
  | scalar kind => exact (EquivAt.eq kind).lift fun _ _ => Descriptor.equal_scalar_iff
  | array d => exact (Descriptor.equivAt d).lift fun _ _ => Descriptor.equal_array_iff
  | map d => exact (Descriptor.equivAt d).lift fun _ _ => Descriptor.equal_map_iff
  | union ds =>
    have hmembers : ∀ d ∈ ds, EquivAt Descriptor.Same d := fun d hd =>
      have : sizeOf d < sizeOf ds := List.sizeOf_lt_of_mem hd
      Descriptor.equivAt d
    exact (EquivAt.forall₂ hmembers).lift fun _ _ => Descriptor.equal_union_iff
  | named name => exact (EquivAt.eq name).lift fun _ _ => Descriptor.equal_named_iff
  | raw v => exact (Value.equivAt v).lift fun _ _ => Descriptor.equal_raw_iff
termination_by sizeOf a

end

end DataShapes
