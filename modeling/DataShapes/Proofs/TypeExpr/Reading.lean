import DataShapes.Proofs.Outcome
import DataShapes.Proofs.Schema.Nodes
import DataShapes.TypeExpr.OfSchema

/-!
# What is read off a schema

The type expression of a schema is read kind by kind.  For each kind of node there is one statement
that says when reading succeeds and what it gives; no later proof looks into the reading itself.

Main definitions:
* `Schema.readNext`: the schemas that reading goes on with.

Main statements:
* `Schema.induction_read`: induction along the reading;
* `TypeExpr.ofSchema_array_eq_ok_iff`, `TypeExpr.ofSchema_union_eq_ok_iff`,
  `TypeExpr.ofSchema_object_eq_ok_iff`: what is read off a node;
* `TypeExpr.ofObject_eq_ok_iff`: what is read off the schema of an object shape.
-/

namespace DataShapes

/-- A node describes a scalar, no value, an array, a union or an object. -/
theorem SchemaKind.cases_read (k : SchemaKind) :
    (∃ scalar, k.scalar? = some scalar) ∨ k = .null ∨ k = .array ∨ k = .union ∨ k = .object := by
  cases k with
  | integer => exact .inl ⟨_, rfl⟩
  | number => exact .inl ⟨_, rfl⟩
  | string => exact .inl ⟨_, rfl⟩
  | boolean => exact .inl ⟨_, rfl⟩
  | null => exact .inr (.inl rfl)
  | array => exact .inr (.inr (.inl rfl))
  | union => exact .inr (.inr (.inr (.inl rfl)))
  | object => exact .inr (.inr (.inr (.inr rfl)))

namespace Schema

/-- The schemas that reading goes on with: items, members, and the normal forms of what is in an
    object. -/
def readNext : Schema → List Schema
  | .reference _ => []
  | .node f properties items additional members =>
    match f.kind with
    | .array => items.toList
    | .union => members.getD []
    | .object => ((properties.getD []).map Prod.snd ++ additional.toList).map normalize
    | _ => []

/-- Reading goes on with fewer object levels, or with a smaller schema of as many. -/
theorem readNext_lt {s m : Schema} (h : m ∈ s.readNext) :
    m.levels < s.levels ∨ m.levels ≤ s.levels ∧ sizeOf m < sizeOf s := by
  cases s with
  | reference path => simp [readNext] at h
  | node f ps i a ms =>
    rcases hk : f.kind with _ | _ | _ | _ | _ | _ | _ | _ <;>
      simp only [readNext, hk, Option.mem_toList, List.not_mem_nil] at h
    · -- Normalizing may enlarge a schema, so under an object the levels have to go down.
      left
      obtain ⟨t, ht, rfl⟩ := List.mem_map.1 h
      rcases List.mem_append.1 ht with ht | ht
      · obtain ⟨p, hp, rfl⟩ := List.mem_map.1 ht
        exact levels_property_lt hk hp
      · rw [Option.mem_toList] at ht
        subst ht
        exact levels_additional_lt hk
    · subst h
      right
      refine ⟨levels_items_le, ?_⟩
      simp only [node.sizeOf_spec, Option.some.sizeOf_spec]
      omega
    · exact .inr ⟨levels_member_le h, sizeOf_member_lt h⟩

/-- Induction along the reading of a schema. -/
theorem induction_read {P : Schema → Prop} (h : ∀ s, (∀ m ∈ s.readNext, P m) → P s) (s : Schema) :
    P s :=
  h s fun m hm =>
    have : Prod.Lex (· < ·) (· < ·) (m.levels, sizeOf m) (s.levels, sizeOf s) := by
      rcases readNext_lt hm with hlt | ⟨hle, hlt⟩
      · exact .left _ _ hlt
      · rcases Nat.lt_or_eq_of_le hle with hlt' | heq
        · exact .left _ _ hlt'
        · rw [heq]
          exact .right _ hlt
    induction_read h m
termination_by (s.levels, sizeOf s)
decreasing_by exact this

end Schema

namespace TypeExpr

variable {r : Registry} {f : Facets} {ps : Option (List (String × Schema))} {i a : Option Schema}
  {ms : Option (List Schema)} {t : TypeExpr}

/-! ### One node -/

/-- A reference is read as the name that the registry gives for it. -/
theorem ofSchema_reference_eq_ok_iff {path : String} :
    ofSchema r (.reference path) = .ok t ↔
      ∃ unit, r.resolve path = some unit ∧ t = .named unit := by
  rw [ofSchema]
  cases r.resolve path <;> simp [eq_comm]

/-- A scalar is read as a primitive. -/
theorem ofSchema_scalar {k : ScalarKind} (h : f.kind.scalar? = some k) :
    ofSchema r (.node f ps i a ms) = .ok (.primitive k) := by
  rw [ofSchema.eq_def]
  dsimp only
  split <;> simp_all [SchemaKind.scalar?]

/-- Null is read as the type of null. -/
theorem ofSchema_null (h : f.kind = .null) : ofSchema r (.node f ps i a ms) = .ok .none := by
  rw [ofSchema.eq_def]
  dsimp only
  split <;> simp_all

/-- An array is read as a sequence of what is read for its items. -/
theorem ofSchema_array_eq_ok_iff (h : f.kind = .array) :
    ofSchema r (.node f ps i a ms) = .ok t ↔
      ∃ item u, i = some item ∧ ofSchema r item = .ok u ∧ t = .sequence u := by
  rw [ofSchema.eq_def]
  dsimp only
  split <;> simp_all only [reduceCtorEq]
  cases i with
  | none => simp
  | some item =>
    simp only [Option.some.injEq, Outcome.do_eq_ok_iff, Outcome.pure_eq_ok_iff]
    constructor
    · rintro ⟨u, hu, rfl⟩
      exact ⟨item, u, rfl, hu, rfl⟩
    · rintro ⟨item, u, rfl, hu, rfl⟩
      exact ⟨u, hu, rfl⟩

/-- A union is read as the union of what is read for its members, in their order. -/
theorem ofSchema_union_eq_ok_iff (h : f.kind = .union) :
    ofSchema r (.node f ps i a ms) = .ok t ↔
      ∃ ts, List.Forall₂ (fun m u => ofSchema r m = .ok u) (ms.getD []) ts ∧ t = unionOf ts := by
  rw [ofSchema.eq_def]
  dsimp only
  split <;> simp_all only [reduceCtorEq]
  rw [Outcome.mapM_attach (ofSchema r), Outcome.do_eq_ok_iff]
  simp only [Outcome.mapM_eq_ok_iff, Outcome.pure_eq_ok_iff, @eq_comm _ t]

/-- What is read for other keys. -/
theorem extraOf_eq_ok_iff {s : Schema} {extra : Option TypeExpr} :
    extraOf r s = .ok extra ↔
      (s.additional = Option.none ∧ extra = Option.none)
        ∨ ∃ value u, s.additional = some value ∧ ofNormalForm r value = .ok u ∧ extra = some u := by
  unfold extraOf
  cases s.additional with
  | none => simp [eq_comm]
  | some value =>
    simp only [Outcome.do_eq_ok_iff, Outcome.pure_eq_ok_iff, reduceCtorEq, false_and, false_or,
      Option.some.injEq]
    constructor
    · rintro ⟨u, hu, rfl⟩
      exact ⟨value, u, rfl, hu, rfl⟩
    · rintro ⟨value, u, rfl, hu, rfl⟩
      exact ⟨u, hu, rfl⟩

/-- The type of other keys is read when it is read off the schema of other values. -/
theorem exists_extraOf {s : Schema}
    (h : ∀ value, s.additional = some value → ∃ u, ofNormalForm r value = .ok u) :
    ∃ extra, extraOf r s = .ok extra := by
  cases ha : s.additional with
  | none => exact ⟨_, extraOf_eq_ok_iff.2 (.inl ⟨ha, rfl⟩)⟩
  | some value =>
    obtain ⟨u, hu⟩ := h value ha
    exact ⟨_, extraOf_eq_ok_iff.2 (.inr ⟨value, u, ha, hu, rfl⟩)⟩

/-- An object is read as a record of what is read for the normal forms of its properties, or as a
    mapping. -/
theorem ofSchema_object_eq_ok_iff (h : f.kind = .object) :
    ofSchema r (.node f ps i a ms) = .ok t ↔
      ∃ fields extra,
        List.Forall₂ (fun p field => ∃ u, ofNormalForm r p.2 = .ok u
          ∧ field = FieldType.mk p.1 u ((f.required.getD []).contains p.1)) (ps.getD []) fields
        ∧ extraOf r (.node f ps i a ms) = .ok extra ∧ t = ofObjectParts r f fields extra := by
  rw [ofSchema.eq_def]
  dsimp only
  split <;> simp_all only [reduceCtorEq]
  -- The properties come with the proofs of membership that termination needs; they are dropped
  -- first.
  have hfields := Outcome.mapM_attach (fun p : String × Schema => do
    let type ← ofSchema r (Schema.normalize p.2)
    return FieldType.mk p.1 type ((f.required.getD []).contains p.1)) (ps.getD [])
  rw [hfields]
  simp only [extraOf_eq_ok_iff, Outcome.do_eq_ok_iff, Outcome.mapM_eq_ok_iff,
    Outcome.pure_eq_ok_iff, ofNormalForm, @eq_comm _ _ (FieldType.mk _ _ _)]
  cases a with
  | none =>
    constructor
    · rintro ⟨fields, hfields, h⟩
      exact ⟨fields, .none, hfields, .inl ⟨rfl, rfl⟩, (Except.ok.inj h).symm⟩
    · rintro ⟨fields, extra, hfields, h, rfl⟩
      rcases h with ⟨-, rfl⟩ | ⟨_, _, hvalue, -⟩
      · exact ⟨fields, hfields, rfl⟩
      · cases hvalue
  | some value =>
    constructor
    · rintro ⟨fields, hfields, h⟩
      obtain ⟨u, hu, h⟩ := Outcome.do_eq_ok_iff.1 h
      exact ⟨fields, some u, hfields, .inr ⟨value, u, rfl, hu, rfl⟩, (Except.ok.inj h).symm⟩
    · rintro ⟨fields, extra, hfields, ⟨hvalue, -⟩ | ⟨_, u, hvalue, hu, rfl⟩, rfl⟩
      · cases hvalue
      · cases hvalue
        exact ⟨fields, hfields, Outcome.do_eq_ok_iff.2 ⟨u, hu, rfl⟩⟩

/-! ### An object shape -/

/-- The type of a property: the one that is taken over, or the one that is read off its schema. -/
def fieldType (r : Registry) (parent : Option Inherited) (p : String × Schema) :
    Except Problem TypeExpr :=
  match parent.bind (·.reuse? p.1 p.2) with
  | some type => .ok type
  | Option.none => ofNormalForm r p.2

/-- A type is taken over from the field of that name when the schema of the property is the same. -/
theorem reuse?_eq_some_iff {parent : Inherited} {name : String} {s : Schema} :
    parent.reuse? name s = some t ↔
      ∃ record field inherited, parent.signature.record? = some record
        ∧ record.field? name = some field ∧ parent.schema.properties.get? name = some inherited
        ∧ (inherited == s) = true ∧ t = field.type := by
  unfold Inherited.reuse?
  simp only [Option.bind_eq_bind, Option.bind_eq_some_iff]
  constructor
  · rintro ⟨record, hrecord, field, hfield, inherited, hinherited, h⟩
    split at h
    · rename_i heq
      exact ⟨record, field, inherited, hrecord, hfield, hinherited, heq, (Option.some.inj h).symm⟩
    · cases h
  · rintro ⟨record, field, inherited, hrecord, hfield, hinherited, heq, rfl⟩
    exact ⟨record, hrecord, field, hfield, inherited, hinherited, if_pos heq⟩

/-- The fields are those of the properties, in their order, with the types that are taken over or
    read. -/
theorem fieldsOf_eq_ok_iff {s : Schema} {parent : Option Inherited} {fields : List FieldType} :
    fieldsOf r s parent = .ok fields ↔
      List.Forall₂ (fun p field => ∃ u, fieldType r parent p = .ok u
        ∧ field = FieldType.mk p.1 u (s.required.contains p.1)) s.properties fields := by
  unfold fieldsOf
  rw [Outcome.mapM_eq_ok_iff]
  -- Taken over or read, both ways end in the same record of a field.
  have hstep : (fun (p : String × Schema) (field : FieldType) =>
      (match parent.bind fun i => i.reuse? p.1 p.2 with
        | some type => do
          let type ← pure type
          pure (FieldType.mk p.1 type (s.required.contains p.1))
        | Option.none => do
          let type ← ofNormalForm r p.2
          pure (FieldType.mk p.1 type (s.required.contains p.1)) :
        Except Problem FieldType) = .ok field)
      = fun p field => ∃ u, fieldType r parent p = .ok u
        ∧ field = FieldType.mk p.1 u (s.required.contains p.1) := by
    funext p field
    unfold fieldType
    cases parent.bind fun i => i.reuse? p.1 p.2 <;>
      simp only [Outcome.do_eq_ok_iff, Outcome.pure_eq_ok_iff, Except.ok.injEq, exists_eq_left',
        @eq_comm _ field]
  exact iff_of_eq (congrArg (fun R => List.Forall₂ R s.properties fields) hstep)

/-- The fields carry the names of the properties: there is a field where there is a property, with
    the type of the property. -/
theorem find?_of_fieldsOf {s : Schema} {parent : Option Inherited} {fields : List FieldType}
    (h : fieldsOf r s parent = .ok fields) (name : String) :
    (s.properties.get? name = Option.none
        ∧ (fields.find? fun f => f.name == name) = Option.none)
      ∨ ∃ node u, s.properties.get? name = some node ∧ fieldType r parent (name, node) = .ok u
        ∧ (fields.find? fun f => f.name == name)
          = some (FieldType.mk name u (s.required.contains name)) := by
  rw [fieldsOf_eq_ok_iff] at h
  generalize s.properties = ps at h ⊢
  -- Fields and properties go side by side, so the first match is at the same place.
  induction h with
  | nil => exact .inl ⟨rfl, rfl⟩
  | @cons p field ps fields hp _ ih =>
    obtain ⟨key, node⟩ := p
    obtain ⟨u, hu, rfl⟩ := hp
    rw [Table.get?, List.find?_cons, FieldType.name]
    by_cases hkey : key = name
    · subst hkey
      exact .inr ⟨node, u, if_pos rfl, hu, by simp⟩
    · rw [if_neg hkey, beq_eq_false_iff_ne.2 hkey]
      exact ih

/-- What is read off the schema of an object shape with a name: a record under that name, with null
    beside it when the object is nullable. -/
theorem ofObject_eq_ok_iff {s : Schema} {options : ObjectOptions} {name : String}
    (hname : name ≠ "") {parent : Option Inherited} :
    ofObject r s options (some name) parent = .ok t ↔
      ∃ fields extra, fieldsOf r s parent = .ok fields ∧ extraOf r s = .ok extra
        ∧ t = (if s.nullable then TypeExpr.union [.record (some name) fields
                (s.representation.getD options.representation) extra, .none]
              else .record (some name) fields (s.representation.getD options.representation)
                extra) := by
  unfold ofObject
  have hempty : name.isEmpty = false := by simpa using hname
  simp only [Outcome.do_eq_ok_iff, Outcome.pure_eq_ok_iff, hempty, RecordType.toExpr]
  constructor
  · rintro ⟨fields, hfields, extra, hextra, rfl⟩
    exact ⟨fields, extra, hfields, hextra, rfl⟩
  · rintro ⟨fields, extra, hfields, hextra, rfl⟩
    exact ⟨fields, hfields, extra, hextra, rfl⟩

end TypeExpr

end DataShapes
