import DataShapes.Registry
import DataShapes.Schema.Levels
import DataShapes.Schema.Literal
import DataShapes.TypeExpr.Basic

/-!
# Type signatures of schemas

A type signature is read off a schema in normal form.  A reference becomes the declared name that
the registry has for its path, a map becomes a mapping, and an embedded object becomes a record
under its declared name.  The contents of objects are put into normal form when they are reached.

Main definitions:
* `TypeExpr.ofSchema`: the signature of a schema;
* `TypeExpr.ofNormalForm`: the signature of the normal form of a schema;
* `TypeExpr.ofObject`: the signature of an object shape, which takes over the field types of the
  shape it extends where the properties are unchanged.
-/

namespace DataShapes

namespace TypeExpr

/-- The type of an object: a mapping when it is a map, else a record.  The node is a map when it
    has no properties and no representation, and other values have a type. -/
def ofObjectParts (r : Registry) (f : Facets) (fields : List FieldType) (extra : Option TypeExpr) :
    TypeExpr :=
  match fields, f.representation, extra with
  | [], Option.none, some value => .mapping value
  | _, representation, _ =>
    .record (f.title.map r.inlinedName) fields (representation.getD .fixedRecord) extra

/-- A pair decreases when its first part does not grow and its second part decreases. -/
private theorem lex_of_le_of_lt {a b c d : Nat} (h : a ≤ b) (h' : c < d) :
    Prod.Lex (· < ·) (· < ·) (a, c) (b, d) := by
  rcases Nat.lt_or_eq_of_le h with h | rfl
  · exact .left _ _ h
  · exact .right _ h'

/-- The type expression of a schema.  It goes down into parts, and into the normal form of the
    contents of objects, which have fewer object levels. -/
def ofSchema (r : Registry) : Schema → Except Problem TypeExpr
  | .reference path =>
    match r.resolve path with
    | some unit => .ok (.named unit)
    | Option.none => .error (.unrecordedReference path r.literal)
  | .node f properties items additional members =>
    match _hkind : f.kind with
    | .null => .ok .none
    | .integer => .ok (.primitive .integer)
    | .number => .ok (.primitive .number)
    | .string => .ok (.primitive .string)
    | .boolean => .ok (.primitive .boolean)
    | .array =>
      match items with
      | some item => do return .sequence (← ofSchema r item)
      | Option.none => .error .missingItems
    | .union => do
      let types ← (members.getD []).attach.mapM fun m => ofSchema r m.1
      -- A union with one member is the member.
      return unionOf types
    -- The contents of an object are not in normal form before they are read.
    | .object => do
      let fields ← (properties.getD []).attach.mapM fun p => do
        let type ← ofSchema r (Schema.normalize p.1.2)
        return FieldType.mk p.1.1 type ((f.required.getD []).contains p.1.1)
      let extra ← match additional with
        | some value => do
          let type ← ofSchema r (Schema.normalize value)
          pure (some type)
        | Option.none => pure Option.none
      return ofObjectParts r f fields extra
termination_by s => (s.levels, sizeOf s)
decreasing_by
  · have hlt : sizeOf item < sizeOf (Schema.node f properties (some item) additional members) := by
      simp only [Schema.node.sizeOf_spec, Option.some.sizeOf_spec]
      omega
    exact lex_of_le_of_lt Schema.levels_items_le hlt
  · exact lex_of_le_of_lt (Schema.levels_member_le m.2) (Schema.sizeOf_member_lt m.2)
  · exact .left _ _ (Schema.levels_property_lt _hkind p.2)
  · exact .left _ _ (Schema.levels_additional_lt _hkind)

/-- The type expression of the normal form of a schema. -/
def ofNormalForm (r : Registry) (s : Schema) : Except Problem TypeExpr := ofSchema r s.normalize

/-! ### Object shapes -/

/-- What an object shape takes over from the shape that it extends: the signature and the schema
    of that shape. -/
structure Inherited where
  signature : TypeExpr
  schema : Schema

/-- The type of an inherited field, when the property is the same as in the extended shape. -/
def Inherited.reuse? (parent : Inherited) (name : String) (s : Schema) : Option TypeExpr := do
  let record ← parent.signature.record?
  let field ← record.field? name
  let inherited ← parent.schema.properties.get? name
  if inherited == s then some field.type else Option.none

/-- The fields of an object shape, in the order of its properties. -/
def fieldsOf (r : Registry) (s : Schema) (parent : Option Inherited) :
    Except Problem (List FieldType) :=
  s.properties.mapM fun p => do
    let type ← match parent.bind (·.reuse? p.1 p.2) with
      | some type => pure type
      | Option.none => ofNormalForm r p.2
    return .mk p.1 type (s.required.contains p.1)

/-- The type of values under keys beyond the properties. -/
def extraOf (r : Registry) (s : Schema) : Except Problem (Option TypeExpr) :=
  match s.additional with
  | some value => do return some (← ofNormalForm r value)
  | Option.none => .ok Option.none

/-- The signature of an object shape: a record under the given name, or under the title of the
    schema; a nullable object is a union with null.  The representation that the schema asks for
    comes before the one of the options. -/
def ofObject (r : Registry) (s : Schema) (options : ObjectOptions) (name : Option String)
    (parent : Option Inherited) : Except Problem TypeExpr := do
  let fields ← fieldsOf r s parent
  let extra ← extraOf r s
  let label := match name with
    | some name => if name.isEmpty then s.title else some name
    | Option.none => s.title
  let record : RecordType :=
    ⟨label, fields, s.representation.getD options.representation, extra⟩
  return if s.nullable then .union [record.toExpr, .none] else record.toExpr

end TypeExpr

end DataShapes
