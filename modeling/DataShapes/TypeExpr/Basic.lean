import DataShapes.Options
import DataShapes.Value.Literal

/-!
# Type expressions

The type signature of a shape is a type expression: what a value of the shape looks like to a
program.

Main definitions:
* `TypeExpr`, `FieldType`: type expressions and the fields of records;
* `TypeExpr.record?`: the record in the signature of an object;
* `TypeExpr.hint`: the expression as a type hint.
-/

namespace DataShapes

mutual

/-- A type expression. -/
inductive TypeExpr where
  | primitive (kind : ScalarKind)
  /-- The type of null alone. -/
  | none
  | sequence (item : TypeExpr)
  /-- A mapping from texts; no key has to be present. -/
  | mapping (value : TypeExpr)
  | union (members : List TypeExpr)
  /-- The shape with the given declared name. -/
  | named (name : String)
  | record (name : Option String) (fields : List FieldType) (representation : Representation)
      (extra : Option TypeExpr)
  /-- A value in the place of a type expression. -/
  | raw (value : Value)

/-- A field of a record. -/
inductive FieldType where
  | mk (name : String) (type : TypeExpr) (required : Bool)

end

instance : Inhabited TypeExpr := ⟨.none⟩

namespace FieldType

/-- The name of a field. -/
def name : FieldType → String
  | .mk name _ _ => name

/-- The type of a field. -/
def type : FieldType → TypeExpr
  | .mk _ type _ => type

/-- The key must be present. -/
def required : FieldType → Bool
  | .mk _ _ required => required

end FieldType

/-- A record type by its parts. -/
structure RecordType where
  name : Option String
  fields : List FieldType
  representation : Representation
  extra : Option TypeExpr

namespace RecordType

/-- The record as a type expression. -/
def toExpr (r : RecordType) : TypeExpr := .record r.name r.fields r.representation r.extra

/-- The first field with the given name. -/
def field? (r : RecordType) (name : String) : Option FieldType :=
  r.fields.find? fun f => f.name == name

end RecordType

namespace TypeExpr

/-- The expression as a record. -/
def asRecord? : TypeExpr → Option RecordType
  | .record name fields representation extra => some ⟨name, fields, representation, extra⟩
  | _ => Option.none

/-- The record in the signature of an object: the signature itself, or the first record among the
    members of a union. -/
def record? : TypeExpr → Option RecordType
  | .union members => members.findSome? asRecord?
  | e => e.asRecord?

/-- The union of some members; a single member stands for itself. -/
def unionOf : List TypeExpr → TypeExpr
  | [e] => e
  | es => .union es

/-- The type hint of a primitive. -/
def primitiveHint : ScalarKind → String
  | .integer => "int"
  | .number => "float"
  | .string => "str"
  | .boolean => "bool"

/-- The type hint of a record without a name. -/
def anonymousRecord : String := "dict[str, Any]"

mutual

/-- A type expression as a type hint. -/
def hint : TypeExpr → Except Problem String
  | .primitive kind => .ok (primitiveHint kind)
  | .none => .ok "None"
  | .sequence item => do return "list[" ++ (← hint item) ++ "]"
  | .mapping value => do return "dict[str, " ++ (← hint value) ++ "]"
  | .union members => do return " | ".intercalate (← hints members)
  | .named name => .ok name
  | .record (some name) _ _ _ => .ok (if name.isEmpty then anonymousRecord else name)
  | .record Option.none _ _ _ => .ok anonymousRecord
  | .raw value => .error (.unknownExpression value)

/-- The type hints of a list of type expressions. -/
def hints : List TypeExpr → Except Problem (List String)
  | [] => .ok []
  | e :: es => do
    let first ← hint e
    let rest ← hints es
    return first :: rest

end

@[simp] theorem record?_toExpr (r : RecordType) : r.toExpr.record? = some r := rfl

end TypeExpr

end DataShapes
