import DataShapes.Schema.Basic

/-!
# Schema literals

Messages show a schema by its literal: every keyword by name, also those that are not given.
-/

namespace DataShapes

/-- The literal of a kind. -/
def SchemaKind.literal (k : SchemaKind) : String :=
  Literal.enumMember "SchemaKind"
    (match k with
      | .object => "OBJECT"
      | .integer => "INTEGER"
      | .number => "NUMBER"
      | .string => "STRING"
      | .boolean => "BOOLEAN"
      | .array => "ARRAY"
      | .union => "UNION"
      | .null => "NULL")
    k.name

namespace Literal

/-- The literal of what may be given or not. -/
def optional {α : Type} (literal : α → String) (x : Option α) : String := (x.map literal).getD none

/-- The literal of a value that may be unset, which is not the same as null. -/
def settable (x : Option Value) : String := (x.map Value.literal).getD "UNSET"

end Literal

mutual

/-- The literal of a schema. -/
def Schema.literal : Schema → String
  | .reference path => Literal.object "SchemaReference" [("ref", Quoted.quote path)]
  | .node f properties items additional members =>
    Literal.object "SchemaNode"
      [("kind", f.kind.literal),
       ("title", Literal.optionalText f.title),
       ("nullable", Literal.bool f.nullable),
       ("required", Literal.optional (fun names => Literal.tuple (names.map Quoted.quote)) f.required),
       ("properties", Schema.propertiesLiteral properties),
       ("items", Schema.partLiteral items),
       ("additional_properties", Schema.partLiteral additional),
       ("one_of", Schema.membersLiteral members),
       ("default", Literal.settable f.default),
       ("enum", Literal.optional (fun vs => (Value.tuple vs).literal) f.enumeration),
       ("pattern", Literal.optional Value.literal f.pattern),
       ("format", Literal.optional Value.literal f.format),
       ("description", Literal.optional Value.literal f.description),
       ("example", Literal.settable f.sample),
       ("representation", Literal.optional Representation.literal f.representation)]

/-- The literal of a property table that may be missing. -/
def Schema.propertiesLiteral : Option (List (String × Schema)) → String
  | none => Literal.none
  | some ps => Literal.dict (Schema.propertyLiterals ps)

/-- The literals of properties. -/
def Schema.propertyLiterals : List (String × Schema) → List String
  | [] => []
  | (name, s) :: ps =>
    (Quoted.quote name ++ ": " ++ Schema.literal s) :: Schema.propertyLiterals ps

/-- The literal of a part that may be missing. -/
def Schema.partLiteral : Option Schema → String
  | none => Literal.none
  | some s => Schema.literal s

/-- The literal of union members that may be missing. -/
def Schema.membersLiteral : Option (List Schema) → String
  | none => Literal.none
  | some ss => Literal.tuple (Schema.literals ss)

/-- The literals of a list of schemas. -/
def Schema.literals : List Schema → List String
  | [] => []
  | s :: ss => Schema.literal s :: Schema.literals ss

end

end DataShapes
