import DataShapes.Number.Notation
import DataShapes.Text.Quoted
import DataShapes.Value.Basic

/-!
# Value literals

Messages and stubs show a value by its literal: the source text that denotes it in the language of
the stubs.  Descriptors show their fields by name, and the members of an enumeration by name and
value.

Main definitions:
* `Value.literal`, `Descriptor.literal`;
* `Value.text`: a text as it is, any other value by its literal.
-/

namespace DataShapes

namespace Literal

/-- A member of an enumeration, by class, name and value. -/
def enumMember (cls name value : String) : String :=
  "<" ++ cls ++ "." ++ name ++ ": " ++ Quoted.quote value ++ ">"

/-- A sequence of literals between brackets. -/
def sequence (first last : String) (items : List String) : String :=
  first ++ ", ".intercalate items ++ last

/-- A tuple of literals: a single item is followed by a comma. -/
def tuple : List String → String
  | [item] => "(" ++ item ++ ",)"
  | items => sequence "(" ")" items

/-- A dictionary of literals. -/
def dict (entries : List String) : String := sequence "\x7b" "\x7d" entries

/-- An object by the name of its class and its fields. -/
def object (cls : String) (fields : List (String × String)) : String :=
  sequence (cls ++ "(") ")" (fields.map fun f => f.1 ++ "=" ++ f.2)

/-- A truth value. -/
def bool (b : Bool) : String := if b then "True" else "False"

/-- The absent value. -/
def none : String := "None"

/-- A text that may be absent. -/
def optionalText (s : Option String) : String := (s.map Quoted.quote).getD none

/-- A list of texts. -/
def texts (items : List String) : String := sequence "[" "]" (items.map Quoted.quote)

end Literal

namespace ScalarKind

/-- The literal of a kind. -/
def literal (k : ScalarKind) : String :=
  Literal.enumMember "ScalarKind"
    (match k with
      | .integer => "INTEGER"
      | .number => "NUMBER"
      | .string => "STRING"
      | .boolean => "BOOLEAN")
    k.name

end ScalarKind

/-- The literal of a defined shape. -/
def ShapeHandle.literal (h : ShapeHandle) : String :=
  "ShapeDefinition(" ++ (if h.isObject then "object" else "type") ++ " " ++ Quoted.quote h.name
    ++ ", title=" ++ Quoted.quote h.title ++ ")"

mutual

/-- The literal of a value. -/
def Value.literal : Value → String
  | .null => Literal.none
  | .bool b => Literal.bool b
  | .int n => toString n
  | .float d => Number.render Number.plain d
  | .str s => Quoted.quote s
  | .list items => Literal.sequence "[" "]" (Value.literals items)
  | .tuple items => Literal.tuple (Value.literals items)
  | .dict entries => Literal.dict (Value.entryLiterals entries)
  -- Descriptors, shapes and other objects can only be printed.
  | .descriptor d => Descriptor.literal d
  | .shape handle => handle.literal
  | .foreign _ text => text

/-- The literals of a list of values. -/
def Value.literals : List Value → List String
  | [] => []
  | v :: vs => Value.literal v :: Value.literals vs

/-- The literals of dictionary entries. -/
def Value.entryLiterals : List (Value × Value) → List String
  | [] => []
  | (k, v) :: es => (Value.literal k ++ ": " ++ Value.literal v) :: Value.entryLiterals es

/-- The literal of a descriptor. -/
def Descriptor.literal : Descriptor → String
  | .scalar kind => Literal.object "Scalar" [("kind", kind.literal)]
  | .array item => Literal.object "ArrayOf" [("item", Descriptor.literal item)]
  | .map value => Literal.object "MapOf" [("value", Descriptor.literal value)]
  | .union members => Literal.object "UnionOf" [("members", Literal.tuple (Descriptor.literals members))]
  | .named name => Literal.object "NamedShape" [("identifier", Quoted.quote name)]
  | .raw v => Value.literal v

/-- The literals of a list of descriptors. -/
def Descriptor.literals : List Descriptor → List String
  | [] => []
  | d :: ds => Descriptor.literal d :: Descriptor.literals ds

end

/-- A text as it is, any other value by its literal. -/
def Value.text : Value → String
  | .str s => s
  | v => v.literal

end DataShapes
