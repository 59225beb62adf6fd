import DataShapes.Problem

/-!
# Options of properties and objects

Options say how a property or an object shape is assembled.  An option that is not given is kept
apart from one that is given as null.

Main definitions:
* `Representation`: how values of an object shape are held at run time;
* `PropertyOptions`, `ObjectOptions`: the two option sets;
* `PropertyOptions.ofEntries`, `ObjectOptions.ofEntries`: the option set that named values give,
  where unknown names are refused;
* `PropertyOptions.forPart`: what of the options of a container holds for its parts;
* `PropertyOptions.withDefaults`: fill in what the enclosing object says.
-/

namespace DataShapes

/-- How values of an object shape are held at run time. -/
inductive Representation where
  /-- A record with exactly the declared fields. -/
  | fixedRecord
  /-- A mapping that may lack keys. -/
  | openMap
deriving DecidableEq, Repr, Inhabited

namespace Representation

/-- The word for a representation. -/
def name : Representation → String
  | .fixedRecord => "fixed-record"
  | .openMap => "open-map"

/-- The literal of a representation. -/
def literal (r : Representation) : String :=
  Literal.enumMember "Representation"
    (match r with
      | .fixedRecord => "FIXED_RECORD"
      | .openMap => "OPEN_MAP")
    r.name

/-- The representation that a value names. -/
def ofValue (v : Value) : Except Problem Representation :=
  match v with
  | .str "fixed-record" => .ok .fixedRecord
  | .str "open-map" => .ok .openMap
  | _ => .error (.notARepresentation v)

end Representation

/-! ### Options of a property -/

/-- How a property is assembled. -/
structure PropertyOptions where
  /-- Whether the key must be present; not given means what the enclosing object says. -/
  required : Option Bool := none
  /-- Whether null is a value of the property. -/
  nullable : Bool := false
  /-- The default value, if one is given; it may be null. -/
  default : Option Value := none
  description : Option Value := none
  /-- The example value, if one is given; it may be null. -/
  sample : Option Value := none
  /-- The admissible texts. -/
  enumeration : Option (List Value) := none
  pattern : Option Value := none
  format : Option Value := none
  /-- Whether a named shape is embedded instead of referenced; not given means what the enclosing
      object says. -/
  inline : Option Bool := none
deriving Inhabited

/-- A truth value that may be left open by null. -/
def Value.toChoice : Value → Option Bool
  | .null => none
  | v => some v.isTruthy

namespace PropertyOptions

/-- The names of the options, in ascending order. -/
def names : List String :=
  ["default", "description", "enum", "example", "format", "inline", "nullable", "pattern",
   "required"]

/-- The items of a value that can be enumerated: a text gives its characters and a dictionary its
    keys. -/
def items : Value → Except Problem (List Value)
  | .list vs | .tuple vs => .ok vs
  | .dict es => .ok (es.map Prod.fst)
  | .str s => .ok (s.toList.map fun c => .str (String.singleton c))
  | v => .error (.notIterable v.kindName)

/-- Give one option by name. -/
def set (o : PropertyOptions) (name : String) (v : Value) : Except Problem PropertyOptions :=
  match name with
  | "required" => .ok { o with required := v.toChoice }
  | "nullable" => .ok { o with nullable := v.isTruthy }
  | "default" => .ok { o with default := some v }
  | "description" => .ok { o with description := v.toOption }
  | "example" => .ok { o with sample := some v }
  | "enum" =>
    match v with
    | .null => .ok { o with enumeration := none }
    | v => do return { o with enumeration := some (← items v) }
  | "pattern" => .ok { o with pattern := v.toOption }
  | "format" => .ok { o with format := v.toOption }
  | "inline" => .ok { o with inline := v.toChoice }
  | _ => .error (.unknownOptions .property [.str name] names)

end PropertyOptions

/-- The names of `given` that are not among the known ones: texts in ascending order, then others. -/
def unknownOptionNames (known : List String) (given : List Value) : List Value :=
  let unknown := given.filter fun v => !(v.str?.any known.contains)
  (Text.sorted (unknown.filterMap Value.str?)).map .str ++ unknown.filter (!·.isStr)

namespace PropertyOptions

/-- The options that named values give. -/
def ofEntries (entries : List (Value × Value)) : Except Problem PropertyOptions :=
  match unknownOptionNames names (entries.map Prod.fst) with
  | [] => entries.foldlM (fun o e => o.set e.1.text e.2) {}
  | unknown => .error (.unknownOptions .property unknown names)

/-- The options that a value gives: none when it is null, else those of a dictionary.  Anything else that can be
    enumerated is taken for entries, and the names of options are none. -/
def ofValue : Value → Except Problem PropertyOptions
  | .null => .ok {}
  | .dict entries => ofEntries entries
  | v => do
    let given ← items v
    match unknownOptionNames names given, given with
    | [], [] => .ok {}
    | [], first :: _ => .error (.notAnEntry first.text.length)
    | unknown, _ => .error (.unknownOptions .property unknown names)

/-- A default value is given, be it null. -/
def hasDefault (o : PropertyOptions) : Bool := o.default.isSome

/-- The key must be present; so it must when nothing is said. -/
def isRequired (o : PropertyOptions) : Bool := o.required.getD true

/-- Named shapes are embedded; they are not when nothing is said. -/
def isInline (o : PropertyOptions) : Bool := o.inline.getD false

/-- The options of a container that hold for its parts as well: those that describe the container
    alone are dropped. -/
def forPart (o : PropertyOptions) : PropertyOptions :=
  { o with nullable := false, default := none, description := none, enumeration := none }

/-- Fill in what the enclosing object says where the property says nothing.  The object may say nothing either. -/
def withDefaults (o : PropertyOptions) (required inline : Option Bool) : PropertyOptions :=
  { o with required := o.required.or required, inline := o.inline.or inline }

/-- The choice of the property counts before that of the object, and without any the property is required. -/
@[simp] theorem isRequired_withDefaults (o : PropertyOptions) (required inline : Option Bool) :
    (o.withDefaults required inline).isRequired = (o.required.or required).getD true := rfl

/-- The choice of the property counts before that of the object, and without any the shape is referred to. -/
@[simp] theorem isInline_withDefaults (o : PropertyOptions) (required inline : Option Bool) :
    (o.withDefaults required inline).isInline = (o.inline.or inline).getD false := rfl

/-- Dropping the options of the container twice changes nothing more. -/
@[simp] theorem forPart_forPart (o : PropertyOptions) : o.forPart.forPart = o.forPart := rfl

/-- A text that marks an option that is not given. -/
private def unsetText : Option Value → String
  | none => "UNSET"
  | some v => v.literal

private def valueText : Option Value → String
  | none => Literal.none
  | some v => v.literal

private def choiceText : Option Bool → String
  | none => Literal.none
  | some b => Literal.bool b

/-- The literal of the options of a property. -/
def literal (o : PropertyOptions) : String :=
  Literal.object "PropertyOptions"
    [("required", choiceText o.required), ("nullable", Literal.bool o.nullable),
     ("default", unsetText o.default), ("description", valueText o.description),
     ("example", unsetText o.sample),
     ("enum", match o.enumeration with
       | none => Literal.none
       | some vs => (Value.tuple vs).literal),
     ("pattern", valueText o.pattern), ("format", valueText o.format),
     ("inline", choiceText o.inline)]

end PropertyOptions

/-! ### Options of an object -/

/-- How an object shape is assembled. -/
structure ObjectOptions where
  /-- What is said of properties that do not say whether they are required; null leaves it open. -/
  requiredChoice : Option Bool := some true
  /-- What is said of properties that do not say whether they are embedded; null leaves it open. -/
  inlineChoice : Option Bool := some false
  nullable : Bool := false
  representation : Representation := .fixedRecord
  description : Option Value := none
  sample : Option Value := none
  /-- The shape that is extended: null, the name of a shape of the same catalog, or a shape. -/
  base : Value := .null
deriving Inhabited

namespace ObjectOptions

/-- The names of the options, in ascending order. -/
def names : List String :=
  ["description", "example", "extends", "inline", "nullable", "representation", "required"]

/-- Give one option by name. -/
def set (o : ObjectOptions) (name : String) (v : Value) : Except Problem ObjectOptions :=
  match name with
  | "required" => .ok { o with requiredChoice := v.toChoice }
  | "inline" => .ok { o with inlineChoice := v.toChoice }
  | "nullable" => .ok { o with nullable := v.isTruthy }
  | "representation" => do return { o with representation := ← Representation.ofValue v }
  | "description" => .ok { o with description := v.toOption }
  | "example" => .ok { o with sample := some v }
  | "extends" => .ok { o with base := v }
  | _ => .error (.unknownOptions .object [.str name] names)

/-- The options that named values give. -/
def ofEntries (entries : List (Value × Value)) : Except Problem ObjectOptions :=
  match unknownOptionNames names (entries.map Prod.fst) with
  | [] => entries.foldlM (fun o e => o.set e.1.text e.2) {}
  | unknown => .error (.unknownOptions .object unknown names)

/-- Values of the shape are records with exactly the declared fields. -/
def isFixedRecord (o : ObjectOptions) : Bool := o.representation == .fixedRecord

end ObjectOptions

end DataShapes
