import DataShapes.Catalog.Basic

/-!
# Conformance of values

A value conforms to a descriptor when it has the type that the descriptor describes.  Parts are
checked in order, and the first failure ends the check; only the members of a union are all tried,
so that a value that several members admit can be pointed out.

A name leads to a shape, and checking the shape may lead to further names.  Following a name without
entering a container of the value leads from a type shape to one that was defined before it, unless
the type shape contains itself outside every array and map.  So a bounded number of names is
followed at each level of the value, and the bound is only exceeded where the check would never
end.

Main definitions:
* `Value.hasKind`: primitive values;
* `Descriptor.accepts`: the check of a descriptor, given how names are followed;
* `Shape.admits`: the check of a shape, given how descriptors are checked;
* `Scope.follow`: following names, a bounded number of times;
* `conforms`: the check of a value.
-/

namespace DataShapes

/-- The primitive values of a kind.  Truth values are no integers, and integers are numbers. -/
def Value.hasKind : Value → ScalarKind → Bool
  | .bool _, kind => kind == .boolean
  | .int _, kind => kind == .integer || kind == .number
  | .float _, kind => kind == .number
  | .str _, kind => kind == .string
  | _, _ => false

/-- A dictionary whose keys are all texts. -/
def Value.isTextKeyed : Value → Bool
  | .dict entries => entries.all fun e => e.1.isStr
  | _ => false

namespace Noted

/-- The check succeeds on every item; it ends at the first one on which it fails. -/
def all {α : Type} (check : α → Noted Bool) : List α → Noted Bool
  | [] => pure true
  | a :: as => do if ← check a then all check as else pure false

end Noted

mutual

/-- The check of a descriptor, where `follow` checks a value against a name. -/
def Descriptor.accepts (follow : String → Value → Noted Bool) : Descriptor → Value → Noted Bool
  | .scalar kind, v => pure (v.hasKind kind)
  | .array item, v =>
    match v with
    | .list vs | .tuple vs => Noted.all (Descriptor.accepts follow item) vs
    | _ => pure false
  | .map value, v =>
    match v with
    | .dict es =>
      Noted.all (fun e => if e.1.isStr then Descriptor.accepts follow value e.2 else pure false) es
    | _ => pure false
  | .union members, v => do
    let admitting ← Descriptor.acceptingMembers follow members v
    -- A value of several members is admitted, but it is not clear which shape was meant.
    if admitting.length > 1 && admitting.any Descriptor.isNamed then
      Noted.note .warning .rules
        ("Default " ++ v.literal ++ " matches several members of "
          ++ (Descriptor.union members).describe ++ ": "
          ++ Literal.texts (admitting.map Descriptor.describe))
    return !admitting.isEmpty
  | .named name, v => follow name v
  | .raw _, _ => pure false

/-- The members of a union that admit a value. -/
def Descriptor.acceptingMembers (follow : String → Value → Noted Bool) :
    List Descriptor → Value → Noted (List Descriptor)
  | [], _ => pure []
  | d :: ds, v => do
    let accepted ← Descriptor.accepts follow d v
    let rest ← Descriptor.acceptingMembers follow ds v
    return if accepted then d :: rest else rest

end

namespace Shape

/-- The check of one entry of an object: under a declared key, or under another one where those are
    admitted. -/
def admitsEntry (accepts : Descriptor → Value → Noted Bool) (s : Shape) (key : String)
    (v : Value) : Noted Bool :=
  match s.specs.find? fun spec => spec.name == key with
  | some spec =>
    if v matches .null && spec.options.nullable then pure true else accepts spec.descriptor v
  | none =>
    match s.additional with
    | none => pure false
    | some (descriptor, options) =>
      if v matches .null && options.nullable then pure true else accepts descriptor v

/-- Every property that must have a value is among the keys. -/
def hasNeededKeys (s : Shape) (entries : List (Value × Value)) : Bool :=
  s.specs.all fun spec =>
    entries.any (fun e => e.1 == .str spec.name) || !spec.options.isRequired || !spec.needsValue

/-- The check of a shape, where `accepts` checks a value against a descriptor. -/
def admits (accepts : Descriptor → Value → Noted Bool) (s : Shape) (v : Value) : Noted Bool :=
  if v matches .null && s.nullable then pure true
  else
    match s.body, v with
    | .type descriptor _, v => accepts descriptor v
    | .object .., .dict entries => do
      if !v.isTextKeyed then return false
      if !(← Noted.all (fun e => s.admitsEntry accepts e.1.text e.2) entries) then return false
      return s.hasNeededKeys entries
    | .object .., _ => pure false

end Shape

namespace Scope

/-- The check of a value against a name.  `fuel` bounds how many names are followed one from the
    other.  Of the shape that is being defined only the form of its values is known. -/
def follow (scope : Scope) : Nat → String → Value → Noted Bool
  | 0, _, _ => Noted.fail .endless
  | fuel + 1, name, v => do
    match ← scope.find name with
    | .nothing => pure false
    | .unfinished => pure v.isTextKeyed
    | .shape s => s.admits (Descriptor.accepts (follow scope fuel)) v

/-- How many names can be followed one from the other while a value is checked, unless the check
    never ends. -/
def followLimit (scope : Scope) (v : Value) : Nat := (v.depth + 1) * (scope.size + 2)

end Scope

/-- The value has the type that the descriptor describes. -/
def conforms (scope : Scope) (v : Value) (d : Descriptor) : Noted Bool :=
  Descriptor.accepts (scope.follow (scope.followLimit v)) d v

end DataShapes
