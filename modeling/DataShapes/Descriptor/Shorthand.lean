import DataShapes.Problem
import DataShapes.Table
import DataShapes.Text.Blank

/-!
# Shorthand types

A declaration may write a type in short: a scalar by name, an array or a map as a pair, a union as
a list of members, and a named shape by the shape itself.  A descriptor stands for itself and is
taken as it is.

Main definitions:
* `Shorthand.scalarNames`: the names of scalars;
* `Shorthand.read`: the descriptor that a shorthand stands for.
-/

namespace DataShapes

namespace Shorthand

/-- The names of scalars, in ascending order. -/
def scalarNames : Table ScalarKind :=
  [("bool", .boolean), ("boolean", .boolean), ("float", .number), ("int", .integer),
   ("integer", .integer), ("number", .number), ("str", .string), ("string", .string)]

/-- The name that is looked up: without surrounding blanks and in lower case.  Only the lower case
    of ASCII letters matters, since no other letter has a lower case made of letters of scalar
    names alone. -/
def normalName (s : String) : String := String.ofList ((Text.trim s.toList).map Char.toLower)

/-- The scalar with the given name. -/
def scalar? (s : String) : Option ScalarKind := scalarNames.get? (normalName s)

mutual

/-- The descriptor that a shorthand stands for. -/
def read : Value → Except Problem Descriptor
  | .descriptor d => .ok d
  | .str s =>
    match scalar? s with
    | some kind => .ok (.scalar kind)
    | none => .error (.unknownScalar s scalarNames.keys)
  | .tuple items => readTuple items
  | .list [] => .error .emptyUnion
  | .list (v :: vs) => do
    let first ← read v
    let rest ← readAll vs
    return .union (first :: rest)
  | .shape handle => .ok (.named handle.name)
  | v => .error (.notAType v)

/-- A pair of a container name and the type of its items. -/
def readTuple : List Value → Except Problem Descriptor
  | [.str container, inner] =>
    if container = "array" then return .array (← read inner)
    else if container = "map" then return .map (← read inner)
    else .error (.unknownContainer container)
  | items => .error (.notAType (.tuple items))

/-- The descriptors of a list of shorthands. -/
def readAll : List Value → Except Problem (List Descriptor)
  | [] => .ok []
  | v :: vs => do
    let first ← read v
    let rest ← readAll vs
    return first :: rest

end

end Shorthand

end DataShapes
