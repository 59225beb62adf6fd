import DataShapes.Json.Quote
import DataShapes.Output
import DataShapes.Value.Equality

/-!
# Writing JSON

Values are written as JSON text, on one line or with an indentation for each level.  Keys that are
null, truth values or numbers are written as the text of that value; other keys and values of other
kinds cannot be written.

Main definitions:
* `Json.Layout`: line breaks, and what happens to values of other kinds;
* `Json.write`: the text of a value;
* `Json.normalForm`: the value that reading the text gives back.
-/

namespace DataShapes

namespace Json

/-- The style of floating-point numbers. -/
def numberStyle : Number.Style :=
  { Number.plain with nan := "NaN", infinity := "Infinity", negativeInfinity := "-Infinity" }

/-- How values are laid out. -/
structure Layout where
  /-- The indentation of one level; everything is on one line when there is none. -/
  indent : Option Nat := none
  /-- Values of other kinds are written as texts. -/
  lenient : Bool := false

/-- Two spaces for each level. -/
def indented : Layout := { indent := some 2 }

namespace Layout

/-- A new line at a level, when there are lines. -/
def newLine (l : Layout) (level : Nat) : String :=
  match l.indent with
  | some width => "\n" ++ String.ofList (List.replicate (level * width) ' ')
  | none => ""

/-- What stands between two items at a level. -/
def separator (l : Layout) (level : Nat) : String :=
  match l.indent with
  | some _ => "," ++ l.newLine level
  | none => ", "

end Layout

/-- The text of a key. -/
def keyText : Value → Except Problem String
  | .str s => .ok s
  | .float d => .ok (Number.render numberStyle d)
  | .bool b => .ok (if b then "true" else "false")
  | .null => .ok "null"
  | .int n => .ok (toString n)
  | v => .error (.unserializableKey v.kindName)

/-- A value that is no container. -/
def writeAtom (l : Layout) : Value → Output
  | .null => .piece "null"
  | .bool b => .piece (if b then "true" else "false")
  | .int n => .piece (toString n)
  | .float d => .piece (Number.render numberStyle d)
  | .str s => .piece (quote s)
  | v => if l.lenient then .piece (quote v.text) else .stop (.unserializable v.kindName)

/-- The end of a container. -/
def closing (l : Layout) (level : Nat) (bracket : String) : Output :=
  .piece (l.newLine level ++ bracket)

mutual

/-- Write a value that is inside `level` containers. -/
def write (l : Layout) (level : Nat) : Value → Output
  | .list [] | .tuple [] => .piece "[]"
  | .list items => .piece "[" ++ writeItems l (level + 1) true items ++ closing l level "]"
  | .tuple items => .piece "[" ++ writeItems l (level + 1) true items ++ closing l level "]"
  | .dict [] => .piece "\x7b\x7d"
  | .dict entries =>
    .piece ("\x7b" ++ l.newLine (level + 1)) ++ writeEntries l (level + 1) true entries
      ++ closing l level "\x7d"
  | v => writeAtom l v

/-- Write the items of a list, each behind a line break or separator. -/
def writeItems (l : Layout) (level : Nat) (first : Bool) : List Value → Output
  | [] => .piece ""
  | v :: vs =>
    .piece (if first then l.newLine level else l.separator level) ++ write l level v
      ++ writeItems l level false vs

/-- Write the entries of a dictionary.  A key that cannot be written is found before the separator
    in front of it is written. -/
def writeEntries (l : Layout) (level : Nat) (first : Bool) : List (Value × Value) → Output
  | [] => .piece ""
  | (k, v) :: es =>
    (match keyText k with
      | .ok text =>
        Output.piece ((if first then "" else l.separator level) ++ quote text ++ ": ")
      | .error p => Output.stop p)
      ++ write l level v ++ writeEntries l level false es

end

/-- The whole text of a value. -/
def render (l : Layout) (v : Value) : Except Problem String := (write l 0 v).complete

/-! ### What the text says -/

mutual

/-- The value that reading the text of a value gives back: tuples have become lists and keys have
    become texts, of which the last one counts. -/
def normalForm : Value → Except Problem Value
  | .null => .ok .null
  | .bool b => .ok (.bool b)
  | .int n => .ok (.int n)
  | .float d => .ok (.float d)
  | .str s => .ok (.str s)
  | .list items => do return .list (← normalForms items)
  | .tuple items => do return .list (← normalForms items)
  | .dict entries => do return .dict (Value.dictOf (← normalEntries entries))
  | v => .error (.unserializable v.kindName)

/-- The normal forms of the values of a list. -/
def normalForms : List Value → Except Problem (List Value)
  | [] => .ok []
  | v :: vs => do
    let first ← normalForm v
    let rest ← normalForms vs
    return first :: rest

/-- The normal forms of entries. -/
def normalEntries : List (Value × Value) → Except Problem (List (Value × Value))
  | [] => .ok []
  | (k, v) :: es => do
    let key ← keyText k
    let value ← normalForm v
    let rest ← normalEntries es
    return (.str key, value) :: rest

end

end Json

end DataShapes
