import DataShapes.Number.Notation
import DataShapes.Table
import DataShapes.Text.Blank
import DataShapes.Text.DecimalDigit
import DataShapes.Text.Hex
import DataShapes.Text.Identifier

/-!
# Tokens of patterns

A pattern is a regular expression over texts.  Whether one is well formed is decided by going through
it once; on the way the groups are counted, since references to a group are only in order when the
group is closed.

Main definitions:
* `Pattern.Token`: a character, or an escaped character;
* `Pattern.Width`: between which lengths the texts lie that a part of a pattern matches;
* `Pattern.State`, `Pattern.Check`: what is known while a pattern is checked, and the steps.
-/

namespace DataShapes

namespace Pattern

/-- A character of a pattern, or a character behind a backslash. -/
inductive Token where
  | char (c : Char)
  | escape (c : Char)
deriving DecidableEq, Repr

/-- The text of a token. -/
def Token.text : Token → List Char
  | .char c => [c]
  | .escape c => ['\\', c]

/-- The tokens of a pattern; a backslash at the end escapes nothing. -/
def tokens : List Char → Option (List Token)
  | [] => some []
  | ['\\'] => none
  | '\\' :: c :: cs => (tokens cs).map (.escape c :: ·)
  | c :: cs => (tokens cs).map (.char c :: ·)

/-- The least and the greatest length of the texts that are matched. -/
structure Width where
  least : Nat
  greatest : Nat
deriving DecidableEq, Repr

namespace Width

/-- Lengths from here on are not told apart. -/
def limit : Nat := Nat.pow 2 64

/-- The number of repetitions that stands for no bound. -/
def manyTimes : Nat := Nat.pow 2 32 - 1

/-- Nothing is matched. -/
def zero : Width := ⟨0, 0⟩

/-- One character. -/
def one : Width := ⟨1, 1⟩

/-- Widths up to the limit. -/
def cut (w : Width) : Width := ⟨min w.least limit, min w.greatest limit⟩

/-- One part behind the other. -/
def add (a b : Width) : Width := ⟨a.least + b.least, a.greatest + b.greatest⟩

/-- One part or the other. -/
def either (a b : Width) : Width := ⟨min a.least b.least, max a.greatest b.greatest⟩

/-- A part several times; no bound when there is no greatest number. -/
def times (w : Width) (least : Nat) (greatest : Option Nat) : Width :=
  ⟨w.least * least,
   match greatest with
   | some n => w.greatest * n
   | none => if w.greatest = 0 then 0 else limit⟩

/-- All parts, one behind the other. -/
def sum (ws : List Width) : Width := (ws.foldl add zero).cut

end Width

/-- What is known while a pattern is checked. -/
structure State where
  /-- What is left of the pattern. -/
  rest : List Token
  /-- The widths of the groups so far; an open group has none yet. -/
  groups : List (Option Width) := []
  /-- The numbers of named groups. -/
  names : Table Nat := []
  /-- Inside a look-behind only groups below this number can be referred to. -/
  behind : Option Nat := none
  /-- Groups that conditions ask for. -/
  conditions : List Nat := []
  /-- The flags of the whole pattern. -/
  flags : List Char := []
  /-- Some part is repeated. -/
  repeats : Bool := false

/-- A step of the check: it fails where the pattern is not well formed. -/
abbrev Check (α : Type) : Type := StateT State Option α

namespace Check

/-- The pattern is not well formed. -/
def fail {α : Type} : Check α := fun _ => none

/-- Go on only when the condition holds. -/
def require (b : Bool) : Check Unit := if b then pure () else fail

/-- The next token. -/
def peek : Check (Option Token) := do return (← get).rest.head?

/-- Take the next token. -/
def take : Check (Option Token) := do
  let s ← get
  set { s with rest := s.rest.tail }
  return s.rest.head?

/-- Take the next token, which must be there. -/
def takeToken : Check Token := do
  match ← take with
  | some t => return t
  | none => fail

/-- Take the next token when it is the given character. -/
def accept (c : Char) : Check Bool := do
  if (← peek) = some (.char c) then
    let _ ← take
    return true
  return false

/-- Take the given character, which must be next. -/
def expect (c : Char) : Check Unit := do require (← accept c)

/-- Take up to `n` characters of a kind. -/
def takeWhile (p : Char → Bool) : Nat → Check (List Char)
  | 0 => pure []
  | n + 1 => do
    match ← peek with
    | some (.char c) =>
      if p c then
        let _ ← take
        return c :: (← takeWhile p n)
      return []
    | _ => return []

/-- Take all characters of a kind that come next. -/
def takeAll (p : Char → Bool) : Check (List Char) := do takeWhile p (← get).rest.length

/-- Take everything up to a character, and the character. -/
def takeUntil (stop : Char) : Check (List Char) := do
  let s ← get
  let before := s.rest.takeWhile (· ≠ .char stop)
  require (before.length < s.rest.length)
  set { s with rest := s.rest.drop (before.length + 1) }
  return before.flatMap Token.text

/-- Take a name up to a character; a name is not empty. -/
def takeName (stop : Char) : Check String := do
  let name ← takeUntil stop
  require (!name.isEmpty)
  return String.ofList name

/-! ### Groups -/

/-- The width of a closed group.  Group zero is the whole pattern and never closed. -/
def closedGroup (n : Nat) : Check Width := do
  let s ← get
  match n with
  | 0 => fail
  | n + 1 =>
    match s.groups[n]? with
    | some (some w) => return w
    | _ => fail

/-- A group inside a look-behind can only be referred to when it was closed before. -/
def requireBehind (n : Nat) : Check Unit := do
  match (← get).behind with
  | some bound =>
    let _ ← closedGroup n
    require (n < bound)
  | none => pure ()

/-- A reference to a group. -/
def reference (n : Nat) : Check Width := do
  let w ← closedGroup n
  requireBehind n
  return w

/-- Open a group, and give its place. -/
def openGroup (name : Option String) : Check Nat := do
  let s ← get
  let place := s.groups.length
  match name with
  | some name =>
    require (!s.names.contains name)
    set { s with groups := s.groups ++ [none], names := s.names.put name (place + 1) }
  | none => set { s with groups := s.groups ++ [none] }
  return place

/-- Close a group. -/
def closeGroup (place : Nat) (w : Width) : Check Unit :=
  modify fun s => { s with groups := s.groups.set place (some w) }

/-- The number of a named group. -/
def namedGroup (name : String) : Check Nat := do
  require (Text.isIdentifier name)
  match (← get).names.get? name with
  | some n => return n
  | none => fail

end Check

end Pattern

end DataShapes
