import DataShapes.Yaml.Scalar

/-!
# Tokens of YAML text

The scanner cuts a text into tokens.  It keeps the place in the text, the indentation of the block
collections around that place, and for each level of flow collections the place where a simple key may have
started: only the colon behind it shows that it was one, and then its token is put in afterwards.

Main definitions:
* `Yaml.Token`: the tokens;
* `Yaml.Scanner`, `Yaml.Scan`: the state of the scanner, and its steps;
* `Yaml.Scan.advance`, `Yaml.Scan.lineBreak`: going forward in the text;
* `Yaml.Scan.saveKey`, `Yaml.Scan.dropStaleKeys`: possible simple keys.
-/

namespace DataShapes

namespace Yaml

/-- A piece of YAML text. -/
inductive Token where
  | directive (name : String) (arguments : List String)
  | documentStart
  | documentEnd
  | blockSequenceStart
  | blockMappingStart
  | blockEnd
  | flowSequenceStart
  | flowSequenceEnd
  | flowMappingStart
  | flowMappingEnd
  | flowEntry
  | blockEntry
  | key
  | value
  | alias (name : String)
  | anchor (name : String)
  /-- A tag by its handle, if it has one, and the rest. -/
  | tag (handle : Option String) (suffix : String)
  | scalar (isPlain : Bool) (text : String)
deriving DecidableEq, Repr

/-- The place where a simple key may have started. -/
structure PossibleKey where
  /-- The number of tokens in front of it. -/
  place : Nat
  /-- There must be a key here, since a block mapping goes on. -/
  isRequired : Bool
  index : Nat
  line : Nat
  column : Nat
deriving Repr

/-- The state of the scanner. -/
structure Scanner where
  /-- The text that is left. -/
  rest : List Char
  index : Nat := 0
  line : Nat := 0
  column : Nat := 0
  /-- The number of flow collections around the place. -/
  flowLevel : Nat := 0
  /-- The tokens so far. -/
  tokens : Array Token := #[]
  /-- The indentation of the block collection around the place; below zero outside of all. -/
  indent : Int := -1
  /-- The indentations of the block collections further out. -/
  indents : List Int := []
  /-- A simple key may start here. -/
  allowsKey : Bool := true
  /-- The possible simple keys by their flow levels. -/
  keys : List (Nat × PossibleKey) := []

/-- A step of the scanner: it fails where the text is not proper YAML. -/
abbrev Scan (α : Type) : Type := StateT Scanner Option α

namespace Scan

/-- The text is not proper YAML. -/
def fail {α : Type} : Scan α := fun _ => none

/-- Go on only when the condition holds. -/
def require (b : Bool) : Scan Unit := if b then pure () else fail

/-- The character `n` places ahead. -/
def peekAt (n : Nat) : Scan (Option Char) := do return (← get).rest[n]?

/-- The next character. -/
def peek : Scan (Option Char) := peekAt 0

/-- The next character is the given one. -/
def isNext (c : Char) : Scan Bool := do return (← peek) == some c

/-- White space or the end comes `n` places ahead. -/
def gapAt (n : Nat) : Scan Bool := do return isGapOrEnd (← peekAt n)

/-- A line break or the end of the text. -/
def isLineEnd : Option Char → Bool
  | none => true
  | some c => isBreak c

/-- A space, a line break or the end of the text. -/
def isSpaceOrEnd (c : Option Char) : Bool := c == some ' ' || isLineEnd c

/-- The state behind one character. -/
def stepOver (c : Char) (s : Scanner) : Scanner :=
  if isBreak c then { s with index := s.index + 1, line := s.line + 1, column := 0 }
  else if c = '\uFEFF' then { s with index := s.index + 1 }
  else { s with index := s.index + 1, column := s.column + 1 }

/-- Go forward by some characters, and give them. -/
def advance (n : Nat) : Scan (List Char) := do
  let s ← get
  let taken := s.rest.take n
  set { taken.foldl (fun s c => stepOver c s) s with rest := s.rest.drop n }
  return taken

/-- Go over one character. -/
def skip : Scan Unit := do
  let _ ← advance 1

/-- Go over the characters of a kind, and give them. -/
def advanceWhile (p : Char → Bool) : Scan (List Char) := do
  advance ((← get).rest.takeWhile p).length

/-- Go over spaces. -/
def skipSpaces : Scan Unit := do
  let _ ← advanceWhile (· == ' ')

/-- Go over a line break, if there is one; most breaks count as a line feed. -/
def lineBreak : Scan (Option Char) := do
  match ← peek with
  | some c =>
    if isBreak c then
      skip
      return some (if c = '\x85' then '\n' else c)
    return none
  | none => return none

/-- Go over a comment. -/
def skipComment : Scan Unit := do
  if ← isNext '#' then
    let _ ← advanceWhile (!isBreak ·)

/-- Only spaces and a comment come before the end of the line, which is gone over. -/
def restOfLine : Scan Unit := do
  skipSpaces
  skipComment
  require (isLineEnd (← peek))
  let _ ← lineBreak

/-- A mark of a document stands here. -/
def atMark (mark : String) : Scan Bool := do
  let s ← get
  return mark.toList.isPrefixOf s.rest && isGapOrEnd s.rest[mark.length]?

/-- A mark of the start or the end of a document stands here. -/
def atAnyMark : Scan Bool := do
  return (← atMark "---") || (← atMark "...")

/-- Add a token. -/
def emit (t : Token) : Scan Unit := modify fun s => { s with tokens := s.tokens.push t }

/-- Say whether a simple key may start here. -/
def allowKey (b : Bool) : Scan Unit := modify ({ · with allowsKey := b })

/-! ### Possible simple keys -/

/-- Forget the possible keys that cannot be keys any more: those on earlier lines or too far back.  One that
    is required cannot be forgotten. -/
def dropStaleKeys : Scan Unit := do
  let s ← get
  let isStale := fun (k : PossibleKey) => k.line != s.line || s.index - k.index > 1024
  require (s.keys.all fun k => !(isStale k.2 && k.2.isRequired))
  set { s with keys := s.keys.filter fun k => !isStale k.2 }

/-- Forget the possible key at this flow level. -/
def dropKey : Scan Unit := do
  let s ← get
  require (s.keys.all fun k => !(k.1 == s.flowLevel && k.2.isRequired))
  set { s with keys := s.keys.filter (·.1 != s.flowLevel) }

/-- A simple key may start here. -/
def saveKey : Scan Unit := do
  let s ← get
  if s.allowsKey then
    let isRequired := s.flowLevel == 0 && s.indent == s.column
    dropKey
    modify fun s =>
      { s with keys := s.keys ++ [(s.flowLevel, ⟨s.tokens.size, isRequired, s.index, s.line, s.column⟩)] }

/-! ### Indentation -/

/-- End the block collections that are indented further than a column; `fuel` bounds their number. -/
def unwindWith : Nat → Int → Scan Unit
  | 0, _ => pure ()
  | fuel + 1, column => do
    let s ← get
    if s.flowLevel == 0 && s.indent > column then
      set { s with indent := s.indents.headD (-1), indents := s.indents.tail }
      emit .blockEnd
      unwindWith fuel column

/-- End the block collections that are indented further than a column. -/
def unwind (column : Int) : Scan Unit := do unwindWith ((← get).indents.length + 1) column

/-- Begin a block collection at a column unless there is one; say whether it was begun. -/
def indentTo (column : Int) : Scan Bool := do
  let s ← get
  if s.indent < column then
    set { s with indents := s.indent :: s.indents, indent := column }
    return true
  return false

end Scan

end Yaml

end DataShapes
