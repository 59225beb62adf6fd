import DataShapes.Yaml.Resolve

/-!
# Styles of scalars

A text can be written without quotes when it reads back as itself: it must not look like another value,
and no character in it may mean something.  Single quotes are enough for everything but characters that
need an escape and spaces next to line breaks.

Main definitions:
* `Yaml.Style`, `Yaml.styleOf`: the three styles, and the one chosen for a text.
-/

namespace DataShapes

namespace Yaml

/-- A line break. -/
def isBreak (c : Char) : Bool := c == '\n' || c == '\x85' || c == '\u2028' || c == '\u2029'

/-- White space or the end of the text. -/
def isGapOrEnd : Option Char → Bool
  | none => true
  | some c => c == ' ' || c == '\t' || c == '\r' || c == '\x00' || isBreak c

/-- A character that can be written without an escape. -/
def isPlainChar (c : Char) : Bool :=
  let n := c.toNat
  c == '\n' || (0x20 ≤ n && n ≤ 0x7E)
    || ((n == 0x85 || (0xA0 ≤ n && n ≤ 0xD7FF) || (0xE000 ≤ n && n ≤ 0xFFFD)
      || (0x10000 ≤ n && n < 0x10FFFF)) && n != 0xFEFF)

/-- How a scalar is written. -/
inductive Style where
  | plain
  | singleQuoted
  | doubleQuoted
deriving DecidableEq, Repr

/-- The first character means something when it stands at the start of a plain scalar. -/
def startsWithIndicator : List Char → Bool
  | [] => false
  | c :: cs =>
    "#,[]\x7b\x7d&*!|>'\"%@`".toList.contains c
      || ((c == '?' || c == ':' || c == '-') && isGapOrEnd cs.head?)

/-- A character behind the first one means something: a colon in front of white space, or a hash
    behind it. -/
def holdsIndicator : List Char → Bool
  | a :: b :: cs =>
    (b == ':' && isGapOrEnd cs.head?) || (b == '#' && isGapOrEnd (some a)) || holdsIndicator (b :: cs)
  | _ => false

/-- The text starts with the mark of a document. -/
def startsWithMark (cs : List Char) : Bool :=
  "---".toList.isPrefixOf cs || "...".toList.isPrefixOf cs

/-- Two characters of the given kinds stand next to each other. -/
def holdsPair (p q : Char → Bool) : List Char → Bool
  | a :: b :: cs => (p a && q b) || holdsPair p q (b :: cs)
  | _ => false

/-- A space or a line break. -/
def isSpaceOrBreak (c : Char) : Bool := c == ' ' || isBreak c

/-- A space or a line break stands at an end. -/
def hasLooseEnd (cs : List Char) : Bool :=
  cs.head?.any isSpaceOrBreak || cs.getLast?.any isSpaceOrBreak

/-- Outside of flow collections the text can be written without quotes, as far as its characters are
    concerned. -/
def allowsPlain (cs : List Char) : Bool :=
  !startsWithMark cs && !startsWithIndicator cs && !holdsIndicator cs && !hasLooseEnd cs
    && !cs.any isBreak && cs.all isPlainChar

/-- The text can be written in single quotes. -/
def allowsSingleQuotes (cs : List Char) : Bool :=
  cs.all isPlainChar && !holdsPair isBreak (· == ' ') cs && !holdsPair (· == ' ') isBreak cs

/-- The style chosen for a text.  A key on one line with its value has no line breaks. -/
def styleOf (isSimpleKey : Bool) (text : String) : Style :=
  let cs := text.toList
  if tagOf text = .str && allowsPlain cs then .plain
  else if allowsSingleQuotes cs && !(isSimpleKey && cs.any isBreak) then .singleQuoted
  else .doubleQuoted

end Yaml

end DataShapes
