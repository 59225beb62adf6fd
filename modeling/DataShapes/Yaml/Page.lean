import DataShapes.Text.Hex
import DataShapes.Yaml.Scalar

/-!
# Pages

YAML text is laid out on a page that knows the column, whether white space was written last, and
whether the line so far holds nothing but indentation and list marks.  Scalars in quotes, and plain ones
with spaces, are broken when the line has become too long.

Main definitions:
* `Yaml.Page`: the text so far and where it ends;
* `Yaml.Page.indicator`, `Yaml.Page.toIndent`: write a mark, and go to the indentation;
* `Yaml.Page.plain`, `Yaml.Page.singleQuoted`, `Yaml.Page.doubleQuoted`: write a scalar.
-/

namespace DataShapes

namespace Yaml

/-- The text so far, and where it ends. -/
structure Page where
  /-- The text, its last character first. -/
  reversed : List Char := []
  column : Nat := 0
  /-- White space was written last. -/
  isSpaced : Bool := true
  /-- The line so far holds nothing but indentation and list marks. -/
  isFresh : Bool := true

namespace Page

/-- The text of a page. -/
def text (p : Page) : String := String.ofList p.reversed.reverse

/-- Lines longer than this are broken where possible. -/
def bestWidth : Nat := 80

/-- Write characters on the line. -/
def write (cs : List Char) (p : Page) : Page :=
  { p with reversed := cs.reverse ++ p.reversed, column := p.column + cs.length }

/-- Begin a new line by the given break. -/
def breakLine (c : Char) (p : Page) : Page :=
  { reversed := c :: p.reversed, column := 0, isSpaced := true, isFresh := true }

/-- Write a mark, with a space in front when it needs one.  After some marks the line still counts as
    fresh. -/
def indicator (mark : String) (needsSpace : Bool) (staysFresh : Bool) (p : Page) : Page :=
  let cs := mark.toList
  { p.write (if p.isSpaced || !needsSpace then cs else ' ' :: cs) with
    isSpaced := false, isFresh := p.isFresh && staysFresh }

/-- Go to an indentation, on a new line unless the line is fresh and has not gone further. -/
def toIndent (indent : Nat) (p : Page) : Page :=
  let p :=
    if !p.isFresh || p.column > indent || (p.column == indent && !p.isSpaced) then p.breakLine '\n' else p
  if p.column < indent then
    { p.write (List.replicate (indent - p.column) ' ') with isSpaced := true }
  else p

/-- The line is not fresh any more, and no white space was written last. -/
def touched (p : Page) : Page := { p with isSpaced := false, isFresh := false }

/-! ### Plain scalars -/

/-- The words of a text: the characters up to the next space, and the spaces. -/
def splitSpaces (cs : List Char) : List Char × List Char := cs.span (· == ' ')

/-- Write a text of words and spaces; a single space may become a line break. -/
def words (split : Bool) (indent : Nat) : Nat → List Char → Page → Page
  | 0, _, p => p
  | fuel + 1, cs, p =>
    let (word, rest) := cs.span (· != ' ')
    let p := p.write word
    if rest.isEmpty then p
    else
      let (spaces, rest) := splitSpaces rest
      let p :=
        -- Only a single space can stand for a line break, since several would not be read back as such.
        if spaces.length = 1 && p.column > bestWidth && split then (p.toIndent indent).touched
        else p.write spaces
      words split indent fuel rest p

/-- Write a plain scalar. -/
def plain (split : Bool) (indent : Nat) (text : String) (p : Page) : Page :=
  let p := if p.isSpaced then p else p.write [' ']
  p.touched.words split indent (text.length + 1) text.toList

/-! ### Single quotes -/

/-- What a text in single quotes consists of. -/
def singleGroup (c : Char) : Nat := if c = ' ' then 0 else if isBreak c then 1 else 2

/-- Write the line breaks of a text in quotes: one more than there are when the first is a line feed. -/
def writeBreaks (indent : Nat) (cs : List Char) (p : Page) : Page :=
  let p := if cs.head? = some '\n' then p.breakLine '\n' else p
  (cs.foldl (fun p c => p.breakLine c) p).toIndent indent

/-- Write the inner part of a text in single quotes.  A single space may become a line break, unless it
    is the first or last character. -/
def singleParts (split : Bool) (indent : Nat) : Nat → Bool → List Char → Page → Page
  | 0, _, _, p => p
  | _ + 1, _, [], p => p
  | fuel + 1, isFirst, c :: cs, p =>
    let group := singleGroup c
    let (same, rest) := cs.span (singleGroup · == group)
    let part := c :: same
    let p :=
      if group = 0 then
        if part.length = 1 && p.column > bestWidth && split && !isFirst && !rest.isEmpty then
          p.toIndent indent
        else p.write part
      -- Breaks take one more, since a single line feed would be read as a space.
      else if group = 1 then p.writeBreaks indent part
      else p.write (part.flatMap fun c => if c = '\'' then ['\'', '\''] else [c])
    singleParts split indent fuel false rest p

/-- Write a text in single quotes. -/
def singleQuoted (split : Bool) (indent : Nat) (text : String) (p : Page) : Page :=
  ((p.indicator "'" true false).singleParts split indent (text.length + 1) true text.toList).indicator
    "'" false false

/-! ### Double quotes -/

/-- The letter of an escape. -/
def escapeLetter? (c : Char) : Option Char :=
  ([('\x00', '0'), ('\x07', 'a'), ('\x08', 'b'), ('\t', 't'), ('\n', 'n'), ('\x0b', 'v'),
    ('\x0c', 'f'), ('\r', 'r'), ('\x1b', 'e'), ('"', '"'), ('\\', '\\'), ('\x85', 'N'), ('\xa0', '_'),
    ('\u2028', 'L'), ('\u2029', 'P')].find? (·.1 == c)).map Prod.snd

/-- A character by its code point, in capital digits. -/
def escapeCode (c : Char) : List Char :=
  let n := c.toNat
  if n < 0x100 then '\\' :: 'x' :: (Text.hex 2 n).map Char.toUpper
  else if n < 0x10000 then '\\' :: 'u' :: (Text.hex 4 n).map Char.toUpper
  else '\\' :: 'U' :: (Text.hex 8 n).map Char.toUpper

/-- A character that stands for itself in double quotes. -/
def isLiteralChar (c : Char) : Bool :=
  let n := c.toNat
  !(c == '"' || c == '\\' || c == '\x85' || c == '\u2028' || c == '\u2029' || n == 0xFEFF)
    && ((0x20 ≤ n && n ≤ 0x7E) || (0xA0 ≤ n && n ≤ 0xD7FF) || (0xE000 ≤ n && n ≤ 0xFFFD))

/-- A line in double quotes that has become too long can be broken before the character: at a space, or
    next to an escape.  `held` are the characters that stand for themselves and have not been written
    yet; an escape has been written already. -/
def breaksBefore (c : Char) (held : List Char) (p : Page) : Bool :=
  if isLiteralChar c then (c == ' ' || held.isEmpty) && p.column + held.length > bestWidth
  else p.column > bestWidth + 1

/-- Write the inner part of a text in double quotes.  `place` is the place of the next character of the
    `length` ones, and `held` are those that have not been written yet, the last one first.  A space at
    the start of a further line is escaped. -/
def doubleParts (split : Bool) (indent length : Nat) :
    List Char → Nat → List Char → Page → Page
  | [], _, held, p => p.write held.reverse
  | c :: cs, place, held, p =>
    let isLiteral := isLiteralChar c
    let (held, p) :=
      if isLiteral then (held, p)
      else
        let escape := match escapeLetter? c with
          | some l => ['\\', l]
          | none => escapeCode c
        ([], (p.write held.reverse).write escape)
    let splits := 0 < place && place + 1 < length && split && breaksBefore c held p
    let (held, p) :=
      if splits then
        let p := ((p.write (held.reverse ++ ['\\'])).toIndent indent).touched
        let next := if isLiteral then some c else cs.head?
        -- Spaces at the start of a line are not read unless they are escaped.
        ([], if next = some ' ' then p.write ['\\'] else p)
      else (held, p)
    doubleParts split indent length cs (place + 1) (if isLiteral then c :: held else held) p

/-- Write a text in double quotes. -/
def doubleQuoted (split : Bool) (indent : Nat) (text : String) (p : Page) : Page :=
  ((p.indicator "\"" true false).doubleParts split indent text.length text.toList 0 []).indicator
    "\"" false false

end Page

end Yaml

end DataShapes
