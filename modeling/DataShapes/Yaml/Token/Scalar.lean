import DataShapes.Text.Hex
import DataShapes.Yaml.Token

/-!
# Scanning scalars

Plain scalars, scalars in quotes and block scalars each have their own rules for line breaks: a single break
between words counts as a space, further ones are kept.

Main definitions:
* `Yaml.Scan.plain`, `Yaml.Scan.quoted`, `Yaml.Scan.block`: the three kinds of scalar.
-/

namespace DataShapes

namespace Yaml

namespace Scan

/-- What a line break and the empty lines behind it become: a single line feed becomes a space. -/
def fold (first : Char) (more : List Char) : List Char :=
  (if first ≠ '\n' then [first] else if more.isEmpty then [' '] else []) ++ more

/-! ### Plain scalars -/

/-- The number of characters of a plain scalar that come next on the line. -/
def plainLength (inFlow : Bool) : List Char → Nat
  | [] => 0
  | c :: cs =>
    if isGapOrEnd (some c) then 0
    else if inFlow && ",?[]\x7b\x7d".toList.contains c then 0
    else if c == ':' && (isGapOrEnd cs.head? || (inFlow && cs.head?.any ",[]\x7b\x7d".toList.contains)) then 0
    else plainLength inFlow cs + 1

/-- Empty lines between the lines of a plain scalar; nothing when a mark of a document follows.  `fuel`
    bounds the number of steps. -/
def plainBreaks : Nat → Scan (Option (List Char))
  | 0 => pure (some [])
  | fuel + 1 => do
    skipSpaces
    match ← lineBreak with
    | none => return some []
    | some c =>
      if ← atAnyMark then return none
      return (← plainBreaks fuel).map (c :: ·)

/-- White space inside a plain scalar; nothing when the scalar ends. -/
def plainSpaces : Scan (List Char) := do
  let spaces ← advanceWhile (· == ' ')
  match ← lineBreak with
  | none => return spaces
  | some c =>
    allowKey true
    if ← atAnyMark then return []
    let fuel := (← get).rest.length + 1
    match ← plainBreaks fuel with
    | some breaks => return fold c breaks
    | none => return []

/-- The words of a plain scalar behind some white space. -/
def plainWords : Nat → List Char → Scan (List Char)
  | 0, _ => pure []
  | fuel + 1, spaces => do
    if ← isNext '#' then return []
    let s ← get
    let length := plainLength (s.flowLevel > 0) s.rest
    if length = 0 then return []
    allowKey false
    let word ← advance length
    let more ← plainSpaces
    let t ← get
    if more.isEmpty || t.rest.head? == some '#' || (t.flowLevel == 0 && (t.column : Int) < t.indent + 1) then
      return spaces ++ word
    return spaces ++ word ++ (← plainWords fuel more)

/-- A plain scalar. -/
def plain : Scan Token := do
  let text ← plainWords ((← get).rest.length + 1) []
  return .scalar true (String.ofList text)

/-! ### Scalars in quotes -/

/-- The character that a letter behind a backslash stands for. -/
def unescape? (c : Char) : Option Char :=
  ([('0', '\x00'), ('a', '\x07'), ('b', '\x08'), ('t', '\t'), ('\t', '\t'), ('n', '\n'), ('v', '\x0b'),
    ('f', '\x0c'), ('r', '\r'), ('e', '\x1b'), (' ', ' '), ('"', '"'), ('\\', '\\'), ('/', '/'),
    ('N', '\x85'), ('_', '\xa0'), ('L', '\u2028'), ('P', '\u2029')].find? (·.1 == c)).map Prod.snd

/-- The number of digits behind a letter that announces a code point. -/
def codeLength? : Char → Option Nat
  | 'x' => some 2
  | 'u' => some 4
  | 'U' => some 8
  | _ => none

/-- Empty lines inside quotes.  A mark of a document cannot stand there. -/
def quotedBreaks : Nat → Scan (List Char)
  | 0 => pure []
  | fuel + 1 => do
    require (!(← atAnyMark))
    let _ ← advanceWhile fun c => c == ' ' || c == '\t'
    match ← lineBreak with
    | none => return []
    | some c => return c :: (← quotedBreaks fuel)

/-- What an escape stands for. -/
def escape (fuel : Nat) : Scan (List Char) := do
  skip
  match ← peek with
  | none => fail
  | some c =>
    if let some d := unescape? c then
      skip
      return [d]
    if let some length := codeLength? c then
      skip
      let digits ← advance length
      require (digits.length = length)
      match Text.hexNumber? digits with
      | some n =>
        require (n < 0x110000)
        return [Char.ofNat n]
      | none => fail
    require (isBreak c)
    let _ ← lineBreak
    quotedBreaks fuel

/-- White space inside quotes. -/
def quotedSpaces (fuel : Nat) : Scan (List Char) := do
  let spaces ← advanceWhile fun c => c == ' ' || c == '\t'
  match ← peek with
  | none => fail
  | some _ =>
    match ← lineBreak with
    | none => return spaces
    | some c => return fold c (← quotedBreaks fuel)

/-- A character inside quotes that stands for itself. -/
def isOrdinary (c : Char) : Bool :=
  !(c == '\'' || c == '"' || c == '\\' || isGapOrEnd (some c))

/-- The rest of a scalar in quotes, and the closing quote. -/
def quotedParts (quote : Char) : Nat → Scan (List Char)
  | 0 => fail
  | fuel + 1 => do
    let word ← advanceWhile isOrdinary
    match ← peek with
    | none => fail
    | some c =>
      if c = quote then
        if quote = '\'' && (← peekAt 1) == some '\'' then
          let _ ← advance 2
          return word ++ '\'' :: (← quotedParts quote fuel)
        skip
        return word
      else if quote = '"' && c = '\\' then
        let cs ← escape fuel
        return word ++ cs ++ (← quotedParts quote fuel)
      else if c = '\'' || c = '"' || c = '\\' then
        skip
        return word ++ c :: (← quotedParts quote fuel)
      else
        let cs ← quotedSpaces fuel
        return word ++ cs ++ (← quotedParts quote fuel)

/-- A scalar in quotes. -/
def quoted (quote : Char) : Scan Token := do
  skip
  let text ← quotedParts quote ((← get).rest.length + 1)
  return .scalar false (String.ofList text)

/-! ### Block scalars -/

/-- What happens to the line breaks at the end of a block scalar. -/
inductive Chomping where
  /-- All are dropped. -/
  | strip
  /-- One is kept. -/
  | clip
  /-- All are kept. -/
  | keep
deriving DecidableEq, Repr

/-- A sign in the header of a block scalar. -/
def chompingSign : Scan (Option Chomping) := do
  match ← peek with
  | some '+' =>
    skip
    return some .keep
  | some '-' =>
    skip
    return some .strip
  | _ => return none

/-- The number of columns in the header of a block scalar. -/
def indentDigit : Scan (Option Nat) := do
  match ← peek with
  | some c =>
    if c.isDigit then
      require (c ≠ '0')
      skip
      return some (c.toNat - '0'.toNat)
    return none
  | none => return none

/-- The header of a block scalar: a sign and a number in either order. -/
def blockHeader : Scan (Chomping × Option Nat) := do
  let before ← chompingSign
  let increment ← indentDigit
  let after ← if before.isNone && increment.isSome then chompingSign else pure none
  require (isSpaceOrEnd (← peek))
  restOfLine
  return ((before.or after).getD .clip, increment)

/-- Empty lines at the start of a block scalar, and the greatest number of columns that any goes in. -/
def leadingBreaks : Nat → Nat → Scan (List Char × Nat)
  | 0, deepest => pure ([], deepest)
  | fuel + 1, deepest => do
    skipSpaces
    let deepest := max deepest (← get).column
    match ← lineBreak with
    | none => return ([], deepest)
    | some c =>
      let (more, deepest) ← leadingBreaks fuel deepest
      return (c :: more, deepest)

/-- Go over the indentation of a line of a block scalar, at most. -/
def skipIndent (indent : Nat) : Scan Unit := do
  let s ← get
  let spaces := (s.rest.takeWhile (· == ' ')).length
  let _ ← advance (min spaces (indent - s.column))

/-- Empty lines inside a block scalar, and the indentation of the line behind them. -/
def blockBreaks (indent : Nat) : Nat → Scan (List Char)
  | 0 => pure []
  | fuel + 1 => do
    skipIndent indent
    match ← lineBreak with
    | none => return []
    | some c => return c :: (← blockBreaks indent fuel)

/-- A line of a block scalar starts with white space. -/
def isLoose (c : Option Char) : Bool := c == some ' ' || c == some '\t'

/-- The lines of a block scalar behind some empty lines, and the breaks at its end: the one behind the last
    line, and those further on. -/
def blockLines (folded : Bool) (indent : Nat) : Nat → List Char →
    Scan (List Char × Option Char × List Char)
  | 0, breaks => pure ([], none, breaks)
  | fuel + 1, breaks => do
    let s ← get
    if s.column = indent && !s.rest.isEmpty then
      let loose := isLoose s.rest.head?
      let text ← advanceWhile (!isBreak ·)
      let lineEnd ← lineBreak
      let more ← blockBreaks indent fuel
      let t ← get
      if t.column = indent && !t.rest.isEmpty then
        let joint :=
          if folded && lineEnd = some '\n' && !loose && !isLoose t.rest.head? then
            (if more.isEmpty then [' '] else [])
          else lineEnd.toList
        let (rest, tail) ← blockLines folded indent fuel more
        return (breaks ++ text ++ joint ++ rest, tail)
      return (breaks ++ text, lineEnd, more)
    return ([], none, breaks)

/-- A block scalar. -/
def block (folded : Bool) : Scan Token := do
  skip
  let (chomping, increment) ← blockHeader
  let fuel := (← get).rest.length + 1
  let least := ((← get).indent + 1).toNat
  let least := max least 1
  let (breaks, indent) ←
    match increment with
    | some n => do
      let indent := least + n - 1
      pure (← blockBreaks indent fuel, indent)
    | none => do
      let (breaks, deepest) ← leadingBreaks fuel 0
      pure (breaks, max least deepest)
  let (text, lineEnd, more) ← blockLines folded indent fuel breaks
  let tail := match chomping with
    | .strip => []
    | .clip => lineEnd.toList
    | .keep => lineEnd.toList ++ more
  return .scalar false (String.ofList (text ++ tail))

end Scan

end Yaml

end DataShapes
