import DataShapes.Yaml.Token.Scalar

/-!
# Scanning directives, anchors and tags

Marks that stand in front of a document or a node: directives, anchors and aliases, and tags, whose
suffix is the text of a resource identifier with escaped bytes.

Main definitions:
* `Yaml.Scan.directive`, `Yaml.Scan.name`, `Yaml.Scan.tag`: the scanners of these marks.
-/

namespace DataShapes

namespace Yaml

namespace Scan

/-- A character of the name of an anchor, a handle or a directive. -/
def isNameChar (c : Char) : Bool :=
  ('a' ≤ c && c ≤ 'z') || ('A' ≤ c && c ≤ 'Z') || ('0' ≤ c && c ≤ '9') || c == '-' || c == '_'

/-- A character of a resource identifier that stands for itself. -/
def isUriChar (c : Char) : Bool := isNameChar c || ";/?:@&=+$,.!~*'()[]".toList.contains c

/-- Some characters of a kind, at least one. -/
def someOf (p : Char → Bool) : Scan String := do
  let cs ← advanceWhile p
  require (!cs.isEmpty)
  return String.ofList cs

/-- Go over a given character. -/
def skipOver (c : Char) : Scan Unit := do
  require (← isNext c)
  skip

/-! ### Tags -/

/-- The handle of a tag: an exclamation mark, or two with a name between. -/
def handle : Scan String := do
  skipOver '!'
  if ← isNext ' ' then return "!"
  let name ← advanceWhile isNameChar
  skipOver '!'
  return "!" ++ String.ofList name ++ "!"

/-- A byte that is escaped by two hexadecimal digits. -/
def escapedByte : Scan UInt8 := do
  skip
  let digits ← advance 2
  require (digits.length = 2)
  match Text.hexNumber? digits with
  | some n => return n.toUInt8
  | none => fail

/-- Escaped bytes that follow each other; `fuel` bounds their number. -/
def escapedBytes : Nat → Scan (List UInt8)
  | 0 => pure []
  | fuel + 1 => do
    if ← isNext '%' then
      let b ← escapedByte
      return b :: (← escapedBytes fuel)
    return []

/-- The pieces of a resource identifier. -/
def uriPieces : Nat → Scan (List String)
  | 0 => pure []
  | fuel + 1 => do
    if ← isNext '%' then
      match String.fromUTF8? ⟨(← escapedBytes fuel).toArray⟩ with
      | some piece => return piece :: (← uriPieces fuel)
      | none => fail
    let cs ← advanceWhile isUriChar
    if cs.isEmpty then return []
    return String.ofList cs :: (← uriPieces fuel)

/-- A resource identifier, which is not empty. -/
def uri : Scan String := do
  let pieces ← uriPieces ((← get).rest.length + 1)
  require (!pieces.isEmpty)
  return String.join pieces

/-- The characters up to the next space or line break hold an exclamation mark. -/
def holdsHandle (cs : List Char) : Bool :=
  (cs.takeWhile fun c => c != ' ' && !isBreak c).contains '!'

/-- A tag: a whole identifier in angle brackets, an exclamation mark alone, or a suffix behind a handle. -/
def tag : Scan Token := do
  let t ← do
    if (← peekAt 1) == some '<' then
      let _ ← advance 2
      let suffix ← uri
      skipOver '>'
      pure (Token.tag none suffix)
    else if ← gapAt 1 then
      skip
      pure (Token.tag none "!")
    else if holdsHandle ((← get).rest.drop 1) then
      let h ← handle
      pure (Token.tag (some h) (← uri))
    else
      skip
      pure (Token.tag (some "!") (← uri))
  require (isSpaceOrEnd (← peek))
  return t

/-! ### Anchors and aliases -/

/-- The name of an anchor or an alias behind its sign. -/
def name : Scan String := do
  skip
  let name ← someOf isNameChar
  require ((← gapAt 0) || (← peek).any "?:,]\x7d%@`".toList.contains)
  return name

/-! ### Directives -/

/-- The version that a text was written for: two numbers with a point between. -/
def versionArguments : Scan (List String) := do
  skipSpaces
  let major ← someOf Char.isDigit
  skipOver '.'
  let minor ← someOf Char.isDigit
  require (isSpaceOrEnd (← peek))
  return [major, minor]

/-- A handle, and what tags with it start with. -/
def handleArguments : Scan (List String) := do
  skipSpaces
  let h ← handle
  require (← isNext ' ')
  skipSpaces
  let start ← uri
  require (isSpaceOrEnd (← peek))
  return [h, start]

/-- A directive up to the end of its line.  Directives that are not known have no arguments here. -/
def directive : Scan Token := do
  skip
  let name ← someOf isNameChar
  require (isSpaceOrEnd (← peek))
  let arguments ←
    if name = "YAML" then versionArguments
    else if name = "TAG" then handleArguments
    else do
      let _ ← advanceWhile (!isBreak ·)
      pure []
  restOfLine
  return .directive name arguments

end Scan

end Yaml

end DataShapes
