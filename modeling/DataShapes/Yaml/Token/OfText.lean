import DataShapes.Yaml.Token.Tag

/-!
# Scanning YAML text

Each step goes over white space and comments, ends the block collections that are left by it, and reads the
next token by its first characters.

Main definitions:
* `Yaml.Scan.step`: one step of the scanner;
* `Yaml.tokens`: the tokens of a text, when it has proper ones.
-/

namespace DataShapes

namespace Yaml

namespace Scan

/-- Go over white space, comments and empty lines.  Outside of flow collections a simple key may start on a
    new line.  `fuel` bounds the number of lines. -/
def toNextToken : Nat → Scan Unit
  | 0 => pure ()
  | fuel + 1 => do
    if (← get).index == 0 && (← isNext '\uFEFF') then skip
    skipSpaces
    skipComment
    if (← lineBreak).isSome then
      if (← get).flowLevel == 0 then allowKey true
      toNextToken fuel

/-- The place is outside of flow collections. -/
def inBlock : Scan Bool := do return (← get).flowLevel == 0

/-! ### Tokens of collections -/

/-- Begin a block collection here unless it has begun. -/
def beginBlock (start : Token) : Scan Unit := do
  if ← indentTo (← get).column then emit start

/-- A single character that is a token of its own. -/
def sign (t : Token) : Scan Unit := do
  skip
  emit t

/-- The start of a flow collection, which may itself be a key. -/
def flowStart (t : Token) : Scan Unit := do
  saveKey
  modify fun s => { s with flowLevel := s.flowLevel + 1, allowsKey := true }
  sign t

/-- The end of a flow collection. -/
def flowEnd (t : Token) : Scan Unit := do
  dropKey
  modify fun s => { s with flowLevel := s.flowLevel - 1, allowsKey := false }
  sign t

/-- The comma in a flow collection. -/
def flowEntry : Scan Unit := do
  allowKey true
  dropKey
  sign .flowEntry

/-- The dash in front of an item of a block sequence. -/
def blockEntry : Scan Unit := do
  if ← inBlock then
    require (← get).allowsKey
    beginBlock .blockSequenceStart
  allowKey true
  dropKey
  sign .blockEntry

/-- The sign of a key or a value that no simple key explains. -/
def explicitSign (t : Token) : Scan Unit := do
  if ← inBlock then
    require (← get).allowsKey
    beginBlock .blockMappingStart
  allowKey (← inBlock)
  dropKey
  sign t

/-- Put in the token of a simple key in front of it, and behind the start of a mapping if it begins one. -/
def insertKey (k : PossibleKey) : Scan Unit := do
  modify fun s => { s with
    keys := s.keys.filter (·.1 != s.flowLevel)
    tokens := s.tokens.insertIdxIfInBounds k.place .key }
  if ← inBlock then
    if ← indentTo k.column then
      modify fun s => { s with tokens := s.tokens.insertIdxIfInBounds k.place .blockMappingStart }
  allowKey false

/-- The colon in front of a value. -/
def value : Scan Unit := do
  let s ← get
  match s.keys.find? (·.1 == s.flowLevel) with
  | some (_, k) =>
    insertKey k
    sign .value
  | none => explicitSign .value

/-! ### Other tokens -/

/-- A token that may start a simple key. -/
def keyPart (t : Scan Token) : Scan Unit := do
  saveKey
  allowKey false
  emit (← t)

/-- A block scalar, behind which a simple key may start. -/
def blockScalar (folded : Bool) : Scan Unit := do
  allowKey true
  dropKey
  emit (← block folded)

/-- A mark between documents, which ends all collections. -/
def betweenDocuments (t : Scan Token) : Scan Unit := do
  unwind (-1)
  dropKey
  allowKey false
  emit (← t)

/-- A mark of three characters. -/
def documentMark (t : Token) : Scan Token := do
  let _ ← advance 3
  return t

/-- The end of the text. -/
def textEnd : Scan Unit := do
  unwind (-1)
  dropKey

/-- A plain scalar may start with the character, when the other one follows it. -/
def startsPlain (inFlow : Bool) (c : Char) (next : Option Char) : Bool :=
  !(isGapOrEnd (some c) || "-?:,[]\x7b\x7d#&*!|>'\"%@`".toList.contains c)
    || (!isGapOrEnd next && (c == '-' || (!inFlow && (c == '?' || c == ':'))))

/-- The token that starts with the character, which is not the start of a mark of a document. -/
def token (c : Char) : Scan Unit := do
  let inFlow := !(← inBlock)
  let gap ← gapAt 1
  if c == '[' then flowStart .flowSequenceStart
  else if c == '\x7b' then flowStart .flowMappingStart
  else if c == ']' then flowEnd .flowSequenceEnd
  else if c == '\x7d' then flowEnd .flowMappingEnd
  else if c == ',' then flowEntry
  else if c == '-' && gap then blockEntry
  else if c == '?' && (inFlow || gap) then explicitSign .key
  else if c == ':' && (inFlow || gap) then value
  else if c == '*' then keyPart (Token.alias <$> name)
  else if c == '&' then keyPart (Token.anchor <$> name)
  else if c == '!' then keyPart tag
  else if c == '|' && !inFlow then blockScalar false
  else if c == '>' && !inFlow then blockScalar true
  else if c == '\'' || c == '"' then keyPart (quoted c)
  else do
    require (startsPlain inFlow c (← peekAt 1))
    keyPart plain

/-- Read one token; say whether there may be more. -/
def step : Scan Bool := do
  toNextToken ((← get).rest.length + 1)
  dropStaleKeys
  unwind (← get).column
  match ← peek with
  | none =>
    textEnd
    return false
  | some c =>
    if (← get).column != 0 then token c
    else if c == '%' then betweenDocuments directive
    else if ← atMark "---" then betweenDocuments (documentMark .documentStart)
    else if ← atMark "..." then betweenDocuments (documentMark .documentEnd)
    else token c
    return true

/-- Read all tokens; `fuel` bounds the number of steps. -/
def all : Nat → Scan Unit
  | 0 => fail
  | fuel + 1 => do
    if ← step then all fuel

end Scan

/-- A character that may stand in YAML text. -/
def isAllowed (c : Char) : Bool :=
  c == '\t' || c == '\uFEFF' || c.toNat == 0x10FFFF || isPlainChar c

/-- The tokens of a text, when it has proper ones. -/
def tokens (text : List Char) : Option (List Token) :=
  if text.all isAllowed then
    ((Scan.all (text.length + 2)).run { rest := text }).map fun s => s.2.tokens.toList
  else none

end Yaml

end DataShapes
