import DataShapes.Pattern.Token

/-!
# Escapes, character sets and flags of patterns

The smaller parts of a pattern: what a backslash makes of the character behind it, sets of
characters in brackets, the flags in front of a group, and the numbers of repetitions.

Main definitions:
* `Pattern.checkEscape`: an escape outside of sets;
* `Pattern.checkSet`: a set of characters;
* `Pattern.checkFlags`: flags;
* `Pattern.checkBounds`: a number of repetitions in braces.
-/

namespace DataShapes

namespace Pattern

open Check

/-- What an item of a pattern is, as far as repetition is concerned. -/
inductive ItemKind where
  /-- A position, which cannot be repeated. -/
  | position
  /-- A repetition, which cannot be repeated again. -/
  | repetition
  | other
deriving DecidableEq, Repr

/-- An item of a pattern. -/
structure Item where
  kind : ItemKind
  width : Width

/-- One character of some kind. -/
def Item.one : Item := ⟨.other, .one⟩

/-- A position. -/
def Item.position : Item := ⟨.position, .zero⟩

/-- A member of a set: a single character, or a class of characters. -/
inductive Member where
  | point (n : Nat)
  | range

/-! ### Escapes -/

/-- The code point of a letter behind a backslash that stands for one. -/
def letterPoint? : Char → Option Nat
  | 'a' => some 7
  | 'b' => some 8
  | 'f' => some 12
  | 'n' => some 10
  | 'r' => some 13
  | 't' => some 9
  | 'v' => some 11
  | '\\' => some 92
  | _ => none

/-- The letter stands for a class of characters. -/
def isClassLetter (c : Char) : Bool := "dDsSwW".toList.contains c

/-- One of the eight octal digits. -/
def isOctal (c : Char) : Bool := '0' ≤ c && c ≤ '7'

/-- The value of a row of octal digits. -/
def octalValue (cs : List Char) : Nat :=
  cs.foldl (fun n c => n * 8 + (c.toNat - '0'.toNat)) 0

/-- Exactly `n` hexadecimal digits. -/
def hexPoint (n : Nat) : Check Nat := do
  let digits ← takeWhile (fun c => (Text.hexValue? c).isSome) n
  require (digits.length = n)
  return (Text.hexNumber? digits).getD 0

/-- The name of a character in braces.  A name has letters, digits, spaces and hyphens. -/
def namedPoint : Check Nat := do
  expect '\x7b'
  let name ← takeName '\x7d'
  require (name.toList.all fun c => c.isAlphanum || c == ' ' || c == '-')
  return 0

/-- The character that hexadecimal digits or a name give, for the letters that announce them. -/
def announcedPoint? (c : Char) : Option (Check Nat) :=
  match c with
  | 'x' => some (hexPoint 2)
  | 'u' => some (hexPoint 4)
  | 'U' => some do
      let n ← hexPoint 8
      require (n < 0x110000)
      return n
  | 'N' => some namedPoint
  | _ => none

/-- An escape inside a set. -/
def checkMemberEscape (c : Char) : Check Member := do
  if let some n := letterPoint? c then return .point n
  if isClassLetter c then return .range
  if let some point := announcedPoint? c then return .point (← point)
  if isOctal c then
    let n := octalValue (c :: (← takeWhile isOctal 2))
    require (n ≤ 0xFF)
    return .point n
  require (!c.isAlphanum)
  return .point c.toNat

/-- A reference to a group by its number, or a character by three octal digits. -/
def checkDigits (c : Char) : Check Item := do
  match ← takeWhile Char.isDigit 1 with
  | [] => return ⟨.other, ← reference (Number.digitsValue [c])⟩
  | digits =>
    if isOctal c && digits.all isOctal then
      if let [last] ← takeWhile isOctal 1 then
        require (octalValue (c :: digits ++ [last]) ≤ 0xFF)
        return .one
    return ⟨.other, ← reference (Number.digitsValue (c :: digits))⟩

/-- An escape outside of sets. -/
def checkEscape (c : Char) : Check Item := do
  if "AbBZ".toList.contains c then return .position
  if isClassLetter c || (letterPoint? c).isSome then return .one
  if let some point := announcedPoint? c then
    let _ ← point
    return .one
  -- Behind a zero the digits are octal; behind another digit they may be the number of a group.
  if c = '0' then
    let _ ← takeWhile isOctal 2
    return .one
  if c.isDigit then return ← checkDigits c
  require (!c.isAlpha)
  return .one

/-! ### Sets -/

/-- A member of a set. -/
def checkMember : Token → Check Member
  | .escape c => checkMemberEscape c
  | .char c => pure (.point c.toNat)

/-- A range goes from a character to one that does not come before it. -/
def requireRange : Member → Member → Check Unit
  | .point a, .point b => require (a ≤ b)
  | _, _ => fail

/-- The members of a set up to the closing bracket, which as the first member stands for itself.
    `fuel` bounds the number of members. -/
def checkMembers : Nat → Bool → Check Unit
  | 0, _ => fail
  | fuel + 1, isFirst => do
    let t ← takeToken
    if t = .char ']' && !isFirst then return
    let a ← checkMember t
    if ← accept '-' then
      let t ← takeToken
      if t = .char ']' then return
      requireRange a (← checkMember t)
    checkMembers fuel false

/-- A set of characters behind its opening bracket. -/
def checkSet : Check Item := do
  let _ ← accept '^'
  checkMembers ((← get).rest.length + 1) true
  return .one

/-! ### Flags -/

/-- The flags that a pattern of texts may have. -/
def flagLetters : List Char := "imsxatu".toList

/-- Flags up to a character that ends them, and that character.  The flags for two kinds of
    character classes exclude each other. -/
def takeFlags (stops : List Char) (allowed : List Char) : Nat → Char → Check (List Char × Char)
  | 0, _ => fail
  | fuel + 1, c => do
    require (allowed.contains c)
    match ← takeToken with
    | .escape _ => fail
    | .char next =>
      if stops.contains next then return ([c], next)
      let (flags, stop) ← takeFlags stops allowed fuel next
      require (!(c = 'a' && flags.contains 'u') && !(c = 'u' && flags.contains 'a'))
      return (c :: flags, stop)

/-- Flags that are turned on and off. -/
structure Flags where
  on : List Char
  off : List Char

/-- Flags from their first character on: those of the whole pattern give nothing. -/
def checkFlags (first : Char) : Check (Option Flags) := do
  let fuel := (← get).rest.length + 1
  let (on, stop) ← if first = '-' then pure ([], '-') else takeFlags [')', '-', ':'] flagLetters fuel first
  -- Without a colon the flags are those of the whole pattern.
  if stop = ')' then
    modify fun s => { s with flags := s.flags ++ on }
    return none
  require (!on.contains 't')
  let off ← if stop = '-' then
      match ← takeToken with
      | .escape _ => fail
      | .char c => do
        let (off, _) ← takeFlags [':'] "imsxt".toList fuel c
        pure off
    else pure []
  require (!off.contains 't' && !on.any off.contains)
  return some ⟨on, off⟩

/-! ### Repetitions -/

/-- How often something is repeated; there may be no upper bound. -/
structure Bounds where
  least : Nat
  greatest : Option Nat

/-- A number of repetitions behind an opening brace.  Without the proper form the brace stands for
    itself, and nothing is taken. -/
def checkBounds : Check (Option Bounds) := do
  let start ← get
  if (← peek) = some (.char '\x7d') then return none
  let low ← takeAll Char.isDigit
  let high ← if ← accept ',' then takeAll Char.isDigit else pure low
  if !(← accept '\x7d') then
    set start
    return none
  let least := Number.digitsValue low
  require (least < Width.manyTimes)
  if high.isEmpty then return some ⟨least, none⟩
  let greatest := Number.digitsValue high
  require (greatest < Width.manyTimes && least ≤ greatest)
  return some ⟨least, some greatest⟩

end Pattern

end DataShapes
