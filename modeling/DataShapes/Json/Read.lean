import DataShapes.Json.Write

/-!
# Reading JSON

Reading follows the grammar of JSON, with the names of the numbers that are not finite as further
values.  Of entries under one key the last one counts, in the place of the first.  Text that does not
follow the grammar has no value.

Main definitions:
* `Json.readString`: the rest of a text in quotes;
* `Json.readNumber`: an integer or a floating-point number;
* `Json.readValue`: a value at the start of a text;
* `Json.read`: a whole text.
-/

namespace DataShapes

namespace Json

/-- White space between tokens. -/
def isSpace (c : Char) : Bool := c == ' ' || c == '\t' || c == '\n' || c == '\r'

/-- Skip white space. -/
def skipSpace (cs : List Char) : List Char := cs.dropWhile isSpace

/-- The character that a letter after a backslash stands for. -/
def unescape? : Char → Option Char
  | '"' => some '"'
  | '\\' => some '\\'
  | '/' => some '/'
  | 'b' => some '\x08'
  | 'f' => some '\x0c'
  | 'n' => some '\n'
  | 'r' => some '\r'
  | 't' => some '\t'
  | _ => none

/-- The code unit in four hexadecimal digits, and the rest. -/
def readUnit : List Char → Option (Nat × List Char)
  | a :: b :: c :: d :: cs => do return (← Text.hexNumber? [a, b, c, d], cs)
  | _ => none

/-- The code point that one code unit gives together with the escape behind it, and the rest.  The
    two halves of a pair denote one character; a half on its own denotes none and is replaced. -/
def joinUnits (high : Nat) (cs : List Char) : Char × List Char :=
  let alone := if 0xD800 ≤ high && high < 0xE000 then '\uFFFD' else Char.ofNat high
  -- Only the upper half of a pair looks at what stands behind it.
  if 0xD800 ≤ high && high < 0xDC00 then
    match cs with
    | '\\' :: 'u' :: rest =>
      match readUnit rest with
      | some (low, rest) =>
        if 0xDC00 ≤ low && low < 0xE000 then
          (Char.ofNat (0x10000 + (high - 0xD800) * 0x400 + (low - 0xDC00)), rest)
        else (alone, cs)
      | none => (alone, cs)
    | _ => (alone, cs)
  else (alone, cs)

/-- The characters up to the closing quote, and the rest.  `fuel` bounds the number of steps. -/
def readString : Nat → List Char → Option (List Char × List Char)
  | 0, _ => none
  | _ + 1, [] => none
  | fuel + 1, c :: cs =>
    if c = '"' then some ([], cs)
    else if c.toNat < 0x20 then none
    else if c = '\\' then
      match cs with
      | 'u' :: cs => do
        let (high, cs) ← readUnit cs
        let (c, cs) := joinUnits high cs
        let (text, rest) ← readString fuel cs
        return (c :: text, rest)
      | l :: cs => do
        let c ← unescape? l
        let (text, rest) ← readString fuel cs
        return (c :: text, rest)
      | [] => none
    else do
      let (text, rest) ← readString fuel cs
      return (c :: text, rest)

/-- A point with digits behind it, and the rest. -/
def spanFraction : List Char → List Char × List Char
  | '.' :: cs =>
    match Number.spanDigits cs with
    | ([], _) => ([], '.' :: cs)
    | (digits, rest) => ('.' :: digits, rest)
  | cs => ([], cs)

/-- An exponent, and the rest. -/
def spanExponent (cs : List Char) : List Char × List Char :=
  match cs with
  | e :: more =>
    if e = 'e' || e = 'E' then
      let (negative, digits) := Number.spanSign more
      match Number.spanDigits digits with
      | ([], _) => ([], cs)
      | (digits, rest) => ('e' :: (if negative then '-' :: digits else digits), rest)
    else ([], cs)
  | [] => ([], cs)

/-- An integer, or a floating-point number when there is a fraction or an exponent, and the rest.
    The integral part has no leading zero. -/
def readNumber (cs : List Char) : Option (Value × List Char) :=
  let (negative, cs) :=
    match cs with
    | '-' :: cs => (true, cs)
    | cs => (false, cs)
  let (whole, cs) :=
    match cs with
    | '0' :: cs => (['0'], cs)
    | cs => Number.spanDigits cs
  if whole.isEmpty then none
  else
    let (fraction, cs) := spanFraction cs
    let (power, cs) := spanExponent cs
    if fraction.isEmpty && power.isEmpty then
      let n : Int := Number.digitsValue whole
      some (.int (if negative then -n else n), cs)
    else
      -- The sign has been taken off, and a whole part without anything behind it is an integer.
      let x := (Number.readDecimal (whole ++ fraction ++ power)).1
      some (.float (Double.ofDecimal negative x.digits x.exponent), cs)

/-- The named values. -/
def names : List (String × Value) :=
  [("null", .null), ("true", .bool true), ("false", .bool false),
   ("NaN", .float (Double.nan 0)), ("Infinity", .float (Double.infinity false)),
   ("-Infinity", .float (Double.infinity true))]

/-- A named value at the start, and the rest. -/
def readName (cs : List Char) : Option (Value × List Char) :=
  names.findSome? fun e =>
    let name := e.1.toList
    if name.isPrefixOf cs then some (e.2, cs.drop name.length) else none

mutual

/-- The value at the start of a text, and the rest.  `fuel` bounds the number of steps. -/
def readValue : Nat → List Char → Option (Value × List Char)
  | 0, _ => none
  | fuel + 1, cs =>
    match cs with
    | '"' :: cs => do
      let (text, rest) ← readString (cs.length + 1) cs
      return (.str (String.ofList text), rest)
    -- An empty container may hold spaces, but a comma in front of its end is a mistake.
    | '[' :: cs =>
      match skipSpace cs with
      | ']' :: rest => some (.list [], rest)
      | cs => do
        let (items, rest) ← readItems fuel cs
        return (.list items, rest)
    | '\x7b' :: cs =>
      match skipSpace cs with
      | '\x7d' :: rest => some (.dict [], rest)
      | cs => do
        let (entries, rest) ← readEntries fuel cs
        return (.dict (Value.dictOf entries), rest)
    | cs => (readName cs).or (readNumber cs)

/-- The items up to the closing bracket, and the rest. -/
def readItems : Nat → List Char → Option (List Value × List Char)
  | 0, _ => none
  | fuel + 1, cs => do
    let (v, cs) ← readValue fuel cs
    match skipSpace cs with
    | ',' :: cs => do
      let (vs, rest) ← readItems fuel (skipSpace cs)
      return (v :: vs, rest)
    | ']' :: rest => return ([v], rest)
    | _ => none

/-- The entries up to the closing brace, and the rest. -/
def readEntries : Nat → List Char → Option (List (Value × Value) × List Char)
  | 0, _ => none
  | fuel + 1, '"' :: cs => do
    let (key, cs) ← readString (cs.length + 1) cs
    match skipSpace cs with
    | ':' :: cs => do
      let (v, cs) ← readValue fuel (skipSpace cs)
      let entry := (Value.str (String.ofList key), v)
      match skipSpace cs with
      | ',' :: cs => do
        let (entries, rest) ← readEntries fuel (skipSpace cs)
        return (entry :: entries, rest)
      | '\x7d' :: rest => return ([entry], rest)
      | _ => none
    | _ => none
  | _ + 1, _ => none

end

/-- The value of a whole text. -/
def read (text : String) : Option Value :=
  let cs := skipSpace text.toList
  match readValue (2 * cs.length + 2) cs with
  | some (v, rest) => if (skipSpace rest).isEmpty then some v else none
  | none => none

end Json

end DataShapes
