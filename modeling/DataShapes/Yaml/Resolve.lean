import DataShapes.Number.Notation

/-!
# Tags of plain scalars

A scalar without quotes stands for what its text looks like: null, a truth value, an integer, a
floating-point number, a point in time, or else a text.  Each form is a small grammar over the whole
text.

Main definitions:
* `Yaml.Tag`: what a node stands for;
* `Yaml.isInteger`, `Yaml.isFloat`, `Yaml.isTimestamp`: the forms of numbers and times;
* `Yaml.tagOf`: the tag of a plain scalar.
-/

namespace DataShapes

namespace Yaml

/-- What a node stands for. -/
inductive Tag where
  | null
  | bool
  | int
  | float
  | timestamp
  /-- Entries of other mappings are taken over. -/
  | merge
  /-- The default value of a mapping. -/
  | value
  | str
  | seq
  | map
  /-- A mapping of which only the keys count. -/
  | set
  /-- A sequence of mappings with one entry each. -/
  | pairs
  /-- The same, for an order of keys. -/
  | orderedMap
  /-- A tag that is not known. -/
  | other (uri : String)
deriving DecidableEq, Repr

namespace Tag

/-- The names of known tags. -/
def names : List (String × Tag) :=
  [("null", .null), ("bool", .bool), ("int", .int), ("float", .float), ("timestamp", .timestamp),
   ("merge", .merge), ("value", .value), ("str", .str), ("seq", .seq), ("map", .map),
   ("set", .set), ("pairs", .pairs), ("omap", .orderedMap)]

/-- What the standard tags start with. -/
def standardStart : String := "tag:yaml.org,2002:"

/-- The tag with the given identifier. -/
def ofUri (uri : String) : Tag :=
  ((names.find? fun e => standardStart ++ e.1 == uri).map Prod.snd).getD (.other uri)

end Tag

/-! ### Parts of numbers -/

/-- Drop a sign at the start. -/
def dropSign : List Char → List Char
  | '+' :: cs => cs
  | '-' :: cs => cs
  | cs => cs

/-- A digit or an underscore. -/
def isDigitOrMark (c : Char) : Bool := c.isDigit || c == '_'

/-- A digit, and digits and underscores behind it: what follows them. -/
def dropNumeral : List Char → Option (List Char)
  | c :: cs => if c.isDigit then some (cs.dropWhile isDigitOrMark) else none
  | [] => none

/-- Nothing, or an exponent with a sign. -/
def isExponentOrEnd : List Char → Bool
  | [] => true
  | e :: s :: cs =>
    (e == 'e' || e == 'E') && (s == '+' || s == '-') && !cs.isEmpty && cs.all Char.isDigit
  | _ => false

/-- One or more groups of a colon and a number below sixty: what follows them, longest first.  `fuel`
    bounds their number. -/
def dropSixties : Nat → List Char → Option (List Char)
  | 0, _ => none
  | fuel + 1, ':' :: a :: b :: cs =>
    if '0' ≤ a && a ≤ '5' && b.isDigit then (dropSixties fuel cs).or (some cs)
    else if a.isDigit then (dropSixties fuel (b :: cs)).or (some (b :: cs))
    else none
  | _ + 1, [':', a] => if a.isDigit then some [] else none
  | _ + 1, _ => none

/-- Every character is of a kind, and there is one. -/
def isRowOf (p : Char → Bool) (cs : List Char) : Bool := !cs.isEmpty && cs.all p

/-! ### Forms of scalars -/

/-- The words for null. -/
def nullWords : List String := ["~", "null", "Null", "NULL", ""]

/-- The words for true. -/
def trueWords : List String := ["yes", "Yes", "YES", "true", "True", "TRUE", "on", "On", "ON"]

/-- The words for false. -/
def falseWords : List String := ["no", "No", "NO", "false", "False", "FALSE", "off", "Off", "OFF"]

/-- The words for infinity, behind a sign. -/
def infinityWords : List String := [".inf", ".Inf", ".INF"]

/-- The words for what is no number. -/
def nanWords : List String := [".nan", ".NaN", ".NAN"]

/-- A floating-point number: with a point, in groups of sixty with a point, or by a word. -/
def isFloat (cs : List Char) : Bool :=
  let unsigned := dropSign cs
  (match dropNumeral unsigned with
    | some ('.' :: rest) => isExponentOrEnd (rest.dropWhile isDigitOrMark)
    -- Without a point this is no floating-point number unless groups of sixty stand before one.
    | some rest =>
      match dropSixties (rest.length + 1) rest with
      | some ('.' :: rest) => rest.all isDigitOrMark
      | _ => false
    | none => false)
    || (match cs with
      | '.' :: rest =>
        match dropNumeral rest with
        | some rest => isExponentOrEnd rest
        | none => false
      | _ => false)
    || infinityWords.contains (String.ofList unsigned) || nanWords.contains (String.ofList cs)

/-- An integer: binary, octal, decimal, hexadecimal, or in groups of sixty. -/
def isInteger (cs : List Char) : Bool :=
  match dropSign cs with
  | ['0'] => true
  | '0' :: 'b' :: rest => isRowOf (fun c => c == '0' || c == '1' || c == '_') rest
  | '0' :: 'x' :: rest => isRowOf (fun c => c.isDigit || c == '_' || "abcdefABCDEF".toList.contains c) rest
  -- A leading zero means octal digits, so nine and eight make a text of it.
  | '0' :: rest => isRowOf (fun c => ('0' ≤ c && c ≤ '7') || c == '_') rest
  | c :: rest =>
    c.isDigit &&
      (match rest.dropWhile isDigitOrMark with
        | [] => true
        | rest => dropSixties (rest.length + 1) rest == some [])
  | [] => false

/-- One or two digits at the start: what follows them, two first. -/
def dropOneOrTwo : List Char → Option (List Char)
  | a :: b :: cs => if a.isDigit then (if b.isDigit then some cs else some (b :: cs)) else none
  | [a] => if a.isDigit then some [] else none
  | [] => none

/-- Two digits at the start: what follows them. -/
def dropTwo : List Char → Option (List Char)
  | a :: b :: cs => if a.isDigit && b.isDigit then some cs else none
  | _ => none

/-- A character at the start: what follows it. -/
def dropChar (c : Char) : List Char → Option (List Char)
  | d :: cs => if d = c then some cs else none
  | [] => none

/-- Spaces and tabs. -/
def isGap (c : Char) : Bool := c == ' ' || c == '\t'

/-- A time zone, or nothing. -/
def isZoneOrEnd (cs : List Char) : Bool :=
  cs.isEmpty ||
    match cs.dropWhile isGap with
    | ['Z'] => true
    | s :: rest =>
      (s == '+' || s == '-') &&
        (match dropOneOrTwo rest with
          | some [] => true
          | some (':' :: rest) => dropTwo rest == some []
          | _ => false)
    | [] => false

/-- Hours, minutes, seconds, maybe with a fraction, and maybe a time zone. -/
def isTimeOfDay (cs : List Char) : Bool :=
  let zone := do
    let cs ← dropTwo (← dropChar ':' (← dropTwo (← dropChar ':' (← dropOneOrTwo cs))))
    match cs with
    | '.' :: rest => pure (rest.dropWhile Char.isDigit)
    | cs => pure cs
  (zone.map isZoneOrEnd).getD false

/-- A calendar date by four, two and two digits. -/
def isDate (cs : List Char) : Bool :=
  (do dropTwo (← dropChar '-' (← dropTwo (← dropChar '-' (← dropTwo (← dropTwo cs)))))) == some []

/-- A point in time: a date, or a looser date with a time of day. -/
def isTimestamp (cs : List Char) : Bool :=
  isDate cs ||
    match (do dropOneOrTwo (← dropChar '-'
      (← dropOneOrTwo (← dropChar '-' (← dropTwo (← dropTwo cs)))))) with
    | some (c :: rest) =>
      if c == 'T' || c == 't' then isTimeOfDay rest
      else isGap c && isTimeOfDay (rest.dropWhile isGap)
    | _ => false

/-- The tag of a plain scalar. -/
def tagOf (text : String) : Tag :=
  let cs := text.toList
  if trueWords.contains text || falseWords.contains text then .bool
  else if isFloat cs then .float
  else if isInteger cs then .int
  else if text = "<<" then .merge
  else if nullWords.contains text then .null
  else if isTimestamp cs then .timestamp
  else if text = "=" then .value
  else if text = "!" || text = "&" || text = "*" then .other "tag:yaml.org,2002:yaml"
  else .str

end Yaml

end DataShapes
