import DataShapes.Number.Shortest

/-!
# Writing and reading numbers as text

Floating-point numbers are written with the fewest digits that read back.  Exponents of the leading
digit from -4 to 15 are written positionally, with at least one digit after the point; others in
scientific form with a signed exponent of two digits or more.  What the output formats decide
differently is one record, `Number.Style`.

Main definitions:
* `Number.render`: the text of a floating-point number in a style;
* `Number.plain`: the style of value literals;
* `Number.readDecimal`: digits, point and exponent read as an exact decimal;
* `Number.read?`: the inverse reading of the plain style.
-/

namespace DataShapes

namespace Number

/-- What the formats decide about the text of floating-point numbers. -/
structure Style where
  /-- The text of a NaN. -/
  nan : String
  /-- The text of positive infinity. -/
  infinity : String
  /-- The text of negative infinity. -/
  negativeInfinity : String
  /-- In scientific form, a leading digit that stands alone is followed by a point and a zero. -/
  pointedMantissa : Bool

/-- The style of value literals: `1.5`, `1e+16`, `nan`, `inf`. -/
def plain : Style where
  nan := "nan"
  infinity := "inf"
  negativeInfinity := "-inf"
  pointedMantissa := false

/-- At least two digits of an exponent. -/
def exponentText (e : Int) : String :=
  let digits := toString e.natAbs
  (if e < 0 then "-" else "+") ++ (if digits.length < 2 then "0" ++ digits else digits)

def zeros (n : Nat) : String := String.ofList (List.replicate n '0')

/-- Lay out the digits of a decimal other than zero. -/
def layOut (style : Style) (x : Decimal) : String :=
  let digits := (toString x.digits).toList
  let point : Int := digits.length + x.exponent
  -- The point stands within these places without an exponent.
  if -4 < point ∧ point ≤ 16 then
    if point ≤ 0 then "0." ++ zeros (-point).toNat ++ String.ofList digits
    else if (digits.length : Int) ≤ point then
      String.ofList digits ++ zeros (point.toNat - digits.length) ++ ".0"
    else
      String.ofList (digits.take point.toNat) ++ "." ++ String.ofList (digits.drop point.toNat)
  else
    let rest := digits.drop 1
    let fraction :=
      if rest.isEmpty then (if style.pointedMantissa then ".0" else "")
      else "." ++ String.ofList rest
    String.ofList (digits.take 1) ++ fraction ++ "e" ++ exponentText (point - 1)

/-- The text of a floating-point number. -/
def render (style : Style) (d : Double) : String :=
  if d.isNaN then style.nan
  else if d.isInfinite then (if d.isNegative then style.negativeInfinity else style.infinity)
  else
    let sign := if d.isNegative then "-" else ""
    if d.isZero then sign ++ "0.0" else sign ++ layOut style d.shortest

/-! ### Reading -/

/-- The value of one of the ten digits. -/
def digit? (c : Char) : Option Nat := if c.isDigit then some (c.toNat - '0'.toNat) else none

/-- The value of a row of digits after `value`; other characters are skipped. -/
def digitsValue (cs : List Char) : Nat :=
  cs.foldl (fun value c => match digit? c with | some d => value * 10 + d | none => value) 0

/-- The digits at the start, and the rest. -/
def spanDigits (cs : List Char) : List Char × List Char := cs.span Char.isDigit

/-- An optional sign: whether it is a minus, and the rest. -/
def spanSign : List Char → Bool × List Char
  | '-' :: cs => (true, cs)
  | '+' :: cs => (false, cs)
  | cs => (false, cs)

/-- Digits, an optional point with digits, and an optional exponent, as an exact decimal and the
    rest of the text. -/
def readDecimal (cs : List Char) : Decimal × List Char :=
  let (whole, rest) := spanDigits cs
  let (fraction, rest) :=
    match rest with
    | '.' :: more => spanDigits more
    | _ => ([], rest)
  let (power, rest) : Int × List Char :=
    match rest with
    | 'e' :: more | 'E' :: more =>
      let (negative, more) := spanSign more
      let (digits, more) := spanDigits more
      let value : Int := digitsValue digits
      (if negative then -value else value, more)
    | _ => (0, rest)
  -- The digits behind the point count as well, so the exponent is lower by their number.
  (⟨digitsValue (whole ++ fraction), power - fraction.length⟩, rest)

/-- Read the plain style.  A NaN gets the given payload. -/
def read? (payload : Nat) (text : String) : Option Double :=
  match text.toList with
  | ['n', 'a', 'n'] => some (Double.nan payload)
  | ['i', 'n', 'f'] => some (Double.infinity false)
  | ['-', 'i', 'n', 'f'] => some (Double.infinity true)
  | cs =>
    let (negative, cs) := spanSign cs
    match readDecimal cs with
    | (x, []) => some (Double.ofDecimal negative x.digits x.exponent)
    | _ => none

end Number

end DataShapes
