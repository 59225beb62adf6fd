/-!
# Binary floating-point numbers

A `Double` is the bit pattern of a 64-bit binary floating-point number.  Everything the library
says about such numbers is computed exactly, on the integers that the bits decode to.

Main definitions:
* `Double.mantissa`, `Double.exponent`: the magnitude of a finite number is
  `mantissa * 2 ^ exponent`;
* `Double.ofRatio`: the number nearest to a quotient of naturals, a tie going to the even
  mantissa;
* `Double.ofDecimal`: the number nearest to `digits * 10 ^ exponent`;
* `Double.same` and `Double.equalsInt`: equality of numbers, across the two kinds of number.
-/

namespace DataShapes

/-- A 64-bit binary floating-point number, given by its bits. -/
structure Double where
  /-- The sign bit, eleven exponent bits and fifty-two fraction bits. -/
  bits : UInt64
deriving DecidableEq, Inhabited

namespace Double

/-! ### Decoding -/

/-- The sign bit is set. -/
def isNegative (d : Double) : Bool := d.bits.toNat ≥ Nat.pow 2 63

/-- The eleven exponent bits. -/
def exponentField (d : Double) : Nat := d.bits.toNat / Nat.pow 2 52 % Nat.pow 2 11

/-- The fifty-two fraction bits. -/
def fraction (d : Double) : Nat := d.bits.toNat % Nat.pow 2 52

/-- Not a number. -/
def isNaN (d : Double) : Bool := d.exponentField == 2047 && d.fraction != 0

/-- One of the two infinities. -/
def isInfinite (d : Double) : Bool := d.exponentField == 2047 && d.fraction == 0

/-- One of the two zeros. -/
def isZero (d : Double) : Bool := d.exponentField == 0 && d.fraction == 0

/-- Neither an infinity nor a NaN. -/
def isFinite (d : Double) : Bool := d.exponentField != 2047

/-- The integer whose multiple by a power of two is the magnitude of a finite number. -/
def mantissa (d : Double) : Nat :=
  if d.exponentField = 0 then d.fraction else Nat.pow 2 52 + d.fraction

/-- The power of two that goes with `mantissa`. -/
def exponent (d : Double) : Int :=
  if d.exponentField = 0 then -1074 else (d.exponentField : Int) - 1075

/-- The gap to the next smaller magnitude is half the gap to the next larger one: so it is above
    every power of two but the smallest normal one. -/
def narrowBelow (d : Double) : Bool := d.fraction == 0 && d.exponentField > 1

/-! ### Encoding -/

/-- Put a sign bit in front of the other sixty-three. -/
def withSign (negative : Bool) (magnitude : Nat) : Double :=
  ⟨UInt64.ofNat (if negative then Nat.pow 2 63 + magnitude else magnitude)⟩

/-- Positive or negative zero. -/
def zero (negative : Bool) : Double := withSign negative 0

/-- Positive or negative infinity. -/
def infinity (negative : Bool) : Double := withSign negative (2047 * Nat.pow 2 52)

/-- A NaN; `payload` tells apart NaNs that arose apart. -/
def nan (payload : Nat) : Double :=
  withSign false (2047 * Nat.pow 2 52 + Nat.pow 2 51 + payload % Nat.pow 2 51)

/-- The number with the other sign. -/
def negate (d : Double) : Double := withSign (!d.isNegative) (d.bits.toNat % Nat.pow 2 63)

/-- The number with the given mantissa and exponent, where the mantissa has at most fifty-three
    bits, and fewer only at the smallest exponent. -/
def pack (negative : Bool) (mantissa : Nat) (exponent : Int) : Double :=
  if mantissa < Nat.pow 2 52 then withSign negative mantissa
  else
    let field := (exponent + 1075).toNat
    if field ≥ 2047 then infinity negative
    else withSign negative (field * Nat.pow 2 52 + (mantissa - Nat.pow 2 52))

/-- Round `num / den` to an integer, a tie going to the even one. -/
def roundQuotient (num den : Nat) : Nat :=
  let q := num / den
  let r := num % den
  if 2 * r < den then q
  else if 2 * r > den then q + 1
  else if q % 2 = 0 then q else q + 1

/-- `num / den` divided by `2 ^ e` and rounded to an integer. -/
def roundAt (num den : Nat) (e : Int) : Nat :=
  roundQuotient (num * Nat.pow 2 (-e).toNat) (den * Nat.pow 2 e.toNat)

/-- The number nearest to `num / den`, a tie going to the even mantissa; beyond the largest
    finite number, infinity. -/
def ofRatio (negative : Bool) (num den : Nat) : Double :=
  if num = 0 then zero negative
  else
    let guess : Int := (num.log2 : Int) - den.log2 - 52
    let low := num * Nat.pow 2 (-guess).toNat < Nat.pow 2 52 * (den * Nat.pow 2 guess.toNat)
    let e := max (if low then guess - 1 else guess) (-1074)
    let m := roundAt num den e
    if m = Nat.pow 2 53 then pack negative (Nat.pow 2 52) (e + 1) else pack negative m e

/-- The number nearest to `digits * 10 ^ exponent`.  Exponents that put every such number beyond
    the range on either side are answered without computing the power. -/
def ofDecimal (negative : Bool) (digits : Nat) (exponent : Int) : Double :=
  if digits = 0 then zero negative
  else if exponent > 400 then infinity negative
  else if exponent < -400 - (digits.log2 : Int) then zero negative
  else ofRatio negative (digits * Nat.pow 10 exponent.toNat) (Nat.pow 10 (-exponent).toNat)

/-! ### Equality -/

/-- Equality of numbers: the two zeros are equal.  A NaN is equal to itself alone. -/
def same (a b : Double) : Bool := a == b || (a.isZero && b.isZero)

/-- A floating-point number is equal to an integer when it is finite and has exactly that value;
    nothing is rounded. -/
def equalsInt (d : Double) (n : Int) : Bool :=
  d.isFinite
    && d.mantissa * Nat.pow 2 d.exponent.toNat == n.natAbs * Nat.pow 2 (-d.exponent).toNat
    && (n == 0 || d.isNegative == decide (n < 0))

/-- The value is a whole number. -/
def isWhole (d : Double) : Bool :=
  d.isFinite && d.mantissa * Nat.pow 2 d.exponent.toNat % Nat.pow 2 (-d.exponent).toNat == 0

end Double

end DataShapes
