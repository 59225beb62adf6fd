import DataShapes.Number.Double

/-!
# The fewest digits that read back

Every finite number stands for an interval of reals: those that are nearer to it than to its
neighbours.  Among the decimals in that interval the shortest ones identify the number with the
fewest digits, and of these the nearest to the number is chosen.

Main definitions:
* `Decimal`: digits and a power of ten;
* `Double.readsBack`: the decimal lies in the interval of the number;
* `Double.shortest`: the search over ever finer decimal grids.  Of each grid only the two
  neighbours of the number need to be tried.
-/

namespace DataShapes

/-- The decimal number `digits * 10 ^ exponent`. -/
structure Decimal where
  digits : Nat
  exponent : Int
deriving DecidableEq, Repr

/-- Compare `a * 10 ^ i` with `n * 2 ^ j` exactly, by multiplying both with what clears the
    denominators. -/
def compareScaled (a : Nat) (i : Int) (n : Nat) (j : Int) : Ordering :=
  compare (a * Nat.pow 10 i.toNat * Nat.pow 2 (-j).toNat) (n * Nat.pow 2 j.toNat * Nat.pow 10 (-i).toNat)

namespace Decimal

/-- Move trailing zeros of the digits into the exponent; `fuel` bounds their number. -/
def strip (fuel : Nat) (d : Decimal) : Decimal :=
  match fuel with
  | 0 => d
  | fuel + 1 =>
    if d.digits ≠ 0 ∧ d.digits % 10 = 0 then strip fuel ⟨d.digits / 10, d.exponent + 1⟩ else d

end Decimal

namespace Double

/-- The decimal lies among the reals that round to the finite number `d`: between halfway to the
    neighbour below and halfway to the neighbour above, ends included when the mantissa is
    even. -/
def readsBack (d : Double) (x : Decimal) : Bool :=
  let low := if d.narrowBelow then 4 * d.mantissa - 1 else 4 * d.mantissa - 2
  let high := 4 * d.mantissa + 2
  let closed := d.mantissa % 2 == 0
  let atLow := compareScaled x.digits x.exponent low (d.exponent - 2)
  let atHigh := compareScaled x.digits x.exponent high (d.exponent - 2)
  (atLow == .gt || (closed && atLow == .eq)) && (atHigh == .lt || (closed && atHigh == .eq))

/-- The least power of ten above the magnitude.  The binary logarithm gives it up to a step, and
    exact comparisons settle the rest. -/
def decimalScale (d : Double) : Int :=
  let guess := ((d.mantissa.log2 : Int) + d.exponent) * 30103 / 100000
  let above (k : Int) : Bool := compareScaled 1 k d.mantissa d.exponent == .gt
  ([guess - 1, guess, guess + 1].find? above).getD (guess + 2)

/-- The largest multiple of `10 ^ grid` that is at most the magnitude, counted in steps. -/
def floorOnGrid (d : Double) (grid : Int) : Nat :=
  (d.mantissa * Nat.pow 2 d.exponent.toNat * Nat.pow 10 (-grid).toNat)
    / (Nat.pow 2 (-d.exponent).toNat * Nat.pow 10 grid.toNat)

/-- The neighbour of the magnitude on the grid `10 ^ grid` that reads back; of two, the nearer,
    and on an exact tie the even one. -/
def nearestOnGrid? (d : Double) (grid : Int) : Option Decimal :=
  let lower : Decimal := ⟨d.floorOnGrid grid, grid⟩
  let upper : Decimal := ⟨d.floorOnGrid grid + 1, grid⟩
  -- Only neighbours that are rounded to the same double count.
  match d.readsBack lower, d.readsBack upper with
  | false, false => none
  | true, false => some lower
  | false, true => some upper
  | true, true =>
    match compareScaled (lower.digits + upper.digits) grid d.mantissa (d.exponent + 1) with
    | .gt => some lower
    | .lt => some upper
    | .eq => some (if lower.digits % 2 = 0 then lower else upper)

/-- The exact value of a finite number as a decimal. -/
def exactDecimal (d : Double) : Decimal :=
  if d.exponent < 0 then ⟨d.mantissa * Nat.pow 5 (-d.exponent).toNat, d.exponent⟩
  else ⟨d.mantissa * Nat.pow 2 d.exponent.toNat, 0⟩

/-- The decimal with the fewest digits that reads back to a finite number other than zero. -/
def shortest (d : Double) : Decimal :=
  let scale := d.decimalScale
  let found := (List.range 17).findSome? fun n => d.nearestOnGrid? (scale - (n + 1 : Nat))
  (found.getD d.exactDecimal).strip 800

end Double

end DataShapes
