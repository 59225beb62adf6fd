import DataShapes.Number.Notation

/-!
# Numbers in groups of sixty

Hours, minutes and seconds or degrees are written with colons between the groups; each group counts sixty
times the next one.

Main definitions:
* `Number.sixties`: the value of groups that are natural numbers;
* `Number.floatSixties`: the value of groups that are floating-point numbers, rounded after each step.
-/

namespace DataShapes

namespace Number

/-- The pieces of a text between colons. -/
def groups : List Char → List (List Char)
  | [] => [[]]
  | c :: cs =>
    if c = ':' then [] :: groups cs
    else
      match groups cs with
      | [] => [[c]]
      | g :: gs => (c :: g) :: gs

/-- The value of natural numbers in groups of sixty. -/
def sixties (ns : List Nat) : Nat := ns.foldl (fun value n => value * 60 + n) 0

/-- The magnitude of a finite number as a quotient of naturals. -/
def ratio (d : Double) : Nat × Nat :=
  (d.mantissa * Nat.pow 2 d.exponent.toNat, Nat.pow 2 (-d.exponent).toNat)

/-- Add to a magnitude a multiple of another one; each of the two operations is rounded. -/
def addScaled (sum d : Double) (factor : Nat) : Double :=
  let (n, m) := ratio d
  let (f, g) := ratio (Double.ofRatio false factor 1)
  let product := Double.ofRatio false (n * f) (m * g)
  if sum.isFinite && d.isFinite && product.isFinite then
    let (a, b) := ratio sum
    let (p, q) := ratio product
    Double.ofRatio false (a * q + p * b) (b * q)
  else Double.infinity false

/-- The value of floating-point numbers in groups of sixty, the last group first. -/
def addGroups (factor : Nat) (sum : Double) : List Double → Double
  | [] => sum
  | d :: ds => addGroups (factor * 60) (addScaled sum d factor) ds

/-- The value of magnitudes in groups of sixty. -/
def floatSixties (ds : List Double) : Double := addGroups 1 (Double.zero false) ds.reverse

end Number

end DataShapes
