import DataShapes.Number.Shortest
import DataShapes.Proofs.Value.Numbers
import Mathlib.Algebra.Order.Field.Power
import Mathlib.Tactic.FieldSimp
import Mathlib.Tactic.Linarith
import Mathlib.Tactic.Positivity

/-!
# Decimals that stand for a floating-point number

A finite floating-point number stands for an interval of rationals: those that are nearer to it than to its
neighbours, and the ends too where its mantissa is even.  Comparisons of decimals with binary fractions
are made on integers, and here they are read as comparisons of rationals.  So whether a decimal reads back
depends on its value alone, and the search for the fewest digits ends with a decimal that does.

Main definitions:
* `Decimal.value`, `Double.magnitude`: the rationals that a decimal and a number denote;
* `Double.Covers`: the rationals that a number stands for.

Main statements:
* `compareScaled_eq`: comparisons on integers are comparisons of rationals;
* `Double.readsBack_iff`: a decimal reads back when the number covers its value;
* `Double.covers_shortest`: the decimal with the fewest digits does.
-/

namespace DataShapes

/-! ### Rationals -/

/-- The rational that a decimal denotes. -/
def Decimal.value (x : Decimal) : ℚ := x.digits * 10 ^ x.exponent

/-- The rational that a finite number denotes, but for its sign. -/
def Double.magnitude (d : Double) : ℚ := d.mantissa * 2 ^ d.exponent

/-- A power with an integer exponent is the quotient of two powers with natural ones. -/
theorem zpow_mul_pow_toNat_neg {b : ℚ} (hb : b ≠ 0) (i : Int) :
    b ^ i * b ^ (-i).toNat = b ^ i.toNat := by
  rw [← zpow_natCast, ← zpow_natCast, ← zpow_add₀ hb]
  congr 1
  omega

theorem zpow_eq_div {b : ℚ} (hb : b ≠ 0) (i : Int) : b ^ i = b ^ i.toNat / b ^ (-i).toNat :=
  eq_div_of_mul_eq (pow_ne_zero _ hb) (zpow_mul_pow_toNat_neg hb i)

/-- Natural numbers that are positive multiples of two rationals compare as these do. -/
theorem compare_eq_of_scaled {p q : Nat} {x y c : ℚ} (hc : 0 < c) (hp : (p : ℚ) = x * c)
    (hq : (q : ℚ) = y * c) : compare p q = compare x y := by
  rcases lt_trichotomy x y with h | rfl | h
  · have hpq : (p : ℚ) < q := by
      rw [hp, hq]
      exact mul_lt_mul_of_pos_right h hc
    rw [compare_lt_iff_lt.2 h, compare_lt_iff_lt.2 (Nat.cast_lt.1 hpq)]
  · have hpq : (p : ℚ) = q := hp.trans hq.symm
    rw [compare_eq_iff_eq.2 rfl, compare_eq_iff_eq.2 (Nat.cast_injective hpq)]
  · have hpq : (q : ℚ) < p := by
      rw [hp, hq]
      exact mul_lt_mul_of_pos_right h hc
    rw [compare_gt_iff_gt.2 h, compare_gt_iff_gt.2 (Nat.cast_lt.1 hpq)]

/-- Comparing on integers is comparing the rationals. -/
theorem compareScaled_eq (a : Nat) (i : Int) (n : Nat) (j : Int) :
    compareScaled a i n j = compare ((a : ℚ) * 10 ^ i) (n * 2 ^ j) := by
  have h10 : (10 : ℚ) ^ i * 10 ^ (-i).toNat = 10 ^ i.toNat := zpow_mul_pow_toNat_neg (by norm_num) i
  have h2 : (2 : ℚ) ^ j * 2 ^ (-j).toNat = 2 ^ j.toNat := zpow_mul_pow_toNat_neg (by norm_num) j
  refine compare_eq_of_scaled (c := 10 ^ (-i).toNat * 2 ^ (-j).toNat) (by positivity) ?_ ?_
  · simp only [Nat.pow_eq, Nat.cast_mul, Nat.cast_pow, Nat.cast_ofNat]
    rw [← h10]
    ring
  · simp only [Nat.pow_eq, Nat.cast_mul, Nat.cast_pow, Nat.cast_ofNat]
    rw [← h2]
    ring

namespace Double

variable {d : Double} {x : Decimal}

/-! ### What a number stands for -/

/-- Halfway from a number to its neighbour below, in units of its last place. -/
def gapBelow (d : Double) : ℚ := if d.narrowBelow then 1 / 4 else 1 / 2

/-- The least rational that a number may stand for. -/
def low (d : Double) : ℚ := (d.mantissa - d.gapBelow) * 2 ^ d.exponent

/-- The greatest rational that a number may stand for. -/
def high (d : Double) : ℚ := (d.mantissa + 1 / 2) * 2 ^ d.exponent

/-- The rational is nearer to the magnitude of the number than to its neighbours, or halfway to one of
    them while the mantissa is even. -/
structure Covers (d : Double) (r : ℚ) : Prop where
  lower : d.low < r ∨ d.mantissa % 2 = 0 ∧ r = d.low
  upper : r < d.high ∨ d.mantissa % 2 = 0 ∧ r = d.high

/-- Halfway to the neighbour below is no farther than halfway to the one above. -/
theorem gapBelow_le (d : Double) : d.gapBelow ≤ 1 / 2 := by
  unfold gapBelow
  split <;> norm_num

/-- It is some way from the number. -/
theorem gapBelow_pos (d : Double) : 0 < d.gapBelow := by
  unfold gapBelow
  split <;> norm_num

/-- A quarter of the unit in the last place is a whole power of two as well. -/
theorem two_zpow_sub_two (e : Int) : (2 : ℚ) ^ (e - 2) = 2 ^ e / 4 := by
  rw [zpow_sub₀ two_ne_zero]
  norm_num

/-- A decimal reads back when the number stands for its value. -/
theorem readsBack_iff (h : 0 < d.mantissa) : d.readsBack x = true ↔ d.Covers x.value := by
  -- The bounds are kept as multiples of a quarter unit, so that they are integers.
  have hlow : (((if d.narrowBelow then 4 * d.mantissa - 1 else 4 * d.mantissa - 2 : Nat) : ℚ)
      * 2 ^ (d.exponent - 2)) = d.low := by
    unfold low gapBelow
    rw [two_zpow_sub_two]
    split
    · rw [Nat.cast_sub (by omega)]
      push_cast
      ring
    · rw [Nat.cast_sub (by omega)]
      push_cast
      ring
  have hhigh : ((4 * d.mantissa + 2 : Nat) : ℚ) * 2 ^ (d.exponent - 2) = d.high := by
    unfold high
    rw [two_zpow_sub_two]
    push_cast
    ring
  have hvalue : (x.digits : ℚ) * 10 ^ x.exponent = x.value := rfl
  unfold readsBack
  simp only [compareScaled_eq, hlow, hhigh, hvalue, Bool.and_eq_true, Bool.or_eq_true,
    beq_iff_eq, compare_gt_iff_gt, compare_lt_iff_lt, compare_eq_iff_eq]
  exact ⟨fun ⟨hlower, hupper⟩ => ⟨hlower, hupper⟩, fun h => ⟨h.lower, h.upper⟩⟩

/-- A number stands for its own magnitude. -/
theorem covers_magnitude (d : Double) : d.Covers d.magnitude := by
  have hunit : (0 : ℚ) < 2 ^ d.exponent := by positivity
  refine ⟨.inl ?_, .inl ?_⟩
  · exact mul_lt_mul_of_pos_right (by linarith [d.gapBelow_pos]) hunit
  · exact mul_lt_mul_of_pos_right (by linarith) hunit

/-- What a number other than zero stands for is at least half the smallest positive number. -/
theorem Covers.half_le {r : ℚ} (hr : d.Covers r) (h : 0 < d.mantissa) : 2 ^ d.exponent / 2 ≤ r := by
  have hone : (1 : ℚ) ≤ d.mantissa := by exact_mod_cast h
  have hlow : 2 ^ d.exponent / 2 ≤ d.low := by
    have hunit : (0 : ℚ) < 2 ^ d.exponent := by positivity
    unfold low
    nlinarith [d.gapBelow_le]
  rcases hr.lower with hlt | ⟨-, rfl⟩
  · exact hlow.trans hlt.le
  · exact hlow

/-- What a positive number stands for is positive. -/
theorem Covers.pos {r : ℚ} (hr : d.Covers r) (h : 0 < d.mantissa) : 0 < r :=
  lt_of_lt_of_le (by positivity) (hr.half_le h)

/-! ### The search -/

/-- The neighbour that is chosen on a grid reads back. -/
theorem readsBack_of_nearestOnGrid {grid : Int} (h : d.nearestOnGrid? grid = some x) :
    d.readsBack x = true := by
  unfold nearestOnGrid? at h
  simp only at h
  -- None, one or both neighbours read back; of two the nearer is chosen.
  split at h
  · cases h
  · rename_i hlower _
    cases h
    exact hlower
  · rename_i _ hupper
    cases h
    exact hupper
  · rename_i hlower hupper
    split at h <;> cases h
    · exact hlower
    · exact hupper
    · split
      · exact hlower
      · exact hupper

/-- Every finite number is a decimal, when enough digits are written. -/
theorem value_exactDecimal (d : Double) : d.exactDecimal.value = d.magnitude := by
  unfold exactDecimal Decimal.value magnitude
  split
  · rename_i hneg
    obtain ⟨n, hn⟩ : ∃ n : Nat, d.exponent = -n := ⟨(-d.exponent).toNat, by omega⟩
    -- Five to the power and ten to its negative leave two to the negative.
    rw [hn]
    simp only [neg_neg, Int.toNat_natCast, Nat.pow_eq, Nat.cast_mul, Nat.cast_pow, Nat.cast_ofNat,
      zpow_neg, zpow_natCast]
    rw [show (10 : ℚ) = 5 * 2 by norm_num, mul_pow]
    field_simp
  · rename_i hneg
    obtain ⟨n, hn⟩ : ∃ n : Nat, d.exponent = n := ⟨d.exponent.toNat, by omega⟩
    rw [hn]
    simp

/-- Moving zeros into the exponent changes no value. -/
theorem value_strip (fuel : Nat) (x : Decimal) : (x.strip fuel).value = x.value := by
  induction fuel generalizing x with
  | zero => rfl
  | succ fuel ih =>
    rw [Decimal.strip]
    split
    · rename_i h
      have hdigits : x.digits = x.digits / 10 * 10 := by omega
      rw [ih, Decimal.value, Decimal.value, zpow_add₀ (by norm_num)]
      conv_rhs => rw [hdigits]
      push_cast
      ring
    · rfl

/-- The decimal with the fewest digits stands for the number. -/
theorem covers_shortest (h : 0 < d.mantissa) : d.Covers d.shortest.value := by
  unfold shortest
  rw [value_strip]
  cases hfound : (List.range 17).findSome? fun n => d.nearestOnGrid? (d.decimalScale - (n + 1 : Nat)) with
  | none =>
    simp only [Option.getD_none, value_exactDecimal]
    exact d.covers_magnitude
  | some x =>
    obtain ⟨n, -, hn⟩ := List.exists_of_findSome?_eq_some hfound
    exact (readsBack_iff h).1 (readsBack_of_nearestOnGrid hn)

end Double

end DataShapes
