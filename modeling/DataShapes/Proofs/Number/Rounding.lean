import DataShapes.Proofs.Number.Shortest

/-!
# Rounding to the nearest floating-point number

A rational that a floating-point number stands for is rounded to that number.  The quotient is scaled by
the power of two that leaves fifty-three bits before the point, and rounded there.  The scale is that of the
number, save when a power of two is approached from below: then one bit more is kept, and the rounding
carries over all of them.

Main statements:
* `Double.pack_eq`: a number is put together from its mantissa and its exponent;
* `Double.ofRatio_scale`: a quotient is rounded at its scale;
* `Double.ofRatio_of_covers`, `Double.ofDecimal_of_covers`: what a number stands for is rounded to it;
* `Double.ofDecimal_false_of_covers`: without a sign, to the number without its sign.
-/

namespace DataShapes

namespace Double

variable {d : Double}

/-! ### Putting the bits together -/

/-- The sign is the highest bit, above those of the magnitude. -/
theorem toNat_bits_withSign (negative : Bool) {k : Nat} (h : k < 2 ^ 63) :
    (withSign negative k).bits.toNat = (if negative then 2 ^ 63 else 0) + k := by
  unfold withSign
  rw [UInt64.toNat_ofNat']
  cases negative
  · rw [if_neg (by simp), if_neg (by simp), Nat.zero_add, Nat.mod_eq_of_lt (by omega)]
  · rw [if_pos rfl, if_pos rfl, Nat.mod_eq_of_lt]
    · rfl
    · show 2 ^ 63 + k < 2 ^ 64
      omega

/-- A double is determined by its bits. -/
theorem eq_of_toNat_bits {a b : Double} (h : a.bits.toNat = b.bits.toNat) : a = b := by
  obtain ⟨a⟩ := a
  obtain ⟨b⟩ := b
  exact congrArg Double.mk (UInt64.toNat_inj.1 h)

/-- The highest exponent field is that of infinities and NaNs. -/
theorem exponentField_lt (h : d.isFinite = true) : d.exponentField < 2047 := by
  have hne : d.exponentField ≠ 2047 := by simpa [isFinite] using h
  have hlt : d.exponentField < 2048 := Nat.mod_lt _ (by decide)
  omega

/-- A finite number is put together from its mantissa and its exponent. -/
theorem pack_eq (h : d.isFinite = true) : pack d.isNegative d.mantissa d.exponent = d := by
  have hfield := exponentField_lt h
  have hfraction := d.fraction_lt
  have h52 : Nat.pow 2 52 = 2 ^ 52 := rfl
  unfold pack mantissa exponent
  refine eq_of_toNat_bits ?_
  rw [d.toNat_bits, h52]
  -- Subnormal numbers have no hidden bit, and share the exponent of the smallest normal ones.
  by_cases hzero : d.exponentField = 0
  · rw [if_pos hzero, if_pos hfraction, toNat_bits_withSign _ (by omega), hzero]
    omega
  · have hexponent : ((d.exponentField : Int) - 1075 + 1075).toNat = d.exponentField := by omega
    simp only [if_neg hzero, hexponent]
    rw [if_neg (by omega), if_neg (by omega), toNat_bits_withSign _ (by omega)]
    omega

/-- Numbers but those of the smallest exponent have fifty-three bits. -/
theorem le_mantissa (h : d.exponent ≠ -1074) : 2 ^ 52 ≤ d.mantissa := by
  unfold exponent at h
  unfold mantissa
  split at h
  · exact absurd rfl h
  · rw [if_neg ‹_›]
    exact Nat.le_add_right _ _

/-- A mantissa has fifty-three bits. -/
theorem mantissa_lt (d : Double) : d.mantissa < 2 ^ 53 := by
  have hfraction := d.fraction_lt
  unfold mantissa
  split
  · omega
  · show 2 ^ 52 + d.fraction < 2 ^ 53
    omega

/-- No exponent is below that of the smallest number. -/
theorem le_exponent (d : Double) : -1074 ≤ d.exponent := by
  unfold exponent
  split <;> omega

/-- Below a power of two, but for the smallest, the numbers are closer. -/
theorem gapBelow_of_mantissa (hmantissa : d.mantissa = 2 ^ 52) (h : d.exponent ≠ -1074) :
    d.gapBelow = 1 / 4 := by
  have hfraction := d.fraction_lt
  unfold mantissa at hmantissa
  unfold exponent at h
  -- A number with the hidden bit and another exponent than the smallest is normal.
  have hzero : d.exponentField ≠ 0 := by
    intro hzero
    rw [if_pos hzero] at h
    exact h rfl
  rw [if_neg hzero] at hmantissa h
  have hfraction : d.fraction = 0 := Nat.add_left_cancel (hmantissa : 2 ^ 52 + d.fraction = 2 ^ 52 + 0)
  have hnarrow : d.narrowBelow = true := by
    simp only [narrowBelow, hfraction, Bool.and_eq_true, beq_iff_eq, true_and, decide_eq_true_eq]
    omega
  rw [gapBelow, if_pos hnarrow]

/-! ### Rounding a quotient -/

/-- A quotient is rounded to the natural number that is within a half of it, or to the even one of two. -/
theorem roundQuotient_eq {num den q : Nat}
    (hlower : 2 * q * den < 2 * num + den ∨ q % 2 = 0 ∧ 2 * q * den = 2 * num + den)
    (hupper : 2 * num < (2 * q + 1) * den ∨ q % 2 = 0 ∧ 2 * num = (2 * q + 1) * den)
    (hden : 0 < den) : roundQuotient num den = q := by
  have hnum : den * (num / den) + num % den = num := Nat.div_add_mod num den
  have hmod : num % den < den := Nat.mod_lt _ hden
  unfold roundQuotient
  generalize num / den = k at hnum
  generalize num % den = r at hnum hmod
  -- The result is one of the two integers around the quotient.
  have hq : q = k ∨ q = k + 1 := by
    have hle : q ≤ k + 1 := by
      by_contra hgt
      have hprod : (k + 2) * den ≤ q * den := Nat.mul_le_mul_right _ (by omega)
      rw [Nat.mul_assoc] at hlower
      rw [Nat.add_mul, Nat.mul_comm k] at hprod
      omega
    have hge : k ≤ q := by
      by_contra hlt
      have hprod : (q + 1) * den ≤ k * den := Nat.mul_le_mul_right _ (by omega)
      rw [Nat.add_mul, Nat.mul_assoc] at hupper
      rw [Nat.add_mul, Nat.mul_comm k] at hprod
      omega
    omega
  rw [Nat.mul_assoc] at hlower
  rw [Nat.add_mul, Nat.mul_assoc] at hupper
  rcases hq with rfl | rfl
  · rw [Nat.mul_comm q] at hlower hupper
    dsimp only
    split_ifs <;> omega
  · rw [Nat.add_mul, Nat.mul_comm k] at hlower hupper
    dsimp only
    split_ifs <;> omega

/-- A quotient is rounded to the integer that is nearer than one half, or at one half and even. -/
theorem roundQuotient_of_near {num den q : Nat} (hden : 0 < den)
    (hlower : (q : ℚ) - 1 / 2 < num / den ∨ q % 2 = 0 ∧ (num : ℚ) / den = q - 1 / 2)
    (hupper : (num : ℚ) / den < q + 1 / 2 ∨ q % 2 = 0 ∧ (num : ℚ) / den = q + 1 / 2) :
    roundQuotient num den = q := by
  have hden' : (0 : ℚ) < den := by exact_mod_cast hden
  -- The bounds are multiplied out, so that they speak of integers.
  refine roundQuotient_eq ?_ ?_ hden
  · refine hlower.imp (fun h => ?_) (And.imp_right fun h => ?_)
    · rw [lt_div_iff₀ hden'] at h
      have : (2 * q * den : ℚ) < 2 * num + den := by linarith
      exact_mod_cast this
    · rw [div_eq_iff hden'.ne'] at h
      have : (2 * q * den : ℚ) = 2 * num + den := by linarith
      exact_mod_cast this
  · refine hupper.imp (fun h => ?_) (And.imp_right fun h => ?_)
    · rw [div_lt_iff₀ hden'] at h
      have : (2 * num : ℚ) < (2 * q + 1) * den := by linarith
      exact_mod_cast this
    · rw [div_eq_iff hden'.ne'] at h
      have : (2 * num : ℚ) = (2 * q + 1) * den := by linarith
      exact_mod_cast this

/-- A power of two is divided out before the rounding. -/
theorem roundAt_of_near {num den q : Nat} {e : Int} (hden : 0 < den)
    (hlower : (q : ℚ) - 1 / 2 < num / den / 2 ^ e ∨
      q % 2 = 0 ∧ (num : ℚ) / den / 2 ^ e = q - 1 / 2)
    (hupper : (num : ℚ) / den / 2 ^ e < q + 1 / 2 ∨
      q % 2 = 0 ∧ (num : ℚ) / den / 2 ^ e = q + 1 / 2) :
    roundAt num den e = q := by
  -- Whether the power multiplies the numerator or the denominator depends on the sign of its exponent.
  have hscaled : ((num * Nat.pow 2 (-e).toNat : Nat) : ℚ) / (den * Nat.pow 2 e.toNat : Nat) =
      num / den / 2 ^ e := by
    rw [zpow_eq_div two_ne_zero]
    push_cast
    simp only [Nat.pow_eq, Nat.cast_pow, Nat.cast_ofNat]
    have hden' : (den : ℚ) ≠ 0 := by exact_mod_cast hden.ne'
    field_simp
  unfold roundAt
  rw [← hscaled] at hlower hupper
  exact roundQuotient_of_near (Nat.mul_pos hden (Nat.two_pow_pos _)) hlower hupper

/-! ### The scale -/

/-- The power of two that leaves fifty-three bits before the point. -/
structure Scale (r : ℚ) (e : Int) : Prop where
  le : 2 ^ 52 * 2 ^ e ≤ r
  lt : r < 2 ^ 53 * 2 ^ e

theorem two_zpow_add (n : Nat) (e : Int) : (2 : ℚ) ^ n * 2 ^ e = 2 ^ (n + e) := by
  rw [zpow_add₀ two_ne_zero, zpow_natCast]

/-- A number has one scale. -/
theorem Scale.unique {r : ℚ} {e f : Int} (he : Scale r e) (hf : Scale r f) : e = f := by
  have hlt : ∀ {e f : Int}, Scale r e → Scale r f → e < f + 1 := by
    intro e f he hf
    have h : (2 : ℚ) ^ (((52 : Nat) : Int) + e) < 2 ^ (((53 : Nat) : Int) + f) := by
      rw [← two_zpow_add, ← two_zpow_add]
      exact lt_of_le_of_lt he.le hf.lt
    have hexponents := (zpow_lt_zpow_iff_right₀ one_lt_two).1 h
    omega
  have hle := hlt he hf
  have hge := hlt hf he
  omega

section

variable {num den : Nat}

/-- The binary logarithms of numerator and denominator give the scale up to a step. -/
theorem between_log2 (hnum : num ≠ 0) (hden : 0 < den) {guess : Int}
    (hguess : guess = (num.log2 : Int) - den.log2 - 52) :
    (2 : ℚ) ^ (guess + 51) < num / den ∧ (num : ℚ) / den < 2 ^ (guess + 53) := by
  have hden' : (0 : ℚ) < den := by exact_mod_cast hden
  have hnumle : ((2 : ℚ) ^ num.log2) ≤ num := by exact_mod_cast Nat.log2_self_le hnum
  have hnumlt : (num : ℚ) < 2 ^ (num.log2 + 1) := by exact_mod_cast Nat.lt_log2_self
  have hdenle : ((2 : ℚ) ^ den.log2) ≤ den := by exact_mod_cast Nat.log2_self_le hden.ne'
  have hdenlt : (den : ℚ) < 2 ^ (den.log2 + 1) := by exact_mod_cast Nat.lt_log2_self
  rw [lt_div_iff₀ hden', div_lt_iff₀ hden']
  constructor
  · -- Each logarithm is short by less than one, which costs at most a factor of two on either side.
    calc (2 : ℚ) ^ (guess + 51) * den < 2 ^ (guess + 51) * 2 ^ (den.log2 + 1) :=
          mul_lt_mul_of_pos_left hdenlt (by positivity)
      _ = 2 ^ num.log2 := by
          rw [← zpow_natCast, ← zpow_natCast, ← zpow_add₀ two_ne_zero]
          congr 1
          push_cast
          omega
      _ ≤ num := hnumle
  · calc (num : ℚ) < 2 ^ (num.log2 + 1) := hnumlt
      _ = 2 ^ (guess + 53) * 2 ^ den.log2 := by
          rw [← zpow_natCast, ← zpow_natCast, ← zpow_add₀ two_ne_zero]
          congr 1
          push_cast
          omega
      _ ≤ 2 ^ (guess + 53) * den := mul_le_mul_of_nonneg_left hdenle (by positivity)

/-- A comparison on integers tells whether fifty-three bits are left. -/
theorem lt_scaled_iff (hden : 0 < den) (e : Int) :
    num * Nat.pow 2 (-e).toNat < Nat.pow 2 52 * (den * Nat.pow 2 e.toNat) ↔
      (num : ℚ) / den < 2 ^ 52 * 2 ^ e := by
  have hden' : (0 : ℚ) < den := by exact_mod_cast hden
  rw [zpow_eq_div two_ne_zero, div_lt_iff₀ hden', mul_div_assoc', div_mul_eq_mul_div,
    lt_div_iff₀ (by positivity), ← Nat.cast_lt (α := ℚ)]
  simp only [Nat.pow_eq, Nat.cast_mul, Nat.cast_pow, Nat.cast_ofNat]
  rw [mul_right_comm ((2 : ℚ) ^ 52), ← mul_assoc]

/-- A quotient is rounded at its scale, or at the smallest exponent. -/
theorem ofRatio_scale (hnum : num ≠ 0) (hden : 0 < den) (negative : Bool) :
    ∃ e : Int, Scale (num / den) e ∧ ofRatio negative num den =
      if roundAt num den (max e (-1074)) = 2 ^ 53 then pack negative (2 ^ 52) (max e (-1074) + 1)
      else pack negative (roundAt num den (max e (-1074))) (max e (-1074)) := by
  obtain ⟨guess, hguess⟩ : ∃ g : Int, g = (num.log2 : Int) - den.log2 - 52 := ⟨_, rfl⟩
  obtain ⟨hlower, hupper⟩ := between_log2 hnum hden hguess
  have hlow : _ ↔ (num : ℚ) / den < 2 ^ 52 * 2 ^ guess := lt_scaled_iff hden guess
  refine ⟨if num * Nat.pow 2 (-guess).toNat < Nat.pow 2 52 * (den * Nat.pow 2 guess.toNat)
    then guess - 1 else guess, ?_, ?_⟩
  · -- The guess is off by at most one, and one comparison tells.
    split
    · rename_i h
      have hbelow : ((52 : Nat) : Int) + (guess - 1) = guess + 51 := by omega
      have habove : ((53 : Nat) : Int) + (guess - 1) = (52 : Nat) + guess := by omega
      refine ⟨?_, ?_⟩
      · rw [two_zpow_add, hbelow]
        exact hlower.le
      · rw [two_zpow_add, habove, ← two_zpow_add]
        exact hlow.1 h
    · rename_i h
      have habove : ((53 : Nat) : Int) + guess = guess + 53 := by omega
      refine ⟨not_lt.1 (mt hlow.2 h), ?_⟩
      rw [two_zpow_add, habove]
      exact hupper
  · unfold ofRatio
    simp only [if_neg hnum, ← hguess]
    rfl

end

/-! ### What a number stands for -/

variable {num den : Nat}

/-- At the scale of the number itself its mantissa is what remains. -/
theorem roundAt_of_covers (hden : 0 < den) (h : d.Covers (num / den)) :
    roundAt num den d.exponent = d.mantissa := by
  have hunit : (0 : ℚ) < 2 ^ d.exponent := by positivity
  have hgap := d.gapBelow_le
  refine roundAt_of_near hden ?_ ?_
  · rw [lt_div_iff₀ hunit, div_eq_iff hunit.ne']
    have hlow : ((d.mantissa : ℚ) - 1 / 2) * 2 ^ d.exponent ≤ d.low :=
      mul_le_mul_of_nonneg_right (by linarith) hunit.le
    -- Below a power of two the interval is narrower than half a unit, and only a tie at its end can be one of
    -- the rounding.
    rcases h.lower with hlt | ⟨heven, heq⟩
    · exact .inl (lt_of_le_of_lt hlow hlt)
    · rcases hlow.lt_or_eq with hlt | htie
      · exact .inl (heq ▸ hlt)
      · exact .inr ⟨heven, heq.trans htie.symm⟩
  · rw [div_lt_iff₀ hunit, div_eq_iff hunit.ne']
    exact h.upper

/-- What a number stands for lies below the next power of two that has fifty-three bits. -/
theorem Covers.lt {r : ℚ} (h : d.Covers r) : r < 2 ^ 53 * 2 ^ d.exponent := by
  have hunit : (0 : ℚ) < 2 ^ d.exponent := by positivity
  have hmantissa : (d.mantissa : ℚ) + 1 ≤ 2 ^ 53 := by exact_mod_cast d.mantissa_lt
  have hhigh : d.high < 2 ^ 53 * 2 ^ d.exponent := mul_lt_mul_of_pos_right (by linarith) hunit
  rcases h.upper with hlt | ⟨-, rfl⟩
  · exact hlt.trans hhigh
  · exact hhigh

/-- What a number stands for has too few bits at its scale only at the smallest exponent, or just
    below a power of two. -/
theorem Covers.mantissa_of_lt {r : ℚ} (h : d.Covers r) (hlt : r < 2 ^ 52 * 2 ^ d.exponent)
    (hexponent : d.exponent ≠ -1074) :
    d.mantissa = 2 ^ 52 ∧ (2 ^ 52 - 1 / 4) * 2 ^ d.exponent ≤ r := by
  have hunit : (0 : ℚ) < 2 ^ d.exponent := by positivity
  have hlow : d.low ≤ r := by
    rcases h.lower with hlt | ⟨-, rfl⟩
    · exact hlt.le
    · exact le_refl _
  have hmantissa : d.mantissa = 2 ^ 52 := by
    refine Nat.le_antisymm ?_ (le_mantissa hexponent)
    -- A greater mantissa would leave half a unit above the power of two.
    by_contra hgt
    have hgt : ((2 ^ 52 : Nat) : ℚ) + 1 ≤ d.mantissa := by exact_mod_cast not_le.1 hgt
    have hlt : d.low < 2 ^ 52 * 2 ^ d.exponent := lt_of_le_of_lt hlow hlt
    have hcancel := lt_of_mul_lt_mul_right hlt hunit.le
    push_cast at hgt
    linarith [d.gapBelow_le]
  refine ⟨hmantissa, ?_⟩
  rw [low, gapBelow_of_mantissa hmantissa hexponent, hmantissa] at hlow
  exact_mod_cast hlow

/-- Just below a power of two one bit more is kept, and the rounding carries over all of them. -/
theorem roundAt_of_carry {e : Int} (hden : 0 < den) (hle : (2 ^ 52 - 1 / 4) * 2 ^ e ≤ (num : ℚ) / den)
    (hlt : (num : ℚ) / den < 2 ^ 52 * 2 ^ e) :
    Scale (num / den) (e - 1) ∧ roundAt num den (e - 1) = 2 ^ 53 := by
  have hunit : (0 : ℚ) < 2 ^ e := by positivity
  -- At the next finer scale the unit is half as large, and the quotient rounds to the next power of two.
  have hhalf : (2 : ℚ) ^ (e - 1) = 2 ^ e / 2 := by
    rw [zpow_sub₀ two_ne_zero, zpow_one]
  refine ⟨⟨?_, ?_⟩, roundAt_of_near hden ?_ (.inl ?_)⟩
  · rw [hhalf]
    linarith
  · rw [hhalf]
    linarith
  · rw [hhalf, lt_div_iff₀ (by positivity), div_eq_iff (by positivity)]
    push_cast
    rcases hle.lt_or_eq with hlt | heq
    · exact .inl (by linarith)
    · exact .inr ⟨by norm_num, by linarith⟩
  · rw [hhalf, div_lt_iff₀ (by positivity)]
    push_cast
    linarith

/-- A quotient that a number stands for is rounded to the number. -/
theorem ofRatio_of_covers (hfinite : d.isFinite = true) (hnum : num ≠ 0) (hden : 0 < den)
    (h : d.Covers (num / den)) : ofRatio d.isNegative num den = d := by
  obtain ⟨e, hscale, hround⟩ := ofRatio_scale hnum hden d.isNegative
  rw [hround]
  have hsame : max e (-1074) = d.exponent →
      (if roundAt num den (max e (-1074)) = 2 ^ 53 then
          pack d.isNegative (2 ^ 52) (max e (-1074) + 1)
        else pack d.isNegative (roundAt num den (max e (-1074))) (max e (-1074))) = d := by
    intro hexponent
    rw [hexponent, roundAt_of_covers hden h, if_neg d.mantissa_lt.ne, pack_eq hfinite]
  have hmin := d.le_exponent
  by_cases hbits : 2 ^ 52 * 2 ^ d.exponent ≤ (num : ℚ) / den
  · have he : e = d.exponent := hscale.unique ⟨hbits, h.lt⟩
    exact hsame (by omega)
  · have hlt := not_le.1 hbits
    by_cases hexponent : d.exponent = -1074
    · -- The scale stops at the smallest exponent.
      have he : (2 : ℚ) ^ e < 2 ^ d.exponent :=
        lt_of_mul_lt_mul_left (lt_of_le_of_lt hscale.le hlt) (by positivity)
      have hless := (zpow_lt_zpow_iff_right₀ one_lt_two).1 he
      exact hsame (by omega)
    · obtain ⟨hmantissa, hle⟩ := h.mantissa_of_lt hlt hexponent
      obtain ⟨hscale', hcarry⟩ := roundAt_of_carry hden hle hlt
      have he := hscale.unique hscale'
      have hmax : max e (-1074) = d.exponent - 1 := by omega
      rw [hmax, if_pos hcarry, ← hmantissa, Int.sub_add_cancel, pack_eq hfinite]

/-! ### Decimals -/

/-- A power of ten has more than three bits for each of its digits. -/
theorem two_pow_le_ten_pow {m n : Nat} (h : m ≤ 3 * n) : (2 : ℚ) ^ m ≤ 10 ^ n := by
  calc (2 : ℚ) ^ m ≤ 2 ^ (3 * n) := pow_le_pow_right₀ one_le_two h
    _ = (2 ^ 3) ^ n := pow_mul _ _ _
    _ ≤ 10 ^ n := pow_le_pow_left₀ (by norm_num) (by norm_num) n

/-- Decimals beyond the range are never what a number stands for. -/
theorem Covers.exponent_le {x : Decimal} (hfinite : d.isFinite = true) (hdigits : x.digits ≠ 0)
    (h : d.Covers x.value) : x.exponent ≤ 400 := by
  -- A power of ten this large exceeds all finite numbers.
  by_contra hgt
  have hfield := exponentField_lt hfinite
  have hexponent : d.exponent ≤ 971 := by
    unfold exponent
    split <;> omega
  have hone : (1 : ℚ) ≤ x.digits := by exact_mod_cast Nat.one_le_iff_ne_zero.2 hdigits
  have hvalue : (2 : ℚ) ^ (1024 : Int) ≤ x.value := by
    calc (2 : ℚ) ^ (1024 : Int) ≤ 10 ^ (401 : Int) := by
          rw [zpow_ofNat, zpow_ofNat]
          exact two_pow_le_ten_pow (by omega)
      _ ≤ 10 ^ x.exponent := zpow_le_zpow_right₀ (by norm_num) (by omega)
      _ ≤ x.digits * 10 ^ x.exponent := le_mul_of_one_le_left (by positivity) hone
  have hlt : x.value < 2 ^ (1024 : Int) := by
    calc x.value < 2 ^ 53 * 2 ^ d.exponent := h.lt
      _ = 2 ^ (((53 : Nat) : Int) + d.exponent) := two_zpow_add _ _
      _ ≤ 2 ^ (1024 : Int) := zpow_le_zpow_right₀ (by norm_num) (by omega)
  exact absurd hvalue (not_le.2 hlt)

/-- Neither are those below the range, save for zero. -/
theorem Covers.le_exponent {x : Decimal} (hmantissa : 0 < d.mantissa) (h : d.Covers x.value) :
    -400 - (x.digits.log2 : Int) ≤ x.exponent := by
  -- A power of ten this small is below half of the smallest number, whatever digits stand in front.
  by_contra hlt
  have hmin : (2 : ℚ) ^ (-1074 : Int) ≤ 2 ^ d.exponent :=
    zpow_le_zpow_right₀ (by norm_num) d.le_exponent
  have hhalf : (2 : ℚ) ^ (-1074 : Int) / 2 = 2 ^ (-1075 : Int) := by
    rw [show (-1075 : Int) = -1074 - 1 by norm_num, zpow_sub₀ two_ne_zero, zpow_one]
  have hdigits : (x.digits : ℚ) < 2 ^ (x.digits.log2 + 1) := by exact_mod_cast Nat.lt_log2_self
  have hvalue : x.value < 2 ^ (-1075 : Int) := by
    calc x.value < 2 ^ (x.digits.log2 + 1) * 10 ^ x.exponent :=
          mul_lt_mul_of_pos_right hdigits (by positivity)
      _ ≤ 10 ^ (x.digits.log2 + 1) * 10 ^ x.exponent :=
          mul_le_mul_of_nonneg_right (pow_le_pow_left₀ (by norm_num) (by norm_num) _) (by positivity)
      _ = 10 ^ ((x.digits.log2 + 1 : Nat) + x.exponent) := by
          rw [zpow_add₀ (by norm_num), zpow_natCast]
      _ ≤ 10 ^ (-400 : Int) := zpow_le_zpow_right₀ (by norm_num) (by push_cast; omega)
      _ ≤ 2 ^ (-1075 : Int) := by
          rw [zpow_neg, zpow_neg, zpow_ofNat, zpow_ofNat]
          exact inv_anti₀ (by positivity) (two_pow_le_ten_pow (by omega))
  have hle := h.half_le hmantissa
  linarith

/-- A decimal that a number stands for is read as the number. -/
theorem ofDecimal_of_covers {x : Decimal} (hfinite : d.isFinite = true) (hmantissa : 0 < d.mantissa)
    (h : d.Covers x.value) : ofDecimal d.isNegative x.digits x.exponent = d := by
  have hpos : 0 < x.value := h.pos hmantissa
  have hdigits : x.digits ≠ 0 := by
    intro hzero
    simp [Decimal.value, hzero] at hpos
  have hupper := h.exponent_le hfinite hdigits
  have hlower := h.le_exponent hmantissa
  have hvalue : ((x.digits * Nat.pow 10 x.exponent.toNat : Nat) : ℚ) /
      (Nat.pow 10 (-x.exponent).toNat : Nat) = x.value := by
    rw [Decimal.value, zpow_eq_div (by norm_num)]
    simp only [Nat.pow_eq]
    push_cast
    rw [mul_div_assoc]
  unfold ofDecimal
  -- The shortcuts for zero and for exponents out of range are not taken.
  rw [if_neg hdigits, if_neg (by omega), if_neg (by omega)]
  have hten : ∀ n, 0 < Nat.pow 10 n := fun n => Nat.pow_pos (by decide)
  exact ofRatio_of_covers hfinite (Nat.mul_ne_zero hdigits (hten _).ne') (hten _) (hvalue ▸ h)

/-! ### Signs -/

/-- Negation changes the highest bit alone. -/
theorem toNat_bits_negate (d : Double) : d.negate.bits.toNat
    = (if d.isNegative then 0 else 2 ^ 63) + (d.exponentField * 2 ^ 52 + d.fraction) := by
  have hfield : d.exponentField < 2048 := Nat.mod_lt _ (by decide)
  have hfraction := d.fraction_lt
  have hbits := d.toNat_bits
  have hrest : d.bits.toNat % Nat.pow 2 63 = d.exponentField * 2 ^ 52 + d.fraction := by
    show d.bits.toNat % 2 ^ 63 = _
    split at hbits <;> omega
  unfold negate
  rw [hrest, toNat_bits_withSign _ (by omega)]
  cases d.isNegative <;> rfl

/-- A number with the other sign has the same exponent and fraction. -/
theorem negate_fields (d : Double) : d.negate.isNegative = !d.isNegative ∧
    d.negate.exponentField = d.exponentField ∧ d.negate.fraction = d.fraction := by
  have hfield : d.exponentField < 2048 := Nat.mod_lt _ (by decide)
  have hfraction := d.fraction_lt
  have hbits := d.toNat_bits_negate
  have hparts := d.negate.toNat_bits
  have hfield' : d.negate.exponentField < 2048 := Nat.mod_lt _ (by decide)
  have hfraction' := d.negate.fraction_lt
  cases hd : d.isNegative <;> cases hd' : d.negate.isNegative <;>
    simp only [hd, hd', Bool.false_eq_true, if_true, if_false] at hbits hparts <;>
    refine ⟨?_, ?_, ?_⟩ <;> first | rfl | omega

/-- Negation changes the sign. -/
@[simp] theorem isNegative_negate (d : Double) : d.negate.isNegative = !d.isNegative :=
  d.negate_fields.1

/-- Negation twice changes nothing. -/
theorem negate_negate (d : Double) : d.negate.negate = d := by
  obtain ⟨hsign, hfield, hfraction⟩ := d.negate.negate_fields
  refine eq_of_fields ?_ (hfield.trans d.negate_fields.2.1) (hfraction.trans d.negate_fields.2.2)
  rw [hsign, isNegative_negate, Bool.not_not]

/-- The number without its sign. -/
def unsigned (d : Double) : Double := if d.isNegative then d.negate else d

theorem isNegative_unsigned (d : Double) : d.unsigned.isNegative = false := by
  unfold unsigned
  split <;> simp [*]

/-- Without its sign a number has the fields that it had. -/
theorem unsigned_fields (d : Double) :
    d.unsigned.exponentField = d.exponentField ∧ d.unsigned.fraction = d.fraction := by
  unfold unsigned
  split
  · exact d.negate_fields.2
  · exact ⟨rfl, rfl⟩

/-- The sign is put back by one negation. -/
theorem unsigned_negate (h : d.isNegative = true) : d.unsigned.negate = d := by
  rw [unsigned, if_pos h, negate_negate]

/-- What a number stands for does not depend on its sign. -/
theorem Covers.unsigned {r : ℚ} (h : d.Covers r) : d.unsigned.Covers r := by
  obtain ⟨hfield, hfraction⟩ := d.unsigned_fields
  -- All bounds are made of the two fields that are not the sign.
  have hmantissa : d.unsigned.mantissa = d.mantissa := by
    rw [mantissa, mantissa, hfield, hfraction]
  have hexponent : d.unsigned.exponent = d.exponent := by
    rw [exponent, exponent, hfield]
  have hgap : d.unsigned.gapBelow = d.gapBelow := by
    rw [gapBelow, gapBelow, narrowBelow, narrowBelow, hfield, hfraction]
  have hlow : d.unsigned.low = d.low := by
    rw [low, low, hmantissa, hexponent, hgap]
  have hhigh : d.unsigned.high = d.high := by
    rw [high, high, hmantissa, hexponent]
  refine ⟨?_, ?_⟩
  · rw [hlow, hmantissa]
    exact h.lower
  · rw [hhigh, hmantissa]
    exact h.upper

/-- A decimal that a number stands for is read as the number without its sign. -/
theorem ofDecimal_false_of_covers {x : Decimal} (hfinite : d.isFinite = true)
    (hmantissa : 0 < d.mantissa) (h : d.Covers x.value) :
    ofDecimal false x.digits x.exponent = d.unsigned := by
  obtain ⟨hfield, hfraction⟩ := d.unsigned_fields
  rw [← d.isNegative_unsigned]
  refine ofDecimal_of_covers ?_ ?_ h.unsigned
  · rw [isFinite, hfield]
    exact hfinite
  · rw [mantissa, hfield, hfraction]
    exact hmantissa

end Double

end DataShapes
