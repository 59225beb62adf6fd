import DataShapes.Value.Equality
import Mathlib.Tactic.Ring

/-!
# What numbers denote

Numbers are compared across their kinds, and nothing is rounded.  Every finite floating-point number is
a whole multiple of the smallest positive one, and so is every integer.  So finite numbers of either
kind denote integers, infinities and NaNs denote themselves, and two numbers are equal exactly when they
denote the same.

Main definitions:
* `Double.multiple`: the magnitude of a finite number, counted in smallest positive numbers;
* `Numeric.denoted`: what a number denotes.

Main statements:
* `Double.fields_eq_of_multiple_eq`: a magnitude has one exponent and one fraction;
* `Double.equalsInt_iff`: when a floating-point number is equal to an integer;
* `Numeric.equal_iff`: numbers are equal when they denote the same.
-/

namespace DataShapes

namespace Double

/-! ### Magnitudes -/

/-- How often one is halved to give the smallest positive number. -/
def halvings : Nat := 1074

/-- How many smallest positive numbers make one. -/
def unitsOfOne : Nat := 2 ^ halvings

theorem unitsOfOne_pos : 0 < unitsOfOne := Nat.two_pow_pos halvings

/-- The magnitude of a finite number, counted in smallest positive numbers. -/
def multiple (d : Double) : Nat := d.mantissa * 2 ^ (d.exponentField - 1)

/-- A finite number, counted in smallest positive numbers. -/
def signedMultiple (d : Double) : Int := if d.isNegative then -d.multiple else d.multiple

variable {a b d : Double}

theorem fraction_lt (d : Double) : d.fraction < 2 ^ 52 := Nat.mod_lt _ (by decide)

/-- The magnitude stays below that of the next exponent. -/
theorem multiple_lt (d : Double) : d.multiple < 2 ^ 52 * 2 ^ d.exponentField := by
  have hfraction := d.fraction_lt
  unfold multiple mantissa
  cases hfield : d.exponentField with
  | zero => simpa using hfraction
  | succ n =>
    have hmantissa : Nat.pow 2 52 + d.fraction < 2 ^ 52 * 2 := by
      show 2 ^ 52 + d.fraction < 2 ^ 52 * 2
      omega
    rw [if_neg (Nat.succ_ne_zero n), Nat.add_sub_cancel]
    calc (Nat.pow 2 52 + d.fraction) * 2 ^ n < 2 ^ 52 * 2 * 2 ^ n :=
          Nat.mul_lt_mul_of_pos_right hmantissa (Nat.two_pow_pos n)
      _ = 2 ^ 52 * 2 ^ (n + 1) := by ring

/-- The magnitude is at least that of its exponent, which the numbers of the smallest exponent may
    fall short of. -/
theorem le_multiple (h : 0 < d.exponentField) : 2 ^ 52 * 2 ^ (d.exponentField - 1) ≤ d.multiple := by
  have hmantissa : 2 ^ 52 ≤ d.mantissa := by
    rw [mantissa, if_neg (by omega)]
    exact Nat.le_add_right _ _
  exact Nat.mul_le_mul_right _ hmantissa

/-- A higher exponent field makes a greater number, whatever the fractions are. -/
theorem multiple_lt_multiple (h : a.exponentField < b.exponentField) : a.multiple < b.multiple := by
  have hexponent : 2 ^ a.exponentField ≤ 2 ^ (b.exponentField - 1) :=
    Nat.pow_le_pow_right (by decide) (by omega)
  calc a.multiple < 2 ^ 52 * 2 ^ a.exponentField := a.multiple_lt
    _ ≤ 2 ^ 52 * 2 ^ (b.exponentField - 1) := Nat.mul_le_mul_left _ hexponent
    _ ≤ b.multiple := le_multiple (by omega)

/-- A magnitude has one exponent and one fraction. -/
theorem fields_eq_of_multiple_eq (h : a.multiple = b.multiple) :
    a.exponentField = b.exponentField ∧ a.fraction = b.fraction := by
  have hfield : a.exponentField = b.exponentField := by
    -- A greater exponent has the greater magnitude, whatever the fractions.
    rcases Nat.lt_trichotomy a.exponentField b.exponentField with hlt | heq | hlt
    · exact absurd h (Nat.ne_of_lt (multiple_lt_multiple hlt))
    · exact heq
    · exact absurd h.symm (Nat.ne_of_lt (multiple_lt_multiple hlt))
  refine ⟨hfield, ?_⟩
  unfold multiple at h
  rw [hfield] at h
  have hmantissa : a.mantissa = b.mantissa := Nat.eq_of_mul_eq_mul_right (Nat.two_pow_pos _) h
  unfold mantissa at hmantissa
  rw [hfield] at hmantissa
  split at hmantissa
  · exact hmantissa
  · exact Nat.add_left_cancel hmantissa

/-- Zero is the number of no units, whatever its sign. -/
theorem isZero_iff : d.isZero = true ↔ d.multiple = 0 := by
  unfold isZero
  rw [Bool.and_eq_true, beq_iff_eq, beq_iff_eq]
  constructor
  · rintro ⟨hfield, hfraction⟩
    simp [multiple, mantissa, hfield, hfraction]
  · intro h
    have hfield : d.exponentField = 0 := by
      by_contra hne
      have hle : 2 ^ 52 * 2 ^ (d.exponentField - 1) ≤ d.multiple := le_multiple (Nat.pos_of_ne_zero hne)
      have hpos : 0 < 2 ^ 52 * 2 ^ (d.exponentField - 1) :=
        Nat.mul_pos (Nat.two_pow_pos 52) (Nat.two_pow_pos _)
      omega
    refine ⟨hfield, ?_⟩
    simpa [multiple, mantissa, hfield] using h

/-! ### Signs -/

/-- The bits are the sign, the exponent and the fraction. -/
theorem toNat_bits (d : Double) : d.bits.toNat
    = (if d.isNegative then 2 ^ 63 else 0) + d.exponentField * 2 ^ 52 + d.fraction := by
  have hbits : d.bits.toNat < 2 ^ 64 := d.bits.toNat_lt
  unfold isNegative exponentField fraction
  simp only [show Nat.pow 2 63 = 2 ^ 63 from rfl, show Nat.pow 2 52 = 2 ^ 52 from rfl,
    show Nat.pow 2 11 = 2 ^ 11 from rfl, decide_eq_true_eq]
  split <;> omega

/-- A double is determined by its sign and its fields. -/
theorem eq_of_fields (hsign : a.isNegative = b.isNegative)
    (hfield : a.exponentField = b.exponentField) (hfraction : a.fraction = b.fraction) : a = b := by
  have hbits : a.bits.toNat = b.bits.toNat := by
    rw [a.toNat_bits, b.toNat_bits, hsign, hfield, hfraction]
  obtain ⟨a⟩ := a
  obtain ⟨b⟩ := b
  exact congrArg Double.mk (UInt64.toNat_inj.1 hbits)

/-- Finite numbers are equal when they are the same multiple: only the zeros have two signs. -/
theorem same_iff : a.same b = true ↔ a = b ∨ a.multiple = 0 ∧ b.multiple = 0 := by
  rw [same, Bool.or_eq_true, beq_iff_eq, Bool.and_eq_true, isZero_iff, isZero_iff]

/-- Finite numbers are equal when they are the same number of units. -/
theorem same_iff_signedMultiple_eq : a.same b = true ↔ a.signedMultiple = b.signedMultiple := by
  rw [same_iff]
  constructor
  · rintro (rfl | ⟨ha, hb⟩)
    · rfl
    · simp [signedMultiple, ha, hb]
  · intro h
    have hmultiple : a.multiple = b.multiple := by
      unfold signedMultiple at h
      split at h <;> split at h <;> omega
    by_cases hzero : a.multiple = 0
    · exact .inr ⟨hzero, hmultiple ▸ hzero⟩
    · -- Away from zero the sign is that of the multiple.
      have hsign : a.isNegative = b.isNegative := by
        unfold signedMultiple at h
        cases ha : a.isNegative <;> cases hb : b.isNegative <;> simp only [ha, hb] at h ⊢ <;>
          simp at h <;> omega
      obtain ⟨hfield, hfraction⟩ := fields_eq_of_multiple_eq hmultiple
      exact .inl (eq_of_fields hsign hfield hfraction)

/-! ### Integers -/

/-- Comparing a mantissa with an integer at a common exponent is comparing multiples. -/
theorem mantissa_eq_iff (d : Double) (k : Nat) :
    d.mantissa * Nat.pow 2 d.exponent.toNat = k * Nat.pow 2 (-d.exponent).toNat
      ↔ d.multiple = k * unitsOfOne := by
  -- Both sides are scaled until the integer is counted in smallest positive numbers.
  obtain ⟨s, hleft, hright⟩ : ∃ s, d.exponent.toNat + s = d.exponentField - 1
      ∧ (-d.exponent).toNat + s = halvings := by
    have hfield : d.exponentField < 2048 := Nat.mod_lt _ (by decide)
    refine ⟨1074 - (-d.exponent).toNat, ?_⟩
    unfold exponent halvings
    split <;> omega
  have hscale : d.multiple = d.mantissa * 2 ^ d.exponent.toNat * 2 ^ s := by
    rw [multiple, ← hleft, Nat.pow_add, Nat.mul_assoc]
  have hunits : k * unitsOfOne = k * 2 ^ (-d.exponent).toNat * 2 ^ s := by
    rw [unitsOfOne, ← hright, Nat.pow_add, Nat.mul_assoc]
  rw [hscale, hunits, Nat.mul_left_inj (Nat.two_pow_pos s).ne']
  rfl

/-- A magnitude and a sign agree with an integer exactly when the signed magnitude does. -/
theorem signed_eq_iff {magnitude units : Nat} (hunits : 0 < units) (negative : Bool) (n : Int) :
    (if negative then -(magnitude : Int) else magnitude) = n * units
      ↔ magnitude = n.natAbs * units ∧ (n = 0 ∨ negative = decide (n < 0)) := by
  obtain ⟨k, hk⟩ := n.eq_nat_or_neg
  have habs : n.natAbs = k := by omega
  have hzero : k = 0 ↔ k * units = 0 := by
    rw [Nat.mul_eq_zero]
    omega
  have hproduct : n * units = if n < 0 then -((k * units : Nat) : Int) else (k * units : Nat) := by
    rcases hk with rfl | rfl
    · rw [if_neg (by omega), Nat.cast_mul]
    · rcases Nat.eq_zero_or_pos k with rfl | hpos
      · simp
      · rw [if_pos (by omega), Nat.cast_mul, Int.neg_mul]
  rw [hproduct, habs]
  generalize k * units = product at hzero
  cases negative <;> by_cases hneg : n < 0 <;> simp only [hneg, decide_true, decide_false] <;>
    simp <;> omega

/-- A floating-point number is equal to an integer when it is finite and the same multiple. -/
theorem equalsInt_iff {n : Int} :
    d.equalsInt n = true ↔ d.isFinite = true ∧ d.signedMultiple = n * unitsOfOne := by
  unfold equalsInt signedMultiple
  rw [Bool.and_eq_true, Bool.and_eq_true, beq_iff_eq, mantissa_eq_iff, Bool.or_eq_true, beq_iff_eq,
    beq_iff_eq, and_assoc, signed_eq_iff unitsOfOne_pos]

end Double

/-! ### Numbers of both kinds -/

namespace Numeric

/-- What a number denotes: a finite one the integer that counts smallest positive numbers in it, any
    other one itself. -/
def denoted : Numeric → Int ⊕ Double
  | .whole n => .inl (n * Double.unitsOfOne)
  | .binary d => if d.isFinite then .inl d.signedMultiple else .inr d

/-- A finite double denotes a number of units. -/
theorem denoted_of_isFinite {d : Double} (h : d.isFinite = true) :
    (binary d).denoted = .inl d.signedMultiple := if_pos h

/-- An infinity or a NaN denotes itself. -/
theorem denoted_of_not_isFinite {d : Double} (h : ¬ d.isFinite = true) :
    (binary d).denoted = .inr d := if_neg h

/-- An integer and a floating-point number are equal when they denote the same. -/
theorem equalsInt_iff_denoted {d : Double} {n : Int} :
    d.equalsInt n = true ↔ (whole n).denoted = (binary d).denoted := by
  rw [Double.equalsInt_iff]
  by_cases h : d.isFinite = true
  · rw [denoted_of_isFinite h]
    simp only [denoted, Sum.inl.injEq, h, true_and]
    exact eq_comm
  · -- An integer denotes no number that is not finite.
    have hwhole : (whole n).denoted = .inl (n * Double.unitsOfOne) := rfl
    rw [denoted_of_not_isFinite h, hwhole]
    simp only [h, Bool.false_eq_true, false_and, reduceCtorEq]

/-- Zeros are finite. -/
theorem isFinite_of_isZero {d : Double} (h : d.isZero = true) : d.isFinite = true := by
  unfold Double.isZero at h
  rw [Bool.and_eq_true, beq_iff_eq] at h
  simp [Double.isFinite, h.1]

/-- Doubles are equal when they denote the same; two NaNs of the same bits count as equal. -/
theorem same_iff_denoted {a b : Double} :
    a.same b = true ↔ (binary a).denoted = (binary b).denoted := by
  -- Finite numbers are compared by magnitude, all others by their bits.
  by_cases ha : a.isFinite = true
  · by_cases hb : b.isFinite = true
    · rw [denoted_of_isFinite ha, denoted_of_isFinite hb, Sum.inl.injEq,
        Double.same_iff_signedMultiple_eq]
    · rw [denoted_of_isFinite ha, denoted_of_not_isFinite hb]
      have hne : a ≠ b := fun heq => hb (heq ▸ ha)
      have hzero : ¬ b.isZero = true := fun hzero => hb (isFinite_of_isZero hzero)
      simp [Double.same, hne, hzero]
  · have hzero : ¬ a.isZero = true := fun hzero => ha (isFinite_of_isZero hzero)
    have hsame : a.same b = true ↔ a = b := by simp [Double.same, hzero]
    rw [denoted_of_not_isFinite ha, hsame]
    by_cases hb : b.isFinite = true
    · rw [denoted_of_isFinite hb]
      have hne : a ≠ b := fun heq => ha (heq ▸ hb)
      simp [hne]
    · rw [denoted_of_not_isFinite hb, Sum.inr.injEq]

/-- Numbers are equal exactly when they denote the same. -/
theorem equal_iff {x y : Numeric} : x.equal y = true ↔ x.denoted = y.denoted := by
  cases x with
  | whole m =>
    cases y with
    | whole n =>
      have hunits : (Double.unitsOfOne : Int) ≠ 0 := by
        have hpos := Double.unitsOfOne_pos
        omega
      rw [equal, beq_iff_eq, denoted, denoted, Sum.inl.injEq, Int.mul_eq_mul_right_iff hunits]
    | binary d => exact equalsInt_iff_denoted
  | binary d =>
    cases y with
    | whole n => exact equalsInt_iff_denoted.trans eq_comm
    | binary e => exact same_iff_denoted

end Numeric

end DataShapes
