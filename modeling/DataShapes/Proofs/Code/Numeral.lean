import DataShapes.Number.Notation
import DataShapes.Proofs.Number.Rounding
import DataShapes.Text.Identifier
import DataShapes.Value.Basic
import Mathlib.Data.Nat.Digits.Lemmas

/-!
# Numerals of the stub language

A numeral of the language in which stubs are written is a row of digits, which may go on with a point and
digits behind it and with an exponent; with one of these it denotes a floating-point number, without them an
integer, and then it has no leading zeros.  Prefixes of other bases, underscores between digits and imaginary
numbers are left out.

Main definitions:
* `Code.Numeral`, `Code.Numeral.read`: the parts of a numeral, and how they are read off a text;
* `Code.Numeral.value?`: the number that a numeral denotes.

Main statements:
* `Code.Numeral.read_text`: a numeral is read back when nothing behind it goes on with it;
* `Code.Numeral.value?_ofNat`: the text of a natural number denotes it;
* `Code.Numeral.exists_of_isFinite`: so does that of a finite floating-point number, but for its sign.
-/

namespace DataShapes

namespace Number

/-! ### Digits -/

/-- The digits stand in one row. -/
theorem toNat_of_isDigit {c : Char} (h : c.isDigit = true) : 48 ≤ c.toNat ∧ c.toNat ≤ 57 := by
  simpa [Char.isDigit, UInt32.le_iff_toNat_le] using h

/-- The value of digits is the one that the library reads. -/
theorem digitsValue_eq {cs : List Char} (h : ∀ c ∈ cs, c.isDigit = true) :
    digitsValue cs = Nat.ofDigitChars 10 cs 0 := by
  unfold digitsValue
  generalize 0 = value
  induction cs generalizing value with
  | nil => rfl
  | cons c cs ih =>
    have hdigit : digit? c = some (c.toNat - '0'.toNat) := if_pos (h c List.mem_cons_self)
    rw [List.foldl_cons, Nat.ofDigitChars_cons, Nat.mul_comm 10, ih fun d hd => h d (List.mem_cons_of_mem _ hd)]
    simp only [hdigit]

/-- The digits of a natural number. -/
def digitsOf (n : Nat) : List Char := (toString n).toList

theorem digitsOf_eq (n : Nat) : digitsOf n = Nat.toDigits 10 n := by simp [digitsOf]

/-- The decimal text of a number has digits only. -/
theorem isDigit_digitsOf {n : Nat} : ∀ c ∈ digitsOf n, c.isDigit = true := by
  intro c hc
  rw [digitsOf_eq] at hc
  exact Nat.isDigit_of_mem_toDigits (by decide) (by decide) hc

/-- It has at least one. -/
theorem digitsOf_ne_nil (n : Nat) : digitsOf n ≠ [] := by
  rw [digitsOf_eq]
  exact Nat.toDigits_ne_nil

/-- Its value is the number. -/
theorem digitsValue_digitsOf (n : Nat) : digitsValue (digitsOf n) = n := by
  rw [digitsValue_eq isDigit_digitsOf, digitsOf_eq, Nat.ofDigitChars_ten_toDigits]

/-- Only zero starts with a zero. -/
theorem head?_digitsOf {n : Nat} (h : n ≠ 0) : (digitsOf n).head? ≠ some '0' := by
  induction n using Nat.strong_induction_on with
  | _ n ih =>
    rw [digitsOf_eq, Nat.toDigits_eq_if (by decide)]
    split
    · simpa using h
    · have hless : n / 10 < n := Nat.div_lt_self (Nat.pos_of_ne_zero h) (by decide)
      have hzero : n / 10 ≠ 0 := by omega
      have hfirst := ih (n / 10) hless hzero
      have hne := digitsOf_ne_nil (n / 10)
      rw [digitsOf_eq] at hfirst hne
      rwa [List.head?_append_of_ne_nil _ hne]

theorem isDigit_append {as bs : List Char} (ha : ∀ c ∈ as, c.isDigit = true)
    (hb : ∀ c ∈ bs, c.isDigit = true) : ∀ c ∈ as ++ bs, c.isDigit = true :=
  fun c hc => (List.mem_append.1 hc).elim (ha c) (hb c)

theorem isDigit_zeros {n : Nat} : ∀ c ∈ List.replicate n '0', c.isDigit = true := by
  intro c hc
  rw [List.eq_of_mem_replicate hc]
  rfl

/-- Zeros in front change no value. -/
theorem digitsValue_zeros_append (n : Nat) {cs : List Char} (h : ∀ c ∈ cs, c.isDigit = true) :
    digitsValue (List.replicate n '0' ++ cs) = digitsValue cs := by
  rw [digitsValue_eq (isDigit_append isDigit_zeros h), digitsValue_eq h, Nat.ofDigitChars_append,
    Nat.ofDigitChars_replicate_zero, Nat.mul_zero]

/-- Each zero behind multiplies by ten. -/
theorem digitsValue_append_zeros (n : Nat) {cs : List Char} (h : ∀ c ∈ cs, c.isDigit = true) :
    digitsValue (cs ++ List.replicate n '0') = digitsValue cs * 10 ^ n := by
  rw [digitsValue_eq (isDigit_append h isDigit_zeros), digitsValue_eq h, Nat.ofDigitChars_append,
    Nat.ofDigitChars_replicate_zero, Nat.mul_comm]

/-- Digits are read up to the first other character. -/
theorem spanDigits_append {cs rest : List Char} (h : ∀ c ∈ cs, c.isDigit = true)
    (hrest : ∀ c ∈ rest.head?, c.isDigit = false) : spanDigits (cs ++ rest) = (cs, rest) := by
  rw [spanDigits, List.span_eq_takeWhile_dropWhile, List.takeWhile_append_of_pos h,
    List.dropWhile_append_of_pos h]
  cases rest with
  | nil => simp
  | cons c rest => simp [hrest c rfl]

end Number

namespace Code

open Number

/-! ### Reading -/

/-- A numeral: digits, digits behind a point, and the sign and the digits of an exponent. -/
structure Numeral where
  whole : List Char
  fraction : Option (List Char) := none
  power : Option (Bool × List Char) := none
deriving DecidableEq

/-- Nothing goes on with a numeral: no character of an identifier and no point. -/
def endsNumeral (cs : List Char) : Bool :=
  cs.head?.all fun c => !Text.isIdentifierRest c && c != '.'

namespace Numeral

/-- A point with the digits behind it, if there is one, and the rest. -/
def readFraction : List Char → Option (List Char) × List Char
  | '.' :: cs => ((spanDigits cs).1, (spanDigits cs).2)
  | cs => (none, cs)

/-- An exponent, if there is one, and the rest.  An exponent without digits is malformed. -/
def readPower : List Char → Option (Option (Bool × List Char) × List Char)
  | [] => some (none, [])
  | c :: cs =>
    if c = 'e' ∨ c = 'E' then
      let (negative, cs) := spanSign cs
      match spanDigits cs with
      | ([], _) => none
      | (digits, rest) => some (some (negative, digits), rest)
    else some (none, c :: cs)

/-- The numeral at the start of a text, and the rest. -/
def read (cs : List Char) : Option (Numeral × List Char) := do
  let (whole, cs) := spanDigits cs
  let (fraction, cs) := readFraction cs
  let (power, cs) ← readPower cs
  if (whole ++ fraction.getD []).isEmpty || !endsNumeral cs then none
  return (⟨whole, fraction, power⟩, cs)

/-- The power of ten that the exponent gives. -/
def exponent (n : Numeral) : Int :=
  match n.power with
  | some (true, digits) => -digitsValue digits
  | some (false, digits) => digitsValue digits
  | none => 0

/-- The decimal that a numeral denotes. -/
def decimal (n : Numeral) : Decimal :=
  ⟨digitsValue (n.whole ++ n.fraction.getD []), n.exponent - (n.fraction.getD []).length⟩

/-- The number that a numeral denotes: a floating-point number when there is a point or an exponent,
    an integer otherwise. -/
def value? (n : Numeral) : Option Value :=
  if n.fraction.isSome || n.power.isSome then
    some (.float (Double.ofDecimal false n.decimal.digits n.decimal.exponent))
  else if n.whole.head? = some '0' ∧ n.whole.any (· != '0') = true then none
  else some (.int (digitsValue n.whole))

/-! ### Reading back -/

/-- The text of the point and the digits behind it. -/
def fractionText : Option (List Char) → List Char
  | some digits => '.' :: digits
  | none => []

/-- The text of an exponent. -/
def powerText : Option (Bool × List Char) → List Char
  | some (negative, digits) => 'e' :: (if negative then '-' else '+') :: digits
  | none => []

/-- The text of a numeral. -/
def text (n : Numeral) : List Char := n.whole ++ fractionText n.fraction ++ powerText n.power

/-- All parts consist of digits, at least one of each but the fraction. -/
structure WellFormed (n : Numeral) : Prop where
  whole : ∀ c ∈ n.whole, c.isDigit = true
  whole_ne : n.whole ≠ []
  fraction : ∀ c ∈ n.fraction.getD [], c.isDigit = true
  power : ∀ p ∈ n.power, (∀ c ∈ p.2, c.isDigit = true) ∧ p.2 ≠ []

variable {n : Numeral} {rest : List Char}

/-- Digits may stand inside of names, so a name must not follow a numeral at once. -/
theorem isIdentifierRest_of_isDigit {c : Char} (h : c.isDigit = true) :
    Text.isIdentifierRest c = true := by
  have hrange := toNat_of_isDigit h
  unfold Text.isIdentifierRest CodeRange.covers
  rw [Bool.or_eq_true, List.any_eq_true]
  refine .inr ⟨(0x30, 0x39), ?_, ?_⟩
  · unfold Text.identifierMarkRanges
    exact List.mem_cons_self
  · simpa using hrange

/-- What ends a numeral is no digit, no point and no exponent. -/
theorem of_endsNumeral (h : endsNumeral rest = true) :
    ∀ c ∈ rest.head?, c.isDigit = false ∧ c ≠ '.' ∧ c ≠ 'e' ∧ c ≠ 'E' := by
  intro c hc
  obtain rfl | ⟨cs, rfl⟩ : rest = [] ∨ ∃ cs, rest = c :: cs := by
    cases rest with
    | nil => exact .inl rfl
    | cons d cs => exact .inr ⟨cs, by rw [Option.some.inj hc]⟩
  · cases hc
  · -- Digits and both letters may stand in a word, which the end of a numeral may not.
    have hboth : Text.isIdentifierRest c = false ∧ c ≠ '.' := by
      simpa [endsNumeral] using h
    refine ⟨?_, hboth.2, ?_, ?_⟩
    · rw [Bool.eq_false_iff]
      intro hdigit
      rw [isIdentifierRest_of_isDigit hdigit] at hboth
      cases hboth.1
    · rintro rfl
      exact absurd hboth.1 (by decide)
    · rintro rfl
      exact absurd hboth.1 (by decide)

/-- A written exponent is read back. -/
theorem readPower_text {power : Option (Bool × List Char)}
    (h : ∀ p ∈ power, (∀ c ∈ p.2, c.isDigit = true) ∧ p.2 ≠ []) (hrest : endsNumeral rest = true) :
    readPower (powerText power ++ rest) = some (power, rest) := by
  have hends := of_endsNumeral hrest
  -- Without an exponent the next character must not look like one.
  cases power with
  | none =>
    cases rest with
    | nil => rfl
    | cons c cs =>
      obtain ⟨-, -, he, hE⟩ := hends c rfl
      exact if_neg (not_or.2 ⟨he, hE⟩)
  | some p =>
    obtain ⟨negative, digits⟩ := p
    obtain ⟨hdigits, hne⟩ := h _ rfl
    have hspan : spanDigits (digits ++ rest) = (digits, rest) :=
      spanDigits_append hdigits fun c hc => (hends c hc).1
    obtain ⟨c, cs, rfl⟩ := List.exists_cons_of_ne_nil hne
    rw [List.cons_append] at hspan
    cases negative <;> simp [powerText, readPower, spanSign, hspan]

/-- A written fraction is read back, be it empty or missing. -/
theorem readFraction_text {fraction : Option (List Char)}
    (h : ∀ c ∈ fraction.getD [], c.isDigit = true)
    (hrest : ∀ c ∈ rest.head?, c.isDigit = false ∧ c ≠ '.') :
    readFraction (fractionText fraction ++ rest) = (fraction, rest) := by
  cases fraction with
  | none =>
    cases rest with
    | nil => rfl
    | cons c cs =>
      have hpoint := (hrest c rfl).2
      simp [fractionText, readFraction, hpoint]
  | some digits =>
    have hspan : spanDigits (digits ++ rest) = (digits, rest) :=
      spanDigits_append h fun c hc => (hrest c hc).1
    simp [fractionText, readFraction, hspan]

/-- A numeral is read back when nothing behind it goes on with it. -/
theorem read_text (h : n.WellFormed) (hrest : endsNumeral rest = true) :
    read (n.text ++ rest) = some (n, rest) := by
  have hends := of_endsNumeral hrest
  obtain ⟨whole, fraction, power⟩ := n
  -- Neither an exponent nor the end of the numeral starts with a digit or a point.
  have hpower : ∀ c ∈ (powerText power ++ rest).head?, c.isDigit = false ∧ c ≠ '.' := by
    cases power with
    | none => exact fun c hc => ⟨(hends c hc).1, (hends c hc).2.1⟩
    | some p =>
      intro c hc
      obtain rfl := Option.some.inj hc
      decide
  have hfraction : ∀ c ∈ (fractionText fraction ++ (powerText power ++ rest)).head?,
      c.isDigit = false := by
    cases fraction with
    | none => exact fun c hc => (hpower c hc).1
    | some digits =>
      intro c hc
      obtain rfl := Option.some.inj hc
      rfl
  have hne : (whole ++ fraction.getD []).isEmpty = false := by
    rw [List.isEmpty_eq_false_iff]
    exact List.append_ne_nil_of_left_ne_nil h.whole_ne _
  simp only [text, List.append_assoc]
  simp [read, spanDigits_append h.whole hfraction, readFraction_text h.fraction hpower,
    readPower_text h.power hrest, hne, hrest]

/-! ### Numbers -/

/-- The numeral of a natural number. -/
def ofNat (n : Nat) : Numeral := ⟨digitsOf n, none, none⟩

/-- The numeral of a natural number is well formed. -/
theorem wellFormed_ofNat (n : Nat) : (ofNat n).WellFormed where
  whole := isDigit_digitsOf
  whole_ne := digitsOf_ne_nil n
  fraction := by simp [ofNat]
  power := by simp [ofNat]

/-- It is written as the number is. -/
theorem text_ofNat (n : Nat) : (ofNat n).text = (toString n).toList := by
  simp only [text, ofNat, fractionText, powerText, List.append_nil, digitsOf]

/-- The text of a natural number denotes it. -/
theorem value?_ofNat (n : Nat) : (ofNat n).value? = some (.int n) := by
  have hzeros : ¬ ((digitsOf n).head? = some '0' ∧ (digitsOf n).any (· != '0') = true) := by
    by_cases h : n = 0
    · subst h
      decide
    · exact fun hboth => head?_digitsOf h hboth.1
  show (if (digitsOf n).head? = some '0' ∧ (digitsOf n).any (· != '0') = true then none
    else some (Value.int (digitsValue (digitsOf n)))) = some (Value.int n)
  rw [if_neg hzeros, digitsValue_digitsOf]

/-- The digits of an exponent are at least two. -/
theorem exists_exponentText (e : Int) : ∃ digits : List Char,
    (exponentText e).toList = (if e < 0 then '-' else '+') :: digits ∧
      (∀ c ∈ digits, c.isDigit = true) ∧ digits ≠ [] ∧ digitsValue digits = e.natAbs := by
  have hsign : (if e < 0 then "-" else "+").toList = [if e < 0 then '-' else '+'] := by
    split <;> rfl
  unfold exponentText
  simp only [String.toList_append, hsign]
  -- A single digit gets a zero in front, which does not change the value.
  by_cases hshort : (toString e.natAbs).length < 2
  · rw [if_pos hshort]
    refine ⟨List.replicate 1 '0' ++ digitsOf e.natAbs, ?_, ?_, ?_, ?_⟩
    · rw [String.toList_append]
      rfl
    · exact isDigit_append isDigit_zeros isDigit_digitsOf
    · simp
    · rw [digitsValue_zeros_append 1 isDigit_digitsOf, digitsValue_digitsOf]
  · rw [if_neg hshort]
    exact ⟨digitsOf e.natAbs, rfl, isDigit_digitsOf, digitsOf_ne_nil _, digitsValue_digitsOf _⟩

/-- The text is that of a floating-point numeral that denotes the rational. -/
def Denotes (cs : List Char) (r : ℚ) : Prop :=
  ∃ n : Numeral, n.WellFormed ∧ n.text = cs ∧ n.decimal.value = r ∧
    (n.fraction.isSome || n.power.isSome) = true

section

variable (as bs : List Char) (ha : ∀ c ∈ as, c.isDigit = true) (hne : as ≠ [])
  (hb : ∀ c ∈ bs, c.isDigit = true)

include ha hne hb

/-- Digits around a point. -/
theorem denotes_point :
    Denotes (as ++ '.' :: bs) (digitsValue (as ++ bs) * 10 ^ (-(bs.length : Int))) := by
  refine ⟨⟨as, some bs, none⟩, ⟨ha, hne, hb, by simp⟩, ?_, ?_, rfl⟩
  · simp [text, fractionText, powerText]
  · simp [decimal, exponent, Decimal.value]

/-- Digits around a point, which is left out when no digits are behind it, and an exponent. -/
theorem denotes_power (e : Int) :
    Denotes (as ++ (if bs.isEmpty then [] else '.' :: bs) ++ 'e' :: (exponentText e).toList)
      (digitsValue (as ++ bs) * 10 ^ (e - bs.length)) := by
  obtain ⟨digits, htext, hdigits, hdigitsne, hvalue⟩ := exists_exponentText e
  have hpower : ∀ p ∈ some (decide (e < 0), digits),
      (∀ c ∈ p.2, c.isDigit = true) ∧ p.2 ≠ [] := by
    intro p hp
    obtain rfl := Option.some.inj hp
    exact ⟨hdigits, hdigitsne⟩
  -- The sign is written apart from the digits, and put together again by the reader.
  have hexponent : ∀ (whole : List Char) (fraction : Option (List Char)),
      exponent ⟨whole, fraction, some (decide (e < 0), digits)⟩ = e := by
    intro whole fraction
    by_cases h : e < 0
    · simp only [exponent, decide_eq_true h, hvalue]
      omega
    · simp only [exponent, decide_eq_false h, hvalue]
      omega
  rw [htext]
  by_cases hempty : bs = []
  · refine ⟨⟨as, none, some (decide (e < 0), digits)⟩, ⟨ha, hne, by simp, hpower⟩, ?_, ?_, rfl⟩
    · simp [text, fractionText, powerText, hempty]
    · simp [decimal, hexponent, Decimal.value, hempty]
  · refine ⟨⟨as, some bs, some (decide (e < 0), digits)⟩, ⟨ha, hne, hb, hpower⟩, ?_, ?_, rfl⟩
    · simp [text, fractionText, powerText, hempty]
    · simp [decimal, hexponent, Decimal.value]

end

/-! ### Layouts of digits -/

section

variable (digits : List Char) (hdigits : ∀ c ∈ digits, c.isDigit = true)

include hdigits

/-- Zeros stand between the point and the digits. -/
theorem denotes_zeros_digits (n : Nat) : Denotes ('0' :: '.' :: (List.replicate n '0' ++ digits))
    (digitsValue digits * 10 ^ (-(n + digits.length : Int))) := by
  have h := denotes_point ['0'] _ (by simp) (by simp) (isDigit_append (isDigit_zeros (n := n)) hdigits)
  have hvalue : digitsValue (['0'] ++ (List.replicate n '0' ++ digits)) = digitsValue digits := by
    show digitsValue (List.replicate 1 '0' ++ _) = _
    rw [digitsValue_zeros_append 1 (isDigit_append isDigit_zeros hdigits),
      digitsValue_zeros_append n hdigits]
  rw [hvalue, List.length_append, List.length_replicate, Nat.cast_add] at h
  exact h

variable (hne : digits ≠ [])

include hne

/-- Zeros stand between the digits and the point, and one behind it. -/
theorem denotes_digits_zeros (n : Nat) :
    Denotes (digits ++ List.replicate n '0' ++ ['.', '0']) (digitsValue digits * 10 ^ n) := by
  have h := denotes_point _ ['0'] (isDigit_append hdigits (isDigit_zeros (n := n)))
    (List.append_ne_nil_of_left_ne_nil hne _) (by simp)
  have hvalue : digitsValue (digits ++ List.replicate n '0' ++ ['0']) = digitsValue digits * 10 ^ (n + 1) := by
    show digitsValue (digits ++ List.replicate n '0' ++ List.replicate 1 '0') = _
    rw [List.append_assoc, List.replicate_append_replicate, digitsValue_append_zeros _ hdigits]
  have htenth : (10 : ℚ) ^ (n + 1) * 10 ^ (-(['0'].length : Int)) = 10 ^ n := by
    rw [List.length_singleton, Nat.cast_one, zpow_neg_one, pow_succ, mul_assoc,
      mul_inv_cancel₀ (by norm_num), mul_one]
  rw [hvalue, Nat.cast_mul, Nat.cast_pow, Nat.cast_ofNat, mul_assoc, htenth] at h
  exact h

/-- The point stands behind some of the digits. -/
theorem denotes_split {n : Nat} (hn : 0 < n) : Denotes (digits.take n ++ '.' :: digits.drop n)
    (digitsValue digits * 10 ^ (-(digits.length - n : Nat) : Int)) := by
  have h := denotes_point (digits.take n) (digits.drop n)
    (fun c hc => hdigits c (List.mem_of_mem_take hc))
    (mt List.take_eq_nil_iff.1 (not_or.2 ⟨hn.ne', hne⟩))
    (fun c hc => hdigits c (List.mem_of_mem_drop hc))
  rwa [List.take_append_drop, List.length_drop] at h

/-- The point stands behind the first digit, and an exponent follows. -/
theorem denotes_scientific (e : Int) :
    Denotes (digits.take 1 ++ (if (digits.drop 1).isEmpty then [] else '.' :: digits.drop 1) ++
      'e' :: (exponentText e).toList) (digitsValue digits * 10 ^ (e - (digits.length - 1 : Nat))) := by
  have h := denotes_power (digits.take 1) (digits.drop 1)
    (fun c hc => hdigits c (List.mem_of_mem_take hc))
    (mt List.take_eq_nil_iff.1 (not_or.2 ⟨one_ne_zero, hne⟩))
    (fun c hc => hdigits c (List.mem_of_mem_drop hc)) e
  rwa [List.take_append_drop, List.length_drop] at h

end

/-- The layout of a decimal denotes it. -/
theorem denotes_layOut (x : Decimal) : Denotes (layOut plain x).toList x.value := by
  have hdigits : ∀ c ∈ digitsOf x.digits, c.isDigit = true := isDigit_digitsOf
  have hne := digitsOf_ne_nil x.digits
  have hdef : (toString x.digits).toList = digitsOf x.digits := rfl
  rw [Decimal.value, ← digitsValue_digitsOf x.digits]
  unfold layOut
  simp only [hdef]
  generalize digitsOf x.digits = digits at hdigits hne
  have hlength : 0 < digits.length := List.length_pos_iff.2 hne
  -- Where the point falls decides the layout: in front of the digits, behind them, among them, or beside an
  -- exponent.
  obtain ⟨point, hpoint⟩ : ∃ p : Int, p = digits.length + x.exponent := ⟨_, rfl⟩
  rw [← hpoint]
  split
  · split
    · have hexponent : x.exponent = -(((-point).toNat : Int) + digits.length) := by omega
      rw [hexponent]
      simpa [zeros] using denotes_zeros_digits digits hdigits (-point).toNat
    · split
      · have hexponent : x.exponent = ((point.toNat - digits.length : Nat) : Int) := by omega
        rw [hexponent, zpow_natCast]
        simpa [zeros] using denotes_digits_zeros digits hdigits hne (point.toNat - digits.length)
      · have hexponent : x.exponent = -((digits.length - point.toNat : Nat) : Int) := by omega
        rw [hexponent]
        simpa using denotes_split digits hdigits hne (n := point.toNat) (by omega)
  · have hexponent : x.exponent = point - 1 - ((digits.length - 1 : Nat) : Int) := by omega
    have hfraction : (if (digits.drop 1).isEmpty then (if plain.pointedMantissa then ".0" else "")
        else "." ++ String.ofList (digits.drop 1)).toList =
          if (digits.drop 1).isEmpty then [] else '.' :: digits.drop 1 := by
      cases (digits.drop 1).isEmpty <;> simp [plain]
    rw [hexponent, String.toList_append, String.toList_append, String.toList_append, hfraction]
    simpa using denotes_scientific digits hdigits hne (point - 1)

/-! ### Floating-point numbers -/

variable {d : Double}

/-- A finite number is written as a numeral that denotes it, behind a minus when it is negative. -/
theorem exists_of_isFinite (h : d.isFinite = true) : ∃ n : Numeral, n.WellFormed ∧
    (render plain d).toList = (if d.isNegative then ['-'] else []) ++ n.text ∧
      n.value? = some (.float d.unsigned) := by
  have hfield : d.exponentField ≠ 2047 := by simpa [Double.isFinite] using h
  have hnan : d.isNaN = false := by simp [Double.isNaN, hfield]
  have hinfinite : d.isInfinite = false := by simp [Double.isInfinite, hfield]
  have hsign : (if d.isNegative then "-" else "").toList = if d.isNegative then ['-'] else [] := by
    cases d.isNegative <;> rfl
  have hvalue : ∀ n : Numeral, (n.fraction.isSome || n.power.isSome) = true →
      n.value? = some (.float (Double.ofDecimal false n.decimal.digits n.decimal.exponent)) :=
    fun n hn => if_pos hn
  unfold render
  rw [hnan, hinfinite]
  obtain ⟨hunsignedfield, hunsignedfraction⟩ := d.unsigned_fields
  by_cases hzero : d.isZero = true
  · have hfields : d.exponentField = 0 ∧ d.fraction = 0 := by simpa [Double.isZero] using hzero
    refine ⟨⟨['0'], some ['0'], none⟩, ⟨by simp, by simp, by simp, by simp⟩, ?_, ?_⟩
    · simp [hzero, hsign, text, fractionText, powerText]
    · have hunsigned : Double.zero false = d.unsigned :=
        Double.eq_of_fields d.isNegative_unsigned.symm (hunsignedfield.trans hfields.1).symm
          (hunsignedfraction.trans hfields.2).symm
      rw [hvalue _ rfl, ← hunsigned]
      rfl
  · -- The shortest decimal lies within the rounding interval, so it is rounded back to the number.
    have hmantissa : 0 < d.mantissa := by
      have hnonzero : d.multiple ≠ 0 := mt Double.isZero_iff.2 hzero
      exact Nat.pos_of_ne_zero (left_ne_zero_of_mul hnonzero)
    obtain ⟨n, hn, htext, hdecimal, hfloat⟩ := denotes_layOut d.shortest
    have hcovers : d.Covers n.decimal.value := by
      rw [hdecimal]
      exact Double.covers_shortest hmantissa
    refine ⟨n, hn, ?_, ?_⟩
    · simp [hzero, hsign, htext]
    · rw [hvalue n hfloat, Double.ofDecimal_false_of_covers h hmantissa hcovers]

end Numeral

end Code

end DataShapes
