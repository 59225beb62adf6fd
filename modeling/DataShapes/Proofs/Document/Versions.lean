import DataShapes.FormatVersion
import DataShapes.Proofs.Code.Numeral
import Mathlib.Data.List.TakeWhile

/-!
# Versions as they are spelled

A version is spelled by an optional letter and three rows of decimal digits with points between them.  A text is read
as a version exactly when it is such a spelling, but for blanks around it, and the text of a version is read as
that version again.  A document can be read when the major version is the supported one; its minor version is pointed
out when it is greater.  So only the numbers in the first two rows count, however they are spelled.

Main definitions:
* `FormatVersion.DigitRow`, `FormatVersion.Spelling`: a row of digits, and a version as it is spelled;
* `FormatVersion.Spelling.Spells`: a text is a spelling between blanks.

Main statements:
* `FormatVersion.ofChars_eq_some_iff`: what is read is what is spelled;
* `FormatVersion.parse_and_check`: reading and judging versions.
-/

namespace DataShapes

/-! ### Decimal digits -/

namespace Text

/-- The digits of decimal texts have the values that they have there. -/
theorem decimalDigit_of_isDigit {c : Char} (h : c.isDigit = true) :
    decimalDigit? c = some (c.toNat - '0'.toNat) := by
  obtain ⟨hlow, hhigh⟩ := Number.toNat_of_isDigit h
  have hfirst : (decide (0x30 ≤ c.toNat) && decide (c.toNat < 0x30 + 10)) = true := by
    simp only [Bool.and_eq_true, decide_eq_true_eq]
    omega
  have hruns : zeroDigits = 0x30 :: zeroDigits.tail := rfl
  rw [decimalDigit?, hruns, List.find?_cons, hfirst]
  rfl

/-- They are among the digits of all scripts. -/
theorem isDecimalDigit_of_isDigit {c : Char} (h : c.isDigit = true) : isDecimalDigit c = true := by
  rw [isDecimalDigit, decimalDigit_of_isDigit h]
  rfl

/-- Digits that a number is written with have the value that they are read with. -/
theorem decimalValue_digitsOf (n : Nat) : decimalValue (Number.digitsOf n) = n := by
  -- On ASCII digits the reader computes what the library does; by induction on the digits.
  have hsame : ∀ cs : List Char, (∀ c ∈ cs, c.isDigit = true) → ∀ value,
      cs.foldl (fun n c => n * 10 + (decimalDigit? c).getD 0) value = Nat.ofDigitChars 10 cs value := by
    intro cs
    induction cs with
    | nil => exact fun _ _ => rfl
    | cons c cs ih =>
      intro h value
      rw [List.foldl_cons, decimalDigit_of_isDigit (h c List.mem_cons_self), Nat.ofDigitChars_cons,
        ih fun d hd => h d (List.mem_cons_of_mem _ hd)]
      rw [Nat.mul_comm]
      rfl
  have hdigits : ∀ c ∈ Number.digitsOf n, c.isDigit = true := Number.isDigit_digitsOf
  unfold decimalValue
  rw [hsame _ hdigits, ← Number.digitsValue_eq hdigits, Number.digitsValue_digitsOf]

/-- The character is a zero of some script. -/
def isZeroDigit (c : Char) : Bool := decimalDigit? c == some 0

/-- Zeros in front do not change the value. -/
theorem decimalValue_dropWhile (cs : List Char) :
    decimalValue (cs.dropWhile isZeroDigit) = decimalValue cs := by
  induction cs with
  | nil => rfl
  | cons c cs ih =>
    by_cases hc : isZeroDigit c = true
    · have hzero : decimalDigit? c = some 0 := by simpa [isZeroDigit] using hc
      rw [List.dropWhile_cons_of_pos hc, ih]
      unfold decimalValue
      rw [List.foldl_cons, hzero]
      rfl
    · rw [List.dropWhile_cons_of_neg hc]

/-- No digit is blank. -/
theorem isBlank_of_isDecimalDigit {c : Char} (h : isDecimalDigit c = true) : isBlank c = false := by
  have hruns : ∀ z ∈ zeroDigits, ∀ d < 10, CodeRange.covers blankRanges (z + d) = false := by
    decide +kernel
  obtain ⟨d, hd⟩ := Option.isSome_iff_exists.1 h
  have hlt := decimalDigit?_lt hd
  obtain ⟨z, hz, rfl⟩ := Option.map_eq_some_iff.1 hd
  have hrun := List.find?_some hz
  simp only [Bool.and_eq_true, decide_eq_true_eq] at hrun
  have hcode : z + (c.toNat - z) = c.toNat := by omega
  have hblank := hruns z (List.mem_of_find?_eq_some hz) _ hlt
  rwa [hcode] at hblank

/-- Blanks around a text are dropped when it does not begin or end with one itself. -/
theorem trim_append {cs lead trail : List Char} (hlead : ∀ c ∈ lead, isBlank c = true)
    (htrail : ∀ c ∈ trail, isBlank c = true) (first : ∀ c ∈ cs.head?, isBlank c = false)
    (last : ∀ c ∈ cs.getLast?, isBlank c = false) (hne : cs ≠ []) : trim (lead ++ cs ++ trail) = cs := by
  -- Dropping blanks from the front stops at once; the end is treated as the front of the reverse.
  have keep : ∀ {l m : List Char}, l ≠ [] → (∀ c ∈ l.head?, isBlank c = false) →
      (l ++ m).dropWhile isBlank = l ++ m := by
    intro l m hl hhead
    obtain ⟨c, l, rfl⟩ := List.exists_cons_of_ne_nil hl
    rw [List.cons_append, List.dropWhile_cons_of_neg (by simp [hhead c rfl])]
  have hreverse : ∀ c ∈ cs.reverse.head?, isBlank c = false := by simpa [List.head?_reverse] using last
  unfold trim
  rw [List.append_assoc, List.dropWhile_append_of_pos hlead, keep hne first, List.reverse_append,
    List.dropWhile_append_of_pos fun c hc => htrail c (List.mem_reverse.1 hc)]
  have hkept := keep (m := []) (by simpa using hne) hreverse
  rw [List.append_nil] at hkept
  rw [hkept, List.reverse_reverse]

end Text

namespace FormatVersion

open Text

/-! ### Spellings -/

/-- A row of decimal digits of any script, at least one. -/
structure DigitRow where
  digits : List Char
  ne_nil : digits ≠ []
  isDecimalDigit : ∀ c ∈ digits, isDecimalDigit c = true

namespace DigitRow

/-- The number that a row denotes. -/
def value (r : DigitRow) : Nat := decimalValue r.digits

/-- The digits without the zeros in front. -/
def significant (r : DigitRow) : List Char := r.digits.dropWhile isZeroDigit

/-- A row of digits begins with a digit. -/
theorem exists_cons (r : DigitRow) : ∃ d ds, r.digits = d :: ds ∧ Text.isDecimalDigit d = true := by
  obtain ⟨d, ds, hds⟩ := List.exists_cons_of_ne_nil r.ne_nil
  exact ⟨d, ds, hds, r.isDecimalDigit d (by rw [hds]; exact List.mem_cons_self)⟩

/-- No row begins with the letter. -/
theorem head?_append_ne (r : DigitRow) (cs : List Char) : (r.digits ++ cs).head? ≠ some 'v' := by
  obtain ⟨d, ds, hds, hd⟩ := r.exists_cons
  rw [hds]
  intro hletter
  obtain rfl := Option.some.inj hletter
  exact absurd hd (by decide)

/-- The row of digits that a number is written with. -/
def ofNat (n : Nat) : DigitRow where
  digits := Number.digitsOf n
  ne_nil := Number.digitsOf_ne_nil n
  isDecimalDigit c hc := isDecimalDigit_of_isDigit (Number.isDigit_digitsOf c hc)

/-- The row of a number has the value of the number. -/
theorem value_ofNat (n : Nat) : (ofNat n).value = n := decimalValue_digitsOf n

/-- Zeros in front do not count. -/
theorem value_eq_of_significant_eq {r r' : DigitRow} (h : r.significant = r'.significant) :
    r.value = r'.value := by
  unfold value
  rw [← decimalValue_dropWhile r.digits, ← decimalValue_dropWhile r'.digits]
  exact congrArg decimalValue h

end DigitRow

/-- A version as it is spelled: whether there is a letter, and three rows of digits. -/
structure Spelling where
  letter : Bool
  major : DigitRow
  minor : DigitRow
  patch : DigitRow

namespace Spelling

/-- The characters of a spelling. -/
def chars (s : Spelling) : List Char :=
  (if s.letter then ['v'] else []) ++ (s.major.digits ++ '.' :: (s.minor.digits ++ '.' :: s.patch.digits))

/-- The version that is spelled. -/
def version (s : Spelling) : FormatVersion := ⟨s.major.value, s.minor.value, s.patch.value⟩

/-- The text is the spelling with blanks around it. -/
def Spells (s : Spelling) (text : String) : Prop :=
  ∃ lead trail, (∀ c ∈ lead, isBlank c = true) ∧ (∀ c ∈ trail, isBlank c = true) ∧
    text.toList = lead ++ s.chars ++ trail

/-- The first two rows are the same but for zeros in front. -/
def Alike (s s' : Spelling) : Prop :=
  s.major.significant = s'.major.significant ∧ s.minor.significant = s'.minor.significant

/-- A spelling begins with the letter or with a digit. -/
theorem isBlank_head (s : Spelling) : ∀ c ∈ s.chars.head?, isBlank c = false := by
  intro c hc
  unfold chars at hc
  split at hc
  · obtain rfl : 'v' = c := Option.some.inj hc
    decide
  · obtain ⟨d, ds, hds, hd⟩ := s.major.exists_cons
    rw [hds] at hc
    obtain rfl : d = c := Option.some.inj hc
    exact isBlank_of_isDecimalDigit hd

/-- It ends with a digit. -/
theorem isBlank_getLast (s : Spelling) : ∀ c ∈ s.chars.getLast?, isBlank c = false := by
  intro c hc
  have hlast : s.chars.getLast? = s.patch.digits.getLast? := by
    obtain ⟨d, ds, hds⟩ := List.exists_cons_of_ne_nil s.patch.ne_nil
    simp [chars, List.getLast?_append, List.getLast?_cons, hds]
  rw [hlast] at hc
  exact isBlank_of_isDecimalDigit (s.patch.isDecimalDigit c (List.mem_of_getLast? hc))

theorem chars_ne_nil (s : Spelling) : s.chars ≠ [] := by simp [chars]

/-- Only blanks stand around a spelling. -/
theorem Spells.trim_eq {s : Spelling} {text : String} (h : s.Spells text) :
    trim text.toList = s.chars := by
  obtain ⟨lead, trail, hlead, htrail, htext⟩ := h
  rw [htext]
  exact trim_append hlead htrail s.isBlank_head s.isBlank_getLast s.chars_ne_nil

end Spelling

/-! ### Reading spellings -/

/-- No digit goes on with a row. -/
def EndsRow (cs : List Char) : Prop := ∀ c ∈ cs.head?, isDecimalDigit c = false

/-- A point ends a row of digits. -/
theorem endsRow_point (cs : List Char) : EndsRow ('.' :: cs) := by
  intro c hc
  obtain rfl := Option.some.inj hc
  decide

/-- What ends a row of digits has no digit in front. -/
theorem EndsRow.span_eq {cs : List Char} (h : EndsRow cs) :
    cs.takeWhile isDecimalDigit = [] ∧ cs.dropWhile isDecimalDigit = cs := by
  cases cs with
  | nil => exact ⟨rfl, rfl⟩
  | cons c cs => simp [h c rfl]

/-- A row of digits is read as far as it goes. -/
theorem spanNumber_eq_some_iff {cs rest : List Char} {n : Nat} :
    spanNumber cs = some (n, rest) ↔ ∃ r : DigitRow, cs = r.digits ++ rest ∧ EndsRow rest ∧ r.value = n := by
  unfold spanNumber
  rw [List.span_eq_takeWhile_dropWhile]
  constructor
  · -- What is taken are the digits in front; what is left does not begin with one.
    intro h
    split at h
    · cases h
    · rename_i digits rest' hne heq
      obtain ⟨hdigits, hrest⟩ := Prod.mk.inj heq
      obtain ⟨hvalue, hsame⟩ := Prod.mk.inj (Option.some.inj h)
      refine ⟨⟨digits, hne, fun c hc => ?_⟩, ?_, ?_, hvalue⟩
      · rw [← hdigits] at hc
        exact List.mem_takeWhile_imp hc
      · show cs = digits ++ rest
        rw [← hsame, ← hdigits, ← hrest, List.takeWhile_append_dropWhile]
      · intro c hc
        rw [← hsame, ← hrest] at hc
        have hnot := List.head?_dropWhile_not isDecimalDigit cs
        rw [Option.mem_def.1 hc] at hnot
        simpa using hnot
  · rintro ⟨r, rfl, hends, rfl⟩
    obtain ⟨htake, hdrop⟩ := hends.span_eq
    rw [List.takeWhile_append_of_pos r.isDecimalDigit, List.dropWhile_append_of_pos r.isDecimalDigit, htake,
      hdrop, List.append_nil]
    split
    · rename_i heq
      exact absurd (Prod.mk.inj heq).1 r.ne_nil
    · rename_i heq
      obtain ⟨rfl, rfl⟩ := Prod.mk.inj heq
      rfl

/-- A part behind a point is a point with a row of digits, as long as it goes. -/
theorem spanPointed_eq_some_iff {cs rest : List Char} {n : Nat} :
    spanPointed cs = some (n, rest) ↔
      ∃ r : DigitRow, cs = '.' :: (r.digits ++ rest) ∧ EndsRow rest ∧ r.value = n := by
  unfold spanPointed
  split
  · rw [spanNumber_eq_some_iff]
    simp
  · rename_i hpoint
    constructor
    · nofun
    · rintro ⟨r, hcs, -, -⟩
      exact absurd hcs (hpoint _)

/-- A letter in front is dropped once. -/
theorem dropLetter_eq_iff {cs rest : List Char} (hrest : rest.head? ≠ some 'v') :
    dropLetter cs = rest ↔ ∃ letter : Bool, cs = (if letter then ['v'] else []) ++ rest := by
  unfold dropLetter
  split
  · constructor
    · rintro rfl
      exact ⟨true, rfl⟩
    · rintro ⟨letter, h⟩
      -- The rest begins with no letter, so at most one was there.
      cases letter with
      | true => exact (List.cons.inj h).2
      | false =>
        rw [← show 'v' :: _ = rest from h] at hrest
        exact absurd rfl hrest
  · rename_i hletter
    constructor
    · rintro rfl
      exact ⟨false, rfl⟩
    · rintro ⟨letter, h⟩
      cases letter with
      | true => exact absurd h (hletter rest)
      | false => exact h

/-- What is read is what is spelled. -/
theorem ofChars_eq_some_iff {cs : List Char} {v : FormatVersion} :
    ofChars? cs = some v ↔ ∃ s : Spelling, s.chars = cs ∧ s.version = v := by
  unfold ofChars?
  constructor
  · intro h
    obtain ⟨⟨major, behind⟩, hmajor, hminors⟩ := Option.bind_eq_some_iff.1 h
    obtain ⟨⟨minor, behind⟩, hminor, hpatches⟩ := Option.bind_eq_some_iff.1 hminors
    obtain ⟨⟨patch, rest⟩, hpatch, hend⟩ := Option.bind_eq_some_iff.1 hpatches
    -- Each of the three numbers is a row of digits behind what was read before.
    obtain ⟨a, hcs, -, rfl⟩ := spanNumber_eq_some_iff.1 hmajor
    obtain ⟨b, rfl, -, rfl⟩ := spanPointed_eq_some_iff.1 hminor
    obtain ⟨c, rfl, -, rfl⟩ := spanPointed_eq_some_iff.1 hpatch
    dsimp only at hend
    split at hend
    · rename_i hempty
      obtain rfl : rest = [] := by simpa using hempty
      rw [List.append_nil] at hcs
      obtain ⟨letter, hletter⟩ := (dropLetter_eq_iff (a.head?_append_ne _)).1 hcs
      exact ⟨⟨letter, a, b, c⟩, hletter.symm, Option.some.inj hend⟩
    · cases hend
  · rintro ⟨s, rfl, rfl⟩
    -- The first digit of the major number is no letter, so only the spelled one is dropped.
    have hletter : dropLetter s.chars =
        s.major.digits ++ '.' :: (s.minor.digits ++ '.' :: s.patch.digits) :=
      (dropLetter_eq_iff (s.major.head?_append_ne _)).2 ⟨s.letter, rfl⟩
    have hmajor := spanNumber_eq_some_iff.2 ⟨s.major, hletter, endsRow_point _, rfl⟩
    have hminor := spanPointed_eq_some_iff.2
      ⟨s.minor, rfl, endsRow_point s.patch.digits, rfl⟩
    have hpatch : spanPointed ('.' :: s.patch.digits) = some (s.patch.value, []) :=
      spanPointed_eq_some_iff.2 ⟨s.patch, by rw [List.append_nil], by simp [EndsRow], rfl⟩
    simp only [hmajor, hminor, hpatch, Option.bind_eq_bind, Option.bind_some]
    rfl

/-- The text of a version is a spelling of it. -/
theorem exists_spelling_text (v : FormatVersion) : ∃ s : Spelling, s.chars = v.text.toList ∧ s.version = v := by
  refine ⟨⟨false, .ofNat v.major, .ofNat v.minor, .ofNat v.patch⟩, ?_, ?_⟩
  · simp [Spelling.chars, DigitRow.ofNat, Number.digitsOf, text]
  · simp only [Spelling.version, DigitRow.value_ofNat]

/-- A text is a version exactly when it is a spelling between blanks. -/
theorem parse_eq_ok_iff {raw : String} {v : FormatVersion} :
    parse (.str raw) = .ok v ↔ ∃ s : Spelling, s.chars = trim raw.toList ∧ s.version = v := by
  rw [← ofChars_eq_some_iff, parse]
  cases ofChars? (trim raw.toList) with
  | none => simp
  | some w => simp

/-- A text that spells a version is read as that version. -/
theorem Spelling.Spells.parse_eq {s : Spelling} {raw : String} (h : s.Spells raw) :
    parse (.str raw) = .ok s.version := parse_eq_ok_iff.2 ⟨s, h.trim_eq.symm, rfl⟩

/-- A version is a spelling of itself without blanks around it. -/
theorem parse_text (v : FormatVersion) : parse (.str v.text) = .ok v := by
  obtain ⟨s, hchars, hversion⟩ := exists_spelling_text v
  have hspells : s.Spells v.text := ⟨[], [], by simp, by simp, by simp [hchars]⟩
  rw [hspells.parse_eq, hversion]

/-! ### Judging -/

/-- With the major version the same, a lower minor version is earlier, whatever the patches are. -/
theorem before_of_minor_lt {supported v : FormatVersion} (hmajor : v.major = supported.major)
    (hminor : supported.minor < v.minor) : before supported v = true := by
  simp [before, hmajor, hminor]

/-- A text that is read is judged by the version that it spells. -/
theorem check_of_parse {supported v : FormatVersion} {raw : String} (h : parse (.str raw) = .ok v) :
    check supported (.str raw) = judge supported v := by
  rw [check]
  · rw [h]
  · nofun

/-- What is no version is neither compatible nor newer. -/
theorem check_of_error {supported : FormatVersion} {raw : String} {p : Problem}
    (h : parse (.str raw) = .error p) :
    (check supported (.str raw)).compatible = false ∧ (check supported (.str raw)).isNewer = false := by
  rw [check]
  · rw [h]
    exact ⟨rfl, rfl⟩
  · nofun

/-- A text is compatible when it spells a version with the supported major part. -/
theorem compatible_check_iff {supported : FormatVersion} {raw : String} :
    (check supported (.str raw)).compatible = true ↔
      ∃ v, parse (.str raw) = .ok v ∧ v.major = supported.major := by
  cases h : parse (.str raw) with
  | error p => simp [(check_of_error h).1]
  | ok v => simp [check_of_parse h, compatible_judge]

/-- A text is newer when it spells a version with the supported major part and a higher minor one. -/
theorem isNewer_check_iff {supported : FormatVersion} {raw : String} :
    (check supported (.str raw)).isNewer = true ↔
      ∃ v, parse (.str raw) = .ok v ∧ v.major = supported.major ∧ supported.minor < v.minor := by
  cases h : parse (.str raw) with
  | error p => simp [(check_of_error h).2]
  | ok v => simp [check_of_parse h, isNewer_judge]

/-- Only the numbers in the first two rows count. -/
theorem Spelling.Alike.check_eq {s s' : Spelling} (h : s.Alike s') {raw raw' : String} (hraw : s.Spells raw)
    (hraw' : s'.Spells raw') (supported : FormatVersion) :
    (check supported (.str raw)).compatible = (check supported (.str raw')).compatible
      ∧ (check supported (.str raw)).isNewer = (check supported (.str raw')).isNewer := by
  have hmajor : s.version.major = s'.version.major := DigitRow.value_eq_of_significant_eq h.1
  have hminor : s.version.minor = s'.version.minor := DigitRow.value_eq_of_significant_eq h.2
  rw [check_of_parse hraw.parse_eq, check_of_parse hraw'.parse_eq, compatible_judge, compatible_judge,
    isNewer_judge, isNewer_judge, hmajor, hminor]
  exact ⟨rfl, rfl⟩

/-- Blanks around a text do not count, be it a version or not. -/
theorem check_eq_of_trim_eq {raw raw' : String} (h : trim raw.toList = trim raw'.toList) (supported : FormatVersion) :
    (check supported (.str raw)).compatible = (check supported (.str raw')).compatible
      ∧ (check supported (.str raw)).isNewer = (check supported (.str raw')).isNewer := by
  have hsame : ∀ v, parse (.str raw) = .ok v ↔ parse (.str raw') = .ok v := by
    intro v
    rw [parse_eq_ok_iff, parse_eq_ok_iff, h]
  refine ⟨Bool.eq_iff_iff.2 ?_, Bool.eq_iff_iff.2 ?_⟩
  · rw [compatible_check_iff, compatible_check_iff]
    exact exists_congr fun v => and_congr_left' (hsame v)
  · rw [isNewer_check_iff, isNewer_check_iff]
    exact exists_congr fun v => and_congr_left' (hsame v)

/-- Versions are read and judged exactly.  A text is a version when it is a spelling but for blanks around it, and
    the text of a version is read as that version.  A text is compatible with what is supported when it is a version
    with the same major version, and it is newer when its minor version is greater besides, so that the supported
    version comes before it.  Neither answer depends on the patch number, the letter, zeros in front of a number or
    blanks around the text. -/
theorem parse_and_check :
    (∀ raw v, parse (.str raw) = .ok v ↔ ∃ s : Spelling, s.chars = trim raw.toList ∧ s.version = v)
    ∧ (∀ v : FormatVersion, parse (.str v.text) = .ok v)
    ∧ (∀ supported raw,
        ((check supported (.str raw)).compatible = true ↔
          ∃ v, parse (.str raw) = .ok v ∧ v.major = supported.major)
        ∧ ((check supported (.str raw)).isNewer = true ↔
          ∃ v, parse (.str raw) = .ok v ∧ v.major = supported.major ∧ supported.minor < v.minor)
        ∧ ((check supported (.str raw)).isNewer = true →
          ∃ v, parse (.str raw) = .ok v ∧ before supported v = true))
    ∧ (∀ supported raw raw', trim raw.toList = trim raw'.toList →
        (check supported (.str raw)).compatible = (check supported (.str raw')).compatible
          ∧ (check supported (.str raw)).isNewer = (check supported (.str raw')).isNewer)
    ∧ ∀ supported (s s' : Spelling) raw raw', s.Alike s' → s.Spells raw → s'.Spells raw' →
        (check supported (.str raw)).compatible = (check supported (.str raw')).compatible
          ∧ (check supported (.str raw)).isNewer = (check supported (.str raw')).isNewer := by
  refine ⟨fun raw v => parse_eq_ok_iff, parse_text, fun supported raw =>
    ⟨compatible_check_iff, isNewer_check_iff, fun hnewer => ?_⟩, fun supported raw raw' h =>
    check_eq_of_trim_eq h supported, fun supported s s' raw raw' h hraw hraw' => h.check_eq hraw hraw' supported⟩
  obtain ⟨v, hv, hmajor, hminor⟩ := isNewer_check_iff.1 hnewer
  exact ⟨v, hv, before_of_minor_lt hmajor hminor⟩

/-- Version 0.4.1 with a letter, and with zeros in front of its numbers. -/
def sampleSpelling : Spelling where
  letter := true
  major := ⟨['0', '0'], by decide, List.all_eq_true.1 (by decide)⟩
  minor := ⟨['0', '4'], by decide, List.all_eq_true.1 (by decide)⟩
  patch := ⟨['1'], by decide, List.all_eq_true.1 (by decide)⟩

/-- Version 0.4.12 in digits of two scripts. -/
def otherSpelling : Spelling where
  letter := false
  major := ⟨['٠'], by decide, List.all_eq_true.1 (by decide)⟩
  minor := ⟨['4'], by decide, List.all_eq_true.1 (by decide)⟩
  patch := ⟨['١', '2'], by decide, List.all_eq_true.1 (by decide)⟩

/-- A newer minor version is pointed out in both spellings, with blanks around them or not. -/
theorem parse_and_check_spellings :
    sampleSpelling.Alike otherSpelling ∧ sampleSpelling.Spells " v00.04.1\n" ∧ otherSpelling.Spells "٠.4.١2"
      ∧ parse (.str "٠.4.١2") = .ok ⟨0, 4, 12⟩
      ∧ (check current (.str "٠.4.١2")).isNewer = true ∧ (check current (.str " v00.04.1\n")).isNewer = true := by
  have halike : sampleSpelling.Alike otherSpelling := ⟨by decide, by decide⟩
  have hsample : sampleSpelling.Spells " v00.04.1\n" :=
    ⟨[' '], ['\n'], List.all_eq_true.1 (by decide), List.all_eq_true.1 (by decide), by decide⟩
  have hother : otherSpelling.Spells "٠.4.١2" := ⟨[], [], nofun, nofun, by decide⟩
  obtain ⟨hparse, -, hcheck, -, hsame⟩ := parse_and_check
  have hread : parse (.str "٠.4.١2") = .ok ⟨0, 4, 12⟩ :=
    (hparse _ _).2 ⟨otherSpelling, hother.trim_eq.symm, by decide⟩
  have hnewer : (check current (.str "٠.4.١2")).isNewer = true :=
    (hcheck current _).2.1.2 ⟨_, hread, by decide, by decide⟩
  exact ⟨halike, hsample, hother, hread, hnewer, ((hsame current _ _ _ _ halike hsample hother).2).trans hnewer⟩

end FormatVersion

end DataShapes
