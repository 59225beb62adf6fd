import DataShapes.Text.Quoted
import Mathlib.Algebra.Ring.Nat

/-!
# Text literals of the stub language

A text literal stands between single or double quotes on one line.  A backslash starts an escape: a quote, a
backslash, the letter of a control character, an octal or a hexadecimal code point; a line end behind it is
skipped, and in front of any other character it stands for itself.  What a literal denotes is a row of code
points, since a hexadecimal escape may give half of a pair.  Literals in three quotes, literals behind a prefix
and escapes by the name of a character are left out.

Main definitions:
* `Code.readEscape`, `Code.readBody`, `Code.readText`: the code points of a literal, and the rest;
* `Code.textOf?`: the text with the given code points.

Main statement:
* `Code.readText_quote`: a quoted text is read back.
-/

namespace DataShapes

namespace Text

/-! ### Hexadecimal digits -/

/-- A written digit is read back. -/
theorem hexValue_hexDigit : ∀ d < 16, hexValue? (hexDigit d) = some d := by decide

/-- As many digits as a number has give it back. -/
theorem hexNumber_hex {width n : Nat} (h : n < 16 ^ width) : hexNumber? (hex width n) = some n := by
  induction width generalizing n with
  | zero =>
    obtain rfl : n = 0 := by simpa using h
    rfl
  | succ width ih =>
    have hhigh : n / 16 < 16 ^ width := Nat.div_lt_of_lt_mul (by rwa [Nat.pow_succ, Nat.mul_comm] at h)
    have hlast := hexValue_hexDigit (n % 16) (Nat.mod_lt _ (by decide))
    have hfront := ih hhigh
    unfold hexNumber? at hfront ⊢
    rw [hex, List.foldlM_append, hfront]
    simp [hlast]
    omega

end Text

namespace Code

/-! ### Reading -/

/-- The code point of the character that a letter behind a backslash stands for. -/
def letterPoint? : Char → Option Nat
  | '\\' => some 0x5C
  | '\'' => some 0x27
  | '"' => some 0x22
  | 'a' => some 0x07
  | 'b' => some 0x08
  | 'f' => some 0x0C
  | 'n' => some 0x0A
  | 'r' => some 0x0D
  | 't' => some 0x09
  | 'v' => some 0x0B
  | _ => none

/-- A code point in so many hexadecimal digits, and the rest. -/
def readHex (width : Nat) (cs : List Char) : Option (Nat × List Char) := do
  let n ← Text.hexNumber? (cs.take width)
  if cs.length < width ∨ 0x110000 ≤ n then none
  return (n, cs.drop width)

/-- One of the eight digits. -/
def isOctal (c : Char) : Bool := '0' ≤ c && c ≤ '7'

/-- The code points that an escape denotes, and the rest behind it. -/
def readEscape : List Char → Option (List Nat × List Char)
  | [] => none
  | c :: cs =>
    if c = 'x' then (readHex 2 cs).map fun p => ([p.1], p.2)
    else if c = 'u' then (readHex 4 cs).map fun p => ([p.1], p.2)
    else if c = 'U' then (readHex 8 cs).map fun p => ([p.1], p.2)
    else if c = 'N' then none
    else if c = '\n' then some ([], cs)
    else
      match letterPoint? c with
      | some n => some ([n], cs)
      | none =>
        let octal := ((c :: cs).take 3).takeWhile isOctal
        if octal.isEmpty then some ([0x5C, c.toNat], cs)
        else some ([octal.foldl (fun n d => n * 8 + (d.toNat - '0'.toNat)) 0], (c :: cs).drop octal.length)

/-- The code points up to the closing quote, and the rest.  `fuel` bounds the number of steps. -/
def readBody (quote : Char) : Nat → List Char → Option (List Nat × List Char)
  | 0, _ => none
  | _ + 1, [] => none
  | fuel + 1, c :: cs =>
    if c = quote then some ([], cs)
    else if c = '\\' then do
      let (first, cs) ← readEscape cs
      let (more, rest) ← readBody quote fuel cs
      return (first ++ more, rest)
    else if c = '\n' ∨ c = '\r' then none
    else do
      let (more, rest) ← readBody quote fuel cs
      return (c.toNat :: more, rest)

/-- The code points of a text literal, and the rest. -/
def readText : List Char → Option (List Nat × List Char)
  | [] => none
  | quote :: cs =>
    if (quote = '\'' ∨ quote = '"') ∧ ¬ [quote, quote].isPrefixOf cs then
      readBody quote (cs.length + 1) cs
    else none

/-- The text with the given code points, when all of them are characters. -/
def textOf? (points : List Nat) : Option String :=
  if points.all fun n => n.isValidChar then some (String.ofList (points.map Char.ofNat)) else none

/-! ### Reading back -/

/-- The code points of a text make the text again. -/
theorem textOf_points (s : String) : textOf? (s.toList.map Char.toNat) = some s := by
  have hall : (s.toList.map Char.toNat).all (fun n => n.isValidChar) = true := by
    rw [List.all_eq_true]
    intro n hn
    obtain ⟨c, -, rfl⟩ := List.mem_map.1 hn
    exact decide_eq_true c.valid
  rw [textOf?, if_pos hall, List.map_map]
  simp [Function.comp_def]

/-- A code point in as many digits as it needs is read back. -/
theorem readHex_append (width : Nat) {n : Nat} (h : n < 16 ^ width) (hn : n < 0x110000) (cs : List Char) :
    readHex width (Text.hex width n ++ cs) = some (n, cs) := by
  have htake : (Text.hex width n ++ cs).take width = Text.hex width n :=
    List.take_left' (Text.length_hex width n)
  have hdrop : (Text.hex width n ++ cs).drop width = cs := List.drop_left' (Text.length_hex width n)
  simp [readHex, htake, hdrop, Text.hexNumber_hex h, hn]

theorem toNat_lt (c : Char) : c.toNat < 0x110000 := by
  have h := c.valid
  rcases h with h | h
  · exact Nat.lt_trans h (by decide)
  · exact h.2

/-- The code point of a character is read as the character. -/
theorem readEscape_codePoint (c : Char) (cs : List Char) :
    ∃ escape, Quoted.codePoint c = '\\' :: escape ∧
      readEscape (escape ++ cs) = some ([c.toNat], cs) := by
  have hlt := toNat_lt c
  -- Two, four or eight digits, whichever are enough.
  unfold Quoted.codePoint
  split
  · refine ⟨_, rfl, ?_⟩
    simp [readEscape, readHex_append 2 ‹_› hlt]
  · split
    · refine ⟨_, rfl, ?_⟩
      simp [readEscape, readHex_append 4 ‹_› hlt]
    · refine ⟨_, rfl, ?_⟩
      have h8 : c.toNat < 16 ^ 8 := Nat.lt_trans hlt (by decide)
      simp [readEscape, readHex_append 8 h8 hlt]

/-- The letter of a character is read as the character. -/
theorem readEscape_letter {q c l : Char} (hq : q = '\'' ∨ q = '"') (h : Quoted.letter? q c = some l)
    (cs : List Char) : readEscape (l :: cs) = some ([c.toNat], cs) := by
  have hletter : ∀ {d : Char}, l = d → d ∈ ['\\', '\'', '"', 'n', 'r', 't'] →
      readEscape (l :: cs) = (letterPoint? d).map fun n => ([n], cs) := by
    rintro d rfl hd
    simp only [List.mem_cons, List.not_mem_nil, or_false] at hd
    rcases hd with rfl | rfl | rfl | rfl | rfl | rfl <;> rfl
  unfold Quoted.letter? at h
  -- One case for each letter; the quote is escaped when it is the one around the text.
  split_ifs at h with hbackslash hquote hline hreturn htab
  · rw [hletter (Option.some.inj h).symm (by simp), hbackslash]
    rfl
  · subst hquote
    rw [hletter (Option.some.inj h).symm (by rcases hq with rfl | rfl <;> simp)]
    rcases hq with rfl | rfl <;> rfl
  · rw [hletter (Option.some.inj h).symm (by simp), hline]
    rfl
  · rw [hletter (Option.some.inj h).symm (by simp), hreturn]
    rfl
  · rw [hletter (Option.some.inj h).symm (by simp), htab]
    rfl

/-- A character without a letter may stand for itself. -/
theorem of_letter_eq_none {q c : Char} (h : Quoted.letter? q c = none) :
    c ≠ '\\' ∧ c ≠ q ∧ c ≠ '\n' ∧ c ≠ '\r' := by
  unfold Quoted.letter? at h
  split_ifs at h with hbackslash hquote hline hreturn htab
  exact ⟨hbackslash, hquote, hline, hreturn⟩

variable {q : Char} (hq : q = '\'' ∨ q = '"')

include hq

theorem backslash_ne : '\\' ≠ q := by
  rintro rfl
  rcases hq with h | h <;> cases h

/-- Each character between quotes is read back. -/
theorem readBody_escape (fuel : Nat) (c : Char) (cs : List Char) :
    readBody q (fuel + 1) (Quoted.escape q c ++ cs) =
      (readBody q fuel cs).map fun p => (c.toNat :: p.1, p.2) := by
  have hbackslash := backslash_ne hq
  -- An escape is read by its own reader, and the text goes on behind it.
  have hescaped : ∀ escape, readEscape (escape ++ cs) = some ([c.toNat], cs) →
      readBody q (fuel + 1) ('\\' :: escape ++ cs) =
        (readBody q fuel cs).map fun p => (c.toNat :: p.1, p.2) := by
    intro escape h
    rw [List.cons_append, readBody, if_neg hbackslash, if_pos rfl, h]
    simp only [Option.bind_eq_bind, Option.bind_some]
    cases readBody q fuel cs <;> rfl
  unfold Quoted.escape
  cases hletter : Quoted.letter? q c with
  | some l => exact hescaped [l] (readEscape_letter hq hletter cs)
  | none =>
    obtain ⟨hplain, hquote, hline⟩ := of_letter_eq_none hletter
    dsimp only
    split
    · rw [List.singleton_append, readBody, if_neg hquote, if_neg hplain, if_neg (not_or.2 hline)]
      cases readBody q fuel cs <;> rfl
    · obtain ⟨escape, hescape, hread⟩ := readEscape_codePoint c cs
      rw [hescape]
      exact hescaped escape hread

/-- The characters between quotes are read back. -/
theorem readBody_body (cs rest : List Char) {fuel : Nat} (hfuel : cs.length < fuel) :
    readBody q fuel (Quoted.body q cs ++ q :: rest) = some (cs.map Char.toNat, rest) := by
  induction cs generalizing fuel with
  | nil =>
    obtain ⟨fuel, rfl⟩ := Nat.exists_eq_succ_of_ne_zero (Nat.ne_zero_of_lt hfuel)
    exact if_pos rfl
  | cons c cs ih =>
    obtain ⟨fuel, rfl⟩ := Nat.exists_eq_succ_of_ne_zero (Nat.ne_zero_of_lt hfuel)
    rw [Quoted.body_cons, List.append_assoc, readBody_escape hq, ih (Nat.lt_of_succ_lt_succ hfuel)]
    rfl

/-- No character is written with the quote in front. -/
theorem exists_escape (c : Char) : ∃ d cs, Quoted.escape q c = d :: cs ∧ d ≠ q := by
  have hbackslash := backslash_ne hq
  unfold Quoted.escape
  cases hletter : Quoted.letter? q c with
  | some l => exact ⟨'\\', [l], rfl, hbackslash⟩
  | none =>
    dsimp only
    split
    · exact ⟨c, [], rfl, (of_letter_eq_none hletter).2.1⟩
    · obtain ⟨escape, hescape, -⟩ := readEscape_codePoint c []
      exact ⟨'\\', escape, hescape, hbackslash⟩

/-- Nothing gets shorter between quotes. -/
theorem length_le_body (cs : List Char) : cs.length ≤ (Quoted.body q cs).length := by
  induction cs with
  | nil => exact Nat.le_refl _
  | cons c cs ih =>
    obtain ⟨d, ds, hescape, -⟩ := exists_escape hq c
    rw [Quoted.body_cons, hescape]
    simp only [List.length_cons, List.length_append]
    omega

omit hq in
/-- Texts stand in one of two kinds of quotes. -/
theorem quoteFor_eq (cs : List Char) : Quoted.quoteFor cs = '\'' ∨ Quoted.quoteFor cs = '"' := by
  unfold Quoted.quoteFor
  split
  · exact .inr rfl
  · exact .inl rfl

omit hq in
/-- A quoted text is read back, when no quote stands behind it. -/
theorem readText_quote (s : String) {rest : List Char}
    (hrest : ∀ c ∈ rest.head?, c ≠ '\'' ∧ c ≠ '"') :
    readText ((Quoted.quote s).toList ++ rest) = some (s.toList.map Char.toNat, rest) := by
  have hq := quoteFor_eq s.toList
  unfold Quoted.quote
  rw [String.toList_ofList]
  generalize Quoted.quoteFor s.toList = q at hq
  -- Two quotes at the start would begin a long text with a third one.
  have hprefix : ¬ [q, q].isPrefixOf (Quoted.body q s.toList ++ q :: rest) = true := by
    cases s.toList with
    | nil =>
      cases rest with
      | nil => simp
      | cons c rest =>
        have hne : q ≠ c := by
          obtain ⟨hsingle, hdouble⟩ := hrest c rfl
          rcases hq with rfl | rfl
          · exact hsingle.symm
          · exact hdouble.symm
        simp [hne]
    | cons c cs =>
      obtain ⟨d, ds, hescape, hne⟩ := exists_escape hq c
      simp [hescape, hne.symm]
  have hlength : s.toList.length < (Quoted.body q s.toList ++ q :: rest).length + 1 := by
    have hbody := length_le_body hq s.toList
    rw [List.length_append, List.length_cons]
    omega
  rw [List.cons_append, List.cons_append, List.append_assoc, List.singleton_append, readText,
    if_pos ⟨hq, hprefix⟩]
  exact readBody_body hq s.toList rest hlength

end Code

end DataShapes
