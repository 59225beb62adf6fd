import DataShapes.Proofs.Json.Reading
import DataShapes.Proofs.Yaml.Pages
import DataShapes.Text.Lines

/-!
# Block mappings are not JSON

The YAML text of a dictionary that is not empty begins with its first key and a colon.  A key that is not
in double quotes begins like no text and no bracket of JSON, and a colon is left over behind it.  In
double quotes the two formats agree on where the key ends, although not on what it says, so the colon is
left over as well.

Main definitions:
* `Yaml.Page.escaped`: what a character is written as in double quotes.

Main statements:
* `Yaml.writeKey_starts`: how a key at the start of a document begins;
* `Yaml.Page.eq_of_readString`: where a key in double quotes ends;
* `Yaml.read_render_eq_none`: the text of a dictionary has no value as JSON.
-/

namespace DataShapes

namespace Yaml

namespace Page

/-- A mark is written behind the page, with a space where one is needed. -/
theorem toList_indicator (mark : String) (needsSpace staysFresh : Bool) (p : Page) :
    ∃ space, (p.indicator mark needsSpace staysFresh).text.toList =
      p.text.toList ++ space ++ mark.toList := by
  unfold indicator text write
  simp only [String.toList_ofList, List.reverse_append, List.reverse_reverse]
  split
  · exact ⟨[], by rw [List.append_nil]⟩
  · exact ⟨[' '], by rw [List.append_assoc]; rfl⟩

/-! ### Double quotes -/

/-- What a character is written as in double quotes. -/
def escaped (c : Char) : List Char :=
  if isLiteralChar c then [c]
  else
    match escapeLetter? c with
    | some l => ['\\', l]
    | none => escapeCode c

/-- On one line, the characters are written one after the other. -/
theorem reversed_doubleParts (indent length : Nat) (cs : List Char) (place : Nat) (held : List Char)
    (p : Page) :
    (p.doubleParts false indent length cs place held).reversed =
      (cs.flatMap escaped).reverse ++ (held ++ p.reversed) := by
  induction cs generalizing place held p with
  | nil =>
    show held.reverse.reverse ++ p.reversed = _
    rw [List.reverse_reverse]
    rfl
  | cons c cs ih =>
    unfold doubleParts
    by_cases hliteral : isLiteralChar c = true
    · -- A character that is written as it is waits for the next escape, or for the end.
      simp [hliteral, ih, escaped]
    · simp only [hliteral, Bool.false_eq_true, if_false, Bool.and_false, Bool.false_and]
      rw [ih]
      cases hletter : escapeLetter? c with
      | none => simp [escaped, hliteral, hletter, write]
      | some l => simp [escaped, hliteral, hletter, write]

/-- A key in double quotes at the start of a document, with the colon behind it. -/
theorem toList_doubleQuoted (key : String) {indent : Nat} :
    ((({} : Page).doubleQuoted false indent key).indicator ":" false false).text.toList =
      '"' :: (key.toList.flatMap escaped ++ ['"', ':']) := by
  have hclose : ∀ (mark : String) (p : Page),
      (p.indicator mark false false).reversed = mark.toList.reverse ++ p.reversed := by
    intro mark p
    simp [indicator, write]
  unfold text doubleQuoted
  rw [String.toList_ofList, hclose, hclose, reversed_doubleParts]
  simp [indicator, write]

/-- A letter behind a backslash never begins the code of a character for JSON. -/
theorem escapeLetter?_ne {c l : Char} (h : escapeLetter? c = some l) : l ≠ 'u' ∧ l ≠ '\r' := by
  obtain ⟨⟨a, b⟩, hfind, rfl⟩ := Option.map_eq_some_iff.1 h
  have hmem := List.mem_of_find?_eq_some hfind
  constructor
  · rintro (rfl : b = 'u')
    simp at hmem
  · rintro (rfl : b = '\r')
    simp at hmem

/-- What a character is written as: itself, or a backslash with a letter, with a code that JSON does not
    know, or with a code of four digits. -/
theorem escaped_cases (c : Char) :
    (escaped c = [c] ∧ c ≠ '"' ∧ c ≠ '\\') ∨ (∃ l, escaped c = ['\\', l] ∧ l ≠ 'u') ∨
      (∃ l digits, escaped c = '\\' :: l :: digits ∧ (l = 'x' ∨ l = 'U')) ∨
      ∃ h₁ h₂ h₃ h₄, escaped c = ['\\', 'u', h₁, h₂, h₃, h₄] := by
  unfold escaped
  split
  · rename_i hliteral
    refine .inl ⟨rfl, ?_, ?_⟩
    · rintro rfl
      exact absurd hliteral (by decide)
    · rintro rfl
      exact absurd hliteral (by decide)
  · split
    · rename_i l hl
      exact .inr (.inl ⟨l, rfl, (escapeLetter?_ne hl).1⟩)
    · unfold escapeCode
      simp only
      split
      · exact .inr (.inr (.inl ⟨'x', _, rfl, .inl rfl⟩))
      · split
        · have hlength : ((Text.hex 4 c.toNat).map Char.toUpper).length = 4 := by simp
          obtain ⟨h₁, h₂, h₃, h₄, hdigits⟩ := List.length_eq_four.1 hlength
          exact .inr (.inr (.inr ⟨h₁, h₂, h₃, h₄, by rw [hdigits]⟩))
        · exact .inr (.inr (.inl ⟨'U', _, rfl, .inr rfl⟩))

/-! ### Reading double quotes as JSON -/

/-- What is left of characters in double quotes: some of them, the quote and what stands behind it. -/
def LeftOf (rest left : List Char) : Prop := ∃ cs : List Char, left = cs.flatMap escaped ++ '"' :: rest

/-- A code of four digits is read as a whole. -/
theorem leftOf_of_readUnit {rest digits left : List Char} {n : Nat}
    (h : LeftOf rest ('\\' :: 'u' :: digits)) (hunit : Json.readUnit digits = some (n, left)) :
    LeftOf rest left := by
  obtain ⟨cs, hcs⟩ := h
  cases cs with
  | nil => exact absurd (List.cons_eq_cons.1 hcs).1 (by decide)
  | cons c cs =>
    rw [List.flatMap_cons, List.append_assoc] at hcs
    -- Of all that a character is written as, only the code of four digits has these two at its start.
    rcases escaped_cases c with ⟨hc, -, hne⟩ | ⟨l, hc, hl⟩ | ⟨l, _, hc, hl⟩ | ⟨h₁, h₂, h₃, h₄, hc⟩
    · rw [hc] at hcs
      exact absurd (List.cons_eq_cons.1 hcs).1.symm hne
    · rw [hc] at hcs
      exact absurd (List.cons_eq_cons.1 (List.cons_eq_cons.1 hcs).2).1.symm hl
    · rw [hc] at hcs
      rw [← (List.cons_eq_cons.1 (List.cons_eq_cons.1 hcs).2).1] at hl
      exact absurd hl (by decide)
    · rw [hc] at hcs
      have hdigits : digits = h₁ :: h₂ :: h₃ :: h₄ :: (cs.flatMap escaped ++ '"' :: rest) := by
        simpa using hcs
      rw [hdigits] at hunit
      obtain ⟨m, -, hm⟩ := Option.bind_eq_some_iff.1 hunit
      exact ⟨cs, (Prod.mk.inj (Option.some.inj hm)).2.symm⟩

/-- A pair of codes is read as a whole, and a code on its own leaves the next one. -/
theorem leftOf_joinUnits {rest left : List Char} (high : Nat) (h : LeftOf rest left) :
    LeftOf rest (Json.joinUnits high left).2 := by
  unfold Json.joinUnits
  simp only
  split
  · split
    · split
      · rename_i digits low left' hunit
        split
        · exact leftOf_of_readUnit h hunit
        · exact h
      · exact h
    · exact h
  · exact h

/-- As JSON, characters in double quotes end where they do as YAML. -/
theorem eq_of_readString {fuel : Nat} {rest left s r : List Char} (hleft : LeftOf rest left)
    (h : Json.readString fuel left = some (s, r)) : r = rest := by
  -- The reader takes one character or one escape at a time, and what it leaves is again of this form.
  induction fuel generalizing left s with
  | zero => exact absurd h nofun
  | succ fuel ih =>
    obtain ⟨cs, rfl⟩ := hleft
    cases cs with
    | nil => exact (Prod.mk.inj (Option.some.inj h)).2.symm
    | cons c cs =>
      rw [List.flatMap_cons, List.append_assoc] at h
      have hcs : LeftOf rest (cs.flatMap escaped ++ '"' :: rest) := ⟨cs, rfl⟩
      rcases escaped_cases c with ⟨hc, hquote, hbackslash⟩ | ⟨l, hc, hl⟩ | ⟨l, digits, hc, hl⟩ |
        ⟨h₁, h₂, h₃, h₄, hc⟩
      · rw [hc] at h
        obtain ⟨s', hs'⟩ := Json.readString_literal hquote hbackslash h
        exact ih hcs hs'
      · rw [hc] at h
        rcases Json.readString_backslash h with ⟨_, _, _, _, hu, -⟩ | ⟨_, left, s', heq, -, hs'⟩
        · exact absurd (List.cons_eq_cons.1 hu).1 hl
        · rw [← (List.cons_eq_cons.1 heq).2] at hs'
          exact ih hcs hs'
      · -- JSON knows no such code.
        rw [hc] at h
        rcases Json.readString_backslash h with ⟨_, _, _, _, hu, -⟩ | ⟨_, _, _, heq, hknown, -⟩
        · rw [(List.cons_eq_cons.1 hu).1] at hl
          exact absurd hl (by decide)
        · rw [← (List.cons_eq_cons.1 heq).1] at hknown
          rcases hl with rfl | rfl
          · exact absurd hknown (by decide)
          · exact absurd hknown (by decide)
      · -- After a code of four digits the reader may take a second one, when the two make a pair.
        rw [hc] at h
        rcases Json.readString_backslash h with ⟨_, high, left, s', hu, hunit, hs'⟩ |
          ⟨_, _, _, heq, hknown, -⟩
        · rw [← (List.cons_eq_cons.1 hu).2] at hunit
          have hleft : left = cs.flatMap escaped ++ '"' :: rest := by
            obtain ⟨n, -, hn⟩ := Option.bind_eq_some_iff.1 hunit
            exact (Prod.mk.inj (Option.some.inj hn)).2.symm
          rw [hleft] at hs'
          exact ih (leftOf_joinUnits high hcs) hs'
        · rw [← (List.cons_eq_cons.1 heq).1] at hknown
          exact absurd hknown (by decide)

end Page

open Page

/-! ### The first key -/

/-- The text begins like no text and no bracket of JSON, and a colon stands behind its beginning. -/
def StartsOutside (cs : List Char) : Prop :=
  ∃ c tail, cs = c :: tail ∧ c ∉ ['"', '[', '\x7b'] ∧ Json.isSpace c = false ∧ ':' ∈ tail

/-- What begins with such a character has one colon at least when one is written behind it. -/
theorem startsOutside_indicator {p q : Page} {c : Char} {tail : List Char} (hpq : p.Begins q)
    (hp : p.text.toList = c :: tail) (hstart : c ∉ ['"', '[', '\x7b']) (hspace : Json.isSpace c = false)
    (needsSpace staysFresh : Bool) :
    StartsOutside (q.indicator ":" needsSpace staysFresh).text.toList := by
  obtain ⟨more, hmore⟩ := hpq.exists_append
  obtain ⟨space, hcolon⟩ := toList_indicator ":" needsSpace staysFresh q
  refine ⟨c, tail ++ more ++ space ++ [':'], ?_, hstart, hspace, by simp⟩
  rw [hcolon, hmore, hp]
  rfl

/-- A key without quotes begins with a character that means nothing. -/
theorem start_of_plain {isKey : Bool} {key : String} {c : Char} {cs : List Char}
    (h : styleOf isKey key = .plain) (hkey : key.toList = c :: cs) :
    c ∉ ['"', '[', '\x7b'] ∧ Json.isSpace c = false := by
  have hallows : allowsPlain (c :: cs) = true := by
    unfold styleOf at h
    simp only at h
    split at h
    · rename_i hplain
      rw [← hkey]
      exact (Bool.and_eq_true_iff.1 hplain).2
    · split at h
      · exact absurd h nofun
      · exact absurd h nofun
  simp only [allowsPlain, Bool.and_eq_true, Bool.not_eq_true', List.all_eq_true] at hallows
  obtain ⟨⟨⟨⟨⟨-, hindicator⟩, -⟩, hends⟩, -⟩, hchars⟩ := hallows
  have hchar : isPlainChar c = true := hchars c List.mem_cons_self
  constructor
  · intro hc
    simp only [List.mem_cons, List.not_mem_nil, or_false] at hc
    rcases hc with rfl | rfl | rfl <;> simp [startsWithIndicator] at hindicator
  · by_contra hspace
    simp only [Json.isSpace, Bool.not_eq_false, Bool.or_eq_true, beq_iff_eq] at hspace
    -- Line ends and blanks at the front rule the plain style out, and a tab is no plain character.
    rcases hspace with ((rfl | rfl) | rfl) | rfl
    · simp [hasLooseEnd, isSpaceOrBreak] at hends
    · exact absurd hchar (by decide)
    · simp [hasLooseEnd, isSpaceOrBreak, isBreak] at hends
    · exact absurd hchar (by decide)

/-- A key without quotes, with the colon behind it, begins outside of what JSON allows. -/
theorem startsOutside_plain {isKey : Bool} {key : String} (hkey : key ≠ "")
    (hstyle : styleOf isKey key = .plain) (indent : Nat) (needsSpace staysFresh : Bool) :
    StartsOutside
      ((({} : Page).plain false indent key).indicator ":" needsSpace staysFresh).text.toList := by
  obtain ⟨c, cs, hcs⟩ : ∃ c cs, key.toList = c :: cs :=
    List.exists_cons_of_ne_nil fun hnil => hkey (String.toList_eq_nil_iff.1 hnil)
  obtain ⟨hstart, hspace⟩ := start_of_plain hstyle hcs
  have hword : (c :: cs).takeWhile (· != ' ') = c :: cs.takeWhile (· != ' ') := by
    refine List.takeWhile_cons_of_pos ?_
    simpa using fun hc : c = ' ' => absurd hspace (by rw [hc]; decide)
  have hbegins : (({} : Page).touched.write (key.toList.takeWhile (· != ' '))).Begins
      (({} : Page).plain false indent key) := begins_firstWord _ _ _ _ _
  have htext : (({} : Page).touched.write (key.toList.takeWhile (· != ' '))).text.toList =
      c :: cs.takeWhile (· != ' ') := by
    rw [hcs, hword]
    simp [text, write, touched]
  exact startsOutside_indicator hbegins htext hstart hspace _ _

/-- A key at the start of a document begins outside of what JSON allows, or stands in double quotes. -/
theorem writeKey_starts (key : String) :
    StartsOutside (writeKey 0 key {}).text.toList ∨
      (writeKey 0 key {}).text.toList = '"' :: (key.toList.flatMap escaped ++ ['"', ':']) := by
  have hfresh : ({} : Page).toIndent 0 = {} := rfl
  unfold writeKey
  rw [hfresh]
  split
  · rename_i hsimple
    unfold writeText
    simp only
    split
    · rename_i hstyle
      have hkey : key ≠ "" := by
        rintro rfl
        simp [isSimpleKey] at hsimple
      exact .inl (startsOutside_plain hkey hstyle _ _ _)
    · have hquote : (({} : Page).indicator "'" true false).text.toList = ['\''] := rfl
      exact .inl (startsOutside_indicator (begins_singleQuoted _ _ _ _) hquote (by decide) rfl _ _)
    · exact .inr (toList_doubleQuoted key)
  · -- A key that is not simple stands behind a question mark, whatever its style.
    have hmark : (({} : Page).indicator "?" true true).text.toList = ['?'] := rfl
    have hbegins := (begins_writeText false (some 0) key (({} : Page).indicator "?" true true)).trans
      (begins_toIndent 0 _)
    exact .inl (startsOutside_indicator hbegins hmark (by decide) rfl _ _)

/-! ### Documents -/

/-- The text of a dictionary begins with its first key. -/
theorem exists_render_eq (key : String) (v : Value) (es : List (Value × Value)) :
    ∃ more, (render (.dict ((.str key, v) :: es))).toList = (writeKey 0 key {}).text.toList ++ more := by
  have hbegins : (writeKey 0 key {}).Begins
      ((writeNode false none (.dict ((.str key, v) :: es)) {}).toIndent 0) :=
    ((begins_writeNode true (some 0) v _).trans (begins_writeEntries 0 es _)).trans (begins_toIndent 0 _)
  obtain ⟨more, hmore⟩ := hbegins.exists_append
  refine ⟨more, ?_⟩
  rw [← hmore]
  unfold render
  simp [isPlainScalar]

/-- Hexadecimal digits are no carriage returns. -/
theorem carriage_not_mem_hex (width n : Nat) : '\r' ∉ (Text.hex width n).map Char.toUpper := by
  have hdigit : ∀ d < 16, (Text.hexDigit d).toUpper ≠ '\r' := by decide
  induction width generalizing n with
  | zero => exact List.not_mem_nil
  | succ width ih =>
    have hlast := hdigit (n % 16) (Nat.mod_lt n (by decide))
    simpa [Text.hex, Ne.symm hlast] using ih (n / 16)

/-- Nor is anything in an escape. -/
theorem carriage_not_mem_escaped (c : Char) : '\r' ∉ escaped c := by
  unfold escaped
  split
  · rename_i hliteral
    have hc : c ≠ '\r' := by
      rintro rfl
      exact absurd hliteral (by decide)
    simpa using hc.symm
  · split
    · rename_i l hl
      simpa using (escapeLetter?_ne hl).2.symm
    · have hcode : ∀ (l : Char) (digits : List Char), l ≠ '\r' → '\r' ∉ digits →
          '\r' ∉ '\\' :: l :: digits := by
        intro l digits hl hdigits
        simp [hl.symm, hdigits]
      unfold escapeCode
      simp only
      split
      · exact hcode 'x' _ (by decide) (carriage_not_mem_hex 2 _)
      · split
        · exact hcode 'u' _ (by decide) (carriage_not_mem_hex 4 _)
        · exact hcode 'U' _ (by decide) (carriage_not_mem_hex 8 _)

/-- The YAML text of a dictionary that is not empty has no value as JSON: its first key is none, or a
    colon is left over behind it. -/
theorem read_render_eq_none (key : String) (v : Value) (es : List (Value × Value)) :
    Json.read (String.ofList (Text.unifyBreaks (render (.dict ((.str key, v) :: es))).toList)) = none := by
  obtain ⟨more, hmore⟩ := exists_render_eq key v es
  rw [hmore]
  -- A plain key begins outside of JSON; a quoted one is read as a text, with the colon behind it.
  rcases writeKey_starts key with ⟨c, tail, hkey, hstart, hspace, hcolon⟩ | hkey
  · have hc : c ≠ '\r' := by
      rintro rfl
      exact absurd hspace (by decide)
    rw [hkey, List.cons_append, ← List.singleton_append, Text.unifyBreaks_append (by simpa using hc.symm)]
    exact Json.read_eq_none_of_colon hstart hspace
      (Text.mem_unifyBreaks (by decide) (List.mem_append_left _ hcolon))
  · have hreturn : '\r' ∉ '"' :: (key.toList.flatMap escaped ++ ['"', ':']) := by
      simp [carriage_not_mem_escaped]
    rw [hkey, Text.unifyBreaks_append hreturn]
    refine Json.read_eq_none_of_quoted ?_
    intro fuel s rest h
    have hleft : LeftOf (':' :: Text.unifyBreaks more)
        (key.toList.flatMap escaped ++ ['"', ':'] ++ Text.unifyBreaks more) :=
      ⟨key.toList, by simp⟩
    rw [eq_of_readString hleft h]
    exact List.mem_cons_self

end Yaml

end DataShapes
