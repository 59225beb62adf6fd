import DataShapes.Proofs.Code.Expression
import DataShapes.Text.Lines
import Mathlib.Data.List.TakeWhile

/-!
# Literals in three quotes

A text literal between three double quotes on either side goes over lines.  It ends with the first three quotes that
no backslash stands in front of; a backslash starts the same escapes as in other literals, and line breaks are
unified before anything is read.  A text that is put between the quotes as it is denotes itself under conditions
that can be told from the text: no carriage return, no null character, no three quotes in a row, no quote at the end,
and no backslash but in front of a character that makes no escape with it.

Main definitions:
* `Code.readItem`, `Code.readLong`, `Code.readDocstring`: a character or escape, the code points up to the closing
  quotes, and a literal with its quotes;
* `Code.Plain`, `Code.Verbatim`: texts that are read as they stand;
* `Code.FirstQuotes`, `Code.Reading`: the first quotes in a text, and what reading up to them can give.

Main statement:
* `Code.readDocstring_iff`: the literal around a text denotes the text when it is verbatim.
-/

namespace DataShapes

namespace Code

/-! ### Reading -/

/-- The three quotes on either side. -/
def quotes : List Char := ['"', '"', '"']

/-- The code points that the next character or escape denotes, and the rest.  No module has a null character. -/
def readItem : List Char → Option (List Nat × List Char)
  | [] => none
  | c :: cs =>
    if c = '\x00' then none
    else if c = '\\' then if cs.head? = some '\x00' then none else readEscape cs
    else some ([c.toNat], cs)

/-- The code points up to the closing quotes, and the rest.  `fuel` bounds the number of steps. -/
def readLong : Nat → List Char → Option (List Nat × List Char)
  | 0, _ => none
  | fuel + 1, cs =>
    if quotes.isPrefixOf cs then some ([], cs.drop quotes.length)
    else do
      let (first, cs) ← readItem cs
      let (more, rest) ← readLong fuel cs
      return (first ++ more, rest)

/-- The code points of a literal in three quotes behind blanks, and the rest. -/
def readDocstring (cs : List Char) : Option (List Nat × List Char) :=
  let cs := skipBlanks cs
  if quotes.isPrefixOf cs then readLong (cs.length + 1) (cs.drop quotes.length) else none

/-! ### Escapes -/

/-- A backslash in front of the character stands for itself. -/
def keepsBackslash (c : Char) : Bool :=
  c ∉ ['x', 'u', 'U', 'N', '\n', '\x00'] && (letterPoint? c).isNone && !isOctal c

/-- Before such a character the backslash stands for itself. -/
theorem readEscape_of_keepsBackslash {c : Char} (h : keepsBackslash c = true) (cs : List Char) :
    readEscape (c :: cs) = some ([0x5C, c.toNat], cs) := by
  simp only [keepsBackslash, List.mem_cons, List.not_mem_nil, or_false, not_or, Bool.and_eq_true,
    decide_eq_true_eq, Option.isNone_iff_eq_none, Bool.not_eq_true'] at h
  obtain ⟨⟨⟨hx, hu, hU, hN, hline, -⟩, hletter⟩, hoctal⟩ := h
  rw [readEscape, if_neg hx, if_neg hu, if_neg hU, if_neg hN, if_neg hline, hletter]
  simp [hoctal]

/-- The characters of an escape and the code points that it denotes.  The backslash in front counts as a character
    too, so that an escape denotes as many code points as it has characters only if it is none. -/
structure Escape (cs : List Char) (points : List Nat) : Prop where
  ne_nil : cs ≠ []
  length_le : points.length ≤ cs.length + 1
  kept : points.length = cs.length + 1 →
    ∃ c, cs = [c] ∧ points = [0x5C, c.toNat] ∧ (c ≠ '\x00' → keepsBackslash c = true)
  quote : '"' ∈ cs → cs = ['"'] ∧ points = [0x22]

/-- An escape of one code point. -/
theorem Escape.single {cs : List Char} {n : Nat} (h : cs ≠ []) (hquote : '"' ∈ cs → cs = ['"'] ∧ [n] = [0x22]) :
    Escape cs [n] where
  ne_nil := h
  length_le := Nat.le_add_left _ _
  kept hlength := by
    have hpos := List.length_pos_iff.2 h
    rw [List.length_singleton] at hlength
    omega
  quote := hquote

/-- A line end behind a backslash is skipped. -/
theorem Escape.line : Escape ['\n'] [] where
  ne_nil := List.cons_ne_nil _ _
  length_le := Nat.zero_le _
  kept hlength := absurd hlength (by decide)
  quote hmem := absurd hmem (by decide)

/-- A letter that stands for one code point is an escape. -/
theorem Escape.letter {c : Char} {n : Nat} (h : letterPoint? c = some n) : Escape [c] [n] := by
  refine .single (List.cons_ne_nil _ _) fun hmem => ?_
  obtain rfl := List.mem_singleton.1 hmem
  exact ⟨rfl, congrArg (fun n => [n]) (Option.some.inj h).symm⟩

/-- In front of any other character a backslash stands for itself. -/
theorem Escape.other {c : Char} (hquote : '"' ≠ c) (h : c ≠ '\x00' → keepsBackslash c = true) :
    Escape [c] [0x5C, c.toNat] where
  ne_nil := List.cons_ne_nil _ _
  length_le := Nat.le_refl _
  kept _ := ⟨c, rfl, rfl, h⟩
  quote hmem := absurd (List.mem_singleton.1 hmem) hquote

/-- Hexadecimal digits are no quotes. -/
theorem quote_not_mem_of_hexNumber {cs : List Char} {n : Nat} (h : Text.hexNumber? cs = some n) : '"' ∉ cs := by
  unfold Text.hexNumber? at h
  generalize 0 = start at h
  induction cs generalizing start with
  | nil => exact List.not_mem_nil
  | cons c cs ih =>
    obtain ⟨next, hnext, hrest⟩ := Option.bind_eq_some_iff.1 h
    obtain ⟨digit, hdigit, -⟩ := Option.map_eq_some_iff.1 hnext
    rw [List.mem_cons, not_or]
    refine ⟨?_, ih _ hrest⟩
    rintro rfl
    cases hdigit

/-- A hexadecimal escape behind its letter. -/
theorem exists_escape_of_readHex {letter : Char} {width : Nat} {cs rest : List Char} {points : List Nat}
    (hletter : '"' ≠ letter) (h : (readHex width cs).map (fun p => ([p.1], p.2)) = some (points, rest)) :
    ∃ taken, letter :: cs = taken ++ rest ∧ Escape taken points := by
  obtain ⟨⟨n, behind⟩, hread, heq⟩ := Option.map_eq_some_iff.1 h
  obtain ⟨rfl, rfl⟩ := Prod.mk.inj heq
  obtain ⟨m, hm, hread⟩ := Option.bind_eq_some_iff.1 hread
  split at hread
  · cases hread
  · obtain ⟨rfl, rfl⟩ := Prod.mk.inj (Option.some.inj hread)
    refine ⟨letter :: cs.take width, by rw [List.cons_append, List.take_append_drop], ?_⟩
    refine .single (List.cons_ne_nil _ _) fun hmem => absurd hmem ?_
    rw [List.mem_cons, not_or]
    exact ⟨hletter, quote_not_mem_of_hexNumber hm⟩

/-- A row of octal digits at the start of a text. -/
theorem exists_escape_octal {cs : List Char} (n : Nat) (h : ((cs.take 3).takeWhile isOctal) ≠ []) :
    ∃ taken, cs = taken ++ cs.drop ((cs.take 3).takeWhile isOctal).length ∧ Escape taken [n] := by
  have htaken : (cs.take 3).takeWhile isOctal <+: cs :=
    (List.takeWhile_prefix _).trans (List.take_prefix _ _)
  refine ⟨_, (List.prefix_iff_eq_append.1 htaken).symm, .single h fun hmem => ?_⟩
  have hdigit := List.mem_takeWhile_imp hmem
  cases hdigit

/-- What an escape takes and denotes. -/
theorem exists_escape_of_readEscape {cs rest : List Char} {points : List Nat}
    (h : readEscape cs = some (points, rest)) : ∃ taken, cs = taken ++ rest ∧ Escape taken points := by
  cases cs with
  | nil => cases h
  | cons c cs =>
    rw [readEscape] at h
    -- The tests in the order of the reader: code points, a line end, letters, octal digits, others.
    split_ifs at h with hx hu hU hN hline
    · exact exists_escape_of_readHex (by rw [hx]; decide) h
    · exact exists_escape_of_readHex (by rw [hu]; decide) h
    · exact exists_escape_of_readHex (by rw [hU]; decide) h
    · obtain ⟨rfl, rfl⟩ := Prod.mk.inj (Option.some.inj h)
      exact ⟨[c], rfl, hline ▸ .line⟩
    · cases hletter : letterPoint? c with
      | some n =>
        rw [hletter] at h
        obtain ⟨rfl, rfl⟩ := Prod.mk.inj (Option.some.inj h)
        exact ⟨[c], rfl, .letter hletter⟩
      | none =>
        rw [hletter] at h
        dsimp only at h
        split_ifs at h with hoctal
        · obtain ⟨rfl, rfl⟩ := Prod.mk.inj (Option.some.inj h)
          have hquote : '"' ≠ c := by
            rintro rfl
            cases hletter
          have hdigit : isOctal c = false := by
            by_contra hdigit
            rw [Bool.not_eq_false] at hdigit
            simp [hdigit] at hoctal
          refine ⟨[c], rfl, .other hquote fun hnull => ?_⟩
          simp [keepsBackslash, hx, hu, hU, hN, hline, hnull, hletter, hdigit]
        · obtain ⟨rfl, rfl⟩ := Prod.mk.inj (Option.some.inj h)
          apply exists_escape_octal
          simpa using hoctal

/-! ### Items -/

/-- The text is made up of characters that stand for themselves, a backslash among them only in front of one that
    makes no escape with it. -/
inductive Plain : List Char → Prop
  | nil : Plain []
  | char {c : Char} {cs : List Char} : c ≠ '\\' → c ≠ '\x00' → Plain cs → Plain (c :: cs)
  | backslash {c : Char} {cs : List Char} : keepsBackslash c = true → Plain cs → Plain ('\\' :: c :: cs)

/-- A text without backslashes and null characters is plain. -/
theorem plain_of_not_mem {cs : List Char} (hslash : '\\' ∉ cs) (hnull : '\x00' ∉ cs) : Plain cs := by
  induction cs with
  | nil => exact .nil
  | cons c cs ih =>
    rw [List.mem_cons, not_or] at hslash hnull
    exact .char (Ne.symm hslash.1) (Ne.symm hnull.1) (ih hslash.2 hnull.2)

/-- Plain texts one after the other are plain. -/
theorem Plain.append {cs ds : List Char} (hc : Plain cs) (hd : Plain ds) : Plain (cs ++ ds) := by
  induction hc with
  | nil => exact hd
  | char hslash hnull _ ih => exact .char hslash hnull ih
  | backslash hkeeps _ ih => exact .backslash hkeeps ih

/-- The characters of an item and the code points that it denotes: at most as many, and if as many, then those of the
    characters. -/
structure Item (cs : List Char) (points : List Nat) : Prop where
  length_le : points.length ≤ cs.length
  plain : points.length = cs.length → points = cs.map Char.toNat ∧ Plain cs
  quote : '"' ∈ cs → points = [0x22] ∧ (cs = ['"'] ∨ cs = ['\\', '"'])

/-- A character that is no backslash and not null stands for itself. -/
theorem Item.char {c : Char} (hslash : c ≠ '\\') (hnull : c ≠ '\x00') : Item [c] [c.toNat] where
  length_le := Nat.le_refl _
  plain _ := ⟨rfl, .char hslash hnull .nil⟩
  quote hmem := by
    obtain rfl := List.mem_singleton.1 hmem
    exact ⟨rfl, .inl rfl⟩

/-- A backslash in front of an escape makes an item. -/
theorem Escape.item {cs : List Char} {points : List Nat} (h : Escape cs points) (hnull : cs.head? ≠ some '\x00') :
    Item ('\\' :: cs) points where
  length_le := h.length_le
  plain hlength := by
    obtain ⟨c, rfl, rfl, hkeeps⟩ := h.kept hlength
    have hc : c ≠ '\x00' := by
      rintro rfl
      exact hnull rfl
    exact ⟨rfl, .backslash (hkeeps hc) .nil⟩
  quote hmem := by
    obtain ⟨rfl, rfl⟩ := h.quote ((List.mem_cons.1 hmem).resolve_left (by decide))
    exact ⟨rfl, .inr rfl⟩

/-- What is read as one item is one, with what follows behind it. -/
theorem exists_item_of_readItem {cs rest : List Char} {points : List Nat} (h : readItem cs = some (points, rest)) :
    ∃ taken, cs = taken ++ rest ∧ Item taken points := by
  cases cs with
  | nil => cases h
  | cons c cs =>
    rw [readItem] at h
    split_ifs at h with hnull hslash hbehind
    · obtain ⟨taken, rfl, hescape⟩ := exists_escape_of_readEscape h
      obtain ⟨e, es, rfl⟩ := List.exists_cons_of_ne_nil hescape.ne_nil
      exact ⟨'\\' :: e :: es, by rw [hslash]; rfl, hescape.item hbehind⟩
    · obtain ⟨rfl, rfl⟩ := Prod.mk.inj (Option.some.inj h)
      exact ⟨[c], rfl, .char hslash hnull⟩

/-- A backslash that stands for itself is read together with the character behind it. -/
theorem readItem_of_keepsBackslash {c : Char} (h : keepsBackslash c = true) (cs : List Char) :
    readItem ('\\' :: c :: cs) = some ([0x5C, c.toNat], cs) := by
  have hnull : (c :: cs).head? ≠ some '\x00' := by
    intro heq
    rw [Option.some.inj heq] at h
    cases h
  rw [readItem, if_neg (by decide), if_pos rfl, if_neg hnull, readEscape_of_keepsBackslash h]

/-! ### Verbatim texts -/

/-- The closing quotes do not begin early unless the text holds three quotes or runs into them. -/
theorem not_isPrefixOf_quotes {cs ds : List Char} {c : Char} (h : ¬ quotes <:+: c :: cs ++ ['"', '"']) :
    ¬ quotes.isPrefixOf (c :: cs ++ (quotes ++ ds)) = true := by
  intro hprefix
  -- Three characters at the start end before the last of the quotes.
  have hlonger : c :: cs ++ ['"', '"'] <+: c :: cs ++ (quotes ++ ds) :=
    List.prefix_append_right_inj _ |>.2 ⟨'"' :: ds, rfl⟩
  have hshort : quotes.length ≤ (c :: cs ++ ['"', '"']).length := by
    simp [quotes]
  exact h (List.prefix_of_prefix_length_le (List.isPrefixOf_iff_prefix.1 hprefix) hlonger hshort).isInfix

/-- Quotes that are not in a text are not in the end of it. -/
theorem not_infix_behind (cs : List Char) {ds more : List Char} (h : ¬ quotes <:+: cs ++ ds ++ more) :
    ¬ quotes <:+: ds ++ more := by
  intro hthree
  rw [List.append_assoc] at h
  exact h (hthree.trans (List.suffix_append cs _).isInfix)

/-- The quotes around a plain text close it where they stand, when there are none before. -/
theorem readLong_of_plain {cs : List Char} (h : Plain cs) (hquotes : ¬ quotes <:+: cs ++ ['"', '"']) (rest : List Char)
    {fuel : Nat} (hfuel : cs.length < fuel) :
    readLong fuel (cs ++ (quotes ++ rest)) = some (cs.map Char.toNat, rest) := by
  -- The quotes are not reached early: they would stand in the text or where it meets them.
  induction h generalizing fuel with
  | nil =>
    obtain ⟨fuel, rfl⟩ := Nat.exists_eq_succ_of_ne_zero (Nat.ne_zero_of_lt hfuel)
    rfl
  | @char c cs hslash hnull _ ih =>
    obtain ⟨fuel, rfl⟩ := Nat.exists_eq_succ_of_ne_zero (Nat.ne_zero_of_lt hfuel)
    have hitem : readItem (c :: cs ++ (quotes ++ rest)) = some ([c.toNat], cs ++ (quotes ++ rest)) := by
      rw [List.cons_append, readItem, if_neg hnull, if_neg hslash]
    have hbehind := ih (not_infix_behind [c] hquotes) (Nat.lt_of_succ_lt_succ hfuel)
    rw [readLong, if_neg (not_isPrefixOf_quotes hquotes), hitem]
    simp [hbehind]
  | @backslash c cs hkeeps _ ih =>
    obtain ⟨fuel, rfl⟩ := Nat.exists_eq_succ_of_ne_zero (Nat.ne_zero_of_lt hfuel)
    have hitem : readItem ('\\' :: c :: cs ++ (quotes ++ rest)) = some ([0x5C, c.toNat], cs ++ (quotes ++ rest)) :=
      readItem_of_keepsBackslash hkeeps _
    have hbehind := ih (not_infix_behind ['\\', c] hquotes)
      (Nat.lt_of_succ_lt (Nat.lt_of_succ_lt_succ hfuel))
    rw [readLong, if_neg (not_isPrefixOf_quotes hquotes), hitem]
    simp [hbehind]

/-- What reading a text with three quotes behind it can give, when these are the first ones.  Either they close it, or
    the first of them belongs to an escape: then the others close it with a fourth one, or all three are denoted. -/
inductive Reading (before : List Char) (points : List Nat) : Prop
  | verbatim : points = before.map Char.toNat → Plain before → Reading before points
  | shorter : points.length < before.length → Reading before points
  | closed : points.length ≤ before.length → points.getLast? = some 0x22 → before.getLast? = some '\\' →
      Reading before points
  | passed (front back : List Nat) : points = front ++ [0x22, 0x22, 0x22] ++ back →
      front.length < before.length → Reading before points

/-- One more item in front. -/
theorem Reading.item {taken before : List Char} {first points : List Nat} (hitem : Item taken first)
    (h : Reading before points) : Reading (taken ++ before) (first ++ points) := by
  have hle := hitem.length_le
  -- Once something was shortened, closed or passed over, it stays so; only verbatim text can turn.
  cases h with
  | verbatim heq hplain =>
    by_cases hlength : first.length = taken.length
    · obtain ⟨hfirst, htaken⟩ := hitem.plain hlength
      exact .verbatim (by rw [hfirst, heq, List.map_append]) (htaken.append hplain)
    · refine .shorter ?_
      rw [List.length_append, List.length_append, heq, List.length_map]
      omega
  | shorter hlength =>
    refine .shorter ?_
    rw [List.length_append, List.length_append]
    omega
  | closed hlength hquote hslash =>
    refine .closed ?_ (by rw [List.getLast?_append, hquote]; rfl) (by rw [List.getLast?_append, hslash]; rfl)
    rw [List.length_append, List.length_append]
    omega
  | passed front back heq hlength =>
    refine .passed (first ++ front) back (by simp [heq]) ?_
    rw [List.length_append, List.length_append]
    omega

/-- Where the text does not end, an item is read, and then what follows. -/
theorem exists_of_readLong {fuel : Nat} {cs rest : List Char} {points : List Nat}
    (hcs : ¬ quotes.isPrefixOf cs = true) (h : readLong (fuel + 1) cs = some (points, rest)) :
    ∃ first next more, readItem cs = some (first, next) ∧ readLong fuel next = some (more, rest)
      ∧ points = first ++ more := by
  rw [readLong, if_neg hcs] at h
  obtain ⟨⟨first, next⟩, hread, h⟩ := Option.bind_eq_some_iff.1 h
  obtain ⟨⟨more, last⟩, hmore, h⟩ := Option.bind_eq_some_iff.1 h
  obtain ⟨rfl, rfl⟩ := Prod.mk.inj (Option.some.inj h)
  exact ⟨first, next, more, hread, hmore, rfl⟩

/-- A quote is read as it stands when no two others follow. -/
theorem exists_of_readLong_quote {fuel : Nat} {cs rest : List Char} {points : List Nat}
    (hcs : ¬ quotes.isPrefixOf ('"' :: cs) = true) (h : readLong fuel ('"' :: cs) = some (points, rest)) :
    ∃ fuel more, points = 0x22 :: more ∧ readLong fuel cs = some (more, rest) := by
  cases fuel with
  | zero => cases h
  | succ fuel =>
    obtain ⟨first, next, more, hread, hmore, rfl⟩ := exists_of_readLong hcs h
    have hquote : readItem ('"' :: cs) = some ([0x22], cs) := rfl
    obtain ⟨rfl, rfl⟩ := Prod.mk.inj (Option.some.inj (hread.symm.trans hquote))
    exact ⟨fuel, more, rfl, hmore⟩

/-- Two quotes close the text with a third one behind them, and are read as they stand otherwise. -/
theorem eq_nil_or_of_readLong_two {fuel : Nat} {cs rest : List Char} {points : List Nat}
    (h : readLong fuel ('"' :: '"' :: cs) = some (points, rest)) :
    points = [] ∨ ∃ more, points = 0x22 :: 0x22 :: more := by
  -- With no third quote each of the two stands for itself.
  by_cases hthird : quotes.isPrefixOf ('"' :: '"' :: cs) = true
  · cases fuel with
    | zero => cases h
    | succ fuel =>
      rw [readLong, if_pos hthird] at h
      exact .inl (Prod.mk.inj (Option.some.inj h)).1.symm
  · have hsecond : ¬ quotes.isPrefixOf ('"' :: cs) = true := by
      intro hprefix
      apply hthird
      cases cs with
      | nil => cases hprefix
      | cons c cs => simpa [quotes] using (Bool.and_eq_true_iff.1 (Bool.and_eq_true_iff.1 hprefix).2).1
    obtain ⟨fuel, more, rfl, hmore⟩ := exists_of_readLong_quote hthird h
    obtain ⟨-, more, rfl, -⟩ := exists_of_readLong_quote hsecond hmore
    exact .inr ⟨more, rfl⟩

/-- What is read off a text with three quotes behind it when these are the first ones. -/
theorem reading_of_readLong {fuel : Nat} {before behind rest : List Char} {points : List Nat}
    (hfirst : ¬ quotes <:+: before ++ ['"', '"'])
    (h : readLong fuel (before ++ (quotes ++ behind)) = some (points, rest)) : Reading before points := by
  -- A step takes one item off `before`, so that the quotes behind it stay the first ones.
  induction fuel generalizing before points with
  | zero => cases h
  | succ fuel ih =>
    cases before with
    | nil =>
      have hclosed : readLong (fuel + 1) ([] ++ (quotes ++ behind)) = some ([], behind) := rfl
      rw [hclosed] at h
      obtain ⟨rfl, rfl⟩ := Prod.mk.inj (Option.some.inj h)
      exact .verbatim rfl .nil
    | cons c cs =>
      obtain ⟨first, next, more, hread, hmore, rfl⟩ := exists_of_readLong (not_isPrefixOf_quotes hfirst) h
      obtain ⟨taken, htaken, hitem⟩ := exists_item_of_readItem hread
      have hwithin : ∀ left, c :: cs = taken ++ left → next = left ++ (quotes ++ behind) →
          Reading (c :: cs) (first ++ more) := by
        rintro left hleft rfl
        rw [hleft] at hfirst ⊢
        exact .item hitem (ih (not_infix_behind _ hfirst) hmore)
      rcases List.append_eq_append_iff.1 htaken with ⟨beyond, hover, hnext⟩ | ⟨left, hleft, hnext⟩
      · cases beyond with
        | nil => exact hwithin [] (by rw [hover, List.append_nil, List.append_nil]) hnext.symm
        | cons q beyond =>
          -- The item goes on beyond the text, so that it is an escaped quote.
          obtain rfl : '"' = q := (List.cons.inj hnext).1
          obtain ⟨rfl, htaken⟩ := hitem.quote (by rw [hover]; simp)
          rcases htaken with htaken | htaken
          · simp [htaken] at hover
          · obtain ⟨rfl, hcs⟩ := List.cons.inj (htaken.symm.trans hover)
            obtain ⟨rfl, rfl⟩ : cs = [] ∧ beyond = [] := by
              cases cs with
              | nil => exact ⟨rfl, (List.cons.inj hcs).2.symm⟩
              | cons d ds => simp at hcs
            obtain rfl : '"' :: '"' :: behind = next := (List.cons.inj hnext).2
            rcases eq_nil_or_of_readLong_two hmore with rfl | ⟨more, rfl⟩
            · exact .closed (Nat.le_refl _) rfl rfl
            · exact .passed [] more rfl Nat.zero_lt_one
      · exact hwithin left hleft hnext

/-- The text between the quotes of a literal denotes itself: it is plain, has no carriage return and no three quotes in
    a row, and no quote stands at its end. -/
structure Verbatim (cs : List Char) : Prop where
  plain : Plain cs
  noReturn : '\r' ∉ cs
  noQuotes : ¬ quotes <:+: cs
  last : cs.getLast? ≠ some '"'

/-- With two quotes behind a text there are three in a row within it or where they meet. -/
theorem infix_append_two_iff {cs : List Char} :
    quotes <:+: cs ++ ['"', '"'] ↔ quotes <:+: cs ∨ cs.getLast? = some '"' := by
  have hlast : ∀ ds, ds <:+ cs → ds.getLast? = some '"' → cs.getLast? = some '"' := by
    rintro ds ⟨front, rfl⟩ hds
    rw [List.getLast?_append, hds]
    rfl
  constructor
  · intro h
    -- The three quotes end at the last place, at the one before it, or within the text.
    rw [← List.singleton_append, ← List.append_assoc, List.infix_concat_iff, List.infix_concat_iff,
      List.append_assoc] at h
    rcases h with h | h | h
    · have hone : ['"'] ++ ['"', '"'] <:+ cs ++ ['"', '"'] := h
      exact .inr (hlast ['"'] ((List.suffix_append_inj_of_length_eq rfl).1 hone).1 rfl)
    · have htwo : ['"', '"'] ++ ['"'] <:+ cs ++ ['"'] := h
      exact .inr (hlast ['"', '"'] ((List.suffix_append_inj_of_length_eq rfl).1 htwo).1 rfl)
    · exact .inl h
  · rintro (h | h)
    · exact h.trans (List.prefix_append _ _).isInfix
    · obtain ⟨front, rfl⟩ := List.getLast?_eq_some_iff.1 h
      exact ⟨front, [], by simp [quotes]⟩

/-- The first three quotes in a row stand behind a part of the text. -/
structure FirstQuotes (cs before : List Char) : Prop where
  exists_behind : ∃ behind, cs = before ++ (quotes ++ behind)
  least : ∀ front back, cs = front ++ (quotes ++ back) → before.length ≤ front.length

/-- A text with three quotes in a row has a first place for them. -/
theorem exists_firstQuotes {cs : List Char} (h : quotes <:+: cs) : ∃ before, FirstQuotes cs before := by
  induction cs with
  | nil => exact absurd (List.infix_nil.1 h) (List.cons_ne_nil _ _)
  | cons c cs ih =>
    by_cases hprefix : quotes <+: c :: cs
    · obtain ⟨behind, hbehind⟩ := hprefix
      exact ⟨[], ⟨behind, hbehind.symm⟩, fun _ _ _ => Nat.zero_le _⟩
    · obtain ⟨before, ⟨behind, rfl⟩, hleast⟩ := ih ((List.infix_cons_iff.1 h).resolve_left hprefix)
      refine ⟨c :: before, ⟨behind, rfl⟩, fun front back heq => ?_⟩
      cases front with
      | nil => exact absurd ⟨back, heq.symm⟩ hprefix
      | cons d front => exact Nat.succ_le_succ (hleast front back (List.cons.inj heq).2)

namespace FirstQuotes

variable {cs before : List Char}

/-- The quotes do not begin further in front, not even in what they go on with. -/
theorem not_infix (h : FirstQuotes cs before) : ¬ quotes <:+: before ++ ['"', '"'] := by
  rintro ⟨front, back, hthree⟩
  obtain ⟨⟨behind, rfl⟩, hleast⟩ := h
  have hle := hleast front (back ++ '"' :: behind) (by
    rw [show quotes ++ behind = ['"', '"'] ++ '"' :: behind from rfl, ← List.append_assoc, ← hthree]
    simp only [List.append_assoc])
  have hlength := congrArg List.length hthree
  simp only [List.length_append, List.length_cons, List.length_nil, quotes] at hlength
  omega

/-- The first quotes stand no later than any others. -/
theorem length_le {more : List Char} (h : FirstQuotes (cs ++ (quotes ++ more)) before) :
    before.length ≤ cs.length := h.least _ _ rfl

/-- A part that is long enough is all that stands in front of other quotes. -/
theorem eq_of_length_le {more : List Char} (h : FirstQuotes (cs ++ (quotes ++ more)) before)
    (hle : cs.length ≤ before.length) : cs = before := by
  obtain ⟨behind, heq⟩ := h.exists_behind
  exact List.append_inj_left heq (Nat.le_antisymm hle h.length_le)

end FirstQuotes

/-! ### Line breaks -/

/-- Quotes in the middle of a text do not touch its breaks. -/
theorem unifyBreaks_quotes (cs more : List Char) :
    Text.unifyBreaks (cs ++ (quotes ++ more)) = Text.unifyBreaks cs ++ (quotes ++ Text.unifyBreaks more) := by
  rw [Text.unifyBreaks_append_of_head (by simp [quotes])]
  rfl

/-! ### What stands between the quotes -/

/-- Texts are determined by their code points. -/
theorem map_toNat_injective : Function.Injective (List.map Char.toNat) :=
  List.map_injective_iff.2 fun _ _ => Char.toNat_inj.1

/-- When reading up to the first quotes gives the text, it is verbatim: in all other cases what is given is too short,
    ends with another character, or has three quotes where the text has none. -/
theorem verbatim_of_reading {cs before more : List Char}
    (hfirst : FirstQuotes (Text.unifyBreaks cs ++ (quotes ++ more)) before)
    (h : Reading before (cs.map Char.toNat)) : Verbatim cs := by
  have hshort := Text.length_unifyBreaks_le cs
  have hbefore := hfirst.length_le
  cases h with
  | verbatim hpoints hplain =>
    obtain rfl : cs = before := map_toNat_injective hpoints
    have hsame := hfirst.eq_of_length_le hshort
    have hquotes := hfirst.not_infix
    rw [infix_append_two_iff, not_or] at hquotes
    exact ⟨hplain, hsame ▸ Text.not_mem_unifyBreaks cs, hquotes.1, hquotes.2⟩
  | shorter hlength =>
    rw [List.length_map] at hlength
    omega
  | closed hlength hquote hslash =>
    -- The last character of the text would be a quote, and a backslash as well.
    rw [List.length_map] at hlength
    rw [← hfirst.eq_of_length_le (hshort.trans hlength)] at hslash
    rw [List.getLast?_map] at hquote
    obtain ⟨c, hlast, hc⟩ := Option.map_eq_some_iff.1 hquote
    obtain rfl : c = '"' := Char.toNat_inj.1 hc
    obtain ⟨front, rfl⟩ := List.getLast?_eq_some_iff.1 hlast
    rw [Text.unifyBreaks_append_of_head (by simp), List.getLast?_append] at hslash
    cases hslash
  | passed front back hpoints hlength =>
    -- The text would have three quotes further in front.
    rw [List.append_assoc] at hpoints
    obtain ⟨fs, behind, rfl, rfl, hbehind⟩ := List.map_eq_append_iff.1 hpoints
    obtain ⟨qs, bs, rfl, hqs, -⟩ := List.map_eq_append_iff.1 hbehind
    obtain rfl : qs = quotes := map_toNat_injective hqs
    have hle := hfirst.least (Text.unifyBreaks fs) (Text.unifyBreaks bs ++ (quotes ++ more)) (by
      rw [unifyBreaks_quotes, List.append_assoc, List.append_assoc])
    have hfront := Text.length_unifyBreaks_le fs
    rw [List.length_map] at hlength
    omega

/-- What is read is the text, so that it is verbatim. -/
theorem verbatim_of_readLong {fuel : Nat} {cs more rest : List Char}
    (h : readLong fuel (Text.unifyBreaks (cs ++ (quotes ++ more))) = some (cs.map Char.toNat, rest)) :
    Verbatim cs := by
  rw [unifyBreaks_quotes] at h
  obtain ⟨before, hfirst⟩ :
      ∃ before, FirstQuotes (Text.unifyBreaks cs ++ (quotes ++ Text.unifyBreaks more)) before :=
    exists_firstQuotes ⟨Text.unifyBreaks cs, _, by rw [List.append_assoc]⟩
  obtain ⟨behind, heq⟩ := hfirst.exists_behind
  rw [heq] at h
  exact verbatim_of_reading hfirst (reading_of_readLong hfirst.not_infix h)

/-- A verbatim text is read as it stands, up to the quotes behind it. -/
theorem Verbatim.readLong_eq {cs : List Char} (h : Verbatim cs) (more : List Char) {fuel : Nat}
    (hfuel : cs.length < fuel) :
    readLong fuel (Text.unifyBreaks (cs ++ (quotes ++ more))) = some (cs.map Char.toNat, Text.unifyBreaks more) := by
  rw [Text.unifyBreaks_append h.noReturn]
  refine readLong_of_plain h.plain ?_ _ hfuel
  rw [infix_append_two_iff, not_or]
  exact ⟨h.noQuotes, h.last⟩

/-- The literal around a text, with a line end behind it, denotes the text exactly when the text is verbatim. -/
theorem readDocstring_iff {cs more : List Char} :
    (∃ rest, readDocstring (Text.unifyBreaks ("    ".toList ++ (quotes ++ (cs ++ (quotes ++ '\n' :: more)))))
      = some (cs.map Char.toNat, '\n' :: rest)) ↔ Verbatim cs := by
  -- Neither the indentation nor the quotes hold a line end, so the text is all that is unified.
  have hopen : Text.unifyBreaks ("    ".toList ++ (quotes ++ (cs ++ (quotes ++ '\n' :: more))))
      = "    ".toList ++ (quotes ++ Text.unifyBreaks (cs ++ (quotes ++ '\n' :: more))) := by
    rw [Text.unifyBreaks_append (by decide), Text.unifyBreaks_append (by decide)]
  have hread : ∀ ds, readDocstring ("    ".toList ++ (quotes ++ ds)) = readLong ((quotes ++ ds).length + 1) ds :=
    fun _ => rfl
  rw [hopen, hread]
  constructor
  · rintro ⟨rest, h⟩
    exact verbatim_of_readLong h
  · intro h
    refine ⟨Text.unifyBreaks more, ?_⟩
    have hfuel : cs.length < (quotes ++ Text.unifyBreaks (cs ++ (quotes ++ '\n' :: more))).length + 1 := by
      rw [Text.unifyBreaks_append h.noReturn]
      simp only [List.length_append]
      omega
    exact h.readLong_eq _ hfuel

end Code

end DataShapes
