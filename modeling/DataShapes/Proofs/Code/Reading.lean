import DataShapes.Proofs.Code.Expression
import DataShapes.Proofs.TypeExpr.Hints
import Mathlib.Data.List.Forall2

/-!
# Reading expressions back

What is read off a text does not depend on what stands behind it, as long as that cannot go on with it: nothing,
a comma, a colon or a closing bracket.  Texts of parts that are read in this sense make up texts of lists,
tuples, dictionaries and fields that are.

Main definitions:
* `Code.Reads`: the text is read wherever it ends;
* `Code.commas`: texts with commas between them.

Main statements:
* `Code.readSeries_commas`: items between commas are read one by one;
* `Code.reads_text`, `Code.reads_numeral`, `Code.reads_name`, `Code.reads_negate`: expressions without brackets;
* `Code.reads_list`, `Code.reads_tuple`, `Code.reads_dict`, `Code.reads_field`: expressions with brackets.
-/

namespace DataShapes

namespace Code

/-! ### Where expressions end -/

/-- The closing brackets. -/
def closers : List Char := [']', ')', '\x7d']

/-- What may stand behind an expression: nothing, a comma, a colon or a closing bracket. -/
def Ends (cs : List Char) : Prop := ∀ c ∈ cs.head?, c ∈ ',' :: ':' :: closers

/-- An expression may stand at the end. -/
theorem ends_nil : Ends [] := by simp [Ends]

/-- An expression may stand in front of a comma, a colon or a closing bracket. -/
theorem ends_cons {c : Char} (h : c ∈ ',' :: ':' :: closers) (cs : List Char) : Ends (c :: cs) := by
  intro d hd
  obtain rfl := Option.some.inj hd
  exact h

/-- What ends an expression goes on with no word, no number, no text and no call. -/
structure IsEnd (c : Char) : Prop where
  word : Text.isIdentifierRest c = false
  blank : isBlank c = false
  point : c ≠ '.'
  quotes : c ≠ '\'' ∧ c ≠ '"'
  parenthesis : c ≠ '('

theorem mem_ends_of_closer {c : Char} (h : c ∈ closers) : c ∈ ',' :: ':' :: closers :=
  List.mem_cons_of_mem _ (List.mem_cons_of_mem _ h)

/-- Commas, colons and closing brackets end every token. -/
theorem isEnd_of_mem {c : Char} (h : c ∈ ',' :: ':' :: closers) : IsEnd c := by
  simp only [closers, List.mem_cons, List.not_mem_nil, or_false] at h
  rcases h with rfl | rfl | rfl | rfl | rfl <;>
    exact ⟨by decide +kernel, by decide, by decide, by decide, by decide⟩

theorem skipBlanks_cons {c : Char} (h : isBlank c = false) (cs : List Char) :
    skipBlanks (c :: cs) = c :: cs := by
  simp [skipBlanks, h]

theorem skipBlanks_blank (cs : List Char) : skipBlanks (' ' :: cs) = skipBlanks cs := rfl

/-- No blank stands behind an expression that is written in a row. -/
theorem skipBlanks_ends {cs : List Char} (h : Ends cs) : skipBlanks cs = cs := by
  cases cs with
  | nil => rfl
  | cons c cs => exact skipBlanks_cons (isEnd_of_mem (h c rfl)).blank cs

section

variable {α : Type}

/-- The text is read as the given item wherever it ends. -/
def Reads (read : List Char → Option (α × List Char)) (text : List Char) (x : α) : Prop :=
  ∀ rest, Ends rest → read (text ++ rest) = some (x, rest)

/-! ### Items between commas -/

/-- Texts with commas and blanks between them. -/
def commas : List (List Char) → List Char
  | [] => []
  | [text] => text
  | text :: texts => text ++ ',' :: ' ' :: commas texts

theorem commas_cons_cons (text other : List Char) (texts : List (List Char)) :
    commas (text :: other :: texts) = text ++ ',' :: ' ' :: commas (other :: texts) := rfl

theorem intercalate_commas (texts : List (List Char)) : [',', ' '].intercalate texts = commas texts := by
  induction texts with
  | nil => rfl
  | cons text texts ih =>
    cases texts with
    | nil => simp [commas]
    | cons other texts =>
      rw [List.intercalate_cons_cons, ih, commas_cons_cons]
      simp

/-- There are at most as many texts as characters, and one more. -/
theorem length_le_commas (texts : List (List Char)) : texts.length ≤ (commas texts).length + 1 := by
  induction texts with
  | nil => exact Nat.zero_le _
  | cons text texts ih =>
    cases texts with
    | nil => exact Nat.le_add_left _ _
    | cons other texts =>
      simp only [commas_cons_cons, List.length_append, List.length_cons] at ih ⊢
      omega

/-- A row is no shorter than any text in it, so the fuel for the row suffices for the text. -/
theorem length_le_of_mem_commas {texts : List (List Char)} {text : List Char} (h : text ∈ texts) :
    text.length ≤ (commas texts).length := by
  induction texts with
  | nil => cases h
  | cons first texts ih =>
    cases texts with
    | nil => rw [List.mem_singleton.1 h, commas]
    | cons other texts =>
      simp only [commas_cons_cons, List.length_append, List.length_cons]
      rcases List.mem_cons.1 h with rfl | h
      · omega
      · have hle := ih h
        omega

/-- A reader of items skips a blank in front of them and reads no closing bracket. -/
structure IsItemReader (item : List Char → Option (α × List Char)) : Prop where
  blank : ∀ cs, item (' ' :: cs) = item cs
  closer : ∀ c ∈ closers, ∀ cs, item (c :: cs) = none

variable {item : List Char → Option (α × List Char)} {closer : Char} {text : List Char} {x : α}

/-- A blank in front of a row is skipped. -/
theorem readSeries_blank (hitem : IsItemReader item) (fuel : Nat) (cs : List Char) :
    readSeries item closer fuel (' ' :: cs) = readSeries item closer fuel cs := by
  cases fuel with
  | zero => rfl
  | succ fuel => rw [readSeries, readSeries, hitem.blank, skipBlanks_blank]

/-- The last item, or the closing bracket behind a comma. -/
theorem readSeries_last (hcloser : closer ∈ closers) (h : Reads item text x) (fuel : Nat)
    (rest : List Char) :
    readSeries item closer (fuel + 1) (text ++ closer :: rest) = some ([x], false, rest) := by
  have hmem := mem_ends_of_closer hcloser
  rw [readSeries, h _ (ends_cons hmem rest)]
  simp [skipBlanks_cons (isEnd_of_mem hmem).blank]

/-- A row may be empty. -/
theorem readSeries_empty (hitem : IsItemReader item) (hcloser : closer ∈ closers) (fuel : Nat)
    (rest : List Char) :
    readSeries item closer (fuel + 1) (closer :: rest) = some ([], false, rest) := by
  have hmem := mem_ends_of_closer hcloser
  rw [readSeries, hitem.closer closer hcloser]
  simp [skipBlanks_cons (isEnd_of_mem hmem).blank]

/-- An item with a comma behind it, and what follows. -/
theorem readSeries_comma (hcloser : closer ∈ closers) (h : Reads item text x) (fuel : Nat)
    (cs : List Char) :
    readSeries item closer (fuel + 1) (text ++ ',' :: cs) =
      (readSeries item closer fuel cs).map fun p => (x :: p.1, true, p.2.2) := by
  have hcomma : ',' ≠ closer := by
    rintro rfl
    simp [closers] at hcloser
  rw [readSeries, h _ (ends_cons List.mem_cons_self cs)]
  simp only [skipBlanks_cons (show isBlank ',' = false from rfl), if_neg hcomma, if_true]
  cases readSeries item closer fuel cs <;> rfl

/-- Items between commas are read one by one. -/
theorem readSeries_commas (hitem : IsItemReader item) (hcloser : closer ∈ closers)
    {texts : List (List Char)} {xs : List α} (h : List.Forall₂ (Reads item) texts xs) {fuel : Nat}
    (hfuel : texts.length < fuel) (rest : List Char) :
    readSeries item closer fuel (commas texts ++ closer :: rest) =
      some (xs, decide (1 < xs.length), rest) := by
  obtain ⟨fuel, rfl⟩ := Nat.exists_eq_succ_of_ne_zero (Nat.ne_zero_of_lt hfuel)
  -- The last item is followed by the closer and every other one by a comma and a blank.
  induction h generalizing fuel with
  | nil => exact readSeries_empty hitem hcloser fuel rest
  | @cons text x texts xs htext htexts ih =>
    cases htexts with
    | nil => exact readSeries_last hcloser htext fuel rest
    | @cons other y texts xs hother htexts =>
      rw [List.length_cons] at hfuel
      obtain ⟨fuel, rfl⟩ := Nat.exists_eq_succ_of_ne_zero
        (Nat.ne_zero_of_lt (Nat.lt_of_succ_lt_succ hfuel))
      rw [commas_cons_cons, List.append_assoc, List.cons_append, List.cons_append,
        readSeries_comma hcloser htext, readSeries_blank hitem, ih fuel (Nat.lt_of_succ_lt_succ hfuel)]
      simp

/-- A single item with a comma behind it. -/
theorem readSeries_single (hitem : IsItemReader item) (hcloser : closer ∈ closers)
    (h : Reads item text x) (fuel : Nat) (rest : List Char) :
    readSeries item closer (fuel + 2) (text ++ ',' :: closer :: rest) = some ([x], true, rest) := by
  rw [readSeries_comma hcloser h, readSeries_empty hitem hcloser]
  rfl

end

/-! ### Expressions without brackets -/

/-- A blank in front of an expression is skipped. -/
theorem readExpression_blank (fuel : Nat) (cs : List Char) :
    readExpression fuel (' ' :: cs) = readExpression fuel cs := by
  cases fuel with
  | zero => rfl
  | succ fuel => rw [readExpression, readExpression, skipBlanks_blank]

/-- No expression begins with a closing bracket. -/
theorem readExpression_closer {c : Char} (h : c ∈ closers) (fuel : Nat) (cs : List Char) :
    readExpression fuel (c :: cs) = none := by
  cases fuel with
  | zero => rfl
  | succ fuel =>
    simp only [closers, List.mem_cons, List.not_mem_nil, or_false] at h
    rcases h with rfl | rfl | rfl <;> rfl

/-- Expressions can be the items of a row. -/
theorem isItemReader_readExpression (fuel : Nat) : IsItemReader (readExpression fuel) where
  blank := readExpression_blank fuel
  closer _ h := readExpression_closer h fuel

variable {fuel : Nat} {text : List Char} {e : Expression}

/-- An expression is read from its first character on. -/
theorem readExpression_cons {c : Char} (h : isBlank c = false) (fuel : Nat) (cs : List Char) :
    readExpression (fuel + 1) (c :: cs) = readFrom (readExpression fuel) c cs := by
  rw [readExpression, skipBlanks_cons h]

/-- A minus sign in front of an expression negates it. -/
theorem reads_negate (h : Reads (readExpression fuel) text e) :
    Reads (readExpression (fuel + 1)) ('-' :: text) (.negate e) := by
  intro rest hrest
  rw [List.cons_append, readExpression_cons rfl, readFrom, if_pos rfl, h rest hrest]
  rfl

/-- The literal of a text is read as its code points. -/
theorem reads_text (fuel : Nat) (s : String) :
    Reads (readExpression (fuel + 1)) (Quoted.quote s).toList (.text (s.toList.map Char.toNat)) := by
  intro rest hrest
  have hread : readText ((Quoted.quote s).toList ++ rest) = some (s.toList.map Char.toNat, rest) :=
    readText_quote s fun c hc => (isEnd_of_mem (hrest c hc)).quotes
  obtain ⟨q, cs, hquote, hq⟩ : ∃ q cs, (Quoted.quote s).toList = q :: cs ∧ (q = '\'' ∨ q = '"') :=
    ⟨_, _, String.toList_ofList, quoteFor_eq _⟩
  rw [hquote, List.cons_append] at hread
  have hblank : isBlank q = false := by rcases hq with rfl | rfl <;> rfl
  rw [hquote, List.cons_append, readExpression_cons hblank]
  rcases hq with rfl | rfl <;> simp [readFrom, hread]

/-- The text of a numeral is read as the numeral. -/
theorem reads_numeral (fuel : Nat) {n : Numeral} (h : n.WellFormed) :
    Reads (readExpression (fuel + 1)) n.text (.numeral n) := by
  intro rest hrest
  have hends : endsNumeral rest = true := by
    cases rest with
    | nil => rfl
    | cons c rest =>
      have hc := isEnd_of_mem (hrest c rfl)
      simp [endsNumeral, hc.word, hc.point]
  have hread := Numeral.read_text h hends
  obtain ⟨c, cs, hcs, hdigit⟩ : ∃ c cs, n.text = c :: cs ∧ c.isDigit = true := by
    obtain ⟨c, cs, hcs⟩ := List.exists_cons_of_ne_nil h.whole_ne
    refine ⟨c, cs ++ Numeral.fractionText n.fraction ++ Numeral.powerText n.power, ?_, ?_⟩
    · rw [Numeral.text, hcs, List.cons_append, List.cons_append]
    · exact h.whole c (by rw [hcs]; exact List.mem_cons_self)
  rw [hcs, List.cons_append] at hread
  -- All other readers are told by their first character, and none of these is a digit.
  have hother : ∀ {d : Char}, d.isDigit = false → c ≠ d := by
    rintro d hd rfl
    rw [hdigit] at hd
    cases hd
  have hblank : isBlank c = false := by
    simp [isBlank, hother (show ' '.isDigit = false from rfl), hother (show '\t'.isDigit = false from rfl),
      hother (show '\x0c'.isDigit = false from rfl)]
  rw [hcs, List.cons_append, readExpression_cons hblank, readFrom, if_neg (hother rfl),
    if_neg (hother rfl), if_neg (hother rfl), if_neg (hother rfl),
    if_neg (not_or.2 ⟨hother rfl, hother rfl⟩), if_pos (.inl hdigit), hread]
  rfl

/-! ### Words -/

/-- No name begins with a digit. -/
theorem isIdentifierStart_of_isDigit {c : Char} (h : c.isDigit = true) :
    Text.isIdentifierStart c = false := by
  have hrange := Number.toNat_of_isDigit h
  have hdigits : ∀ n < 58, 48 ≤ n → Text.isIdentifierStart (Char.ofNat n) = false := by decide
  rw [← Char.ofNat_toNat c]
  exact hdigits c.toNat (by omega) hrange.1

/-- What starts an identifier starts nothing else. -/
theorem of_isIdentifierStart {c : Char} (h : Text.isIdentifierStart c = true) :
    isBlank c = false ∧ c.isDigit = false ∧ c ∉ ['-', '[', '(', '\x7b', '\'', '"', '.'] := by
  -- Each of the others starts no identifier, which is enough to tell it apart.
  have hother : ∀ {d : Char}, Text.isIdentifierStart d = false → c ≠ d := by
    rintro d hd rfl
    rw [hd] at h
    cases h
  refine ⟨?_, ?_, ?_⟩
  · simp only [isBlank, Bool.or_eq_false_iff, beq_eq_false_iff_ne]
    exact ⟨⟨hother (by decide), hother (by decide)⟩, hother (by decide)⟩
  · rw [Bool.eq_false_iff]
    intro hdigit
    rw [isIdentifierStart_of_isDigit hdigit] at h
    cases h
  · simp only [List.mem_cons, List.not_mem_nil, or_false, not_or]
    exact ⟨hother (by decide), hother (by decide), hother (by decide), hother (by decide),
      hother (by decide), hother (by decide), hother (by decide)⟩

/-- A word ends where no character goes on with it. -/
theorem spanWord_append {word : String} (h : Text.isIdentifier word = true) {rest : List Char}
    (hrest : ∀ c ∈ rest.head?, Text.isIdentifierRest c = false) :
    spanWord (word.toList ++ rest) = (word, rest) := by
  have hword := TypeExpr.isWord_of_isIdentifier h
  rw [spanWord, List.takeWhile_append_of_pos hword, List.dropWhile_append_of_pos hword]
  cases rest with
  | nil => simp
  | cons c rest => simp [hrest c rfl]

theorem exists_start {word : String} (h : Text.isIdentifier word = true) :
    ∃ c cs, word.toList = c :: cs ∧ Text.isIdentifierStart c = true := by
  unfold Text.isIdentifier at h
  split at h
  · cases h
  · rename_i c cs heq
    exact ⟨c, cs, heq, (Bool.and_eq_true_iff.1 h).1⟩

/-- An identifier is read as a word. -/
theorem readExpression_word {word : String} (h : Text.isIdentifier word = true) (fuel : Nat)
    (rest : List Char) :
    readExpression (fuel + 1) (word.toList ++ rest) =
      readWord (readExpression fuel) (word.toList ++ rest) := by
  obtain ⟨c, cs, hcs, hc⟩ := exists_start h
  obtain ⟨hblank, hdigit, hother⟩ := of_isIdentifierStart hc
  simp only [List.mem_cons, List.not_mem_nil, or_false, not_or] at hother
  obtain ⟨hminus, hbracket, hparenthesis, hbrace, hsingle, hdouble, hpoint⟩ := hother
  rw [hcs, List.cons_append, readExpression_cons hblank, readFrom, if_neg hminus, if_neg hbracket,
    if_neg hparenthesis, if_neg hbrace, if_neg (not_or.2 ⟨hsingle, hdouble⟩),
    if_neg (by simp [hdigit, hpoint]), if_pos hc]

/-- A name is read as one, unless it is the word that begins a function. -/
theorem reads_name (fuel : Nat) (word : String) (h : Text.isIdentifier word = true)
    (hword : word ≠ "lambda") : Reads (readExpression (fuel + 1)) word.toList (.name word) := by
  intro rest hrest
  have hspan : spanWord (word.toList ++ rest) = (word, rest) :=
    spanWord_append h fun c hc => (isEnd_of_mem (hrest c hc)).word
  rw [readExpression_word h, readWord, hspan]
  dsimp only
  rw [if_neg hword, skipBlanks_ends hrest]
  -- Only a bracket behind the word would make it the call of a function.
  cases rest with
  | nil => rfl
  | cons c rest =>
    have hparenthesis := (isEnd_of_mem (hrest c rfl)).parenthesis
    split
    · rename_i heq
      exact absurd (List.cons.inj heq).1 hparenthesis
    · rfl

/-! ### Expressions with brackets -/

variable {texts : List (List Char)} {es : List Expression}

/-- As many items may be read as there are characters. -/
theorem length_lt_fuel (texts : List (List Char)) (c : Char) (rest : List Char) :
    texts.length < (commas texts ++ c :: rest).length + 1 := by
  have hle := length_le_commas texts
  rw [List.length_append, List.length_cons]
  omega

/-- A row in square brackets is read as a list. -/
theorem reads_list (h : List.Forall₂ (Reads (readExpression fuel)) texts es) :
    Reads (readExpression (fuel + 1)) ('[' :: commas texts ++ [']']) (.list es) := by
  intro rest _
  have hcloser : ']' ∈ closers := by simp [closers]
  have hseries := readSeries_commas (isItemReader_readExpression fuel) hcloser h
    (length_lt_fuel texts ']' rest) rest
  rw [List.append_assoc, List.cons_append, List.singleton_append, readExpression_cons rfl, readFrom,
    if_neg (by decide), if_pos rfl, hseries]
  rfl

/-- A tuple of no items, or of two or more. -/
theorem reads_tuple (h : List.Forall₂ (Reads (readExpression fuel)) texts es) (hne : es.length ≠ 1) :
    Reads (readExpression (fuel + 1)) ('(' :: commas texts ++ [')']) (.tuple es) := by
  intro rest _
  have hcloser : ')' ∈ closers := by simp [closers]
  have hseries := readSeries_commas (isItemReader_readExpression fuel) hcloser h
    (length_lt_fuel texts ')' rest) rest
  -- A single expression would be one in brackets: it is left out by the hypothesis.
  have htuple : parenthesized es (decide (1 < es.length)) = .tuple es := by
    match es with
    | [] => rfl
    | [e] => exact absurd rfl hne
    | _ :: _ :: _ => rfl
  rw [List.append_assoc, List.cons_append, List.singleton_append, readExpression_cons rfl, readFrom,
    if_neg (by decide), if_neg (by decide), if_pos rfl, hseries]
  show some (parenthesized es (decide (1 < es.length)), rest) = _
  rw [htuple]

/-- A tuple of one item. -/
theorem reads_tuple_single (h : Reads (readExpression fuel) text e) :
    Reads (readExpression (fuel + 1)) ('(' :: text ++ [',', ')']) (.tuple [e]) := by
  intro rest _
  have hcloser : ')' ∈ closers := by simp [closers]
  have hseries := readSeries_single (isItemReader_readExpression fuel) hcloser h
    (text.length + rest.length + 1) rest
  have hlength : (text ++ ',' :: ')' :: rest).length + 1 = text.length + rest.length + 1 + 2 := by
    simp only [List.length_append, List.length_cons]
    omega
  rw [List.append_assoc, List.cons_append, readExpression_cons rfl, readFrom, if_neg (by decide),
    if_neg (by decide), if_pos rfl]
  simp only [List.cons_append, List.nil_append, hlength, hseries]
  rfl

/-- A key and a value with a colon between them. -/
theorem reads_entry {key value : List Char} {k v : Expression}
    (hkey : Reads (readExpression fuel) key k) (hvalue : Reads (readExpression fuel) value v) :
    Reads (readEntry (readExpression fuel)) (key ++ ':' :: ' ' :: value) (k, v) := by
  intro rest hrest
  rw [List.append_assoc, readEntry, List.cons_append, List.cons_append,
    hkey _ (ends_cons (by simp) _)]
  simp only [Option.bind_eq_bind, Option.bind_some, skipBlanks_cons (show isBlank ':' = false from rfl),
    readExpression_blank, hvalue rest hrest]
  rfl

/-- Entries can be the items of a row, since they begin with an expression. -/
theorem isItemReader_readEntry (fuel : Nat) : IsItemReader (readEntry (readExpression fuel)) where
  blank cs := by rw [readEntry, readEntry, readExpression_blank]
  closer c h cs := by
    rw [readEntry, readExpression_closer h]
    rfl

/-- A row of entries in braces is read as a dictionary. -/
theorem reads_dict {entries : List (Expression × Expression)}
    (h : List.Forall₂ (Reads (readEntry (readExpression fuel))) texts entries) :
    Reads (readExpression (fuel + 1)) ('\x7b' :: commas texts ++ ['\x7d']) (.dict entries) := by
  intro rest _
  have hcloser : '\x7d' ∈ closers := by simp [closers]
  have hseries := readSeries_commas (isItemReader_readEntry fuel) hcloser h
    (length_lt_fuel texts '\x7d' rest) rest
  rw [List.append_assoc, List.cons_append, List.singleton_append, readExpression_cons rfl, readFrom,
    if_neg (by decide), if_neg (by decide), if_neg (by decide), if_pos rfl, hseries]
  rfl

/-! ### Factories -/

/-- A word that a sign ends. -/
theorem spanWord_sign (word : String) (h : Text.isIdentifier word = true) {c : Char}
    (hc : Text.isIdentifierRest c = false) (cs : List Char) :
    spanWord (word.toList ++ c :: cs) = (word, c :: cs) :=
  spanWord_append h fun d hd => by
    rw [← Option.some.inj hd]
    exact hc

/-- A function that gives an expression. -/
theorem reads_thunk (h : Reads (readExpression fuel) text e) :
    Reads (readExpression (fuel + 1)) ("lambda".toList ++ ':' :: ' ' :: text) (.thunk e) := by
  intro rest hrest
  have hspan := spanWord_sign "lambda" (by decide) (isEnd_of_mem (c := ':') (by simp)).word
    (' ' :: text ++ rest)
  rw [List.append_assoc, List.cons_append, readExpression_word (by decide), readWord, hspan]
  simp only [if_true, List.cons_append, skipBlanks_cons (show isBlank ':' = false from rfl),
    readExpression_blank, h rest hrest]
  rfl

/-- An argument by keyword. -/
theorem reads_argument (word : String) (hword : Text.isIdentifier word = true)
    (h : Reads (readExpression fuel) text e) :
    Reads (readArgument (readExpression fuel)) (word.toList ++ '=' :: text) (word, e) := by
  intro rest hrest
  have hspan := spanWord_sign word hword (c := '=') (by decide +kernel) (text ++ rest)
  have hblank : skipBlanks (word.toList ++ '=' :: (text ++ rest)) = word.toList ++ '=' :: (text ++ rest) := by
    obtain ⟨c, cs, hcs, hc⟩ := exists_start hword
    rw [hcs, List.cons_append]
    exact skipBlanks_cons (of_isIdentifierStart hc).1 _
  rw [List.append_assoc, List.cons_append, readArgument, hblank, hspan]
  simp only [skipBlanks_cons (show isBlank '=' = false from rfl), h rest hrest]
  rfl

/-- A field whose factory gives the value of an expression. -/
theorem reads_field (h : Reads (readExpression fuel) text e) :
    Reads (readExpression (fuel + 2)) ("field(default_factory=lambda: ".toList ++ text ++ [')'])
      (.call "field" [("default_factory", .thunk e)]) := by
  intro rest _
  have hcloser : ')' ∈ closers := by simp [closers]
  have hargument := reads_argument "default_factory" (by decide) (reads_thunk h)
  have hspan := spanWord_sign "field" (by decide) (c := '(') (by decide +kernel)
    ("default_factory".toList ++ '=' :: ("lambda".toList ++ ':' :: ' ' :: text) ++ ')' :: rest)
  -- The text is split after the word, which is where the reader decides that it is a call.
  have hsplit : "field(default_factory=lambda: ".toList ++ text ++ [')'] ++ rest = "field".toList ++ '(' ::
      ("default_factory".toList ++ '=' :: ("lambda".toList ++ ':' :: ' ' :: text) ++ ')' :: rest) := by
    simp
  rw [hsplit, readExpression_word (by decide), readWord, hspan]
  simp only [show "field" ≠ "lambda" by decide, if_false, skipBlanks_cons (show isBlank '(' = false from rfl),
    readSeries_last hcloser hargument]
  rfl

end Code

end DataShapes
