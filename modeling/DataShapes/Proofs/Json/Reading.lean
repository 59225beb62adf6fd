import DataShapes.Json.Read
import Mathlib.Data.List.TakeDrop
import Mathlib.Data.List.TakeWhile

/-!
# What reading JSON leaves over

A named value or a number has no colon in it, so one that stands in the text is left over behind it.  A
text that begins with neither a quote nor a bracket therefore has no value once a colon stands in it, and a
text in quotes has none when a colon stands behind the closing quote.

Main statements:
* `Json.read_eq_none_of_colon`: a colon behind a number or a name;
* `Json.read_eq_none_of_quoted`: a colon behind a text in quotes.
-/

namespace DataShapes

namespace Json

/-! ### Numbers -/

/-- A colon is no digit, so it stays in what follows. -/
theorem colon_mem_spanDigits {cs : List Char} (h : ':' ∈ cs) : ':' ∈ (Number.spanDigits cs).2 := by
  unfold Number.spanDigits
  rw [List.span_eq_takeWhile_dropWhile]
  rw [← List.takeWhile_append_dropWhile (p := Char.isDigit) (l := cs)] at h
  rcases List.mem_append.1 h with h | h
  · exact absurd (List.mem_takeWhile_imp h) (by decide)
  · exact h

/-- Nor is it a sign. -/
theorem colon_mem_spanSign {cs : List Char} (h : ':' ∈ cs) : ':' ∈ (Number.spanSign cs).2 := by
  unfold Number.spanSign
  split
  · simpa using h
  · simpa using h
  · exact h

/-- Nor is it a part of a fraction. -/
theorem colon_mem_spanFraction {cs : List Char} (h : ':' ∈ cs) : ':' ∈ (spanFraction cs).2 := by
  unfold spanFraction
  split
  · rename_i cs
    have hdigits : ':' ∈ (Number.spanDigits cs).2 := colon_mem_spanDigits (by simpa using h)
    split
    · exact h
    · rename_i hspan
      rwa [hspan] at hdigits
  · exact h

/-- Nor is it a part of an exponent. -/
theorem colon_mem_spanExponent {cs : List Char} (h : ':' ∈ cs) : ':' ∈ (spanExponent cs).2 := by
  unfold spanExponent
  split
  · rename_i e more
    split
    · rename_i he
      have hne : ':' ≠ e := by
        rintro rfl
        simp at he
      have hmore : ':' ∈ more := by simpa [hne] using h
      -- Neither the sign nor the digits take a colon.
      have hdigits := colon_mem_spanDigits (colon_mem_spanSign hmore)
      simp only
      split
      · exact h
      · rename_i hspan
        rwa [hspan] at hdigits
    · exact h
  · exact h

/-- A colon is left over behind the digits of an integral part, a fraction and an exponent. -/
theorem colon_mem_spans {cs : List Char} (h : ':' ∈ cs) : ':' ∈ (spanExponent (spanFraction cs).2).2 :=
  colon_mem_spanExponent (colon_mem_spanFraction h)

/-- A colon is left over behind a number. -/
theorem colon_mem_of_readNumber {cs rest : List Char} {v : Value} (h : readNumber cs = some (v, rest))
    (hcolon : ':' ∈ cs) : ':' ∈ rest := by
  -- Whether it is an integer or not, the same is left over.
  have hrest : ∀ {a b : Bool} {x y : Value} {left : List Char},
      (if a then none else if b then some (x, left) else some (y, left)) = some (v, rest) →
        ':' ∈ left → ':' ∈ rest := by
    intro a b x y left h hleft
    obtain ⟨-, h⟩ := Option.ite_none_left_eq_some.1 h
    have heq : left = rest := by
      cases b
      · exact (Prod.mk.inj (Option.some.inj h)).2
      · exact (Prod.mk.inj (Option.some.inj h)).2
    rwa [← heq]
  unfold readNumber at h
  split at h
  rename_i negative digits hsign
  have hdigits : ':' ∈ digits := by
    split at hsign
    · rw [← (Prod.mk.inj hsign).2]
      simpa using hcolon
    · rw [← (Prod.mk.inj hsign).2]
      exact hcolon
  split at h
  rename_i whole left hwhole
  have hleft : ':' ∈ left := by
    split at hwhole
    · rw [← (Prod.mk.inj hwhole).2]
      simpa using hdigits
    · have hspan := colon_mem_spanDigits hdigits
      rwa [hwhole] at hspan
  exact hrest h (colon_mem_spans hleft)

/-! ### Names -/

/-- A colon is left over behind a named value. -/
theorem colon_mem_of_readName {cs rest : List Char} {v : Value} (h : readName cs = some (v, rest))
    (hcolon : ':' ∈ cs) : ':' ∈ rest := by
  obtain ⟨e, he, h⟩ := List.exists_of_findSome?_eq_some h
  simp only at h
  split at h
  · rename_i hprefix
    -- No name of a value holds a colon, so it stands behind the name.
    have hname : ':' ∉ e.1.toList := by
      have hall : ∀ name ∈ names.map Prod.fst, ':' ∉ name.toList := by decide
      exact hall e.1 (List.mem_map_of_mem he)
    rw [← (Prod.mk.inj (Option.some.inj h)).2]
    obtain ⟨more, rfl⟩ := List.isPrefixOf_iff_prefix.1 hprefix
    rw [List.drop_left]
    rcases List.mem_append.1 hcolon with hcolon | hcolon
    · exact absurd hcolon hname
    · exact hcolon
  · exact absurd h nofun

/-! ### Texts in quotes -/

/-- A character that stands for itself is read over. -/
theorem readString_literal {fuel : Nat} {c : Char} {cs s rest : List Char} (hquote : c ≠ '"')
    (hbackslash : c ≠ '\\') (h : readString (fuel + 1) (c :: cs) = some (s, rest)) :
    ∃ s', readString fuel cs = some (s', rest) := by
  unfold readString at h
  rw [if_neg hquote, if_neg hbackslash] at h
  split at h
  · exact absurd h nofun
  · obtain ⟨⟨s', rest'⟩, hrest, h⟩ := Option.bind_eq_some_iff.1 h
    exact ⟨s', by rw [hrest, (Prod.mk.inj (Option.some.inj h)).2]⟩

/-- Behind a backslash stands a code or a letter that is known. -/
theorem readString_backslash {fuel : Nat} {cs s rest : List Char}
    (h : readString (fuel + 1) ('\\' :: cs) = some (s, rest)) :
    (∃ digits high left s', cs = 'u' :: digits ∧ readUnit digits = some (high, left) ∧
      readString fuel (joinUnits high left).2 = some (s', rest)) ∨
    ∃ l left s', cs = l :: left ∧ (unescape? l).isSome = true ∧ readString fuel left = some (s', rest) := by
  unfold readString at h
  rw [if_neg (by decide), if_neg (by decide), if_pos rfl] at h
  split at h
  · rename_i digits
    obtain ⟨⟨high, left⟩, hunit, h⟩ := Option.bind_eq_some_iff.1 h
    -- What is joined is named once, since the result is taken apart twice.
    obtain ⟨⟨c, left'⟩, hjoin⟩ : ∃ joined, joinUnits high left = joined := ⟨_, rfl⟩
    simp only [hjoin] at h
    obtain ⟨⟨s', rest'⟩, hrest, h⟩ := Option.bind_eq_some_iff.1 h
    have hleft : rest' = rest := (Prod.mk.inj (Option.some.inj h)).2
    exact .inl ⟨digits, high, left, s', rfl, hunit, by rw [hjoin, hrest, hleft]⟩
  · rename_i l left _
    obtain ⟨c, hc, h⟩ := Option.bind_eq_some_iff.1 h
    obtain ⟨⟨s', rest'⟩, hrest, h⟩ := Option.bind_eq_some_iff.1 h
    have hleft : rest' = rest := (Prod.mk.inj (Option.some.inj h)).2
    exact .inr ⟨l, left, s', rfl, by rw [hc]; rfl, by rw [hrest, hleft]⟩
  · exact absurd h nofun

/-! ### Texts without a value -/

/-- What is left over is not empty while a colon stands in it. -/
theorem skipSpace_ne_nil {cs : List Char} (h : ':' ∈ cs) : skipSpace cs ≠ [] := by
  intro hnil
  exact absurd (List.dropWhile_eq_nil_iff.1 hnil ':' h) (by decide)

/-- A colon that is left over behind every value at the start leaves the text without a value. -/
theorem read_eq_none {c : Char} {cs : List Char} (hspace : isSpace c = false)
    (hrest : ∀ fuel v rest, readValue (fuel + 1) (c :: cs) = some (v, rest) → ':' ∈ rest) :
    read (String.ofList (c :: cs)) = none := by
  -- Nothing is skipped in front, so the value starts at the first character.
  have hskip : skipSpace (c :: cs) = c :: cs := by
    unfold skipSpace
    rw [List.dropWhile_cons, hspace]
    rfl
  unfold read
  simp only [String.toList_ofList, hskip]
  split
  · rename_i v rest hvalue
    have hcolon := hrest _ v rest hvalue
    rw [if_neg (by simpa using skipSpace_ne_nil hcolon)]
  · rfl

/-- A text that begins with neither a quote nor a bracket has no value when a colon stands in it. -/
theorem read_eq_none_of_colon {c : Char} {cs : List Char} (hstart : c ∉ ['"', '[', '\x7b'])
    (hspace : isSpace c = false) (hcolon : ':' ∈ cs) : read (String.ofList (c :: cs)) = none := by
  refine read_eq_none hspace ?_
  intro fuel v rest h
  have hmem : ':' ∈ c :: cs := List.mem_cons_of_mem _ hcolon
  unfold readValue at h
  split at h
  · exact absurd (by simp [(List.cons_eq_cons.1 ‹_ :: _ = _ :: _›).1]) hstart
  · exact absurd (by simp [(List.cons_eq_cons.1 ‹_ :: _ = _ :: _›).1]) hstart
  · exact absurd (by simp [(List.cons_eq_cons.1 ‹_ :: _ = _ :: _›).1]) hstart
  · rcases Option.or_eq_some_iff.1 h with h | ⟨-, h⟩
    · exact colon_mem_of_readName h hmem
    · exact colon_mem_of_readNumber h hmem

/-- A text in quotes has no value when a colon stands behind the quote that closes it. -/
theorem read_eq_none_of_quoted {cs : List Char}
    (hclose : ∀ fuel s rest, readString fuel cs = some (s, rest) → ':' ∈ rest) :
    read (String.ofList ('"' :: cs)) = none := by
  refine read_eq_none rfl ?_
  intro fuel v rest h
  unfold readValue at h
  simp only [Option.bind_eq_bind, Option.bind_eq_some_iff] at h
  obtain ⟨⟨s, rest'⟩, hstring, h⟩ := h
  rw [← (Prod.mk.inj (Option.some.inj h)).2]
  exact hclose _ s rest' hstring

end Json

end DataShapes
