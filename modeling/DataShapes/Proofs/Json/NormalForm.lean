import DataShapes.Json.Read
import DataShapes.Proofs.Outcome
import DataShapes.Proofs.Value.Equality
import DataShapes.Proofs.Value.Records
import Mathlib.Data.List.Pairwise
import Mathlib.Data.Nat.Digits.Defs

/-!
# What JSON keeps of a value

A value with a normal form is written to its end.  In the normal form of a dictionary all keys are texts;
a key that is a word stands for no other kind of key, so the entry under it is kept.

Main statements:
* `Json.problem_write`: a value with a normal form is written completely;
* `Json.IsWord.eq_str`: a word is the text of no key but itself;
* `Json.normalForm_dict_eq_ok`: the normal form of a dictionary is one under texts;
* `Json.get?_normalForm`: the entry under a word is kept.
-/

namespace DataShapes

open Outcome

/-- Two outputs are written without a problem when each of them is. -/
theorem Output.problem_append (a b : Output) :
    (a ++ b).problem = none ↔ a.problem = none ∧ b.problem = none := by
  obtain ⟨text, problem⟩ := a
  cases problem with
  | some p =>
    show some p = none ↔ _
    simp
  | none =>
    show b.problem = none ↔ _
    simp

namespace Json

/-! ### Complete writing -/

mutual

/-- A value with a normal form is written completely. -/
theorem problem_write (l : Layout) (level : Nat) (v : Value) {w : Value} (h : normalForm v = .ok w) :
    (write l level v).problem = none := by
  -- Empty containers are written in one piece, others between their brackets.
  cases v with
  | null | bool b | int n | float d | str s => rfl
  | descriptor d | shape handle | foreign kind text => exact absurd h nofun
  | list items =>
    obtain ⟨ws, hws, -⟩ := do_eq_ok_iff.1 h
    cases items with
    | nil => rfl
    | cons x xs =>
      have hitems := problem_writeItems l (level + 1) true (x :: xs) hws
      rw [write, Output.problem_append, Output.problem_append]
      · exact ⟨⟨rfl, hitems⟩, rfl⟩
      · nofun
  | tuple items =>
    obtain ⟨ws, hws, -⟩ := do_eq_ok_iff.1 h
    cases items with
    | nil => rfl
    | cons x xs =>
      have hitems := problem_writeItems l (level + 1) true (x :: xs) hws
      rw [write, Output.problem_append, Output.problem_append]
      · exact ⟨⟨rfl, hitems⟩, rfl⟩
      · nofun
  | dict entries =>
    obtain ⟨ws, hws, -⟩ := do_eq_ok_iff.1 h
    cases entries with
    | nil => rfl
    | cons e es =>
      have hentries := problem_writeEntries l (level + 1) true (e :: es) hws
      rw [write, Output.problem_append, Output.problem_append]
      · exact ⟨⟨rfl, hentries⟩, rfl⟩
      · nofun

/-- Items that have normal forms are written without a problem. -/
theorem problem_writeItems (l : Layout) (level : Nat) (first : Bool) (vs : List Value) {ws : List Value}
    (h : normalForms vs = .ok ws) : (writeItems l level first vs).problem = none := by
  cases vs with
  | nil => rfl
  | cons v vs =>
    obtain ⟨w, hw, hrest⟩ := do_eq_ok_iff.1 h
    obtain ⟨ws', hws', -⟩ := do_eq_ok_iff.1 hrest
    rw [writeItems, Output.problem_append, Output.problem_append]
    exact ⟨⟨rfl, problem_write l level v hw⟩, problem_writeItems l level false vs hws'⟩

/-- So are entries. -/
theorem problem_writeEntries (l : Layout) (level : Nat) (first : Bool) (es : List (Value × Value))
    {fs : List (Value × Value)} (h : normalEntries es = .ok fs) :
    (writeEntries l level first es).problem = none := by
  match es with
  | [] => rfl
  | (k, v) :: es =>
    obtain ⟨key, hkey, h⟩ := do_eq_ok_iff.1 h
    obtain ⟨w, hw, h⟩ := do_eq_ok_iff.1 h
    obtain ⟨fs', hfs', -⟩ := do_eq_ok_iff.1 h
    rw [writeEntries, Output.problem_append, Output.problem_append, hkey]
    exact ⟨⟨rfl, problem_write l level v hw⟩, problem_writeEntries l level false es hfs'⟩

end

/-! ### Texts of keys -/

/-- The text starts like a number. -/
def StartsNumber (s : String) : Prop := ∃ c cs, s.toList = c :: cs ∧ (c.isDigit = true ∨ c = '-')

/-- What starts a number goes on to do so when more follows. -/
theorem StartsNumber.append {s : String} (h : StartsNumber s) (t : String) : StartsNumber (s ++ t) := by
  obtain ⟨c, cs, hs, hc⟩ := h
  exact ⟨c, cs ++ t.toList, by rw [String.toList_append, hs, List.cons_append], hc⟩

theorem startsNumber_natural (n : Nat) : StartsNumber (toString n) := by
  have hdigits : (toString n).toList = Nat.toDigits 10 n := by simp
  obtain ⟨c, cs, hcs⟩ := List.exists_cons_of_ne_nil (Nat.toDigits_ne_nil (n := n) (b := 10))
  refine ⟨c, cs, hdigits.trans hcs, .inl ?_⟩
  refine Nat.isDigit_of_mem_toDigits (b := 10) (n := n) (by decide) (by decide) ?_
  rw [hcs]
  exact List.mem_cons_self

theorem startsNumber_minus (s : String) : StartsNumber ("-" ++ s) :=
  StartsNumber.append ⟨'-', [], rfl, .inr rfl⟩ s

/-- An integer starts with a digit or a minus sign. -/
theorem startsNumber_integer (n : Int) : StartsNumber (toString n) := by
  cases n with
  | ofNat n => exact startsNumber_natural n
  | negSucc n => exact startsNumber_minus (toString (n + 1))

/-- The first digits of a natural number, at least one. -/
theorem startsNumber_take (n : Nat) {count : Nat} (h : count ≠ 0) :
    StartsNumber (String.ofList ((toString n).toList.take count)) := by
  obtain ⟨c, cs, hcs, hc⟩ := startsNumber_natural n
  obtain ⟨m, rfl⟩ := Nat.exists_eq_succ_of_ne_zero h
  exact ⟨c, cs.take m, by rw [hcs, String.toList_ofList]; rfl, hc⟩

/-- So does the decimal text of a floating-point number. -/
theorem startsNumber_layOut (style : Number.Style) (x : Decimal) :
    StartsNumber (Number.layOut style x) := by
  have hzero : StartsNumber "0." := ⟨'0', ['.'], rfl, .inl rfl⟩
  have hall : StartsNumber (String.ofList (toString x.digits).toList) := by
    rw [String.ofList_toList]
    exact startsNumber_natural x.digits
  -- The point stands in front of the digits, behind them or between them, or an exponent follows.
  unfold Number.layOut
  simp only
  split
  · split
    · exact (hzero.append _).append _
    · split
      · exact (hall.append _).append _
      · have hpoint : (((toString x.digits).toList.length : Int) + x.exponent).toNat ≠ 0 := by omega
        exact ((startsNumber_take _ hpoint).append _).append _
  · exact (((startsNumber_take _ one_ne_zero).append _).append _).append _

/-- A floating-point number starts like a number unless it is not finite. -/
theorem render_eq_or_startsNumber (style : Number.Style) (d : Double) :
    Number.render style d = style.nan ∨ Number.render style d = style.infinity ∨
      Number.render style d = style.negativeInfinity ∨ StartsNumber (Number.render style d) := by
  have hsigned : ∀ s : String, StartsNumber s →
      StartsNumber ((if d.isNegative then "-" else "") ++ s) := by
    intro s hs
    -- Not a number, one of the infinities, zero, or a row of digits.
    split
    · exact startsNumber_minus s
    · simpa using hs
  unfold Number.render
  split
  · exact .inl rfl
  · split
    · split
      · exact .inr (.inr (.inl rfl))
      · exact .inr (.inl rfl)
    · refine .inr (.inr (.inr ?_))
      simp only
      split
      · exact hsigned "0.0" ⟨'0', ['.', '0'], rfl, .inl rfl⟩
      · exact hsigned _ (startsNumber_layOut style _)

/-- A text that only a text is written as: it names no value and starts like no number. -/
structure IsWord (word : String) : Prop where
  not_name : word ∉ names.map Prod.fst
  not_number : ¬ StartsNumber word

/-- A word is the text of no key but itself. -/
theorem IsWord.eq_str {word : String} (hword : IsWord word) {k : Value} (h : keyText k = .ok word) :
    k = .str word := by
  obtain ⟨hname, hnumber⟩ := hword
  -- A key that is no text is written as a name or as a number.
  unfold keyText at h
  split at h
  case h_1 s => rw [Except.ok.inj h]
  case h_2 d =>
    rw [← Except.ok.inj h] at hname hnumber
    rcases render_eq_or_startsNumber numberStyle d with hd | hd | hd | hd
    · exact absurd (by rw [hd]; decide) hname
    · exact absurd (by rw [hd]; decide) hname
    · exact absurd (by rw [hd]; decide) hname
    · exact absurd hd hnumber
  case h_3 b =>
    rw [← Except.ok.inj h] at hname
    exact absurd (by cases b <;> decide) hname
  case h_4 =>
    rw [← Except.ok.inj h] at hname
    exact absurd (by decide) hname
  case h_5 n =>
    rw [← Except.ok.inj h] at hnumber
    exact absurd (startsNumber_integer n) hnumber
  case h_6 => exact absurd h nofun

/-! ### Dictionaries -/

/-- The entry of a dictionary and what becomes of it. -/
def Becomes (e : Value × Value) (f : String × Value) : Prop :=
  keyText e.1 = .ok f.1 ∧ normalForm e.2 = .ok f.2

/-- The entries of a normal form are those of a record, each with the text of its key. -/
theorem normalEntries_eq_ok {es fs : List (Value × Value)} (h : normalEntries es = .ok fs) :
    ∃ t : List (String × Value), fs = t.map (fun e => (.str e.1, e.2)) ∧ List.Forall₂ Becomes es t := by
  induction es generalizing fs with
  | nil => exact ⟨[], (Except.ok.inj h).symm, .nil⟩
  | cons e es ih =>
    obtain ⟨key, hkey, h⟩ := do_eq_ok_iff.1 h
    obtain ⟨w, hw, h⟩ := do_eq_ok_iff.1 h
    obtain ⟨fs', hfs', h⟩ := do_eq_ok_iff.1 h
    obtain ⟨t, rfl, ht⟩ := ih hfs'
    exact ⟨(key, w) :: t, (pure_eq_ok_iff.1 h).symm, .cons ⟨hkey, hw⟩ ht⟩

/-- The normal form of a dictionary is one under texts. -/
theorem normalForm_dict_eq_ok {es : List (Value × Value)} {v : Value}
    (h : normalForm (.dict es) = .ok v) :
    ∃ t : List (String × Value), v = .record (Table.ofList t) ∧ List.Forall₂ Becomes es t := by
  obtain ⟨fs, hfs, hv⟩ := do_eq_ok_iff.1 h
  obtain ⟨t, rfl, ht⟩ := normalEntries_eq_ok hfs
  refine ⟨t, ?_, ht⟩
  rw [← pure_eq_ok_iff.1 hv, Value.dictOf_record]
  rfl

/-- The entry under a word is kept: no other key is written like it. -/
theorem get?_normalForm {es : List (Value × Value)} {v a b : Value} {word : String}
    (hkeys : es.Pairwise fun e f => ¬ e.1.Same f.1) (hword : IsWord word)
    (hv : normalForm (.dict es) = .ok v) (ha : (Value.dict es).get? word = some a)
    (hb : normalForm a = .ok b) : v.get? word = some b := by
  obtain ⟨e, hfind, rfl⟩ := Option.map_eq_some_iff.1 ha
  have he : e ∈ es := List.mem_of_find?_eq_some hfind
  have hkey : e.1 = .str word := by
    have hbeq : (e.1 == Value.str word) = true := by simpa using List.find?_some hfind
    have hsame : e.1.Same (.str word) := hbeq
    obtain ⟨s, hs, rfl⟩ := Value.equal_str_iff.1 ((Value.equivAt e.1).symm hsame)
    exact hs
  obtain ⟨t, rfl, ht⟩ := normalForm_dict_eq_ok hv
  -- Whatever was written under the word comes from this entry.
  have honly : ∀ f ∈ t, f.1 = word → f.2 = b := by
    intro f hf hfword
    obtain ⟨e', he', hbecomes⟩ := mem_of_forall₂ ht hf
    have hkey' : e'.1 = .str word := hword.eq_str (hfword ▸ hbecomes.1)
    have hee' : e = e' := by
      by_contra hne
      have : Std.Symm fun e f : Value × Value => ¬ e.1.Same f.1 :=
        ⟨fun e f hef hfe => hef ((Value.equivAt _).symm hfe)⟩
      refine hkeys.forall he he' hne ?_
      rw [hkey, hkey']
      exact (Value.equivAt _).refl
    have hf : normalForm e.2 = .ok f.2 := hee' ▸ hbecomes.2
    exact Except.ok.inj (hf.symm.trans hb)
  have hsome : (Table.lastOf t word).isSome = true := by
    obtain ⟨f, hf, hbecomes⟩ := mem_of_forall₂ ht.flip he
    have hfword : f.1 = word := by
      rw [hkey] at hbecomes
      exact (Except.ok.inj hbecomes.1).symm
    rw [← hfword]
    exact Table.isSome_lastOf hf
  obtain ⟨w, hw⟩ := Option.isSome_iff_exists.1 hsome
  have hwb : w = b := honly (word, w) (Table.mem_of_lastOf hw) rfl
  have hget : Table.get? (Table.ofList t) word = some w := by
    have hall := Table.get?_putAll [] t word
    rw [hw] at hall
    exact hall
  show Value.lookup _ _ = _
  rw [Value.lookup_record, hget, hwb]

end Json

end DataShapes
