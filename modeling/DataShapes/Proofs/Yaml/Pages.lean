import DataShapes.Yaml.Write
import Mathlib.Data.List.Infix
import Mathlib.Data.List.TakeDrop

/-!
# Pages only grow

Writing on a page never takes back what stands on it.  Whatever is written behind the first mark of a
document, the text therefore begins with that mark.

Main definitions:
* `Yaml.Page.Begins`: the text of one page begins that of another.

Main statements:
* `Yaml.begins_writeNode`: writing a value only adds to a page.
-/

namespace DataShapes

namespace Yaml

namespace Page

/-- The text of the page begins that of another one. -/
def Begins (p q : Page) : Prop := p.reversed <:+ q.reversed

namespace Begins

variable {p q r : Page}

theorem refl (p : Page) : p.Begins p := List.suffix_rfl

/-- A page begins with all the pages that the ones in between begin with. -/
theorem trans (hpq : p.Begins q) (hqr : q.Begins r) : p.Begins r := List.IsSuffix.trans hpq hqr

/-- What begins a text is followed by the rest of it. -/
theorem exists_append (h : p.Begins q) : ∃ rest, q.text.toList = p.text.toList ++ rest := by
  obtain ⟨more, hmore⟩ := h
  refine ⟨more.reverse, ?_⟩
  unfold text
  rw [String.toList_ofList, String.toList_ofList, ← hmore, List.reverse_append]

end Begins

/-! ### Marks and lines -/

/-- Writing goes on behind what there is. -/
theorem begins_write (cs : List Char) (p : Page) : p.Begins (p.write cs) := List.suffix_append _ _

theorem begins_breakLine (c : Char) (p : Page) : p.Begins (p.breakLine c) := List.suffix_cons _ _

theorem begins_touched (p : Page) : p.Begins p.touched := Begins.refl p

theorem begins_indicator (mark : String) (needsSpace staysFresh : Bool) (p : Page) :
    p.Begins (p.indicator mark needsSpace staysFresh) := begins_write _ p

/-- Going to the next line keeps what there is. -/
theorem begins_toIndent (indent : Nat) (p : Page) : p.Begins (p.toIndent indent) := by
  have hfill : ∀ q : Page, p.Begins q →
      p.Begins (if q.column < indent then
        { q.write (List.replicate (indent - q.column) ' ') with isSpaced := true } else q) := by
    intro q hq
    split
    · exact hq.trans (begins_write _ q)
    · exact hq
  unfold toIndent
  apply hfill
  split
  · exact begins_breakLine _ p
  · exact Begins.refl p

/-! ### Scalars -/

/-- So does writing words. -/
theorem begins_words (split : Bool) (indent fuel : Nat) (cs : List Char) (p : Page) :
    p.Begins (p.words split indent fuel cs) := by
  induction fuel generalizing cs p with
  | zero => exact Begins.refl p
  | succ fuel ih =>
    -- Behind a word the text is at its end, the line is broken, or blanks follow.
    unfold words
    simp only
    split
    · exact begins_write _ p
    · split
      · exact ((begins_write _ p).trans (begins_toIndent _ _)).trans
          ((begins_touched _).trans (ih _ _))
      · exact ((begins_write _ p).trans (begins_write _ _)).trans (ih _ _)

/-- A text of words begins with its first word. -/
theorem begins_firstWord (split : Bool) (indent fuel : Nat) (cs : List Char) (p : Page) :
    (p.write (cs.takeWhile (· != ' '))).Begins (p.words split indent (fuel + 1) cs) := by
  unfold words
  rw [List.span_eq_takeWhile_dropWhile]
  simp only
  split
  · exact Begins.refl _
  · split
    · exact (begins_toIndent _ _).trans ((begins_touched _).trans (begins_words _ _ _ _ _))
    · exact (begins_write _ _).trans (begins_words _ _ _ _ _)

/-- A blank is written in front of a scalar when one is needed. -/
theorem begins_spaced (p : Page) : p.Begins (if p.isSpaced then p else p.write [' ']) := by
  split
  · exact Begins.refl p
  · exact begins_write _ p

theorem begins_plain (split : Bool) (indent : Nat) (s : String) (p : Page) :
    p.Begins (p.plain split indent s) :=
  ((begins_spaced p).trans (begins_touched _)).trans (begins_words split indent _ _ _)

theorem begins_writeBreaks (indent : Nat) (cs : List Char) (p : Page) :
    p.Begins (p.writeBreaks indent cs) := by
  have hfold : ∀ (cs : List Char) (p : Page), p.Begins (cs.foldl (fun p c => p.breakLine c) p) := by
    intro cs
    induction cs with
    | nil => exact Begins.refl
    | cons c cs ih => exact fun p => (begins_breakLine c p).trans (ih _)
  unfold writeBreaks
  simp only
  split
  · exact ((begins_breakLine _ p).trans (hfold cs _)).trans (begins_toIndent _ _)
  · exact (hfold cs p).trans (begins_toIndent _ _)

/-- So does the inner part of a text in single quotes. -/
theorem begins_singleParts (split : Bool) (indent fuel : Nat) (isFirst : Bool) (cs : List Char)
    (p : Page) : p.Begins (p.singleParts split indent fuel isFirst cs) := by
  induction fuel generalizing isFirst cs p with
  | zero => exact Begins.refl p
  | succ fuel ih =>
    cases cs with
    | nil => exact Begins.refl p
    | cons c cs =>
      -- Whatever a part is, the rest is written on the page that it leaves.
      unfold singleParts
      refine Begins.trans ?_ (ih _ _ _)
      split
      · split
        · exact begins_toIndent _ p
        · exact begins_write _ p
      · split
        · exact begins_writeBreaks _ _ p
        · exact begins_write _ p

theorem begins_singleQuoted (split : Bool) (indent : Nat) (s : String) (p : Page) :
    (p.indicator "'" true false).Begins (p.singleQuoted split indent s) :=
  (begins_singleParts split indent _ _ _ _).trans (begins_indicator _ _ _ _)

/-- A line in double quotes is broken behind a backslash, and a space that comes next is escaped. -/
theorem begins_broken (isSpace : Prop) [Decidable isSpace] (indent : Nat) (cs : List Char) (p : Page) :
    p.Begins (if isSpace then ((p.write cs).toIndent indent).touched.write ['\\']
      else ((p.write cs).toIndent indent).touched) := by
  have hline : p.Begins ((p.write cs).toIndent indent).touched :=
    (begins_write cs p).trans (begins_toIndent indent _)
  split
  · exact hline.trans (begins_write ['\\'] _)
  · exact hline

/-- So does that of a text in double quotes, whatever is held back. -/
theorem begins_doubleParts (split : Bool) (indent length : Nat) (cs : List Char) (place : Nat)
    (held : List Char) (p : Page) : p.Begins (p.doubleParts split indent length cs place held) := by
  induction cs generalizing place held p with
  | nil => exact begins_write _ p
  | cons c cs ih =>
    unfold doubleParts
    by_cases hliteral : isLiteralChar c = true
    · simp only [hliteral, if_true]
      split
      · exact (begins_broken _ _ _ p).trans (ih _ _ _)
      · exact ih _ _ _
    · have hescape : ∀ escape, p.Begins ((p.write held.reverse).write escape) := fun escape =>
        (begins_write _ p).trans (begins_write escape _)
      -- An escape is a letter or a code, and the line may be broken behind either.
      simp only [hliteral, Bool.false_eq_true, if_false]
      split <;> split
      · exact (hescape _).trans ((begins_broken _ _ _ _).trans (ih _ _ _))
      · exact (hescape _).trans (ih _ _ _)
      · exact (hescape _).trans ((begins_broken _ _ _ _).trans (ih _ _ _))
      · exact (hescape _).trans (ih _ _ _)

theorem begins_doubleQuoted (split : Bool) (indent : Nat) (s : String) (p : Page) :
    p.Begins (p.doubleQuoted split indent s) :=
  ((begins_indicator _ _ _ p).trans (begins_doubleParts split indent _ _ _ _ _)).trans
    (begins_indicator _ _ _ _)

end Page

open Page

/-! ### Values -/

/-- A text is written behind what there is, in whatever style. -/
theorem begins_writeText (isSimpleKey : Bool) (indent : Option Nat) (s : String) (p : Page) :
    p.Begins (writeText isSimpleKey indent s p) := by
  unfold writeText
  simp only
  split
  · exact begins_plain _ _ s p
  · exact (begins_indicator _ _ _ p).trans (begins_singleQuoted _ _ s p)
  · exact begins_doubleQuoted _ _ s p

/-- So is a key. -/
theorem begins_writeKey (indent : Nat) (key : String) (p : Page) :
    p.Begins (writeKey indent key p) := by
  unfold writeKey
  refine (begins_toIndent indent p).trans ?_
  split
  · exact (begins_writeText _ _ _ _).trans (begins_indicator _ _ _ _)
  · exact (((begins_indicator _ _ _ _).trans (begins_writeText _ _ _ _)).trans
      (begins_toIndent _ _)).trans (begins_indicator _ _ _ _)

mutual

/-- Writing a value only adds to a page. -/
theorem begins_writeNode (isEntry : Bool) (indent : Option Nat) (v : Value) (p : Page) :
    p.Begins (writeNode isEntry indent v p) := by
  cases v with
  | null | bool b | int n | float d | descriptor d | shape handle | foreign kind text =>
    exact begins_plain _ _ _ p
  | str s => exact begins_writeText false indent s p
  | list items =>
    cases items with
    | nil => exact begins_indicator _ _ _ p
    | cons v vs => exact begins_writeItems _ (v :: vs) p
  | tuple items =>
    cases items with
    | nil => exact begins_indicator _ _ _ p
    | cons v vs => exact begins_writeItems _ (v :: vs) p
  | dict entries =>
    cases entries with
    | nil => exact begins_indicator _ _ _ p
    | cons e es => exact begins_writeEntries _ (e :: es) p

/-- So are the items of a list. -/
theorem begins_writeItems (indent : Nat) (vs : List Value) (p : Page) :
    p.Begins (writeItems indent vs p) := by
  cases vs with
  | nil => exact Begins.refl p
  | cons v vs =>
    have hmark := (begins_toIndent indent p).trans (begins_indicator "-" true true _)
    exact (hmark.trans (begins_writeNode false (some indent) v _)).trans (begins_writeItems indent vs _)

/-- So are the entries of a dictionary. -/
theorem begins_writeEntries (indent : Nat) (es : List (Value × Value)) (p : Page) :
    p.Begins (writeEntries indent es p) := by
  match es with
  | [] => exact Begins.refl p
  | (k, v) :: es =>
    have hkey := begins_writeKey indent k.text p
    exact (hkey.trans (begins_writeNode true (some indent) v _)).trans (begins_writeEntries indent es _)

end

end Yaml

end DataShapes
