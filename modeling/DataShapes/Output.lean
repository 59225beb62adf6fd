import DataShapes.Problem

/-!
# Text written piece by piece

A writer emits text piece by piece and may run into a problem on the way.  What was emitted before
the problem has been written all the same, so an output is a text with an optional problem at its
end.

Main definitions:
* `Output`, `Output.andThen`: an output, and the next one behind it;
* `Output.all`: several outputs one after the other;
* `Disruption`, `Output.disrupted`: what ends the writing of an open file too early, and what gets into the file then;
* `Output.complete`: the text of an output without a problem.
-/

namespace DataShapes

/-- The text that was written, and the problem that ended the writing. -/
structure Output where
  text : String
  problem : Option Problem := none

namespace Output

/-- A piece of text. -/
def piece (text : String) : Output := ⟨text, none⟩

/-- Nothing is written and the writing ends. -/
def stop (p : Problem) : Output := ⟨"", some p⟩

/-- Go on writing unless there was a problem. -/
def andThen (a b : Output) : Output :=
  match a.problem with
  | some _ => a
  | none => ⟨a.text ++ b.text, b.problem⟩

instance : Append Output := ⟨andThen⟩

/-- Several outputs one after the other. -/
def all : List Output → Output
  | [] => piece ""
  | a :: as => a ++ all as

end Output

/-- What ends the writing of an open file too early, such as a full disk or a character that has no encoding. -/
structure Disruption where
  /-- The beginning of the text, which has got into the file. -/
  kept : String
  problem : Problem

namespace Output

/-- What gets into an open file.  A disruption that keeps anything but a beginning of the text never happens. -/
def disrupted (o : Output) : Option Disruption → Output
  | none => o
  | some d => if d.kept.toList.isPrefixOf o.text.toList then ⟨d.kept, some d.problem⟩ else o

/-- The whole text, when there was no problem. -/
def complete (a : Output) : Except Problem String :=
  match a.problem with
  | some p => .error p
  | none => .ok a.text

/-! ### Disruptions -/

/-- When an output gets into a file completely, no disruption has happened. -/
theorem disrupted_of_complete {o : Output} {d : Option Disruption} {whole : String}
    (h : (o.disrupted d).complete = .ok whole) : o.disrupted d = o := by
  cases d with
  | none => rfl
  | some d =>
    by_cases hkept : d.kept.toList.isPrefixOf o.text.toList = true
    · rw [disrupted, if_pos hkept] at h
      cases h
    · exact if_neg hkept

/-! ### Composition -/

@[simp] theorem complete_piece (text : String) : (piece text).complete = .ok text := rfl

end Output

end DataShapes
