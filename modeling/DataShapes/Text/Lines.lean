/-!
# Line breaks

Files are read with every line break as a line feed: a carriage return, with a line feed behind it or alone,
counts as one.

Main definitions:
* `Text.unifyBreaks`: the text with line feeds alone.
-/

namespace DataShapes

namespace Text

/-- Every line break becomes a line feed. -/
def unifyBreaks : List Char → List Char
  | [] => []
  | '\r' :: '\n' :: cs => '\n' :: unifyBreaks cs
  | c :: cs => (if c = '\r' then '\n' else c) :: unifyBreaks cs

/-- No carriage return is left. -/
theorem not_mem_unifyBreaks (cs : List Char) : '\r' ∉ unifyBreaks cs := by
  fun_induction unifyBreaks cs with
  | case1 => simp
  | case2 cs ih => simp [ih]
  | case3 c cs _ ih =>
    simp only [List.mem_cons, not_or]
    refine ⟨?_, ih⟩
    split
    · decide
    · exact fun h => absurd h.symm ‹_›

/-- Every character but the carriage return stays. -/
theorem mem_unifyBreaks {c : Char} (hc : c ≠ '\r') {cs : List Char} (h : c ∈ cs) :
    c ∈ unifyBreaks cs := by
  fun_induction unifyBreaks cs with
  | case1 => exact h
  | case2 cs ih =>
    rcases List.mem_cons.1 h with rfl | h
    · exact absurd rfl hc
    · rcases List.mem_cons.1 h with rfl | h
      · exact List.mem_cons_self
      · exact List.mem_cons_of_mem _ (ih h)
  | case3 d cs _ ih =>
    rcases List.mem_cons.1 h with rfl | h
    · rw [if_neg hc]
      exact List.mem_cons_self
    · exact List.mem_cons_of_mem _ (ih h)

/-- Without a carriage return nothing changes at the start. -/
theorem unifyBreaks_append {cs : List Char} (h : '\r' ∉ cs) (more : List Char) :
    unifyBreaks (cs ++ more) = cs ++ unifyBreaks more := by
  induction cs with
  | nil => rfl
  | cons c cs ih =>
    have hc : c ≠ '\r' := by
      rintro rfl
      exact h List.mem_cons_self
    rw [List.cons_append, unifyBreaks, if_neg hc, ih fun hcs => h (List.mem_cons_of_mem _ hcs)]
    · rfl
    · intro cs' hcr
      exact absurd hcr hc

/-- Breaks are unified in each of two parts when none goes over both. -/
theorem unifyBreaks_append_of_head {more : List Char} (h : more.head? ≠ some '\n') (cs : List Char) :
    unifyBreaks (cs ++ more) = unifyBreaks cs ++ unifyBreaks more := by
  fun_induction unifyBreaks cs with
  | case1 => rfl
  | case2 cs ih =>
    rw [List.cons_append, List.cons_append, unifyBreaks, ih]
    rfl
  | case3 c cs hpair ih =>
    rw [List.cons_append, unifyBreaks, ih]
    · rfl
    · rintro ds rfl heq
      cases cs with
      | nil =>
        rw [show more = '\n' :: ds from heq] at h
        exact h rfl
      | cons d cs => exact hpair cs rfl (by rw [(List.cons.inj heq).1])

/-- Unified breaks take no more characters. -/
theorem length_unifyBreaks_le (cs : List Char) : (unifyBreaks cs).length ≤ cs.length := by
  fun_induction unifyBreaks cs with
  | case1 => exact Nat.le_refl _
  | case2 cs ih =>
    simp only [List.length_cons]
    omega
  | case3 c cs _ ih => exact Nat.succ_le_succ ih

end Text

end DataShapes
