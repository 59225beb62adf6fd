import DataShapes.Json.Quote
import DataShapes.Proofs.Code.Text

/-!
# JSON texts read as text literals

A text that is quoted for JSON is a text literal of the stub language as well.  Both have the same escapes, but a
character outside the basic plane is written as two code units, and a literal takes each of the two for a code point
of its own.  So the literal denotes the code units of the text, which are its code points exactly when all its
characters are in the basic plane.  Different texts have different code units all the same.

Main definitions:
* `Json.unitsOf`: the code units of a text;
* `Json.IsBasic`: all characters of a text are in the basic plane.

Main statements:
* `Code.readText_jsonQuote`: a JSON text denotes its code units;
* `Json.unitsOf_eq_iff`: when these are the code points;
* `Json.unitsOf_injective`: code units determine the text.
-/

namespace DataShapes

namespace Json

/-! ### Code units -/

/-- The code units of a text. -/
def unitsOf (s : String) : List Nat := s.toList.flatMap fun c => codeUnits c.toNat

/-- All characters of the text are in the basic plane. -/
def IsBasic (s : String) : Prop := ∀ c ∈ s.toList, c.toNat < 0x10000

instance (s : String) : Decidable (IsBasic s) :=
  List.decidableBAll (fun c : Char => c.toNat < 0x10000) s.toList

/-- A code point of sixteen bits is one code unit. -/
theorem codeUnits_of_lt {n : Nat} (h : n < 0x10000) : codeUnits n = [n] := if_pos h

/-- A code point above them is a pair of code units. -/
theorem codeUnits_of_le {n : Nat} (h : 0x10000 ≤ n) :
    codeUnits n = [0xD800 + (n - 0x10000) / 0x400, 0xDC00 + (n - 0x10000) % 0x400] :=
  if_neg (Nat.not_lt.2 h)

/-- Code units have sixteen bits. -/
theorem lt_of_mem_codeUnits {n u : Nat} (hn : n < 0x110000) (hu : u ∈ codeUnits n) : u < 0x10000 := by
  by_cases h : n < 0x10000
  · rw [codeUnits_of_lt h, List.mem_singleton] at hu
    omega
  · rw [codeUnits_of_le (Nat.not_lt.1 h)] at hu
    simp only [List.mem_cons, List.not_mem_nil, or_false] at hu
    omega

/-- A code point takes one code unit or two. -/
theorem length_codeUnits (n : Nat) : (codeUnits n).length = if n < 0x10000 then 1 else 2 := by
  unfold codeUnits
  split <;> rfl

/-- Every character has a code unit at least. -/
theorem length_le_units (cs : List Char) :
    cs.length ≤ (cs.flatMap fun c => codeUnits c.toNat).length := by
  induction cs with
  | nil => exact Nat.le_refl _
  | cons c cs ih =>
    rw [List.flatMap_cons, List.length_append, length_codeUnits, List.length_cons]
    split <;> omega

/-- The code units of a text are its code points when all its characters are in the basic plane. -/
theorem unitsOf_eq_iff {s : String} : unitsOf s = s.toList.map Char.toNat ↔ IsBasic s := by
  unfold unitsOf IsBasic
  generalize s.toList = cs
  constructor
  · intro h
    -- As many code units as characters leave none with two.
    have hlength : (cs.flatMap fun c => codeUnits c.toNat).length = cs.length := by rw [h, List.length_map]
    clear h
    induction cs with
    | nil => nofun
    | cons c cs ih =>
      rw [List.flatMap_cons, List.length_append, length_codeUnits, List.length_cons] at hlength
      have hrest := length_le_units cs
      by_cases hc : c.toNat < 0x10000
      · rw [if_pos hc] at hlength
        exact List.forall_mem_cons.2 ⟨hc, ih (by omega)⟩
      · rw [if_neg hc] at hlength
        omega
  · intro h
    induction cs with
    | nil => rfl
    | cons c cs ih =>
      obtain ⟨hc, hcs⟩ := List.forall_mem_cons.1 h
      rw [List.flatMap_cons, codeUnits_of_lt hc, ih hcs]
      rfl

/-- No character has a code point among the halves of pairs. -/
theorem toNat_not_half (c : Char) : c.toNat < 0xD800 ∨ 0xE000 ≤ c.toNat := by
  rcases c.valid with h | h
  · exact .inl h
  · exact .inr h.1

/-- The first code units tell the first character, and where those of the next one begin. -/
theorem codeUnits_append_inj {c d : Char} {us vs : List Nat}
    (h : codeUnits c.toNat ++ us = codeUnits d.toNat ++ vs) : c = d ∧ us = vs := by
  have hc := toNat_not_half c
  have hd := toNat_not_half d
  have hclt := Code.toNat_lt c
  have hdlt := Code.toNat_lt d
  have hsame : c.toNat = d.toNat → us = vs → c = d ∧ us = vs := fun hcode hrest =>
    ⟨Char.toNat_inj.1 hcode, hrest⟩
  -- A half of a pair is never a character, so the two lengths cannot be mixed.
  rcases Nat.lt_or_ge c.toNat 0x10000 with hclow | hchigh <;>
    rcases Nat.lt_or_ge d.toNat 0x10000 with hdlow | hdhigh
  · rw [codeUnits_of_lt hclow, codeUnits_of_lt hdlow] at h
    exact hsame (List.cons.inj h).1 (List.cons.inj h).2
  · rw [codeUnits_of_lt hclow, codeUnits_of_le hdhigh] at h
    have hhead := (List.cons.inj h).1
    omega
  · rw [codeUnits_of_le hchigh, codeUnits_of_lt hdlow] at h
    have hhead := (List.cons.inj h).1
    omega
  · rw [codeUnits_of_le hchigh, codeUnits_of_le hdhigh] at h
    obtain ⟨hhead, htail⟩ := List.cons.inj h
    obtain ⟨hlow, hrest⟩ := List.cons.inj htail
    exact hsame (by omega) hrest

/-- Code units determine the text. -/
theorem unitsOf_injective : Function.Injective unitsOf := by
  intro s t h
  rw [← String.toList_inj]
  unfold unitsOf at h
  generalize s.toList = cs at h ⊢
  generalize t.toList = ds at h ⊢
  have hne : ∀ (c : Char) (us : List Nat), codeUnits c.toNat ++ us ≠ [] := by
    intro c us hnil
    have hlength := length_codeUnits c.toNat
    rw [List.append_eq_nil_iff.1 hnil |>.1] at hlength
    split at hlength <;> cases hlength
  -- Both texts are taken apart at once, character by character.
  induction cs generalizing ds with
  | nil =>
    cases ds with
    | nil => rfl
    | cons d ds => exact absurd h.symm (hne d _)
  | cons c cs ih =>
    cases ds with
    | nil => exact absurd h (hne c _)
    | cons d ds =>
      obtain ⟨rfl, hrest⟩ := codeUnits_append_inj h
      rw [ih ds hrest]

end Json

namespace Code

/-! ### Reading -/

/-- A code unit is read as a code point. -/
theorem readEscape_unit {u : Nat} (h : u < 0x10000) (cs : List Char) :
    readEscape ('u' :: Text.hex 4 u ++ cs) = some ([u], cs) := by
  rw [List.cons_append, readEscape, if_neg (by decide), if_pos rfl, readHex_append 4 h (by omega)]
  rfl

/-- A letter behind a backslash is read as the character that it stands for. -/
theorem readEscape_jsonLetter {c l : Char} (h : Json.letter? c = some l) (cs : List Char) :
    readEscape (l :: cs) = some ([c.toNat], cs) := by
  -- The seven letters of JSON mean the same in a text literal.
  have hletter : ∀ {d k : Char}, c = d → l = k → letterPoint? k = some d.toNat →
      k ∈ ['"', '\\', 'n', 'r', 't', 'f', 'b'] → readEscape (l :: cs) = some ([c.toNat], cs) := by
    rintro d k rfl rfl hpoint hmem
    simp only [List.mem_cons, List.not_mem_nil, or_false] at hmem
    have hplain : readEscape (l :: cs) = (letterPoint? l).map fun n => ([n], cs) := by
      rcases hmem with rfl | rfl | rfl | rfl | rfl | rfl | rfl <;> rfl
    rw [hplain, hpoint]
    rfl
  unfold Json.letter? at h
  split_ifs at h with hquote hbackslash hline hreturn htab hpage hback
  · exact hletter hquote (Option.some.inj h).symm rfl (by simp)
  · exact hletter hbackslash (Option.some.inj h).symm rfl (by simp)
  · exact hletter hline (Option.some.inj h).symm rfl (by simp)
  · exact hletter hreturn (Option.some.inj h).symm rfl (by simp)
  · exact hletter htab (Option.some.inj h).symm rfl (by simp)
  · exact hletter hpage (Option.some.inj h).symm rfl (by simp)
  · exact hletter hback (Option.some.inj h).symm rfl (by simp)

/-- An escape between quotes is read by its own reader, and the text goes on behind it. -/
theorem readBody_of_escape {escape cs : List Char} {point : Nat}
    (h : readEscape (escape ++ cs) = some ([point], cs)) (fuel : Nat) :
    readBody '"' (fuel + 1) ('\\' :: escape ++ cs) =
      (readBody '"' fuel cs).map fun p => (point :: p.1, p.2) := by
  rw [List.cons_append, readBody, if_neg (by decide), if_pos rfl, h]
  simp only [Option.bind_eq_bind, Option.bind_some]
  cases readBody '"' fuel cs <;> rfl

/-- Written code units are read back one by one, so a pair is read as two code points. -/
theorem readBody_units {us : List Nat} (h : ∀ u ∈ us, u < 0x10000) (fuel : Nat) (cs : List Char) :
    readBody '"' (fuel + us.length) (us.flatMap Json.unit ++ cs) =
      (readBody '"' fuel cs).map fun p => (us ++ p.1, p.2) := by
  induction us with
  | nil => simp
  | cons u us ih =>
    obtain ⟨hu, hus⟩ := List.forall_mem_cons.1 h
    have hread := readEscape_unit hu (us.flatMap Json.unit ++ cs)
    rw [List.flatMap_cons, List.append_assoc, List.length_cons, ← Nat.add_assoc]
    show readBody '"' _ ('\\' :: ('u' :: Text.hex 4 u) ++ _) = _
    rw [readBody_of_escape hread, ih hus, Option.map_map]
    rfl

/-- Each character that is written for JSON is read as its code units, in as many steps. -/
theorem readBody_jsonEscape (c : Char) (fuel : Nat) (cs : List Char) :
    readBody '"' (fuel + (Json.codeUnits c.toNat).length) (Json.escape c ++ cs) =
      (readBody '"' fuel cs).map fun p => (Json.codeUnits c.toNat ++ p.1, p.2) := by
  unfold Json.escape
  -- A letter, a character that stands for itself, or its code units in hexadecimal.
  cases hletter : Json.letter? c with
  | some l =>
    have hlow : c.toNat < 0x10000 := by
      unfold Json.letter? at hletter
      split_ifs at hletter <;> subst_vars <;> decide
    rw [Json.codeUnits_of_lt hlow]
    have hread : readEscape ([l] ++ cs) = some ([c.toNat], cs) := readEscape_jsonLetter hletter cs
    exact readBody_of_escape hread fuel
  | none =>
    dsimp only
    split
    · rename_i hrange
      have hplain : c ≠ '"' ∧ c ≠ '\\' ∧ ¬ (c = '\n' ∨ c = '\r') := by
        refine ⟨?_, ?_, ?_⟩
        · rintro rfl
          cases hletter
        · rintro rfl
          cases hletter
        · rintro (rfl | rfl) <;> cases hletter
      rw [Json.codeUnits_of_lt (by omega), List.singleton_append]
      show readBody '"' (fuel + 1) (c :: cs) = _
      rw [readBody, if_neg hplain.1, if_neg hplain.2.1, if_neg hplain.2.2]
      cases readBody '"' fuel cs <;> rfl
    · exact readBody_units (fun u => Json.lt_of_mem_codeUnits (toNat_lt c)) fuel cs

/-- The characters between the quotes are read as code units. -/
theorem readBody_jsonBody (cs rest : List Char) {fuel : Nat}
    (hfuel : (cs.flatMap fun c => Json.codeUnits c.toNat).length < fuel) :
    readBody '"' fuel (cs.flatMap Json.escape ++ '"' :: rest) =
      some (cs.flatMap fun c => Json.codeUnits c.toNat, rest) := by
  induction cs generalizing fuel with
  | nil =>
    obtain ⟨fuel, rfl⟩ := Nat.exists_eq_succ_of_ne_zero (Nat.ne_zero_of_lt hfuel)
    exact if_pos rfl
  | cons c cs ih =>
    rw [List.flatMap_cons, List.length_append] at hfuel
    obtain ⟨more, rfl⟩ := Nat.exists_eq_add_of_le' (Nat.le_of_lt (Nat.lt_of_le_of_lt (Nat.le_add_right _ _) hfuel))
    rw [List.flatMap_cons, List.append_assoc, readBody_jsonEscape, ih (by omega)]
    rfl

/-- No character is written in fewer characters than it has code units, and none with a quote in front. -/
theorem exists_jsonEscape (c : Char) :
    ∃ d ds, Json.escape c = d :: ds ∧ d ≠ '"' ∧ (Json.codeUnits c.toNat).length ≤ (d :: ds).length := by
  have htwo : (Json.codeUnits c.toNat).length ≤ 2 := by
    rw [Json.length_codeUnits]
    split <;> decide
  unfold Json.escape
  -- The same three cases; escapes begin with a backslash.
  cases hletter : Json.letter? c with
  | some l => exact ⟨'\\', [l], rfl, by decide, htwo⟩
  | none =>
    dsimp only
    split
    · refine ⟨c, [], rfl, ?_, ?_⟩
      · rintro rfl
        cases hletter
      · rw [Json.codeUnits_of_lt (by omega)]
        exact Nat.le_refl _
    · rcases Nat.lt_or_ge c.toNat 0x10000 with hlow | hhigh
      · rw [Json.codeUnits_of_lt hlow]
        exact ⟨'\\', _, rfl, by decide, by simp⟩
      · rw [Json.codeUnits_of_le hhigh]
        exact ⟨'\\', _, rfl, by decide, by simp⟩

/-- Escapes have no fewer characters than code units, so the fuel for reading suffices. -/
theorem length_units_le (cs : List Char) :
    (cs.flatMap fun c => Json.codeUnits c.toNat).length ≤ (cs.flatMap Json.escape).length := by
  induction cs with
  | nil => exact Nat.le_refl _
  | cons c cs ih =>
    obtain ⟨d, ds, hescape, -, hlength⟩ := exists_jsonEscape c
    rw [List.flatMap_cons, List.flatMap_cons, List.length_append, List.length_append, hescape]
    omega

/-- A text that is quoted for JSON denotes its code units as a text literal, when no quote stands behind it. -/
theorem readText_jsonQuote (s : String) {rest : List Char} (hrest : rest.head? ≠ some '"') :
    readText ((Json.quote s).toList ++ rest) = some (Json.unitsOf s, rest) := by
  unfold Json.quote Json.unitsOf
  rw [String.toList_ofList, List.append_assoc, List.cons_append, List.singleton_append]
  generalize s.toList = cs
  -- An empty text could be taken for the start of a long one: no third quote may follow.
  have hprefix : ¬ ['"', '"'].isPrefixOf (cs.flatMap Json.escape ++ '"' :: rest) = true := by
    cases cs with
    | nil =>
      cases rest with
      | nil => simp
      | cons c rest =>
        have hne : '"' ≠ c := fun h => hrest (by rw [← h]; rfl)
        simp [hne]
    | cons c cs =>
      obtain ⟨d, ds, hescape, hne, -⟩ := exists_jsonEscape c
      simp [hescape, hne.symm]
  rw [readText, if_pos ⟨.inr rfl, hprefix⟩]
  refine readBody_jsonBody cs rest ?_
  have hlength := length_units_le cs
  rw [List.length_append, List.length_cons]
  omega

end Code

end DataShapes
