import DataShapes.Proofs.Code.Reading
import DataShapes.Proofs.Value.Plain
import DataShapes.Value.Literal

/-!
# Literals denote their values

The literal of plain data is the text of an expression, and where all numbers are finite the expression has the
value that was written: texts come back with their quotes and escapes, floating-point numbers bit by bit,
tuples of one item as tuples.  Infinities and NaNs are written as names that stand for nothing, so an
expression with one of them has no value.

Main statement:
* `Code.isLiteral_of_plain`: the literal of plain data is read as an expression with its value.
-/

namespace DataShapes

namespace Value

theorem literals_eq (items : List Value) : literals items = items.map literal := by
  induction items with
  | nil => rfl
  | cons v vs ih => rw [literals, ih, List.map_cons]

theorem entryLiterals_eq (es : List (Value × Value)) :
    entryLiterals es = es.map fun e => e.1.literal ++ ": " ++ e.2.literal := by
  induction es with
  | nil => rfl
  | cons e es ih => rw [entryLiterals, ih, List.map_cons]

end Value

namespace Code

/-- The expression has the value when all numbers in it are finite, and no value otherwise; it is no
    field. -/
structure Expression.Denotes (e : Expression) (v : Value) : Prop where
  value : e.value? = if v.isFinite then some v else none
  plain : e.default? = e.value?

/-- The text is that of an expression that denotes the value. -/
def IsLiteral (fuel : Nat) (text : List Char) (v : Value) : Prop :=
  ∃ e, Reads (readExpression fuel) text e ∧ e.Denotes v

variable {fuel : Nat} {v : Value}

/-! ### Scalars -/

/-- A word that stands for data. -/
theorem isLiteral_constant (fuel : Nat) (word : String) (hword : Text.isIdentifier word = true)
    (hne : word ≠ "lambda") (hvalue : Table.get? constants word = some v) (hfinite : v.isFinite = true) :
    IsLiteral (fuel + 1) word.toList v := by
  refine ⟨.name word, reads_name fuel word hword hne, ?_, rfl⟩
  rw [if_pos hfinite, Expression.value?, hvalue]

/-- The literal of an integer, which is negated when there is a sign. -/
theorem isLiteral_int (fuel : Nat) (n : Int) : IsLiteral (fuel + 2) (toString n).toList (.int n) := by
  have hnat : ∀ (fuel k : Nat), Reads (readExpression (fuel + 1)) (toString k).toList
      (.numeral (Numeral.ofNat k)) := fun fuel k =>
    Numeral.text_ofNat k ▸ reads_numeral fuel (Numeral.wellFormed_ofNat k)
  -- Numerals have no sign: a negative number is a negated numeral.
  cases n with
  | ofNat k =>
    refine ⟨.numeral (Numeral.ofNat k), hnat (fuel + 1) k, ?_, rfl⟩
    show (Numeral.ofNat k).value? = some (.int k)
    exact Numeral.value?_ofNat k
  | negSucc k =>
    have htext : (toString (Int.negSucc k)).toList = '-' :: (toString (k + 1)).toList :=
      String.toList_append
    refine ⟨.negate (.numeral (Numeral.ofNat (k + 1))), htext ▸ reads_negate (hnat fuel (k + 1)), ?_, rfl⟩
    show ((Numeral.ofNat (k + 1)).value?).bind negated? = some (.int (Int.negSucc k))
    rw [Numeral.value?_ofNat]
    rfl

/-- The literal of a floating-point number denotes it; infinities and NaNs are names without a value. -/
theorem isLiteral_float (fuel : Nat) (d : Double) :
    IsLiteral (fuel + 2) (Number.render Number.plain d).toList (.float d) := by
  by_cases hfinite : d.isFinite = true
  · obtain ⟨n, hn, htext, hvalue⟩ := Numeral.exists_of_isFinite hfinite
    have hvalueof : ∀ e : Expression, e.value? = some (.float d) →
        e.value? = if (Value.float d).isFinite then some (.float d) else none :=
      fun e he => he.trans (if_pos hfinite).symm
    rw [IsLiteral, htext]
    by_cases hsign : d.isNegative = true
    · rw [if_pos hsign]
      refine ⟨.negate (.numeral n), reads_negate (reads_numeral fuel hn), hvalueof _ ?_, rfl⟩
      show n.value?.bind negated? = some (.float d)
      rw [hvalue]
      show some (Value.float d.unsigned.negate) = _
      rw [Double.unsigned_negate hsign]
    · rw [if_neg hsign]
      refine ⟨.numeral n, reads_numeral (fuel + 1) hn, hvalueof _ ?_, rfl⟩
      show n.value? = some (.float d)
      rw [hvalue, Double.unsigned, if_neg hsign]
  · -- The names of infinities and NaNs stand for nothing.
    have hnothing : (none : Option Value) = if (Value.float d).isFinite then some (.float d) else none :=
      (if_neg hfinite).symm
    have hfield : d.exponentField = 2047 := by simpa [Double.isFinite] using hfinite
    unfold Number.render
    by_cases hnan : d.isNaN = true
    · rw [if_pos hnan]
      exact ⟨.name "nan", reads_name (fuel + 1) _ (by decide) (by decide), hnothing, rfl⟩
    · have hinfinite : d.isInfinite = true := by
        have hfraction : d.fraction = 0 := by simpa [Double.isNaN, hfield] using hnan
        simp [Double.isInfinite, hfield, hfraction]
      rw [if_neg hnan, if_pos hinfinite]
      cases d.isNegative with
      | false => exact ⟨.name "inf", reads_name (fuel + 1) _ (by decide) (by decide), hnothing, rfl⟩
      | true =>
        have hname := reads_name fuel "inf" (by decide) (by decide)
        exact ⟨.negate (.name "inf"), reads_negate hname, hnothing, rfl⟩

/-- The literal of a text. -/
theorem isLiteral_str (fuel : Nat) (s : String) :
    IsLiteral (fuel + 1) (Quoted.quote s).toList (.str s) := by
  refine ⟨_, reads_text fuel s, ?_, rfl⟩
  show (textOf? (s.toList.map Char.toNat)).map Value.str = some (.str s)
  rw [textOf_points]
  rfl

/-! ### Texts of containers -/

/-- The text of an entry. -/
def entryText (e : String × Value) : List Char :=
  (Quoted.quote e.1).toList ++ ':' :: ' ' :: e.2.literal.toList

/-- A sequence is its literals between commas, inside of brackets. -/
theorem toList_sequence (first last : String) (texts : List String) :
    (Literal.sequence first last texts).toList =
      first.toList ++ commas (texts.map String.toList) ++ last.toList := by
  rw [Literal.sequence, String.toList_append, String.toList_append, String.toList_intercalate,
    show ", ".toList = [',', ' '] from rfl, intercalate_commas]

theorem toList_literal_list (items : List Value) : (Value.list items).literal.toList =
    '[' :: commas (items.map fun v => v.literal.toList) ++ [']'] := by
  rw [Value.literal, toList_sequence, Value.literals_eq, List.map_map]
  rfl

/-- The literal of a tuple of one item ends with a comma. -/
theorem toList_literal_single (v : Value) :
    (Value.tuple [v]).literal.toList = '(' :: v.literal.toList ++ [',', ')'] := by
  simp [Value.literal, Literal.tuple, Value.literals]

theorem toList_literal_tuple {items : List Value} (h : items.length ≠ 1) :
    (Value.tuple items).literal.toList =
      '(' :: commas (items.map fun v => v.literal.toList) ++ [')'] := by
  have htuple : Literal.tuple (items.map Value.literal) =
      Literal.sequence "(" ")" (items.map Value.literal) := by
    match items with
    | [] => rfl
    | [_] => exact absurd rfl h
    | _ :: _ :: _ => rfl
  rw [Value.literal, Value.literals_eq, htuple, toList_sequence, List.map_map]
  rfl

/-- The literal of a record has a key and a colon in front of each value. -/
theorem toList_literal_record (entries : List (String × Value)) :
    (Value.record entries).literal.toList = '\x7b' :: commas (entries.map entryText) ++ ['\x7d'] := by
  have hentries : (entries.map fun e => ((.str e.1 : Value), e.2)).map (String.toList ∘ fun e =>
      e.1.literal ++ ": " ++ e.2.literal) = entries.map entryText := by
    rw [List.map_map]
    refine List.map_congr_left fun e _ => ?_
    simp [entryText, Value.literal]
  rw [Value.record, Value.literal, Literal.dict, toList_sequence, Value.entryLiterals_eq, List.map_map,
    hentries]
  rfl

/-- An item of a list is shorter than the list by its brackets. -/
theorem length_lt_list {items : List Value} {v : Value} (h : v ∈ items) :
    v.literal.toList.length + 1 < (Value.list items).literal.toList.length := by
  have hle := length_le_of_mem_commas (List.mem_map_of_mem (f := fun v => v.literal.toList) h)
  rw [toList_literal_list, List.length_append, List.length_cons]
  exact Nat.add_lt_add_right (Nat.lt_succ_of_le hle) 1

/-- An item of a tuple has a shorter literal than the tuple. -/
theorem length_lt_tuple {items : List Value} {v : Value} (h : v ∈ items) :
    v.literal.toList.length + 1 < (Value.tuple items).literal.toList.length := by
  by_cases hsingle : items.length = 1
  · obtain ⟨w, rfl⟩ := List.length_eq_one_iff.1 hsingle
    obtain rfl := List.mem_singleton.1 h
    simp only [toList_literal_single, List.length_append, List.length_cons, List.length_nil]
    omega
  · have hle := length_le_of_mem_commas (List.mem_map_of_mem (f := fun v => v.literal.toList) h)
    rw [toList_literal_tuple hsingle, List.length_append, List.length_cons]
    exact Nat.add_lt_add_right (Nat.lt_succ_of_le hle) 1

/-- A value of a record has a shorter literal than the record. -/
theorem length_lt_record {entries : List (String × Value)} {e : String × Value} (h : e ∈ entries) :
    e.2.literal.toList.length + 1 < (Value.record entries).literal.toList.length := by
  have hle := length_le_of_mem_commas (List.mem_map_of_mem (f := entryText) h)
  have hentry : e.2.literal.toList.length ≤ (entryText e).length := by
    simp only [entryText, List.length_append, List.length_cons]
    omega
  rw [toList_literal_record, List.length_append, List.length_cons]
  exact Nat.add_lt_add_right (Nat.lt_succ_of_le (Nat.le_trans hentry hle)) 1

/-! ### Containers -/

/-- Items that are literals one by one have their values together. -/
theorem exists_items {items : List Value} (h : ∀ v ∈ items, IsLiteral fuel v.literal.toList v) :
    ∃ es, List.Forall₂ (Reads (readExpression fuel)) (items.map fun v => v.literal.toList) es ∧
      Expression.values? es = if Value.areFinite items then some items else none := by
  induction items with
  | nil => exact ⟨[], .nil, rfl⟩
  | cons v vs ih =>
    obtain ⟨e, he, hvalue, -⟩ := h v List.mem_cons_self
    obtain ⟨es, hes, hvalues⟩ := ih fun w hw => h w (List.mem_cons_of_mem _ hw)
    refine ⟨e :: es, .cons he hes, ?_⟩
    rw [Expression.values?, hvalue, hvalues, Value.areFinite]
    cases v.isFinite <;> cases Value.areFinite vs <;> rfl

/-- So it is with the entries of a record. -/
theorem exists_entries {entries : List (String × Value)}
    (h : ∀ e ∈ entries, IsLiteral (fuel + 1) e.2.literal.toList e.2) :
    ∃ es, List.Forall₂ (Reads (readEntry (readExpression (fuel + 1)))) (entries.map entryText) es ∧
      Expression.entryValues? es =
        if Value.entriesAreFinite (entries.map fun e => (.str e.1, e.2))
        then some (entries.map fun e => (.str e.1, e.2)) else none := by
  induction entries with
  | nil => exact ⟨[], .nil, rfl⟩
  | cons entry entries ih =>
    obtain ⟨e, he, hvalue, -⟩ := h entry List.mem_cons_self
    obtain ⟨key, hkey, htext, -⟩ := isLiteral_str fuel entry.1
    obtain ⟨es, hes, hvalues⟩ := ih fun f hf => h f (List.mem_cons_of_mem _ hf)
    refine ⟨(key, e) :: es, .cons (reads_entry hkey he) hes, ?_⟩
    -- A number that is not finite anywhere spoils the whole, on both sides.
    rw [Expression.entryValues?, htext, hvalue, hvalues, List.map_cons, Value.entriesAreFinite]
    simp only [show (Value.str entry.1).isFinite = true from rfl, if_true, Bool.true_and]
    cases entry.2.isFinite <;>
      cases Value.entriesAreFinite (entries.map fun e => (.str e.1, e.2)) <;> rfl

/-- The literal of a list, when those of its items are read. -/
theorem isLiteral_list {items : List Value} (h : ∀ v ∈ items, IsLiteral fuel v.literal.toList v) :
    IsLiteral (fuel + 1) (Value.list items).literal.toList (.list items) := by
  obtain ⟨es, hes, hvalues⟩ := exists_items h
  rw [IsLiteral, toList_literal_list]
  refine ⟨.list es, reads_list hes, ?_, rfl⟩
  rw [Expression.value?, hvalues, Value.isFinite]
  cases Value.areFinite items <;> rfl

/-- The literal of a tuple; a comma tells a single item from an expression in brackets. -/
theorem isLiteral_tuple {items : List Value} (h : ∀ v ∈ items, IsLiteral fuel v.literal.toList v) :
    IsLiteral (fuel + 1) (Value.tuple items).literal.toList (.tuple items) := by
  obtain ⟨es, hes, hvalues⟩ := exists_items h
  have hdenotes : (Expression.tuple es).Denotes (.tuple items) := by
    refine ⟨?_, rfl⟩
    rw [Expression.value?, hvalues, Value.isFinite]
    cases Value.areFinite items <;> rfl
  have hlength : items.length = es.length := by simpa using hes.length_eq
  rw [IsLiteral]
  -- A single item is followed by a comma, more items are separated by commas.
  by_cases hsingle : items.length = 1
  · obtain ⟨v, rfl⟩ := List.length_eq_one_iff.1 hsingle
    obtain ⟨e, rfl⟩ := List.length_eq_one_iff.1 (hlength.symm.trans hsingle)
    rw [toList_literal_single]
    exact ⟨.tuple [e], reads_tuple_single (List.forall₂_cons.1 hes).1, hdenotes⟩
  · rw [toList_literal_tuple hsingle]
    exact ⟨.tuple es, reads_tuple hes (hlength ▸ hsingle), hdenotes⟩

/-- The literal of a record, whose keys have to be distinct to come back as they were. -/
theorem isLiteral_record {entries : List (String × Value)} (hnodup : (entries.map Prod.fst).Nodup)
    (h : ∀ e ∈ entries, IsLiteral (fuel + 1) e.2.literal.toList e.2) :
    IsLiteral (fuel + 2) (Value.record entries).literal.toList (Value.record entries) := by
  obtain ⟨es, hes, hvalues⟩ := exists_entries h
  have hkeys : (entries.map fun e => ((.str e.1 : Value), e.2)).all (fun e => isKey e.1) = true := by
    rw [List.all_eq_true]
    intro e he
    obtain ⟨f, -, rfl⟩ := List.mem_map.1 he
    rfl
  -- A later entry replaces an earlier one of its key; here no key is repeated.
  have hbuilt : Value.dictOf (entries.map fun e => (.str e.1, e.2)) =
      entries.map fun e => (.str e.1, e.2) := by
    rw [Value.dictOf_record, Table.ofList_of_nodup hnodup]
  rw [IsLiteral, toList_literal_record]
  refine ⟨.dict es, reads_dict hes, ?_, rfl⟩
  rw [Expression.value?, hvalues, Value.record, Value.isFinite]
  cases Value.entriesAreFinite (entries.map fun e => (.str e.1, e.2)) with
  | false => rfl
  | true => simp [hkeys, hbuilt]

/-! ### Plain data -/

theorem exists_fuel {n : Nat} (h : n + 1 < fuel) : ∃ m, fuel = m + 2 :=
  Nat.exists_eq_add_of_le' (Nat.lt_of_le_of_lt (Nat.le_add_left 1 n) h)

/-- The literal of plain data is read as an expression that denotes it. -/
theorem isLiteral_of_plain (hv : v.Plain) (hfuel : v.literal.toList.length + 1 < fuel) :
    IsLiteral fuel v.literal.toList v := by
  -- The text of a part is shorter than that of the whole, so the fuel is enough for it.
  induction hv generalizing fuel with
  | null =>
    obtain ⟨fuel, rfl⟩ := exists_fuel hfuel
    exact isLiteral_constant (fuel + 1) "None" (by decide) (by decide) rfl rfl
  | bool b =>
    obtain ⟨fuel, rfl⟩ := exists_fuel hfuel
    cases b with
    | false => exact isLiteral_constant (fuel + 1) "False" (by decide) (by decide) rfl rfl
    | true => exact isLiteral_constant (fuel + 1) "True" (by decide) (by decide) rfl rfl
  | int n =>
    obtain ⟨fuel, rfl⟩ := exists_fuel hfuel
    exact isLiteral_int fuel n
  | float d =>
    obtain ⟨fuel, rfl⟩ := exists_fuel hfuel
    exact isLiteral_float fuel d
  | str s =>
    obtain ⟨fuel, rfl⟩ := exists_fuel hfuel
    exact isLiteral_str (fuel + 1) s
  | list _ ih =>
    obtain ⟨fuel, rfl⟩ := exists_fuel hfuel
    refine isLiteral_list fun v hv => ih v hv ?_
    have hlt := length_lt_list hv
    omega
  | tuple _ ih =>
    obtain ⟨fuel, rfl⟩ := exists_fuel hfuel
    refine isLiteral_tuple fun v hv => ih v hv ?_
    have hlt := length_lt_tuple hv
    omega
  | record hnodup _ ih =>
    obtain ⟨fuel, rfl⟩ := exists_fuel hfuel
    refine isLiteral_record hnodup fun e he => ih e he ?_
    have hlt := length_lt_record he
    omega

end Code

end DataShapes
