import DataShapes.Proofs.TypeExpr.Total
import DataShapes.Text.Identifier

/-!
# Type hints

The hint of a type expression is read off the expression from left to right, with brackets around the
items of lists and the values of mappings and with a bar between the members of unions.  There are no
parentheses, but none are missed: a union can only stand inside brackets or at the top, so the text of
an expression that is no union ends where a closing bracket or a blank follows.  What a hint begins
with, up to the first character that is not part of an identifier, says what kind of expression it is
the hint of.  So an expression and its end are known from any text that begins with its hint.

Main definitions:
* `TypeExpr.byName`: the expression with names in the place of records;
* `TypeExpr.Legible`: unions are flat, records have names, and names are no words of other hints.

Main statements:
* `TypeExpr.exists_hint`: whatever has proper parts only has a hint;
* `TypeExpr.determined`: an expression and its end are known from a text that begins with its hint;
* `TypeExpr.hint_determines`: expressions with one hint are the same by name.
-/

namespace DataShapes

namespace TypeExpr

variable {r : Registry} {s : Schema} {e t : TypeExpr}

/-! ### Success -/

theorem hints_eq (es : List TypeExpr) : hints es = es.mapM hint := by
  induction es with
  | nil => rw [hints, List.mapM_nil]; rfl
  | cons e es ih => rw [hints, ih, List.mapM_cons]

/-- The hint of a union is made of the hints of its members. -/
theorem hint_union_eq_ok_iff {members : List TypeExpr} {text : String} :
    hint (.union members) = .ok text ↔
      ∃ texts, List.Forall₂ (fun e t => hint e = .ok t) members texts
        ∧ text = " | ".intercalate texts := by
  rw [hint, hints_eq, Outcome.do_eq_ok_iff]
  simp only [Outcome.mapM_eq_ok_iff, Outcome.pure_eq_ok_iff, @eq_comm _ text]

/-- The expression is not a value in the place of one. -/
def Proper (e : TypeExpr) : Prop := ∀ v, e ≠ .raw v

/-- Whatever has proper parts only has a hint. -/
theorem exists_hint (h : e.Each Proper) : ∃ text, e.hint = .ok text := by
  induction e using induction_children with
  | h e ih =>
    have hchild : ∀ c ∈ e.children, ∃ text, c.hint = .ok text := fun c hc => ih c hc (h.child hc)
    -- Raw values are the only ones without a hint, and they are improper.
    cases e with
    | sequence item =>
      obtain ⟨text, htext⟩ := hchild item (List.mem_singleton_self item)
      exact ⟨_, by rw [hint, htext]; rfl⟩
    | mapping value =>
      obtain ⟨text, htext⟩ := hchild value (List.mem_singleton_self value)
      exact ⟨_, by rw [hint, htext]; rfl⟩
    | union members =>
      obtain ⟨texts, htexts⟩ := Outcome.exists_forall₂ hchild
      exact ⟨_, hint_union_eq_ok_iff.2 ⟨texts, htexts, rfl⟩⟩
    | record label fields representation extra => cases label <;> exact ⟨_, rfl⟩
    | raw v => exact absurd rfl (h.self v)
    | _ => exact ⟨_, rfl⟩

/-- What is read off a schema has proper parts only. -/
theorem each_proper_ofNormalForm (ht : ofNormalForm r s = .ok t) : t.Each Proper := by
  refine each_ofSchema (G := fun _ => True) (fun _ _ _ _ => trivial) (fun s t _ hbelow hread => ?_)
    trivial ht
  cases hread with
  | union hk hts => exact unionOf_of_read hk hts hbelow fun _ => nofun
  | _ => nofun

/-! ### What a hint tells -/

mutual

/-- The expression with names in the place of records. -/
def byName : TypeExpr → TypeExpr
  | .sequence item => .sequence (byName item)
  | .mapping value => .mapping (byName value)
  | .union members => .union (byNames members)
  | .record (some name) _ _ _ => .named name
  | e => e

/-- The expressions of a list with names in the place of records. -/
def byNames : List TypeExpr → List TypeExpr
  | [] => []
  | e :: es => byName e :: byNames es

end

theorem byNames_eq (es : List TypeExpr) : byNames es = es.map byName := by
  induction es with
  | nil => rfl
  | cons e es ih => rw [byNames, ih, List.map_cons]

/-- The name is an identifier and not a word of another hint. -/
def IsTypeName (name : String) : Prop :=
  Text.isIdentifier name = true ∧ name ∉ ["int", "float", "str", "bool", "None", "Any"]

/-- A union has two members or more, none of which is a union; a record has a name; and a name is an
    identifier and not a word of another hint. -/
def Legible : TypeExpr → Prop
  | .union members => 2 ≤ members.length ∧ ∀ inner, .union inner ∉ members
  | .named name => IsTypeName name
  | .record label _ _ _ => ∃ name, label = some name ∧ IsTypeName name
  | _ => True

/-! ### Words -/

/-- The characters may all continue an identifier. -/
def IsWord (cs : List Char) : Prop := ∀ c ∈ cs, Text.isIdentifierRest c = true

/-- The text does not go on with a character that may continue an identifier. -/
def Stops (cs : List Char) : Prop := ∀ c ∈ cs.head?, Text.isIdentifierRest c = false

/-- Brackets and blanks stand in no name. -/
theorem isIdentifierRest_eq_false {c : Char} (h : c ∈ ['[', ']', ' ']) :
    Text.isIdentifierRest c = false := by
  simp only [List.mem_cons, List.not_mem_nil, or_false] at h
  rcases h with rfl | rfl | rfl <;> decide +kernel

/-- Where a word ends is known when something else follows. -/
theorem append_inj_of_isWord {w w' u u' : List Char} (hw : IsWord w) (hw' : IsWord w')
    (hu : Stops u) (hu' : Stops u') (h : w ++ u = w' ++ u') : w = w' ∧ u = u' := by
  have hspan : ∀ {w u : List Char}, IsWord w → Stops u →
      (w ++ u).takeWhile Text.isIdentifierRest = w := by
    intro w u hw hu
    rw [List.takeWhile_append_of_pos hw]
    cases u with
    | nil => simp
    | cons c u => simp [hu c rfl]
  have heq : w = w' := by rw [← hspan hw hu, h, hspan hw' hu']
  subst heq
  exact ⟨rfl, List.append_cancel_left h⟩

/-- An identifier is a word. -/
theorem isWord_of_isIdentifier {name : String} (h : Text.isIdentifier name = true) :
    IsWord name.toList := by
  unfold Text.isIdentifier at h
  intro c hc
  split at h
  · cases h
  · rename_i first rest heq
    rw [Bool.and_eq_true, List.all_eq_true] at h
    rw [heq] at hc
    rcases List.mem_cons.1 hc with rfl | hc
    · rw [Text.isIdentifierRest, h.1, Bool.true_or]
    · exact h.2 c hc

/-- The expressions whose hints are fixed words. -/
def fixedWords : Table TypeExpr :=
  [("int", .primitive .integer), ("float", .primitive .number), ("str", .primitive .string),
   ("bool", .primitive .boolean), ("None", .none)]

/-- The expression whose hint is the word: one with a fixed word, or else a name. -/
def ofWord (word : String) : TypeExpr := (fixedWords.get? word).getD (.named word)

/-- A name that is none of the words for primitives is read as a name. -/
theorem ofWord_of_isTypeName {name : String} (h : IsTypeName name) : ofWord name = .named name := by
  have hnone : fixedWords.get? name = Option.none := by
    rw [Table.get?_eq_none_iff]
    intro hmem
    refine h.2 ?_
    simp only [fixedWords, Table.keys, List.map_cons, List.map_nil, List.mem_cons,
      List.not_mem_nil, or_false] at hmem ⊢
    tauto
  rw [ofWord, hnone, Option.getD_none]

/-! ### Expressions that are no unions -/

/-- How the hint of an expression that is no union is spelled: as a word that tells which expression
    it is, or as a word before brackets. -/
inductive Spelled : TypeExpr → List Char → Prop
  | word {e : TypeExpr} {text : String} : IsWord text.toList → e.byName = ofWord text →
      Spelled e text.toList
  | sequence {item : TypeExpr} {text : String} : item.hint = .ok text →
      Spelled (.sequence item) ("list".toList ++ '[' :: (text.toList ++ [']']))
  | mapping {value : TypeExpr} {text : String} : value.hint = .ok text →
      Spelled (.mapping value) ("dict".toList ++ '[' :: ("str, ".toList ++ (text.toList ++ [']'])))

/-- The hint of an expression that is no union is spelled in one of the forms. -/
theorem spelled_of_hint {text : String} (h : e.Legible) (he : ∀ members, e ≠ .union members)
    (ht : e.hint = .ok text) : Spelled e text.toList := by
  have hfixed : ∀ word ∈ ["int", "float", "str", "bool", "None"], IsWord word.toList := by
    have hidentifiers : ∀ word ∈ ["int", "float", "str", "bool", "None"],
        Text.isIdentifier word = true := by decide
    exact fun word hword => isWord_of_isIdentifier (hidentifiers word hword)
  cases e with
  | primitive kind =>
    obtain rfl := Except.ok.inj ht
    cases kind <;> exact .word (hfixed _ (by decide)) rfl
  | none =>
    obtain rfl := Except.ok.inj ht
    exact .word (hfixed _ (by decide)) rfl
  | sequence item =>
    rw [hint] at ht
    obtain ⟨inner, hinner, ht⟩ := Outcome.do_eq_ok_iff.1 ht
    obtain rfl := Except.ok.inj ht
    simpa using Spelled.sequence hinner
  | mapping value =>
    rw [hint] at ht
    obtain ⟨inner, hinner, ht⟩ := Outcome.do_eq_ok_iff.1 ht
    obtain rfl := Except.ok.inj ht
    simpa using Spelled.mapping hinner
  | union members => exact absurd rfl (he members)
  | named name =>
    obtain rfl := Except.ok.inj ht
    exact .word (isWord_of_isIdentifier h.1) (ofWord_of_isTypeName h).symm
  | record label fields representation extra =>
    obtain ⟨name, rfl, hname⟩ := h
    -- A record without a name would be spelled as a mapping.
    have hne : name.isEmpty = false := by
      rw [Bool.eq_false_iff]
      intro hempty
      rw [String.isEmpty_iff.1 hempty] at hname
      exact absurd hname.1 (by decide)
    rw [hint, hne] at ht
    obtain rfl := Except.ok.inj ht
    exact .word (isWord_of_isIdentifier hname.1) (ofWord_of_isTypeName hname).symm
  | raw v => cases ht

/-- What may follow the hint of an expression that is no union: nothing, a closing bracket or a
    blank. -/
def Follows (cs : List Char) : Prop := ∀ c ∈ cs.head?, c = ']' ∨ c = ' '

/-- What may stand behind a hint ends a name. -/
theorem Follows.stops {cs : List Char} (h : Follows cs) : Stops cs := fun c hc =>
  isIdentifierRest_eq_false (by rcases h c hc with rfl | rfl <;> simp)

/-- A word with nothing but the end of a hint behind it is not continued by an opening bracket. -/
theorem word_append_ne {w v u cs : List Char} (hw : IsWord w) (hv : IsWord v) (hu : Follows u) :
    w ++ u ≠ v ++ '[' :: cs := by
  intro h
  have hstops : Stops ('[' :: cs) := fun c hc => by
    obtain rfl := Option.some.inj hc
    exact isIdentifierRest_eq_false (by simp)
  obtain ⟨-, rfl⟩ := append_inj_of_isWord hw hv hu.stops hstops h
  rcases hu '[' rfl with h | h <;> cases h

/-! ### Unions -/

/-- The members of a union, and any other expression alone. -/
def alternatives : TypeExpr → List TypeExpr
  | .union members => members
  | e => [e]

/-- The texts behind the first one of a union. -/
def behind (texts : List String) : List Char := texts.flatMap fun t => ' ' :: '|' :: ' ' :: t.toList

/-- The first hint of a union stands in front of the others with their bars. -/
theorem toList_intercalate_cons (text : String) (texts : List String) :
    (" | ".intercalate (text :: texts)).toList = text.toList ++ behind texts := by
  rw [String.toList_intercalate]
  induction texts generalizing text with
  | nil => simp [behind]
  | cons other texts ih =>
    rw [List.map_cons, List.map_cons, List.intercalate_cons_cons, ← List.map_cons, ih]
    simp [behind]

/-- An expression that is no union is its own alternative. -/
theorem alternatives_of_ne_union (he : ∀ members, e ≠ .union members) : e.alternatives = [e] := by
  cases e with
  | union members => exact absurd rfl (he members)
  | _ => rfl

/-- The alternatives of a legible expression are legible and no unions. -/
theorem of_mem_alternatives (h : e.Each Legible) {m : TypeExpr} (hm : m ∈ e.alternatives) :
    m.Each Legible ∧ ∀ inner, m ≠ .union inner := by
  cases e with
  | union members => exact ⟨h.child hm, fun inner heq => h.self.2 inner (heq ▸ hm)⟩
  | _ =>
    obtain rfl := List.mem_singleton.1 hm
    exact ⟨h, nofun⟩

/-- Expressions with the same alternatives by name are the same by name. -/
theorem byName_eq_of_alternatives {e' : TypeExpr} (h : e.Each Legible) (h' : e'.Each Legible)
    (heq : e.alternatives.map byName = e'.alternatives.map byName) : e.byName = e'.byName := by
  -- Legible unions have two members at least, so the list of alternatives tells them from others.
  have hunionOf : ∀ {e : TypeExpr}, e.Each Legible →
      e.byName = unionOf (e.alternatives.map byName) := by
    intro e h
    cases e with
    | union members =>
      obtain ⟨htwo, -⟩ := h.self
      rw [byName, byNames_eq, alternatives]
      match members with
      | _ :: _ :: _ => rfl
      | [] | [_] => simp at htwo
    | _ => rfl
  rw [hunionOf h, hunionOf h', heq]

/-- A hint is the hint of the first alternative, followed by those of the others. -/
theorem exists_alternatives {text : String} (h : e.Each Legible) (ht : e.hint = .ok text) :
    ∃ m ms first rest, e.alternatives = m :: ms ∧ m.hint = .ok first
      ∧ List.Forall₂ (fun e t => hint e = .ok t) ms rest
      ∧ text.toList = first.toList ++ behind rest := by
  -- What is no union is its own single alternative.
  have hsingle : e.alternatives = [e] → ∃ m ms first rest, e.alternatives = m :: ms
      ∧ m.hint = .ok first ∧ List.Forall₂ (fun e t => hint e = .ok t) ms rest
      ∧ text.toList = first.toList ++ behind rest := fun he =>
    ⟨e, [], text, [], he, ht, .nil, by simp [behind]⟩
  cases e with
  | union members =>
    obtain ⟨texts, htexts, rfl⟩ := hint_union_eq_ok_iff.1 ht
    obtain ⟨htwo, -⟩ := h.self
    cases htexts with
    | nil => simp at htwo
    | cons hfirst hrest => exact ⟨_, _, _, _, rfl, hfirst, hrest, toList_intercalate_cons ..⟩
  | _ => exact hsingle rfl

/-! ### Reading a hint -/

/-- What may follow any hint: nothing or a closing bracket. -/
def Closes (cs : List Char) : Prop := ∀ c ∈ cs.head?, c = ']'

/-- The other hints of a union, or what ends it, may stand behind a hint. -/
theorem Closes.follows_behind {u : List Char} (h : Closes u) (texts : List String) :
    Follows (behind texts ++ u) := by
  cases texts with
  | nil => exact fun c hc => .inl (h c hc)
  | cons text texts =>
    intro c hc
    obtain rfl := Option.some.inj hc
    exact .inr rfl

/-- A closing bracket ends a union. -/
theorem closes_bracket (u : List Char) : Closes (']' :: u) := fun _ hc => (Option.some.inj hc).symm

/-- The expression and its end are known from a text that begins with its hint, when the text is that
    of an expression that is no union. -/
def Determined (e : TypeExpr) : Prop :=
  ∀ (e' : TypeExpr) (text text' : String) (u u' : List Char), e'.Each Legible →
    (∀ inner, e' ≠ .union inner) → e.hint = .ok text → e'.hint = .ok text' → Follows u → Follows u' →
    text.toList ++ u = text'.toList ++ u' → e.byName = e'.byName ∧ u = u'

/-- When the members are determined, so are lists of them with bars in front. -/
theorem eq_of_behind {ms ms' : List TypeExpr} {rest rest' : List String} {u u' : List Char}
    (hms : ∀ m ∈ ms, Determined m)
    (hms' : ∀ m ∈ ms', m.Each Legible ∧ ∀ inner, m ≠ .union inner)
    (hrest : List.Forall₂ (fun e t => hint e = .ok t) ms rest)
    (hrest' : List.Forall₂ (fun e t => hint e = .ok t) ms' rest') (hu : Closes u) (hu' : Closes u')
    (h : behind rest ++ u = behind rest' ++ u') : ms.map byName = ms'.map byName ∧ u = u' := by
  -- A blank is no bracket, so one list cannot end before the other.
  have hblank : ∀ {u : List Char} {cs : List Char}, Closes u → u ≠ ' ' :: cs := by
    rintro u cs hu rfl
    cases hu ' ' rfl
  induction hrest generalizing ms' rest' with
  | nil =>
    cases hrest' with
    | nil => exact ⟨rfl, h⟩
    | cons _ _ => exact absurd h (hblank hu)
  | @cons m text ms rest hm _ ih =>
    cases hrest' with
    | nil => exact absurd h.symm (hblank hu')
    | @cons m' text' ms' rest' hm' hrest' =>
      obtain ⟨hm₁, hms⟩ := List.forall_mem_cons.1 hms
      obtain ⟨⟨hlegible, hunion⟩, hms'⟩ := List.forall_mem_cons.1 hms'
      have htail : text.toList ++ (behind rest ++ u) = text'.toList ++ (behind rest' ++ u') := by
        simpa [behind] using h
      obtain ⟨hname, hbehind⟩ := hm₁ m' text text' _ _ hlegible hunion hm hm'
        (hu.follows_behind rest) (hu'.follows_behind rest') htail
      obtain ⟨hnames, heq⟩ := ih hms hms' hrest' hbehind
      exact ⟨by rw [List.map_cons, List.map_cons, hname, hnames], heq⟩

/-- When the alternatives of an expression are determined, so is the expression. -/
theorem eq_of_alternatives {e' : TypeExpr} {text text' : String} {u u' : List Char}
    (hdetermined : ∀ m ∈ e.alternatives, Determined m) (h : e.Each Legible) (h' : e'.Each Legible)
    (ht : e.hint = .ok text) (ht' : e'.hint = .ok text') (hu : Closes u) (hu' : Closes u')
    (heq : text.toList ++ u = text'.toList ++ u') : e.byName = e'.byName ∧ u = u' := by
  obtain ⟨m, ms, first, rest, halternatives, hm, hms, htext⟩ := exists_alternatives h ht
  obtain ⟨m', ms', first', rest', halternatives', hm', hms', htext'⟩ := exists_alternatives h' ht'
  rw [htext, htext', List.append_assoc, List.append_assoc] at heq
  rw [halternatives] at hdetermined
  have hlegible : ∀ m ∈ m' :: ms', m.Each Legible ∧ ∀ inner, m ≠ .union inner := fun n hn =>
    of_mem_alternatives h' (halternatives' ▸ hn)
  obtain ⟨hfirst, hothers⟩ := List.forall_mem_cons.1 hdetermined
  obtain ⟨⟨hlegible₁, hunion⟩, hlegible⟩ := List.forall_mem_cons.1 hlegible
  -- The first alternative ends where the text cannot go on within it, and the others follow.
  obtain ⟨hname, hbehind⟩ := hfirst m' first first' _ _ hlegible₁ hunion hm hm'
    (hu.follows_behind rest) (hu'.follows_behind rest') heq
  obtain ⟨hnames, hend⟩ := eq_of_behind hothers hlegible hms hms' hu hu' hbehind
  refine ⟨byName_eq_of_alternatives h h' ?_, hend⟩
  rw [halternatives, halternatives', List.map_cons, List.map_cons, hname, hnames]

/-- An expression that is no union is known from how it is spelled, when what is in its brackets is
    known from a text in which the closing bracket follows. -/
theorem eq_of_spelled {e' : TypeExpr} {cs cs' u u' : List Char}
    (hchild : ∀ c ∈ e.children, ∀ c' ∈ e'.children, ∀ text text' u u', c.hint = .ok text →
      c'.hint = .ok text' → text.toList ++ ']' :: u = text'.toList ++ ']' :: u' →
        c.byName = c'.byName ∧ u = u')
    (h : Spelled e cs) (h' : Spelled e' cs') (hu : Follows u) (hu' : Follows u')
    (heq : cs ++ u = cs' ++ u') : e.byName = e'.byName ∧ u = u' := by
  have hlist : IsWord "list".toList := isWord_of_isIdentifier (by decide)
  have hdict : IsWord "dict".toList := isWord_of_isIdentifier (by decide)
  -- Words, lists and dictionaries begin differently, so the mixed cases fail at the front of the text.
  cases h with
  | word hword hname =>
    cases h' with
    | word hword' hname' =>
      obtain ⟨htext, hend⟩ := append_inj_of_isWord hword hword' hu.stops hu'.stops heq
      rw [hname, hname', String.toList_inj.1 htext]
      exact ⟨rfl, hend⟩
    | sequence _ =>
      rw [List.append_assoc] at heq
      exact absurd heq (word_append_ne hword hlist hu)
    | mapping _ =>
      rw [List.append_assoc] at heq
      exact absurd heq (word_append_ne hword hdict hu)
  | @sequence item inner hitem =>
    cases h' with
    | word hword' _ =>
      rw [List.append_assoc] at heq
      exact absurd heq.symm (word_append_ne hword' hlist hu')
    | @sequence item' inner' hitem' =>
      obtain ⟨hname, hend⟩ := hchild item (List.mem_singleton_self item) item'
        (List.mem_singleton_self item') inner inner' u u' hitem hitem' (by simpa using heq)
      rw [byName, byName, hname]
      exact ⟨rfl, hend⟩
    | mapping _ => simp at heq
  | @mapping value inner hvalue =>
    cases h' with
    | word hword' _ =>
      rw [List.append_assoc] at heq
      exact absurd heq.symm (word_append_ne hword' hdict hu')
    | sequence _ => simp at heq
    | @mapping value' inner' hvalue' =>
      obtain ⟨hname, hend⟩ := hchild value (List.mem_singleton_self value) value'
        (List.mem_singleton_self value') inner inner' u u' hvalue hvalue' (by simpa using heq)
      rw [byName, byName, hname]
      exact ⟨rfl, hend⟩

/-- The alternatives of a legible expression are known from any text that begins with their hints. -/
theorem determined (h : e.Each Legible) : ∀ m ∈ e.alternatives, Determined m := by
  induction e using induction_children with
  | h e ih =>
    by_cases hunion : ∃ members, e = .union members
    · -- The members of a union are no unions, so each is its own alternative.
      obtain ⟨members, rfl⟩ := hunion
      intro m hm
      have hself : m ∈ m.alternatives := by
        rw [alternatives_of_ne_union (of_mem_alternatives h hm).2]
        exact List.mem_singleton_self m
      exact ih m hm (h.child hm) m hself
    · have hne : ∀ members, e ≠ .union members := fun members heq => hunion ⟨members, heq⟩
      rw [alternatives_of_ne_union hne, List.forall_mem_singleton]
      intro e' text text' u u' h' hne' ht ht' hu hu' heq
      refine eq_of_spelled (fun c hc c' hc' inner inner' w w' hinner hinner' hw => ?_)
        (spelled_of_hint h.self hne ht) (spelled_of_hint h'.self hne' ht') hu hu' heq
      -- What is in brackets may be a union, but it ends with the closing bracket.
      obtain ⟨hname, hend⟩ := eq_of_alternatives (ih c hc (h.child hc)) (h.child hc) (h'.child hc')
        hinner hinner' (closes_bracket w) (closes_bracket w') hw
      exact ⟨hname, (List.cons.inj hend).2⟩

/-- A hint determines its type.  Two legible expressions with the same hint are equal once every
    record is replaced by its name. -/
theorem hint_determines {e e' : TypeExpr} {text : String} (h : e.Each Legible)
    (h' : e'.Each Legible) (ht : e.hint = .ok text) (ht' : e'.hint = .ok text) :
    e.byName = e'.byName := by
  have hend : Closes [] := nofun
  exact (eq_of_alternatives (determined h) h h' ht ht' hend hend rfl).1

/-- A mapping to values that may be null. -/
def nullableMap (e : TypeExpr) : TypeExpr := .mapping (.union [e, .none])

/-- The record of a page with nothing but an identifier. -/
def barePage : TypeExpr :=
  .record (some "Page") [.mk "id" (.primitive .string) true] .fixedRecord Option.none

/-- A mapping to pages that may be null has the same hint with the record as with the name. -/
theorem hint_determines_pages :
    (nullableMap barePage).Each Legible ∧ (nullableMap (.named "Page")).Each Legible
      ∧ (nullableMap barePage).hint = .ok "dict[str, Page | None]"
      ∧ (nullableMap (.named "Page")).hint = .ok "dict[str, Page | None]"
      ∧ (nullableMap barePage).byName = (nullableMap (.named "Page")).byName := by
  have hpage : IsTypeName "Page" := ⟨by decide, by decide⟩
  have hrecord : (nullableMap barePage).Each Legible := by
    simp [nullableMap, barePage, Each, parts, partsOfAll, partsOfFields, partsOfExtra, Legible, hpage]
  have hname : (nullableMap (.named "Page")).Each Legible := by
    simp [nullableMap, Each, parts, partsOfAll, Legible, hpage]
  have hrecordHint : (nullableMap barePage).hint = .ok "dict[str, Page | None]" := rfl
  have hnameHint : (nullableMap (.named "Page")).hint = .ok "dict[str, Page | None]" := rfl
  exact ⟨hrecord, hname, hrecordHint, hnameHint,
    hint_determines hrecord hname hrecordHint hnameHint⟩

end TypeExpr

end DataShapes
