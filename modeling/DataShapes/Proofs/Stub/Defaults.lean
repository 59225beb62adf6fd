import DataShapes.Conformance
import DataShapes.Proofs.Catalog.Views
import DataShapes.Proofs.Code.Literal
import DataShapes.Stub.Basic

/-!
# Defaults in stubs

A default conforms to the type of its property, so it is plain data: the check of a value ends at scalars and
enters lists, tuples and dictionaries under texts only, and names lead from one such check to the next.  The
source text of plain data is read back as the data when all numbers in it are finite.  Infinities and NaNs
conform to the number type as well, but they are written as names that the module does not define, and a default
with one of them has no value.

Main definition:
* `Value.Hereditary`: properties that a container has when its parts do.

Main statements:
* `conforms_hereditary`: what conforms within a catalog has every hereditary property;
* `Catalog.default_defaultSource`: the source text of a default gives the default when all numbers are finite,
  and nothing otherwise.
-/

namespace DataShapes

/-! ### What a check says about a value -/

/-- Null and the scalars have the property, and containers do when their parts do; the keys of a dictionary
    are texts. -/
structure Value.Hereditary (P : Value → Prop) : Prop where
  null : P .null
  scalar {v : Value} {kind : ScalarKind} : v.hasKind kind = true → P v
  list {items : List Value} : (∀ v ∈ items, P v) → P (.list items)
  tuple {items : List Value} : (∀ v ∈ items, P v) → P (.tuple items)
  dict {es : List (Value × Value)} : (∀ e ∈ es, e.1.isStr = true) → (∀ e ∈ es, P e.2) → P (.dict es)

/-- A check behind a condition says yes only when the condition holds. -/
theorem Noted.result_ite_false {p : Bool} {x : Noted Bool}
    (h : (if p then x else pure false : Noted Bool).result = .ok true) : p = true ∧ x.result = .ok true := by
  cases p with
  | false => cases h
  | true => exact ⟨rfl, h⟩

/-- A check of all items that succeeds has succeeded on each. -/
theorem Noted.of_all {α : Type} {check : α → Noted Bool} {xs : List α}
    (h : (Noted.all check xs).result = .ok true) : ∀ x ∈ xs, (check x).result = .ok true := by
  induction xs with
  | nil => simp
  | cons x xs ih =>
    rw [Noted.all, result_bind] at h
    obtain ⟨b, hb, h⟩ := Outcome.bind_eq_ok_iff.1 h
    obtain ⟨rfl, hrest⟩ := result_ite_false h
    exact List.forall_mem_cons.2 ⟨hb, ih hrest⟩

section

variable {P : Value → Prop} (hP : Value.Hereditary P)

/-- A member that admits the value is found by trying. -/
theorem Descriptor.of_acceptingMembers {follow : String → Value → Noted Bool} {ds found : List Descriptor}
    {v : Value} (h : (acceptingMembers follow ds v).result = .ok found) :
    ∀ d ∈ found, d ∈ ds ∧ (d.accepts follow v).result = .ok true := by
  induction ds generalizing found with
  | nil =>
    obtain rfl : [] = found := Except.ok.inj h
    simp
  | cons d ds ih =>
    rw [acceptingMembers, Noted.result_bind] at h
    obtain ⟨accepted, haccepted, h⟩ := Outcome.bind_eq_ok_iff.1 h
    rw [Noted.result_bind] at h
    obtain ⟨rest, hrest, h⟩ := Outcome.bind_eq_ok_iff.1 h
    have hfound : (if accepted then d :: rest else rest) = found := Except.ok.inj h
    have hinner : ∀ e ∈ rest, e ∈ d :: ds ∧ (e.accepts follow v).result = .ok true := fun e he =>
      ⟨List.mem_cons_of_mem _ (ih hrest e he).1, (ih hrest e he).2⟩
    -- A member stays when it admits the value, and the rest is the result for the others.
    cases accepted with
    | false => exact hfound ▸ hinner
    | true =>
      rw [← hfound]
      exact List.forall_mem_cons.2 ⟨⟨List.mem_cons_self, haccepted⟩, hinner⟩

include hP

/-- What a descriptor accepts has every hereditary property that what names accept has. -/
theorem Descriptor.accepts_hereditary {follow : String → Value → Noted Bool}
    (hfollow : ∀ name v, (follow name v).result = .ok true → P v) {d : Descriptor} {v : Value}
    (h : (d.accepts follow v).result = .ok true) : P v := by
  induction d using induction_parts generalizing v with
  | scalar kind => exact hP.scalar (Except.ok.inj h)
  | array item ih =>
    unfold accepts at h
    cases v with
    | list items => exact hP.list fun w hw => ih (Noted.of_all h w hw)
    | tuple items => exact hP.tuple fun w hw => ih (Noted.of_all h w hw)
    | _ => cases h
  | map value ih =>
    unfold accepts at h
    cases v with
    | dict es =>
      have hentry := fun e he => Noted.result_ite_false (Noted.of_all h e he)
      exact hP.dict (fun e he => (hentry e he).1) fun e he => ih (hentry e he).2
    | _ => cases h
  | union members ih =>
    rw [accepts, Noted.result_bind] at h
    obtain ⟨found, hfound, h⟩ := Outcome.bind_eq_ok_iff.1 h
    -- Pointing out that several members admit the value does not change the answer.
    have hne : found ≠ [] := by
      rintro rfl
      cases h
    obtain ⟨m, rest, rfl⟩ := List.exists_cons_of_ne_nil hne
    obtain ⟨hm, haccepted⟩ := of_acceptingMembers hfound m List.mem_cons_self
    exact ih m hm haccepted
  | named name => exact hfollow name v h
  | raw w => cases h

/-- Where null is admitted besides, it has the property too. -/
theorem hereditary_orNull {v : Value} {isNull nullable : Bool} {x : Noted Bool}
    (hnull : isNull = true → v = .null) (hx : x.result = .ok true → P v)
    (h : (if isNull && nullable then pure true else x : Noted Bool).result = .ok true) : P v := by
  split at h
  · rename_i hboth
    rw [hnull (Bool.and_eq_true_iff.1 hboth).1]
    exact hP.null
  · exact hx h

/-- So it is with what a shape admits. -/
theorem Shape.admits_hereditary {accepts : Descriptor → Value → Noted Bool}
    (haccepts : ∀ d v, (accepts d v).result = .ok true → P v) {s : Shape} {v : Value}
    (h : (s.admits accepts v).result = .ok true) : P v := by
  have hentry : ∀ key w, (s.admitsEntry accepts key w).result = .ok true → P w := by
    intro key w h
    unfold admitsEntry at h
    split at h
    · exact hereditary_orNull hP (v := w) (by cases w <;> simp) (haccepts _ w) h
    · split at h
      · cases h
      · exact hereditary_orNull hP (v := w) (by cases w <;> simp) (haccepts _ w) h
  unfold admits at h
  refine hereditary_orNull hP (v := v) (by cases v <;> simp) (fun h => ?_) h
  cases hbody : s.body with
  | type d o =>
    rw [hbody] at h
    exact haccepts d v h
  | object specs additional options parent =>
    rw [hbody] at h
    cases v with
    | dict es =>
      -- The keys are checked before the entries, and what is needed behind them.
      dsimp only at h
      cases hkeys : (Value.dict es).isTextKeyed with
      | false =>
        rw [hkeys] at h
        cases h
      | true =>
        rw [hkeys] at h
        obtain ⟨b, hall, h⟩ := Outcome.bind_eq_ok_iff.1 ((Noted.result_bind _ _).symm.trans h)
        cases b with
        | false => cases h
        | true => exact hP.dict (List.all_eq_true.1 hkeys) fun e he => hentry _ _ (Noted.of_all hall e he)
    | _ => cases h

/-- What conforms within a catalog has every hereditary property. -/
theorem conforms_hereditary {c : Catalog} {v : Value} {d : Descriptor}
    (h : (conforms (.within c) v d).result = .ok true) : P v := by
  have hfollow : ∀ fuel name w, ((Scope.within c).follow fuel name w).result = .ok true → P w := by
    intro fuel
    -- Each name that is followed costs one step, so the induction is on the steps.
    induction fuel with
    | zero => exact fun name w h => by cases h
    | succ fuel ih =>
      intro name w h
      rw [Scope.follow, Noted.result_bind] at h
      obtain ⟨target, htarget, h⟩ := Outcome.bind_eq_ok_iff.1 h
      obtain ⟨s, -, hs⟩ := Outcome.do_eq_ok_iff.1 htarget
      obtain rfl : Target.shape s = target := Except.ok.inj hs
      exact Shape.admits_hereditary hP (fun d v => Descriptor.accepts_hereditary hP ih) h
  exact Descriptor.accepts_hereditary hP (hfollow _) h

end

/-- What conforms is plain data, when its dictionaries have no two equal keys. -/
theorem Value.hereditary_plain : Value.Hereditary fun v => v.hasDistinctKeys = true → v.Plain where
  null _ := .null
  scalar {v kind} h _ := by
    cases v with
    | bool b => exact .bool b
    | int n => exact .int n
    | float d => exact .float d
    | str s => exact .str s
    | _ => cases h
  list h hkeys := .list fun v hv => h v hv (haveDistinctKeys_iff.1 hkeys v hv)
  tuple h hkeys := .tuple fun v hv => h v hv (haveDistinctKeys_iff.1 hkeys v hv)
  dict htexts h hkeys := by
    refine Plain.dict htexts hkeys fun e he => h e he ?_
    rw [hasDistinctKeys, Bool.and_eq_true] at hkeys
    exact (entriesHaveDistinctKeys_iff.1 hkeys.2 e he).2

/-! ### Reading back -/

/-- A text that is read wherever it ends is read to its own end. -/
theorem Code.read_of_reads {text : String} {e : Expression}
    (h : Reads (readExpression (text.toList.length + 2)) text.toList e) : Code.read text = some e := by
  have hread := h [] ends_nil
  rw [List.append_nil] at hread
  unfold Code.read
  rw [hread]
  rfl

/-- The source text of plain data gives the data when all numbers are finite, and nothing otherwise. -/
theorem Value.Plain.default_source {v : Value} (hv : v.Plain) :
    Code.default? (defaultSource v) = if v.isFinite then some v else none := by
  have hsource : defaultSource v = v.literal ∨
      defaultSource v = "field(default_factory=lambda: " ++ v.literal ++ ")" := by
    cases v with
    | list items | tuple items | dict es => exact .inr rfl
    | _ => exact .inl rfl
  -- Containers stand behind a factory, and the text around them is enough for its step.
  rcases hsource with hsource | hsource
  · obtain ⟨e, hreads, hdenotes⟩ := Code.isLiteral_of_plain hv (Nat.lt_succ_self _)
    rw [hsource, Code.default?, Code.read_of_reads hreads]
    exact hdenotes.plain.trans hdenotes.value
  · have htext : (defaultSource v).toList =
        "field(default_factory=lambda: ".toList ++ v.literal.toList ++ [')'] := by
      rw [hsource, String.toList_append, String.toList_append]
      rfl
    have hfuel : v.literal.toList.length + 1 < (defaultSource v).toList.length := by
      rw [htext]
      simp
    obtain ⟨e, hreads, hdenotes⟩ := Code.isLiteral_of_plain hv hfuel
    have hfield := Code.reads_field hreads
    rw [← htext] at hfield
    rw [Code.default?, Code.read_of_reads hfield]
    exact hdenotes.value

namespace Catalog

/-- The source text of a default gives the default when all numbers are finite, and nothing otherwise.
    The names in the text stand for what the module imports, so no shape and no property is taken to have the
    name of an import, such as `field` or `dataclass`.  Integers may have any number of digits here and displays
    any depth; the limits that one interpreter or another sets to both are left out. -/
theorem default_defaultSource {c : Catalog} {v : Value} {d : Descriptor}
    (hkeys : v.hasDistinctKeys = true) (h : (conforms (.within c) v d).result = .ok true) :
    Code.default? (defaultSource v) = if v.isFinite then some v else none :=
  Value.Plain.default_source (conforms_hereditary Value.hereditary_plain h hkeys)

/-- An entity with a quote in its key and a line end in its tag, and a negative number. -/
def sampleDefault : Value :=
  .list [.record [("id", .str "it's"), ("tags", .tuple [.str "a\nb"])], .float (Double.ofDecimal true 25 (-1))]

/-- The default is read back from its source text, in which all of this is escaped. -/
theorem default_defaultSource_pages :
    sampleDefault.hasDistinctKeys = true
      ∧ (conforms (.within Pages.catalog) sampleDefault
          (.array (.union [.named "Entity", .scalar .number]))).result = .ok true
      ∧ Code.default? (defaultSource sampleDefault) = some sampleDefault := by
  have hkeys : sampleDefault.hasDistinctKeys = true := by decide
  have hconforms : (conforms (.within Pages.catalog) sampleDefault
      (.array (.union [.named "Entity", .scalar .number]))).result = .ok true := by rfl
  refine ⟨hkeys, hconforms, ?_⟩
  rw [default_defaultSource hkeys hconforms]
  rfl

/-- Infinity conforms to the number type, and its source text is a name that stands for nothing. -/
theorem default_infinity :
    Pages.catalog.Reached
      ∧ (conforms (.within Pages.catalog) (.float (Double.infinity false)) (.scalar .number)).result = .ok true
      ∧ defaultSource (.float (Double.infinity false)) = "inf"
      ∧ Code.default? (defaultSource (.float (Double.infinity false))) = none := by
  exact ⟨Pages.reachable_catalog.reached, rfl, rfl, rfl⟩

end Catalog

end DataShapes
