import DataShapes.Proofs.Registry.Writes
import Mathlib.Logic.Function.Basic

/-!
# Commands to registries

Several registries take commands: to record a reference or an embedded shape, to merge one registry into another or into
itself, and to close.  A merge makes one write after the other, and a write that is refused ends it; what was written
before stays.  Since a registry takes every write or none, a merge that was refused wrote nothing.

Main definitions:
* `RegistryWrite`, `RegistryCommand`: what is written to one of several registries, and what is asked of them;
* `Registries.writeRow`, `Registries.merge`, `Registries.step`: how far a row of writes comes, a merge, and a command;
* `writesTo`: of a row of writes, those that were made to one registry, as a bundle.

Main statements:
* `Registries.registries_writeRow`: a registry after a row of writes holds those of them that were made to it;
* `Registries.merge_of_open`, `Registries.merge_of_closed`: what a merge does;
* `Registries.result_merge_eq`: merging write by write comes to what merging at once comes to.
-/

namespace DataShapes

/-! ### One write -/

/-- The path or the title that is looked up. -/
def LookupKey.text : LookupKey → String
  | .path key => key
  | .title key => key

/-- The path, when it is one that is looked up. -/
def LookupKey.path? : LookupKey → Option String
  | .path key => some key
  | .title _ => none

/-- One write, as a bundle. -/
def Writes.one : LookupKey → String → Writes
  | .path path, unit => ⟨[(path, unit)], []⟩
  | .title title, unit => ⟨[], [(title, unit)]⟩

namespace Registry

/-- Record a reference under its path, or an embedded shape under its title. -/
def enter (r : Registry) : LookupKey → String → Noted Registry
  | .path path, unit => r.record path unit
  | .title title, unit => r.recordInline title unit

/-- A sealed registry refuses the name of an embedded shape. -/
theorem result_recordInline_sealed {r : Registry} (h : r.isSealed = true) (title unit : String) :
    (r.recordInline title unit).result = .error (.sealedRegistry r.owner title) := by
  have hclosed : (r.checkOpen title).result = .error (.sealedRegistry r.owner title) := by simp [checkOpen, h]
  unfold recordInline
  rw [Noted.result_bind, hclosed]
  rfl

/-- An open registry takes every write, and a closed one takes none. -/
theorem result_enter (r : Registry) (k : LookupKey) (unit : String) :
    (r.enter k unit).result
      = if r.isSealed then .error (.sealedRegistry r.owner k.text) else .ok (r.write (.one k unit)) := by
  by_cases h : r.isSealed = true
  · rw [if_pos h]
    cases k with
    | path path => exact result_record_sealed h path unit
    | title title => exact result_recordInline_sealed h title unit
  · rw [if_neg h]
    cases k with
    | path path => exact record_eq_write (Bool.eq_false_iff.2 h) path unit
    | title title => exact recordInline_eq_write (Bool.eq_false_iff.2 h) title unit

end Registry

/-! ### Commands -/

/-- A write to one of several registries. -/
structure RegistryWrite (ι : Type) where
  target : ι
  key : LookupKey
  unit : String
deriving DecidableEq

/-- What several registries may be asked to do. -/
inductive RegistryCommand (ι : Type) where
  | record (target : ι) (path unit : String)
  | recordInline (target : ι) (title unit : String)
  | merge (target source : ι)
  | close (target : ι)
deriving DecidableEq

/-- Several registries. -/
abbrev Registries (ι : Type) : Type := ι → Registry

/-- How far a row of writes came. -/
structure RegistryProgress (ι : Type) where
  registries : Registries ι
  /-- The writes that were made. -/
  made : List (RegistryWrite ι) := []
  /-- The problem that ended the row. -/
  problem : Option Problem := none

/-- Go on where a row of writes came to its end. -/
def RegistryProgress.andThen {ι : Type} (x : RegistryProgress ι) (f : Registries ι → RegistryProgress ι) :
    RegistryProgress ι :=
  match x.problem with
  | some _ => x
  | none => { f x.registries with made := x.made ++ (f x.registries).made }

/-- What a row of writes came to at one registry. -/
def RegistryProgress.resultAt {ι : Type} (x : RegistryProgress ι) (i : ι) : Except Problem Registry :=
  match x.problem with
  | some p => .error p
  | none => .ok (x.registries i)

/-- What a bundle writes to one of several registries: its references, then its embedded shapes. -/
def Writes.rowTo {ι : Type} (target : ι) (w : Writes) : List (RegistryWrite ι) :=
  w.entries.map (fun e => ⟨target, .path e.1, e.2⟩) ++ w.inlined.map (fun e => ⟨target, .title e.1, e.2⟩)

/-- The paths and the titles of a bundle, as they come. -/
def Writes.texts (w : Writes) : List String := Table.keys w.entries ++ Table.keys w.inlined

/-- The writes of a row go to the registry that the row is for. -/
theorem Writes.target_of_mem_rowTo {ι : Type} {i : ι} {w : Writes} {x : RegistryWrite ι} (h : x ∈ w.rowTo i) :
    x.target = i := by
  rcases List.mem_append.1 h with h | h
  · obtain ⟨e, -, rfl⟩ := List.mem_map.1 h
    rfl
  · obtain ⟨e, -, rfl⟩ := List.mem_map.1 h
    rfl

namespace Registries

variable {ι : Type} [DecidableEq ι]

/-- Make writes one after the other, up to the first one that is refused. -/
def writeRow (rs : Registries ι) : List (RegistryWrite ι) → RegistryProgress ι
  | [] => { registries := rs }
  | w :: ws =>
    match ((rs w.target).enter w.key w.unit).result with
    | .ok r =>
      let rest := writeRow (Function.update rs w.target r) ws
      { rest with made := w :: rest.made }
    | .error p => { registries := rs, problem := some p }

/-- Merge a registry into another one or into itself.  Its embedded shapes are read when its references have been
    written. -/
def merge (rs : Registries ι) (target source : ι) : RegistryProgress ι :=
  (rs.writeRow (Writes.rowTo target ⟨(rs source).entries, []⟩)).andThen fun rs =>
    writeRow rs (Writes.rowTo target ⟨[], (rs source).inlined⟩)

/-- Obey a command. -/
def step (rs : Registries ι) : RegistryCommand ι → RegistryProgress ι
  | .record target path unit => rs.writeRow [⟨target, .path path, unit⟩]
  | .recordInline target title unit => rs.writeRow [⟨target, .title title, unit⟩]
  | .merge target source => rs.merge target source
  | .close target => { registries := Function.update rs target (rs target).close }

end Registries

/-! ### What was written to one registry -/

/-- Writes one after the other may be taken together in any way. -/
theorem Writes.append_assoc (w x y : Writes) : w ++ x ++ y = w ++ (x ++ y) :=
  congrArg₂ mk (List.append_assoc ..) (List.append_assoc ..)

@[simp] theorem Writes.empty_append (w : Writes) : ({} : Writes) ++ w = w := rfl

section

variable {ι : Type} [DecidableEq ι] {i : ι}

/-- What was written to one of several registries, as a bundle. -/
def writesTo (i : ι) : List (RegistryWrite ι) → Writes
  | [] => {}
  | w :: ws => (if w.target = i then .one w.key w.unit else {}) ++ writesTo i ws

@[simp] theorem writesTo_nil : writesTo i [] = {} := rfl

/-- The first write counts for a registry when it goes there. -/
theorem writesTo_cons (w : RegistryWrite ι) (ws : List (RegistryWrite ι)) :
    writesTo i (w :: ws) = (if w.target = i then .one w.key w.unit else {}) ++ writesTo i ws := rfl

/-- The writes to a registry are those of both rows. -/
theorem writesTo_append (ws xs : List (RegistryWrite ι)) :
    writesTo i (ws ++ xs) = writesTo i ws ++ writesTo i xs := by
  induction ws with
  | nil => rfl
  | cons w ws ih => rw [List.cons_append, writesTo_cons, writesTo_cons, ih, Writes.append_assoc]

/-- A row of writes of one kind makes a bundle of that kind. -/
theorem writesTo_map (key : String → LookupKey) (bundle : List (String × String) → Writes) (hnil : bundle [] = {})
    (hcons : ∀ e es, bundle (e :: es) = .one (key e.1) e.2 ++ bundle es) (es : List (String × String)) :
    writesTo i (es.map fun e => ⟨i, key e.1, e.2⟩) = bundle es := by
  induction es with
  | nil => exact hnil.symm
  | cons e es ih => rw [List.map_cons, writesTo_cons, if_pos rfl, ih, hcons]

/-- Writing a bundle to a registry makes the writes of the bundle. -/
theorem writesTo_rowTo (w : Writes) : writesTo i (w.rowTo i) = w := by
  have hentries := writesTo_map (i := i) .path (fun es => ⟨es, []⟩) rfl (fun _ _ => rfl) w.entries
  have hinlined := writesTo_map (i := i) .title (fun es => ⟨[], es⟩) rfl (fun _ _ => rfl) w.inlined
  rw [Writes.rowTo, writesTo_append, hentries, hinlined]
  exact congrArg₂ Writes.mk (List.append_nil _) (List.nil_append _)

end

/-! ### Rows of writes -/

namespace Registries

variable {ι : Type} [DecidableEq ι] {rs : Registries ι} {i j : ι} {ws : List (RegistryWrite ι)}

/-- A write to an open registry is made, and the row goes on. -/
theorem writeRow_cons_of_open {w : RegistryWrite ι} (h : (rs w.target).isSealed = false) :
    rs.writeRow (w :: ws)
      = let rest := writeRow (Function.update rs w.target ((rs w.target).write (.one w.key w.unit))) ws
        { rest with made := w :: rest.made } := by
  rw [writeRow, Registry.result_enter, h]
  rfl

/-- A write to a closed registry ends the row. -/
theorem writeRow_cons_of_closed {w : RegistryWrite ι} (h : (rs w.target).isSealed = true) :
    rs.writeRow (w :: ws)
      = { registries := rs, problem := some (.sealedRegistry (rs w.target).owner w.key.text) } := by
  rw [writeRow, Registry.result_enter, h]
  rfl

/-- A row of writes to an open registry is made from the first write to the last. -/
theorem writeRow_of_open (h : (rs i).isSealed = false) (hws : ∀ w ∈ ws, w.target = i) :
    rs.writeRow ws = { registries := Function.update rs i ((rs i).write (writesTo i ws)), made := ws } := by
  induction ws generalizing rs with
  | nil => rw [writeRow, writesTo_nil, Registry.write_empty, Function.update_eq_self]
  | cons w ws ih =>
    obtain rfl := hws w List.mem_cons_self
    have hrest : (Function.update rs w.target ((rs w.target).write (.one w.key w.unit)) w.target).isSealed = false := by
      rw [Function.update_self, Registry.isSealed_write, h]
    rw [writeRow_cons_of_open h, ih hrest fun x hx => hws x (List.mem_cons_of_mem _ hx)]
    dsimp only
    rw [Function.update_self, Function.update_idem, writesTo_cons, if_pos rfl, Registry.write_append]

/-- A closed registry refuses the first write of a row. -/
theorem writeRow_of_closed (h : (rs i).isSealed = true) (hws : ∀ w ∈ ws, w.target = i) :
    rs.writeRow ws
      = { registries := rs, problem := ws.head?.map fun w => .sealedRegistry (rs i).owner w.key.text } := by
  cases ws with
  | nil => rfl
  | cons w ws =>
    obtain rfl := hws w List.mem_cons_self
    exact writeRow_cons_of_closed h

/-- Nothing is written to a closed registry. -/
theorem writesTo_made_of_closed (h : (rs i).isSealed = true) : writesTo i (rs.writeRow ws).made = {} := by
  induction ws generalizing rs with
  | nil => rfl
  | cons w ws ih =>
    cases hopen : (rs w.target).isSealed with
    | true =>
      rw [writeRow_cons_of_closed hopen]
      rfl
    | false =>
      -- What is written first goes to another registry, and this one is closed as before.
      have hne : i ≠ w.target := by
        rintro rfl
        rw [h] at hopen
        cases hopen
      rw [writeRow_cons_of_open hopen, writesTo_cons, if_neg hne.symm, Writes.empty_append]
      exact ih (by rwa [Function.update_of_ne hne])

/-- A registry after a row of writes holds in addition those of them that were made to it. -/
theorem registries_writeRow (rs : Registries ι) (ws : List (RegistryWrite ι)) (i : ι) :
    (rs.writeRow ws).registries i = (rs i).write (writesTo i (rs.writeRow ws).made) := by
  -- Once a write is refused the rest of the row is not made, so the induction goes from the front.
  induction ws generalizing rs with
  | nil => rfl
  | cons w ws ih =>
    cases hopen : (rs w.target).isSealed with
    | true =>
      rw [writeRow_cons_of_closed hopen]
      rfl
    | false =>
      rw [writeRow_cons_of_open hopen]
      dsimp only
      rw [ih, writesTo_cons, Registry.write_append]
      congr 1
      by_cases htarget : w.target = i
      · rw [if_pos htarget, ← htarget, Function.update_self]
      · rw [if_neg htarget, Function.update_of_ne (Ne.symm htarget), Registry.write_empty]

/-- A merge changes each registry by the writes to it that were made, be there a problem or not. -/
theorem registries_merge (rs : Registries ι) (target source i : ι) :
    (rs.merge target source).registries i = (rs i).write (writesTo i (rs.merge target source).made) := by
  unfold merge RegistryProgress.andThen
  split
  · exact registries_writeRow ..
  · dsimp only
    rw [registries_writeRow, registries_writeRow rs, writesTo_append, Registry.write_append]

/-- Nothing is written to a closed registry by a merge. -/
theorem writesTo_made_merge_of_closed (h : (rs i).isSealed = true) (target source : ι) :
    writesTo i (rs.merge target source).made = {} := by
  unfold merge RegistryProgress.andThen
  split
  · exact writesTo_made_of_closed h
  · have hrest : ((rs.writeRow (Writes.rowTo target ⟨(rs source).entries, []⟩)).registries i).isSealed = true := by
      rw [registries_writeRow, Registry.isSealed_write, h]
    rw [writesTo_append, writesTo_made_of_closed h, Writes.empty_append, writesTo_made_of_closed hrest]

/-- Merging into an open registry writes what the other one holds, also when it is the same. -/
theorem merge_of_open (h : (rs i).isSealed = false) (j : ι) :
    rs.merge i j
      = { registries := Function.update rs i ((rs i).write (rs j).content), made := (rs j).content.rowTo i } := by
  have hentries : rs.writeRow (Writes.rowTo i ⟨(rs j).entries, []⟩)
      = { registries := Function.update rs i ((rs i).write ⟨(rs j).entries, []⟩)
          made := Writes.rowTo i ⟨(rs j).entries, []⟩ } := by
    rw [writeRow_of_open h fun w hw => Writes.target_of_mem_rowTo hw, writesTo_rowTo]
  -- The references have been written when the embedded shapes are read, but they go to the other table.
  have hsame : (Function.update rs i ((rs i).write ⟨(rs j).entries, []⟩) j).inlined = (rs j).inlined := by
    by_cases hji : j = i
    · rw [hji, Function.update_self]
      rfl
    · rw [Function.update_of_ne hji]
  have hopen : (Function.update rs i ((rs i).write ⟨(rs j).entries, []⟩) i).isSealed = false := by
    rw [Function.update_self, Registry.isSealed_write, h]
  rw [merge, hentries, RegistryProgress.andThen]
  dsimp only
  rw [hsame, writeRow_of_open hopen fun w hw => Writes.target_of_mem_rowTo hw, writesTo_rowTo, Function.update_self,
    Function.update_idem, ← Registry.write_append]
  have hcontent : (⟨(rs j).entries, []⟩ ++ ⟨[], (rs j).inlined⟩ : Writes) = (rs j).content :=
    congrArg₂ Writes.mk (List.append_nil _) (List.nil_append _)
  have hrow : Writes.rowTo i ⟨(rs j).entries, []⟩ ++ Writes.rowTo i ⟨[], (rs j).inlined⟩ = (rs j).content.rowTo i := by
    simp [Writes.rowTo, Registry.content]
  rw [hcontent, hrow]

/-- Writing a bundle to a closed registry is refused unless it is empty. -/
theorem writeRow_rowTo_of_closed (h : (rs i).isSealed = true) (w : Writes) :
    rs.writeRow (w.rowTo i)
      = { registries := rs, problem := w.texts.head?.map (.sealedRegistry (rs i).owner) } := by
  rw [writeRow_of_closed h fun x hx => Writes.target_of_mem_rowTo hx]
  obtain ⟨_ | ⟨e, es⟩, _ | ⟨f, fs⟩⟩ := w <;> rfl

/-- Merging into a closed registry writes nothing, and it is refused unless there is nothing to write. -/
theorem merge_of_closed (h : (rs i).isSealed = true) (j : ι) :
    rs.merge i j
      = { registries := rs, problem := (rs j).content.texts.head?.map (.sealedRegistry (rs i).owner) } := by
  rw [merge, writeRow_rowTo_of_closed h]
  cases hentries : (rs j).entries with
  | nil =>
    show RegistryProgress.andThen { registries := rs } _ = _
    rw [RegistryProgress.andThen]
    dsimp only
    rw [writeRow_rowTo_of_closed h, List.append_nil, Registry.content, hentries]
  | cons e es =>
    rw [Registry.content, hentries]
    rfl

end Registries

/-! ### Merging at once -/

namespace Registry

/-- Merging into a closed registry is refused unless there is nothing to write. -/
theorem result_merge_of_closed {r : Registry} (h : r.isSealed = true) (other : Registry) :
    (r.merge other).result
      = match other.content.texts.head? with
        | some key => .error (.sealedRegistry r.owner key)
        | none => .ok r := by
  obtain ⟨owner, _ | ⟨e, es⟩, _ | ⟨f, fs⟩, isSealed⟩ := other
  · rfl
  · -- There is no reference to write, so that the first title is the one that is refused.
    unfold merge recordAll recordAllInline
    rw [Noted.result_bind, Noted.result_pure]
    show (Noted.result _) = _
    rw [Noted.result_bind, result_recordInline_sealed h]
    rfl
  all_goals
    unfold merge recordAll
    rw [Noted.result_bind, Noted.result_bind, result_record_sealed h]
    rfl

/-- Merging a registry without repeated keys into itself changes nothing. -/
theorem write_content_self {r : Registry} (hentries : (Table.keys r.entries).Nodup)
    (hinlined : (Table.keys r.inlined).Nodup) : r.write r.content = r := by
  unfold write content
  dsimp only
  rw [Table.putAll_self hentries, Table.putAll_self hinlined]

end Registry

namespace Registries

variable {ι : Type} [DecidableEq ι] {rs : Registries ι} {i : ι}

/-- Merging write by write comes to what merging at once comes to. -/
theorem result_merge_eq (rs : Registries ι) (i j : ι) :
    ((rs i).merge (rs j)).result = (rs.merge i j).resultAt i := by
  cases h : (rs i).isSealed with
  | false =>
    rw [Registry.result_merge h, merge_of_open h, RegistryProgress.resultAt]
    dsimp only
    rw [Function.update_self]
  | true =>
    rw [Registry.result_merge_of_closed h, merge_of_closed h, RegistryProgress.resultAt]
    cases (rs j).content.texts.head? <;> rfl

end Registries

end DataShapes
