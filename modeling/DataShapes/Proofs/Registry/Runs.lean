import DataShapes.Proofs.Registry.Commands

/-!
# Registries under runs of commands

All that counts for a registry is the row of writes that were made to it: it answers with the last write of a key, and
it lists paths in the order of their first writes.  A closed registry is as it was for good.

Main definitions:
* `Registries.after`, `Registries.writesOf`: the registries after a run of commands, and the writes that it made;
* `Registry.Answers`: a registry answers by the writes that were made to it;
* `Registries.Accepts`, `Registries.Freezes`: what becomes of the commands to an open registry, and to a closed one.

Main statements:
* `Registries.registries_step`, `Registries.after_apply`: a registry after one command, and after a run of them;
* `Registries.answers_after_run`: what new registries hold and do after a run of commands.
-/

namespace DataShapes

/-! ### What a registry answers -/

/-- One write is found under its own key alone. -/
theorem Writes.find?_one (k key : LookupKey) (unit : String) :
    (one k unit).find? key = if k = key then some unit else none := by
  cases k <;> cases key <;> simp [one, find?, Table.lastOf]

section

variable {ι : Type} [DecidableEq ι] {i : ι} {ws : List (RegistryWrite ι)}

/-- The unit of the last write under a key to a registry. -/
def lastUnit (ws : List (RegistryWrite ι)) (i : ι) (k : LookupKey) : Option String :=
  ((ws.filter fun w => w.target = i ∧ w.key = k).getLast?).map RegistryWrite.unit

/-- The paths that were written to a registry, each where it was written first. -/
def pathsWritten (ws : List (RegistryWrite ι)) (i : ι) : List String :=
  ((ws.filter (·.target = i)).filterMap (·.key.path?)).eraseDups

/-- A registry answers by the writes that were made to it. -/
structure Registry.Answers (r : Registry) (ws : List (RegistryWrite ι)) (i : ι) : Prop where
  resolve : ∀ path, r.resolve path = lastUnit ws i (.path path)
  inlinedName : ∀ title, r.inlinedName title = (lastUnit ws i (.title title)).getD title
  keys : r.entries.keys = pathsWritten ws i

/-- The first of some writes counts when no later one has its key. -/
theorem lastUnit_cons (w : RegistryWrite ι) (ws : List (RegistryWrite ι)) (k : LookupKey) :
    lastUnit (w :: ws) i k
      = (lastUnit ws i k).or (if w.target = i ∧ w.key = k then some w.unit else none) := by
  unfold lastUnit
  rw [List.filter_cons]
  by_cases h : w.target = i ∧ w.key = k
  · -- The first write counts only when no later one has its key.
    rw [if_pos (decide_eq_true h), if_pos h, List.getLast?_cons]
    cases (ws.filter fun w => w.target = i ∧ w.key = k).getLast? <;> rfl
  · rw [if_neg (h ∘ of_decide_eq_true), if_neg h, Option.or_none]

/-- The writes to a registry are found by the last one under a key. -/
theorem find?_writesTo (k : LookupKey) : (writesTo i ws).find? k = lastUnit ws i k := by
  induction ws with
  | nil => exact Writes.find?_empty k
  | cons w ws ih =>
    rw [writesTo_cons, Writes.find?_append, ih, lastUnit_cons]
    congr 1
    by_cases htarget : w.target = i
    · rw [if_pos htarget, Writes.find?_one]
      exact if_congr (by rw [and_iff_right htarget]) rfl rfl
    · rw [if_neg htarget, if_neg (htarget ∘ And.left), Writes.find?_empty]

/-- The paths that are written to a registry stand in the order of the writes. -/
theorem keys_writesTo :
    Table.keys (writesTo i ws).entries = (ws.filter (·.target = i)).filterMap (·.key.path?) := by
  induction ws with
  | nil => rfl
  | cons w ws ih =>
    rw [writesTo_cons, Writes.entries_append, Table.keys, List.map_append, List.filter_cons]
    rw [Table.keys] at ih
    rw [ih]
    by_cases htarget : w.target = i
    · rw [if_pos htarget, if_pos (decide_eq_true htarget)]
      obtain ⟨target, key | key, unit⟩ := w <;> rfl
    · rw [if_neg htarget, if_neg (htarget ∘ of_decide_eq_true)]
      rfl

/-- A registry that holds just the writes that were made to it answers by them. -/
theorem Registry.answers_of_content {r : Registry} {owner : Option String}
    (h : r.content = (({ owner } : Registry).write (writesTo i ws)).content) : r.Answers ws i := by
  -- Paths and titles are looked up alike, and a later write goes before an earlier one.
  have hlast : ∀ k, r.find? k = lastUnit ws i k := by
    intro k
    have hsame : r.find? k = (({ owner } : Registry).write (writesTo i ws)).find? k := by
      cases k with
      | path path => exact congrArg (fun w : Writes => Table.get? w.entries path) h
      | title title => exact congrArg (fun w : Writes => Table.get? w.inlined title) h
    have hnew : ({ owner } : Registry).find? k = none := by cases k <;> rfl
    rw [hsame, find?_write, hnew, Option.or_none, find?_writesTo]
  refine ⟨fun path => hlast (.path path), fun title => ?_, ?_⟩
  · exact congrArg (Option.getD · title) (hlast (.title title))
  · have hentries : r.entries = Table.putAll [] (writesTo i ws).entries := congrArg Writes.entries h
    rw [hentries, Table.keys_putAll_nil, keys_writesTo, pathsWritten]

end

namespace Registries

variable {ι : Type} [DecidableEq ι] {rs : Registries ι} {i : ι}

/-! ### Runs of commands -/

/-- The registries after a run of commands.  A command that meets a problem does not end the run. -/
def after (rs : Registries ι) (cs : List (RegistryCommand ι)) : Registries ι :=
  cs.foldl (fun rs c => (rs.step c).registries) rs

/-- The writes that a run of commands made. -/
def writesOf (rs : Registries ι) : List (RegistryCommand ι) → List (RegistryWrite ι)
  | [] => []
  | c :: cs => (rs.step c).made ++ writesOf (rs.step c).registries cs

/-- New registries. -/
def fresh (owners : ι → Option String) : Registries ι := fun i => { owner := owners i }

/-- A registry after a command: it holds what was written to it, and the command may have closed it. -/
theorem registries_step (rs : Registries ι) (c : RegistryCommand ι) (i : ι) :
    (rs.step c).registries i
      = { (rs i).write (writesTo i (rs.step c).made) with
          isSealed := (rs i).isSealed || decide (c = .close i) } := by
  -- Only closing changes the seal, and it writes nothing.
  cases c with
  | record target path unit =>
    rw [step, registries_writeRow]
    simp [Registry.write]
  | recordInline target title unit =>
    rw [step, registries_writeRow]
    simp [Registry.write]
  | merge target source =>
    rw [step, registries_merge]
    simp [Registry.write]
  | close target =>
    rw [step, writesTo_nil, Registry.write_empty]
    by_cases h : target = i
    · simp [h, Registry.close]
    · simp [h, Function.update_of_ne (Ne.symm h)]

/-- A closed registry is not changed by any command. -/
theorem registries_step_of_closed (h : (rs i).isSealed = true) (c : RegistryCommand ι) :
    (rs.step c).registries i = rs i := by
  have hmade : writesTo i (rs.step c).made = {} := by
    cases c with
    | record target path unit => exact writesTo_made_of_closed h
    | recordInline target title unit => exact writesTo_made_of_closed h
    | merge target source => exact writesTo_made_merge_of_closed h target source
    | close target => rfl
  rw [registries_step, hmade, Registry.write_empty, h, Bool.true_or, ← h]

/-- A registry after a run of commands. -/
theorem after_apply (rs : Registries ι) (cs : List (RegistryCommand ι)) (i : ι) :
    rs.after cs i
      = { (rs i).write (writesTo i (rs.writesOf cs)) with
          isSealed := (rs i).isSealed || decide (.close i ∈ cs) } := by
  induction cs generalizing rs with
  | nil => simp [after, writesOf]
  | cons c cs ih =>
    have hafter : rs.after (c :: cs) = after (rs.step c).registries cs := rfl
    rw [hafter, ih, writesOf, writesTo_append, Registry.write_append, registries_step]
    simp [Registry.write, Bool.or_assoc, eq_comm]

/-- A closed registry is as it was after every run of commands. -/
theorem after_of_closed (h : (rs i).isSealed = true) (cs : List (RegistryCommand ι)) : rs.after cs i = rs i := by
  induction cs generalizing rs with
  | nil => rfl
  | cons c cs ih =>
    have hstep := registries_step_of_closed h c
    calc rs.after (c :: cs) i = after (rs.step c).registries cs i := rfl
      _ = (rs.step c).registries i := ih (hstep.symm ▸ h)
      _ = rs i := hstep

/-! ### Commands to an open and to a closed registry -/

/-- Every command to a registry is obeyed. -/
structure Accepts (rs : Registries ι) (i : ι) : Prop where
  record : ∀ path unit, rs.step (.record i path unit)
    = { registries := Function.update rs i ((rs i).write (.one (.path path) unit)), made := [⟨i, .path path, unit⟩] }
  recordInline : ∀ title unit, rs.step (.recordInline i title unit)
    = { registries := Function.update rs i ((rs i).write (.one (.title title) unit))
        made := [⟨i, .title title, unit⟩] }
  merge : ∀ j, rs.step (.merge i j)
    = { registries := Function.update rs i ((rs i).write (rs j).content), made := (rs j).content.rowTo i }
  mergeSelf : (rs.step (.merge i i)).registries = rs

/-- No command to a registry changes anything, and each one that has something to write is refused at its first
    write. -/
structure Freezes (rs : Registries ι) (i : ι) : Prop where
  record : ∀ path unit, rs.step (.record i path unit)
    = { registries := rs, problem := some (.sealedRegistry (rs i).owner path) }
  recordInline : ∀ title unit, rs.step (.recordInline i title unit)
    = { registries := rs, problem := some (.sealedRegistry (rs i).owner title) }
  merge : ∀ j, rs.step (.merge i j)
    = { registries := rs, problem := (rs j).content.texts.head?.map (.sealedRegistry (rs i).owner) }
  mergeNothing : ∀ j, (rs.step (.merge i j)).problem = none ↔ (rs j).entries = [] ∧ (rs j).inlined = []
  /-- Nor does any run of commands, to this registry or to others, change what it holds. -/
  forever : ∀ cs, rs.after cs i = rs i

/-- An open registry obeys every command; a merge writes all the content of its source. -/
theorem accepts_of_open (h : (rs i).isSealed = false) (hentries : (Table.keys (rs i).entries).Nodup)
    (hinlined : (Table.keys (rs i).inlined).Nodup) : rs.Accepts i := by
  have hwrite : ∀ (k : LookupKey) (unit : String), rs.writeRow [⟨i, k, unit⟩]
      = { registries := Function.update rs i ((rs i).write (.one k unit)), made := [⟨i, k, unit⟩] } := by
    intro k unit
    rw [writeRow_cons_of_open h]
    rfl
  refine ⟨fun path => hwrite (.path path), fun title => hwrite (.title title), merge_of_open h, ?_⟩
  rw [step, merge_of_open h]
  dsimp only
  rw [Registry.write_content_self hentries hinlined, Function.update_eq_self]

/-- A closed registry refuses every command that has something to write, and no run changes it. -/
theorem freezes_of_closed (h : (rs i).isSealed = true) : rs.Freezes i := by
  refine ⟨fun path unit => writeRow_cons_of_closed h, fun title unit => writeRow_cons_of_closed h, merge_of_closed h,
    fun j => ?_, after_of_closed h⟩
  rw [step, merge_of_closed h]
  simp [Writes.texts, Registry.content, Table.keys]

/-- What new registries hold and do after a run of commands. -/
theorem answers_after_run (owners : ι → Option String) (cs : List (RegistryCommand ι)) (i : ι) :
    let rs := (fresh owners).after cs
    (rs i).Answers ((fresh owners).writesOf cs) i
      ∧ ((rs i).isSealed = true ↔ .close i ∈ cs)
      ∧ (.close i ∉ cs → rs.Accepts i)
      ∧ (.close i ∈ cs → rs.Freezes i)
      ∧ ∀ j, ((rs i).merge (rs j)).result = (rs.merge i j).resultAt i := by
  intro rs
  have hrun : rs i = { (fresh owners i).write (writesTo i ((fresh owners).writesOf cs)) with
      isSealed := decide (.close i ∈ cs) } := after_apply (fresh owners) cs i
  have hclosed : (rs i).isSealed = true ↔ .close i ∈ cs := by rw [hrun, decide_eq_true_iff]
  have hcontent : (rs i).content
      = ((fresh owners i).write (writesTo i ((fresh owners).writesOf cs))).content := by
    rw [hrun]
    rfl
  refine ⟨Registry.answers_of_content hcontent, hclosed, fun hopen => ?_, fun h => freezes_of_closed (hclosed.2 h),
    result_merge_eq rs i⟩
  -- No key occurs twice in a table that was written from the empty one, which a merge into itself needs.
  refine accepts_of_open (Bool.eq_false_iff.2 fun h => hopen (hclosed.1 h)) ?_ ?_
  · rw [hrun]
    exact Table.nodup_keys_putAll (t := []) List.nodup_nil _
  · rw [hrun]
    exact Table.nodup_keys_putAll (t := []) List.nodup_nil _

/-- A run in which a merge into a closed registry is refused and another write is made. -/
theorem answers_after_run_refused :
    let cs : List (RegistryCommand Bool) :=
      [.record false "#/definitions/Point" "Point", .recordInline false "Unit" "Scale", .merge true false, .close false,
        .record true "#/definitions/Point" "Place", .merge false true]
    let rs := (fresh fun owner => some (cond owner "Map" "Grid")).after cs
    (RegistryCommand.close false ∈ cs ∧ rs.Freezes false) ∧ (RegistryCommand.close true ∉ cs ∧ rs.Accepts true)
      ∧ (rs false).resolve "#/definitions/Point" = some "Point"
      ∧ (rs true).resolve "#/definitions/Point" = some "Place"
      ∧ (rs true).inlinedName "Unit" = "Scale" := by
  intro cs rs
  -- What the statement asks of the run is decided on its commands.
  have hclosed : RegistryCommand.close false ∈ cs := by decide
  have hopen : RegistryCommand.close true ∉ cs := by decide
  obtain ⟨hgrid, -, -, hfrozen, -⟩ := answers_after_run (fun owner => some (cond owner "Map" "Grid")) cs false
  obtain ⟨hmap, -, haccepts, -, -⟩ := answers_after_run (fun owner => some (cond owner "Map" "Grid")) cs true
  exact ⟨⟨hclosed, hfrozen hclosed⟩, ⟨hopen, haccepts hopen⟩, (hgrid.resolve _).trans (by decide),
    (hmap.resolve _).trans (by decide), (hmap.inlinedName _).trans (by decide)⟩

end Registries

end DataShapes
