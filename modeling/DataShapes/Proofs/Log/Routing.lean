import DataShapes.Log.Split

/-!
# Records on their streams

Logging may be configured any number of times, over whatever handlers there are.  The last configuration counts: it
takes away the handlers of the earlier ones, and of its own two handlers one writes what the other leaves out.  So
every record from the root level on is on one stream once, and the streams keep the order of the records.

Main definitions:
* `LogSettings`, `LogRoot.configureAll`: what a configuration asks for, and the root logger after a row of them;
* `LogSettings.Admits`, `LogSettings.streamOf`: the records that are written at all, and the stream of each of them.

Main statement:
* `LogRoot.records_split`: what is written after the last configuration.
-/

namespace DataShapes

/-- What a configuration asks for. -/
structure LogSettings where
  verbosity : Int := 0
  errorLevel : Int := Level.warning.number
  format : LogFormat := LogFormat.standard

namespace LogSettings

/-- The record is at least at the root level. -/
def Admits (c : LogSettings) (r : LogRecord) : Prop := levelForVerbosity c.verbosity ≤ r.level

instance (c : LogSettings) : DecidablePred c.Admits :=
  fun r => inferInstanceAs (Decidable (levelForVerbosity c.verbosity ≤ r.level))

/-- The stream of a record.  The level at which errors start is at least that of debug records. -/
def streamOf (c : LogSettings) (r : LogRecord) : LogStream :=
  if max c.errorLevel Level.debug.number ≤ r.level then .error else .output

end LogSettings

namespace LogRoot

/-- The root logger after a row of configurations. -/
def configureAll (root : LogRoot) (cs : List LogSettings) : LogRoot :=
  cs.foldl (fun root c => root.configure c.verbosity c.errorLevel c.format) root

/-- The last configuration comes behind all others. -/
theorem configureAll_concat (root : LogRoot) (earlier : List LogSettings) (last : LogSettings) :
    root.configureAll (earlier ++ [last])
      = (root.configureAll earlier).configure last.verbosity last.errorLevel last.format := by
  rw [configureAll, List.foldl_append]
  rfl

/-- A record that is admitted is written once, to its stream, and any other record is not written. -/
theorem emit_configureAll (root : LogRoot) (earlier : List LogSettings) (last : LogSettings) (r : LogRecord) :
    (root.configureAll (earlier ++ [last])).emit r
      = if last.Admits r then [(last.streamOf r, last.format.line r)] else [] := by
  rw [configureAll_concat, emit_configure]
  by_cases hlevel : r.level < levelForVerbosity last.verbosity
  · have hout : ¬ last.Admits r := Int.not_le.2 hlevel
    rw [if_pos hlevel, if_neg hout]
  · have hin : last.Admits r := Int.not_lt.1 hlevel
    rw [if_neg hlevel, if_pos hin, LogSettings.streamOf]
    by_cases hsplit : r.level < max last.errorLevel Level.debug.number
    · rw [if_pos hsplit, if_neg (Int.not_le.2 hsplit)]
    · rw [if_neg hsplit, if_pos (Int.not_lt.1 hsplit)]

/-- Records are written one after the other, each in its turn. -/
theorem emitAll_configureAll (root : LogRoot) (earlier : List LogSettings) (last : LogSettings) (rs : List LogRecord) :
    (root.configureAll (earlier ++ [last])).emitAll rs
      = (rs.filter last.Admits).map fun r => (last.streamOf r, last.format.line r) := by
  induction rs with
  | nil => rfl
  | cons r rs ih =>
    rw [emitAll] at ih ⊢
    rw [List.flatMap_cons, emit_configureAll, ih, List.filter_cons]
    by_cases hadmits : last.Admits r
    · rw [if_pos hadmits, if_pos (decide_eq_true hadmits)]
      rfl
    · rw [if_neg hadmits, if_neg (hadmits ∘ of_decide_eq_true)]
      rfl

/-- The lines of one stream are those of its own records. -/
theorem textOf_lines (c : LogSettings) (stream : LogStream) (rs : List LogRecord) :
    textOf stream ((rs.filter c.Admits).map fun r => (c.streamOf r, c.format.line r))
      = String.join ((rs.filter fun r => c.Admits r ∧ c.streamOf r = stream).map c.format.line) := by
  have hown : (fun r => (c.streamOf r == stream) && decide (c.Admits r))
      = fun r => decide (c.Admits r ∧ c.streamOf r = stream) := by
    funext r
    rw [Bool.decide_and, Bool.and_comm]
    rfl
  rw [textOf, List.filter_map, List.filter_filter, List.map_map, ← hown]
  rfl

/-- Whatever handlers there were and however often logging was configured: after the last configuration every record
    from its root level on is written exactly once, to the error stream when it is at or above the level of errors and
    else to the output; no other record is written; and each stream has its records in the order in which they came. -/
theorem records_split (root : LogRoot) (earlier : List LogSettings) (last : LogSettings) :
    (∀ r, (root.configureAll (earlier ++ [last])).emit r
        = if last.Admits r then [(last.streamOf r, last.format.line r)] else [])
      ∧ ∀ rs, (root.configureAll (earlier ++ [last])).emitAll rs
          = (rs.filter last.Admits).map (fun r => (last.streamOf r, last.format.line r))
        ∧ ∀ stream, textOf stream ((root.configureAll (earlier ++ [last])).emitAll rs)
          = String.join ((rs.filter fun r => last.Admits r ∧ last.streamOf r = stream).map last.format.line) := by
  refine ⟨emit_configureAll root earlier last, fun rs => ⟨emitAll_configureAll root earlier last rs, ?_⟩⟩
  intro stream
  rw [emitAll_configureAll, textOf_lines]

/-- A record at the level of errors is an error, one just below it is not, and debug records need two switches. -/
example :
    ((({ handlers := [{ number := 7, stream := .other "log.txt" }] } : LogRoot).configureAll
      [{ verbosity := 2 }, { verbosity := 1, errorLevel := 25 }]).emitAll
        [⟨"a", 24, "x"⟩, ⟨"a", 25, "y"⟩, ⟨"a", 10, "z"⟩]).map Prod.fst = [.output, .error] := by
  decide

end LogRoot

end DataShapes
