import DataShapes.Log.Format

/-!
# Split logging

Log records go to two streams: those below a level to the output, the others to the error stream.
Records below the root level go nowhere.  Configuration takes away whatever handlers there were and
adds two of its own, so a record is never written twice.

Main definitions:
* `LogHandler`, `LogHandler.accepts`: a handler, and the records that it writes;
* `LogRoot.remove`, `LogRoot.add`: the root logger without a handler, and with one more;
* `LogRoot.configure`: the root logger after a configuration;
* `LogRoot.emit`: what one record writes;
* `LogRoot.emitAll`, `LogRoot.textOf`: what a list of records writes, and the text of one stream.
-/

namespace DataShapes

/-- Where a handler writes. -/
inductive LogStream where
  | output
  | error
  /-- A file, or whatever else a handler that was there before may write to. -/
  | other (name : String)
deriving DecidableEq, Repr

/-- The record is below a level. -/
def LogRecord.isBelow (level : Int) (r : LogRecord) : Bool := r.level < level

/-- A handler of the root logger. -/
structure LogHandler where
  /-- Handlers are told apart by their numbers, whatever else they hold. -/
  number : Nat
  stream : LogStream
  /-- Records below this level are left out. -/
  level : Int := 0
  /-- Records that do not pass all of them are left out. -/
  filters : List (LogRecord → Bool) := []
  format : LogFormat := LogFormat.standard

namespace LogHandler

/-- A handler writes a record. -/
def accepts (h : LogHandler) (r : LogRecord) : Bool := h.level ≤ r.level && h.filters.all (· r)

/-- The handler of records below a level. -/
def forOutput (number : Nat) (split : Int) (format : LogFormat) : LogHandler :=
  { number, stream := .output, filters := [LogRecord.isBelow split], format }

/-- The handler of records from a level on. -/
def forErrors (number : Nat) (split : Int) (format : LogFormat) : LogHandler :=
  { number, stream := .error, level := split, format }

/-- A handler takes the records from its level on that pass all of its filters. -/
theorem accepts_iff {h : LogHandler} {r : LogRecord} :
    h.accepts r = true ↔ h.level ≤ r.level ∧ h.filters.all (· r) = true := by
  rw [accepts, Bool.and_eq_true, decide_eq_true_iff]

/-- The handler of the output takes the records below the level that splits the streams. -/
theorem accepts_forOutput_iff {number : Nat} {split : Int} {format : LogFormat} {r : LogRecord} :
    (forOutput number split format).accepts r = true ↔ 0 ≤ r.level ∧ r.level < split := by
  rw [accepts_iff]
  simp [forOutput, LogRecord.isBelow]

/-- The handler of the errors takes the records from the level that splits the streams on. -/
theorem accepts_forErrors_iff {number : Nat} {split : Int} {format : LogFormat} {r : LogRecord} :
    (forErrors number split format).accepts r = true ↔ split ≤ r.level := by
  rw [accepts_iff]
  simp [forErrors]

end LogHandler

/-- The root logger. -/
structure LogRoot where
  level : Int := 30
  handlers : List LogHandler := []
  /-- How many handlers have been made for it; the next one has this number. -/
  made : Nat := 0

/-- The level for a number of verbosity switches. -/
def levelForVerbosity (verbosity : Int) : Int :=
  if verbosity ≤ 0 then 30 else if verbosity = 1 then 20 else 10

namespace LogRoot

/-- Take a handler away, if it is there. -/
def remove (root : LogRoot) (h : LogHandler) : LogRoot :=
  { root with handlers := root.handlers.eraseP (·.number == h.number) }

/-- Add a handler behind the others, unless it is there. -/
def add (root : LogRoot) (h : LogHandler) : LogRoot :=
  if root.handlers.any (·.number == h.number) then root
  else { root with handlers := root.handlers ++ [h] }

/-- Split records at a level, which is at least that of debug records. -/
def configure (verbosity errorLevel : Int) (format : LogFormat) (root : LogRoot) : LogRoot :=
  let split := max errorLevel Level.debug.number
  let bare := root.handlers.foldl remove root
  let opened := { bare with level := levelForVerbosity verbosity, made := bare.made + 2 }
  [LogHandler.forOutput bare.made split format, LogHandler.forErrors (bare.made + 1) split format].foldl
    add opened

/-- What one record of a logger without a level of its own writes, handler by handler. -/
def emit (root : LogRoot) (r : LogRecord) : List (LogStream × String) :=
  if r.level < root.level then []
  else (root.handlers.filter (·.accepts r)).map fun h => (h.stream, h.format.line r)

/-- What a list of records writes. -/
def emitAll (root : LogRoot) (rs : List LogRecord) : List (LogStream × String) :=
  rs.flatMap root.emit

/-- The text of one stream. -/
def textOf (stream : LogStream) (writes : List (LogStream × String)) : String :=
  String.join ((writes.filter (·.1 == stream)).map Prod.snd)

/-! ### The handlers after a configuration -/

/-- Taking away one handler after the other leaves none, whichever there were. -/
theorem handlers_foldl_remove {root : LogRoot} {hs : List LogHandler} (h : root.handlers = hs) :
    (hs.foldl remove root).handlers = [] := by
  induction hs generalizing root with
  | nil => exact h
  | cons first rest ih =>
    -- The handler that is taken away is the first of those that are left.
    have hrest : (root.remove first).handlers = rest := by
      rw [remove, h, List.eraseP_cons_of_pos (by simp)]
    exact ih hrest

/-- After configuration there are exactly the two handlers that it has made. -/
theorem handlers_configure (verbosity errorLevel : Int) (format : LogFormat) (root : LogRoot) :
    ∃ n, (root.configure verbosity errorLevel format).handlers
      = [LogHandler.forOutput n (max errorLevel Level.debug.number) format,
        LogHandler.forErrors (n + 1) (max errorLevel Level.debug.number) format] := by
  have hbare : (root.handlers.foldl remove root).handlers = [] := handlers_foldl_remove rfl
  refine ⟨(root.handlers.foldl remove root).made, ?_⟩
  simp [configure, add, hbare, LogHandler.forOutput, LogHandler.forErrors]

/-- Handlers do not change the level of the root. -/
@[simp] theorem level_configure (verbosity errorLevel : Int) (format : LogFormat) (root : LogRoot) :
    (root.configure verbosity errorLevel format).level = levelForVerbosity verbosity := by
  have hadd : ∀ (r : LogRoot) h, (r.add h).level = r.level := by
    intro r h
    unfold add
    split <;> rfl
  simp [configure, hadd]

/-- No verbosity leads below the level of debugging. -/
theorem debug_le_levelForVerbosity (verbosity : Int) :
    Level.debug.number ≤ levelForVerbosity verbosity := by
  unfold levelForVerbosity
  split
  · decide
  · split <;> decide

/-- After configuration a record at or above the root level is written by exactly one handler. -/
theorem emit_configure (verbosity errorLevel : Int) (format : LogFormat) (root : LogRoot)
    (r : LogRecord) :
    (root.configure verbosity errorLevel format).emit r =
      if r.level < levelForVerbosity verbosity then []
      else if r.level < max errorLevel Level.debug.number then [(.output, format.line r)]
      else [(.error, format.line r)] := by
  obtain ⟨n, hhandlers⟩ := handlers_configure verbosity errorLevel format root
  have hlevel := debug_le_levelForVerbosity verbosity
  unfold emit
  rw [level_configure, hhandlers]
  split
  · rfl
  · rename_i hr
    -- The handler of the output is at level zero, which no record at the root level is below.
    have hdebug : (0 : Int) < Level.debug.number := by decide
    have hzero : (0 : Int) ≤ r.level := by omega
    rw [List.filter_cons, List.filter_cons, List.filter_nil]
    by_cases hs : r.level < max errorLevel Level.debug.number
    · have herror : ¬ max errorLevel Level.debug.number ≤ r.level := Int.not_le.2 hs
      rw [if_pos (LogHandler.accepts_forOutput_iff.2 ⟨hzero, hs⟩),
        if_neg (herror ∘ LogHandler.accepts_forErrors_iff.1), if_pos hs]
      rfl
    · have herror : max errorLevel Level.debug.number ≤ r.level := Int.not_lt.1 hs
      rw [if_neg (hs ∘ And.right ∘ LogHandler.accepts_forOutput_iff.1),
        if_pos (LogHandler.accepts_forErrors_iff.2 herror), if_neg hs]
      rfl

end LogRoot

end DataShapes
