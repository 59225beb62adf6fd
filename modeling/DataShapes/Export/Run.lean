import DataShapes.Export.CommandLine
import DataShapes.Export.Modules
import DataShapes.Log.Split

/-!
# Running an export

A run reads its arguments, finds the catalog, exports it, and reports what happened in log records.  Problems
that an export can expect make the run fail with a record; others break it off.

Main definitions:
* `Modules.exportRequested`: find the catalog that is asked for and export it;
* `Notice.ofFailure`, `ExportRequest.conclude`: the end of a run;
* `Session`, `Modules.runExport`: what a run answers and writes.
-/

namespace DataShapes

/-- The record of a problem that ends an export. -/
def Notice.ofFailure (p : Problem) : Notice := ⟨.error, .exporter, "Export failed: " ++ p.message⟩

/-- The record of an export that writes no file. -/
def Notice.idle : Notice :=
  ⟨.warning, .exporter, "Neither --output nor --stubs given; only checked the definitions"⟩

/-- Find the catalog that is asked for and export it. -/
def Modules.exportRequested (ms : Modules) (ds : ExportDisruptions) (time : String) (r : ExportRequest) :
    Filing Unit := do
  let c ← ms.findCatalog r.module r.catalog
  let _ ← c.exportUnder ds time r.targets

/-- The exit code and the last records of an export.  Problems that are not expected are passed on. -/
def ExportRequest.conclude (r : ExportRequest) (x : Noted Unit) : Except Problem (Nat × List Notice) :=
  match x.result with
  | .ok _ => .ok (0, x.notices ++ if r.targets.isIdle then [Notice.idle] else [])
  | .error p => if p.isExpected then .ok (1, x.notices ++ [Notice.ofFailure p]) else .error p

/-- What a run answers. -/
structure Session where
  exit : Nat
  /-- What was written to the output and to the error stream; nothing when the arguments ended the run. -/
  streams : Option (String × String) := none
deriving DecidableEq, Repr

/-- What records write under a verbosity. -/
def Session.ofNotices (exit verbosity : Nat) (ns : List Notice) : Session :=
  let root := LogRoot.configure verbosity Level.warning.number LogFormat.standard {}
  let writes := root.emitAll (ns.map LogRecord.ofNotice)
  { exit, streams := some (LogRoot.textOf .output writes, LogRoot.textOf .error writes) }

/-- Export what the arguments ask for.  What the writing of its files may be disrupted by is part of the world in which
    the run takes place, like the folder. -/
def Modules.runExport (ms : Modules) (time : String) (arguments : List String) (folder : Folder)
    (ds : ExportDisruptions := {}) : Except Problem Session × Folder :=
  match CommandLine.read arguments with
  | .help => (.ok { exit := 0 }, folder)
  | .misuse => (.ok { exit := 2 }, folder)
  | .run r =>
    let (x, folder) := ms.exportRequested ds time r folder
    ((r.conclude x).map fun end_ => .ofNotices end_.1 r.verbosity end_.2, folder)

end DataShapes
