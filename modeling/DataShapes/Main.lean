import DataShapes.Export.Run
import DataShapes.Samples

/-!
# The program

The command line of the export, over the sample modules.  The files that it writes are made at the end, in
the working directory.
-/

namespace DataShapes

/-- How the program is called. -/
def usage : String :=
  "usage: shapes [-h] --module MODULE [--catalog CATALOG] [--output OUTPUT] [--stubs STUBS] "
    ++ "[--format json|yaml] [-v]"

/-- The environment variable that gives the time of documents. -/
def timeVariable : String := "GENERATED_AT"

/-- The time of documents when none is given. -/
def defaultTime : String := "1970-01-01T00:00:00+00:00"

/-- Make the directories and the files of a folder. -/
def Folder.make (f : Folder) : IO Unit := do
  for d in f.directories do
    IO.FS.createDirAll d
  for (path, text) in f.files do
    IO.FS.writeFile path text

/-- Print what a run has written to the streams. -/
def Session.print (s : Session) : IO Unit := do
  match s.streams with
  | some (output, errors) =>
    IO.print output
    IO.eprint errors
  | none => if s.exit = 0 then IO.println usage else IO.eprintln usage

end DataShapes

open DataShapes in
/-- Export one of the sample modules. -/
def main (arguments : List String) : IO UInt32 := do
  let time := (← IO.getEnv timeVariable).getD defaultTime
  let (x, folder) := Samples.modules.runExport time arguments {}
  match x with
  | .ok session =>
    folder.make
    session.print
    return session.exit.toUInt32
  | .error p =>
    IO.eprintln p.message
    return 1
