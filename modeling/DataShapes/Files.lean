import DataShapes.Notice
import DataShapes.Output
import DataShapes.Table
import DataShapes.Text.Sorted

/-!
# Files and directories

Documents and stubs are written into a folder.  A folder is a value here: writing gives another folder,
also when the writing ends with a problem after the file has been opened.

Main definitions:
* `Path.parts`, `Path.directory`, `Path.suffix`: views of a path;
* `Folder`, `Folder.makeDirectories`, `Folder.checkWritable`, `Folder.read`: a folder and its operations;
* `Filing`: computations with notices that change a folder;
* `Filing.makeDirectoryFor`, `Filing.writeFile`, `Filing.readFile`: the elementary computations.
-/

namespace DataShapes

namespace Path

/-- The pieces between the slashes of a path. -/
def pieces : List Char → List (List Char)
  | [] => [[]]
  | c :: cs =>
    if c = '/' then [] :: pieces cs
    else
      match pieces cs with
      | [] => [[c]]
      | p :: ps => (c :: p) :: ps

/-- The names on a path behind those that are already known, the last one first. -/
def namesFrom : List String → List (List Char) → List String
  | known, [] => known.reverse
  | known, p :: ps =>
    if p = [] || p = ['.'] then namesFrom known ps
    else if p = ['.', '.'] && known.head?.any (· != "..") then namesFrom known.tail ps
    else namesFrom (String.ofList p :: known) ps

/-- The path starts at the root. -/
def isAbsolute (path : String) : Bool := path.toList.head? = some '/'

/-- The names on a path from the folder on.  The root is a name without characters. -/
def parts (path : String) : List String :=
  let names := namesFrom [] (pieces path.toList)
  if isAbsolute path then "" :: names.dropWhile (· == "..") else names

/-- A path by its names. -/
def join (names : List String) : String := "/".intercalate names

/-- The path without its last name and the slashes in front of it. -/
def directory (path : String) : String :=
  let head := (path.toList.reverse.dropWhile (· != '/'))
  let trimmed := head.dropWhile (· == '/')
  String.ofList (if trimmed.isEmpty then head.reverse else trimmed.reverse)

/-- The path without superfluous slashes and dots. -/
def tidy (path : String) : String :=
  let names := (pieces path.toList).filter fun p => p != [] && p != ['.']
  let text := join (names.map String.ofList)
  if isAbsolute path then "/" ++ text else if names.isEmpty then "." else text

/-- The last name on a path. -/
def name (path : String) : String :=
  String.ofList (((pieces path.toList).filter fun p => p != [] && p != ['.']).getLast?.getD [])

/-- The end of a name from its last point on; a point at either end of the name begins no suffix. -/
def suffix (path : String) : String :=
  let reversed := (name path).toList.reverse
  let ending := reversed.takeWhile (· != '.')
  match reversed.drop ending.length with
  | '.' :: _ :: _ => if ending.isEmpty then "" else String.ofList ('.' :: ending.reverse)
  | _ => ""

end Path

/-- A folder with directories and files under their paths. -/
structure Folder where
  directories : List String := []
  files : Table String := []
deriving DecidableEq, Repr, Inhabited

namespace Folder

/-- The names lead to the folder, to one around it or to the root. -/
def isAround (names : List String) : Bool := names == [""] || names.all (· == "..")

/-- There is a directory at the path. -/
def isDirectory (f : Folder) (names : List String) : Bool :=
  isAround names || f.directories.contains (Path.join names)

/-- There is a file at the path. -/
def isFile (f : Folder) (names : List String) : Bool := f.files.contains (Path.join names)

/-- Make the directories on a path that are missing.  `made` are the names that lead to a directory that
    is there. -/
def makeFrom (f : Folder) (made : List String) : List String → Except Problem Folder
  | [] => .ok f
  | n :: names =>
    let here := made ++ [n]
    if f.isDirectory here then makeFrom f here names
    else if f.isFile here then
      match names with
      | [] => .error (.fileExists (Path.join here))
      | next :: _ => .error (.notDirectory (Path.join (here ++ [next])))
    else makeFrom { f with directories := f.directories ++ [Path.join here] } here names

/-- Make a directory and those above it. -/
def makeDirectories (f : Folder) (path : String) : Except Problem Folder :=
  makeFrom f [] (Path.parts path)

/-- Some name before the last one on the path is that of a file. -/
def passesFile (f : Folder) (names : List String) : Bool :=
  (List.range names.length).any fun n => 0 < n && f.isFile (names.take n)

/-- The problem of a path that leads to nothing. -/
def missing (f : Folder) (path : String) : Problem :=
  if f.passesFile (Path.parts path) then .notDirectory path else .fileNotFound path

/-- A file can be opened for writing: its directory is there, and it is no directory itself. -/
def checkWritable (f : Folder) (path : String) : Except Problem Unit :=
  let names := Path.parts path
  let endsOpen := path.toList.getLast? = some '/'
  if path.isEmpty then .error (.fileNotFound path)
  else if f.isDirectory names then .error (.isDirectory path)
  else if !f.isDirectory names.dropLast then .error (f.missing path)
  else if endsOpen then
    .error (if f.isFile names then .notDirectory path else .isDirectory path)
  else .ok ()

/-- Put a text into a file. -/
def write (f : Folder) (path text : String) : Folder :=
  { f with files := f.files.put (Path.join (Path.parts path)) text }

/-- The files below the folder, by their paths. -/
def below (f : Folder) : Table String :=
  let inside := f.files.filter fun e => (Path.parts e.1).head?.all fun n => n != "" && n != ".."
  (Text.sorted (Table.keys inside)).filterMap fun path => (f.files.get? path).map (path, ·)

/-- The text of a file. -/
def read (f : Folder) (path : String) : Except Problem String :=
  let names := Path.parts path
  if f.isDirectory names then .error (.isDirectory path)
  else
    match f.files.get? (Path.join names) with
    | some text => .ok text
    | none => .error (f.missing path)

end Folder

/-- A computation with notices that changes a folder; the changes stay when it fails. -/
def Filing (α : Type) : Type := Folder → Noted α × Folder

namespace Filing

variable {α β : Type}

/-- Go on after a result; after a problem nothing more happens. -/
def andThen (x : Filing α) (f : α → Filing β) : Filing β := fun folder =>
  match x folder with
  | (⟨.error p, notices⟩, folder) => (⟨.error p, notices⟩, folder)
  | (⟨.ok a, notices⟩, folder) =>
    let (y, folder) := f a folder
    (⟨y.result, notices ++ y.notices⟩, folder)

instance : Monad Filing where
  pure a := fun folder => (pure a, folder)
  bind := andThen

/-- A computation that leaves the folder alone. -/
def ofNoted (x : Noted α) : Filing α := fun folder => (x, folder)

instance : MonadLift Noted Filing := ⟨ofNoted⟩
instance : MonadLift (Except Problem) Filing := ⟨fun x => ofNoted (Noted.ofExcept x)⟩

/-- When there is a problem, leave a notice. -/
def onProblem (x : Filing α) (describe : Problem → Notice) : Filing α := fun folder =>
  match x folder with
  | (⟨.error p, notices⟩, folder) => (⟨.error p, notices ++ [describe p]⟩, folder)
  | y => y

/-- Make the directories above a file. -/
def makeDirectoryFor (path : String) : Filing Unit := fun folder =>
  let directory := Path.directory path
  if directory.isEmpty then (pure (), folder)
  else
    match folder.makeDirectories directory with
    | .ok folder => (pure (), folder)
    | .error p => (Noted.fail p, folder)

/-- Open a file and write an output into it, as far as it goes.  Opening empties the file, so what was there is
    gone also when the writing is disrupted. -/
def writeFile (d : Option Disruption) (path : String) (o : Output) : Filing Unit := fun folder =>
  match folder.checkWritable path with
  | .error p => (Noted.fail p, folder)
  | .ok _ =>
    let written := o.disrupted d
    (Noted.ofExcept (written.complete.map fun _ => ()), folder.write path written.text)

/-- The text of a file. -/
def readFile (path : String) : Filing String := fun folder =>
  (Noted.ofExcept (folder.read path), folder)

/-! ### What writing leaves behind -/

/-- A file that was written holds the text. -/
theorem files_write (f : Folder) (path text : String) :
    (f.write path text).files.get? (Path.join (Path.parts path)) = some text :=
  Table.get?_put_self _ _ _

end Filing

end DataShapes
