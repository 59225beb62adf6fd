import DataShapes.Problem
import DataShapes.Text.Blank
import DataShapes.Text.DecimalDigit

/-!
# Format versions of documents

A document says by which version of the format it is written: three numbers between points, with
an optional `v` in front.  A document of the same major version can be read; a newer minor version is
pointed out, and the patch number does not matter.

Main definitions:
* `FormatVersion`, `FormatVersion.parse`: versions, and the version that a text denotes;
* `FormatVersion.before`: the order of versions;
* `FormatVersion.check`: whether a document of some version can be read.
-/

namespace DataShapes

/-- A version of the document format. -/
structure FormatVersion where
  major : Nat
  minor : Nat
  patch : Nat
deriving DecidableEq, Repr, Inhabited

namespace FormatVersion

/-- A version as text. -/
def text (v : FormatVersion) : String :=
  toString v.major ++ "." ++ toString v.minor ++ "." ++ toString v.patch

/-- The version by which documents are written. -/
def current : FormatVersion := ⟨0, 3, 0⟩

/-- A version comes before another one: the first number that differs is smaller. -/
def before (a b : FormatVersion) : Bool :=
  a.major < b.major
    || a.major == b.major && (a.minor < b.minor || a.minor == b.minor && a.patch < b.patch)

/-- A row of one or more decimal digits at the start, and the rest. -/
def spanNumber (cs : List Char) : Option (Nat × List Char) :=
  match cs.span Text.isDecimalDigit with
  | ([], _) => none
  | (digits, rest) => some (Text.decimalValue digits, rest)

/-- A point, and a row of digits behind it. -/
def spanPointed : List Char → Option (Nat × List Char)
  | '.' :: cs => spanNumber cs
  | _ => none

/-- Drop a `v` at the start. -/
def dropLetter : List Char → List Char
  | 'v' :: cs => cs
  | cs => cs

/-- The version that characters denote. -/
def ofChars? (cs : List Char) : Option FormatVersion := do
  let (major, cs) ← spanNumber (dropLetter cs)
  let (minor, cs) ← spanPointed cs
  let (patch, cs) ← spanPointed cs
  if cs.isEmpty then some ⟨major, minor, patch⟩ else none

/-- The version that a value denotes.  Surrounding blanks do not count. -/
def parse : Value → Except Problem FormatVersion
  | .str s =>
    match ofChars? (Text.trim s.toList) with
    | some v => .ok v
    | none => .error (.malformedVersion s)
  | v => .error (.versionNotText v)

/-- Whether a document can be read. -/
structure Verdict where
  compatible : Bool
  /-- The reason. -/
  message : String
  version : Option FormatVersion := none
  /-- The minor version of the document is newer. -/
  isNewer : Bool := false
deriving DecidableEq, Repr

/-- The judgement of a version. -/
def judge (supported v : FormatVersion) : Verdict :=
  if v.major ≠ supported.major then
    { compatible := false, version := some v,
      message := "Incompatible format version " ++ v.text ++ ": only major version "
        ++ toString supported.major ++ " is supported (supported: " ++ supported.text ++ ")" }
  else if v.minor > supported.minor then
    { compatible := true, version := some v, isNewer := true,
      message := "Format version " ++ v.text ++ " has a newer minor version than the supported "
        ++ supported.text ++ "; unknown fields are kept as they are" }
  else
    { compatible := true, version := some v,
      message := "Format version " ++ v.text ++ " is supported" }

/-- Whether a document that declares the given version can be read. -/
def check (supported : FormatVersion) (declared : Value) : Verdict :=
  match declared with
  | .null =>
    { compatible := false,
      message := "Missing 'format_version' field (supported: " ++ supported.text ++ ")" }
  | v =>
    match parse v with
    | .ok v => judge supported v
    | .error p => { compatible := false, message := p.message }

/-! ### Order and judgement -/

/-- Documents are compatible when their major version is the supported one. -/
theorem compatible_judge (supported v : FormatVersion) :
    (judge supported v).compatible = decide (v.major = supported.major) := by
  unfold judge
  split
  · simp_all
  · split <;> simp_all

/-- Within the supported major version a document is newer when its minor version is. -/
theorem isNewer_judge (supported v : FormatVersion) :
    (judge supported v).isNewer =
      (decide (v.major = supported.major) && decide (supported.minor < v.minor)) := by
  unfold judge
  split
  · simp_all
  · split <;> simp_all

end FormatVersion

end DataShapes
