import DataShapes.Notice
import DataShapes.Table

/-!
# Reference registries

Every definition has a registry of its own.  While a shape is assembled, each reference that is
emitted is recorded under its path with the declared name of the shape that it means, however
deeply it is nested; a second table keeps the declared names of embedded shapes under their titles.
When the shape is finished the registry is sealed, and nothing is written any more.

Main definitions:
* `Registry.record`, `Registry.recordInline`: write one entry;
* `Registry.merge`: write all entries of another registry;
* `Registry.resolve`, `Registry.inlinedName`: the two look-ups.
-/

namespace DataShapes

/-- The references of one definition and the embedded shapes. -/
structure Registry where
  /-- The shape that the registry belongs to. -/
  owner : Option String := none
  /-- Declared names under reference paths. -/
  entries : Table String := []
  /-- Declared names of embedded shapes under their titles. -/
  inlined : Table String := []
  isSealed : Bool := false
deriving DecidableEq, Repr, Inhabited

namespace Registry

/-- The literal of a registry. -/
def literal (r : Registry) : String :=
  Literal.object "ReferenceRegistry"
    [("owner", Literal.optionalText r.owner),
     ("entries", Literal.dict (r.entries.map fun e => Quoted.quote e.1 ++ ": " ++ Quoted.quote e.2))]

/-- Refuse to write to a sealed registry. -/
def checkOpen (r : Registry) (key : String) : Noted Unit :=
  if r.isSealed then Noted.fail (.sealedRegistry r.owner key) else pure ()

/-- Record a reference.  A path that is recorded again is overwritten, and a notice tells when it
    then means another shape. -/
def record (r : Registry) (path unit : String) : Noted Registry := do
  r.checkOpen path
  match r.entries.get? path with
  | some previous =>
    if previous ≠ unit then
      Noted.note .debug .registry
        ("Reference '" ++ path ++ "' in '" ++ r.owner.getD Literal.none ++ "' rebound from '"
          ++ previous ++ "' to '" ++ unit ++ "'")
  | none => pure ()
  return { r with entries := r.entries.put path unit }

/-- Record the declared name of a shape that is embedded under its title. -/
def recordInline (r : Registry) (title unit : String) : Noted Registry := do
  r.checkOpen title
  return { r with inlined := r.inlined.put title unit }

/-- Record entries one after the other. -/
def recordAll (r : Registry) : List (String × String) → Noted Registry
  | [] => pure r
  | e :: es => do recordAll (← r.record e.1 e.2) es

/-- Record embedded shapes one after the other. -/
def recordAllInline (r : Registry) : List (String × String) → Noted Registry
  | [] => pure r
  | e :: es => do recordAllInline (← r.recordInline e.1 e.2) es

/-- Record everything that another registry holds. -/
def merge (r other : Registry) : Noted Registry := do
  let r ← r.recordAll other.entries
  r.recordAllInline other.inlined

/-- Nothing is written from now on. -/
def close (r : Registry) : Registry := { r with isSealed := true }

/-- The declared name of the shape that a path means. -/
def resolve (r : Registry) (path : String) : Option String := r.entries.get? path

/-- The declared name of an embedded shape; the title itself when none is recorded. -/
def inlinedName (r : Registry) (title : String) : String := (r.inlined.get? title).getD title

/-! ### What one write does -/

/-- Recording in an open registry succeeds and writes one entry. -/
theorem result_record {r : Registry} (h : r.isSealed = false) (path unit : String) :
    (r.record path unit).result = .ok { r with entries := r.entries.put path unit } := by
  have hopen : (r.checkOpen path).result = .ok () := by simp [checkOpen, h]
  unfold record
  rw [Noted.result_bind, hopen]
  show (Noted.result _) = _
  split
  · split <;> simp [Except.bind]
  · simp

/-- Recording in a sealed registry is refused. -/
theorem result_record_sealed {r : Registry} (h : r.isSealed = true) (path unit : String) :
    (r.record path unit).result = .error (.sealedRegistry r.owner path) := by
  have hopen : (r.checkOpen path).result = .error (.sealedRegistry r.owner path) := by
    simp [checkOpen, h]
  unfold record
  rw [Noted.result_bind, hopen]
  rfl

end Registry

end DataShapes
