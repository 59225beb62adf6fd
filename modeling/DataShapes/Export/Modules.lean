import DataShapes.Catalog.Basic

/-!
# Modules of shapes

Catalogs are found by name: a module holds values under names, and some of them are catalogs.  A dotted
name of a module that is not there is looked up from its first part on, so the first part that is missing is
the one that is reported.

Main definitions:
* `Member`, `ShapeModule`: what modules hold;
* `Modules.find`: the module with a name;
* `ShapeModule.catalog`, `Modules.findCatalog`: the catalog that is meant.
-/

namespace DataShapes

/-- What stands under a name in a module. -/
inductive Member where
  | catalog (c : Catalog)
  | value (v : Value)

/-- The catalog, if the member is one. -/
def Member.catalog? : Member → Option Catalog
  | .catalog c => some c
  | .value _ => none

/-- A module: values under names, in order. -/
structure ShapeModule where
  name : String
  members : Table Member

namespace ShapeModule

/-- The catalog under a name, if there is one. -/
def catalogNamed (m : ShapeModule) (member : String) : Option Catalog :=
  (m.members.get? member).bind Member.catalog?

/-- All catalogs of a module; one that stands under two names counts twice. -/
def catalogs (m : ShapeModule) : List Catalog := m.members.values.filterMap Member.catalog?

/-- The name of the catalog that is meant when no name is given. -/
def standardMember : String := "catalog"

/-- The catalog that is meant.  Without a name, or with an empty one, it is the one with the
    standard name; and when nothing is said at all, the only one otherwise. -/
def catalog (m : ShapeModule) (member : Option String) : Except Problem Catalog :=
  match m.catalogNamed ((member.filter (!·.isEmpty)).getD standardMember) with
  | some c => .ok c
  | none =>
    match member with
    | some name => .error (.notACatalog m.name name)
    | none =>
      match m.catalogs with
      | [c] => .ok c
      | cs => .error (.catalogCount m.name cs.length)

end ShapeModule

/-- Modules under their names. -/
abbrev Modules : Type := List ShapeModule

namespace Modules

/-- The module with a name, if there is one. -/
def get? (ms : Modules) (name : String) : Option ShapeModule := ms.find? (·.name == name)

/-- What stands in front of the last point of a name, last character first. -/
def parentOf : List Char → Option (List Char)
  | [] => none
  | c :: cs => if c = '.' then some cs else parentOf cs

/-- A parent has a shorter name, so the way up to the root ends. -/
theorem length_parentOf {cs parent : List Char} (h : parentOf cs = some parent) :
    parent.length < cs.length := by
  induction cs with
  | nil => simp [parentOf] at h
  | cons c cs ih =>
    unfold parentOf at h
    split at h
    · obtain rfl := Option.some.inj h
      simp
    · have := ih h
      simp
      omega

/-- Why there is no module with the name, given by its characters, last one first. -/
def whyMissing (ms : Modules) (reversed : List Char) : Problem :=
  let name := String.ofList reversed.reverse
  match _h : parentOf reversed with
  | none => .moduleNotFound name
  | some [] => .moduleNotFound name
  | some (c :: cs) =>
    let parent := String.ofList (c :: cs).reverse
    if (ms.get? parent).isSome then .notAPackage name parent
    else ms.whyMissing (c :: cs)
termination_by reversed.length
decreasing_by exact length_parentOf ‹_›

/-- The module with a name. -/
def find (ms : Modules) (name : String) : Except Problem ShapeModule :=
  if name.isEmpty then .error .emptyModuleName
  else if name.toList.head? = some '.' then .error (.relativeModule name)
  else
    match ms.get? name with
    | some m => .ok m
    | none => .error (ms.whyMissing name.toList.reverse)

/-- The catalog that is meant by the names of a module and of a member. -/
def findCatalog (ms : Modules) (name : String) (member : Option String) : Except Problem Catalog := do
  (← ms.find name).catalog member

end Modules

end DataShapes
