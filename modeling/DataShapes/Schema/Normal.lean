import DataShapes.Schema.Equality

/-!
# Normal form of schemas

Type signatures are read off schemas in normal form.  There null is a member of a union instead of
a flag of a node, no union is a member of a union, equal members occur once, and "no value" is at
most once a member, at the end.  The contents of objects are left as they are.

Main definitions:
* `Schema.normalize`: the normal form;
* `Schema.isFlat`: no union inside the union, and "no value" at most once;
* `Schema.alternatives`: what a schema admits, as one flat list.
-/

namespace DataShapes

namespace Schema

/-- The members of a union that is already flat, and any other schema alone. -/
def flatten (s : Schema) : List Schema := if s.isUnion then s.members else [s]

/-- The union of a node and "no value". -/
def orAbsent (s : Schema) : Schema := unionOf [s, absent]

/-- The node with its admission of null turned into a union member. -/
def splitNull (nullable : Bool) (s : Schema) : Schema := if nullable then orAbsent s else s

/-- The members of a union in normal form: first occurrences, and "no value" once at the end when
    it is admitted. -/
def tidyMembers (nullable : Bool) (flat : List Schema) : List Schema :=
  distinct (flat.filter (!·.isAbsent))
    ++ (if nullable || flat.any (·.isAbsent) then [absent] else [])

mutual

/-- The normal form of a schema. -/
def normalize : Schema → Schema
  | .reference path => .reference path
  | .node f properties items additional members =>
    match f.kind with
    | .null => .node f properties items additional members
    | .union =>
      .node { f with nullable := false } properties items additional
        (some (tidyMembers f.nullable (flattenMembers members)))
    -- Of an array only the items are brought in normal form; properties are when their types are read.
    | .array =>
      splitNull f.nullable
        (.node { f with nullable := false } properties (normalizePart items) additional members)
    | _ => splitNull f.nullable (.node { f with nullable := false } properties items additional members)

/-- The normal form of a part. -/
def normalizePart : Option Schema → Option Schema
  | none => none
  | some s => some (normalize s)

/-- The flat list of normal forms of members. -/
def flattenMembers : Option (List Schema) → List Schema
  | none => []
  | some ss => flattenAll ss

/-- The flat list of normal forms. -/
def flattenAll : List Schema → List Schema
  | [] => []
  | s :: ss => flatten (normalize s) ++ flattenAll ss

end

/-- No member of a union is a union, and "no value" is a member at most once. -/
def isFlat (s : Schema) : Bool :=
  !s.isUnion || (!s.members.any (·.isUnion) && (s.members.filter (·.isAbsent)).length ≤ 1)

/-! ### Alternatives -/

mutual

/-- What a schema admits, as one flat list: the alternatives of the members of a union, any other
    schema alone, and "no value" behind what is nullable. -/
def alternatives : Schema → List Schema
  | .reference path => [.reference path]
  | .node f properties items additional members =>
    match f.kind with
    | .null => [.node f properties items additional members]
    -- The null of a nullable union stands behind the members, as that of any other schema does.
    | .union => alternativesOfMembers members ++ (if f.nullable then [absent] else [])
    | .array =>
      .node { f with nullable := false } properties (normalizePart items) additional members
        :: (if f.nullable then [absent] else [])
    | _ =>
      .node { f with nullable := false } properties items additional members
        :: (if f.nullable then [absent] else [])

/-- The alternatives of the members, one after the other. -/
def alternativesOfMembers : Option (List Schema) → List Schema
  | none => []
  | some ss => alternativesOfAll ss

/-- The alternatives of all schemas of a list. -/
def alternativesOfAll : List Schema → List Schema
  | [] => []
  | s :: ss => alternatives s ++ alternativesOfAll ss

end

end Schema

end DataShapes
