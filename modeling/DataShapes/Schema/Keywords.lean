import DataShapes.Schema.Basic

/-!
# The written form of a schema

A schema is written as a dictionary of keywords, in a fixed order.  Keywords that are not given
are left out, save `nullable`, and an object always has `properties`.

Main definitions:
* `Schema.toValue`: the dictionary of keywords.
-/

namespace DataShapes

namespace Facets

/-- The keywords in front of the parts. -/
def head (f : Facets) : List (String × Value) :=
  match f.title with
  | some title => [("title", .str title)]
  | none => []

/-- The required names of an object, when there are any. -/
def requiredKeyword (f : Facets) : List (String × Value) :=
  match f.required with
  | some (name :: names) => [("required", .list ((name :: names).map .str))]
  | _ => []

/-- The representation of an object. -/
def representationKeyword (f : Facets) : List (String × Value) :=
  match f.representation with
  | some r => [("x-representation", .str r.name)]
  | none => []

/-- A keyword that is left out when it is not given. -/
def keyword (name : String) : Option Value → List (String × Value)
  | some v => [(name, v)]
  | none => []

/-- The keywords behind the parts. -/
def tail (f : Facets) : List (String × Value) :=
  keyword "default" f.default ++ keyword "enum" (f.enumeration.map .list)
    ++ keyword "pattern" f.pattern ++ keyword "format" f.format
    ++ keyword "description" f.description ++ keyword "example" f.sample

end Facets

mutual

/-- The written form of a schema. -/
def Schema.toValue : Schema → Value
  | .reference path => Value.record [("$ref", .str path)]
  | .node f properties items additional members =>
    -- The schema of null has no other keywords.
    if f.kind = .null then Value.record [("type", .str "null")]
    else
      Value.record
        (f.head
          ++ (if f.kind = .union then [("oneOf", .list (Schema.membersToValues members))]
              else [("type", .str f.kind.name)])
          ++ [("nullable", .bool f.nullable)]
          ++ (if f.kind = .object then
                [("properties", Value.record (Schema.propertiesToEntries properties))]
                  ++ f.requiredKeyword
                  ++ Facets.keyword "additionalProperties" (Schema.partToValue additional)
                  ++ f.representationKeyword
              else [])
          ++ Facets.keyword "items" (Schema.partToValue items)
          ++ f.tail)

/-- The written forms of properties; none when there is no table. -/
def Schema.propertiesToEntries : Option (List (String × Schema)) → List (String × Value)
  | none => []
  | some ps => Schema.propertyEntries ps

/-- The written forms of a list of properties. -/
def Schema.propertyEntries : List (String × Schema) → List (String × Value)
  | [] => []
  | (name, s) :: ps => (name, Schema.toValue s) :: Schema.propertyEntries ps

/-- The written form of a part. -/
def Schema.partToValue : Option Schema → Option Value
  | none => none
  | some s => some (Schema.toValue s)

/-- The written forms of union members; none when there are no members. -/
def Schema.membersToValues : Option (List Schema) → List Value
  | none => []
  | some ss => Schema.toValues ss

/-- The written forms of a list of schemas. -/
def Schema.toValues : List Schema → List Value
  | [] => []
  | s :: ss => Schema.toValue s :: Schema.toValues ss

end

namespace Schema

/-- Properties are written in their order, one by one. -/
theorem propertyEntries_eq (ps : List (String × Schema)) :
    propertyEntries ps = ps.map fun p => (p.1, p.2.toValue) := by
  induction ps with
  | nil => rfl
  | cons p ps ih =>
    obtain ⟨name, s⟩ := p
    simp [propertyEntries, ih]

/-- Lists of schemas are written in their order, one by one. -/
theorem toValues_eq (ss : List Schema) : toValues ss = ss.map toValue := by
  induction ss with
  | nil => rfl
  | cons s ss ih => simp [toValues, ih]

end Schema

end DataShapes
