import DataShapes.Catalog.Basic
import DataShapes.Document.MetaSchema
import DataShapes.FormatVersion
import DataShapes.Schema.Keywords

/-!
# Definitions documents

A definitions document holds the schemas of a catalog under their titles, the version of the format
and some metadata.  It is in order when every definition is a valid schema and every reference leads
to a definition.

Main definitions:
* `Document.definitions`, `Document.build`: the definitions of a catalog, and its document;
* `Document.references`: the references in a definition;
* `Document.check`: the document is in order.
-/

namespace DataShapes

namespace Document

/-- The definitions of shapes behind those there are.  No two shapes may share a title. -/
def definitionsFrom (defined : Table Value) : List Shape → Except Problem (Table Value)
  | [] => .ok defined
  | s :: shapes =>
    if defined.contains s.title then .error (.sharedTitle s.title)
    else definitionsFrom (defined ++ [(s.title, s.schema.toValue)]) shapes

/-- The written schemas of a catalog under their titles. -/
def definitions (c : Catalog) : Except Problem (Table Value) := definitionsFrom [] c.definitions

/-- The document of some definitions, made at the given time. -/
def ofDefinitions (time : String) (defined : Table Value) : Value :=
  Value.record
    [("format_version", .str FormatVersion.current.text),
     ("metadata",
      Value.record [("generated_at", .str time), ("shape_count", .int (defined.length : Nat))]),
     ("definitions", Value.record defined)]

/-- The document of a catalog, made at the given time. -/
def build (time : String) (c : Catalog) : Except Problem Value := do
  return ofDefinitions time (← definitions c)

/-! ### References -/

mutual

/-- The references in a written schema, in the order in which they are checked: its own, then those
    of items, of other values, of union members and of properties. -/
def references : Value → List String
  | .dict entries =>
    ownReference entries ++ referencesUnder "items" entries
      ++ referencesUnder "additionalProperties" entries ++ referencesOfMembers entries
      ++ referencesOfProperties entries
  | _ => []

/-- The reference that a schema is, if it is one. -/
def ownReference : List (Value × Value) → List String
  | [] => []
  | (.str "$ref", .str path) :: _ => [path]
  | _ :: entries => ownReference entries

/-- The references of the part under a keyword. -/
def referencesUnder (keyword : String) : List (Value × Value) → List String
  | [] => []
  | (key, v) :: entries =>
    if key == .str keyword then references v else referencesUnder keyword entries

/-- The references of union members. -/
def referencesOfMembers : List (Value × Value) → List String
  | [] => []
  | (key, v) :: entries =>
    if key == .str "oneOf" then
      match v with
      | .list members | .tuple members => referencesOfAll members
      | _ => []
    else referencesOfMembers entries

/-- The references of properties. -/
def referencesOfProperties : List (Value × Value) → List String
  | [] => []
  | (key, v) :: entries =>
    if key == .str "properties" then
      match v with
      | .dict properties => referencesOfValues properties
      | _ => []
    else referencesOfProperties entries

/-- The references in a list of written schemas. -/
def referencesOfAll : List Value → List String
  | [] => []
  | v :: vs => references v ++ referencesOfAll vs

/-- The references in the values of a dictionary. -/
def referencesOfValues : List (Value × Value) → List String
  | [] => []
  | (_, v) :: entries => references v ++ referencesOfValues entries

end

/-! ### The check -/

/-- The title that a reference leads to, if it has the form of a reference to a definition. -/
def referredTitle? (path : String) : Option String :=
  let start := Schema.definitionsPath.toList
  if start.isPrefixOf path.toList then some (String.ofList (path.toList.drop start.length)) else none

/-- The reference leads to a definition. -/
def isDefined (entries : List (Value × Value)) (path : String) : Bool :=
  (referredTitle? path).any fun title => (Value.lookup entries (.str title)).isSome

/-- The definition is a valid schema and its references lead to definitions. -/
def checkDefinition (entries : List (Value × Value)) (title : String) (schema : Value) :
    Except Problem Unit :=
  if !MetaSchema.isSchema schema then .error (.invalidDefinition title)
  else
    match (references schema).find? (!isDefined entries ·) with
    | some path => .error (.danglingReference title path)
    | none => .ok ()

/-- The first definition that is not in order is the problem. -/
def check (document : Value) : Except Problem Unit :=
  match document.get? "definitions" with
  | some (.dict entries) => entries.forM fun e => checkDefinition entries e.1.text e.2
  | _ => .error .noDefinitions

/-- The title of a reference to a definition is the one that the reference was made for. -/
@[simp] theorem referredTitle?_append (title : String) :
    referredTitle? (Schema.definitionsPath ++ title) = some title := by
  unfold referredTitle?
  simp only [String.toList_append, List.drop_left', String.ofList_toList]
  rw [if_pos (List.isPrefixOf_iff_prefix.2 (List.prefix_append _ _))]

end Document

end DataShapes
