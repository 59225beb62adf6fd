import DataShapes.Json.Quote
import DataShapes.Stub.Basic

/-!
# The stub module

The stubs of a catalog are rendered as one module: a fixed header, and a block for each shape.

Main definitions:
* `StubShape.lines`: the lines of one block;
* `StubModule.render`: the text of the module.
-/

namespace DataShapes

namespace StubShape

/-- The type hint of a key of a typed dictionary. -/
def keyHint (f : StubField) : String :=
  if f.required then f.hint else "NotRequired[" ++ f.hint ++ "]"

/-- The line for a type alias. -/
def aliasLines (s : StubShape) : List String := [s.name ++ ": TypeAlias = \"" ++ s.hint ++ "\""]

/-- The line that tells about other keys; an empty hint counts as none. -/
def extraLines (indent : String) (s : StubShape) : List String :=
  match s.extra with
  | some e => if e.isEmpty then [] else [indent ++ "# additional keys: dict[str, " ++ e ++ "]"]
  | none => []

/-- The lines of a typed dictionary in the functional form. -/
def functionalLines (s : StubShape) : List String :=
  [s.name ++ " = TypedDict(", "    \"" ++ s.name ++ "\",", "    \x7b"]
    ++ s.fields.map (fun f => "        " ++ Json.quote f.name ++ ": " ++ keyHint f ++ ",")
    ++ ["    \x7d,", ")"] ++ s.extraLines ""

/-- The description at the start of a class. -/
def descriptionLines (s : StubShape) : List String :=
  match s.description with
  | some v => if v.isTruthy then ["    \"\"\"" ++ v.text ++ "\"\"\"", ""] else []
  | none => []

/-- The line of a class without fields. -/
def emptyLines (s : StubShape) : List String := if s.fields.isEmpty then ["    pass"] else []

/-- The line for an attribute of a data class. -/
def attributeLine (f : StubField) : String :=
  "    " ++ f.name ++ ": " ++ f.hint ++ (f.default.map (" = " ++ ·)).getD ""

/-- The lines of a data class. -/
def dataclassLines (s : StubShape) : List String :=
  ["@dataclass(kw_only=True)", "class " ++ s.name ++ ":"] ++ s.descriptionLines
    ++ s.fields.map attributeLine ++ s.emptyLines

/-- The lines of a typed dictionary in the form of a class. -/
def typedDictLines (s : StubShape) : List String :=
  ["class " ++ s.name ++ "(TypedDict):"] ++ s.descriptionLines ++ s.extraLines "    "
    ++ s.fields.map (fun f => "    " ++ f.name ++ ": " ++ keyHint f) ++ s.emptyLines

/-- The lines of the block of a shape. -/
def lines (s : StubShape) : List String :=
  match s.kind with
  | .alias => s.aliasLines
  | kind =>
    if s.functional then s.functionalLines
    else if kind = .dataclass then s.dataclassLines else s.typedDictLines

end StubShape

namespace StubModule

/-- The lines in front of the blocks. -/
def header : List String :=
  ["\"\"\"Types generated from shape definitions. Do not edit by hand.\"\"\"", "",
   "from __future__ import annotations", "",
   "from dataclasses import dataclass, field",
   "from typing import Any, NotRequired, TypeAlias, TypedDict"]

/-- The lines of the module. -/
def lines (shapes : List StubShape) : List String :=
  header ++ shapes.flatMap fun s => ["", ""] ++ s.lines

/-- The text of the module. -/
def render (shapes : List StubShape) : String :=
  String.join ((lines shapes).map (· ++ "\n"))

end StubModule

/-- The text of the stub module of a catalog. -/
def Catalog.stubModule (c : Catalog) : Noted String := do
  let shapes ← c.stubs
  return StubModule.render shapes

end DataShapes
