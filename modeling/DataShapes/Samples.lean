import DataShapes.Catalog.History
import DataShapes.Export.Modules

/-!
# Sample shapes

A small catalog that shows how shapes are declared: identifiers that may be null, animals, and a record of an
owner that refers to both.

Main definitions:
* `Samples.pets`: the catalog;
* `Samples.modules`: the modules that the program of this library can export.
-/

namespace DataShapes

namespace Samples

/-- A property of a type in short form. -/
def property (name : String) (type : Value) (options : List (String × Value)) : Declaration :=
  .value (.tuple [.str name, type, Value.record options])

/-- Identifiers, which may be null. -/
def identifiers : TypeDeclaration :=
  { name := .str "ID", type := .str "string",
    options := [(.str "nullable", .bool true), (.str "pattern", .str "[a-f0-9]+")] }

/-- Animals. -/
def animals : ObjectDeclaration :=
  { name := .str "Pet",
    properties :=
      [property "id" (.descriptor (.named "ID")) [],
       property "name" (.str "string") [("description", .str "The name it listens to")],
       property "age" (.str "integer") [("required", .bool false), ("default", .int 0)]] }

/-- Owners of animals. -/
def owners : ObjectDeclaration :=
  { name := .str "Owner",
    properties :=
      [property "name" (.str "string") [],
       property "pets" (.tuple [.str "array", .descriptor (.named "Pet")]) []],
    options := [(.str "description", .str "Somebody with pets")] }

/-- The catalog of these shapes. -/
def pets : Catalog :=
  ({ id := "pets" } : Catalog).after [.type identifiers, .object animals, .object owners]

/-- The modules that the program of this library can export. -/
def modules : Modules := [⟨"pets", [("catalog", .catalog pets)]⟩]

end Samples

end DataShapes
