import DataShapes.Files
import DataShapes.Yaml.Write

/-!
# Saving documents

A document is written as JSON, or as YAML when the path ends like the path of a YAML file or the format is
given.  Missing directories are made.  The file is opened before the document is written out, so a value
that cannot be written leaves the part in front of it behind.

Main definitions:
* `Document.Format`, `Document.formatFor`: the two formats, and the one chosen for a path;
* `Document.content`: the text of a document;
* `Document.saveUnder`, `Document.save`: write a document to a file, with and without a disruption.
-/

namespace DataShapes

namespace Document

/-- A file format. -/
inductive Format where
  | json
  | yaml
deriving DecidableEq, Repr

/-- The endings of the names of YAML files. -/
def yamlEndings : List String := [".yaml", ".yml"]

/-- The path ends like the path of a YAML file. -/
def endsAsYaml (path : String) : Bool :=
  yamlEndings.any fun e => e.toList.isSuffixOf path.toList

/-- The format for a path.  A format that is given counts, unless it is empty; every format but YAML means
    JSON. -/
def formatFor (path : String) (format : Option String) : Format :=
  match format.filter (!·.isEmpty) with
  | some f => if f = "yaml" then .yaml else .json
  | none => if endsAsYaml path then .yaml else .json

/-- The text of a document.  YAML is written only when all of the document can be. -/
def content (format : Format) (document : Value) : Output :=
  match format with
  | .json => Json.write Json.indented 0 document
  | .yaml =>
    match Json.normalForm document with
    | .ok v => .piece (Yaml.render v)
    | .error p => .stop p

/-- Write a document to a file, unless the writing is disrupted. -/
def saveUnder (d : Option Disruption) (path : String) (document : Value) (format : Option String) : Filing Unit := do
  Filing.makeDirectoryFor path
  let written := Filing.writeFile d path (content (formatFor path format) document)
  written.onProblem fun p =>
    ⟨.error, .document, "Failed to save definitions document: " ++ path ++ ": " ++ p.message⟩
  Noted.note .info .document ("Saved definitions document: " ++ path)

/-- Write a document to a file. -/
def save (path : String) (document : Value) (format : Option String) : Filing Unit :=
  saveUnder none path document format

end Document

end DataShapes
