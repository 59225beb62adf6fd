import DataShapes.Document.Save
import DataShapes.FormatVersion
import DataShapes.Json.Read
import DataShapes.Text.Lines
import DataShapes.Value.Equality
import DataShapes.Yaml.Read

/-!
# Loading documents

A document is read as YAML when the file's name has the suffix of a YAML file, and as JSON otherwise.  It
must be a mapping, and of a format version that is supported.

Main definitions:
* `Document.formatOfFile`: the format that a file is read in;
* `Document.parse`: the value of a text in a format;
* `Document.accept`: what is asked of a document that has been read;
* `Document.load`: read a document from a file.
-/

namespace DataShapes

namespace Document

/-- The format that a file is read in. -/
def formatOfFile (path : String) : Format :=
  if yamlEndings.contains (Path.suffix path) then .yaml else .json

/-- The value of a text in a format, when it is proper. -/
def parse (format : Format) (text : String) : Option Value :=
  let text := String.ofList (Text.unifyBreaks text.toList)
  match format with
  | .json => Json.read text
  | .yaml => Yaml.read text

/-- A document must be a mapping of a version that is supported.  A newer minor version is pointed out. -/
def accept (path : String) (document : Value) : Noted Value := do
  match document with
  | .dict _ =>
    let verdict := FormatVersion.current.check ((document.get? "format_version").getD .null)
    if !verdict.compatible then Noted.fail (.unsupportedVersion path verdict.message)
    else
      if verdict.isNewer then
        Noted.note .warning .document (path ++ ": " ++ verdict.message)
      return document
  | _ => Noted.fail (.documentNotMapping path)

/-- The value of a document's text.  A text that is not proper leaves a notice. -/
def parseNoted (path text : String) : Noted Value :=
  match parse (formatOfFile path) text with
  | some v => pure v
  | none =>
    ⟨.error (.unreadableDocument path),
     [⟨.error, .document, "Failed to load definitions document: " ++ path⟩]⟩

/-- Read a document from a file. -/
def load (path : String) : Filing Value := do
  let text ← Filing.readFile (Path.tidy path)
  let document ← parseNoted path text
  accept path document

end Document

end DataShapes
