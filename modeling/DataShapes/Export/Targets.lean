import DataShapes.Document.Build
import DataShapes.Document.Save
import DataShapes.Stub.Save

/-!
# Exporting a catalog

The document of a catalog is built and checked before anything is written; then the document and the stubs go
to the files that are asked for.

Main definitions:
* `Targets`: the files that are asked for;
* `ExportDisruptions`: what ends the writing of each of them too early;
* `Catalog.exportUnder`, `Catalog.exportTo`: check a catalog and write the files, with and without disruptions.
-/

namespace DataShapes

/-- The files that an export writes.  An empty path asks for nothing. -/
structure Targets where
  output : Option String := none
  stubs : Option String := none
  format : Option String := none
deriving DecidableEq, Repr

namespace Targets

/-- A path that asks for a file. -/
def asked (path : Option String) : Option String := path.filter (!·.isEmpty)

/-- No file is asked for. -/
def isIdle (t : Targets) : Bool := (asked t.output).isNone && (asked t.stubs).isNone

end Targets

/-- What ends the writing of the two files too early, if anything does. -/
structure ExportDisruptions where
  document : Option Disruption := none
  stubs : Option Disruption := none

/-- Write the files that are asked for. -/
def Catalog.writeTargets (c : Catalog) (ds : ExportDisruptions) (document : Value) (t : Targets) : Filing Unit := do
  if let some path := Targets.asked t.output then Document.saveUnder ds.document path document t.format
  if let some path := Targets.asked t.stubs then c.saveStubs ds.stubs path

/-- Check the document of a catalog and write the files that are asked for, unless the writing is disrupted.  The
    result is the document. -/
def Catalog.exportUnder (ds : ExportDisruptions) (time : String) (t : Targets) (c : Catalog) : Filing Value := do
  let defined ← Document.definitions c
  let document := Document.ofDefinitions time defined
  Document.check document
  Noted.note .info .exporter ("Checked " ++ toString defined.length ++ " definitions")
  c.writeTargets ds document t
  return document

/-- Check the document of a catalog and write the files that are asked for. -/
def Catalog.exportTo (time : String) (t : Targets) (c : Catalog) : Filing Value := c.exportUnder {} time t

end DataShapes
