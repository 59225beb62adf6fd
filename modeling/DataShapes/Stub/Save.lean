import DataShapes.Files
import DataShapes.Stub.Render

/-!
# Saving stubs

The stub module of a catalog is rendered first and written afterwards, so a problem of the rendering changes
no file.  The file is emptied when it is opened, so a problem of the writing leaves the beginning of the module in it.
-/

namespace DataShapes

/-- Write the stub module of a catalog to a file, unless the writing is disrupted. -/
def Catalog.saveStubs (c : Catalog) (d : Option Disruption) (path : String) : Filing Unit := do
  let text ← c.stubModule
  Filing.makeDirectoryFor path
  Filing.writeFile d path (.piece text)
  Noted.note .info .stubs ("Saved type stubs: " ++ path)

end DataShapes
