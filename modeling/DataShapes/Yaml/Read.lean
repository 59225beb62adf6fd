import DataShapes.Yaml.Node.OfTokens
import DataShapes.Yaml.Node.ToValue
import DataShapes.Yaml.Token.OfText

/-!
# Reading YAML

A text is cut into tokens, the tokens make up the nodes of at most one document, and its node has a value.

Main definitions:
* `Yaml.read`: the value of a text.
-/

namespace DataShapes

namespace Yaml

/-- The value of a text; nothing when it is not proper YAML or has values of unknown kinds. -/
def read (text : String) : Option Value := do
  let ts ← tokens text.toList
  let n ← Node.ofTokens? ts
  n.toValue?

end Yaml

end DataShapes
