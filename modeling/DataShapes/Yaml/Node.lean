import DataShapes.Yaml.Resolve

/-!
# Nodes of YAML text

A document is a tree of nodes.  A node that is named by an anchor can stand in several places; where it
stands inside itself the tree only says so.

Main definitions:
* `Yaml.Node`: scalars, sequences and mappings with their tags;
* `Yaml.Node.empty`: what stands where nothing is written;
* `Yaml.scalarTag`, `Yaml.collectionTag`: the tag of a node by what is written in front of it.
-/

namespace DataShapes

namespace Yaml

/-- A node of a document. -/
inductive Node where
  | scalar (tag : Tag) (text : String)
  | sequence (tag : Tag) (items : List Node)
  | mapping (tag : Tag) (entries : List (Node × Node))
  /-- A collection around this place. -/
  | around (isMapping : Bool)
deriving Repr

/-- What stands where nothing is written. -/
def Node.empty : Node := .scalar .null ""

/-- The tag of a node. -/
def Node.tag? : Node → Option Tag
  | .scalar t _ | .sequence t _ | .mapping t _ => some t
  | .around _ => none

/-- The tag of a scalar: its text decides when nothing is written in front of it, unless it is quoted; and
    when an exclamation mark alone is. -/
def scalarTag (isPlain : Bool) (text : String) : Option String → Tag
  | none => if isPlain then tagOf text else .str
  | some uri => if uri = "!" then tagOf text else .ofUri uri

/-- The tag of a collection. -/
def collectionTag (standard : Tag) (uri : Option String) : Tag :=
  match uri with
  | none => standard
  | some uri => if uri = "!" then standard else .ofUri uri

end Yaml

end DataShapes
