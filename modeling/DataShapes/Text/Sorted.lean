/-!
# Texts in order

Lists of names in messages are in ascending order of code points.
-/

namespace DataShapes

namespace Text

/-- Put a text behind those of a sorted list that do not exceed it. -/
def insertSorted (s : String) : List String → List String
  | [] => [s]
  | t :: ts => if s < t then s :: t :: ts else t :: insertSorted s ts

/-- The texts in ascending order. -/
def sorted (texts : List String) : List String := texts.foldl (fun ts t => insertSorted t ts) []

end Text

end DataShapes
