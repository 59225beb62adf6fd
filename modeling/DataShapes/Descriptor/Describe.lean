import DataShapes.Value.Literal

/-!
# Descriptions of type descriptors

Messages name the type of a property in words: `array of string`, `number | Person`.
-/

namespace DataShapes

mutual

/-- The short form of a descriptor in messages. -/
def Descriptor.describe : Descriptor → String
  | .scalar kind => kind.name
  | .array item => "array of " ++ Descriptor.describe item
  | .map value => "map of " ++ Descriptor.describe value
  | .union members => " | ".intercalate (Descriptor.describeAll members)
  | .named name => name
  | .raw v => v.literal

/-- The short forms of a list of descriptors. -/
def Descriptor.describeAll : List Descriptor → List String
  | [] => []
  | d :: ds => Descriptor.describe d :: Descriptor.describeAll ds

end

end DataShapes
