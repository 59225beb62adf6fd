import DataShapes.Number.Sixties
import DataShapes.Text.Hex
import DataShapes.Value.Equality
import DataShapes.Value.Literal
import DataShapes.Yaml.Moment
import DataShapes.Yaml.Node

/-!
# Values of nodes

The tag of a node says how its text or its parts are read.  A mapping may take over entries of others; its own
entries count more, and of several mappings the earlier ones do.

Main definitions:
* `Yaml.scalarValue`: the value of a text under a tag;
* `Yaml.Node.toValue?`: the value of a node.
-/

namespace DataShapes

namespace Yaml

/-! ### Scalars -/

/-- The value of digits in a base; nothing when there are none. -/
def digitsIn (base : Nat) (cs : List Char) : Option Nat :=
  if cs.isEmpty then none
  else
    cs.foldlM (fun n c => do
      let d ← Text.hexValue? c
      if d < base then some (n * base + d) else none) 0

/-- The value of an integer without its sign and without underscores. -/
def magnitude? : List Char → Option Nat
  | ['0'] => some 0
  | '0' :: 'b' :: cs => digitsIn 2 cs
  | '0' :: 'x' :: cs => digitsIn 16 cs
  | '0' :: cs => digitsIn 8 cs
  | cs => ((Number.groups cs).mapM (digitsIn 10)).map Number.sixties

/-- The text without underscores. -/
def withoutMarks (text : String) : List Char := text.toList.filter (· != '_')

/-- The value of an integer. -/
def int? (text : String) : Option Int := do
  let (negative, cs) := Number.spanSign (withoutMarks text)
  let n ← magnitude? cs
  return if negative then -n else n

/-- The number that a decimal text gives; nothing when the text is no decimal. -/
def decimal? (cs : List Char) : Option Double :=
  match Number.readDecimal cs with
  | (x, []) =>
    if (cs.takeWhile fun c => c.isDigit || c == '.').any Char.isDigit && cs.getLast?.any (· != 'e') then
      some (Double.ofDecimal false x.digits x.exponent)
    else none
  | _ => none

/-- The magnitude of a floating-point number in lower case. -/
def floatMagnitude? (cs : List Char) : Option Double :=
  if cs = ".inf".toList then some (Double.infinity false)
  else ((Number.groups cs).mapM decimal?).map fun
    | [d] => d
    | ds => Number.floatSixties ds

/-- The value of a floating-point number. -/
def float? (text : String) : Option Double :=
  let (negative, cs) := Number.spanSign ((withoutMarks text).map Char.toLower)
  if cs = ".nan".toList then some (Double.nan 0)
  else (floatMagnitude? cs).map fun d => if negative then d.negate else d

/-- The value of a truth value by its word in lower case. -/
def bool? (text : String) : Option Bool :=
  let word := String.ofList (text.toList.map Char.toLower)
  if trueWords.contains word then some true
  else if falseWords.contains word then some false
  else none

/-- The value of a text under a tag; nothing when the text does not fit. -/
def scalarValue (tag : Tag) (text : String) : Option Value :=
  match tag with
  | .null => some .null
  | .bool => (bool? text).map .bool
  | .int => (int? text).map .int
  | .float => (float? text).map .float
  | .timestamp => (Moment.ofText? text).map Moment.toValue
  | .str => some (.str text)
  | _ => none

/-! ### Collections -/

/-- The value can be a key. -/
def isKey : Value → Bool
  | .list _ | .dict _ => false
  | .foreign kind _ => !(["list", "dict", "set"].contains kind)
  | _ => true

/-- A set of values. -/
def setOf (entries : List (Value × Value)) : Value :=
  let items := (Value.dictOf entries).map fun e => e.1.literal
  .foreign "set" (if items.isEmpty then "set()" else Literal.dict items)

/-- A collection that contains itself. -/
def aroundValue (isMapping : Bool) : Value :=
  if isMapping then .foreign "dict" "\x7b...\x7d" else .foreign "list" "[...]"

mutual

/-- The text of a scalar.  A mapping stands for the text of its default value. -/
def Node.text? : Node → Option String
  | .scalar _ text => some text
  | .mapping _ es => Node.defaultText? es
  | _ => none

/-- The text of the default value among the entries of a mapping. -/
def Node.defaultText? : List (Node × Node) → Option String
  | [] => none
  | (k, v) :: es => if k.tag? = some .value then v.text? else Node.defaultText? es

end

mutual

/-- The value of a node. -/
def Node.toValue? : Node → Option Value
  | .scalar tag text => scalarValue tag text
  | .sequence tag ns =>
    if tag = .seq then (Node.toValues? ns).map .list
    else if tag = .pairs || tag = .orderedMap then (Node.pairs? ns).map .list
    else none
  | .mapping tag es =>
    if tag = .map then (Node.entries? es).map fun x => .dict (Value.dictOf (x.1 ++ x.2))
    else if tag = .set then (Node.entries? es).map fun x => setOf (x.1 ++ x.2)
    else (Node.defaultText? es).bind (scalarValue tag)
  | .around isMapping => some (aroundValue isMapping)

/-- The values of nodes. -/
def Node.toValues? : List Node → Option (List Value)
  | [] => some []
  | n :: ns => do return (← n.toValue?) :: (← Node.toValues? ns)

/-- The values of mappings with one entry each. -/
def Node.pairs? : List Node → Option (List Value)
  | [] => some []
  | .mapping _ [(k, v)] :: ns => do
    return .tuple [← k.toValue?, ← v.toValue?] :: (← Node.pairs? ns)
  | _ :: _ => none

/-- The entries of a mapping: those that it takes over, and its own. -/
def Node.entries? : List (Node × Node) → Option (List (Value × Value) × List (Value × Value))
  | [] => some ([], [])
  | (k, v) :: es => do
    let (taken, own) ← Node.entries? es
    if k.tag? = some .merge then return ((← v.source?) ++ taken, own)
    let key ← if k.tag? = some .value then k.text?.map .str else k.toValue?
    if isKey key then return (taken, (key, ← v.toValue?) :: own) else none

/-- The entries that a mapping or a sequence of mappings gives to another one. -/
def Node.source? : Node → Option (List (Value × Value))
  | .mapping _ es => (Node.entries? es).map fun x => x.1 ++ x.2
  | .sequence _ ns => Node.sources? ns
  | _ => none

/-- The entries that mappings give to another one; those of the first come last and so win. -/
def Node.sources? : List Node → Option (List (Value × Value))
  | [] => some []
  | .mapping _ es :: ns => do
    let (taken, own) ← Node.entries? es
    return (← Node.sources? ns) ++ (taken ++ own)
  | _ :: _ => none

end

end Yaml

end DataShapes
