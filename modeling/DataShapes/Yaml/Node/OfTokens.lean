import DataShapes.Table
import DataShapes.Number.Notation
import DataShapes.Yaml.Node
import DataShapes.Yaml.Token

/-!
# Nodes from tokens

The grammar of documents over tokens.  Every rule reads from the front of the tokens; a text holds at most
one document.

Main definitions:
* `Yaml.Parse`: the rules of the grammar;
* `Yaml.Parse.node`: a node in one of the places where nodes stand;
* `Yaml.Node.ofTokens?`: the node of a text with at most one document.
-/

namespace DataShapes

namespace Yaml

/-- What a rule of the grammar works on. -/
structure Cursor where
  /-- The tokens that are left. -/
  rest : List Token
  /-- What handles of tags stand for. -/
  handles : Table String := []
  /-- The nodes that are named by anchors. -/
  anchors : Table Node := []

/-- A rule of the grammar: it fails where the tokens do not follow it. -/
abbrev Parse (α : Type) : Type := StateT Cursor Option α

namespace Parse

/-- The tokens do not follow the grammar. -/
def fail {α : Type} : Parse α := fun _ => none

/-- Go on only when the condition holds. -/
def require (b : Bool) : Parse Unit := if b then pure () else fail

/-- The next token. -/
def peek : Parse (Option Token) := do return (← get).rest.head?

/-- The next token is of a kind. -/
def isNext (p : Token → Bool) : Parse Bool := do return (← peek).any p

/-- Go over one token. -/
def skip : Parse Unit := modify fun s => { s with rest := s.rest.tail }

/-- Go over a given token. -/
def skipOver (t : Token) : Parse Unit := do
  require (← isNext (· == t))
  skip

/-- Go over a given token if it is next; say whether it was. -/
def skipIf (t : Token) : Parse Bool := do
  if ← isNext (· == t) then
    skip
    return true
  return false

/-! ### Anchors and tags -/

/-- Name a node. -/
def remember (anchor : Option String) (n : Node) : Parse Unit :=
  match anchor with
  | some name => modify fun s => { s with anchors := s.anchors.put name n }
  | none => pure ()

/-- The node with a name. -/
def known (name : String) : Parse Node := do
  match (← get).anchors.get? name with
  | some n => return n
  | none => fail

/-- The whole identifier of a tag. -/
def tagUri : Option String → String → Parse String
  | none, suffix => pure suffix
  | some handle, suffix => do
    match (← get).handles.get? handle with
    | some start => return start ++ suffix
    | none => fail

/-- An anchor in front of a node, which names no other node. -/
def anchor : Parse (Option String) := do
  match ← peek with
  | some (.anchor name) =>
    skip
    require (!(← get).anchors.contains name)
    return some name
  | _ => return none

/-- A tag in front of a node. -/
def tag : Parse (Option String) := do
  match ← peek with
  | some (.tag handle suffix) =>
    skip
    return some (← tagUri handle suffix)
  | _ => return none

/-- An anchor and a tag in either order. -/
def properties : Parse (Option String × Option String) := do
  match ← anchor with
  | some name => return (some name, ← tag)
  | none =>
    let t ← tag
    return (← anchor, t)

/-! ### Nodes -/

/-- Where a node stands. -/
inductive Place where
  | block
  /-- In an entry of a block mapping, where a sequence need not be indented. -/
  | entry
  | flow
deriving DecidableEq, Repr

/-- A token that ends an item of a block sequence. -/
def endsItem (t : Token) : Bool := t == .blockEntry || t == .blockEnd

/-- A token that ends an item of a sequence that is not indented. -/
def endsLooseItem (t : Token) : Bool := endsItem t || t == .key || t == .value

/-- A token that ends a key or a value of a block mapping. -/
def endsEntry (t : Token) : Bool := t == .key || t == .value || t == .blockEnd

/-- A token that ends a key in a flow collection. -/
def endsFlowKey (close t : Token) : Bool := t == .value || t == .flowEntry || t == close

/-- A token that ends a value in a flow collection. -/
def endsFlowValue (close t : Token) : Bool := t == .flowEntry || t == close

mutual

/-- A node; `fuel` bounds how many rules are open at once. -/
def node : Nat → Place → Parse Node
  | 0, _ => fail
  | fuel + 1, place => do
    match ← peek with
    | some (.alias name) =>
      skip
      known name
    | _ =>
      let (name, uri) ← properties
      let sequence := fun (items : Parse (List Node)) => do
        remember name (.around false)
        return Node.sequence (collectionTag .seq uri) (← items)
      let mapping := fun (entries : Parse (List (Node × Node))) => do
        remember name (.around true)
        return Node.mapping (collectionTag .map uri) (← entries)
      let n ←
        match ← peek with
        | some (.scalar isPlain text) => do
          skip
          pure (Node.scalar (scalarTag isPlain text uri) text)
        | some .flowSequenceStart => do
          skip
          sequence (flowItems fuel true)
        | some .flowMappingStart => do
          skip
          mapping (flowEntries fuel true)
        | t =>
          if t = some .blockEntry && place = .entry then sequence (looseItems fuel)
          else if t = some .blockSequenceStart && place ≠ .flow then do
            skip
            sequence (blockItems fuel)
          else if t = some .blockMappingStart && place ≠ .flow then do
            skip
            mapping (blockEntries fuel)
          else do
            require (name.isSome || uri.isSome)
            pure (Node.scalar (scalarTag true "" uri) "")
      remember name n
      return n

/-- A node, or nothing when a token follows that ends it. -/
def nodeUnless : Nat → Place → (Token → Bool) → Parse Node
  | 0, _, _ => fail
  | fuel + 1, place, isEnd => do
    if ← isNext isEnd then return Node.empty
    node fuel place

/-- A value behind its sign, or nothing. -/
def valueIf : Nat → Place → (Token → Bool) → Parse Node
  | 0, _, _ => fail
  | fuel + 1, place, isEnd => do
    if ← skipIf .value then nodeUnless fuel place isEnd else return Node.empty

/-- The items of a block sequence, and its end. -/
def blockItems : Nat → Parse (List Node)
  | 0 => fail
  | fuel + 1 => do
    if ← skipIf .blockEntry then
      let n ← nodeUnless fuel .block endsItem
      return n :: (← blockItems fuel)
    skipOver .blockEnd
    return []

/-- The items of a block sequence that is not indented. -/
def looseItems : Nat → Parse (List Node)
  | 0 => fail
  | fuel + 1 => do
    if ← skipIf .blockEntry then
      let n ← nodeUnless fuel .block endsLooseItem
      return n :: (← looseItems fuel)
    return []

/-- The entries of a block mapping, and its end. -/
def blockEntries : Nat → Parse (List (Node × Node))
  | 0 => fail
  | fuel + 1 => do
    if ← skipIf .key then
      let k ← nodeUnless fuel .entry endsEntry
      let v ← valueIf fuel .entry endsEntry
      return (k, v) :: (← blockEntries fuel)
    skipOver .blockEnd
    return []

/-- The items of a flow sequence, and its end.  An item may be a mapping with one entry. -/
def flowItems : Nat → Bool → Parse (List Node)
  | 0, _ => fail
  | fuel + 1, isFirst => do
    if ← skipIf .flowSequenceEnd then return []
    if !isFirst then skipOver .flowEntry
    if ← skipIf .key then
      let k ← nodeUnless fuel .flow (endsFlowKey .flowSequenceEnd)
      let v ← valueIf fuel .flow (endsFlowValue .flowSequenceEnd)
      return Node.mapping .map [(k, v)] :: (← flowItems fuel false)
    if ← skipIf .flowSequenceEnd then return []
    let n ← node fuel .flow
    return n :: (← flowItems fuel false)

/-- The entries of a flow mapping, and its end. -/
def flowEntries : Nat → Bool → Parse (List (Node × Node))
  | 0, _ => fail
  | fuel + 1, isFirst => do
    if ← skipIf .flowMappingEnd then return []
    if !isFirst then skipOver .flowEntry
    if ← skipIf .key then
      let k ← nodeUnless fuel .flow (endsFlowKey .flowMappingEnd)
      let v ← valueIf fuel .flow (endsFlowValue .flowMappingEnd)
      return (k, v) :: (← flowEntries fuel false)
    if ← skipIf .flowMappingEnd then return []
    let n ← node fuel .flow
    return (n, Node.empty) :: (← flowEntries fuel false)

end

/-! ### Documents -/

/-- The directives in front of a document. -/
def directives : List Token → List (String × List String)
  | .directive name arguments :: ts => (name, arguments) :: directives ts
  | _ => []

/-- The major versions that the directives name. -/
def majorVersions (ds : List (String × List String)) : List String :=
  (ds.filter (·.1 == "YAML")).filterMap (·.2.head?)

/-- The handles that the directives explain. -/
def explained (ds : List (String × List String)) : List (String × String) :=
  ds.filterMap fun d =>
    match d with
    | ("TAG", [handle, start]) => some (handle, start)
    | _ => none

/-- What the handles stand for that need no directive. -/
def standardHandles : Table String := [("!", "!"), ("!!", Tag.standardStart)]

/-- No name occurs twice. -/
def areDistinct : List String → Bool
  | [] => true
  | n :: ns => !ns.contains n && areDistinct ns

/-- Directives, as far as they are allowed together. -/
def prologue : Parse Unit := do
  let ds := directives (← get).rest
  let majors := majorVersions ds
  let handles := explained ds
  require (majors.length ≤ 1 && majors.all fun n => Number.digitsValue n.toList == 1)
  require (areDistinct (handles.map Prod.fst))
  modify fun s => { s with
    rest := s.rest.drop ds.length
    handles := handles.foldl (fun t h => t.put h.1 h.2) standardHandles }

/-- A token in front of which a document with a start mark is over. -/
def endsDocument : Token → Bool
  | .directive .. | .documentStart | .documentEnd => true
  | _ => false

/-- The node of a document with directives or a start mark, or of one without. -/
def document (fuel : Nat) : Parse Node := do
  let explicit ← isNext fun t => endsDocument t && t != .documentEnd
  prologue
  if explicit then
    skipOver .documentStart
    if (← get).rest.isEmpty || (← isNext endsDocument) then return Node.empty
  node fuel .block

/-- The node of a text with at most one document.  A text without any stands for nothing. -/
def text (fuel : Nat) : Parse Node := do
  if (← get).rest.isEmpty then return Node.empty
  let n ← document fuel
  require ((← get).rest.all (· == .documentEnd))
  return n

end Parse

/-- The node of a text with at most one document. -/
def Node.ofTokens? (ts : List Token) : Option Node :=
  ((Parse.text (2 * ts.length + 4)).run { rest := ts }).map Prod.fst

end Yaml

end DataShapes
