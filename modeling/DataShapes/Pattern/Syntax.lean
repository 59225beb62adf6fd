import DataShapes.Pattern.Escape

/-!
# Well-formed patterns

A pattern is a list of alternatives, an alternative a sequence of items, and an item a character, a
set, a position, a group, or a repetition of the item before it.  A look-behind must have a fixed
width, references must lead to closed groups, and the flags of the whole pattern stand at its start.

Main definitions:
* `Pattern.checkAlternatives`, `Pattern.checkSequence`, `Pattern.checkGroup`: the parts of a
  pattern;
* `Pattern.isValid`: the text is a well-formed pattern.
-/

namespace DataShapes

namespace Pattern

open Check

/-- What a group is for the sequence that it stands in. -/
inductive GroupResult where
  | item (i : Item)
  /-- Nothing, such as a comment. -/
  | nothing
  /-- Flags of the whole pattern. -/
  | flags

/-- Replace the last item by its repetition.  Positions and repetitions cannot be repeated. -/
def repeatLast (b : Bounds) : List Item → Check (List Item)
  | [] => fail
  | i :: items => do
    require (i.kind = .other)
    if !(← accept '?') then
      let _ ← accept '+'
    modify ({ · with repeats := true })
    return ⟨.repetition, i.width.times b.least b.greatest⟩ :: items

/-- The number that a condition gives: digits with single underscores between them, maybe with a
    sign and surrounded by blanks. -/
def conditionNumber? (name : String) : Option Nat :=
  let cs := Text.trim name.toList
  let digits := match cs with
    | '+' :: cs => cs
    | cs => cs
  let rec groups : List Char → Bool → Option (List Char)
    | [], afterDigit => if afterDigit then some [] else none
    | '_' :: cs, afterDigit => if afterDigit then groups cs false else none
    | c :: cs, _ => if Text.isDecimalDigit c then (groups cs true).map (c :: ·) else none
  (groups digits false).map Text.decimalValue

/-- The group that a condition asks for. -/
def checkCondition : Check Unit := do
  let name ← takeName ')'
  let n ← if Text.isIdentifier name then namedGroup name
    else
      match conditionNumber? name with
      | some n => do
        require (0 < n && n < 1073741823)
        modify fun s => { s with conditions := n :: s.conditions }
        pure n
      | none => fail
  requireBehind n

/-- Skip a comment in a pattern with free layout. -/
def skipLine : Check Unit :=
  modify fun s => { s with rest := (s.rest.dropWhile (· ≠ .char '\n')).tail }

/-- White space that free layout skips. -/
def isLayout (c : Char) : Bool := " \t\n\r\x0b\x0c".toList.contains c

mutual

/-- Alternatives up to a closing bracket or the end.  `free` is free layout, and `isTop` holds for the
    alternatives of the whole pattern. -/
def checkAlternatives : Nat → Bool → Bool → Check Width
  | 0, _, _ => fail
  | fuel + 1, free, isTop => do
    let w ← checkSequence fuel free isTop []
    checkMore fuel free isTop w

/-- The alternatives behind the first one. -/
def checkMore : Nat → Bool → Bool → Width → Check Width
  | 0, _, _, _ => fail
  | fuel + 1, free, isTop, w => do
    if ← accept '|' then
      let flags := (← get).flags
      let free := if isTop then flags.contains 'x' else free
      let v ← checkSequence fuel free false []
      checkMore fuel free isTop (w.either v)
    else return w

/-- A sequence of items up to a bar, a closing bracket or the end; `items` are those before, the last
    one first.  Flags of the whole pattern may only come before all items of the first sequence. -/
def checkSequence : Nat → Bool → Bool → List Item → Check Width
  | 0, _, _, _ => fail
  | fuel + 1, free, isStart, items => do
    match ← peek with
    | none | some (.char '|') | some (.char ')') => return .sum (items.map Item.width)
    | some (.escape c) =>
      let _ ← take
      let i ← checkEscape c
      checkSequence fuel free isStart (i :: items)
    | some (.char c) =>
      let _ ← take
      -- In a free layout blanks and comments are no items.
      if free && isLayout c then checkSequence fuel free isStart items
      else if free && c = '#' then
        skipLine
        checkSequence fuel free isStart items
      else if c = '[' then
        let i ← checkSet
        checkSequence fuel free isStart (i :: items)
      else if c = '?' then
        let items ← repeatLast ⟨0, some 1⟩ items
        checkSequence fuel free isStart items
      else if c = '*' then
        let items ← repeatLast ⟨0, none⟩ items
        checkSequence fuel free isStart items
      else if c = '+' then
        let items ← repeatLast ⟨1, none⟩ items
        checkSequence fuel free isStart items
      else if c = '\x7b' then
        match ← checkBounds with
        | some b =>
          let items ← repeatLast b items
          checkSequence fuel free isStart items
        -- A brace that is not the start of a number of repetitions stands for itself.
        | none => checkSequence fuel free isStart (.one :: items)
      else if c = '^' || c = '$' then checkSequence fuel free isStart (.position :: items)
      else if c = '(' then
        match ← checkGroup fuel free with
        | .item i => checkSequence fuel free isStart (i :: items)
        | .nothing => checkSequence fuel free isStart items
        | .flags =>
          -- Flags may change the layout of everything behind them.
          require (isStart && items.isEmpty)
          let flags := (← get).flags
          checkSequence fuel (flags.contains 'x') isStart items
      else checkSequence fuel free isStart (.one :: items)

/-- A group behind its opening bracket. -/
def checkGroup : Nat → Bool → Check GroupResult
  | 0, _ => fail
  | fuel + 1, free => do
    if !(← accept '?') then return ← checkCapture fuel free none
    match ← takeToken with
    | .char 'P' =>
      if ← accept '<' then
        let name ← takeName '>'
        require (Text.isIdentifier name)
        checkCapture fuel free (some name)
      else
        expect '='
        let n ← namedGroup (← takeName ')')
        return .item ⟨.other, ← reference n⟩
    | .char ':' | .char '>' => do return .item ⟨.other, ← checkInner fuel free⟩
    | .char '#' =>
      let _ ← takeUntil ')'
      return .nothing
    | .char '=' | .char '!' =>
      let _ ← checkInner fuel free
      return .item ⟨.other, .zero⟩
    | .char '<' =>
      let t ← takeToken
      require (t = .char '=' || t = .char '!')
      checkBehind fuel free
    | .char '(' => checkConditional fuel free
    | .char c =>
      match ← checkFlags c with
      | none => return .flags
      | some flags =>
        let free := (free || flags.on.contains 'x') && !flags.off.contains 'x'
        return .item ⟨.other, ← checkInner fuel free⟩
    | .escape _ => fail

/-- The alternatives of a group, and its closing bracket. -/
def checkInner : Nat → Bool → Check Width
  | 0, _ => fail
  | fuel + 1, free => do
    let w ← checkAlternatives fuel free false
    expect ')'
    return w

/-- A group that can be referred to. -/
def checkCapture : Nat → Bool → Option String → Check GroupResult
  | 0, _, _ => fail
  | fuel + 1, free, name => do
    let place ← openGroup name
    let w ← checkInner fuel free
    closeGroup place w
    return .item ⟨.other, w⟩

/-- A look-behind, which matches texts of one length. -/
def checkBehind : Nat → Bool → Check GroupResult
  | 0, _ => fail
  | fuel + 1, free => do
    let outer := (← get).behind
    modify fun s => { s with behind := outer.getD (s.groups.length + 1) |> some }
    let w ← checkInner fuel free
    modify ({ · with behind := outer })
    require (w.least = w.greatest && w.least < Nat.pow 2 32)
    return .item ⟨.other, .zero⟩

/-- One of two sequences, depending on whether a group took part in the match. -/
def checkConditional : Nat → Bool → Check GroupResult
  | 0, _ => fail
  | fuel + 1, free => do
    checkCondition
    let yes ← checkSequence fuel free false []
    let no ← if ← accept '|' then checkSequence fuel free false [] else pure .zero
    expect ')'
    return .item ⟨.other, ⟨min yes.least no.least, max yes.greatest no.greatest⟩⟩

end

/-- What holds at the end of a well-formed pattern: nothing is left, the groups that conditions ask
    for exist, and the flags go together. -/
def isComplete (s : State) : Bool :=
  s.rest.isEmpty && s.conditions.all (· ≤ s.groups.length)
    && !(s.flags.contains 'a' && s.flags.contains 'u') && !(s.flags.contains 't' && s.repeats)

/-- The text is a well-formed pattern. -/
def isValid (pattern : String) : Bool :=
  match tokens pattern.toList with
  | none => false
  | some ts =>
    match (checkAlternatives (8 * ts.length + 8) false true).run { rest := ts } with
    | some (_, s) => isComplete s
    | none => false

end Pattern

end DataShapes
