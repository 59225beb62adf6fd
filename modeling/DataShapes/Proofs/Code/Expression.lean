import DataShapes.Proofs.Code.Numeral
import DataShapes.Proofs.Code.Text
import DataShapes.Table
import DataShapes.Value.Equality

/-!
# Expressions of the stub language

The expressions that stubs give as defaults are literals, negated literals, displays of lists, tuples and
dictionaries, functions without parameters and calls with arguments by keyword.  In the scope of a stub three
words stand for data, null and the truth values; the other names are those of imported functions and types
and of the shapes.  A name that the module does not define, such as that of an infinity, has no value.
Imported names stand for what was imported: no shape and no property takes such a name here.

A default is the value of its expression, or what the factory of a field makes: the function is called and
gives the value of its body.  An expression that is none of these has no value here, and neither has a text
that is no expression.

Main definitions:
* `Code.Expression`, `Code.readExpression`, `Code.read`: expressions, and how they are read off a text;
* `Code.Expression.value?`: the value of an expression;
* `Code.default?`: the default that a text gives.
-/

namespace DataShapes

namespace Code

/-- An expression. -/
inductive Expression where
  | name (word : String)
  | numeral (n : Numeral)
  | text (points : List Nat)
  | negate (e : Expression)
  | list (items : List Expression)
  | tuple (items : List Expression)
  | dict (entries : List (Expression × Expression))
  /-- A function without parameters. -/
  | thunk (body : Expression)
  /-- A call of what a name stands for, with arguments by keyword. -/
  | call (callee : String) (arguments : List (String × Expression))

/-! ### Values -/

/-- The names that stand for data. -/
def constants : Table Value := [("None", .null), ("True", .bool true), ("False", .bool false)]

/-- A negated number; a truth value counts as zero or one. -/
def negated? : Value → Option Value
  | .bool b => some (.int (if b then -1 else 0))
  | .int n => some (.int (-n))
  | .float d => some (.float d.negate)
  | _ => none

mutual

/-- The value can be a key: it holds no list and no dictionary outside of another key. -/
def isKey : Value → Bool
  | .list _ | .dict _ => false
  | .tuple items => areKeys items
  | _ => true

/-- Every value of a list can be a key. -/
def areKeys : List Value → Bool
  | [] => true
  | v :: vs => isKey v && areKeys vs

end

mutual

/-- The value of an expression.  Functions and what they are called for are no data. -/
def Expression.value? : Expression → Option Value
  | .name word => Table.get? constants word
  | .numeral n => n.value?
  | .text points => (textOf? points).map .str
  | .negate e => (Expression.value? e).bind negated?
  | .list items => (Expression.values? items).map .list
  | .tuple items => (Expression.values? items).map .tuple
  | .dict entries => do
    let es ← Expression.entryValues? entries
    if !es.all (fun e => isKey e.1) then none
    return .dict (Value.dictOf es)
  | .thunk _ | .call .. => none

/-- The values of a list of expressions. -/
def Expression.values? : List Expression → Option (List Value)
  | [] => some []
  | e :: es => do return (← Expression.value? e) :: (← Expression.values? es)

/-- The keys and values of a row of entries. -/
def Expression.entryValues? : List (Expression × Expression) → Option (List (Value × Value))
  | [] => some []
  | (k, v) :: es => do
    return (← Expression.value? k, ← Expression.value? v) :: (← Expression.entryValues? es)

end

/-- The value of a default: of what the factory of a field makes, or of the expression itself. -/
def Expression.default? : Expression → Option Value
  | .call callee [(argument, .thunk body)] =>
    if callee = "field" ∧ argument = "default_factory" then body.value? else none
  | e => e.value?

/-! ### Reading -/

/-- Blanks between tokens. -/
def isBlank (c : Char) : Bool := c == ' ' || c == '\t' || c == '\x0c'

/-- Skip blanks. -/
def skipBlanks (cs : List Char) : List Char := cs.dropWhile isBlank

/-- The word at the start of a text, and the rest. -/
def spanWord (cs : List Char) : String × List Char :=
  (String.ofList (cs.takeWhile Text.isIdentifierRest), cs.dropWhile Text.isIdentifierRest)

section

variable {α : Type}

/-- Items between commas up to a closing bracket, whether there was a comma, and the rest.  A comma may
    stand behind the last item.  `fuel` bounds the number of items. -/
def readSeries (item : List Char → Option (α × List Char)) (closer : Char) :
    Nat → List Char → Option (List α × Bool × List Char)
  | 0, _ => none
  | fuel + 1, cs =>
    match item cs with
    | none =>
      match skipBlanks cs with
      | [] => none
      | c :: rest => if c = closer then some ([], false, rest) else none
    | some (x, rest) =>
      match skipBlanks rest with
      | [] => none
      | c :: rest =>
        if c = closer then some ([x], false, rest)
        else if c = ',' then do
          let (xs, _, rest) ← readSeries item closer fuel rest
          return (x :: xs, true, rest)
        else none

variable (expression : List Char → Option (α × List Char))

/-- A key, a colon and a value, and the rest. -/
def readEntry (cs : List Char) : Option ((α × α) × List Char) := do
  let (key, rest) ← expression cs
  match skipBlanks rest with
  | ':' :: rest =>
    let (value, rest) ← expression rest
    return ((key, value), rest)
  | _ => none

/-- A keyword, an equals sign and an argument, and the rest. -/
def readArgument (cs : List Char) : Option ((String × α) × List Char) :=
  let (word, rest) := spanWord (skipBlanks cs)
  match skipBlanks rest with
  | '=' :: rest => do
    let (e, rest) ← expression rest
    return ((word, e), rest)
  | _ => none

end

/-- What stands between parentheses: an expression alone is in parentheses, otherwise it is a tuple. -/
def parenthesized : List Expression → Bool → Expression
  | [e], false => e
  | items, _ => .tuple items

section

variable (expression : List Char → Option (Expression × List Char))

/-- A function, a call or a name at the start of a text, and the rest. -/
def readWord (cs : List Char) : Option (Expression × List Char) :=
  let (word, rest) := spanWord cs
  if word = "lambda" then
    match skipBlanks rest with
    | ':' :: rest => do
      let (body, rest) ← expression rest
      return (.thunk body, rest)
    | _ => none
  else
    match skipBlanks rest with
    | '(' :: rest => do
      let (arguments, _, rest) ← readSeries (readArgument expression) ')' (rest.length + 1) rest
      return (.call word arguments, rest)
    | _ => some (.name word, rest)

/-- The expression that starts with a character, and the rest. -/
def readFrom (c : Char) (cs : List Char) : Option (Expression × List Char) :=
  if c = '-' then do
    let (e, rest) ← expression cs
    return (.negate e, rest)
  else if c = '[' then do
    let (items, _, rest) ← readSeries expression ']' (cs.length + 1) cs
    return (.list items, rest)
  else if c = '(' then do
    let (items, comma, rest) ← readSeries expression ')' (cs.length + 1) cs
    return (parenthesized items comma, rest)
  else if c = '\x7b' then do
    let (entries, _, rest) ← readSeries (readEntry expression) '\x7d' (cs.length + 1) cs
    return (.dict entries, rest)
  else if c = '\'' ∨ c = '"' then do
    let (points, rest) ← readText (c :: cs)
    return (.text points, rest)
  else if c.isDigit ∨ c = '.' then do
    let (n, rest) ← Numeral.read (c :: cs)
    return (.numeral n, rest)
  else if Text.isIdentifierStart c then readWord expression (c :: cs)
  else none

end

/-- The expression at the start of a text, and the rest.  `fuel` bounds the depth of nesting. -/
def readExpression : Nat → List Char → Option (Expression × List Char)
  | 0, _ => none
  | fuel + 1, cs =>
    match skipBlanks cs with
    | [] => none
    | c :: cs => readFrom (readExpression fuel) c cs

/-- The expression that a whole text is. -/
def read (text : String) : Option Expression := do
  let (e, rest) ← readExpression (text.toList.length + 2) text.toList
  if skipBlanks rest ≠ [] then none
  return e

/-- The default that a text gives. -/
def default? (text : String) : Option Value := (read text).bind Expression.default?

end Code

end DataShapes
