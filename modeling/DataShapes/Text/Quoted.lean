import DataShapes.Text.Hex
import DataShapes.Text.Printable

/-!
# Quoted text

A text inside a value literal stands in single quotes, or in double quotes when it holds a single
quote and no double one.  Backslash, the chosen quote, tab, line feed and carriage return have a
letter; every other character that is not printable is given by its code point in two, four or
eight hexadecimal digits.

Main definitions:
* `Quoted.quoteFor`: the quote chosen for a text;
* `Quoted.escape`: how one character is written;
* `Quoted.quote`: the whole literal.
-/

namespace DataShapes

namespace Quoted

/-- The quote around a text. -/
def quoteFor (cs : List Char) : Char := if '\'' ∈ cs ∧ '"' ∉ cs then '"' else '\''

/-- The letter after a backslash that stands for a character. -/
def letter? (quote : Char) (c : Char) : Option Char :=
  if c = '\\' then some '\\'
  else if c = quote then some quote
  else if c = '\n' then some 'n'
  else if c = '\r' then some 'r'
  else if c = '\t' then some 't'
  else none

/-- A character by its code point. -/
def codePoint (c : Char) : List Char :=
  if c.toNat < 0x100 then '\\' :: 'x' :: Text.hex 2 c.toNat
  else if c.toNat < 0x10000 then '\\' :: 'u' :: Text.hex 4 c.toNat
  else '\\' :: 'U' :: Text.hex 8 c.toNat

/-- How one character is written between quotes. -/
def escape (quote : Char) (c : Char) : List Char :=
  match letter? quote c with
  | some l => ['\\', l]
  | none => if Text.isPrintable c then [c] else codePoint c

/-- The characters of a text between the quotes. -/
def body (quote : Char) (cs : List Char) : List Char := cs.flatMap (escape quote)

/-- A text as a literal. -/
def quote (s : String) : String :=
  let q := quoteFor s.toList
  String.ofList (q :: body q s.toList ++ [q])

@[simp] theorem body_nil (q : Char) : body q [] = [] := rfl

/-- The characters of a literal are escaped one by one. -/
@[simp] theorem body_cons (q c : Char) (cs : List Char) :
    body q (c :: cs) = escape q c ++ body q cs := rfl

end Quoted

end DataShapes
