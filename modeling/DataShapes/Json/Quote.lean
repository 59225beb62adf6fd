import DataShapes.Text.Hex

/-!
# Quoted texts in JSON

A text stands in double quotes and is written in ASCII.  The quote, the backslash and the five
control characters that have a letter are escaped by it; every other control character and every
character outside ASCII is given by its sixteen-bit code units in four hexadecimal digits each.

Main definitions:
* `Json.unit`, `Json.codeUnits`: one code unit, and those of a character;
* `Json.escape`, `Json.quote`: a character between the quotes, and the whole text.
-/

namespace DataShapes

namespace Json

/-- One sixteen-bit code unit. -/
def unit (n : Nat) : List Char := '\\' :: 'u' :: Text.hex 4 n

/-- The code units of a code point: two for one outside the basic plane. -/
def codeUnits (n : Nat) : List Nat :=
  if n < 0x10000 then [n]
  else [0xD800 + (n - 0x10000) / 0x400, 0xDC00 + (n - 0x10000) % 0x400]

/-- The letter after a backslash that stands for a character. -/
def letter? (c : Char) : Option Char :=
  if c = '"' then some '"'
  else if c = '\\' then some '\\'
  else if c = '\n' then some 'n'
  else if c = '\r' then some 'r'
  else if c = '\t' then some 't'
  else if c = '\x0c' then some 'f'
  else if c = '\x08' then some 'b'
  else none

/-- A character between the quotes. -/
def escape (c : Char) : List Char :=
  match letter? c with
  | some l => ['\\', l]
  | none =>
    if 0x20 ≤ c.toNat ∧ c.toNat < 0x7F then [c] else (codeUnits c.toNat).flatMap unit

/-- A text in quotes. -/
def quote (s : String) : String := String.ofList ('"' :: s.toList.flatMap escape ++ ['"'])

end Json

end DataShapes
