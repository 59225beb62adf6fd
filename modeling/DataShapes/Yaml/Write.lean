import DataShapes.Json.Write
import DataShapes.Yaml.Page

/-!
# Writing YAML

Values are written in block style: entries and items on lines of their own, two columns further in for
each level, save that a list is not further in than the key in front of it.  Empty containers are written
in brackets.  The values are those that JSON text can hold.

Main definitions:
* `Yaml.scalarText`: the text of a number, a truth value or null;
* `Yaml.writeNode`: write a value on a page;
* `Yaml.render`: the text of a document.
-/

namespace DataShapes

namespace Yaml

/-- The style of floating-point numbers. -/
def numberStyle : Number.Style where
  nan := ".nan"
  infinity := ".inf"
  negativeInfinity := "-.inf"
  pointedMantissa := true

/-- The text of a value that is no text and no container. -/
def scalarText : Value → String
  | .bool b => if b then "true" else "false"
  | .int n => toString n
  | .float d => Number.render numberStyle d
  | .null => "null"
  | v => v.text

/-- The indentation of what is inside; the outermost level has none around it. -/
def deeper : Option Nat → Nat
  | none => 0
  | some n => n + 2

/-- The indentation of further lines of a scalar. -/
def scalarIndent : Option Nat → Nat
  | none => 2
  | some n => n + 2

/-- Write a text in the style chosen for it. -/
def writeText (isSimpleKey : Bool) (indent : Option Nat) (s : String) (p : Page) : Page :=
  let split := !isSimpleKey
  match styleOf isSimpleKey s with
  | .plain => p.plain split (scalarIndent indent) s
  | .singleQuoted => p.singleQuoted split (scalarIndent indent) s
  | .doubleQuoted => p.doubleQuoted split (scalarIndent indent) s

/-- A key stands on one line with its value when it is short, not empty and has no line breaks. -/
def isSimpleKey (key : String) : Bool :=
  !key.isEmpty && key.length + 5 < 128 && !key.toList.any isBreak

/-- Write a key, and what stands between it and its value. -/
def writeKey (indent : Nat) (key : String) (p : Page) : Page :=
  let p := p.toIndent indent
  if isSimpleKey key then (writeText true (some indent) key p).indicator ":" false false
  else
    let p := writeText false (some indent) key (p.indicator "?" true true)
    (p.toIndent indent).indicator ":" true true

mutual

/-- Write a value.  `indent` is the indentation of the container around it, and `isEntry` holds for the
    value of a key. -/
def writeNode (isEntry : Bool) (indent : Option Nat) : Value → Page → Page
  | .list [], p | .tuple [], p => p.indicator "[]" true false
  | .list items, p => writeItems (if isEntry && !p.isFresh then indent.getD 0 else deeper indent) items p
  | .tuple items, p => writeItems (if isEntry && !p.isFresh then indent.getD 0 else deeper indent) items p
  | .dict [], p => p.indicator "\x7b\x7d" true false
  | .dict entries, p => writeEntries (deeper indent) entries p
  | .str s, p => writeText false indent s p
  | v, p => p.plain true (scalarIndent indent) (scalarText v)

/-- Write the items of a list. -/
def writeItems (indent : Nat) : List Value → Page → Page
  | [], p => p
  | v :: vs, p =>
    let p := (p.toIndent indent).indicator "-" true true
    writeItems indent vs (writeNode false (some indent) v p)

/-- Write the entries of a dictionary. -/
def writeEntries (indent : Nat) : List (Value × Value) → Page → Page
  | [], p => p
  | (k, v) :: es, p =>
    writeEntries indent es (writeNode true (some indent) v (writeKey indent k.text p))

end

/-- The value is written as a plain scalar. -/
def isPlainScalar : Value → Bool
  | .list _ | .tuple _ | .dict _ => false
  | .str s => styleOf false s == .plain
  | _ => true

/-- The text of a document.  The end of a document that is a plain scalar is marked. -/
def render (v : Value) : String :=
  let p := (writeNode false none v {}).toIndent 0
  p.text ++ (if isPlainScalar v then "...\n" else "")

end Yaml

end DataShapes
