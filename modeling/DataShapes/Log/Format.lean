import DataShapes.Notice
import DataShapes.Text.Quoted

/-!
# Formats of log lines

A format is a text with fields of the record in it: `%(name)s` stands for the logger, and a field may
have flags, a width and a precision.  Two percent signs stand for one.

Main definitions:
* `LogRecord`: what is logged;
* `LogFormat`, `LogFormat.parse`: formats, and the format that a text denotes;
* `LogFormat.line`: the line for a record.
-/

namespace DataShapes

/-- One record of any logger. -/
structure LogRecord where
  /-- The name of the logger; the root logger has none. -/
  logger : String
  level : Int
  message : String
deriving DecidableEq, Repr

namespace LogRecord

/-- The record of a notice. -/
def ofNotice (n : Notice) : LogRecord := ⟨n.source.name, n.level.number, n.message⟩

/-- The name of the logger, also of the root. -/
def loggerName (r : LogRecord) : String := if r.logger.isEmpty then "root" else r.logger

/-- The word for a level, or its number. -/
def levelName (r : LogRecord) : String :=
  if r.level = 50 then "CRITICAL"
  else if r.level = 40 then "ERROR"
  else if r.level = 30 then "WARNING"
  else if r.level = 20 then "INFO"
  else if r.level = 10 then "DEBUG"
  else if r.level = 0 then "NOTSET"
  else "Level " ++ toString r.level

end LogRecord

/-- A field of a record in a format. -/
structure LogField where
  name : String
  /-- Characters that change how the field is laid out. -/
  flags : List Char := []
  width : Nat := 0
  precision : Option Nat := none
  /-- The letter at the end. -/
  conversion : Char := 's'
deriving DecidableEq, Repr

namespace LogField

/-- The number that a field holds. -/
def number? (f : LogField) (r : LogRecord) : Option Int :=
  if f.name = "levelno" then some r.level else none

/-- The text that a field holds. -/
def text (f : LogField) (r : LogRecord) : String :=
  if f.name = "name" then r.loggerName
  else if f.name = "levelname" then r.levelName
  else if f.name = "levelno" then toString r.level
  else if f.name = "message" || f.name = "msg" then r.message
  else ""

/-- Characters in front of the shorter ones. -/
private def fill (n : Nat) (c : Char) (cs : List Char) : List Char :=
  List.replicate (n - cs.length) c ++ cs

/-- Spaces up to the width of the field: behind what is aligned to the left. -/
def pad (f : LogField) (cs : List Char) : List Char :=
  if f.flags.contains '-' then cs ++ List.replicate (f.width - cs.length) ' ' else fill f.width ' ' cs

/-- A number in a field. -/
def layOutNumber (f : LogField) (n : Int) : List Char :=
  let sign :=
    if n < 0 then ['-']
    else if f.flags.contains '+' then ['+']
    else if f.flags.contains ' ' then [' ']
    else []
  let digits := fill (f.precision.getD 0) '0' (toString n.natAbs).toList
  let digits :=
    if f.flags.contains '0' && !f.flags.contains '-' then fill (f.width - sign.length) '0' digits
    else digits
  f.pad (sign ++ digits)

/-- A text in a field. -/
def layOutText (f : LogField) (s : String) : List Char :=
  let cs := s.toList
  f.pad ((f.precision.map cs.take).getD cs)

/-- What a field becomes. -/
def layOut (f : LogField) (r : LogRecord) : List Char :=
  match f.number? r with
  | some n =>
    if f.conversion = 'd' || f.conversion = 'i' then f.layOutNumber n else f.layOutText (toString n)
  | none =>
    if f.conversion = 'r' then f.layOutText (Quoted.quote (f.text r)) else f.layOutText (f.text r)

end LogField

/-- A piece of a format. -/
inductive LogPiece where
  | char (c : Char)
  | field (f : LogField)
deriving DecidableEq, Repr

/-- A format. -/
abbrev LogFormat : Type := List LogPiece

namespace LogFormat

/-- The field behind a percent sign and an opening bracket, and the rest. -/
def spanField (cs : List Char) : Option (LogField × List Char) :=
  let (name, cs) := cs.span (· != ')')
  match cs with
  | [] => none
  | _ :: cs =>
    let (flags, cs) := cs.span fun c => "#0+- ".toList.contains c
    let (width, cs) := Number.spanDigits cs
    let (precision, cs) :=
      match cs with
      | '.' :: cs =>
        let (digits, cs) := Number.spanDigits cs
        (some (Number.digitsValue digits), cs)
      | cs => (none, cs)
    match cs with
    | [] => none
    | conversion :: cs =>
      some (⟨String.ofList name, flags, Number.digitsValue width, precision, conversion⟩, cs)

/-- The pieces of a format.  `fuel` bounds their number. -/
def parseWith : Nat → List Char → LogFormat
  | 0, _ => []
  | _ + 1, [] => []
  | fuel + 1, '%' :: '%' :: cs => .char '%' :: parseWith fuel cs
  | fuel + 1, '%' :: '(' :: cs =>
    match spanField cs with
    | some (f, rest) => .field f :: parseWith fuel rest
    | none => .char '%' :: parseWith fuel ('(' :: cs)
  | fuel + 1, c :: cs => .char c :: parseWith fuel cs

/-- The format that a text denotes. -/
def parse (s : String) : LogFormat := parseWith (s.length + 1) s.toList

/-- The usual format: logger, level and message. -/
def standard : LogFormat := parse "%(name)s - %(levelname)s - %(message)s"

/-- What a piece becomes. -/
def layOutPiece (r : LogRecord) : LogPiece → List Char
  | .char c => [c]
  | .field f => f.layOut r

/-- The line for a record. -/
def line (f : LogFormat) (r : LogRecord) : String :=
  String.ofList (f.flatMap (layOutPiece r) ++ ['\n'])

end LogFormat

end DataShapes
