import DataShapes.Export.Targets
import DataShapes.Text.DecimalDigit

/-!
# Command lines of the export

An argument is a switch, possibly with a value behind an equals sign, or a plain word.  Long switches may be
shortened as long as only one fits; short ones may be joined.  A switch that takes a value takes the next
plain word.  Words that nothing takes are mistakes, but the request for help counts as soon as it is
reached.

Main definitions:
* `Setting`, `Switch`: the switches with and without a value;
* `Word`, `Word.read`: what an argument is;
* `ExportRequest`, `CommandLine`: what a command line asks for;
* `CommandLine.read`: what the arguments ask for.
-/

namespace DataShapes

/-- A switch that takes a value. -/
inductive Setting where
  | module
  | catalog
  | output
  | stubs
  | format
deriving DecidableEq, Repr

/-- A switch. -/
inductive Switch where
  | help
  | verbose
  | setting (s : Setting)
deriving DecidableEq, Repr

namespace Switch

/-- The long names of switches. -/
def names : List (String × Switch) :=
  [("--help", .help), ("--module", .setting .module), ("--catalog", .setting .catalog),
   ("--output", .setting .output), ("--stubs", .setting .stubs), ("--format", .setting .format),
   ("--verbose", .verbose)]

/-- The switch with a letter. -/
def ofLetter? (c : Char) : Option Switch :=
  if c = 'h' then some .help else if c = 'v' then some .verbose else none

end Switch

/-- The formats that can be asked for. -/
def Setting.formats : List String := ["json", "yaml"]

/-- A value that the switch takes. -/
def Setting.allows (s : Setting) (text : String) : Bool := s != .format || formats.contains text

/-- What an argument is. -/
inductive Word where
  | plain (text : String)
  /-- Everything behind it is plain. -/
  | divider
  | setting (s : Setting) (value : Option String)
  /-- Switches without values, and whether a letter behind them is none. -/
  | switches (ss : List Switch) (hasMore : Bool)
  /-- A switch that there is not. -/
  | unknown
  /-- A value for a switch that takes none. -/
  | misuse
deriving DecidableEq, Repr

namespace Word

/-! ### Kinds of words -/

/-- The text without a line feed at its end. -/
def dropLineFeed (cs : List Char) : List Char :=
  if cs.getLast? = some '\n' then cs.dropLast else cs

/-- A negative number, which is a plain word. -/
def isNegativeNumber (cs : List Char) : Bool :=
  match dropLineFeed cs with
  | '-' :: cs =>
    let (whole, rest) := cs.span Text.isDecimalDigit
    match rest with
    | [] => !whole.isEmpty
    | '.' :: fraction => !fraction.isEmpty && fraction.all Text.isDecimalDigit
    | _ => false
  | _ => false

/-- A word with a dash in front that is no switch. -/
def other (text : String) : Word :=
  if isNegativeNumber text.toList || text.toList.contains ' ' then .plain text else .unknown

/-- Letters behind a switch without a value. -/
def letters (s : Switch) : List Char → Option (List Switch × Bool)
  | [] => some ([s], false)
  | c :: cs =>
    if c = '-' || c = '=' then none
    else
      match Switch.ofLetter? c with
      | none => some ([s], true)
      | some t => (letters t cs).map fun x => (s :: x.1, x.2)

/-- A word with one dash in front. -/
def short (text : String) (c : Char) (cs : List Char) : Word :=
  match Switch.ofLetter? c with
  | none => other text
  | some s =>
    match letters s cs with
    | some (ss, hasMore) => .switches ss hasMore
    | none => .misuse

/-- A switch with the value behind the equals sign, if there is one. -/
def ofSwitch (s : Switch) (value : Option String) : Word :=
  match s with
  | .setting s => .setting s value
  | s => if value.isSome then .misuse else .switches [s] false

/-- The part in front of the first equals sign, and the part behind it. -/
def spanValue (cs : List Char) : String × Option String :=
  let name := cs.takeWhile (· != '=')
  match cs.drop name.length with
  | [] => (String.ofList name, none)
  | _ :: value => (String.ofList name, some (String.ofList value))

/-- A word with two dashes in front; nothing when several switches fit. -/
def long (text : String) : Option Word :=
  let (name, value) := spanValue text.toList
  match Switch.names.find? (·.1 == name) with
  | some (_, s) => some (ofSwitch s value)
  | none =>
    match Switch.names.filter fun e => name.toList.isPrefixOf e.1.toList with
    | [] => some (other text)
    | [(_, s)] => some (ofSwitch s value)
    | _ => none

/-- What an argument is; nothing when several switches fit. -/
def read (text : String) : Option Word :=
  match text.toList with
  | '-' :: '-' :: _ => long text
  | '-' :: c :: cs => some (short text c cs)
  | _ => some (.plain text)

/-- What the arguments are.  Behind the divider all are plain. -/
def readAll : List String → Option (List Word)
  | [] => some []
  | text :: texts =>
    if text = "--" then some (.divider :: texts.map .plain)
    else do return (← read text) :: (← readAll texts)

end Word

/-- What an export is asked for. -/
structure ExportRequest where
  /-- The name of the module. -/
  module : String
  /-- The name of the catalog in it. -/
  catalog : Option String := none
  targets : Targets := {}
  verbosity : Nat := 0
deriving DecidableEq, Repr

/-- What a command line asks for. -/
inductive CommandLine where
  | help
  | misuse
  | run (r : ExportRequest)
deriving DecidableEq, Repr

namespace CommandLine

/-- What the words so far ask for. -/
structure Draft where
  module : Option String := none
  catalog : Option String := none
  targets : Targets := {}
  verbosity : Nat := 0
  /-- There are words that nothing takes. -/
  hasMore : Bool := false

namespace Draft

/-- Take a value; one that is given again replaces the first. -/
def put (d : Draft) (s : Setting) (value : String) : Draft :=
  match s with
  | .module => { d with module := some value }
  | .catalog => { d with catalog := some value }
  | .output => { d with targets := { d.targets with output := some value } }
  | .stubs => { d with targets := { d.targets with stubs := some value } }
  | .format => { d with targets := { d.targets with format := some value } }

/-- There was a word that nothing takes. -/
def withMore (d : Draft) (b : Bool) : Draft := { d with hasMore := d.hasMore || b }

/-- Take switches without values. -/
def count (d : Draft) (ss : List Switch) : Draft :=
  { d with verbosity := d.verbosity + ss.count .verbose }

/-- What all the words ask for. -/
def finish (d : Draft) : CommandLine :=
  match d.module with
  | some module =>
    if d.hasMore then .misuse
    else .run { module, catalog := d.catalog, targets := d.targets, verbosity := d.verbosity }
  | none => .misuse

end Draft

/-- What words ask for behind those that have been taken. -/
def ofWords (d : Draft) : List Word → CommandLine
  | [] => d.finish
  | .setting s (some value) :: ws => if s.allows value then ofWords (d.put s value) ws else .misuse
  | .setting s none :: .plain value :: ws =>
    if s.allows value then ofWords (d.put s value) ws else .misuse
  | .setting _ none :: _ => .misuse
  -- Help ends the reading at once, before any later mistake is seen.
  | .switches ss hasMore :: ws =>
    if ss.contains .help then .help else ofWords ((d.count ss).withMore hasMore) ws
  | .misuse :: _ => .misuse
  -- A word that nothing takes is a mistake, but one that is only noticed at the end.
  | .plain _ :: ws => ofWords (d.withMore true) ws
  | .divider :: ws => ofWords (d.withMore true) ws
  | .unknown :: ws => ofWords (d.withMore true) ws

/-- What the arguments ask for. -/
def read (arguments : List String) : CommandLine :=
  match Word.readAll arguments with
  | some ws => ofWords {} ws
  | none => .misuse

end CommandLine

end DataShapes
