import DataShapes.Number.Notation
import DataShapes.Value.Basic
import DataShapes.Yaml.Resolve

/-!
# Points in time

A scalar may be a date, or a date with a time of day and a time zone.  Such values have no place in a
document of shapes: what remains of them is how they are shown.

Main definitions:
* `Yaml.Moment`: a date with a time of day;
* `Yaml.Moment.ofText?`: the point in time that a text is;
* `Yaml.Moment.toValue`: the value that shows it.
-/

namespace DataShapes

namespace Yaml

/-- A time of day. -/
structure TimeOfDay where
  hour : Nat
  minute : Nat
  second : Nat
  microsecond : Nat
  /-- The minutes by which the time zone is ahead, where there is one. -/
  zone : Option Int

/-- A date, maybe with a time of day. -/
structure Moment where
  year : Nat
  month : Nat
  day : Nat
  time : Option TimeOfDay

namespace Moment

/-! ### The calendar -/

/-- The year has a leap day. -/
def isLeap (year : Nat) : Bool := year % 4 == 0 && (year % 100 != 0 || year % 400 == 0)

/-- The number of days in a month. -/
def daysIn (year month : Nat) : Nat :=
  if month = 2 then (if isLeap year then 29 else 28)
  else if [4, 6, 9, 11].contains month then 30
  else 31

/-- A time that a clock shows, in a zone less than a day ahead or behind. -/
def isOnClock (t : TimeOfDay) : Bool :=
  t.hour < 24 && t.minute < 60 && t.second < 60 && t.zone.all (·.natAbs < 24 * 60)

/-- A date in the calendar, with a time that a clock shows. -/
def isPossible (m : Moment) : Bool :=
  1 ≤ m.year && 1 ≤ m.month && m.month ≤ 12 && 1 ≤ m.day && m.day ≤ daysIn m.year m.month
    && m.time.all isOnClock

/-! ### Reading -/

/-- At least and at most so many digits: their value, and the rest. -/
def number? (least most : Nat) (cs : List Char) : Option (Nat × List Char) :=
  let digits := (cs.take most).takeWhile Char.isDigit
  if digits.length < least then none
  else some (Number.digitsValue digits, cs.drop digits.length)

/-- A given character and digits behind it. -/
def numberBehind? (c : Char) (least most : Nat) (cs : List Char) : Option (Nat × List Char) :=
  dropChar c cs >>= number? least most

/-- The digits behind a point as millionths; further digits are dropped. -/
def fraction (cs : List Char) : Nat × List Char :=
  match cs with
  | '.' :: rest =>
    let digits := rest.takeWhile Char.isDigit
    let six := (digits ++ List.replicate 6 '0').take 6
    (Number.digitsValue six, rest.dropWhile Char.isDigit)
  | _ => (0, cs)

/-- A time zone up to the end of the text; nothing means that there is none. -/
def zone? (cs : List Char) : Option (Option Int) :=
  if cs.isEmpty then some none
  else
    match cs.dropWhile isGap with
    | ['Z'] => some (some 0)
    | sign :: rest => do
      let (hours, rest) ← number? 1 2 rest
      -- The minutes may be left out.
      let (minutes, rest) ← if rest.isEmpty then some (0, []) else numberBehind? ':' 2 2 rest
      let ahead : Int := hours * 60 + minutes
      if !rest.isEmpty then none
      else if sign = '+' then some (some ahead)
      else if sign = '-' then some (some (-ahead))
      else none
    | [] => none

/-- A time of day up to the end of the text. -/
def timeOfDay? (cs : List Char) : Option TimeOfDay := do
  let (hour, cs) ← number? 1 2 cs
  let (minute, cs) ← numberBehind? ':' 2 2 cs
  let (second, cs) ← numberBehind? ':' 2 2 cs
  let (microsecond, cs) := fraction cs
  return ⟨hour, minute, second, microsecond, ← zone? cs⟩

/-- What follows the date. -/
def time? : List Char → Option (Option TimeOfDay)
  | [] => some none
  | c :: cs =>
    if c == 'T' || c == 't' then (timeOfDay? cs).map some
    else if isGap c then (timeOfDay? (cs.dropWhile isGap)).map some
    else none

/-- The point in time that a text is. -/
def ofText? (text : String) : Option Moment := do
  let (year, cs) ← number? 4 4 text.toList
  let (month, cs) ← numberBehind? '-' 1 2 cs
  let (day, cs) ← numberBehind? '-' 1 2 cs
  let m : Moment := ⟨year, month, day, ← time? cs⟩
  if m.isPossible then some m else none

/-! ### Showing -/

/-- A time zone that is ahead by so many minutes. -/
def zoneText (ahead : Int) : String :=
  if ahead = 0 then "datetime.timezone.utc"
  else if 0 < ahead then "datetime.timezone(datetime.timedelta(seconds=" ++ toString (ahead * 60) ++ "))"
  else
    "datetime.timezone(datetime.timedelta(days=-1, seconds=" ++ toString (ahead * 60 + 86400) ++ "))"

/-- Seconds and millionths, without those at the end that are zero. -/
def secondTexts (t : TimeOfDay) : List Nat :=
  if t.microsecond ≠ 0 then [t.second, t.microsecond] else if t.second ≠ 0 then [t.second] else []

/-- The value that shows a point in time. -/
def toValue (m : Moment) : Value :=
  let date := [m.year, m.month, m.day]
  match m.time with
  | none => .foreign "date" ("datetime.date(" ++ ", ".intercalate (date.map toString) ++ ")")
  | some t =>
    let numbers := date ++ [t.hour, t.minute] ++ secondTexts t
    let zone := t.zone.toList.map fun z => "tzinfo=" ++ zoneText z
    .foreign "datetime"
      ("datetime.datetime(" ++ ", ".intercalate (numbers.map toString ++ zone) ++ ")")

end Moment

end Yaml

end DataShapes
