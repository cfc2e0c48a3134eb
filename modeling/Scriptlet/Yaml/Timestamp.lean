import Scriptlet.Number.Numeral
import Scriptlet.Text.Quoted

/-!
# Dates

The plain scalars that are read as dates: a day, written with a year of four
digits, and optionally a time of day, with fractions of a second and a zone. A
`Timestamp` has the parts as they are written. A date has no counterpart among the
values, and is shown only as a part of a key.
-/

namespace Scriptlet.Yaml

/-- The zone of a time of day: the common one, or one by its distance from that in
minutes. -/
inductive Zone where
  | universal
  | offset (minutes : Int)
  deriving DecidableEq, Repr

/-- A time of day. -/
structure Clock where
  hour : Nat
  minute : Nat
  second : Nat
  nanos : Nat
  deriving DecidableEq, Repr

/-- A date with a time of day. -/
structure Timestamp where
  year : Nat
  month : Nat
  day : Nat
  clock : Clock
  zone : Zone
  deriving DecidableEq, Repr

/-- The zone in the notation of the host. Its own one is at no distance. -/
def Zone.spelling : Zone → String
  | universal => "time.UTC"
  | offset 0 => "time.Local"
  | offset _ => "time.Location(" ++ Text.Quoted.quote "" ++ ")"

namespace Clock

/-- The beginning of a day. -/
def midnight : Clock := ⟨0, 0, 0, 0⟩

/-- One or two digits at the front as a number, and what follows. -/
def number? : List Char → Option (Nat × List Char)
  | c :: d :: cs =>
      if Numeral.isDigit c then
        if Numeral.isDigit d then some (Numeral.Base.decimal.natOf [c, d], cs)
        else some (Numeral.Base.decimal.natOf [c], d :: cs)
      else none
  | [c] => if Numeral.isDigit c then some (Numeral.Base.decimal.natOf [c], []) else none
  | [] => none

/-- What follows a given character at the front. -/
def skip? (c : Char) : List Char → Option (List Char)
  | d :: cs => if c == d then some cs else none
  | [] => none

/-- The nanoseconds that the digits of a fraction of a second stand for. -/
def nanosOf (digits : List Char) : Nat :=
  let shown := digits.take 9
  Numeral.Base.decimal.natOf shown * Nat.pow 10 (9 - shown.length)

/-- The nanoseconds of a fraction of a second at the front, which may be missing, and
what follows. -/
def fraction : List Char → Nat × List Char
  | point :: d :: cs =>
      if (point == '.' || point == ',') && Numeral.isDigit d then
        (nanosOf (d :: cs.takeWhile Numeral.isDigit), cs.dropWhile Numeral.isDigit)
      else (0, point :: d :: cs)
  | cs => (0, cs)

/-- A valid time of day at the front, and what follows. -/
def ofFront? (cs : List Char) : Option (Clock × List Char) := do
  let (hour, cs) ← number? cs
  let (minute, cs) ← number? (← skip? ':' cs)
  let (second, cs) ← number? (← skip? ':' cs)
  guard (hour < 24 ∧ minute < 60 ∧ second < 60)
  let (nanos, cs) := fraction cs
  return (⟨hour, minute, second, nanos⟩, cs)

end Clock

/-- The zone that a text writes: a Z, or a sign with hours and minutes. -/
def Zone.ofList? : List Char → Option Zone
  | ['Z'] => some universal
  | [sign, h, h', ':', m, m'] => do
      guard ((sign == '+' || sign == '-') && [h, h', m, m'].all Numeral.isDigit)
      let hours := Numeral.Base.decimal.natOf [h, h']
      let minutes := Numeral.Base.decimal.natOf [m, m']
      guard (hours ≤ 24 ∧ minutes ≤ 60)
      let distance : Int := ((hours * 60 + minutes : Nat) : Int)
      return offset (if sign == '-' then -distance else distance)
  | _ => none

namespace Timestamp

/-- Whether a year has a leap day. -/
def isLeap (year : Nat) : Bool :=
  year % 4 == 0 && (year % 100 != 0 || year % 400 == 0)

/-- The number of days of a month. -/
def daysIn (year month : Nat) : Nat :=
  if month = 2 then (if isLeap year then 29 else 28)
  else if month = 4 ∨ month = 6 ∨ month = 9 ∨ month = 11 then 30
  else 31

/-- The beginning of a valid day at the front, and what follows. -/
def day? (cs : List Char) : Option (Timestamp × List Char) := do
  let digits := cs.take 4
  guard (digits.length = 4 ∧ digits.all Numeral.isDigit)
  let year := Numeral.Base.decimal.natOf digits
  let (month, cs) ← Clock.number? (← Clock.skip? '-' (cs.drop 4))
  guard (1 ≤ month ∧ month ≤ 12)
  let (day, cs) ← Clock.number? (← Clock.skip? '-' cs)
  guard (1 ≤ day ∧ day ≤ daysIn year month)
  return (⟨year, month, day, .midnight, .universal⟩, cs)

/-- The date that a text writes, with or without a time of day. After a T the time has a
zone, and after blanks it has none. -/
def ofList? (cs : List Char) : Option Timestamp := do
  let (day, cs) ← day? cs
  match cs with
  | [] => return day
  | mark :: rest =>
      if mark == 'T' || mark == 't' then
        let (clock, rest) ← Clock.ofFront? rest
        return { day with clock := clock, zone := ← Zone.ofList? rest }
      else
        guard (mark == ' ')
        let (clock, rest) ← Clock.ofFront? (rest.dropWhile (· == ' '))
        guard rest.isEmpty
        return { day with clock := clock }

/-- The names of the months. -/
def monthNames : List String :=
  ["January", "February", "March", "April", "May", "June", "July", "August", "September",
    "October", "November", "December"]

/-- A date in the notation of the host. -/
def spelling (t : Timestamp) : String :=
  let parts :=
    [toString t.year, "time." ++ monthNames.getD (t.month - 1) "", toString t.day,
      toString t.clock.hour, toString t.clock.minute, toString t.clock.second,
      toString t.clock.nanos, t.zone.spelling]
  "time.Date(" ++ ", ".intercalate parts ++ ")"

end Timestamp

end Scriptlet.Yaml
