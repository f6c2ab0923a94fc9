import FavoniusBackend.Reports.Timing

/-!
# The time windows of the agent

`resolve_relative_bounds` in `api/agent/resolve.py` turns a phrase such as "last_week" into two instants: the date of now
in the zone of the depot gives two local dates, and the window goes from the midnight of the one to the midnight of the
other.  A `datetime` has a year from 1 to 9999, in UTC too; what would leave them raises.
-/

namespace FavoniusBackend.Agent.TimeWindows

open Lib.Calendar
open Reports (ZoneInfo microsPerDay dateOf)

/-! ## Datetimes -/

def Representable (wall : ℤ) : Prop := microsPerDay ≤ wall ∧ wall < 3652060 * microsPerDay

instance (wall : ℤ) : Decidable (Representable wall) := inferInstanceAs (Decidable (_ ∧ _))

inductive ResolveError where
  | valueError (message : String)
  /-- `ValueError(f"unknown relative literal: {rel!r}")`. -/
  | unknownLiteral (rel : String)
  | overflowError
  deriving DecidableEq

abbrev Resolving := Except ResolveError

/-- An argument `now`: a wall clock, and the offset of its zone if it has one. -/
structure Now where
  wall : ℤ
  offset : Option ℤ
  representable : Representable wall

def Now.instant (now : Now) : ℤ := now.wall - now.offset.getD 0

/-- The arithmetic on datetimes raises where it leaves the years. -/
def checked (wall : ℤ) : Resolving ℤ := if Representable wall then .ok wall else .error .overflowError

/-- `datetime.now(tz)` where the argument is left out, else `now.astimezone(tz)`. -/
def localNow (tz : ZoneInfo) (clock : ℤ) : Option Now → Resolving ℤ
  | none => checked (clock + tz.fromutc clock)
  | some now =>
    match now.offset with
    | none => .error (.valueError "now must be timezone-aware")
    | some offset => do
      let utc ← checked (now.wall - offset)
      checked (utc + tz.fromutc utc)

/-- `d + timedelta(days)`. -/
def shift (d : Date) (days : ℤ) : Resolving Date := do
  let _ ← checked ((d.addDays days).toOrdinal * microsPerDay)
  return d.addDays days

/-- `date(year, month, day)`. -/
def newDate (year month day : ℤ) : Resolving Date :=
  if 1 ≤ year ∧ year ≤ 9999 then .ok (Date.ofParts year month day)
  else .error (.valueError s!"year {year} is out of range")

/-! ## Windows -/

/-- `_start_of_day`: the wall clock of a midnight. -/
def startOfDay (d : Date) : ℤ := d.toOrdinal * microsPerDay

def nextMonth (first : Date) : Resolving Date :=
  if first.month = 12 then newDate (first.year + 1) 1 1 else newDate first.year (first.month + 1) 1

def previousMonth (first : Date) : Resolving Date :=
  if first.month = 1 then newDate (first.year - 1) 12 1 else newDate first.year (first.month - 1) 1

def resolveRelative (rel : String) (tz : ZoneInfo) (clock : ℤ) (now : Option Now) : Resolving (ℤ × ℤ) := do
  let nowLocal ← localNow tz clock now
  let today := dateOf nowLocal
  if rel = "today" then return (startOfDay today, startOfDay (← shift today 1))
  else if rel = "yesterday" then return (startOfDay (← shift today (-1)), startOfDay today)
  else if rel = "this_week" then
    let monday ← shift today (-today.weekday)
    return (startOfDay monday, startOfDay (← shift monday 7))
  else if rel = "last_week" then
    let monday ← shift today (-today.weekday)
    let lastMonday ← shift monday (-7)
    return (startOfDay lastMonday, startOfDay monday)
  else if rel = "this_month" then
    let first ← newDate today.year today.month 1
    return (startOfDay first, startOfDay (← nextMonth first))
  else if rel = "last_month" then
    let firstThis ← newDate today.year today.month 1
    let lastFirst ← previousMonth firstThis
    return (startOfDay lastFirst, startOfDay firstThis)
  else .error (.unknownLiteral rel)

def utcZone : ZoneInfo where
  fromutc := fun _ => 0
  utcoffset := fun _ => 0
  fromutc_bounds := fun _ => by decide +kernel
  utcoffset_bounds := fun _ => by decide +kernel

def safeZone (zones : String → Option ZoneInfo) (tzName : Option String) : ZoneInfo :=
  match tzName with
  | none => utcZone
  | some name => if name = "" then utcZone else (zones name).getD utcZone

/-- `wall.astimezone(timezone.utc)` for a wall clock of a zone. -/
def toUtc (tz : ZoneInfo) (wall : ℤ) : Resolving ℤ := checked (wall - tz.utcoffset wall)

def resolveRelativeBounds (zones : String → Option ZoneInfo) (clock : ℤ) (relative : String) (tzName : Option String)
    (now : Option Now) : Resolving (ℤ × ℤ) := do
  let tz := safeZone zones tzName
  let (startLocal, endLocal) ← resolveRelative relative tz clock now
  let startUtc ← toUtc tz startLocal
  let endUtc ← toUtc tz endLocal
  return (startUtc, endUtc)

end FavoniusBackend.Agent.TimeWindows
