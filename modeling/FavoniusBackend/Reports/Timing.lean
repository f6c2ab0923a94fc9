import FavoniusBackend.Lib.Calendar

/-!
# When a report schedule fires, and what a run covers

`api/report_schedule_timing.py`.  A cadence is a day and a time in the zone of the depot; `computeNextRunAt` finds the
first instant after a given one at which it fires, and `computeReportPeriod` the dates that a run covers.

An instant is a number of microseconds, and so is a wall clock: the number of its date and the time of day.  A zone gives
the offset at an instant and the offset that it takes a wall clock to have, which at a transition is the earlier one.
-/

namespace FavoniusBackend.Reports

open Lib.Calendar

/-! ## Zones and wall clocks -/

def microsPerMinute : ℤ := 60000000

def microsPerDay : ℤ := 86400000000

/-- `ZoneInfo`: an offset is strictly between a day back and a day ahead. -/
structure ZoneInfo where
  fromutc : ℤ → ℤ
  utcoffset : ℤ → ℤ
  fromutc_bounds : ∀ u, -microsPerDay < fromutc u ∧ fromutc u < microsPerDay
  utcoffset_bounds : ∀ wall, -microsPerDay < utcoffset wall ∧ utcoffset wall < microsPerDay

theorem zero_within_day : -microsPerDay < 0 ∧ 0 < microsPerDay := by
  decide

/-- An aware datetime: an instant and the wall clock of its zone there. -/
structure DateTime where
  utc : ℤ
  wall : ℤ

def astimezone (tz : ZoneInfo) (u : ℤ) : DateTime := ⟨u, u + tz.fromutc u⟩

def dateOf (wall : ℤ) : Date := Date.ofOrdinal (wall / microsPerDay)

/-- `datetime.time` of a schedule: hours and minutes. -/
structure TimeOfDay where
  hour : ℤ
  minute : ℤ
  hour_valid : 0 ≤ hour ∧ hour ≤ 23
  minute_valid : 0 ≤ minute ∧ minute ≤ 59
  deriving DecidableEq

def TimeOfDay.micros (t : TimeOfDay) : ℤ := (60 * t.hour + t.minute) * microsPerMinute

def localizeToUtc (year month day : ℤ) (t : TimeOfDay) (tz : ZoneInfo) : ℤ :=
  let wall := ordinal year month day * microsPerDay + t.micros
  wall - tz.utcoffset wall

/-! ## The next run -/

inductive Frequency where
  | weekly
  | monthly
  | quarterly
  deriving DecidableEq, Repr

def Frequency.text : Frequency → String
  | .weekly => "weekly"
  | .monthly => "monthly"
  | .quarterly => "quarterly"

/-- `day_of_month BETWEEN 1 AND 28`. -/
abbrev DayOfMonth := { day : ℤ // 1 ≤ day ∧ day ≤ 28 }

/-- The message of a `ScheduleValidationError`. -/
abbrev ScheduleValidationError := String

def quarterMonths : List ℤ := [1, 4, 7, 10]

def resolveTimezone (zones : String → Option ZoneInfo) (tzName : String) : Except ScheduleValidationError ZoneInfo :=
  match zones tzName with
  | some tz => .ok tz
  | none => .error ("Unknown timezone '" ++ tzName ++ "'")

def specDowToPython (dayOfWeek : Fin 7) : ℤ := ((dayOfWeek : ℤ) - 1) % 7

def nextWeekly (now : DateTime) (dayOfWeek : Fin 7) (t : TimeOfDay) (tz : ZoneInfo) : ℤ :=
  let daysAhead := (specDowToPython dayOfWeek - (dateOf now.wall).weekday) % 7
  let candidateDate := dateOf (now.wall + daysAhead * microsPerDay)
  let candidate := localizeToUtc candidateDate.year candidateDate.month candidateDate.day t tz
  if candidate ≤ now.utc then
    let candidateDate := candidateDate.addDays 7
    localizeToUtc candidateDate.year candidateDate.month candidateDate.day t tz
  else candidate

/-- The loop of `_next_by_month`. -/
def scanMonths (nowUtc : ℤ) (dayOfMonth : ℤ) (t : TimeOfDay) (tz : ZoneInfo) (allowedMonths : Option (List ℤ)) :
    ℕ → ℤ → ℤ → Except ScheduleValidationError ℤ
  | 0, _, _ => .error "Could not compute next run within horizon"
  | n + 1, year, month =>
    let candidate := localizeToUtc year month dayOfMonth t tz
    if (∀ months ∈ allowedMonths, month ∈ months) ∧ nowUtc < candidate then .ok candidate
    else scanMonths nowUtc dayOfMonth t tz allowedMonths n (nextMonth year month).1 (nextMonth year month).2

def nextByMonth (now : DateTime) (dayOfMonth : ℤ) (t : TimeOfDay) (tz : ZoneInfo) (allowedMonths : Option (List ℤ)) :
    Except ScheduleValidationError ℤ :=
  scanMonths now.utc dayOfMonth t tz allowedMonths 60 (dateOf now.wall).year (dateOf now.wall).month

def computeNextRunAt (zones : String → Option ZoneInfo) (nowUtc : ℤ) (frequency : Frequency) (timeOfDay : TimeOfDay)
    (tzName : String) (dayOfMonth : Option DayOfMonth) (dayOfWeek : Option (Fin 7)) :
    Except ScheduleValidationError ℤ := do
  let tz ← resolveTimezone zones tzName
  let now := astimezone tz nowUtc
  match frequency with
  | .weekly =>
    match dayOfWeek with
    | none => .error "weekly schedules require dayOfWeek"
    | some dayOfWeek => .ok (nextWeekly now dayOfWeek timeOfDay tz)
  | frequency =>
    match dayOfMonth with
    | none => .error (frequency.text ++ " schedules require dayOfMonth")
    | some dayOfMonth =>
      nextByMonth now dayOfMonth timeOfDay tz (if frequency = .monthly then none else some quarterMonths)

/-! ## The period of a run -/

/-- `previous_month_bounds`: the first and the last day. -/
def previousMonthBounds (now : DateTime) : Date × Date :=
  let today := dateOf now.wall
  let firstOfThisMonth := Date.ofParts today.year today.month 1
  let lastOfPrev := firstOfThisMonth.addDays (-1)
  (Date.ofParts lastOfPrev.year lastOfPrev.month 1, lastOfPrev)

def lastDayOfMonth (year month : ℤ) : ℤ :=
  let nxt := if month = 12 then Date.ofParts (year + 1) 1 1 else Date.ofParts year (month + 1) 1
  (nxt.addDays (-1)).day

def computeReportPeriod (frequency : Frequency) (now : DateTime) : Date × Date :=
  match frequency with
  | .monthly => previousMonthBounds now
  | .weekly =>
    let endDate := dateOf (now.wall - microsPerDay)
    (endDate.addDays (-6), endDate)
  | .quarterly =>
    let today := dateOf now.wall
    let qIndex := (today.month - 1) / 3
    let prevYear := if qIndex = 0 then today.year - 1 else today.year
    let prevQ := if qIndex = 0 then 3 else qIndex - 1
    let startMonth := prevQ * 3 + 1
    let endMonth := startMonth + 2
    (Date.ofParts prevYear startMonth 1, Date.ofParts prevYear endMonth (lastDayOfMonth prevYear endMonth))

/-! ## Cadences -/

/-- The columns of a schedule that say when it fires, with the constraint `report_schedules_cadence_ck`. -/
structure Cadence where
  frequency : Frequency
  dayOfMonth : Option DayOfMonth
  dayOfWeek : Option (Fin 7)
  timeOfDay : TimeOfDay
  cadence_ck : if frequency = .weekly then dayOfWeek.isSome ∧ dayOfMonth = none
    else dayOfMonth.isSome ∧ dayOfWeek = none
  deriving DecidableEq

/-- `compute_next_run_at` on the columns. -/
def Cadence.nextRunAt (c : Cadence) (zones : String → Option ZoneInfo) (tzName : String) (nowUtc : ℤ) :
    Except ScheduleValidationError ℤ :=
  computeNextRunAt zones nowUtc c.frequency c.timeOfDay tzName c.dayOfMonth c.dayOfWeek

def Cadence.FiresOn (c : Cadence) (d : Date) : Prop :=
  match c.frequency with
  | .weekly => ∃ dayOfWeek ∈ c.dayOfWeek, (d.weekday + 1) % 7 = (dayOfWeek : ℤ)
  | .monthly => ∃ day ∈ c.dayOfMonth, d.day = (day : ℤ)
  | .quarterly => (∃ day ∈ c.dayOfMonth, d.day = (day : ℤ)) ∧ d.month ∈ quarterMonths

def Cadence.instantOn (c : Cadence) (tz : ZoneInfo) (d : Date) : ℤ :=
  localizeToUtc d.year d.month d.day c.timeOfDay tz

def Cadence.Occurs (c : Cadence) (tz : ZoneInfo) (s : ℤ) : Prop := ∃ d, c.FiresOn d ∧ s = c.instantOn tz d

end FavoniusBackend.Reports
