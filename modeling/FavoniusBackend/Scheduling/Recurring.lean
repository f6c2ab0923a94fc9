import FavoniusBackend.Lib.Sql
import FavoniusBackend.Optimizer.Models

/-!
# Recurring schedule templates

`core/scheduling/recurring.py`: the expansion of daily templates into trips, and the tiebreak between
the expanded trips and the manually entered ones of the same vehicle and depot-local day.

An instant is a number of seconds since the epoch, a wall-clock reading is a number of seconds since
midnight of 1970-01-01 on the local clock, and a date is a number of days since then.  A time zone is
given by its two lookups in the IANA database.
-/

namespace FavoniusBackend.Scheduling.Recurring

open Lib Lib.Sql Optimizer.Models

/-! ### Time zones -/

/-- A `ZoneInfo`: the UTC offset at an instant, and the one of a wall-clock reading with `fold=0`. -/
structure ZoneInfo where
  offsetAt : ℚ → ℚ
  offsetOfWall : ℚ → ℚ

namespace ZoneInfo

/-- `ZoneInfo("UTC")`. -/
def utc : ZoneInfo := ⟨fun _ => 0, fun _ => 0⟩

variable (tz : ZoneInfo)

/-- `t.astimezone(tz)`, as a wall-clock reading. -/
def wallAt (t : ℚ) : ℚ := t + tz.offsetAt t

/-- `naive.replace(tzinfo=tz, fold=0).astimezone(ZoneInfo("UTC"))`. -/
def instantOf (wall : ℚ) : ℚ := wall - tz.offsetOfWall wall

/-- `t.astimezone(tz).date()`. -/
def localDate (t : ℚ) : ℤ := ⌊tz.wallAt t / 86400⌋

/-- `_is_nonexistent`: date, hour or minute change on the way to UTC and back. -/
def isNonexistent (wall : ℚ) : Bool :=
  decide (⌊tz.wallAt (tz.instantOf wall) / 60⌋ ≠ ⌊wall / 60⌋)

/-- The readings tried after a nonexistent one: up to 120 minutes later. -/
def steppedWalls (wall : ℚ) : List ℚ := (List.range 120).map fun (k : ℕ) => wall + 60 * ((k : ℚ) + 1)

def toUtc (date : ℤ) (timeOfDay : ℚ) : ℚ :=
  let wall := 86400 * (date : ℚ) + timeOfDay
  if tz.isNonexistent wall then
    tz.instantOf (((steppedWalls wall).find? fun w => !tz.isNonexistent w).getD wall)
  else tz.instantOf wall

end ZoneInfo

/-! ### Templates -/

inductive DayOfWeek
  | mon
  | tue
  | wed
  | thu
  | fri
  | sat
  | sun
  deriving DecidableEq, Repr

/-- `DAYS_OF_WEEK[date.weekday()]`; day 0 is a Thursday. -/
def weekday (date : ℤ) : DayOfWeek :=
  match (date + 3) % 7 with
  | 0 => .mon
  | 1 => .tue
  | 2 => .wed
  | 3 => .thu
  | 4 => .fri
  | 5 => .sat
  | _ => .sun

/-- `RecurringTemplate`; the times of day are seconds since midnight. -/
structure RecurringTemplate where
  templateId : String
  depotId : String
  vehicleId : VehicleId
  routeId : String
  departureTimeOfDay : ℚ
  returnTimeOfDay : ℚ
  daysOfWeek : List DayOfWeek
  startDate : ℤ
  endDate : Option ℤ
  requiredSoc : ℚ
  energyKwh : Option ℚ
  active : Bool
  createdAt : ℚ
  deriving DecidableEq, Repr

def RecurringTemplate.crossesMidnight (tpl : RecurringTemplate) : Bool :=
  decide (tpl.returnTimeOfDay ≤ tpl.departureTimeOfDay)

structure ScheduleCancellation where
  templateId : String
  occurrenceDate : ℤ
  deriving DecidableEq, Repr

structure Trip where
  vehicleId : VehicleId
  departureTime : ℚ
  returnTime : ℚ
  estimatedEnergyKwh : Option ℚ
  routeId : Option String
  deriving DecidableEq, Repr

/-- A row of `schedules`. -/
structure ManualRow where
  trip : Trip
  createdAt : ℚ
  deriving DecidableEq, Repr

/-- An expanded occurrence: the trip and the keys with an underscore. -/
structure RecurringRow where
  trip : Trip
  templateId : String
  createdAt : ℚ
  occurrenceDate : ℤ
  deriving DecidableEq, Repr

/-! ### Expansion -/

def RecurringTemplate.occursOn (tpl : RecurringTemplate) (cancelled : List ScheduleCancellation)
    (date : ℤ) : Bool :=
  tpl.active && decide (weekday date ∈ tpl.daysOfWeek) && decide (tpl.startDate ≤ date) &&
    tpl.endDate.all (fun last => decide (date ≤ last)) &&
    decide (ScheduleCancellation.mk tpl.templateId date ∉ cancelled)

def RecurringTemplate.occurrence (tpl : RecurringTemplate) (tz : ZoneInfo) (date : ℤ) : RecurringRow where
  trip :=
    { vehicleId := tpl.vehicleId
      departureTime := tz.toUtc date tpl.departureTimeOfDay
      returnTime := tz.toUtc (if tpl.crossesMidnight then date + 1 else date) tpl.returnTimeOfDay
      estimatedEnergyKwh := tpl.energyKwh
      routeId := some tpl.routeId }
  templateId := tpl.templateId
  createdAt := tpl.createdAt
  occurrenceDate := date

def walkDates (tz : ZoneInfo) (horizonStart horizonEnd : ℚ) : List ℤ :=
  let first := tz.localDate horizonStart - 1
  (List.range (tz.localDate horizonEnd - first + 1).toNat).map fun (k : ℕ) => first + (k : ℤ)

def expandRecurringTemplates (templates : List RecurringTemplate)
    (cancellations : List ScheduleCancellation) (tz : ZoneInfo) (horizonStart horizonEnd : ℚ) :
    List RecurringRow :=
  if horizonEnd ≤ horizonStart then []
  else
    (walkDates tz horizonStart horizonEnd).flatMap fun date =>
      ((templates.filter fun tpl => tpl.occursOn cancellations date).map
          fun tpl => tpl.occurrence tz date).filter fun row =>
        decide (horizonStart ≤ row.trip.departureTime) && decide (row.trip.departureTime < horizonEnd)

/-- **What the expansion yields**: the occurrences on walked dates that depart inside the horizon. -/
theorem mem_expandRecurringTemplates {templates : List RecurringTemplate}
    {cancellations : List ScheduleCancellation} {tz : ZoneInfo} {horizonStart horizonEnd : ℚ}
    {row : RecurringRow} :
    row ∈ expandRecurringTemplates templates cancellations tz horizonStart horizonEnd ↔
      ∃ tpl ∈ templates, ∃ date ∈ walkDates tz horizonStart horizonEnd,
        tpl.occursOn cancellations date = true ∧ row = tpl.occurrence tz date ∧
          horizonStart ≤ row.trip.departureTime ∧ row.trip.departureTime < horizonEnd := by
  unfold expandRecurringTemplates
  split
  · rename_i hempty
    refine ⟨fun h => absurd h List.not_mem_nil, ?_⟩
    rintro ⟨tpl, _, date, _, _, _, hlo, hhi⟩
    exact absurd (lt_of_le_of_lt hlo hhi) (not_lt.mpr hempty)
  · simp only [List.mem_flatMap, List.mem_filter, List.mem_map, Bool.and_eq_true, decide_eq_true_eq]
    refine ⟨?_, ?_⟩
    · rintro ⟨date, hdate, ⟨tpl, ⟨htpl, hocc⟩, rfl⟩, hlo, hhi⟩
      exact ⟨tpl, htpl, date, hdate, hocc, rfl, hlo, hhi⟩
    · rintro ⟨tpl, htpl, date, hdate, hocc, rfl, hlo, hhi⟩
      exact ⟨date, hdate, ⟨tpl, ⟨htpl, hocc⟩, rfl⟩, hlo, hhi⟩

/-! ### The tiebreak -/

/-- What both sources hold for one vehicle and one local date. -/
structure Bucket where
  manual : List ManualRow
  recurring : List RecurringRow
  deriving DecidableEq

def Bucket.empty : Bucket := ⟨[], []⟩

abbrev Buckets := Dict (VehicleId × ℤ) Bucket

def Buckets.addManual (tz : ZoneInfo) (buckets : Buckets) (row : ManualRow) : Buckets :=
  let key := (row.trip.vehicleId, tz.localDate row.trip.departureTime)
  let bucket := buckets.getD key .empty
  buckets.set key { bucket with manual := bucket.manual ++ [row] }

def Buckets.addRecurring (buckets : Buckets) (row : RecurringRow) : Buckets :=
  let key := (row.trip.vehicleId, row.occurrenceDate)
  let bucket := buckets.getD key .empty
  buckets.set key { bucket with recurring := bucket.recurring ++ [row] }

/-- The newer source wins, the manual one on equal times; a lone source is kept. -/
def Bucket.winner (bucket : Bucket) : List Trip :=
  match (bucket.manual.map ManualRow.createdAt).max?,
      (bucket.recurring.map RecurringRow.createdAt).max? with
  | some manualLatest, some recurringLatest =>
    if recurringLatest ≤ manualLatest then bucket.manual.map ManualRow.trip
    else bucket.recurring.map RecurringRow.trip
  | some _, none => bucket.manual.map ManualRow.trip
  | none, _ => bucket.recurring.map RecurringRow.trip

/-- The order of `merged.sort(key=lambda r: r["departure_time"])`. -/
def Trip.departsBefore (a b : Trip) : Prop := a.departureTime ≤ b.departureTime

instance : DecidableRel Trip.departsBefore :=
  fun a b => inferInstanceAs (Decidable (a.departureTime ≤ b.departureTime))

def mergeRecurringWithManual (manualRows : List ManualRow) (recurringRows : List RecurringRow)
    (tz : ZoneInfo) : List Trip :=
  let byKey := recurringRows.foldl Buckets.addRecurring
    (manualRows.foldl (Buckets.addManual tz) Dict.empty)
  orderBy Trip.departsBefore (byKey.values.flatMap Bucket.winner)

end FavoniusBackend.Scheduling.Recurring
