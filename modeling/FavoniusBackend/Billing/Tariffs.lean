import FavoniusBackend.Lib.Dict
import FavoniusBackend.Lib.Numeric
import FavoniusBackend.Lib.Sql
import FavoniusBackend.Lib.Stateful
import FavoniusBackend.Reports.Timing

/-!
# Tariffs

`set_tariff`, `calculate_transaction_cost` and `create_time_of_use_tariff` of `websocket_handler/tariff_manager.py`, over the
three tables of `websocket_handler/timescale_client.py`.

A call runs one statement after the other.  Each meets a `Reading`: the uuid that is drawn for its key, the clock, and
whether it raises, after it took effect or not.  A value of the data is `none` where it is missing or of no use.  Times are
in microseconds, with the days numbered as `date.toordinal` does; times of day are microseconds since midnight.
-/

namespace FavoniusBackend.Billing

open Lib
open Lib.Numeric
open Lib.Sql
open Lib.Stateful
open Reports (microsPerDay dateOf)

/-! ## Tables -/

abbrev TariffId := String

inductive TariffElementType where
  | energy
  | time
  | parking
  | power
  deriving DecidableEq, Repr

def TariffElementType.value : TariffElementType → String
  | .energy => "Energy"
  | .time => "Time"
  | .parking => "Parking"
  | .power => "Power"

/-- What an update of `tariffs` replaces. -/
structure Tariff where
  tariffCurrency : String
  tariffPriority : ℤ
  validFrom : Option ℤ
  validTo : Option ℤ
  deriving DecidableEq

/-- What an update of `tariff_elements` replaces. -/
structure TariffElement where
  elementType : TariffElementType
  pricePerUnit : ℚ
  unit : String
  validFrom : Option ℤ
  validTo : Option ℤ
  deriving DecidableEq

/-- What an update of `tou_periods` replaces. -/
structure TouPeriod where
  startTime : ℤ
  endTime : ℤ
  dayOfWeek : Option ℤ
  month : Option ℤ
  dayOfMonth : Option ℤ
  priceMultiplier : ℚ
  deriving DecidableEq

/-- A row: whose it is, when it was stored first, and what an update replaces. -/
structure Row (κ α : Type) where
  owner : κ
  createdAt : ℤ
  columns : α
  deriving DecidableEq

abbrev Table (κ α : Type) := Dict String (Row κ α)

abbrev StationId := String

structure TariffDb where
  tariffs : Table StationId Tariff
  tariffElements : Table TariffId TariffElement
  touPeriods : Table TariffId TouPeriod
  deriving DecidableEq

def TariffDb.empty : TariffDb := ⟨Dict.empty, Dict.empty, Dict.empty⟩

/-- `INSERT .. ON CONFLICT .. DO UPDATE`: the row that is there keeps its owner and its time. -/
def upsert {κ α : Type} (table : Table κ α) (id : String) (owner : κ) (createdAt : ℤ) (columns : α) : Table κ α :=
  match table.get? id with
  | some row => table.set id { row with columns := columns }
  | none => table.set id ⟨owner, createdAt, columns⟩

/-! ## Storing -/

/-- What a statement meets. -/
structure Reading where
  uuid : String
  now : ℤ
  raises : Option Bool
  deriving DecidableEq

def statement (r : Reading) (f : TariffDb → TariffDb) : Method TariffDb Unit Unit :=
  ExceptT.mk fun db =>
    match r.raises with
    | none => (.ok (), f db)
    | some true => (.error (), f db)
    | some false => (.error (), db)

def storeTariff (tariffId : TariffId) (stationId : StationId) (tariff : Tariff) (now : ℤ) (db : TariffDb) : TariffDb :=
  { db with tariffs := upsert db.tariffs tariffId stationId now tariff }

def storeTariffElement (elementId : String) (tariffId : TariffId) (element : TariffElement) (now : ℤ) (db : TariffDb) :
    TariffDb :=
  { db with tariffElements := upsert db.tariffElements elementId tariffId now element }

def storeTouPeriod (periodId : String) (tariffId : TariffId) (period : TouPeriod) (now : ℤ) (db : TariffDb) : TariffDb :=
  { db with touPeriods := upsert db.touPeriods periodId tariffId now period }

/-! ## `set_tariff` -/

structure ElementData where
  elementId : Option String
  type : Option TariffElementType
  pricePerUnit : Option (Option ℚ)
  unit : Option String
  validFrom : Option ℤ
  validTo : Option ℤ
  deriving DecidableEq

/-- A period of the data; a multiplier that is missing is one, and one that is no number is `some none`. -/
structure PeriodData where
  periodId : Option String
  name : Option String
  startTime : Option ℤ
  endTime : Option ℤ
  dayOfWeek : Option ℤ
  month : Option ℤ
  dayOfMonth : Option ℤ
  priceMultiplier : Option (Option ℚ)
  deriving DecidableEq

/-- Tariff data; an entry of the two lists that is no dict is `none`. -/
structure TariffData where
  tariffId : Option String
  currency : Option String
  priority : Option ℤ
  validFrom : Option ℤ
  validTo : Option ℤ
  elements : Option (List (Option ElementData))
  touPeriods : Option (List (Option PeriodData))
  deriving DecidableEq

inductive GenericStatus where
  | accepted
  | rejected
  deriving DecidableEq, Repr

/-- An id that is given; `None` and the empty text are none. -/
def givenId (id : Option String) : Option String := id.filter fun s => s ≠ ""

def validateTariffData (data : TariffData) : Bool :=
  match data.elements with
  | none => false
  | some elements =>
    elements.all (fun entry => entry.any fun e => e.type.isSome && e.pricePerUnit.isSome && e.unit.isSome) &&
      (data.touPeriods.getD []).all fun entry => entry.any fun p =>
        p.name.isSome && p.startTime.isSome && p.endTime.isSome

/-- The columns of an element, in `price_per_unit DECIMAL(10,4)` too; `none` where making or storing them raises. -/
def ElementData.columns (e : ElementData) : Option TariffElement := do
  let elementType ← e.type
  let price ← e.pricePerUnit
  let unit ← e.unit
  let pricePerUnit ← price.bind (numericColumn 10 4)
  return ⟨elementType, pricePerUnit, unit, e.validFrom, e.validTo⟩

/-- The columns of a period, with `price_multiplier DECIMAL(5,2)`. -/
def PeriodData.columns (p : PeriodData) : Option TouPeriod := do
  let startTime ← p.startTime
  let endTime ← p.endTime
  let priceMultiplier ← (p.priceMultiplier.getD (some 1)).bind (numericColumn 5 2)
  return ⟨startTime, endTime, p.dayOfWeek, p.month, p.dayOfMonth, priceMultiplier⟩

/-- A loop over the entries of the data, the readings from the one of this number. -/
def storeAll {α : Type} (readings : ℕ → Reading) (store : Reading → α → Method TariffDb Unit Unit) :
    ℕ → List α → Method TariffDb Unit Unit
  | _, [] => pure ()
  | n, entry :: rest => do
    store (readings n) entry
    storeAll readings store (n + 1) rest

/-- The turn of an entry: its columns are made, its id is taken or drawn, its row is stored. -/
def storeEntry {α β : Type} (id : α → Option String) (columns : α → Option β)
    (store : String → β → ℤ → TariffDb → TariffDb) (r : Reading) (entry : Option α) : Method TariffDb Unit Unit :=
  match entry.bind fun a => (columns a).map fun c => (a, c) with
  | none => attempt (.error ())
  | some (a, c) => statement r (store ((givenId (id a)).getD r.uuid) c r.now)

def storeElementEntry (tariffId : TariffId) : Reading → Option ElementData → Method TariffDb Unit Unit :=
  storeEntry ElementData.elementId ElementData.columns fun elementId element now =>
    storeTariffElement elementId tariffId element now

def storePeriodEntry (tariffId : TariffId) : Reading → Option PeriodData → Method TariffDb Unit Unit :=
  storeEntry PeriodData.periodId PeriodData.columns fun periodId period now =>
    storeTouPeriod periodId tariffId period now

def TariffData.tariff (data : TariffData) : Tariff :=
  ⟨data.currency.getD "USD", data.priority.getD 0, data.validFrom, data.validTo⟩

/-- `set_tariff`: the tariff, its elements, its periods. -/
def setTariff (stationId : StationId) (data : TariffData) (readings : ℕ → Reading) :
    Method TariffDb Unit GenericStatus :=
  recover
    (if validateTariffData data then do
      let tariffId := (givenId data.tariffId).getD (readings 0).uuid
      let elements := data.elements.getD []
      let periods := data.touPeriods.getD []
      statement (readings 0) (storeTariff tariffId stationId data.tariff (readings 0).now)
      storeAll readings (storeElementEntry tariffId) 1 elements
      storeAll readings (storePeriodEntry tariffId) (1 + elements.length) periods
      return .accepted
    else return .rejected)
    fun _ => pure .rejected

/-! ## Reading -/

def isValid (validFrom validTo : Option ℤ) (timestamp : ℤ) : Bool :=
  validFrom.all (fun t => t ≤ timestamp) && validTo.all fun t => timestamp < t

/-- `ORDER BY tariff_priority DESC, created_at DESC`. -/
def tariffOrder (a b : String × Row StationId Tariff) : Prop :=
  b.2.columns.tariffPriority < a.2.columns.tariffPriority ∨
    a.2.columns.tariffPriority = b.2.columns.tariffPriority ∧ b.2.createdAt ≤ a.2.createdAt

/-- `ORDER BY element_type, created_at`. -/
def elementOrder (a b : Row TariffId TariffElement) : Prop :=
  a.columns.elementType.value < b.columns.elementType.value ∨
    a.columns.elementType.value = b.columns.elementType.value ∧ a.createdAt ≤ b.createdAt

/-- An earlier day of the week; a period without one comes last. -/
def dayBefore : Option ℤ → Option ℤ → Bool
  | some a, some b => a < b
  | some _, none => true
  | none, _ => false

/-- `ORDER BY day_of_week, start_time`. -/
def periodOrder (a b : TouPeriod) : Prop :=
  dayBefore a.dayOfWeek b.dayOfWeek ∨ a.dayOfWeek = b.dayOfWeek ∧ a.startTime ≤ b.startTime

instance : DecidableRel tariffOrder := fun _ _ => inferInstanceAs (Decidable (_ ∨ _))

instance : DecidableRel elementOrder := fun _ _ => inferInstanceAs (Decidable (_ ∨ _))

instance : DecidableRel periodOrder := fun _ _ => inferInstanceAs (Decidable (_ ∨ _))

def getActiveTariffs (db : TariffDb) (stationId : StationId) (timestamp : ℤ) : List (TariffId × Row StationId Tariff) :=
  orderBy tariffOrder (db.tariffs.items.filter fun p =>
    p.2.owner = stationId && isValid p.2.columns.validFrom p.2.columns.validTo timestamp)

def rowsOf {α : Type} (table : Table TariffId α) (tariffId : TariffId) : List (Row TariffId α) :=
  table.values.filter fun row => row.owner = tariffId

def getTariffElements (db : TariffDb) (tariffId : TariffId) (timestamp : ℤ) : List TariffElement :=
  (orderBy elementOrder ((rowsOf db.tariffElements tariffId).filter fun row =>
    isValid row.columns.validFrom row.columns.validTo timestamp)).map Row.columns

def getTouPeriods (db : TariffDb) (tariffId : TariffId) : List TouPeriod :=
  orderBy periodOrder ((rowsOf db.touPeriods tariffId).map Row.columns)

/-- `timestamp.time()`. -/
def timeOf (timestamp : ℤ) : ℤ := timestamp % microsPerDay

def TouPeriod.onDate (period : TouPeriod) (date : Calendar.Date) : Bool :=
  period.dayOfWeek.all (fun d => d = date.weekday) && period.month.all (fun m => m = date.month) &&
    period.dayOfMonth.all fun d => d = date.day

/-- The test in the loop of `calculate_tou_multiplier`. -/
def TouPeriod.matchesAt (period : TouPeriod) (timestamp : ℤ) : Bool :=
  decide (period.startTime ≤ timeOf timestamp ∧ timeOf timestamp ≤ period.endTime) && period.onDate (dateOf timestamp)

def calculateTouMultiplier (periods : List TouPeriod) (timestamp : ℤ) : ℚ :=
  ((periods.find? fun period => period.matchesAt timestamp).map TouPeriod.priceMultiplier).getD 1

/-! ## `calculate_transaction_cost` -/

/-- What a transaction used. -/
structure Usage where
  energyKwh : ℚ
  durationSeconds : ℤ
  maxPowerKw : ℚ
  deriving DecidableEq

structure CostData where
  totalCost : ℚ
  currency : String
  costBreakdown : Dict String ℚ
  deriving DecidableEq

def elementCost (usage : Usage) (adjustedPrice : ℚ) (element : TariffElement) : Option (String × ℚ) :=
  if element.elementType = .energy ∧ element.unit = "kWh" then some ("energy_cost", usage.energyKwh * adjustedPrice)
  else if element.elementType = .time ∧ element.unit = "hour" then
    some ("time_cost", usage.durationSeconds / 3600 * adjustedPrice)
  else if element.elementType = .time ∧ element.unit = "minute" then
    some ("time_cost", usage.durationSeconds / 60 * adjustedPrice)
  else if element.elementType = .power ∧ element.unit = "kW" then some ("power_cost", usage.maxPowerKw * adjustedPrice)
  else none

def adjustedPrice (periods : List TouPeriod) (element : TariffElement) (timestamp : ℤ) : ℚ :=
  element.pricePerUnit * calculateTouMultiplier periods timestamp

/-- The loop over the elements; each reads the clock for itself, from the reading of this number. -/
def addElements (usage : Usage) (periods : List TouPeriod) (clock : ℕ → ℤ) :
    ℕ → List TariffElement → CostData → CostData
  | _, [], cost => cost
  | n, element :: rest, cost =>
    addElements usage periods clock (n + 1) rest
      (match elementCost usage (adjustedPrice periods element (clock n)) element with
      | some (entry, c) =>
        { cost with totalCost := cost.totalCost + c, costBreakdown := cost.costBreakdown.set entry c }
      | none => cost)

def costOf (usage : Usage) (currency : String) (elements : List TariffElement) (periods : List TouPeriod)
    (clock : ℕ → ℤ) : CostData :=
  addElements usage periods clock 2 elements ⟨0, currency, Dict.empty⟩

/-- The part of `calculate_transaction_cost` after a tariff is chosen. -/
def tariffCost (db : TariffDb) (usage : Usage) (clock : ℕ → ℤ) (tariffId : TariffId) (currency : String) : CostData :=
  costOf usage currency (getTariffElements db tariffId (clock 1)) (getTouPeriods db tariffId) clock

def calculateDefaultCost (usage : Usage) : CostData :=
  let energyCost := usage.energyKwh * (1 / 5)
  ⟨energyCost, "USD", Dict.empty.set "energy_cost" energyCost⟩

def calculateTransactionCost (db : TariffDb) (stationId : StationId) (usage : Usage) (clock : ℕ → ℤ) : CostData :=
  match getActiveTariffs db stationId (clock 0) with
  | [] => calculateDefaultCost usage
  | (tariffId, row) :: _ => tariffCost db usage clock tariffId row.columns.tariffCurrency

def costFor (db : TariffDb) (usage : Usage) (clock : ℕ → ℤ) (tariffId : TariffId) : Option CostData :=
  (db.tariffs.get? tariffId).map fun row => tariffCost db usage clock tariffId row.columns.tariffCurrency

theorem calculateTransactionCost_eq (db : TariffDb) (stationId : StationId) (usage : Usage) (clock : ℕ → ℤ) :
    calculateTransactionCost db stationId usage clock =
      (((getActiveTariffs db stationId (clock 0)).head?.bind fun p => costFor db usage clock p.1).getD
        (calculateDefaultCost usage)) := by
  unfold calculateTransactionCost
  cases hactive : getActiveTariffs db stationId (clock 0) with
  | nil => rfl
  | cons p rest =>
    obtain ⟨tariffId, row⟩ := p
    have hmem : (tariffId, row) ∈ getActiveTariffs db stationId (clock 0) := by
      rw [hactive]
      exact List.mem_cons_self
    have hrow : db.tariffs.get? tariffId = some row :=
      Dict.mem_items_iff.mp (List.mem_filter.mp (mem_orderBy.mp hmem)).1
    rw [List.head?_cons, Option.bind_some, costFor, hrow]
    rfl

/-! ## `create_time_of_use_tariff` -/

/-- `08:00:00` and the like. -/
def clockTime (hour minute second : ℤ) : ℤ := ((60 * hour + minute) * 60 + second) * 1000000

def touPeriod (startTime endTime dayOfWeek : ℤ) (name : String) (priceMultiplier : ℚ) : Option PeriodData :=
  some ⟨none, some name, some startTime, some endTime, some dayOfWeek, none, none, some (some priceMultiplier)⟩

/-- The periods of `create_time_of_use_tariff`. -/
def timeOfUsePeriods (peakPrice offPeakPrice : ℚ) : List (Option PeriodData) :=
  [touPeriod (clockTime 8 0 0) (clockTime 18 0 0) 1 "Peak" 1,
    touPeriod (clockTime 8 0 0) (clockTime 18 0 0) 2 "Peak" 1,
    touPeriod (clockTime 8 0 0) (clockTime 18 0 0) 3 "Peak" 1,
    touPeriod (clockTime 8 0 0) (clockTime 18 0 0) 4 "Peak" 1,
    touPeriod (clockTime 8 0 0) (clockTime 18 0 0) 5 "Peak" 1,
    touPeriod (clockTime 18 0 0) (clockTime 8 0 0) 1 "Off-Peak" (offPeakPrice / peakPrice),
    touPeriod (clockTime 18 0 0) (clockTime 8 0 0) 2 "Off-Peak" (offPeakPrice / peakPrice),
    touPeriod (clockTime 18 0 0) (clockTime 8 0 0) 3 "Off-Peak" (offPeakPrice / peakPrice),
    touPeriod (clockTime 18 0 0) (clockTime 8 0 0) 4 "Off-Peak" (offPeakPrice / peakPrice),
    touPeriod (clockTime 18 0 0) (clockTime 8 0 0) 5 "Off-Peak" (offPeakPrice / peakPrice),
    touPeriod (clockTime 0 0 0) (clockTime 23 59 59) 6 "Weekend" (offPeakPrice / peakPrice),
    touPeriod (clockTime 0 0 0) (clockTime 23 59 59) 0 "Weekend" (offPeakPrice / peakPrice)]

/-- The tariff data of `create_time_of_use_tariff`, under the uuid that it draws. -/
def timeOfUseTariff (tariffId : TariffId) (peakPrice offPeakPrice : ℚ) : TariffData where
  tariffId := some tariffId
  currency := some "USD"
  priority := some 1
  validFrom := none
  validTo := none
  elements := some [some ⟨none, some .energy, some (some peakPrice), some "kWh", none, none⟩]
  touPeriods := some (timeOfUsePeriods peakPrice offPeakPrice)

def createTimeOfUseTariff (stationId : StationId) (tariffId : TariffId) (peakPrice offPeakPrice : ℚ)
    (readings : ℕ → Reading) : Method TariffDb Unit GenericStatus :=
  setTariff stationId (timeOfUseTariff tariffId peakPrice offPeakPrice) readings

end FavoniusBackend.Billing
