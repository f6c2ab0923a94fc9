import FavoniusBackend.Lib.Guard
import FavoniusBackend.Lib.Numeric
import FavoniusBackend.Scheduling.Recurring

/-!
# What the state assembler reads

The tables and the other sources behind `StateAssembler`, as they stand at one assembly, and the
queries over them (`core/state/assembler.py`, `db/queries.py`).

`fails` says which queries raise a `PostgresError` in this assembly.  Prices come from
`fetch_or_pull_prices_by_zone`, which may ask an outside service, so the map it returns is part of the
environment; so are the answers of the two aggregate queries over the calendar month.  All times are
timezone-aware, hence instants.
-/

namespace FavoniusBackend.State.Database

open Lib Lib.Sql Lib.Numeric Lib.Guard
open Optimizer.Models Scheduling.Recurring

/-- The queries of one assembly; each may fail on its own. -/
inductive Query
  | vehicleIds
  | vehicleSocs
  | biddingZone
  | prices
  | schedules
  | depotTimezone
  | vdv463Requests
  | monthPeak
  | demandKw
  | demandChargeRate
  | chargers
  | periodEnergy
  | buildingLoad
  | incomingVehicles
  deriving DecidableEq, Repr

inductive AssemblyError
  | horizonHours (got : ℚ)
  | zeroDivisionError
  | postgresError (query : Query)
  deriving DecidableEq, Repr

/-! ### Rows -/

structure VehicleRow where
  id : VehicleId
  siteId : String
  externalId : Option String
  deriving DecidableEq, Repr

/-- A row of `telemetry` or `vehicle_telemetry`. -/
structure SocRow where
  vehicleId : Option VehicleId
  soc : Option ℚ
  time : ℚ
  deriving DecidableEq, Repr

/-- The row of `sites`; `entsoeZone` is the stripped text in `tariff_config`, if there is one. -/
structure SiteRow where
  timezone : Option String
  entsoeZone : Option String
  demandChargeRateKw : Option ℚ
  deriving DecidableEq, Repr

structure BuildingLoadRow where
  depotId : String
  time : ℚ
  powerKw : ℚ
  deriving DecidableEq, Repr

inductive HandoffStatus
  | pending
  | acknowledged
  | arrived
  deriving DecidableEq, Repr

/-- A row of `interdepot_messages`. -/
structure HandoffRow where
  vehicleId : VehicleId
  destDepotId : String
  originDepotId : String
  status : HandoffStatus
  arrivalTime : ℚ
  expectedSoc : ℚ
  batteryKwh : ℚ
  maxChargeKw : ℚ
  deriving DecidableEq, Repr

inductive RequestStatus
  | active
  | completed
  | terminated
  deriving DecidableEq, Repr

inductive PreconditioningType
  | manual
  | automatic
  | other
  deriving DecidableEq, Repr

/-- A row of `vdv463_charging_requests`; `hvacAuxPower` is in watts. -/
structure Vdv463Row where
  depotId : String
  vehicleId : VehicleId
  status : RequestStatus
  expectedArrival : Option ℚ
  requestedDeparture : Option ℚ
  minTargetSoc : Option ℚ
  maxTargetSoc : Option ℚ
  priority : Option ℤ
  preconditioningType : Option PreconditioningType
  preconditioningStart : Option ℚ
  ambientTemperature : Option ℚ
  requestedFinishTime : Option ℚ
  hvacAuxPower : Option ℤ
  deriving DecidableEq, Repr

/-- Everything one assembly can see. -/
structure Environment where
  now : ℚ
  fails : Query → Bool
  vehicles : List VehicleRow
  telemetry : List SocRow
  /-- `none` when migration 044 has not created the table. -/
  vehicleTelemetry : Option (List SocRow)
  site : Option SiteRow
  /-- `TIMEZONE_TO_BIDDING_ZONE`. -/
  biddingZoneOf : String → Option String
  /-- `ZoneInfo(name)`; `none` is `ZoneInfoNotFoundError`. -/
  zoneInfo : String → Option ZoneInfo
  /-- `fetch_or_pull_prices_by_zone`: zone, start, end. -/
  priceMap : String → ℚ → ℚ → Dict ℚ ℚ
  schedules : List ManualRow
  templates : List RecurringTemplate
  cancellations : List ScheduleCancellation
  /-- `none` when the table does not exist. -/
  vdv463Requests : Option (List Vdv463Row)
  /-- The highest `peak_demand_kw` of the depot's runs in this month. -/
  monthPeak : Option ℚ
  /-- The most recent `prices.demand_kw` of the depot. -/
  latestDemandKw : Option ℚ
  /-- The depot's charging stations. -/
  chargerIds : List String
  /-- The energy these chargers delivered since the month began. -/
  periodEnergyKwh : Option ℚ
  buildingLoad : List BuildingLoadRow
  handoffs : List HandoffRow

def Environment.query (env : Environment) {α : Type} (q : Query) (rows : α) : Except AssemblyError α :=
  if env.fails q then .error (.postgresError q) else .ok rows

theorem query_eq_ok {env : Environment} {α : Type} {q : Query} {rows a : α}
    (h : env.query q rows = .ok a) : rows = a := by
  unfold Environment.query at h
  split at h
  · cases h
  · exact Except.ok.inj h

/-- `timedelta(seconds=..)`: whole microseconds, halves to even. -/
def timedelta (seconds : ℚ) : ℚ := quantize 6 seconds

/-- Python's `value or default` for a number that may be missing. -/
def orDefault (value : Option ℚ) (default : ℚ) : ℚ :=
  match value with
  | some q => if q = 0 then default else q
  | none => default

/-! ### State of charge -/

/-- A row of the merged feed; the charger's own telemetry has priority 0. -/
structure SocReading where
  vehicleId : VehicleId
  soc : ℚ
  time : ℚ
  srcPriority : ℕ
  deriving DecidableEq, Repr

/-- `ORDER BY vehicle_id, time DESC, src_priority`. -/
def SocReading.le (a b : SocReading) : Prop :=
  a.vehicleId < b.vehicleId ∨ a.vehicleId = b.vehicleId ∧
    (b.time < a.time ∨ a.time = b.time ∧ a.srcPriority ≤ b.srcPriority)

instance : DecidableRel SocReading.le := fun a b => inferInstanceAs (Decidable
  (a.vehicleId < b.vehicleId ∨ a.vehicleId = b.vehicleId ∧
    (b.time < a.time ∨ a.time = b.time ∧ a.srcPriority ≤ b.srcPriority)))

def socReading (vehicleIds : List VehicleId) (recencyFloor : ℚ) (srcPriority : ℕ) (row : SocRow) :
    Option SocReading :=
  match row.vehicleId, row.soc with
  | some vid, some soc =>
    if vid ∈ vehicleIds ∧ recencyFloor < row.time then some ⟨vid, soc, row.time, srcPriority⟩ else none
  | _, _ => none

/-- `fetch_freshest_vehicle_socs`; without the second table only the first feed is read. -/
def fetchFreshestVehicleSocs (env : Environment) (vehicleIds : List VehicleId) (recencyFloor : ℚ) :
    List SocReading :=
  distinctOn SocReading.vehicleId [] (orderBy SocReading.le
    (env.telemetry.filterMap (socReading vehicleIds recencyFloor 0) ++
      (env.vehicleTelemetry.getD []).filterMap (socReading vehicleIds recencyFloor 1)))

def Environment.vehicleIds (env : Environment) (depotId : String) : List VehicleId :=
  (env.vehicles.filter fun v => v.siteId == depotId).map VehicleRow.id

def getVehicleSocs (env : Environment) (depotId : String) :
    Except AssemblyError (Dict VehicleId ℚ) := do
  let vehicleIds ← env.query .vehicleIds (env.vehicleIds depotId)
  if vehicleIds = [] then return Dict.empty
  let rows ← env.query .vehicleSocs
    (fetchFreshestVehicleSocs env vehicleIds (env.now - 24 * 3600))
  return Dict.ofList (rows.map fun r => (r.vehicleId, r.soc))

/-- A vehicle of the depot whose SoC was reported within the last day. -/
def HasReading (env : Environment) (depotId : String) (vid : VehicleId) : Prop :=
  vid ∈ env.vehicleIds depotId ∧
    ∃ row ∈ env.telemetry ++ env.vehicleTelemetry.getD [],
      row.vehicleId = some vid ∧ row.soc.isSome = true ∧ env.now - 24 * 3600 < row.time

theorem mem_filterMap_socReading {vehicleIds : List VehicleId} {recencyFloor : ℚ} {srcPriority : ℕ}
    {rows : List SocRow} {vid : VehicleId} :
    (∃ r ∈ rows.filterMap (socReading vehicleIds recencyFloor srcPriority), r.vehicleId = vid) ↔
      vid ∈ vehicleIds ∧ ∃ row ∈ rows, row.vehicleId = some vid ∧ row.soc.isSome = true ∧
        recencyFloor < row.time := by
  simp only [List.mem_filterMap]
  refine ⟨?_, ?_⟩
  · rintro ⟨r, ⟨row, hrow, hr⟩, rfl⟩
    unfold socReading at hr
    split at hr
    · rename_i v soc hv hsoc
      split at hr
      · rename_i hcond
        cases hr
        exact ⟨hcond.1, row, hrow, hv, by rw [hsoc]; rfl, hcond.2⟩
      · cases hr
    · cases hr
  · rintro ⟨hvid, row, hrow, hv, hsoc, htime⟩
    obtain ⟨soc, hsoc⟩ := Option.isSome_iff_exists.mp hsoc
    refine ⟨⟨vid, soc, row.time, srcPriority⟩, ⟨row, hrow, ?_⟩, rfl⟩
    unfold socReading
    rw [hv, hsoc]
    exact if_pos ⟨hvid, htime⟩

theorem exists_mem_freshest {env : Environment} {depotId : String} {vid : VehicleId} :
    (∃ r ∈ fetchFreshestVehicleSocs env (env.vehicleIds depotId) (env.now - 24 * 3600),
      r.vehicleId = vid) ↔ HasReading env depotId vid := by
  unfold fetchFreshestVehicleSocs HasReading
  refine ⟨?_, ?_⟩
  · rintro ⟨r, hr, hvid⟩
    have hmem := mem_orderBy.mp (mem_distinctOn _ r _ _ hr).1
    rcases List.mem_append.mp hmem with h | h
    · obtain ⟨hid, row, hrow, hrest⟩ := mem_filterMap_socReading.mp ⟨r, h, hvid⟩
      exact ⟨hid, row, List.mem_append_left _ hrow, hrest⟩
    · obtain ⟨hid, row, hrow, hrest⟩ := mem_filterMap_socReading.mp ⟨r, h, hvid⟩
      exact ⟨hid, row, List.mem_append_right _ hrow, hrest⟩
  · rintro ⟨hid, row, hrow, hrest⟩
    have hreading : ∃ r ∈ env.telemetry.filterMap
          (socReading (env.vehicleIds depotId) (env.now - 24 * 3600) 0) ++
        (env.vehicleTelemetry.getD []).filterMap
          (socReading (env.vehicleIds depotId) (env.now - 24 * 3600) 1), r.vehicleId = vid := by
      rcases List.mem_append.mp hrow with h | h
      · obtain ⟨r, hr, hv⟩ := mem_filterMap_socReading.mpr ⟨hid, row, h, hrest⟩
        exact ⟨r, List.mem_append_left _ hr, hv⟩
      · obtain ⟨r, hr, hv⟩ := mem_filterMap_socReading.mpr ⟨hid, row, h, hrest⟩
        exact ⟨r, List.mem_append_right _ hr, hv⟩
    obtain ⟨r, hr, hv⟩ := hreading
    have hsorted : r ∈ orderBy SocReading.le _ := mem_orderBy.mpr hr
    obtain ⟨b, hb, hkey⟩ :=
      exists_mem_distinctOn SocReading.vehicleId r _ [] hsorted List.not_mem_nil
    exact ⟨b, hb, hkey.trans hv⟩

/-- **The SoC query.**  When it returns, its keys are the vehicles with a reading. -/
theorem mem_getVehicleSocs {env : Environment} {depotId : String} {socs : Dict VehicleId ℚ}
    (h : getVehicleSocs env depotId = .ok socs) (vid : VehicleId) :
    vid ∈ socs ↔ HasReading env depotId vid := by
  unfold getVehicleSocs at h
  rw [bind_eq_ok] at h
  obtain ⟨vehicleIds, hids, h⟩ := h
  have hids' : env.vehicleIds depotId = vehicleIds := query_eq_ok hids
  subst hids'
  split at h
  · rename_i hnil
    cases h
    refine ⟨fun hmem => absurd hmem (Dict.not_mem_empty vid), ?_⟩
    intro hread
    have hmem := hread.1
    rw [hnil] at hmem
    exact absurd hmem List.not_mem_nil
  · rw [bind_eq_ok] at h
    obtain ⟨rows, hrows, h⟩ := h
    have hrows' := query_eq_ok hrows
    subst hrows'
    cases h
    rw [Dict.mem_ofList, ← exists_mem_freshest, List.map_map, List.mem_map]
    rfl

/-! ### Prices -/

def resolveBiddingZone (env : Environment) : Option String :=
  match env.site with
  | none => none
  | some site =>
    match site.entsoeZone with
    | some zone => some zone
    | none =>
      match site.timezone with
      | some tz => if tz = "" then none else env.biddingZoneOf tz
      | none => none

def defaultPriceKwh : ℚ := 3 / 20

def closestKey (d : Dict ℚ ℚ) (t : ℚ) : Option ℚ := d.keys.argmin fun k => |k - t|

def stepPrice (priceMap : Dict ℚ ℚ) (stepTime : ℚ) : ℚ :=
  let hourFloor : ℚ := 3600 * ⌊stepTime / 3600⌋
  match priceMap.get? hourFloor with
  | some price => price
  | none =>
    match closestKey priceMap hourFloor with
    | some k => if |k - hourFloor| < 3600 then priceMap.getD k defaultPriceKwh else defaultPriceKwh
    | none => defaultPriceKwh

/-! ### Schedules and requests -/

/-- The manual rows of `_get_schedules`: trips of the depot's vehicles that depart in `[start, end)`. -/
def manualSchedules (env : Environment) (depotId : String) (start stop : ℚ) : List ManualRow :=
  orderBy (fun a b => a.trip.departureTime ≤ b.trip.departureTime)
    (env.schedules.filter fun s =>
      decide (s.trip.vehicleId ∈ env.vehicleIds depotId) && decide (start ≤ s.trip.departureTime) &&
        decide (s.trip.departureTime < stop))

/-- `date()` of an instant in UTC. -/
def utcDate (t : ℚ) : ℤ := ⌊t / 86400⌋

/-- The templates of `fetch_recurring_horizon_data`, padded by a day on each side. -/
def horizonTemplates (env : Environment) (depotId : String) (start stop : ℚ) : List RecurringTemplate :=
  env.templates.filter fun tpl =>
    tpl.depotId == depotId && tpl.active && decide (tpl.startDate ≤ utcDate stop + 1) &&
      tpl.endDate.all fun last => decide (utcDate start - 1 ≤ last)

def horizonCancellations (env : Environment) (templates : List RecurringTemplate) (start stop : ℚ) :
    List ScheduleCancellation :=
  env.cancellations.filter fun c =>
    decide (c.templateId ∈ templates.map RecurringTemplate.templateId) &&
      decide (utcDate start - 1 ≤ c.occurrenceDate) && decide (c.occurrenceDate ≤ utcDate stop + 1)

/-- The zone that `sites.timezone` names; UTC when it is missing or unknown. -/
def siteTimezone (env : Environment) : ZoneInfo :=
  match env.site.bind SiteRow.timezone with
  | some name => if name = "" then .utc else (env.zoneInfo name).getD .utc
  | none => .utc

/-- The order of the requests; a missing arrival does not pass the where clause. -/
def Vdv463Row.le (a b : Vdv463Row) : Prop := a.expectedArrival.getD 0 ≤ b.expectedArrival.getD 0

instance : DecidableRel Vdv463Row.le :=
  fun a b => inferInstanceAs (Decidable (a.expectedArrival.getD 0 ≤ b.expectedArrival.getD 0))

/-- `_get_vdv463_charging_requests`: active requests whose window overlaps `[start, end]`. -/
def getVdv463ChargingRequests (env : Environment) (depotId : String) (start stop : ℚ) :
    Except AssemblyError (List Vdv463Row) :=
  match env.vdv463Requests with
  | none => .ok []
  | some rows => env.query .vdv463Requests (orderBy Vdv463Row.le (rows.filter fun r =>
    r.depotId == depotId && decide (r.status = .active) &&
      r.requestedDeparture.any (fun departure => decide (start ≤ departure)) &&
      r.expectedArrival.any fun arrival => decide (arrival ≤ stop)))

/-! ### Demand, energy and handoffs -/

def getCurrentMonthPeak (env : Environment) : Except AssemblyError ℚ :=
  env.query .monthPeak (orDefault env.monthPeak 0)

/-- `_get_demand_charge_rate`: the latest price row, then the site, then 20 per kW. -/
def getDemandChargeRate (env : Environment) : Except AssemblyError ℚ := do
  match ← env.query .demandKw env.latestDemandKw with
  | some rate => return rate
  | none =>
    let rate ← env.query .demandChargeRate (env.site.bind SiteRow.demandChargeRateKw)
    return rate.getD 20

/-- `_get_cumulative_kwh_period`; every error falls back to the cap. -/
def getCumulativeKwhPeriod (env : Environment) (config : DepotConfig) : ℚ :=
  if env.fails .chargers then config.energyCapKwh.getD 0
  else if env.chargerIds = [] then 0
  else if env.fails .periodEnergy then config.energyCapKwh.getD 0
  else env.periodEnergyKwh.getD 0

def externalId (env : Environment) (vid : VehicleId) : String :=
  match (Dict.ofList (env.vehicles.map fun v => (v.id, v.externalId))).getD vid none with
  | some name => if name = "" then "vehicle_" ++ vid else name
  | none => "vehicle_" ++ vid

def HandoffRow.toIncoming (env : Environment) (row : HandoffRow) : IncomingVehicle where
  vehicleId := row.vehicleId
  externalId := externalId env row.vehicleId
  expectedSoc := row.expectedSoc
  arrivalTime := .aware row.arrivalTime
  batteryKwh := row.batteryKwh
  maxChargeKw := row.maxChargeKw
  originDepotId := row.originDepotId

/-- The where clause of `_get_incoming_vehicles`. -/
def HandoffRow.isIncoming (depotId : String) (start stop : ℚ) (row : HandoffRow) : Bool :=
  row.destDepotId == depotId && decide (start ≤ row.arrivalTime) && decide (row.arrivalTime < stop) &&
    decide (row.status = .pending ∨ row.status = .acknowledged)

def incomingRows (env : Environment) (depotId : String) (start stop : ℚ) : List HandoffRow :=
  if env.fails .incomingVehicles then []
  else orderBy (fun a b => a.arrivalTime ≤ b.arrivalTime)
    (env.handoffs.filter (HandoffRow.isIncoming depotId start stop))

def getIncomingVehicles (env : Environment) (depotId : String) (start stop : ℚ) :
    List IncomingVehicle :=
  (incomingRows env depotId start stop).map (HandoffRow.toIncoming env)

end FavoniusBackend.State.Database
