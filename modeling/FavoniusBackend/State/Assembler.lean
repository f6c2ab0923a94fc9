import FavoniusBackend.Lib.Stateful
import FavoniusBackend.State.Database

/-!
# The state assembler

`StateAssembler` of `core/state/assembler.py`: the merge of VDV 463 requests into the schedules,
availability, departures and energy needs, building load, and `get_current_state`, which puts them
together and integrates the vehicles that other depots hand over.

The assembler is an object that lives as long as its controller.  It remembers the bidding zone and the
time zone of its site once they were looked up, keeps what the last assembly used, and holds the depot
configuration, into which `get_current_state` writes.
-/

namespace FavoniusBackend.State.Assembler

open Lib Lib.Numeric Lib.Stateful
open Lib.Guard Optimizer.Models
open Scheduling.Recurring State.Database

/-! ### The object -/

inductive BuildingLoadSource
  | absent
  | staticAssumption
  | forecastFallback
  | meter
  deriving DecidableEq, Repr

/-- A schedule entry after the merge. -/
structure MergedTrip where
  vehicleId : VehicleId
  returnTime : ℚ
  departureTime : ℚ
  estimatedEnergyKwh : ℚ
  deriving DecidableEq, Repr

/-- The fields `get_current_state` reads and writes; a cache is `none` before its first lookup. -/
structure StateAssembler where
  depotId : String
  config : DepotConfig
  biddingZoneCache : Option (Option String) := none
  depotTimezoneCache : Option ZoneInfo := none
  lastBuildingLoadSource : BuildingLoadSource := .absent
  lastSchedules : List MergedTrip := []
  lastSchedulesPresent : Bool := false
  lastHorizon : Option (ℚ × ℚ) := none

/-- `StateAssembler(pools, depot_id, config)`. -/
def StateAssembler.init (depotId : String) (config : DepotConfig) : StateAssembler :=
  { depotId := depotId, config := config }

abbrev AssemblyMethod := Method StateAssembler AssemblyError

/-! ### Steps of the horizon -/

/-- `timedelta(hours=config.delta_t)`. -/
def stepLength (config : DepotConfig) : ℚ := timedelta (config.deltaT * 3600)

def stepTime (config : DepotConfig) (start : ℚ) (t : ℕ) : ℚ := start + t * stepLength config

/-- The times of `range(n_steps)`; a negative count is an empty range. -/
def stepTimes (config : DepotConfig) (start : ℚ) (nSteps : ℤ) : List ℚ :=
  (List.range nSteps.toNat).map (stepTime config start)

theorem length_stepTimes (config : DepotConfig) (start : ℚ) (nSteps : ℤ) :
    (stepTimes config start nSteps).length = nSteps.toNat := by
  rw [stepTimes, List.length_map, List.length_range]

/-! ### Prices -/

/-- The zone to price with; `none` when the lookup failed, which is not remembered. -/
def cachedBiddingZone (env : Environment) : AssemblyMethod (Option (Option String)) := do
  match ← field StateAssembler.biddingZoneCache with
  | some zone => return some zone
  | none =>
    if env.fails .biddingZone then return none
    let zone := resolveBiddingZone env
    modify fun self => { self with biddingZoneCache := some zone }
    return some zone

def zonePrices (env : Environment) (config : DepotConfig) (zone : Option String) (start stop : ℚ)
    (nSteps : ℤ) : List ℚ :=
  match zone with
  | none => List.replicate nSteps.toNat defaultPriceKwh
  | some zone =>
    if zone = "" ∨ env.fails .prices ∨ (env.priceMap zone start stop).keys = [] then
      List.replicate nSteps.toNat defaultPriceKwh
    else (stepTimes config start nSteps).map (stepPrice (env.priceMap zone start stop))

def getPrices (env : Environment) (start stop : ℚ) (nSteps : ℤ) : AssemblyMethod (List ℚ) := do
  let config ← field StateAssembler.config
  let zone ← cachedBiddingZone env
  return zonePrices env config zone.join start stop nSteps

theorem length_zonePrices (env : Environment) (config : DepotConfig) (zone : Option String)
    (start stop : ℚ) (nSteps : ℤ) :
    (zonePrices env config zone start stop nSteps).length = nSteps.toNat := by
  unfold zonePrices
  split
  · rw [List.length_replicate]
  · split
    · rw [List.length_replicate]
    · rw [List.length_map, length_stepTimes]

/-! ### Schedules -/

/-- `_get_depot_timezone`; unlike the bidding zone, a failed lookup is remembered as UTC. -/
def getDepotTimezone (env : Environment) : AssemblyMethod ZoneInfo := do
  match ← field StateAssembler.depotTimezoneCache with
  | some tz => return tz
  | none =>
    let tz := if env.fails .depotTimezone then .utc else siteTimezone env
    modify fun self => { self with depotTimezoneCache := some tz }
    return tz

def getSchedules (env : Environment) (start stop : ℚ) : AssemblyMethod (List Trip) := do
  let depotId ← field StateAssembler.depotId
  let manual ← attempt (env.query .schedules (manualSchedules env depotId start stop))
  let templates := horizonTemplates env depotId start stop
  if templates = [] then return manual.map ManualRow.trip
  let tz ← getDepotTimezone env
  let cancellations := horizonCancellations env templates start stop
  return mergeRecurringWithManual manual
    (expandRecurringTemplates templates cancellations tz start stop) tz

/-- What `_merge_vdv463_into_schedules` builds. -/
structure Merged where
  scheduleByVehicle : Dict VehicleId MergedTrip
  departureSocMin : Dict VehicleId ℚ := Dict.empty
  departureSocMax : Dict VehicleId ℚ := Dict.empty
  priorities : Dict VehicleId ℤ := Dict.empty
  preconditioningRequests : List PreconditioningRequest := []

def Merged.schedules (m : Merged) : List MergedTrip := m.scheduleByVehicle.values

/-- The entry of a trip; a missing or zero energy counts as 100 kWh. -/
def scheduleEntry (trip : Trip) : VehicleId × MergedTrip :=
  (trip.vehicleId,
    ⟨trip.vehicleId, trip.returnTime, trip.departureTime, orDefault trip.estimatedEnergyKwh 100⟩)

/-- Percentages are turned into fractions. -/
def normalizeSoc (soc : ℚ) : ℚ := if soc ≤ 1 then soc else soc / 100

/-- `d[vid] = value` when there is a value. -/
def setIfSome {ν : Type} (d : Dict VehicleId ν) (vid : VehicleId) (value : Option ν) :
    Dict VehicleId ν :=
  match value with
  | some v => d.set vid v
  | none => d

def preconditioningOf (r : Vdv463Row) (departure : ℚ) : Option PreconditioningRequest :=
  match r.preconditioningType with
  | some .manual =>
    match r.preconditioningStart, r.hvacAuxPower with
    | some start, some watts =>
      some ⟨some r.vehicleId, some (.aware start), some (.aware departure), some (watts / 1000)⟩
    | _, _ => none
  | some .automatic =>
    match r.requestedFinishTime, r.ambientTemperature with
    | some finish, some ambient =>
      -- three minutes for each degree below 18
      let durationMin := max 0 ((18 - ambient) * 3)
      some ⟨some r.vehicleId, some (.aware (finish - timedelta (durationMin * 60))),
        some (.aware finish), some 10⟩
    | _, _ => none
  | _ => none

/-- One request of the loop; without both times it is skipped. -/
def mergeRequest (m : Merged) (r : Vdv463Row) : Merged :=
  match r.expectedArrival, r.requestedDeparture with
  | some arrival, some departure =>
    { scheduleByVehicle :=
        m.scheduleByVehicle.set r.vehicleId ⟨r.vehicleId, arrival, departure, 100⟩
      departureSocMin := setIfSome m.departureSocMin r.vehicleId (r.minTargetSoc.map normalizeSoc)
      departureSocMax := setIfSome m.departureSocMax r.vehicleId (r.maxTargetSoc.map normalizeSoc)
      priorities := setIfSome m.priorities r.vehicleId r.priority
      preconditioningRequests :=
        m.preconditioningRequests ++ (preconditioningOf r departure).toList }
  | _, _ => m

def mergeVdv463IntoSchedules (schedules : List Trip) (requests : List Vdv463Row) : Merged :=
  requests.foldl mergeRequest { scheduleByVehicle := Dict.ofList (schedules.map scheduleEntry) }

def onRoute (sched : MergedTrip) (time : ℚ) : Bool :=
  decide (sched.departureTime ≤ time) && decide (time < sched.returnTime)

/-- One schedule of the availability loop; a vehicle without an entry is ignored. -/
def markTrip (config : DepotConfig) (start : ℚ) (availability : Dict VehicleId (List Bool))
    (sched : MergedTrip) : Dict VehicleId (List Bool) :=
  match availability.get? sched.vehicleId with
  | none => availability
  | some steps => availability.set sched.vehicleId
      (steps.mapIdx fun t free => free && !onRoute sched (stepTime config start t))

def computeAvailability (config : DepotConfig) (schedules : List MergedTrip) (start : ℚ) (nSteps : ℤ) :
    Dict VehicleId (List Bool) :=
  schedules.foldl (markTrip config start) (Dict.ofList
    (config.vehicleCapacities.keys.map fun vid => (vid, List.replicate nSteps.toNat true)))

def noteDeparture (config : DepotConfig) (start : ℚ) (departures : Dict VehicleId ℤ)
    (sched : MergedTrip) : Dict VehicleId ℤ :=
  let tIdx := pyInt ((sched.departureTime - start) / stepLength config)
  match departures.get? sched.vehicleId with
  | some earliest => if tIdx < earliest then departures.set sched.vehicleId tIdx else departures
  | none => departures.set sched.vehicleId tIdx

/-- `_compute_departure_times`; dividing by a zero step is an error. -/
def computeDepartureTimes (config : DepotConfig) (schedules : List MergedTrip) (start : ℚ) :
    Except AssemblyError (Dict VehicleId ℤ) := do
  require (schedules = [] ∨ stepLength config ≠ 0) .zeroDivisionError
  return schedules.foldl (noteDeparture config start) Dict.empty

/-- `_compute_energy_requirements`: the first trip of each vehicle counts. -/
def computeEnergyRequirements (schedules : List MergedTrip) : Dict VehicleId ℚ :=
  schedules.foldl (fun requirements sched =>
    if sched.vehicleId ∈ requirements then requirements
    else requirements.set sched.vehicleId (orDefault (some sched.estimatedEnergyKwh) 100)) Dict.empty

/-! ### Building load -/

/-- The meter reading for one step: exact, else the closest within 30 minutes, else the last one. -/
def meterPower (powerMap : Dict ℚ ℚ) (lastPower time : ℚ) : ℚ :=
  match powerMap.get? time with
  | some power => power
  | none =>
    match closestKey powerMap time with
    | some k => if |k - time| < 1800 then powerMap.getD k lastPower else lastPower
    | none => lastPower

/-- The loop over the steps with `last_power`. -/
def meterPowers (powerMap : Dict ℚ ℚ) : ℚ → List ℚ → List ℚ
  | _, [] => []
  | lastPower, time :: rest =>
    let power := meterPower powerMap lastPower time
    power :: meterPowers powerMap power rest

theorem length_meterPowers (powerMap : Dict ℚ ℚ) (times : List ℚ) :
    ∀ lastPower, (meterPowers powerMap lastPower times).length = times.length := by
  induction times with
  | nil =>
    intro lastPower
    rfl
  | cons time rest ih =>
    intro lastPower
    rw [meterPowers, List.length_cons, List.length_cons, ih]

/-- The business-hours pattern of `_get_building_power_forecast`. -/
def forecastPower (time : ℚ) : ℚ :=
  let hour := ⌊time / 3600⌋ % 24
  if 8 ≤ hour ∧ hour < 18 then 50 + (hour - 8) * 3 else 20

/-- `_get_building_power`: the series and its source.  Both logged averages divide by its length. -/
def buildingPowerSeries (env : Environment) (depotId : String) (config : DepotConfig) (start stop : ℚ)
    (nSteps : ℤ) : BuildingLoadSource × Except AssemblyError (List ℚ) :=
  let averaged (series : List ℚ) : Except AssemblyError (List ℚ) :=
    if series = [] then .error .zeroDivisionError else .ok series
  let rows := Sql.orderBy (fun a b => a.time ≤ b.time) (env.buildingLoad.filter fun r =>
    r.depotId == depotId && decide (start ≤ r.time) && decide (r.time < stop))
  if 0 < config.buildingLoadAssumptionKw then
    (.staticAssumption, .ok (List.replicate nSteps.toNat 0))
  else if env.fails .buildingLoad ∨ rows = [] then
    (.forecastFallback, averaged ((stepTimes config start nSteps).map forecastPower))
  else
    (.meter, averaged (meterPowers (Dict.ofList (rows.map fun r => (r.time, r.powerKw))) 0
      (stepTimes config start nSteps)))

def getBuildingPower (env : Environment) (start stop : ℚ) (nSteps : ℤ) : AssemblyMethod (List ℚ) := do
  let depotId ← field StateAssembler.depotId
  let config ← field StateAssembler.config
  let series := buildingPowerSeries env depotId config start stop nSteps
  modify fun self => { self with lastBuildingLoadSource := series.1 }
  attempt series.2

theorem length_buildingPowerSeries {env : Environment} {depotId : String} {config : DepotConfig}
    {start stop : ℚ} {nSteps : ℤ} {series : List ℚ}
    (h : (buildingPowerSeries env depotId config start stop nSteps).2 = .ok series) :
    series.length = nSteps.toNat := by
  unfold buildingPowerSeries at h
  simp only at h
  split at h
  · cases h
    rw [List.length_replicate]
  · split at h
    · simp only at h
      split at h
      · cases h
      · cases h
        rw [List.length_map, length_stepTimes]
    · simp only at h
      split at h
      · cases h
      · cases h
        rw [length_meterPowers, length_stepTimes]

/-! ### Incoming vehicles -/

/-- The parts of the state that the integration loop changes. -/
structure Integration where
  vehicleSocs : Dict VehicleId ℚ
  config : DepotConfig
  availability : Dict VehicleId (List Bool)

/-- `d[k] = v` if `k` is not in `d`. -/
def setDefault {ν : Type} (d : Dict VehicleId ν) (vid : VehicleId) (value : ν) : Dict VehicleId ν :=
  if vid ∈ d then d else d.set vid value

def arrivalTimestep (config : DepotConfig) (now : ℚ) (row : HandoffRow) : ℤ :=
  pyInt ((row.arrivalTime - now) / (config.deltaT * 3600))

/-- One incoming vehicle: its SoC, its entries in the configuration unless present, and its
availability from the arrival on, when that is one of the steps. -/
def integrateIncoming (now : ℚ) (nSteps : ℤ) (s : Integration) (row : HandoffRow) : Integration where
  vehicleSocs := s.vehicleSocs.set row.vehicleId row.expectedSoc
  config :=
    { s.config with
      vehicleCapacities := setDefault s.config.vehicleCapacities row.vehicleId row.batteryKwh
      vehicleMaxChargeKw := setDefault s.config.vehicleMaxChargeKw row.vehicleId row.maxChargeKw }
  availability :=
    let arrival := arrivalTimestep s.config now row
    if 0 ≤ arrival ∧ arrival < nSteps then
      s.availability.set row.vehicleId
        ((s.availability.getD row.vehicleId (List.replicate nSteps.toNat false)).mapIdx
          fun t _ => decide (arrival ≤ (t : ℤ)))
    else s.availability

/-! ### The current state -/

/-- The SoCs of the telemetry, with 0.5 for every configured vehicle that has none. -/
def withDefaultSocs (config : DepotConfig) (telemetrySocs : Dict VehicleId ℚ) : Dict VehicleId ℚ :=
  let vehicleSocs :=
    if telemetrySocs.keys = [] then
      Dict.ofList (config.vehicleCapacities.keys.map fun vid => (vid, 1 / 2))
    else telemetrySocs
  let missing := config.vehicleCapacities.keys.filter fun vid => decide (vid ∉ vehicleSocs)
  missing.foldl (fun socs vid => socs.set vid (1 / 2)) vehicleSocs

def horizonEnd (now horizonHours : ℚ) : ℚ := now + timedelta (horizonHours * 3600)

/-- `n_steps = int(horizon_hours / delta_t)`. -/
def horizonSteps (config : DepotConfig) (horizonHours : ℚ) : ℤ := pyInt (horizonHours / config.deltaT)

/-- `_get_battery_soc`. -/
def batterySoc : ℚ := 1 / 2

def getCurrentState (env : Environment) (horizonHours : ℚ) : AssemblyMethod DepotState := do
  attempt (require (0 < horizonHours ∧ horizonHours ≤ 48) (.horizonHours horizonHours))
  let depotId ← field StateAssembler.depotId
  let config ← field StateAssembler.config
  let now := env.now
  let stop := horizonEnd now horizonHours
  attempt (require (config.deltaT ≠ 0) .zeroDivisionError)
  let nSteps := horizonSteps config horizonHours
  let telemetrySocs ← attempt (getVehicleSocs env depotId)
  let vehicleSocs := withDefaultSocs config telemetrySocs
  let prices ← getPrices env now stop nSteps
  let schedules ← getSchedules env now stop
  modify fun self => { self with lastSchedulesPresent := !schedules.isEmpty }
  let requests ← attempt (getVdv463ChargingRequests env depotId now stop)
  let merged := mergeVdv463IntoSchedules schedules requests
  let availability := computeAvailability config merged.schedules now nSteps
  let departureTimes ← attempt (computeDepartureTimes config merged.schedules now)
  let currentMonthPeak ← attempt (getCurrentMonthPeak env)
  let demandChargeRate ← attempt (getDemandChargeRate env)
  let cumulativeKwhPeriod :=
    if config.tariffType = .energyCap then getCumulativeKwhPeriod env config else 0
  let buildingPower ← getBuildingPower env now stop nSteps
  modify fun self =>
    { self with lastHorizon := some (now, stop), lastSchedules := merged.schedules }
  let incoming := incomingRows env depotId now stop
  let integrated := incoming.foldl (integrateIncoming now nSteps) ⟨vehicleSocs, config, availability⟩
  modify fun self => { self with config := integrated.config }
  return {
    vehicleSocs := integrated.vehicleSocs
    batterySoc := batterySoc
    prices := prices
    demandChargeRate := demandChargeRate
    currentMonthPeak := currentMonthPeak
    vehicleAvailability := integrated.availability
    energyRequirements := computeEnergyRequirements merged.schedules
    departureTimes := departureTimes
    buildingPower := buildingPower
    incomingVehicles := getIncomingVehicles env depotId now stop
    vehicleDepartureSocMin := merged.departureSocMin
    vehicleDepartureSocMax := merged.departureSocMax
    vehiclePriorities := merged.priorities
    preconditioningRequests := merged.preconditioningRequests
    cumulativeKwhPeriod := cumulativeKwhPeriod }

/-! ### What an assembly returns -/

def integrated (env : Environment) (horizonHours : ℚ) (self : StateAssembler)
    (telemetrySocs : Dict VehicleId ℚ) (schedules : List MergedTrip) : Integration :=
  let nSteps := horizonSteps self.config horizonHours
  (incomingRows env self.depotId env.now (horizonEnd env.now horizonHours)).foldl
    (integrateIncoming env.now nSteps)
    ⟨withDefaultSocs self.config telemetrySocs, self.config,
      computeAvailability self.config schedules env.now nSteps⟩

theorem exec_getPrices {env : Environment} {start stop : ℚ} {nSteps : ℤ} {self self' : StateAssembler}
    {prices : List ℚ} (h : exec (getPrices env start stop nSteps) self = (.ok prices, self')) :
    prices.length = nSteps.toNat ∧ ∃ zone, self' = { self with biddingZoneCache := zone } := by
  unfold getPrices at h
  rw [exec_field_bind, exec_bind_eq_ok] at h
  obtain ⟨zone, self₁, hzone, h⟩ := h
  cases h
  refine ⟨length_zonePrices env _ zone.join start stop nSteps, ?_⟩
  unfold cachedBiddingZone at hzone
  rw [exec_field_bind] at hzone
  split at hzone
  · cases hzone
    exact ⟨self.biddingZoneCache, rfl⟩
  · split at hzone
    · cases hzone
      exact ⟨self.biddingZoneCache, rfl⟩
    · cases hzone
      exact ⟨some (resolveBiddingZone env), rfl⟩

theorem length_getBuildingPower {env : Environment} {start stop : ℚ} {nSteps : ℤ}
    {self self' : StateAssembler} {series : List ℚ}
    (h : exec (getBuildingPower env start stop nSteps) self = (.ok series, self')) :
    series.length = nSteps.toNat := by
  unfold getBuildingPower at h
  rw [exec_field_bind, exec_field_bind, exec_modify_bind, exec_attempt] at h
  exact length_buildingPowerSeries (congrArg Prod.fst h)

/-- What a returned state was made of: the telemetry, the trips of `_get_schedules` and the requests. -/
structure AssembledFrom (env : Environment) (horizonHours : ℚ) (assembler : StateAssembler)
    (state : DepotState) (config : DepotConfig) (telemetrySocs : Dict VehicleId ℚ) (trips : List Trip)
    (requests : List Vdv463Row) : Prop where
  socs_ok : getVehicleSocs env assembler.depotId = .ok telemetrySocs
  schedules_ok : ∃ zone after, exec (getSchedules env env.now (horizonEnd env.now horizonHours))
    { assembler with biddingZoneCache := zone } = (.ok trips, after)
  requests_ok : getVdv463ChargingRequests env assembler.depotId env.now
    (horizonEnd env.now horizonHours) = .ok requests
  vehicleSocs : state.vehicleSocs = (integrated env horizonHours assembler telemetrySocs
    (mergeVdv463IntoSchedules trips requests).schedules).vehicleSocs
  availability : state.vehicleAvailability = (integrated env horizonHours assembler telemetrySocs
    (mergeVdv463IntoSchedules trips requests).schedules).availability
  config_eq : config = (integrated env horizonHours assembler telemetrySocs
    (mergeVdv463IntoSchedules trips requests).schedules).config
  prices_length : state.prices.length = (horizonSteps assembler.config horizonHours).toNat
  building_power_length : state.buildingPower.length =
    (horizonSteps assembler.config horizonHours).toNat
  incoming : state.incomingVehicles = getIncomingVehicles env assembler.depotId env.now
    (horizonEnd env.now horizonHours)
  preconditioning : state.preconditioningRequests =
    (mergeVdv463IntoSchedules trips requests).preconditioningRequests

/-- **A returned state** comes from the telemetry, the schedules and the requests by the integration
loop, and its two series have one entry for each step of the horizon. -/
theorem assembled_of_ok {env : Environment} {horizonHours : ℚ} {self self' : StateAssembler}
    {state : DepotState} (h : exec (getCurrentState env horizonHours) self = (.ok state, self')) :
    ∃ telemetrySocs trips requests,
      AssembledFrom env horizonHours self state self'.config telemetrySocs trips requests := by
  unfold getCurrentState at h
  obtain ⟨_, _, h⟩ := (exec_attempt_bind_eq_ok _ _ _ _ _).mp h
  rw [exec_field_bind, exec_field_bind] at h
  obtain ⟨_, _, h⟩ := (exec_attempt_bind_eq_ok _ _ _ _ _).mp h
  obtain ⟨telemetrySocs, hsocs, h⟩ := (exec_attempt_bind_eq_ok _ _ _ _ _).mp h
  obtain ⟨prices, _, hprices, h⟩ := (exec_bind_eq_ok _ _ _ _ _).mp h
  obtain ⟨hlength, zone, rfl⟩ := exec_getPrices hprices
  obtain ⟨trips, after, htrips, h⟩ := (exec_bind_eq_ok _ _ _ _ _).mp h
  rw [exec_modify_bind] at h
  obtain ⟨requests, hrequests, h⟩ := (exec_attempt_bind_eq_ok _ _ _ _ _).mp h
  obtain ⟨_, _, h⟩ := (exec_attempt_bind_eq_ok _ _ _ _ _).mp h
  obtain ⟨_, _, h⟩ := (exec_attempt_bind_eq_ok _ _ _ _ _).mp h
  obtain ⟨_, _, h⟩ := (exec_attempt_bind_eq_ok _ _ _ _ _).mp h
  obtain ⟨buildingPower, _, hbuilding, h⟩ := (exec_bind_eq_ok _ _ _ _ _).mp h
  rw [exec_modify_bind, exec_modify_bind] at h
  cases h
  exact ⟨telemetrySocs, trips, requests, hsocs, ⟨zone, after, htrips⟩, hrequests, rfl, rfl, rfl,
    hlength, length_getBuildingPower hbuilding, rfl, rfl⟩

end FavoniusBackend.State.Assembler
