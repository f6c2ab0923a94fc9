import FavoniusBackend.State.Assembler

/-!
# Readiness and the input snapshot

`core/state/readiness.py`: the readiness report of a configuration and a state, the snapshot taken of
both before a run, and the payload stored for it.

A payload is JSON.  Numbers and time stamps that are written as text can be read back from it, so they
are kept as they are; dicts are compared without regard to order.  Weather features and recent telemetry
are passed through and no further looked at (`Json`).
-/

namespace FavoniusBackend.State.Readiness

open Lib Optimizer.Models State.Assembler

/-! ### The report -/

inductive ReadinessStatus
  | ready
  | degraded
  | notReady
  deriving DecidableEq, Repr

inductive MissingInput
  | vehicles
  | chargers
  | prices
  | schedules
  | chargerVehicleAccess
  deriving DecidableEq, Repr

inductive DegradedReason
  | buildingLoadMeterUnavailable
  | buildingLoadStaticAssumption
  | telemetryAllDefaulted
  deriving DecidableEq, Repr

structure BuildingLoadAssumption where
  source : BuildingLoadSource
  valueKw : Option ℚ
  note : String
  deriving DecidableEq, Repr

/-- The assumptions; of the telemetry, the vehicles whose SoC is the default. -/
structure Assumptions where
  buildingLoad : Option BuildingLoadAssumption
  telemetry : Option (List VehicleId)
  deriving DecidableEq, Repr

structure ReadinessReport where
  status : ReadinessStatus
  missingInputs : List MissingInput
  degradedReasons : List DegradedReason
  assumptions : Assumptions
  buildingLoadSource : BuildingLoadSource
  deriving DecidableEq, Repr

def totalChargers (config : DepotConfig) : ℤ := (config.chargerGroups.items.map Prod.snd).sum

def missingInputs (config : DepotConfig) (state : DepotState) (schedulesPresent : Bool) :
    List MissingInput :=
  (if config.vehicleCapacities.keys = [] then [MissingInput.vehicles] else []) ++
    (if config.chargerGroups.keys = [] ∨ totalChargers config = 0 then [MissingInput.chargers] else []) ++
    (if state.prices = [] then [MissingInput.prices] else []) ++
    (if schedulesPresent then [] else [MissingInput.schedules]) ++
    (if config.chargerVehicleAccessDefault ≠ .allToAll ∧ config.chargerVehicleAccess.keys = [] then
      [MissingInput.chargerVehicleAccess] else [])

def buildingLoadDegradation (config : DepotConfig) :
    BuildingLoadSource → Option (DegradedReason × BuildingLoadAssumption)
  | .forecastFallback => some (.buildingLoadMeterUnavailable,
      ⟨.forecastFallback, none, "meter data missing; substituted business-hours forecast pattern"⟩)
  | .staticAssumption => some (.buildingLoadStaticAssumption,
      ⟨.staticAssumption, some config.buildingLoadAssumptionKw,
        "no live meter/forecast source configured; depot-level static derate applied to max_grid_kw"⟩)
  | .absent => some (.buildingLoadMeterUnavailable,
      ⟨.absent, none, "no building-load source available; treated as forecast fallback"⟩)
  | .meter => none

def defaultedTelemetry (state : DepotState) : Option (List VehicleId) :=
  let defaulted := (state.vehicleSocs.items.filter fun e => decide (e.2 = 1 / 2)).map Prod.fst
  if defaulted ≠ [] ∧ defaulted.length = state.vehicleSocs.items.length then some defaulted else none

def evaluateReadiness (config : DepotConfig) (state : DepotState)
    (buildingLoadSource : BuildingLoadSource) (schedulesPresent : Bool) : ReadinessReport :=
  let missing := missingInputs config state schedulesPresent
  let building := buildingLoadDegradation config buildingLoadSource
  let telemetry := defaultedTelemetry state
  let degraded := (building.map Prod.fst).toList ++
    (telemetry.map fun _ => DegradedReason.telemetryAllDefaulted).toList
  { status := if missing ≠ [] then .notReady else if degraded ≠ [] then .degraded else .ready
    missingInputs := missing
    degradedReasons := degraded
    assumptions := ⟨building.map Prod.snd, telemetry⟩
    buildingLoadSource := buildingLoadSource }

/-! ### The snapshot -/

structure DepotPayload where
  depotId : String
  maxSitePowerKw : ℚ
  buildingLoadAssumptionKw : ℚ
  deltaTHours : ℚ
  nTimesteps : ℕ
  deriving DecidableEq, Repr

structure VehiclePayload where
  vehicleId : VehicleId
  batteryKwh : Option ℚ
  maxChargeKw : Option ℚ
  currentSoc : Option ℚ
  energyRequirementKwh : Option ℚ
  departureTimestep : Option ℤ
  departureSocMin : Option ℚ
  departureSocMax : Option ℚ
  priority : Option ℤ
  deriving DecidableEq, Repr

structure ChargersPayload where
  groups : Dict ℚ ℤ
  efficiency : ℚ
  total : ℤ

structure AccessPayload where
  mode : ChargerVehicleAccessDefault
  matrix : Dict String (List VehicleId)

structure BuildingLoadPayload where
  source : BuildingLoadSource
  valuesKw : List ℚ
  averageKw : ℚ
  nTimesteps : ℕ
  assumptionKw : ℚ
  deriving DecidableEq, Repr

structure Versions where
  code : Option String
  solver : Option String
  surrogateModel : Option String
  deriving DecidableEq, Repr

/-- What a snapshot is taken of besides configuration and state. -/
structure SnapshotContext (Json : Type) where
  depotId : String
  organizationId : Option String
  horizonStart : Stamp
  horizonEnd : Stamp
  schedules : List MergedTrip
  weatherFeatures : List Json
  weatherForecastId : Option String
  recentTelemetry : List Json
  readiness : ReadinessReport
  versions : Versions

structure OptimizationInputSnapshot (Json : Type) where
  depotId : String
  organizationId : Option String
  horizonStart : Stamp
  horizonEnd : Stamp
  readiness : ReadinessReport
  depot : DepotPayload
  vehicles : List VehiclePayload
  chargers : ChargersPayload
  chargerVehicleAccess : AccessPayload
  schedules : List MergedTrip
  prices : List ℚ
  telemetry : Dict VehicleId ℚ
  buildingLoad : BuildingLoadPayload
  weatherFeatures : List Json
  weatherForecastId : Option String
  incomingVehicles : List IncomingVehicle
  recentTelemetry : List Json
  versions : Versions
  payloadSchema : String := "v1"

def vehiclePayload (config : DepotConfig) (state : DepotState) (vid : VehicleId) : VehiclePayload where
  vehicleId := vid
  batteryKwh := config.vehicleCapacities.get? vid
  maxChargeKw := config.vehicleMaxChargeKw.get? vid
  currentSoc := state.vehicleSocs.get? vid
  energyRequirementKwh := state.energyRequirements.get? vid
  departureTimestep := state.departureTimes.get? vid
  departureSocMin := state.vehicleDepartureSocMin.get? vid
  departureSocMax := state.vehicleDepartureSocMax.get? vid
  priority := state.vehiclePriorities.get? vid

def vehiclesPayload (config : DepotConfig) (state : DepotState) : List VehiclePayload :=
  (config.vehicleCapacities.keys.insertionSort (· ≤ ·)).map (vehiclePayload config state)

/-- In `all_to_all` mode the matrix is left empty. -/
def accessPayload (config : DepotConfig) : AccessPayload :=
  match config.chargerVehicleAccessDefault with
  | .allToAll => ⟨.allToAll, Dict.empty⟩
  | .explicitMatrix => ⟨.explicitMatrix, Dict.ofList (config.chargerVehicleAccess.items.map fun e =>
    (e.1, e.2.insertionSort (· ≤ ·)))⟩

def buildSnapshot {Json : Type} (ctx : SnapshotContext Json) (config : DepotConfig)
    (state : DepotState) : OptimizationInputSnapshot Json where
  depotId := ctx.depotId
  organizationId := ctx.organizationId
  horizonStart := ctx.horizonStart
  horizonEnd := ctx.horizonEnd
  readiness := ctx.readiness
  depot :=
    { depotId := ctx.depotId
      maxSitePowerKw := config.maxSitePower
      buildingLoadAssumptionKw := config.buildingLoadAssumptionKw
      deltaTHours := config.deltaT
      nTimesteps := state.buildingPower.length }
  vehicles := vehiclesPayload config state
  chargers := ⟨config.chargerGroups, config.chargerEfficiency, totalChargers config⟩
  chargerVehicleAccess := accessPayload config
  schedules := ctx.schedules
  prices := state.prices
  telemetry := state.vehicleSocs
  buildingLoad :=
    { source := ctx.readiness.buildingLoadSource
      valuesKw := state.buildingPower
      averageKw :=
        if state.buildingPower.length = 0 then 0
        else state.buildingPower.sum / state.buildingPower.length
      nTimesteps := state.buildingPower.length
      assumptionKw := config.buildingLoadAssumptionKw }
  weatherFeatures := ctx.weatherFeatures
  weatherForecastId := if ctx.weatherFeatures.isEmpty then none else ctx.weatherForecastId
  incomingVehicles := state.incomingVehicles
  recentTelemetry := ctx.recentTelemetry
  versions := ctx.versions

/-! ### The payload -/

structure Payload (Json : Type) where
  schema : String
  depot : DepotPayload
  organizationId : Option String
  horizon : Stamp × Stamp
  readiness : ReadinessReport
  vehicles : List VehiclePayload
  chargers : ChargersPayload
  chargerVehicleAccess : AccessPayload
  schedules : List MergedTrip
  prices : List ℚ
  telemetry : Dict VehicleId ℚ
  buildingLoad : BuildingLoadPayload
  weatherFeatures : List Json
  weatherForecastId : Option String
  incomingVehicles : List IncomingVehicle
  recentTelemetry : List Json
  versions : Versions

def snapshotToPayload {Json : Type} (snapshot : OptimizationInputSnapshot Json) : Payload Json where
  schema := snapshot.payloadSchema
  depot := snapshot.depot
  organizationId := snapshot.organizationId
  horizon := (snapshot.horizonStart, snapshot.horizonEnd)
  readiness := snapshot.readiness
  vehicles := snapshot.vehicles
  chargers := snapshot.chargers
  chargerVehicleAccess := snapshot.chargerVehicleAccess
  schedules := snapshot.schedules
  prices := snapshot.prices
  telemetry := snapshot.telemetry
  buildingLoad := snapshot.buildingLoad
  weatherFeatures := snapshot.weatherFeatures
  weatherForecastId := snapshot.weatherForecastId
  incomingVehicles := snapshot.incomingVehicles
  recentTelemetry := snapshot.recentTelemetry
  versions := snapshot.versions

/-- `a == b` for dicts: the same keys with the same values. -/
def SameDict {κ ν : Type} [DecidableEq κ] (a b : Dict κ ν) : Prop := ∀ k, a.get? k = b.get? k

/-- The same payload, up to the ids of depot, organization and forecast. -/
structure SamePayload {Json : Type} (p q : Payload Json) : Prop where
  schema : p.schema = q.schema
  depot : p.depot = { q.depot with depotId := p.depot.depotId }
  horizon : p.horizon = q.horizon
  readiness : p.readiness = q.readiness
  vehicles : p.vehicles = q.vehicles
  groups : SameDict p.chargers.groups q.chargers.groups
  efficiency : p.chargers.efficiency = q.chargers.efficiency
  total : p.chargers.total = q.chargers.total
  access_mode : p.chargerVehicleAccess.mode = q.chargerVehicleAccess.mode
  access_matrix : SameDict p.chargerVehicleAccess.matrix q.chargerVehicleAccess.matrix
  schedules : p.schedules = q.schedules
  prices : p.prices = q.prices
  telemetry : SameDict p.telemetry q.telemetry
  building_load : p.buildingLoad = q.buildingLoad
  weather_features : p.weatherFeatures = q.weatherFeatures
  incoming_vehicles : p.incomingVehicles = q.incomingVehicles
  recent_telemetry : p.recentTelemetry = q.recentTelemetry
  versions : p.versions = q.versions

end FavoniusBackend.State.Readiness
