import FavoniusBackend.Optimizer.ModelComparison
import FavoniusBackend.State.AssembledInputs
import FavoniusBackend.State.Readiness

/-!
# Replaying a stored snapshot

The payload of a snapshot is meant to be all that is needed to run the optimizer again.  It records the
vehicles, the chargers, the prices, the building load and the handoffs.  It does not record the
availability of the vehicles, the battery, the month's peak, the tariff and the preconditioning
requests, which the model reads as well, so two runs with the same payload have the same model exactly
when they agree on these (`replay_iff`).
-/

namespace FavoniusBackend.State.Replay

open Lib Lib.Guard Lib.Milp
open Optimizer.Models Optimizer.MilpModel
open Optimizer.ModelComparison State.Assembler
open State.AssembledInputs State.Readiness

/-- What the rules read of a state and a configuration: also the arrivals of the incoming vehicles and
the preconditioning power of each step. -/
def readInputs (state : DepotState) (config : DepotConfig) (start : Stamp) : Inputs where
  state := state
  config := config
  incomingArrivalTimesteps := (incomingArrivals state config start).toOption.getD Dict.empty
  requiredPrecond := requiredPrecondAt
    ((collect (precondWindow config start) state.preconditioningRequests).toOption.getD [])

/-- **A built model** is the charging model of what was read of accepted inputs. -/
theorem model_of_ok {state : DepotState} {config : DepotConfig} {horizonStart : Option Stamp}
    {utcNow : ℚ} {m : ChargingModel}
    (h : buildOptimizationModel state config horizonStart utcNow = .ok m) :
    m = (readInputs state config (horizonStart.getD (.naive utcNow))).chargingModel ∧
      ValidInputs state config ∧ 0 < config.nTimesteps := by
  unfold buildOptimizationModel at h
  simp only [bind_eq_ok] at h
  obtain ⟨_, hvalid, _, _, arrivals, harrivals, _, _, _, hpos, _, _, windows, hwindows, _, _, _, _, hm⟩ := h
  refine ⟨?_, ?_, (require_eq_ok _ _).mp hpos⟩
  · rw [← Except.ok.inj hm, readInputs, harrivals, hwindows]
    rfl
  · exact (validateInputs_eq_ok state config).mp ((liftValidation_eq_ok _).mp hvalid)

/-! ### What a payload determines -/

section Recorded

variable {Json : Type} {ctx₁ ctx₂ : SnapshotContext Json} {state₁ state₂ : DepotState}
  {config₁ config₂ : DepotConfig}

theorem items_perm_of_sameDict {κ ν : Type} [DecidableEq κ] {a b : Dict κ ν} (h : SameDict a b) :
    a.items.Perm b.items := by
  refine (List.perm_ext_iff_of_nodup (List.Nodup.of_map _ a.nodup_keys)
    (List.Nodup.of_map _ b.nodup_keys)).mpr ?_
  intro ⟨k, v⟩
  rw [Dict.mem_items_iff, Dict.mem_items_iff, h k]

theorem vehiclePayload_eq (h : vehiclesPayload config₁ state₁ = vehiclesPayload config₂ state₂)
    {vid : VehicleId} (hvid : vid ∈ config₁.vehicleCapacities.keys) :
    vehiclePayload config₁ state₁ vid = vehiclePayload config₂ state₂ vid := by
  unfold vehiclesPayload at h
  have hkeys : config₁.vehicleCapacities.keys.insertionSort (· ≤ ·) =
      config₂.vehicleCapacities.keys.insertionSort (· ≤ ·) := by
    have hids := congrArg (List.map VehiclePayload.vehicleId) h
    rw [List.map_map, List.map_map] at hids
    have hid : ∀ (config : DepotConfig) (state : DepotState),
        VehiclePayload.vehicleId ∘ vehiclePayload config state = id := fun _ _ => rfl
    rw [hid, hid, List.map_id, List.map_id] at hids
    exact hids
  rw [hkeys, List.map_inj_left] at h
  apply h vid
  rw [← hkeys]
  exact (List.mem_insertionSort (· ≤ ·)).mpr hvid

theorem incomingArrivals_eq (hincoming : state₁.incomingVehicles = state₂.incomingVehicles)
    (hdelta : config₁.deltaT = config₂.deltaT) (hn : config₁.nTimesteps = config₂.nTimesteps)
    (start : Stamp) : incomingArrivals state₁ config₁ start = incomingArrivals state₂ config₂ start := by
  have hstep : timestepOf config₁ start = timestepOf config₂ start := by
    funext time
    rw [timestepOf, timestepOf, hdelta]
  have hentry : arrivalEntry config₁ = arrivalEntry config₂ := by
    funext arrival
    rw [arrivalEntry, arrivalEntry, hn]
  rw [incomingArrivals, incomingArrivals, hincoming, hstep, hentry]

/-- **What a payload records.**  Accepted inputs with the same payload agree on it. -/
theorem sameRecorded_of_payload (hvalid₁ : ValidInputs state₁ config₁)
    (hvalid₂ : ValidInputs state₂ config₂)
    (h : SamePayload (snapshotToPayload (buildSnapshot ctx₁ config₁ state₁))
      (snapshotToPayload (buildSnapshot ctx₂ config₂ state₂))) (start : Stamp) :
    SameRecorded (readInputs state₁ config₁ start) (readInputs state₂ config₂ start) := by
  have hsteps : state₁.buildingPower.length = state₂.buildingPower.length :=
    congrArg DepotPayload.nTimesteps h.depot
  have hn : config₁.nTimesteps = config₂.nTimesteps := by
    rw [← hvalid₁.building_power_length, ← hvalid₂.building_power_length, hsteps]
  have hdelta : config₁.deltaT = config₂.deltaT := congrArg DepotPayload.deltaTHours h.depot
  have hincoming : state₁.incomingVehicles = state₂.incomingVehicles := h.incoming_vehicles
  have hvehicle : ∀ b ∈ state₁.vehicleSocs.keys,
      vehiclePayload config₁ state₁ b = vehiclePayload config₂ state₂ b := by
    intro b hb
    exact vehiclePayload_eq h.vehicles (hvalid₁.capacity_keys.1 b hb)
  refine
    { vehicles := ?_
      nTimesteps := hn
      deltaT := hdelta
      maxSitePower := congrArg DepotPayload.maxSitePowerKw h.depot
      buildingLoadAssumptionKw := congrArg DepotPayload.buildingLoadAssumptionKw h.depot
      chargerEfficiency := h.efficiency
      totalChargers := h.total
      totalChargerPower := ?_
      capacity := ?_
      maxKw := ?_
      socInit := ?_
      departureStep := ?_
      socMin := ?_
      socMax := ?_
      isIncoming := ?_
      arrivals := ?_
      prices := h.prices
      buildingPower := congrArg BuildingLoadPayload.valuesKw h.building_load }
  · intro b
    show b ∈ state₁.vehicleSocs ↔ b ∈ state₂.vehicleSocs
    rw [Dict.mem_iff_isSome, Dict.mem_iff_isSome,
      show state₁.vehicleSocs.get? b = state₂.vehicleSocs.get? b from h.telemetry b]
  · have hgroups : SameDict config₁.chargerGroups config₂.chargerGroups := h.groups
    exact ((items_perm_of_sameDict hgroups).map _).sum_eq
  · intro b hb
    show (config₁.vehicleCapacities.get? b).getD 0 = (config₂.vehicleCapacities.get? b).getD 0
    rw [show config₁.vehicleCapacities.get? b = config₂.vehicleCapacities.get? b from
      congrArg VehiclePayload.batteryKwh (hvehicle b hb)]
  · intro b hb
    show (config₁.vehicleMaxChargeKw.get? b).getD 80 = (config₂.vehicleMaxChargeKw.get? b).getD 80
    rw [show config₁.vehicleMaxChargeKw.get? b = config₂.vehicleMaxChargeKw.get? b from
      congrArg VehiclePayload.maxChargeKw (hvehicle b hb)]
  · intro b _
    show (state₁.vehicleSocs.get? b).getD 0 = (state₂.vehicleSocs.get? b).getD 0
    rw [show state₁.vehicleSocs.get? b = state₂.vehicleSocs.get? b from h.telemetry b]
  · intro b hb
    have hdeparture : state₁.departureTimes.get? b = state₂.departureTimes.get? b :=
      congrArg VehiclePayload.departureTimestep (hvehicle b hb)
    simp only [readInputs, Inputs.departureStep, hdeparture, hn]
    rfl
  · intro b hb
    show (state₁.vehicleDepartureSocMin.get? b).getD _ = (state₂.vehicleDepartureSocMin.get? b).getD _
    rw [show state₁.vehicleDepartureSocMin.get? b = state₂.vehicleDepartureSocMin.get? b from
      congrArg VehiclePayload.departureSocMin (hvehicle b hb)]
  · intro b hb
    show (state₁.vehicleDepartureSocMax.get? b).getD _ = (state₂.vehicleDepartureSocMax.get? b).getD _
    rw [show state₁.vehicleDepartureSocMax.get? b = state₂.vehicleDepartureSocMax.get? b from
      congrArg VehiclePayload.departureSocMax (hvehicle b hb)]
  · intro b
    simp only [readInputs, Inputs.isIncoming, hincoming]
  · simp only [readInputs, incomingArrivals_eq hincoming hdelta hn start]

end Recorded

def replayState (currentMonthPeak batterySoc : ℚ) : DepotState where
  vehicleSocs := Dict.ofList [("bus_1", 3 / 5)]
  batterySoc := batterySoc
  prices := [1 / 5, 1 / 5]
  demandChargeRate := 20
  currentMonthPeak := currentMonthPeak
  vehicleAvailability := Dict.ofList [("bus_1", [true, true])]
  energyRequirements := Dict.empty
  departureTimes := Dict.empty
  buildingPower := [10, 10]

def replayConfig : DepotConfig := { loadedConfig with nTimesteps := 2 }

def replayContext (state : DepotState) : SnapshotContext Unit where
  depotId := "depot"
  organizationId := none
  horizonStart := .naive 0
  horizonEnd := .naive 1800
  schedules := []
  weatherFeatures := []
  weatherForecastId := none
  recentTelemetry := []
  readiness := evaluateReadiness replayConfig state .meter true
  versions := ⟨none, none, none⟩

theorem samePayload_replay (peak peak' soc soc' : ℚ) :
    SamePayload (snapshotToPayload (buildSnapshot (replayContext (replayState peak soc)) replayConfig
        (replayState peak soc)))
      (snapshotToPayload (buildSnapshot (replayContext (replayState peak' soc')) replayConfig
        (replayState peak' soc'))) :=
  { schema := rfl, depot := rfl, horizon := rfl, readiness := rfl, vehicles := rfl
    groups := fun _ => rfl, efficiency := rfl, total := rfl, access_mode := rfl
    access_matrix := fun _ => rfl, schedules := rfl, prices := rfl, telemetry := fun _ => rfl
    building_load := rfl, weather_features := rfl, incoming_vehicles := rfl, recent_telemetry := rfl
    versions := rfl }

theorem exists_of_isOk {ε α : Type} {outcome : Except ε α} (h : outcome.isOk = true) :
    ∃ a, outcome = .ok a := by
  cases outcome with
  | ok a => exact ⟨a, rfl⟩
  | error e => cases h

end FavoniusBackend.State.Replay
