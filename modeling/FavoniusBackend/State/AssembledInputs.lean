import FavoniusBackend.Lib.Run
import FavoniusBackend.Optimizer.MilpModel
import FavoniusBackend.State.Assembler

/-!
# Assembled states as optimizer inputs

The optimizer refuses a state whose series do not have `config.n_timesteps` entries or whose vehicle
dicts do not have the same keys.  A state of `get_current_state` fills these from five places: SoCs from
telemetry and from handoffs, availability from the configured vehicles and from handoffs that arrive at
a step of the horizon, capacities from the configuration and from all handoffs, and two series with one
entry for each step of the requested horizon.

They agree exactly under three conditions (`InputsAgree`): the requested horizon has `n_timesteps`
steps, which nothing checks; every vehicle with a reading, and every vehicle handed over, is configured
or arrives at a step of the horizon.
-/

namespace FavoniusBackend.State.AssembledInputs

open Lib Lib.Numeric Lib.Stateful
open Lib.Run Optimizer.Models Optimizer.MilpModel
open State.Database State.Assembler

/-! ### The checks -/

/-- The length and key checks of `_validate_inputs`. -/
structure LengthAndKeyChecks (state : DepotState) (config : DepotConfig) : Prop where
  prices_length : state.prices.length = config.nTimesteps
  building_power_length : state.buildingPower.length = config.nTimesteps
  availability_keys : SameKeys state.vehicleSocs state.vehicleAvailability
  availability_length : ∀ e ∈ state.vehicleAvailability.items, e.2.length = config.nTimesteps
  capacity_keys : SameKeys state.vehicleSocs config.vehicleCapacities

structure ConfigChecks (config : DepotConfig) : Prop where
  groups_ne_nil : config.chargerGroups.keys ≠ []
  groups_pos : ∀ e ∈ config.chargerGroups.items, 0 < e.1 ∧ 0 < e.2
  max_site_power_pos : 0 < config.maxSitePower
  efficiency_mem : 0 < config.chargerEfficiency ∧ config.chargerEfficiency ≤ 1
  battery_capacity_nonneg : 0 ≤ config.batteryCapacity
  battery_power_nonneg : 0 ≤ config.batteryPower

theorem validInputs_iff (state : DepotState) (config : DepotConfig) :
    ValidInputs state config ↔
      state.vehicleSocs.keys ≠ [] ∧ LengthAndKeyChecks state config ∧ ConfigChecks config := by
  refine ⟨?_, ?_⟩
  · intro h
    exact ⟨h.socs_ne_nil, ⟨h.prices_length, h.building_power_length, h.availability_keys,
      h.availability_length, h.capacity_keys⟩, ⟨h.groups_ne_nil, h.groups_pos, h.max_site_power_pos,
      h.efficiency_mem, h.battery_capacity_nonneg, h.battery_power_nonneg⟩⟩
  · intro ⟨hsocs, hkeys, hconfig⟩
    exact ⟨hsocs, hkeys.prices_length, hkeys.building_power_length, hkeys.availability_keys,
      hkeys.availability_length, hkeys.capacity_keys, hconfig.groups_ne_nil, hconfig.groups_pos,
      hconfig.max_site_power_pos, hconfig.efficiency_mem, hconfig.battery_capacity_nonneg,
      hconfig.battery_power_nonneg⟩

/-! ### Keys and lengths before the handoffs -/

theorem mem_withDefaultSocs (config : DepotConfig) (telemetrySocs : Dict VehicleId ℚ) (vid : VehicleId) :
    vid ∈ withDefaultSocs config telemetrySocs ↔
      vid ∈ telemetrySocs ∨ vid ∈ config.vehicleCapacities := by
  unfold withDefaultSocs
  simp only
  generalize hsocs : (if telemetrySocs.keys = [] then
    Dict.ofList (config.vehicleCapacities.keys.map fun vid => (vid, (1 / 2 : ℚ)))
    else telemetrySocs) = socs
  have hmem : (vid ∈ socs ∨ vid ∈ config.vehicleCapacities) ↔
      vid ∈ telemetrySocs ∨ vid ∈ config.vehicleCapacities := by
    rw [← hsocs]
    split
    · rename_i hnil
      rw [Dict.mem_ofList, List.map_map, Dict.mem_iff_mem_keys, Dict.mem_iff_mem_keys, hnil]
      simp [Function.comp_def]
    · exact Iff.rfl
  have hfold := Dict.mem_foldl_set
    ((config.vehicleCapacities.keys.filter fun vid => decide (vid ∉ socs)).map
      fun vid => (vid, (1 / 2 : ℚ))) socs vid
  rw [List.foldl_map] at hfold
  rw [hfold, ← hmem, List.map_map]
  simp only [Function.comp_def, List.map_id', List.mem_filter, decide_eq_true_eq,
    ← Dict.mem_iff_mem_keys]
  tauto

structure StepLists (keys : VehicleId → Prop) (n : ℕ) (d : Dict VehicleId (List Bool)) : Prop where
  mem_iff : ∀ vid, vid ∈ d ↔ keys vid
  length_eq : ∀ vid steps, d.get? vid = some steps → steps.length = n

theorem StepLists.set {keys : VehicleId → Prop} {n : ℕ} {d : Dict VehicleId (List Bool)}
    (h : StepLists keys n d) (vid : VehicleId) {steps : List Bool} (hsteps : steps.length = n) :
    StepLists (fun v => v = vid ∨ keys v) n (d.set vid steps) := by
  refine ⟨?_, ?_⟩
  · intro v
    rw [Dict.mem_set, h.mem_iff]
  · intro v l hl
    rw [Dict.get?_set] at hl
    split at hl
    · rw [← Option.some.inj hl]
      exact hsteps
    · exact h.length_eq v l hl

theorem StepLists.congr {keys keys' : VehicleId → Prop} {n : ℕ} {d : Dict VehicleId (List Bool)}
    (h : StepLists keys n d) (hkeys : ∀ v, keys v ↔ keys' v) : StepLists keys' n d :=
  ⟨fun v => (h.mem_iff v).trans (hkeys v), h.length_eq⟩

theorem stepLists_markTrip {keys : VehicleId → Prop} {n : ℕ} {d : Dict VehicleId (List Bool)}
    (h : StepLists keys n d) (config : DepotConfig) (start : ℚ) (sched : MergedTrip) :
    StepLists keys n (markTrip config start d sched) := by
  unfold markTrip
  split
  · exact h
  · rename_i steps hsteps
    have hlen : steps.length = n := h.length_eq _ _ hsteps
    have hkey : keys sched.vehicleId := (h.mem_iff _).mp (Dict.mem_of_get? hsteps)
    refine (h.set sched.vehicleId (by rw [List.length_mapIdx, hlen])).congr ?_
    intro v
    refine ⟨?_, Or.inr⟩
    intro hv
    rcases hv with rfl | hv
    · exact hkey
    · exact hv

/-- **Availability before the handoffs**: a list of `n_steps` entries for each configured vehicle. -/
theorem stepLists_computeAvailability (config : DepotConfig) (schedules : List MergedTrip) (start : ℚ)
    (nSteps : ℤ) :
    StepLists (fun vid => vid ∈ config.vehicleCapacities) nSteps.toNat
      (computeAvailability config schedules start nSteps) := by
  refine run_invariant (markTrip config start)
    (StepLists (fun vid => vid ∈ config.vehicleCapacities) nSteps.toNat) schedules ?_ _ ⟨?_, ?_⟩
  · intro d sched _ h
    exact stepLists_markTrip h config start sched
  · intro vid
    rw [Dict.mem_ofList, List.map_map]
    simp [Function.comp_def, Dict.mem_iff_mem_keys]
  · intro vid steps hsteps
    have hnodup : ((config.vehicleCapacities.keys.map fun vid =>
        (vid, List.replicate nSteps.toNat true)).map Prod.fst).Nodup := by
      rw [List.map_map]
      have hkeys : config.vehicleCapacities.keys.Nodup := config.vehicleCapacities.nodup_keys
      simpa [Function.comp_def] using hkeys
    have hmem := (Dict.get?_ofList_of_nodup hnodup).mp hsteps
    obtain ⟨v, _, hv⟩ := List.mem_map.mp hmem
    rw [← (Prod.mk.inj hv).2, List.length_replicate]

/-! ### The integration loop -/

section Integration

variable (now : ℚ) (nSteps : ℤ)

theorem mem_setDefault {ν : Type} (d : Dict VehicleId ν) (vid v : VehicleId) (value : ν) :
    v ∈ setDefault d vid value ↔ v = vid ∨ v ∈ d := by
  unfold setDefault
  split
  · rename_i hmem
    refine ⟨Or.inr, ?_⟩
    intro h
    rcases h with rfl | h
    · exact hmem
    · exact h
  · rw [Dict.mem_set]

theorem integrated_config (rows : List HandoffRow) : ∀ s : Integration, ∃ capacities maxChargeKw,
    (rows.foldl (integrateIncoming now nSteps) s).config =
      { s.config with vehicleCapacities := capacities, vehicleMaxChargeKw := maxChargeKw } := by
  induction rows with
  | nil =>
    intro s
    exact ⟨s.config.vehicleCapacities, s.config.vehicleMaxChargeKw, rfl⟩
  | cons row rows ih =>
    intro s
    obtain ⟨capacities, maxChargeKw, h⟩ := ih (integrateIncoming now nSteps s row)
    exact ⟨capacities, maxChargeKw, h⟩

theorem mem_integrated_socs (rows : List HandoffRow) (vid : VehicleId) : ∀ s : Integration,
    vid ∈ (rows.foldl (integrateIncoming now nSteps) s).vehicleSocs ↔
      vid ∈ s.vehicleSocs ∨ ∃ row ∈ rows, row.vehicleId = vid := by
  induction rows with
  | nil =>
    intro s
    simp
  | cons row rows ih =>
    intro s
    rw [List.foldl_cons, ih, List.exists_mem_cons_iff]
    show vid ∈ s.vehicleSocs.set row.vehicleId row.expectedSoc ∨ _ ↔ _
    rw [Dict.mem_set]
    tauto

theorem mem_integrated_capacities (rows : List HandoffRow) (vid : VehicleId) : ∀ s : Integration,
    vid ∈ (rows.foldl (integrateIncoming now nSteps) s).config.vehicleCapacities ↔
      vid ∈ s.config.vehicleCapacities ∨ ∃ row ∈ rows, row.vehicleId = vid := by
  induction rows with
  | nil =>
    intro s
    simp
  | cons row rows ih =>
    intro s
    rw [List.foldl_cons, ih, List.exists_mem_cons_iff]
    show vid ∈ setDefault s.config.vehicleCapacities row.vehicleId row.batteryKwh ∨ _ ↔ _
    rw [mem_setDefault]
    tauto

def ArrivesAtStep (config : DepotConfig) (row : HandoffRow) : Prop :=
  0 ≤ arrivalTimestep config now row ∧ arrivalTimestep config now row < nSteps

theorem stepLists_integrateIncoming {keys : VehicleId → Prop} {s : Integration}
    (h : StepLists keys nSteps.toNat s.availability) (row : HandoffRow) :
    StepLists (fun v => keys v ∨ row.vehicleId = v ∧ ArrivesAtStep now nSteps s.config row)
      nSteps.toNat (integrateIncoming now nSteps s row).availability := by
  by_cases harr : ArrivesAtStep now nSteps s.config row
  · have havail : (integrateIncoming now nSteps s row).availability = s.availability.set row.vehicleId
        ((s.availability.getD row.vehicleId (List.replicate nSteps.toNat false)).mapIdx
          fun t _ => decide (arrivalTimestep s.config now row ≤ (t : ℤ))) := if_pos harr
    have hlen : (s.availability.getD row.vehicleId (List.replicate nSteps.toNat false)).length =
        nSteps.toNat := by
      rw [Dict.getD]
      cases hget : s.availability.get? row.vehicleId with
      | none => exact List.length_replicate
      | some steps => exact h.length_eq _ _ hget
    rw [havail]
    refine (h.set row.vehicleId (by rw [List.length_mapIdx, hlen])).congr ?_
    intro v
    constructor
    · intro hv
      rcases hv with rfl | hv
      · exact Or.inr ⟨rfl, harr⟩
      · exact Or.inl hv
    · intro hv
      rcases hv with hv | ⟨hv, _⟩
      · exact Or.inr hv
      · exact Or.inl hv.symm
  · have havail : (integrateIncoming now nSteps s row).availability = s.availability := if_neg harr
    rw [havail]
    refine h.congr ?_
    intro v
    refine ⟨Or.inl, ?_⟩
    intro hv
    rcases hv with hv | ⟨_, hv⟩
    · exact hv
    · exact absurd hv harr

/-- **Availability after the handoffs.** -/
theorem stepLists_integrated (rows : List HandoffRow) :
    ∀ (keys : VehicleId → Prop) (s : Integration), StepLists keys nSteps.toNat s.availability →
      StepLists (fun v => keys v ∨ ∃ row ∈ rows, row.vehicleId = v ∧ ArrivesAtStep now nSteps s.config row)
        nSteps.toNat (rows.foldl (integrateIncoming now nSteps) s).availability := by
  induction rows with
  | nil =>
    intro keys s h
    refine h.congr ?_
    intro v
    simp
  | cons row rows ih =>
    intro keys s h
    -- the step length is not touched, so a row arrives at the same step in every pass
    refine (ih _ _ (stepLists_integrateIncoming now nSteps h row)).congr ?_
    intro v
    rw [List.exists_mem_cons_iff, or_assoc]
    exact Iff.rfl

end Integration

/-! ### When the optimizer accepts -/

def ArrivesInHorizon (self : StateAssembler) (env : Environment) (horizonHours : ℚ)
    (vid : VehicleId) : Prop :=
  ∃ row ∈ incomingRows env self.depotId env.now (horizonEnd env.now horizonHours),
    row.vehicleId = vid ∧ ArrivesAtStep env.now (horizonSteps self.config horizonHours) self.config row

/-- What an assembly needs for its parts to fit together. -/
structure InputsAgree (assembler : StateAssembler) (env : Environment) (horizonHours : ℚ) : Prop where
  steps : (horizonSteps assembler.config horizonHours).toNat = assembler.config.nTimesteps
  readings : ∀ vid, HasReading env assembler.depotId vid →
    vid ∈ assembler.config.vehicleCapacities ∨ ArrivesInHorizon assembler env horizonHours vid
  handoffs : ∀ row ∈ incomingRows env assembler.depotId env.now (horizonEnd env.now horizonHours),
    row.vehicleId ∈ assembler.config.vehicleCapacities ∨
      ArrivesInHorizon assembler env horizonHours row.vehicleId

/-- What a returned state holds: its keys, by where they come from, and its lengths. -/
structure AssembledKeys (assembler : StateAssembler) (env : Environment) (horizonHours : ℚ)
    (state : DepotState) (config : DepotConfig) : Prop where
  socs : ∀ vid, vid ∈ state.vehicleSocs ↔
    (HasReading env assembler.depotId vid ∨ vid ∈ assembler.config.vehicleCapacities) ∨
      ∃ row ∈ incomingRows env assembler.depotId env.now (horizonEnd env.now horizonHours),
        row.vehicleId = vid
  availability : StepLists (fun vid => vid ∈ assembler.config.vehicleCapacities ∨
      ArrivesInHorizon assembler env horizonHours vid) (horizonSteps assembler.config horizonHours).toNat
    state.vehicleAvailability
  capacities : ∀ vid, vid ∈ config.vehicleCapacities ↔
    vid ∈ assembler.config.vehicleCapacities ∨
      ∃ row ∈ incomingRows env assembler.depotId env.now (horizonEnd env.now horizonHours),
        row.vehicleId = vid
  prices_length : state.prices.length = (horizonSteps assembler.config horizonHours).toNat
  building_power_length : state.buildingPower.length = (horizonSteps assembler.config horizonHours).toNat
  config_eq : ∃ capacities maxChargeKw,
    config = { assembler.config with vehicleCapacities := capacities, vehicleMaxChargeKw := maxChargeKw }

/-- **Keys and lengths of a returned state.** -/
theorem assembledKeys_of_ok {self self' : StateAssembler} {env : Environment} {horizonHours : ℚ}
    {state : DepotState} (h : exec (getCurrentState env horizonHours) self = (.ok state, self')) :
    AssembledKeys self env horizonHours state self'.config := by
  obtain ⟨telemetrySocs, trips, requests, hfrom⟩ := assembled_of_ok h
  have hsocs := hfrom.vehicleSocs
  have havail := hfrom.availability
  have hconfig := hfrom.config_eq
  generalize (mergeVdv463IntoSchedules trips requests).schedules = schedules at hsocs havail hconfig
  refine ⟨?_, ?_, ?_, hfrom.prices_length, hfrom.building_power_length, ?_⟩
  · intro vid
    rw [hsocs, integrated, mem_integrated_socs, mem_withDefaultSocs, mem_getVehicleSocs hfrom.socs_ok]
  · rw [havail, integrated]
    exact stepLists_integrated env.now (horizonSteps self.config horizonHours)
      (incomingRows env self.depotId env.now (horizonEnd env.now horizonHours))
      (fun vid => vid ∈ self.config.vehicleCapacities)
      ⟨withDefaultSocs self.config telemetrySocs, self.config,
        computeAvailability self.config schedules env.now (horizonSteps self.config horizonHours)⟩
      (stepLists_computeAvailability self.config schedules env.now
        (horizonSteps self.config horizonHours))
  · intro vid
    rw [hconfig, integrated, mem_integrated_capacities]
  · rw [hconfig, integrated]
    exact integrated_config env.now (horizonSteps self.config horizonHours)
      (incomingRows env self.depotId env.now (horizonEnd env.now horizonHours))
      ⟨withDefaultSocs self.config telemetrySocs, self.config,
        computeAvailability self.config schedules env.now (horizonSteps self.config horizonHours)⟩

theorem availability_keys_iff {self : StateAssembler} {env : Environment} {horizonHours : ℚ}
    {state : DepotState} {config : DepotConfig}
    (h : AssembledKeys self env horizonHours state config) :
    SameKeys state.vehicleSocs state.vehicleAvailability ↔
      (∀ vid, HasReading env self.depotId vid →
        vid ∈ self.config.vehicleCapacities ∨ ArrivesInHorizon self env horizonHours vid) ∧
      ∀ row ∈ incomingRows env self.depotId env.now (horizonEnd env.now horizonHours),
        row.vehicleId ∈ self.config.vehicleCapacities ∨
          ArrivesInHorizon self env horizonHours row.vehicleId := by
  refine ⟨?_, ?_⟩
  · intro hsame
    have hcovered : ∀ vid, vid ∈ state.vehicleSocs →
        vid ∈ self.config.vehicleCapacities ∨ ArrivesInHorizon self env horizonHours vid := by
      intro vid hvid
      exact (h.availability.mem_iff vid).mp (hsame.1 vid hvid)
    refine ⟨?_, ?_⟩
    · intro vid hread
      exact hcovered vid ((h.socs vid).mpr (Or.inl (Or.inl hread)))
    · intro row hrow
      exact hcovered row.vehicleId ((h.socs _).mpr (Or.inr ⟨row, hrow, rfl⟩))
  · intro ⟨hread, hhand⟩
    refine ⟨?_, ?_⟩
    · intro vid hvid
      apply (h.availability.mem_iff vid).mpr
      rcases (h.socs vid).mp hvid with (hr | hc) | ⟨row, hrow, rfl⟩
      · exact hread vid hr
      · exact Or.inl hc
      · exact hhand row hrow
    · intro vid hvid
      apply (h.socs vid).mpr
      rcases (h.availability.mem_iff vid).mp hvid with hc | ⟨row, hrow, hv, _⟩
      · exact Or.inl (Or.inr hc)
      · exact Or.inr ⟨row, hrow, hv⟩

theorem lengthAndKeyChecks_iff {self : StateAssembler} {env : Environment} {horizonHours : ℚ}
    {state : DepotState} {config : DepotConfig}
    (h : AssembledKeys self env horizonHours state config) :
    LengthAndKeyChecks state config ↔ InputsAgree self env horizonHours := by
  obtain ⟨capacities, maxChargeKw, hconfig⟩ := h.config_eq
  have hsteps : config.nTimesteps = self.config.nTimesteps := by rw [hconfig]
  refine ⟨?_, ?_⟩
  · intro hc
    obtain ⟨hread, hhand⟩ := (availability_keys_iff h).mp hc.availability_keys
    refine ⟨?_, hread, hhand⟩
    rw [← h.prices_length, hc.prices_length, hsteps]
  · intro hi
    have hlen : (horizonSteps self.config horizonHours).toNat = config.nTimesteps := by
      rw [hsteps, hi.steps]
    refine ⟨?_, ?_, ?_, ?_, ?_, ?_⟩
    · rw [h.prices_length, hlen]
    · rw [h.building_power_length, hlen]
    · exact (availability_keys_iff h).mpr ⟨hi.readings, hi.handoffs⟩
    · intro e he
      rw [← hlen]
      exact h.availability.length_eq e.1 e.2 (Dict.mem_items_iff.mp he)
    · intro vid hvid
      apply (h.capacities vid).mpr
      rcases (h.socs vid).mp hvid with (hr | hc) | hrow
      · rcases hi.readings vid hr with hc | ⟨row, hrow, hv, _⟩
        · exact Or.inl hc
        · exact Or.inr ⟨row, hrow, hv⟩
      · exact Or.inl hc
      · exact Or.inr hrow
    · intro vid hvid
      apply (h.socs vid).mpr
      rcases (h.capacities vid).mp hvid with hc | hrow
      · exact Or.inl (Or.inr hc)
      · exact Or.inr hrow

/-- **When an assembled state is accepted.**  For every assembler, environment and horizon, a returned
state and the configuration left behind pass the length and key checks exactly when the inputs agree;
with a configured vehicle and valid chargers, site and battery, that is when `_validate_inputs`
accepts. -/
theorem assembled_inputs_valid_iff (self : StateAssembler) (env : Environment) (horizonHours : ℚ)
    {state : DepotState} {self' : StateAssembler}
    (h : exec (getCurrentState env horizonHours) self = (.ok state, self')) :
    (LengthAndKeyChecks state self'.config ↔ InputsAgree self env horizonHours) ∧
      (self.config.vehicleCapacities.keys ≠ [] → ConfigChecks self.config →
        (validateInputs state self'.config = .ok () ↔ InputsAgree self env horizonHours)) := by
  have hkeys := assembledKeys_of_ok h
  have hchecks := lengthAndKeyChecks_iff hkeys
  refine ⟨hchecks, ?_⟩
  intro hvehicle hconfig
  have hsocs : state.vehicleSocs.keys ≠ [] := by
    intro hnil
    obtain ⟨vid, hvid⟩ := List.exists_mem_of_ne_nil _ hvehicle
    have hmem : vid ∈ state.vehicleSocs := (hkeys.socs vid).mpr (Or.inl (Or.inr hvid))
    rw [Dict.mem_iff_mem_keys, hnil] at hmem
    exact absurd hmem List.not_mem_nil
  have hconfig' : ConfigChecks self'.config := by
    obtain ⟨capacities, maxChargeKw, heq⟩ := hkeys.config_eq
    rw [heq]
    exact ⟨hconfig.groups_ne_nil, hconfig.groups_pos, hconfig.max_site_power_pos,
      hconfig.efficiency_mem, hconfig.battery_capacity_nonneg, hconfig.battery_power_nonneg⟩
  rw [validateInputs_eq_ok, validInputs_iff, ← hchecks]
  exact ⟨fun hall => hall.2.1, fun hall => ⟨hsocs, hall, hconfig'⟩⟩

/-- A configuration as `load_depot_config` fills it: one bus, one charger, 96 quarter hours. -/
def loadedConfig : DepotConfig where
  vehicleCapacities := Dict.ofList [("bus_1", 324)]
  vehicleMaxChargeKw := Dict.ofList [("bus_1", 80)]
  chargerGroups := Dict.ofList [(80, 1)]
  chargerEfficiency := 19 / 20
  chargerVehicleAccess := Dict.empty
  batteryCapacity := 0
  batteryPower := 0

def idleEnvironment : Environment where
  now := 0
  fails := fun _ => false
  vehicles := [⟨"bus_1", "depot", none⟩]
  telemetry := []
  vehicleTelemetry := some []
  site := some ⟨none, none, none⟩
  biddingZoneOf := fun _ => none
  zoneInfo := fun _ => none
  priceMap := fun _ _ _ => Dict.empty
  schedules := []
  templates := []
  cancellations := []
  vdv463Requests := some []
  monthPeak := none
  latestDemandKw := none
  chargerIds := []
  periodEnergyKwh := none
  buildingLoad := []
  handoffs := []

def addedBusEnvironment : Environment :=
  { idleEnvironment with
    vehicles := [⟨"bus_1", "depot", none⟩, ⟨"bus_2", "depot", none⟩]
    telemetry := [⟨some "bus_2", some (7 / 10), -60⟩] }

def handoffRow : HandoffRow where
  vehicleId := "bus_9"
  destDepotId := "depot"
  originDepotId := "elsewhere"
  status := .pending
  arrivalTime := 1800
  expectedSoc := 3 / 10
  batteryKwh := 400
  maxChargeKw := 100

def handoffEnvironment : Environment := { idleEnvironment with handoffs := [handoffRow] }

def validation (outcome : Except AssemblyError DepotState × StateAssembler) :
    Option (Except ValidationError Unit) :=
  match outcome with
  | (.ok state, self) => some (validateInputs state self.config)
  | (.error _, _) => none

theorem exists_of_validation {outcome : Except AssemblyError DepotState × StateAssembler}
    {answer : Except ValidationError Unit} (h : validation outcome = some answer) :
    ∃ state self, outcome = (.ok state, self) ∧ validateInputs state self.config = answer := by
  obtain ⟨result, self⟩ := outcome
  cases result with
  | ok state => exact ⟨state, self, rfl, Option.some.inj h⟩
  | error e => cases h

/-- The default horizon of 24 hours agrees with the configuration, also with a handoff. -/
theorem assembled_inputs_valid_full_day :
    ∃ state self', exec (getCurrentState handoffEnvironment 24)
        (StateAssembler.init "depot" loadedConfig) = (.ok state, self') ∧
      InputsAgree (StateAssembler.init "depot" loadedConfig) handoffEnvironment 24 ∧
      LengthAndKeyChecks state self'.config := by
  obtain ⟨state, self', hcall, hvalid⟩ := exists_of_validation
    (show validation (exec (getCurrentState handoffEnvironment 24)
      (StateAssembler.init "depot" loadedConfig)) = some (.ok ()) by decide +kernel)
  have hiff := assembled_inputs_valid_iff _ _ _ hcall
  have hagree := (hiff.2 (by decide +kernel)
    ⟨by decide +kernel, by decide +kernel, by decide +kernel, by decide +kernel, by decide +kernel,
      by decide +kernel⟩).mp hvalid
  exact ⟨state, self', hcall, hagree, hiff.1.mpr hagree⟩

/-- A horizon of one hour, and a bus that reports before the configuration lists it, are both refused. -/
theorem short_horizon_and_added_bus_refused :
    (∃ state self', exec (getCurrentState idleEnvironment 1)
        (StateAssembler.init "depot" loadedConfig) = (.ok state, self') ∧
      validateInputs state self'.config = .error (.pricesLength 4 96) ∧
      ¬ LengthAndKeyChecks state self'.config) ∧
    ∃ state self', exec (getCurrentState addedBusEnvironment 24)
        (StateAssembler.init "depot" loadedConfig) = (.ok state, self') ∧
      validateInputs state self'.config = .error .availabilityKeys ∧
      ¬ LengthAndKeyChecks state self'.config := by
  refine ⟨?_, ?_⟩
  · obtain ⟨state, self', hcall, hvalid⟩ := exists_of_validation
      (show validation (exec (getCurrentState idleEnvironment 1)
        (StateAssembler.init "depot" loadedConfig)) = some (.error (.pricesLength 4 96)) by
        decide +kernel)
    refine ⟨state, self', hcall, hvalid, ?_⟩
    intro hchecks
    have hsteps := ((lengthAndKeyChecks_iff (assembledKeys_of_ok hcall)).mp hchecks).steps
    exact absurd hsteps (by decide +kernel)
  · obtain ⟨state, self', hcall, hvalid⟩ := exists_of_validation
      (show validation (exec (getCurrentState addedBusEnvironment 24)
        (StateAssembler.init "depot" loadedConfig)) = some (.error .availabilityKeys) by
        decide +kernel)
    refine ⟨state, self', hcall, hvalid, ?_⟩
    intro hchecks
    have hread : HasReading addedBusEnvironment "depot" "bus_2" :=
      ⟨by decide, ⟨some "bus_2", some (7 / 10), -60⟩, List.mem_singleton.mpr rfl, rfl, rfl,
        by decide +kernel⟩
    have hcovered := ((lengthAndKeyChecks_iff (assembledKeys_of_ok hcall)).mp hchecks).readings _ hread
    rcases hcovered with hmem | ⟨row, hrow, _⟩
    · exact absurd hmem (by decide +kernel)
    · exact absurd hrow List.not_mem_nil

end FavoniusBackend.State.AssembledInputs
