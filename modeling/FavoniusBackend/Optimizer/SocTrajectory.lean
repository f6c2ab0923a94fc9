import FavoniusBackend.Optimizer.MilpModel

/-!
# State of charge along a plan

In the charging model the SoC of a vehicle is a variable of its own, tied to the charging power by the
dynamics from step to step and to a measured or expected value at one step.  In every feasible
assignment the SoC minus the energy charged so far is therefore the same at all steps
(`soc_sub_charged`), and what the plan does to the battery can be read off one tie.

For a vehicle in the depot the tie is the measured SoC at step 0.  The variable of the last step is
bounded before the power of that step is added, so the physical SoC is safe throughout exactly when
that last addition fits (`planned_soc_safe_iff`).

For an incoming vehicle the tie is the expected SoC at its arrival, and the model has it exactly when
the handoff that arrives inside the horizon is the last such one of its vehicle
(`incoming_soc_tied_iff`).
-/

namespace FavoniusBackend.Optimizer.SocTrajectory

open Finset
open Lib Lib.Guard Lib.Milp
open Optimizer.Models Optimizer.MilpModel

/-! ### Energy charged and SoC -/

/-- The SoC that the power of the steps before `t` adds. -/
def charged (config : DepotConfig) (x : OptVar → ℚ) (b : VehicleId) (t : ℕ) : ℚ :=
  config.chargerEfficiency * config.deltaT / config.vehicleCapacities.getD b 0 *
    ∑ s ∈ range t, x (.pCharge b s)

theorem charged_succ (config : DepotConfig) (x : OptVar → ℚ) (b : VehicleId) (t : ℕ) :
    charged config x b (t + 1) = charged config x b t +
      config.chargerEfficiency * config.deltaT / config.vehicleCapacities.getD b 0 *
        x (.pCharge b t) := by
  rw [charged, charged, sum_range_succ, mul_add]

/-- **The trajectory.**  SoC minus energy charged is the same at every step. -/
theorem soc_sub_charged {i : Inputs} {x : OptVar → ℚ} (hx : i.chargingModel.Feasible x)
    {b : VehicleId} (hb : b ∈ i.vehicles) :
    ∀ t < i.config.nTimesteps, x (.soc b t) - charged i.config x b t = x (.soc b 0) := by
  intro t
  induction t with
  | zero =>
    intro _
    simp [charged]
  | succ t ih =>
    intro ht
    rw [← ih (by omega), Inputs.soc_succ hx hb ht, charged_succ, Inputs.capacity]
    ring

/-! ### Vehicles in the depot -/

/-- The physical SoC of a vehicle before step `t`, from its measured SoC and the planned power. -/
def plannedSoc (state : DepotState) (config : DepotConfig) (x : OptVar → ℚ) (b : VehicleId) (t : ℕ) :
    ℚ :=
  state.vehicleSocs.getD b 0 + charged config x b t

def requiredSoc (state : DepotState) (b : VehicleId) : ℚ :=
  state.vehicleDepartureSocMin.getD b (99 / 100)

/-- The plan keeps the battery within its limits up to and including the end of the horizon, and the
vehicle leaves with what it needs when it departs within the horizon or at its end. -/
structure PlanSafe (state : DepotState) (config : DepotConfig) (x : OptVar → ℚ) (b : VehicleId) :
    Prop where
  bounded : ∀ t ≤ config.nTimesteps,
    1 / 10 ≤ plannedSoc state config x b t ∧ plannedSoc state config x b t ≤ 1
  departs : ∀ d : ℤ, state.departureTimes.get? b = some d → d ≤ config.nTimesteps →
    requiredSoc state b ≤ plannedSoc state config x b d.toNat

def lastSoc (config : DepotConfig) (x : OptVar → ℚ) (b : VehicleId) : ℚ :=
  x (.soc b (config.nTimesteps - 1)) +
    config.chargerEfficiency * config.deltaT / config.vehicleCapacities.getD b 0 *
      x (.pCharge b (config.nTimesteps - 1))

/-- The charge of the last step fits: it leaves the SoC within the limits, and a vehicle that departs at
the very end of the horizon with what it needs. -/
structure LastStepFits (state : DepotState) (config : DepotConfig) (x : OptVar → ℚ) (b : VehicleId) :
    Prop where
  lower : 1 / 10 ≤ lastSoc config x b
  upper : lastSoc config x b ≤ 1
  departs : state.departureTimes.get? b = some (config.nTimesteps : ℤ) →
    requiredSoc state b ≤ lastSoc config x b

section Depot

variable {state : DepotState} {config : DepotConfig} {start : Stamp} {i : Inputs} {x : OptVar → ℚ}
  {b : VehicleId}

/-- Up to the last step the physical SoC is the SoC variable. -/
theorem plannedSoc_eq_soc (hbuilt : Built state config start i) (hx : i.chargingModel.Feasible x)
    (hb : b ∈ i.vehicles) (hnot : i.isIncoming b = false) {t : ℕ} (ht : t < config.nTimesteps) :
    plannedSoc state config x b t = x (.soc b t) := by
  obtain rfl := hbuilt.state_eq
  obtain rfl := hbuilt.config_eq
  have htraj := soc_sub_charged hx hb t ht
  have hzero := Inputs.soc_zero hx hb hnot
  rw [plannedSoc]
  show i.socInit b + _ = _
  rw [← hzero]
  linarith

theorem plannedSoc_end (hbuilt : Built state config start i) (hx : i.chargingModel.Feasible x)
    (hb : b ∈ i.vehicles) (hnot : i.isIncoming b = false) :
    plannedSoc state config x b config.nTimesteps = lastSoc config x b := by
  have hpos := hbuilt.steps_pos
  have hlast := plannedSoc_eq_soc hbuilt hx hb hnot (by omega : config.nTimesteps - 1 < config.nTimesteps)
  have hsucc : config.nTimesteps = (config.nTimesteps - 1) + 1 := by omega
  rw [lastSoc, ← hlast, plannedSoc]
  nth_rewrite 1 [hsucc]
  rw [charged_succ, plannedSoc]
  ring

end Depot

/-- **The plan is safe exactly when its last step fits.**  For every state and configuration the
builder accepts, every feasible assignment and every vehicle that is not incoming: the physical SoC
stays within [0.1, 1.0] at every step including the end of the horizon, and meets the requirement at
departure, if and only if the charge of the last step fits into what the SoC variable of that step
leaves. -/
theorem planned_soc_safe_iff (state : DepotState) (config : DepotConfig) (horizonStart : Option Stamp)
    (utcNow : ℚ) (m : ChargingModel)
    (hm : buildOptimizationModel state config horizonStart utcNow = .ok m)
    (x : OptVar → ℚ) (hx : m.Feasible x) (b : VehicleId) (hb : b ∈ state.vehicleSocs.keys)
    (hnot : ∀ iv ∈ state.incomingVehicles, iv.vehicleId ≠ b) :
    PlanSafe state config x b ↔ LastStepFits state config x b := by
  obtain ⟨i, hbuilt, rfl⟩ := built_of_ok hm
  have hb' : b ∈ i.vehicles := by
    rw [Inputs.vehicles, hbuilt.state_eq]
    exact hb
  have hnot' : i.isIncoming b = false := by
    rw [Inputs.isIncoming, hbuilt.state_eq, List.any_eq_false]
    intro iv hiv
    simpa using hnot iv hiv
  have hend := plannedSoc_end hbuilt hx hb' hnot'
  refine ⟨?_, ?_⟩
  · intro hsafe
    have hbound := hsafe.bounded config.nTimesteps le_rfl
    rw [hend] at hbound
    refine ⟨hbound.1, hbound.2, ?_⟩
    intro hd
    have hmin := hsafe.departs _ hd le_rfl
    rw [Int.toNat_natCast, hend] at hmin
    exact hmin
  · intro hfits
    refine ⟨?_, ?_⟩
    · intro t ht
      rcases Nat.lt_or_eq_of_le ht with hlt | rfl
      · rw [plannedSoc_eq_soc hbuilt hx hb' hnot' hlt]
        exact Inputs.soc_bounds hx hb' (hbuilt.config_eq ▸ hlt)
      · rw [hend]
        exact ⟨hfits.lower, hfits.upper⟩
    · intro d hd hle
      rcases lt_or_eq_of_le hle with hlt | rfl
      · -- within the horizon the departure rule constrains the SoC variable
        have hstep : i.departureStep b = some d := by
          rw [Inputs.departureStep, hbuilt.state_eq, hbuilt.config_eq, hd]
          exact if_pos hlt
        have hnonneg := hbuilt.departure_nonneg b hb' d hstep
        have hmin := Inputs.soc_departure hx hb' hstep
        rw [Inputs.socMin, hbuilt.state_eq] at hmin
        rw [plannedSoc_eq_soc hbuilt hx hb' hnot' (by omega)]
        exact hmin
      · rw [Int.toNat_natCast, hend]
        exact hfits.departs hd

/-- A depot with one bus of 100 kWh, one 50 kW charger and a horizon of two quarter hours. -/
def oneBusConfig : DepotConfig where
  vehicleCapacities := Dict.ofList [("bus_1", 100)]
  vehicleMaxChargeKw := Dict.ofList [("bus_1", 50)]
  chargerGroups := Dict.ofList [(50, 1)]
  chargerEfficiency := 1
  chargerVehicleAccess := Dict.empty
  batteryCapacity := 0
  batteryPower := 0
  nTimesteps := 2

/-- The bus is in the depot with the given SoC; every price is zero. -/
def oneBusState (soc : ℚ) : DepotState where
  vehicleSocs := Dict.ofList [("bus_1", soc)]
  batterySoc := 1 / 2
  prices := [0, 0]
  demandChargeRate := 0
  currentMonthPeak := 0
  vehicleAvailability := Dict.ofList [("bus_1", [true, true])]
  energyRequirements := Dict.empty
  departureTimes := Dict.empty
  buildingPower := [0, 0]

/-- The assignment that charges with `p0` and then with `p1` kW. -/
def twoStepPlan (soc p0 p1 : ℚ) : OptVar → ℚ
  | .pCharge _ t => if t = 0 then p0 else p1
  | .soc _ t => if t = 0 then soc else soc + p0 / 400
  | .yCharge _ _ => 1
  | .pGrid t => if t = 0 then p0 else p1
  | .pPeak => 50
  | .socBatt _ => 1 / 2
  | _ => 0

def oneBusModel (soc : ℚ) : ChargingModel :=
  Inputs.chargingModel ⟨oneBusState soc, oneBusConfig, Dict.empty, requiredPrecondAt []⟩

/-- Charging in the first step only is safe. -/
theorem planned_soc_safe_early_charge : PlanSafe (oneBusState (1 / 2)) oneBusConfig
    (twoStepPlan (1 / 2) 40 0) "bus_1" := by
  have hm : buildOptimizationModel (oneBusState (1 / 2)) oneBusConfig (some (.naive 0)) 0 =
      .ok (oneBusModel (1 / 2)) := by
    decide +kernel
  apply (planned_soc_safe_iff _ _ _ _ _ hm _ (by decide +kernel) "bus_1" (by decide +kernel)
    (by decide +kernel)).mpr
  refine ⟨by decide +kernel, by decide +kernel, ?_⟩
  intro hd
  cases hd

/-- A bus at 95 % is charged with 40 kW in the last step, to 105 %. -/
theorem last_step_overcharges :
    buildOptimizationModel (oneBusState (19 / 20)) oneBusConfig (some (.naive 0)) 0 =
      .ok (oneBusModel (19 / 20)) ∧
    (oneBusModel (19 / 20)).Feasible (twoStepPlan (19 / 20) 0 40) ∧
    plannedSoc (oneBusState (19 / 20)) oneBusConfig (twoStepPlan (19 / 20) 0 40) "bus_1" 2 = 21 / 20 ∧
    ¬ PlanSafe (oneBusState (19 / 20)) oneBusConfig (twoStepPlan (19 / 20) 0 40) "bus_1" := by
  have hsoc : plannedSoc (oneBusState (19 / 20)) oneBusConfig (twoStepPlan (19 / 20) 0 40) "bus_1" 2 =
      21 / 20 := by
    decide +kernel
  refine ⟨by decide +kernel, by decide +kernel, hsoc, ?_⟩
  intro hsafe
  have hupper := (hsafe.bounded 2 le_rfl).2
  rw [hsoc] at hupper
  norm_num at hupper

/-! ### Incoming vehicles -/

def arrivalStep (config : DepotConfig) (start : Stamp) (iv : IncomingVehicle) : ℤ :=
  match timestepOf config start iv.arrivalTime with
  | .ok t => t
  | .error _ => -1

def arrivesInHorizon (config : DepotConfig) (start : Stamp) (iv : IncomingVehicle) : Bool :=
  decide (0 ≤ arrivalStep config start iv ∧ arrivalStep config start iv < config.nTimesteps)

def lastHandoff (state : DepotState) (config : DepotConfig) (start : Stamp) (b : VehicleId) :
    Option IncomingVehicle :=
  (state.incomingVehicles.filter fun iv =>
    decide (iv.vehicleId = b) && arrivesInHorizon config start iv).getLast?

/-- The equations of the SoC of a vehicle: at the start, at its arrival, and from step to step. -/
def isSocEquation (b : VehicleId) : ConstraintName → Bool
  | .socInitCon b' => b' == b
  | .incomingVehicleSoc b' => b' == b
  | .socDynamics b' _ => b' == b
  | _ => false

/-- The assignment solves the SoC equations of the vehicle, whatever it does elsewhere. -/
def SolvesSoc (m : ChargingModel) (b : VehicleId) (x : OptVar → ℚ) : Prop :=
  ∀ k ∈ m.constraints, isSocEquation b k.1 = true → k.2.Holds x

/-- The model ties the trajectory of a handed-off vehicle to its expected SoC: it arrives at a step of
the horizon, its SoC there is not free but determined by the SoC equations, and in every feasible
assignment a constrained departure is met by the expected SoC plus the energy charged from arrival to
departure. -/
structure TiesHandoff (state : DepotState) (config : DepotConfig) (start : Stamp) (m : ChargingModel)
    (iv : IncomingVehicle) : Prop where
  arrives : 0 ≤ arrivalStep config start iv ∧ arrivalStep config start iv < config.nTimesteps
  determined : ∀ x, SolvesSoc m iv.vehicleId x →
    x (.soc iv.vehicleId (arrivalStep config start iv).toNat) = iv.expectedSoc
  departure : ∀ x, m.Feasible x → ∀ d : ℤ, state.departureTimes.get? iv.vehicleId = some d →
    d < config.nTimesteps →
    requiredSoc state iv.vehicleId ≤ iv.expectedSoc + (charged config x iv.vehicleId d.toNat -
      charged config x iv.vehicleId (arrivalStep config start iv).toNat)

/-- The handoff decides the tie of its vehicle: the vehicle is one of the model's, and the last handoff
of it inside the horizon has this arrival step and this expected SoC. -/
def DecidesTie (state : DepotState) (config : DepotConfig) (start : Stamp) (iv : IncomingVehicle) :
    Prop :=
  iv.vehicleId ∈ state.vehicleSocs.keys ∧ ∃ last, lastHandoff state config start iv.vehicleId = some last ∧
    arrivalStep config start last = arrivalStep config start iv ∧ last.expectedSoc = iv.expectedSoc

theorem filter_arrivalEntries (config : DepotConfig) (start : Stamp) (b : VehicleId)
    (handoffs : List IncomingVehicle) :
    ((handoffs.filterMap (arrivalEntry config ∘ fun iv => (iv, arrivalStep config start iv))).filter
      fun p => p.1 = b).map Prod.snd =
    (handoffs.filter fun iv => decide (iv.vehicleId = b) && arrivesInHorizon config start iv).map
      fun iv => ((arrivalStep config start iv).toNat, iv.expectedSoc) := by
  induction handoffs with
  | nil => rfl
  | cons iv rest ih =>
    rw [List.filterMap_cons, List.filter_cons]
    by_cases hin : 0 ≤ arrivalStep config start iv ∧ arrivalStep config start iv < config.nTimesteps
    · have harr : arrivesInHorizon config start iv = true := decide_eq_true hin
      have hentry : (arrivalEntry config ∘ fun iv => (iv, arrivalStep config start iv)) iv =
          some (iv.vehicleId, ((arrivalStep config start iv).toNat, iv.expectedSoc)) := if_pos hin
      simp only [hentry, harr, Bool.and_true]
      by_cases hb : iv.vehicleId = b
      · rw [List.filter_cons_of_pos (by simpa using hb), if_pos (by simpa using hb), List.map_cons,
          List.map_cons, ih]
      · rw [List.filter_cons_of_neg (by simpa using hb), if_neg (by simpa using hb), ih]
    · have harr : arrivesInHorizon config start iv = false := decide_eq_false hin
      have hentry : (arrivalEntry config ∘ fun iv => (iv, arrivalStep config start iv)) iv = none :=
        if_neg hin
      simp only [hentry, harr, Bool.and_false, Bool.false_eq_true, if_false]
      exact ih

theorem timestepOf_incoming {state : DepotState} {config : DepotConfig} {start : Stamp}
    {arrivals : Dict VehicleId (ℕ × ℚ)} (h : incomingArrivals state config start = .ok arrivals)
    {iv : IncomingVehicle} (hiv : iv ∈ state.incomingVehicles) :
    timestepOf config start iv.arrivalTime = .ok (arrivalStep config start iv) := by
  unfold incomingArrivals at h
  rw [bind_eq_ok] at h
  obtain ⟨_, hcollect, _⟩ := h
  obtain ⟨r, _, hr⟩ := ok_of_collect hcollect iv hiv
  rw [bind_eq_ok] at hr
  obtain ⟨t, ht, _⟩ := hr
  rw [arrivalStep, ht]

theorem get?_incomingArrivals {state : DepotState} {config : DepotConfig} {start : Stamp}
    {arrivals : Dict VehicleId (ℕ × ℚ)} (h : incomingArrivals state config start = .ok arrivals)
    (b : VehicleId) :
    arrivals.get? b = (lastHandoff state config start b).map fun iv =>
      ((arrivalStep config start iv).toNat, iv.expectedSoc) := by
  have hok : ∀ iv ∈ state.incomingVehicles, (do
      let t ← timestepOf config start iv.arrivalTime
      return (iv, t) : Except ModelError (IncomingVehicle × ℤ)) =
        .ok (iv, arrivalStep config start iv) := by
    intro iv hiv
    rw [timestepOf_incoming h hiv]
    rfl
  unfold incomingArrivals at h
  rw [collect_eq_map _ _ _ hok] at h
  obtain rfl := Except.ok.inj h
  rw [Dict.get?_ofList, lastHandoff, List.filterMap_map, ← List.getLast?_map]
  rw [filter_arrivalEntries, List.getLast?_map]

structure SocRules (i : Inputs) (b : VehicleId) (x : OptVar → ℚ) : Prop where
  init : ∀ c, i.socInitRule b = some c → c.Holds x
  incoming : ∀ c, i.incomingVehicleSocRule b = some c → c.Holds x
  dynamics : ∀ t < i.config.nTimesteps, ∀ c, i.socDynamicsRule b t = some c → c.Holds x

/-- The rows under the names of the SoC equations come from the three rules. -/
theorem mem_constraints_soc {i : Inputs} {b : VehicleId} {k : ConstraintName × OptConstraint}
    (hk : k ∈ i.chargingModel.constraints) (hname : isSocEquation b k.1 = true) :
    b ∈ i.vehicles ∧ (i.socInitRule b = some k.2 ∨ i.incomingVehicleSocRule b = some k.2 ∨
      ∃ t < i.config.nTimesteps, i.socDynamicsRule b t = some k.2) := by
  obtain ⟨name, c⟩ := k
  cases name with
  | socInitCon b' | incomingVehicleSoc b' | socDynamics b' t =>
    obtain rfl : b' = b := by simpa [isSocEquation] using hname
    simp [Inputs.chargingModel, Inputs.constraints, Inputs.components, Inputs.mem_overVehicles,
      Inputs.mem_overSteps, Inputs.mem_overBoth, Inputs.mem_single, Inputs.symmetryBreak,
      Inputs.energyCapConstraints] at hk
    grind
  | _ => cases hname

theorem solvesSoc_of_rules {i : Inputs} {b : VehicleId} {x : OptVar → ℚ}
    (h : b ∈ i.vehicles → SocRules i b x) : SolvesSoc i.chargingModel b x := by
  intro k hk hname
  obtain ⟨hb, hinit | hincoming | ⟨t, ht, hdynamics⟩⟩ := mem_constraints_soc hk hname
  · exact (h hb).init _ hinit
  · exact (h hb).incoming _ hincoming
  · exact (h hb).dynamics t ht _ hdynamics

theorem arrives_of_lastHandoff {state : DepotState} {config : DepotConfig} {start : Stamp}
    {b : VehicleId} {last : IncomingVehicle} (h : lastHandoff state config start b = some last) :
    0 ≤ arrivalStep config start last ∧ arrivalStep config start last < config.nTimesteps := by
  have hmem := List.mem_of_getLast? h
  rw [List.mem_filter, Bool.and_eq_true] at hmem
  exact of_decide_eq_true hmem.2.2

theorem incomingVehicleSocRule_eq {state : DepotState} {config : DepotConfig} {start : Stamp}
    {i : Inputs} (hbuilt : Built state config start i) (b : VehicleId) :
    i.incomingVehicleSocRule b = (lastHandoff state config start b).map fun last =>
      ⟨.var (.soc b (arrivalStep config start last).toNat), .eq, .constant last.expectedSoc⟩ := by
  rw [Inputs.incomingVehicleSocRule, get?_incomingArrivals hbuilt.arrivals, Option.map_map]
  rfl

/-- An SoC that grows by `k` at every step and is `e` at step `a`, with the power that makes it grow. -/
def ramp (config : DepotConfig) (b : VehicleId) (a : ℕ) (e k : ℚ) : OptVar → ℚ
  | .soc _ t => e + ((t : ℚ) - a) * k
  | .pCharge _ _ =>
    k / (config.chargerEfficiency * config.deltaT / config.vehicleCapacities.getD b 0)
  | _ => 0

theorem chargeRate_ne_zero {state : DepotState} {config : DepotConfig} {start : Stamp} {i : Inputs}
    (hbuilt : Built state config start i) {iv : IncomingVehicle} (hiv : iv ∈ state.incomingVehicles)
    {b : VehicleId} (hb : b ∈ i.vehicles) (hsteps : 1 < config.nTimesteps) :
    config.chargerEfficiency * config.deltaT / config.vehicleCapacities.getD b 0 ≠ 0 := by
  have heta : config.chargerEfficiency ≠ 0 := ne_of_gt hbuilt.valid.efficiency_mem.1
  have hcap : config.vehicleCapacities.getD b 0 ≠ 0 := by
    rcases hbuilt.capacity_ne with hle | hall
    · omega
    · have hne := hall b hb
      rw [Inputs.capacity, hbuilt.config_eq] at hne
      exact hne
  have hdelta : config.deltaT ≠ 0 := by
    intro hzero
    -- the step of the handoff would have been a division by zero
    have hstep := timestepOf_incoming hbuilt.arrivals hiv
    unfold timestepOf at hstep
    split at hstep
    · cases hstep
    · rw [hzero, zero_mul, if_pos rfl] at hstep
      cases hstep
  exact div_ne_zero (mul_ne_zero heta hdelta) hcap

theorem ramp_solves {state : DepotState} {config : DepotConfig} {start : Stamp} {i : Inputs}
    (hbuilt : Built state config start i) {b : VehicleId} (hinc : i.isIncoming b = true) {a : ℕ}
    {e k : ℚ}
    (hrate : k = 0 ∨ config.chargerEfficiency * config.deltaT / config.vehicleCapacities.getD b 0 ≠ 0)
    (hlast : ∀ last, lastHandoff state config start b = some last →
      (arrivalStep config start last).toNat = a ∧ last.expectedSoc = e) :
    SolvesSoc i.chargingModel b (ramp config b a e k) := by
  apply solvesSoc_of_rules
  intro _
  refine ⟨?_, ?_, ?_⟩
  · intro c hc
    rw [Inputs.socInitRule, hinc, if_pos rfl] at hc
    cases hc
  · intro c hc
    rw [incomingVehicleSocRule_eq hbuilt, Option.map_eq_some_iff] at hc
    obtain ⟨last, hsome, rfl⟩ := hc
    obtain ⟨hstep, hsoc⟩ := hlast last hsome
    rw [hstep, hsoc]
    simp [Constraint.Holds, ramp]
  · intro t _ c hc
    rw [Inputs.socDynamicsRule, Inputs.capacity, hbuilt.config_eq] at hc
    by_cases hzero : t = 0
    · rw [if_pos hzero] at hc
      cases hc
    · rw [if_neg hzero] at hc
      cases hc
      obtain ⟨t, rfl⟩ := Nat.exists_eq_succ_of_ne_zero hzero
      have hgrow : config.chargerEfficiency * config.deltaT / config.vehicleCapacities.getD b 0 *
          (k / (config.chargerEfficiency * config.deltaT / config.vehicleCapacities.getD b 0)) = k := by
        rcases hrate with rfl | hne
        · simp
        · exact mul_div_cancel₀ k hne
      simp only [Constraint.Holds, LinExpr.eval_var, LinExpr.eval_add, LinExpr.eval_scale, ramp, hgrow,
        Nat.succ_sub_one]
      push_cast
      ring

/-- Where the SoC equations determine the SoC at a step, the last handoff of the vehicle does. -/
theorem decidesTie_of_determined {state : DepotState} {config : DepotConfig} {start : Stamp}
    {i : Inputs} (hbuilt : Built state config start i) {iv : IncomingVehicle}
    (hiv : iv ∈ state.incomingVehicles)
    (harrives : 0 ≤ arrivalStep config start iv ∧ arrivalStep config start iv < config.nTimesteps)
    (hdet : ∀ x, SolvesSoc i.chargingModel iv.vehicleId x →
      x (.soc iv.vehicleId (arrivalStep config start iv).toNat) = iv.expectedSoc) :
    DecidesTie state config start iv := by
  have hb : iv.vehicleId ∈ i.vehicles := by
    by_contra hnot
    have heq := hdet (fun _ => iv.expectedSoc + 1) (solvesSoc_of_rules fun h => absurd h hnot)
    linarith
  have hinc : i.isIncoming iv.vehicleId = true := by
    rw [Inputs.isIncoming, hbuilt.state_eq, List.any_eq_true]
    exact ⟨iv, hiv, beq_self_eq_true _⟩
  cases hlast : lastHandoff state config start iv.vehicleId with
  | none =>
    -- without an arrival equation every constant SoC is a solution
    have heq := hdet (ramp config iv.vehicleId 0 (iv.expectedSoc + 1) 0)
      (ramp_solves hbuilt hinc (Or.inl rfl) (by rw [hlast]; intro last h; cases h))
    simp [ramp] at heq
  | some last =>
    have hthis : ∀ other, lastHandoff state config start iv.vehicleId = some other →
        (arrivalStep config start other).toNat = (arrivalStep config start last).toNat ∧
          other.expectedSoc = last.expectedSoc := by
      intro other hother
      cases hlast.symm.trans hother
      exact ⟨rfl, rfl⟩
    have hinside := arrives_of_lastHandoff hlast
    have hsoc := hdet _ (ramp_solves hbuilt hinc (Or.inl rfl) hthis)
    simp only [ramp, mul_zero, add_zero] at hsoc
    refine ⟨?_, last, hlast, ?_, hsoc⟩
    · rw [Inputs.vehicles, hbuilt.state_eq] at hb
      exact hb
    · rcases Nat.lt_or_ge 1 config.nTimesteps with hsteps | hsteps
      · -- a growing SoC takes the expected value at one step only
        have hgrow := hdet _ (ramp_solves hbuilt hinc (k := 1)
          (Or.inr (chargeRate_ne_zero hbuilt hiv hb hsteps)) hthis)
        simp only [ramp, mul_one, hsoc, add_eq_left, sub_eq_zero, Nat.cast_inj] at hgrow
        omega
      · omega

theorem departure_of_tied {state : DepotState} {config : DepotConfig} {start : Stamp} {i : Inputs}
    (hbuilt : Built state config start i) {b : VehicleId} (hb : b ∈ i.vehicles) {a : ℕ} {e : ℚ}
    (ha : a < config.nTimesteps) {x : OptVar → ℚ} (hx : i.chargingModel.Feasible x)
    (htie : x (.soc b a) = e) {d : ℤ} (hd : state.departureTimes.get? b = some d)
    (hlt : d < config.nTimesteps) :
    requiredSoc state b ≤ e + (charged config x b d.toNat - charged config x b a) := by
  obtain rfl := hbuilt.config_eq
  have hstep : i.departureStep b = some d := by
    rw [Inputs.departureStep, hbuilt.state_eq, hd]
    exact if_pos hlt
  have hnonneg := hbuilt.departure_nonneg b hb d hstep
  have hmin := Inputs.soc_departure hx hb hstep
  rw [Inputs.socMin, hbuilt.state_eq] at hmin
  have hta := soc_sub_charged hx hb a ha
  have htd := soc_sub_charged hx hb d.toNat (by omega)
  rw [requiredSoc]
  linarith

/-- **Which handoffs the model ties.**  For every state and configuration the builder accepts and every
incoming vehicle, whenever it arrives: its SoC at arrival is determined as its expected SoC, and a
departure is met by expected SoC plus charge, if and only if the handoff decides the tie of its
vehicle. -/
theorem incoming_soc_tied_iff (state : DepotState) (config : DepotConfig)
    (horizonStart : Option Stamp) (utcNow : ℚ) (m : ChargingModel)
    (hm : buildOptimizationModel state config horizonStart utcNow = .ok m)
    (iv : IncomingVehicle) (hiv : iv ∈ state.incomingVehicles) :
    TiesHandoff state config (horizonStart.getD (.naive utcNow)) m iv ↔
      DecidesTie state config (horizonStart.getD (.naive utcNow)) iv := by
  obtain ⟨i, hbuilt, rfl⟩ := built_of_ok hm
  generalize horizonStart.getD (.naive utcNow) = start at hbuilt
  have hvehicles : i.vehicles = state.vehicleSocs.keys := by
    rw [Inputs.vehicles, hbuilt.state_eq]
  refine ⟨?_, ?_⟩
  · intro hties
    exact decidesTie_of_determined hbuilt hiv hties.arrives hties.determined
  · intro ⟨hb, last, hlast, hstep, hsoc⟩
    have harrives := arrives_of_lastHandoff hlast
    rw [hstep] at harrives
    have hrule : i.incomingVehicleSocRule iv.vehicleId = some
        ⟨.var (.soc iv.vehicleId (arrivalStep config start iv).toNat), .eq,
          .constant iv.expectedSoc⟩ := by
      rw [incomingVehicleSocRule_eq hbuilt, hlast, Option.map_some, hstep, hsoc]
    have hdet : ∀ x, SolvesSoc i.chargingModel iv.vehicleId x →
        x (.soc iv.vehicleId (arrivalStep config start iv).toNat) = iv.expectedSoc := by
      intro x hx
      have hmem : (ConstraintName.incomingVehicleSoc iv.vehicleId, _) ∈
          i.overVehicles .incomingVehicleSoc i.incomingVehicleSocRule :=
        i.mem_overVehicles.mpr ⟨_, hvehicles ▸ hb, _, hrule, rfl⟩
      have hrow := hx _ (List.mem_flatten.mpr ⟨_, by simp [Inputs.components], hmem⟩)
        (beq_self_eq_true iv.vehicleId)
      simpa [Constraint.Holds] using hrow
    refine ⟨harrives, hdet, ?_⟩
    intro x hx d hd hlt
    have htie := hdet x fun k hk _ => hx.holds k hk
    exact departure_of_tied hbuilt (hvehicles ▸ hb) (by omega) hx htie hd hlt

/-- A bus is handed over with the given expected SoC and arrival time; it departs at step 1. -/
def handoff (soc arrival : ℚ) : IncomingVehicle :=
  ⟨"bus_1", "B1", soc, .naive arrival, 100, 50, "depot_2"⟩

def handoffState (soc arrival : ℚ) : DepotState :=
  { oneBusState (1 / 2) with
    departureTimes := Dict.ofList [("bus_1", 1)]
    incomingVehicles := [handoff soc arrival] }

def handoffModel (soc arrival : ℚ) (arrivals : Dict VehicleId (ℕ × ℚ)) : ChargingModel :=
  Inputs.chargingModel ⟨handoffState soc arrival, oneBusConfig, arrivals, requiredPrecondAt []⟩

/-- A handoff that arrives at the start of the horizon is tied. -/
theorem incoming_soc_tied_on_arrival :
    TiesHandoff (handoffState (9 / 10) 0) oneBusConfig (.naive 0)
      (handoffModel (9 / 10) 0 (Dict.ofList [("bus_1", (0, 9 / 10))])) (handoff (9 / 10) 0) := by
  have hm : buildOptimizationModel (handoffState (9 / 10) 0) oneBusConfig (some (.naive 0)) 0 =
      .ok (handoffModel (9 / 10) 0 (Dict.ofList [("bus_1", (0, 9 / 10))])) := by
    decide +kernel
  apply (incoming_soc_tied_iff _ _ _ _ _ hm _ (List.mem_singleton.mpr rfl)).mpr
  refine ⟨by decide +kernel, handoff (9 / 10) 0, ?_, rfl, rfl⟩
  show lastHandoff (handoffState (9 / 10) 0) oneBusConfig (.naive 0) "bus_1" = _
  decide +kernel

/-- A bus that arrived an hour before the horizon with 20 % is free to be planned as if it were full:
without any charging it departs at step 1 with the required 99 %. -/
theorem early_handoff_untied :
    buildOptimizationModel (handoffState (1 / 5) (-3600)) oneBusConfig (some (.naive 0)) 0 =
      .ok (handoffModel (1 / 5) (-3600) Dict.empty) ∧
    (handoffModel (1 / 5) (-3600) Dict.empty).Feasible (twoStepPlan 1 0 0) ∧
    (handoff (1 / 5) (-3600)).expectedSoc + charged oneBusConfig (twoStepPlan 1 0 0) "bus_1" 1 <
      requiredSoc (handoffState (1 / 5) (-3600)) "bus_1" ∧
    ¬ TiesHandoff (handoffState (1 / 5) (-3600)) oneBusConfig (.naive 0)
      (handoffModel (1 / 5) (-3600) Dict.empty) (handoff (1 / 5) (-3600)) := by
  refine ⟨by decide +kernel, by decide +kernel, by decide +kernel, ?_⟩
  intro hties
  have hnonneg := hties.arrives.1
  have hstep : arrivalStep oneBusConfig (.naive 0) (handoff (1 / 5) (-3600)) = -4 := by
    decide +kernel
  omega

end FavoniusBackend.Optimizer.SocTrajectory
