import FavoniusBackend.Lib.Guard
import FavoniusBackend.Lib.Milp
import FavoniusBackend.Lib.Numeric
import FavoniusBackend.Optimizer.Models

/-!
# The charging model

`core/optimizer/milp_model.py`: input validation and `build_optimization_model`.  The built Pyomo model
is represented as data (`Lib.Milp`), one rule per constraint component under the source's name; a rule
that returns `pyo.Constraint.Skip` is `none`.

Building can fail after the inputs were accepted: `KeyError` and `IndexError` for steps outside the
horizon, `ZeroDivisionError` for a zero capacity, efficiency or step length, `TypeError` for a mix of
naive and aware time stamps, `ValueError` for an incomplete energy-cap tariff.  `buildOptimizationModel`
raises them in the order in which the source evaluates the rules and then returns `chargingModel`.
-/

namespace FavoniusBackend.Optimizer.MilpModel

open Lib Lib.Guard Lib.Milp
open Lib.Numeric Optimizer.Models

/-! ### Validation -/

/-- The checks of `_validate_inputs`, each with the values its message quotes. -/
inductive ValidationError
  | vehicleSocsEmpty
  | pricesLength (length nTimesteps : ℕ)
  | buildingPowerLength (length nTimesteps : ℕ)
  | availabilityKeys
  | availabilityLength (vid : VehicleId) (length nTimesteps : ℕ)
  | capacityKeys
  | chargerGroupsEmpty
  | chargerRatedKw (ratedKw : ℚ)
  | chargerCount (ratedKw : ℚ) (count : ℤ)
  | maxSitePower
  | chargerEfficiency
  | batteryCapacity
  | batteryPower
  deriving DecidableEq, Repr

/-- `InvalidStateError` or `InvalidConfigError`. -/
inductive ErrorKind
  | invalidState
  | invalidConfig
  deriving DecidableEq, Repr

def ValidationError.kind : ValidationError → ErrorKind
  | .vehicleSocsEmpty | .pricesLength _ _ | .buildingPowerLength _ _ | .availabilityKeys
  | .availabilityLength _ _ _ => .invalidState
  | _ => .invalidConfig

/-- The `field` argument of the exception. -/
def ValidationError.field : ValidationError → String
  | .vehicleSocsEmpty => "vehicle_socs"
  | .pricesLength _ _ => "prices"
  | .buildingPowerLength _ _ => "building_power"
  | .availabilityKeys | .availabilityLength _ _ _ => "vehicle_availability"
  | .capacityKeys => "vehicle_capacities"
  | .chargerGroupsEmpty | .chargerRatedKw _ | .chargerCount _ _ => "charger_groups"
  | .maxSitePower => "max_site_power"
  | .chargerEfficiency => "charger_efficiency"
  | .batteryCapacity => "battery_capacity"
  | .batteryPower => "battery_power"

def ValidationError.message (repr : ℚ → String) : ValidationError → String
  | .vehicleSocsEmpty => "vehicle_socs cannot be empty"
  | .pricesLength length n => s!"prices length ({length}) must match n_timesteps ({n})"
  | .buildingPowerLength length n => s!"building_power length ({length}) must match n_timesteps ({n})"
  | .availabilityKeys => "vehicle_socs keys must match vehicle_availability keys"
  | .availabilityLength vid length n =>
    s!"vehicle_availability[{vid}] length ({length}) must match n_timesteps ({n})"
  | .capacityKeys => "vehicle_capacities keys must match vehicle_socs keys"
  | .chargerGroupsEmpty => "charger_groups cannot be empty"
  | .chargerRatedKw kw => "Charger rated_kw must be positive, got " ++ repr kw
  | .chargerCount kw count => "Charger count must be positive for " ++ repr kw ++ s!"kW, got {count}"
  | .maxSitePower => "max_site_power must be positive"
  | .chargerEfficiency => "charger_efficiency must be in (0, 1]"
  | .batteryCapacity => "battery_capacity must not be negative"
  | .batteryPower => "battery_power must not be negative"

/-- `set(a.keys()) == set(b.keys())`. -/
def SameKeys {ν μ : Type} (a : Dict VehicleId ν) (b : Dict VehicleId μ) : Prop :=
  (∀ k ∈ a.keys, k ∈ b.keys) ∧ ∀ k ∈ b.keys, k ∈ a.keys

instance {ν μ : Type} (a : Dict VehicleId ν) (b : Dict VehicleId μ) : Decidable (SameKeys a b) :=
  inferInstanceAs (Decidable (_ ∧ _))

def validateInputs (state : DepotState) (config : DepotConfig) : Except ValidationError Unit := do
  require (state.vehicleSocs.keys ≠ []) .vehicleSocsEmpty
  require (state.prices.length = config.nTimesteps)
    (.pricesLength state.prices.length config.nTimesteps)
  require (state.buildingPower.length = config.nTimesteps)
    (.buildingPowerLength state.buildingPower.length config.nTimesteps)
  require (SameKeys state.vehicleSocs state.vehicleAvailability) .availabilityKeys
  forEach (fun entry => require (entry.2.length = config.nTimesteps)
    (.availabilityLength entry.1 entry.2.length config.nTimesteps)) state.vehicleAvailability.items
  require (SameKeys state.vehicleSocs config.vehicleCapacities) .capacityKeys
  require (config.chargerGroups.keys ≠ []) .chargerGroupsEmpty
  forEach (fun entry => do
    require (0 < entry.1) (.chargerRatedKw entry.1)
    require (0 < entry.2) (.chargerCount entry.1 entry.2)) config.chargerGroups.items
  require (0 < config.maxSitePower) .maxSitePower
  require (0 < config.chargerEfficiency ∧ config.chargerEfficiency ≤ 1) .chargerEfficiency
  require (0 ≤ config.batteryCapacity) .batteryCapacity
  require (0 ≤ config.batteryPower) .batteryPower

/-- What the accepted inputs satisfy. -/
structure ValidInputs (state : DepotState) (config : DepotConfig) : Prop where
  socs_ne_nil : state.vehicleSocs.keys ≠ []
  prices_length : state.prices.length = config.nTimesteps
  building_power_length : state.buildingPower.length = config.nTimesteps
  availability_keys : SameKeys state.vehicleSocs state.vehicleAvailability
  availability_length : ∀ e ∈ state.vehicleAvailability.items, e.2.length = config.nTimesteps
  capacity_keys : SameKeys state.vehicleSocs config.vehicleCapacities
  groups_ne_nil : config.chargerGroups.keys ≠ []
  groups_pos : ∀ e ∈ config.chargerGroups.items, 0 < e.1 ∧ 0 < e.2
  max_site_power_pos : 0 < config.maxSitePower
  efficiency_mem : 0 < config.chargerEfficiency ∧ config.chargerEfficiency ≤ 1
  battery_capacity_nonneg : 0 ≤ config.batteryCapacity
  battery_power_nonneg : 0 ≤ config.batteryPower

/-- **Validation accepts exactly the valid inputs.** -/
theorem validateInputs_eq_ok (state : DepotState) (config : DepotConfig) :
    validateInputs state config = .ok () ↔ ValidInputs state config := by
  unfold validateInputs
  simp only [seq_eq_ok, require_eq_ok, forEach_eq_ok]
  refine ⟨?_, ?_⟩
  · intro ⟨h1, h2, h3, h4, h5, h6, h7, h8, h9, h10, h11, h12⟩
    exact ⟨h1, h2, h3, h4, h5, h6, h7, h8, h9, h10, h11, h12⟩
  · intro h
    exact ⟨h.socs_ne_nil, h.prices_length, h.building_power_length, h.availability_keys,
      h.availability_length, h.capacity_keys, h.groups_ne_nil, h.groups_pos, h.max_site_power_pos,
      h.efficiency_mem, h.battery_capacity_nonneg, h.battery_power_nonneg⟩

/-! ### Variables and constraint names -/

inductive OptVar
  | pCharge (b : VehicleId) (t : ℕ)
  | soc (b : VehicleId) (t : ℕ)
  | yCharge (b : VehicleId) (t : ℕ)
  | pGrid (t : ℕ)
  | pPeak
  | pBatt (t : ℕ)
  | socBatt (t : ℕ)
  | pBattDischarge (t : ℕ)
  | pBattCharge (t : ℕ)
  | pPrecond (t : ℕ)
  | precondSlack (t : ℕ)
  | totalKwhPeriod
  | kwhUnder
  | kwhOver
  deriving DecidableEq, Repr

inductive ConstraintName
  | socInitCon (b : VehicleId)
  | incomingVehicleSoc (b : VehicleId)
  | socDynamics (b : VehicleId) (t : ℕ)
  | availabilityCon (b : VehicleId) (t : ℕ)
  | departureSocMin (b : VehicleId)
  | departureSocMax (b : VehicleId)
  | chargerLink (b : VehicleId) (t : ℕ)
  | chargerCount (t : ℕ)
  | chargerPower (t : ℕ)
  | symmetryBreak (iIdx t : ℕ)
  | battSplit (t : ℕ)
  | precondConstraint (t : ℕ)
  | gridBalance (t : ℕ)
  | sitePowerLimit (t : ℕ)
  | peakTracking (t : ℕ)
  | movingPeak
  | battInit
  | battDynamics (t : ℕ)
  | totalKwhDef
  | kwhSplit
  | kwhUnderCap
  deriving DecidableEq, Repr

abbrev OptConstraint := Constraint OptVar

abbrev ChargingModel := Model OptVar ConstraintName

/-- Everything the rules read: the inputs, `incoming_arrival_timesteps` and `required_precond_list`. -/
structure Inputs where
  state : DepotState
  config : DepotConfig
  incomingArrivalTimesteps : Dict VehicleId (ℕ × ℚ)
  requiredPrecond : ℕ → ℚ

namespace Inputs

variable (i : Inputs)

/-- `model.B`. -/
def vehicles : List VehicleId := i.state.vehicleSocs.keys

/-- `model.T`. -/
def steps : List ℕ := List.range i.config.nTimesteps

/-- `state.vehicle_availability[b][t]`. -/
def available (b : VehicleId) (t : ℕ) : Bool :=
  ((i.state.vehicleAvailability.get? b).getD []).getD t false

/-- `config.vehicle_max_charge_kw.get(b, 80.0)`. -/
def maxKw (b : VehicleId) : ℚ := i.config.vehicleMaxChargeKw.getD b 80

def capacity (b : VehicleId) : ℚ := i.config.vehicleCapacities.getD b 0

def socInit (b : VehicleId) : ℚ := i.state.vehicleSocs.getD b 0

def hasBattery : Bool := decide (0 < i.config.batteryCapacity) && decide (0 < i.config.batteryPower)

def battPower : ℚ := if i.hasBattery then i.config.batteryPower else 0

def totalChargers : ℤ := (i.config.chargerGroups.items.map Prod.snd).sum

def totalChargerPower : ℚ := (i.config.chargerGroups.items.map fun e => e.1 * (e.2 : ℚ)).sum

/-- `vehicle_list`: the vehicles by id. -/
def vehicleList : List VehicleId := i.vehicles.insertionSort (· ≤ ·)

def isIncoming (b : VehicleId) : Bool := i.state.incomingVehicles.any fun iv => iv.vehicleId == b

/-- The departure step that the departure rules constrain, when it lies before the horizon's end. -/
def departureStep (b : VehicleId) : Option ℤ :=
  match i.state.departureTimes.get? b with
  | some t => if t < i.config.nTimesteps then some t else none
  | none => none

/-- The required SoC at departure: per vehicle, or 0.99. -/
def socMin (b : VehicleId) : ℚ := i.state.vehicleDepartureSocMin.getD b (99 / 100)

def socMax (b : VehicleId) : ℚ := i.state.vehicleDepartureSocMax.getD b 1

/-! ### The rules -/

def socInitRule (b : VehicleId) : Option OptConstraint :=
  if i.isIncoming b then none
  else some ⟨.var (.soc b 0), .eq, .constant (i.socInit b)⟩

def incomingVehicleSocRule (b : VehicleId) : Option OptConstraint :=
  (i.incomingArrivalTimesteps.get? b).map fun arrival =>
    ⟨.var (.soc b arrival.1), .eq, .constant arrival.2⟩

def socDynamicsRule (b : VehicleId) (t : ℕ) : Option OptConstraint :=
  if t = 0 then none
  else some ⟨.var (.soc b t), .eq, .var (.soc b (t - 1)) +
    (i.config.chargerEfficiency * i.config.deltaT / i.capacity b) * LinExpr.var (.pCharge b (t - 1))⟩

def availabilityRule (b : VehicleId) (t : ℕ) : Option OptConstraint :=
  if i.available b t then none else some ⟨.var (.pCharge b t), .eq, .constant 0⟩

def departureSocMinRule (b : VehicleId) : Option OptConstraint :=
  (i.departureStep b).map fun t => ⟨.var (.soc b t.toNat), .ge, .constant (i.socMin b)⟩

def departureSocMaxRule (b : VehicleId) : Option OptConstraint :=
  (i.departureStep b).bind fun t =>
    if i.socMax b < 1 then some ⟨.var (.soc b t.toNat), .le, .constant (i.socMax b)⟩ else none

def chargerLinkRule (b : VehicleId) (t : ℕ) : Option OptConstraint :=
  some ⟨.var (.pCharge b t), .le, i.maxKw b * LinExpr.var (.yCharge b t)⟩

def chargerCountRule (t : ℕ) : Option OptConstraint :=
  some ⟨.sum (i.vehicles.map fun b => (1, .yCharge b t)), .le, .constant i.totalChargers⟩

def chargerPowerRule (t : ℕ) : Option OptConstraint :=
  some ⟨.sum (i.vehicles.map fun b => (1, .pCharge b t)), .le, .constant i.totalChargerPower⟩

def symmetryBreakRule (iIdx t : ℕ) : Option OptConstraint :=
  match i.vehicleList[iIdx]?, i.vehicleList[iIdx + 1]? with
  | some vehicleI, some vehicleJ =>
    if i.available vehicleI t && i.available vehicleJ t then
      some ⟨.var (.yCharge vehicleI t), .ge, .var (.yCharge vehicleJ t)⟩
    else none
  | _, _ => none

def breaksSymmetry : Bool :=
  decide (1 < i.vehicleList.length) && decide ((i.vehicleList.length : ℤ) ≤ i.totalChargers)

def battSplitRule (t : ℕ) : Option OptConstraint :=
  some ⟨.var (.pBatt t), .eq, .var (.pBattDischarge t) - .var (.pBattCharge t)⟩

def precondRule (t : ℕ) : Option OptConstraint :=
  some ⟨.var (.pPrecond t) + .var (.precondSlack t), .ge, .constant (i.requiredPrecond t)⟩

def gridBalanceRule (t : ℕ) : Option OptConstraint :=
  some ⟨.var (.pGrid t), .eq,
    LinExpr.sum (i.vehicles.map fun b => (1, .pCharge b t)) +
      LinExpr.constant (i.state.buildingPower.getD t 0 + i.config.buildingLoadAssumptionKw) +
      LinExpr.var (.pPrecond t) -
      (i.config.batteryEfficiency * LinExpr.var (.pBattDischarge t) -
        (1 / i.config.batteryEfficiency) * LinExpr.var (.pBattCharge t))⟩

def sitePowerLimitRule (t : ℕ) : Option OptConstraint :=
  some ⟨.var (.pGrid t), .le, .constant i.config.maxSitePower⟩

def peakTrackingRule (t : ℕ) : Option OptConstraint :=
  some ⟨.var .pPeak, .ge, .var (.pGrid t)⟩

def movingPeakRule : Option OptConstraint :=
  some ⟨.var .pPeak, .ge, .constant i.state.currentMonthPeak⟩

def battInitRule : Option OptConstraint :=
  if i.hasBattery then some ⟨.var (.socBatt 0), .eq, .constant i.state.batterySoc⟩ else none

def battDynamicsRule (t : ℕ) : Option OptConstraint :=
  if t = 0 then none
  else if i.hasBattery then
    some ⟨.var (.socBatt t), .eq, .var (.socBatt (t - 1)) -
      (i.config.deltaT / i.config.batteryCapacity) * LinExpr.var (.pBatt (t - 1))⟩
  else none

def totalKwhRule : Option OptConstraint :=
  some ⟨.var .totalKwhPeriod, .eq, .constant i.state.cumulativeKwhPeriod +
    .sum (i.vehicles.flatMap fun b => i.steps.map fun t => (i.config.deltaT, .pCharge b t))⟩

def kwhSplitRule : Option OptConstraint :=
  some ⟨.var .kwhUnder + .var .kwhOver, .eq, .var .totalKwhPeriod⟩

def kwhUnderCapRule : Option OptConstraint :=
  some ⟨.var .kwhUnder, .le, .constant (i.config.energyCapKwh.getD 0)⟩

/-! ### Components -/

/-- `pyo.Constraint(model.B, rule=..)`. -/
def overVehicles (name : VehicleId → ConstraintName) (rule : VehicleId → Option OptConstraint) :
    List (ConstraintName × OptConstraint) :=
  i.vehicles.filterMap fun b => (rule b).map fun c => (name b, c)

/-- `pyo.Constraint(model.T, rule=..)`. -/
def overSteps (name : ℕ → ConstraintName) (rule : ℕ → Option OptConstraint) :
    List (ConstraintName × OptConstraint) :=
  i.steps.filterMap fun t => (rule t).map fun c => (name t, c)

/-- `pyo.Constraint(model.B, model.T, rule=..)`. -/
def overBoth (name : VehicleId → ℕ → ConstraintName) (rule : VehicleId → ℕ → Option OptConstraint) :
    List (ConstraintName × OptConstraint) :=
  i.vehicles.flatMap fun b => i.steps.filterMap fun t => (rule b t).map fun c => (name b t, c)

/-- `pyo.Constraint(rule=..)`. -/
def single (name : ConstraintName) (rule : Option OptConstraint) :
    List (ConstraintName × OptConstraint) :=
  rule.toList.map fun c => (name, c)

/-- `pyo.Constraint(range(len(vehicle_list) - 1), model.T, rule=symmetry_break_rule)`. -/
def symmetryBreak : List (ConstraintName × OptConstraint) :=
  if i.breaksSymmetry then
    (List.range (i.vehicleList.length - 1)).flatMap fun iIdx =>
      i.steps.filterMap fun t => (i.symmetryBreakRule iIdx t).map fun c => (.symmetryBreak iIdx t, c)
  else []

def energyCapConstraints : List (ConstraintName × OptConstraint) :=
  if i.config.tariffType = .energyCap then
    single .totalKwhDef i.totalKwhRule ++ single .kwhSplit kwhSplitRule ++
      single .kwhUnderCap i.kwhUnderCapRule
  else []

def components : List (List (ConstraintName × OptConstraint)) :=
  [i.overVehicles .socInitCon i.socInitRule,
    i.overVehicles .incomingVehicleSoc i.incomingVehicleSocRule,
    i.overBoth .socDynamics i.socDynamicsRule,
    i.overBoth .availabilityCon i.availabilityRule,
    i.overVehicles .departureSocMin i.departureSocMinRule,
    i.overVehicles .departureSocMax i.departureSocMaxRule,
    i.overBoth .chargerLink i.chargerLinkRule,
    i.overSteps .chargerCount i.chargerCountRule,
    i.overSteps .chargerPower i.chargerPowerRule,
    i.symmetryBreak,
    i.overSteps .battSplit battSplitRule,
    i.overSteps .precondConstraint i.precondRule,
    i.overSteps .gridBalance i.gridBalanceRule,
    i.overSteps .sitePowerLimit i.sitePowerLimitRule,
    i.overSteps .peakTracking peakTrackingRule,
    single .movingPeak i.movingPeakRule,
    single .battInit i.battInitRule,
    i.overSteps .battDynamics i.battDynamicsRule,
    i.energyCapConstraints]

def constraints : List (ConstraintName × OptConstraint) := i.components.flatten

/-- `fix(0)` at the first step for a vehicle on route. -/
def fixedOnRoute (b : VehicleId) (t : ℕ) : Option ℚ :=
  if t = 0 ∧ i.available b 0 = false then some 0 else none

/-- `_compute_tighter_soc_bounds`: the same for every vehicle and step. -/
def tighterSocBounds : ℚ × ℚ := (1 / 10, 1)

def vehicleVars (v : VehicleId → ℕ → OptVar) (decl : VehicleId → ℕ → VarDecl) :
    List (OptVar × VarDecl) :=
  i.vehicles.flatMap fun b => i.steps.map fun t => (v b t, decl b t)

def stepVars (v : ℕ → OptVar) (decl : VarDecl) : List (OptVar × VarDecl) :=
  i.steps.map fun t => (v t, decl)

def nonNegative : VarDecl := ⟨.nonNegativeReals, none, none, none⟩

def varComponents : List (List (OptVar × VarDecl)) :=
  [i.vehicleVars .pCharge
      (fun b t => ⟨.nonNegativeReals, none, some (i.maxKw b), i.fixedOnRoute b t⟩),
    i.vehicleVars .soc
      (fun _ _ => ⟨.reals, some tighterSocBounds.1, some tighterSocBounds.2, none⟩),
    i.vehicleVars .yCharge (fun b t => ⟨.binary, none, none, i.fixedOnRoute b t⟩),
    i.stepVars .pGrid nonNegative,
    [(.pPeak, nonNegative)],
    i.stepVars .pBatt ⟨.reals, some (-i.battPower), some i.battPower, none⟩,
    i.stepVars .socBatt ⟨.reals, some (1 / 5), some (4 / 5), none⟩,
    i.stepVars .pBattDischarge ⟨.nonNegativeReals, some 0, some i.battPower, none⟩,
    i.stepVars .pBattCharge ⟨.nonNegativeReals, some 0, some i.battPower, none⟩,
    i.stepVars .pPrecond nonNegative,
    i.stepVars .precondSlack nonNegative,
    if i.config.tariffType = .energyCap then
      [(.totalKwhPeriod, nonNegative), (.kwhUnder, nonNegative), (.kwhOver, nonNegative)] else []]

def vars : List (OptVar × VarDecl) := i.varComponents.flatten

def fixedEnergyCapCost : ℚ :=
  i.config.underCapRatePerKwh.getD 0 *
      min i.state.cumulativeKwhPeriod (i.config.energyCapKwh.getD 0) +
    i.config.overCapPenaltyPerKwh.getD 0 *
      max 0 (i.state.cumulativeKwhPeriod - i.config.energyCapKwh.getD 0)

def tariffCost : LinExpr OptVar :=
  if i.config.tariffType = .energyCap then
    i.config.underCapRatePerKwh.getD 0 * LinExpr.var .kwhUnder +
      i.config.overCapPenaltyPerKwh.getD 0 * LinExpr.var .kwhOver - LinExpr.constant i.fixedEnergyCapCost
  else i.state.demandChargeRate * LinExpr.var .pPeak

def mPrecond : ℚ := 1000

def objective : LinExpr OptVar :=
  LinExpr.sum (i.steps.map fun t => (i.state.prices.getD t 0 * i.config.deltaT, .pGrid t)) +
    i.tariffCost + mPrecond * LinExpr.sum (i.steps.map fun t => (1, .precondSlack t))

def chargingModel : ChargingModel := ⟨i.vars, i.constraints, i.objective⟩

end Inputs

/-! ### Building -/

inductive ModelError
  | invalid (e : ValidationError)
  | keyError
  | indexError
  | zeroDivisionError
  | typeError
  | valueError (message : String)
  deriving DecidableEq, Repr

/-- `int((time - horizon_start).total_seconds() / (delta_t * 3600))`. -/
def timestepOf (config : DepotConfig) (horizonStart time : Stamp) : Except ModelError ℤ :=
  match time.secondsSince horizonStart with
  | none => .error .typeError
  | some seconds =>
    if config.deltaT * 3600 = 0 then .error .zeroDivisionError
    else .ok (pyInt (seconds / (config.deltaT * 3600)))

/-- The entry an incoming vehicle adds to the dict, when it arrives inside the horizon. -/
def arrivalEntry (config : DepotConfig) (arrival : IncomingVehicle × ℤ) :
    Option (VehicleId × (ℕ × ℚ)) :=
  if 0 ≤ arrival.2 ∧ arrival.2 < config.nTimesteps then
    some (arrival.1.vehicleId, (arrival.2.toNat, arrival.1.expectedSoc))
  else none

/-- The loop that fills `incoming_arrival_timesteps`. -/
def incomingArrivals (state : DepotState) (config : DepotConfig) (horizonStart : Stamp) :
    Except ModelError (Dict VehicleId (ℕ × ℚ)) := do
  let arrivals ← collect (fun iv => do
    let t ← timestepOf config horizonStart iv.arrivalTime
    return (iv, t)) state.incomingVehicles
  return Dict.ofList (arrivals.filterMap (arrivalEntry config))

def precondWindow (config : DepotConfig) (horizonStart : Stamp) (req : PreconditioningRequest) :
    Except ModelError (ℤ × ℤ × ℚ) :=
  match req.startTime, req.endTime with
  | some startTime, some endTime => do
    let tStart ← timestepOf config horizonStart startTime
    let tEnd ← timestepOf config horizonStart endTime
    return (tStart, tEnd, req.powerKw.getD 0)
  | _, _ => return (0, 0, 0)

/-- `required_precond_list`. -/
def requiredPrecondAt (windows : List (ℤ × ℤ × ℚ)) (t : ℕ) : ℚ :=
  ((windows.filter fun w => w.1 ≤ (t : ℤ) ∧ (t : ℤ) < w.2.1).map fun w => w.2.2).sum

def liftValidation (r : Except ValidationError Unit) : Except ModelError Unit :=
  match r with
  | .ok () => .ok ()
  | .error e => .error (.invalid e)

def energyCapComplete (config : DepotConfig) : Prop :=
  config.tariffType = .energyCap → config.energyCapKwh.isSome ∧ config.underCapRatePerKwh.isSome ∧
    config.overCapPenaltyPerKwh.isSome

instance (config : DepotConfig) : Decidable (energyCapComplete config) :=
  inferInstanceAs (Decidable (_ → _))

def energyCapMessage : String :=
  "tariff_type='energy_cap' requires energy_cap_kwh, under_cap_rate_per_kwh, and over_cap_penalty_per_kwh"

/-- `build_optimization_model`.  Without a horizon start the naive current time is used. -/
def buildOptimizationModel (state : DepotState) (config : DepotConfig)
    (horizonStart : Option Stamp) (utcNow : ℚ) : Except ModelError ChargingModel := do
  liftValidation (validateInputs state config)
  let start := horizonStart.getD (.naive utcNow)
  let bare : Inputs := ⟨state, config, Dict.empty, fun _ => 0⟩
  -- `m.SoC[b, 0]` for a vehicle that is not incoming
  require (0 < config.nTimesteps ∨ ∀ b ∈ bare.vehicles, bare.isIncoming b = true) .keyError
  let arrivals ← incomingArrivals state config start
  -- `/ m.E_batt[b]` from the second step on
  require (config.nTimesteps ≤ 1 ∨ ∀ b ∈ bare.vehicles, bare.capacity b ≠ 0) .zeroDivisionError
  -- `state.vehicle_availability[b][0]`
  require (0 < config.nTimesteps) .indexError
  -- `m.SoC[b, t_depart]`
  require (∀ b ∈ bare.vehicles, (bare.departureStep b).all (0 ≤ ·) = true) .keyError
  let windows ← collect (precondWindow config start) state.preconditioningRequests
  -- `m.P_batt_charge[t] / eta_batt`
  require (config.batteryEfficiency ≠ 0) .zeroDivisionError
  require (energyCapComplete config) (.valueError energyCapMessage)
  return Inputs.chargingModel ⟨state, config, arrivals, requiredPrecondAt windows⟩

/-! ### Reading the built model -/

/-- What a successful build went through. -/
structure Built (state : DepotState) (config : DepotConfig) (start : Stamp) (i : Inputs) : Prop where
  state_eq : i.state = state
  config_eq : i.config = config
  valid : ValidInputs state config
  arrivals : incomingArrivals state config start = .ok i.incomingArrivalTimesteps
  capacity_ne : config.nTimesteps ≤ 1 ∨ ∀ b ∈ i.vehicles, i.capacity b ≠ 0
  steps_pos : 0 < config.nTimesteps
  departure_nonneg : ∀ b ∈ i.vehicles, ∀ t, i.departureStep b = some t → 0 ≤ t

theorem liftValidation_eq_ok (r : Except ValidationError Unit) :
    liftValidation r = .ok () ↔ r = .ok () := by
  cases r with
  | ok u => exact ⟨fun _ => rfl, fun _ => rfl⟩
  | error e =>
    refine ⟨?_, ?_⟩
    · intro h
      cases h
    · intro h
      cases h

/-- **A successful build** returns the charging model of inputs that passed every check. -/
theorem built_of_ok {state : DepotState} {config : DepotConfig} {horizonStart : Option Stamp}
    {utcNow : ℚ} {m : ChargingModel}
    (h : buildOptimizationModel state config horizonStart utcNow = .ok m) :
    ∃ i : Inputs, Built state config (horizonStart.getD (.naive utcNow)) i ∧ m = i.chargingModel := by
  unfold buildOptimizationModel at h
  simp only [bind_eq_ok] at h
  obtain ⟨_, hvalid, _, _, arrivals, harrivals, _, hcap, _, hpos, _, hdep, windows, _, _, _, _, _, hm⟩ := h
  refine ⟨⟨state, config, arrivals, requiredPrecondAt windows⟩, ?_, (Except.ok.inj hm).symm⟩
  refine ⟨rfl, rfl, ?_, harrivals, ?_, ?_, ?_⟩
  · exact (validateInputs_eq_ok state config).mp ((liftValidation_eq_ok _).mp hvalid)
  · exact (require_eq_ok _ _).mp hcap
  · exact (require_eq_ok _ _).mp hpos
  · intro b hb t ht
    have hall := (require_eq_ok _ _).mp hdep b hb
    have ht' : Inputs.departureStep ⟨state, config, Dict.empty, fun _ => 0⟩ b = some t := ht
    rw [ht'] at hall
    simpa using hall

namespace Inputs

variable (i : Inputs)

theorem mem_overVehicles {name : VehicleId → ConstraintName} {rule : VehicleId → Option OptConstraint}
    {k : ConstraintName × OptConstraint} :
    k ∈ i.overVehicles name rule ↔ ∃ b ∈ i.vehicles, ∃ c, rule b = some c ∧ (name b, c) = k := by
  rw [overVehicles, List.mem_filterMap]
  simp only [Option.map_eq_some_iff]

theorem mem_overSteps {name : ℕ → ConstraintName} {rule : ℕ → Option OptConstraint}
    {k : ConstraintName × OptConstraint} :
    k ∈ i.overSteps name rule ↔ ∃ t < i.config.nTimesteps, ∃ c, rule t = some c ∧ (name t, c) = k := by
  rw [overSteps, List.mem_filterMap]
  simp only [steps, List.mem_range, Option.map_eq_some_iff]

theorem mem_overBoth {name : VehicleId → ℕ → ConstraintName}
    {rule : VehicleId → ℕ → Option OptConstraint} {k : ConstraintName × OptConstraint} :
    k ∈ i.overBoth name rule ↔
      ∃ b ∈ i.vehicles, ∃ t < i.config.nTimesteps, ∃ c, rule b t = some c ∧ (name b t, c) = k := by
  rw [overBoth, List.mem_flatMap]
  simp only [List.mem_filterMap, steps, List.mem_range, Option.map_eq_some_iff]

theorem mem_single {name : ConstraintName} {rule : Option OptConstraint}
    {k : ConstraintName × OptConstraint} :
    k ∈ single name rule ↔ ∃ c, rule = some c ∧ (name, c) = k := by
  rw [single, List.mem_map]
  simp only [Option.mem_toList]

theorem mem_vehicleVars {v : VehicleId → ℕ → OptVar} {decl : VehicleId → ℕ → VarDecl}
    {k : OptVar × VarDecl} :
    k ∈ i.vehicleVars v decl ↔
      ∃ b ∈ i.vehicles, ∃ t < i.config.nTimesteps, (v b t, decl b t) = k := by
  rw [vehicleVars, List.mem_flatMap]
  simp only [List.mem_map, steps, List.mem_range]

section Feasible

variable {i : Inputs} {x : OptVar → ℚ}

theorem holds_overVehicles (hx : i.chargingModel.Feasible x) (name : VehicleId → ConstraintName)
    (rule : VehicleId → Option OptConstraint) (hcomp : i.overVehicles name rule ∈ i.components)
    {b : VehicleId} (hb : b ∈ i.vehicles) {c : OptConstraint} (hrule : rule b = some c) : c.Holds x :=
  hx.holds (name b, c) (List.mem_flatten.mpr
    ⟨_, hcomp, i.mem_overVehicles.mpr ⟨b, hb, c, hrule, rfl⟩⟩)

theorem holds_overBoth (hx : i.chargingModel.Feasible x) (name : VehicleId → ℕ → ConstraintName)
    (rule : VehicleId → ℕ → Option OptConstraint) (hcomp : i.overBoth name rule ∈ i.components)
    {b : VehicleId} (hb : b ∈ i.vehicles) {t : ℕ} (ht : t < i.config.nTimesteps) {c : OptConstraint}
    (hrule : rule b t = some c) : c.Holds x :=
  hx.holds (name b t, c) (List.mem_flatten.mpr
    ⟨_, hcomp, i.mem_overBoth.mpr ⟨b, hb, t, ht, c, hrule, rfl⟩⟩)

theorem admits_vehicleVars (hx : i.chargingModel.Feasible x) (v : VehicleId → ℕ → OptVar)
    (decl : VehicleId → ℕ → VarDecl) (hcomp : i.vehicleVars v decl ∈ i.varComponents)
    {b : VehicleId} (hb : b ∈ i.vehicles) {t : ℕ} (ht : t < i.config.nTimesteps) :
    (decl b t).Admits (x (v b t)) :=
  hx.admits (v b t, decl b t) (List.mem_flatten.mpr
    ⟨_, hcomp, i.mem_vehicleVars.mpr ⟨b, hb, t, ht, rfl⟩⟩)

theorem soc_bounds (hx : i.chargingModel.Feasible x) {b : VehicleId} (hb : b ∈ i.vehicles) {t : ℕ}
    (ht : t < i.config.nTimesteps) : 1 / 10 ≤ x (.soc b t) ∧ x (.soc b t) ≤ 1 := by
  have hadm := admits_vehicleVars hx .soc
    (fun _ _ => ⟨.reals, some tighterSocBounds.1, some tighterSocBounds.2, none⟩)
    (by simp [varComponents]) hb ht
  exact ⟨hadm.lb, hadm.ub⟩

theorem soc_succ (hx : i.chargingModel.Feasible x) {b : VehicleId} (hb : b ∈ i.vehicles) {t : ℕ}
    (ht : t + 1 < i.config.nTimesteps) :
    x (.soc b (t + 1)) = x (.soc b t) +
      i.config.chargerEfficiency * i.config.deltaT / i.capacity b * x (.pCharge b t) := by
  have hrow := holds_overBoth hx .socDynamics i.socDynamicsRule (by simp [components]) hb ht
    (if_neg (Nat.succ_ne_zero t))
  simpa [Constraint.Holds] using hrow

theorem soc_zero (hx : i.chargingModel.Feasible x) {b : VehicleId} (hb : b ∈ i.vehicles)
    (hnot : i.isIncoming b = false) : x (.soc b 0) = i.socInit b := by
  have hrow := holds_overVehicles hx .socInitCon i.socInitRule (by simp [components]) hb
    (if_neg (by rw [hnot]; exact Bool.false_ne_true))
  simpa [Constraint.Holds] using hrow

theorem soc_departure (hx : i.chargingModel.Feasible x) {b : VehicleId} (hb : b ∈ i.vehicles) {t : ℤ}
    (ht : i.departureStep b = some t) : i.socMin b ≤ x (.soc b t.toNat) := by
  have hrule : i.departureSocMinRule b =
      some ⟨.var (.soc b t.toNat), .ge, .constant (i.socMin b)⟩ := by
    rw [departureSocMinRule, ht]
    rfl
  have hrow := holds_overVehicles hx .departureSocMin i.departureSocMinRule (by simp [components])
    hb hrule
  simpa [Constraint.Holds] using hrow

end Feasible

end Inputs

end FavoniusBackend.Optimizer.MilpModel
