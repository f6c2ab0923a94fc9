import FavoniusBackend.Optimizer.ModelRows

/-!
# Comparing two charging models

Two inputs that agree on what a snapshot records (`SameRecorded`) give the same model exactly when they
also agree on what it leaves out (`SameUnrecorded`): availability, the battery, the month's peak, the
tariff and the preconditioning.  Each of these is read off the model by evaluating one row, or the
objective, at an assignment that is 1 at one variable and 0 elsewhere.
-/

namespace FavoniusBackend.Optimizer.ModelComparison

open Lib Lib.Milp Optimizer.Models
open Optimizer.MilpModel Optimizer.MilpModel.Inputs
open Optimizer.ModelRows

/-- Agreement on everything a snapshot records. -/
structure SameRecorded (i j : Inputs) : Prop where
  vehicles : ∀ b, b ∈ i.vehicles ↔ b ∈ j.vehicles
  nTimesteps : i.config.nTimesteps = j.config.nTimesteps
  deltaT : i.config.deltaT = j.config.deltaT
  maxSitePower : i.config.maxSitePower = j.config.maxSitePower
  buildingLoadAssumptionKw : i.config.buildingLoadAssumptionKw = j.config.buildingLoadAssumptionKw
  chargerEfficiency : i.config.chargerEfficiency = j.config.chargerEfficiency
  totalChargers : i.totalChargers = j.totalChargers
  totalChargerPower : i.totalChargerPower = j.totalChargerPower
  capacity : ∀ b ∈ i.vehicles, i.capacity b = j.capacity b
  maxKw : ∀ b ∈ i.vehicles, i.maxKw b = j.maxKw b
  socInit : ∀ b ∈ i.vehicles, i.socInit b = j.socInit b
  departureStep : ∀ b ∈ i.vehicles, i.departureStep b = j.departureStep b
  socMin : ∀ b ∈ i.vehicles, i.socMin b = j.socMin b
  socMax : ∀ b ∈ i.vehicles, i.socMax b = j.socMax b
  isIncoming : ∀ b, i.isIncoming b = j.isIncoming b
  arrivals : i.incomingArrivalTimesteps = j.incomingArrivalTimesteps
  prices : i.state.prices = j.state.prices
  buildingPower : i.state.buildingPower = j.state.buildingPower

/-- Agreement on what the model reads besides. -/
structure SameUnrecorded (i j : Inputs) : Prop where
  available : ∀ b ∈ i.vehicles, ∀ t < i.config.nTimesteps, i.available b t = j.available b t
  hasBattery : i.hasBattery = j.hasBattery
  battPower : i.battPower = j.battPower
  batterySoc : i.hasBattery = true → i.state.batterySoc = j.state.batterySoc
  batteryStep : i.hasBattery = true → 2 ≤ i.config.nTimesteps →
    i.config.deltaT / i.config.batteryCapacity = j.config.deltaT / j.config.batteryCapacity
  batteryEfficiency : i.config.batteryEfficiency = j.config.batteryEfficiency
  currentMonthPeak : i.state.currentMonthPeak = j.state.currentMonthPeak
  tariffType : i.config.tariffType = j.config.tariffType
  demandChargeRate : i.config.tariffType = .simpleDemand →
    i.state.demandChargeRate = j.state.demandChargeRate
  energyCap : i.config.tariffType = .energyCap →
    i.config.energyCapKwh.getD 0 = j.config.energyCapKwh.getD 0 ∧
    i.config.underCapRatePerKwh.getD 0 = j.config.underCapRatePerKwh.getD 0 ∧
    i.config.overCapPenaltyPerKwh.getD 0 = j.config.overCapPenaltyPerKwh.getD 0 ∧
    i.state.cumulativeKwhPeriod = j.state.cumulativeKwhPeriod
  requiredPrecond : ∀ t < i.config.nTimesteps, i.requiredPrecond t = j.requiredPrecond t

variable {i j : Inputs}

/-! ### Sums over the vehicles -/

theorem vehicles_perm (h : SameRecorded i j) : i.vehicles.Perm j.vehicles :=
  (List.perm_ext_iff_of_nodup i.state.vehicleSocs.nodup_keys j.state.vehicleSocs.nodup_keys).mpr
    h.vehicles

theorem vehicleList_eq (h : SameRecorded i j) : i.vehicleList = j.vehicleList :=
  ((i.vehicles.perm_insertionSort _).trans
    ((vehicles_perm h).trans (j.vehicles.perm_insertionSort _).symm)).eq_of_pairwise'
    (List.pairwise_insertionSort _ _) (List.pairwise_insertionSort _ _)

theorem eval_vehicleSum (h : SameRecorded i j) (v : VehicleId → OptVar) (x : OptVar → ℚ) :
    (LinExpr.sum (i.vehicles.map fun b => ((1 : ℚ), v b))).eval x =
      (LinExpr.sum (j.vehicles.map fun b => ((1 : ℚ), v b))).eval x := by
  rw [LinExpr.eval_sum, LinExpr.eval_sum]
  exact (((vehicles_perm h).map _).map _).sum_eq

theorem eval_energySum (h : SameRecorded i j) (x : OptVar → ℚ) :
    (LinExpr.sum (i.vehicles.flatMap fun b => i.steps.map fun t =>
        (i.config.deltaT, OptVar.pCharge b t))).eval x =
      (LinExpr.sum (j.vehicles.flatMap fun b => j.steps.map fun t =>
        (j.config.deltaT, OptVar.pCharge b t))).eval x := by
  have hsteps : i.steps = j.steps := by rw [steps, steps, h.nTimesteps]
  rw [LinExpr.eval_sum, LinExpr.eval_sum, hsteps, h.deltaT]
  exact (((vehicles_perm h).flatMap_right _).map _).sum_eq

/-! ### From the inputs to the model -/

theorem sameRow_atVehicle (h : SameRecorded i j) {b : VehicleId} {r s : Option OptConstraint}
    (hrow : b ∈ i.vehicles → SameRow r s) : SameRow (atVehicle i b r) (atVehicle j b s) := by
  unfold atVehicle
  by_cases hb : b ∈ i.vehicles
  · rw [if_pos hb, if_pos ((h.vehicles b).mp hb)]
    exact hrow hb
  · rw [if_neg hb, if_neg fun hj => hb ((h.vehicles b).mpr hj)]
    trivial

theorem sameRow_atStep (h : SameRecorded i j) {t : ℕ} {r s : Option OptConstraint}
    (hrow : t < i.config.nTimesteps → SameRow r s) : SameRow (atStep i t r) (atStep j t s) := by
  unfold atStep
  rw [← h.nTimesteps]
  split
  · rename_i ht
    exact hrow ht
  · trivial

theorem sameRow_underEnergyCap (htariff : i.config.tariffType = j.config.tariffType)
    {r s : Option OptConstraint} (hrow : i.config.tariffType = .energyCap → SameRow r s) :
    SameRow (underEnergyCap i r) (underEnergyCap j s) := by
  unfold underEnergyCap
  rw [← htariff]
  split
  · rename_i hcap
    exact hrow hcap
  · trivial

theorem fixedOnRoute_eq (hu : SameUnrecorded i j) {b : VehicleId} (hb : b ∈ i.vehicles) {t : ℕ}
    (ht : t < i.config.nTimesteps) : i.fixedOnRoute b t = j.fixedOnRoute b t := by
  unfold fixedOnRoute
  by_cases h0 : t = 0
  · subst h0
    rw [hu.available b hb 0 ht]
  · simp [h0]

theorem declOf_eq (h : SameRecorded i j) (hu : SameUnrecorded i j) (v : OptVar) :
    declOf i v = declOf j v := by
  cases v with
  | pCharge b t =>
    simp only [declOf, vehicleDecl, ← h.vehicles, ← h.nTimesteps]
    split
    · rename_i hin
      rw [h.maxKw b hin.1, fixedOnRoute_eq hu hin.1 hin.2]
    · rfl
  | yCharge b t =>
    simp only [declOf, vehicleDecl, ← h.vehicles, ← h.nTimesteps]
    split
    · rename_i hin
      rw [fixedOnRoute_eq hu hin.1 hin.2]
    · rfl
  | soc b t => simp only [declOf, vehicleDecl, ← h.vehicles, ← h.nTimesteps]
  | pPeak => rfl
  | pBatt t | pBattDischarge t | pBattCharge t =>
    simp only [declOf, stepDecl, ← h.nTimesteps, hu.battPower]
  | pGrid t | socBatt t | pPrecond t | precondSlack t => simp only [declOf, stepDecl, ← h.nTimesteps]
  | totalKwhPeriod | kwhUnder | kwhOver => simp only [declOf, energyCapDecl, ← hu.tariffType]

theorem sameRow_of_eval {c d : OptConstraint} (hrel : c.rel = d.rel)
    (hl : ∀ x, c.lhs.eval x = d.lhs.eval x) (hr : ∀ x, c.rhs.eval x = d.rhs.eval x) :
    SameRow (some c) (some d) :=
  ⟨hrel, fun x => by rw [hl, hr]⟩

/-- The neighbours in the list are vehicles, whose availability agrees. -/
theorem symmetryBreakRule_eq (h : SameRecorded i j) (hu : SameUnrecorded i j) (k : ℕ) {t : ℕ}
    (ht : t < i.config.nTimesteps) : i.symmetryBreakRule k t = j.symmetryBreakRule k t := by
  have hlist := vehicleList_eq h
  have hmem : ∀ (n : ℕ) (b : VehicleId), j.vehicleList[n]? = some b → b ∈ i.vehicles := by
    intro n b hb
    have hin : b ∈ j.vehicleList := List.mem_of_getElem? hb
    rw [← hlist] at hin
    exact (List.mem_insertionSort (· ≤ ·)).mp hin
  unfold symmetryBreakRule
  rw [hlist]
  cases hfirst : j.vehicleList[k]? with
  | none => rfl
  | some b =>
    cases hsecond : j.vehicleList[k + 1]? with
    | none => rfl
    | some b' =>
      simp only [hu.available b (hmem k b hfirst) t ht, hu.available b' (hmem (k + 1) b' hsecond) t ht]

theorem battInitRule_eq (hu : SameUnrecorded i j) : i.battInitRule = j.battInitRule := by
  simp only [battInitRule, ← hu.hasBattery]
  split
  · rename_i hb
    rw [hu.batterySoc hb]
  · rfl

theorem battDynamicsRule_eq (hu : SameUnrecorded i j) {t : ℕ} (ht : t < i.config.nTimesteps) :
    i.battDynamicsRule t = j.battDynamicsRule t := by
  simp only [battDynamicsRule, ← hu.hasBattery]
  split
  · rfl
  · rename_i h0
    split
    · rename_i hb
      rw [hu.batteryStep hb (by omega)]
    · rfl

theorem sameRow_rowOf (h : SameRecorded i j) (hu : SameUnrecorded i j) (name : ConstraintName) :
    SameRow (rowOf i name) (rowOf j name) := by
  cases name with
  | socInitCon b =>
    refine sameRow_atVehicle h fun hb => sameRow_of_eq ?_
    simp only [socInitRule, h.isIncoming, h.socInit b hb]
  | incomingVehicleSoc b =>
    refine sameRow_atVehicle h fun hb => sameRow_of_eq ?_
    simp only [incomingVehicleSocRule, h.arrivals]
  | socDynamics b t =>
    refine sameRow_atVehicle h fun hb => sameRow_atStep h fun _ => sameRow_of_eq ?_
    simp only [socDynamicsRule, h.chargerEfficiency, h.deltaT, h.capacity b hb]
  | availabilityCon b t =>
    refine sameRow_atVehicle h fun hb => sameRow_atStep h fun ht => sameRow_of_eq ?_
    simp only [availabilityRule, hu.available b hb t ht]
  | departureSocMin b =>
    refine sameRow_atVehicle h fun hb => sameRow_of_eq ?_
    simp only [departureSocMinRule, h.departureStep b hb, h.socMin b hb]
  | departureSocMax b =>
    refine sameRow_atVehicle h fun hb => sameRow_of_eq ?_
    simp only [departureSocMaxRule, h.departureStep b hb, h.socMax b hb]
  | chargerLink b t =>
    refine sameRow_atVehicle h fun hb => sameRow_atStep h fun _ => sameRow_of_eq ?_
    simp only [chargerLinkRule, h.maxKw b hb]
  | chargerCount t =>
    refine sameRow_atStep h fun _ => sameRow_of_eval rfl (eval_vehicleSum h _) ?_
    intro x
    rw [h.totalChargers]
  | chargerPower t =>
    refine sameRow_atStep h fun _ => sameRow_of_eval rfl (eval_vehicleSum h _) ?_
    intro x
    rw [h.totalChargerPower]
  | symmetryBreak k t =>
    have hlist := vehicleList_eq h
    have hbreaks : i.breaksSymmetry = j.breaksSymmetry := by
      rw [breaksSymmetry, breaksSymmetry, hlist, h.totalChargers]
    simp only [rowOf, hbreaks, hlist]
    split
    · exact sameRow_atStep h fun ht => sameRow_of_eq (symmetryBreakRule_eq h hu k ht)
    · trivial
  | battSplit t => exact sameRow_atStep h fun _ => sameRow_of_eq rfl
  | precondConstraint t =>
    refine sameRow_atStep h fun ht => sameRow_of_eq ?_
    simp only [precondRule, hu.requiredPrecond t ht]
  | gridBalance t =>
    refine sameRow_atStep h fun _ => sameRow_of_eval rfl (fun _ => rfl) ?_
    intro x
    have hsum := eval_vehicleSum h (fun b => .pCharge b t) x
    simp only [LinExpr.eval_sub, LinExpr.eval_add] at hsum ⊢
    rw [hsum, h.buildingPower, h.buildingLoadAssumptionKw, hu.batteryEfficiency]
  | sitePowerLimit t =>
    refine sameRow_atStep h fun _ => sameRow_of_eq ?_
    simp only [sitePowerLimitRule, h.maxSitePower]
  | peakTracking t => exact sameRow_atStep h fun _ => sameRow_of_eq rfl
  | movingPeak =>
    refine sameRow_of_eq ?_
    simp only [rowOf, movingPeakRule, hu.currentMonthPeak]
  | battInit => exact sameRow_of_eq (battInitRule_eq hu)
  | battDynamics t => exact sameRow_atStep h fun ht => sameRow_of_eq (battDynamicsRule_eq hu ht)
  | totalKwhDef =>
    refine sameRow_underEnergyCap hu.tariffType fun hcap => sameRow_of_eval rfl (fun _ => rfl) ?_
    intro x
    have hsum := eval_energySum h x
    simp only [LinExpr.eval_add, LinExpr.eval_constant] at hsum ⊢
    rw [hsum, (hu.energyCap hcap).2.2.2]
  | kwhSplit => exact sameRow_underEnergyCap hu.tariffType fun _ => sameRow_of_eq rfl
  | kwhUnderCap =>
    refine sameRow_underEnergyCap hu.tariffType fun hcap => sameRow_of_eq ?_
    simp only [kwhUnderCapRule, (hu.energyCap hcap).1]

theorem objective_eval_eq (h : SameRecorded i j) (hu : SameUnrecorded i j) (x : OptVar → ℚ) :
    i.objective.eval x = j.objective.eval x := by
  have hsteps : i.steps = j.steps := by rw [steps, steps, h.nTimesteps]
  have htariff : i.tariffCost = j.tariffCost := by
    unfold tariffCost
    rw [← hu.tariffType]
    split
    · rename_i hcap
      obtain ⟨henergy, hunder, hover, hcum⟩ := hu.energyCap hcap
      rw [fixedEnergyCapCost, fixedEnergyCapCost, henergy, hunder, hover, hcum]
    · rename_i hcap
      have hsimple : i.config.tariffType = .simpleDemand := by
        cases htype : i.config.tariffType with
        | simpleDemand => rfl
        | energyCap => exact absurd htype hcap
      rw [hu.demandChargeRate hsimple]
  rw [objective, objective, hsteps, h.prices, h.deltaT, htariff]

/-! ### From the model to the inputs -/

/-- 1 at one variable, 0 elsewhere. -/
def only (v : OptVar) : OptVar → ℚ := fun w => if w = v then 1 else 0

section Reading

variable (h : SameRecorded i j) (hrows : ∀ name, SameRow (rowOf i name) (rowOf j name))

include h hrows

theorem sameRow_at (name : ConstraintName) {t : ℕ} (ht : t < i.config.nTimesteps)
    {r s : Option OptConstraint} (hi : rowOf i name = atStep i t r) (hj : rowOf j name = atStep j t s) :
    SameRow r s := by
  have hrow := hrows name
  rw [hi, hj, atStep, atStep, if_pos ht, if_pos (h.nTimesteps ▸ ht)] at hrow
  exact hrow

theorem available_of_rows {b : VehicleId} (hb : b ∈ i.vehicles) {t : ℕ} (ht : t < i.config.nTimesteps) :
    i.available b t = j.available b t := by
  have hrow := hrows (.availabilityCon b t)
  simp only [rowOf, atVehicle, atStep, if_pos hb, if_pos ((h.vehicles b).mp hb), if_pos ht,
    if_pos (h.nTimesteps ▸ ht : t < j.config.nTimesteps), availabilityRule] at hrow
  cases hi : i.available b t with
  | false =>
    cases hj : j.available b t with
    | false => rfl
    | true =>
      rw [hi, hj] at hrow
      cases hrow
  | true =>
    cases hj : j.available b t with
    | false =>
      rw [hi, hj] at hrow
      cases hrow
    | true => rfl

theorem requiredPrecond_of_rows {t : ℕ} (ht : t < i.config.nTimesteps) :
    i.requiredPrecond t = j.requiredPrecond t := by
  have hrow : Constraint.Same _ _ := sameRow_at h hrows (.precondConstraint t) ht rfl rfl
  have heval := hrow.difference fun _ => 0
  simpa using heval

omit h in
theorem currentMonthPeak_of_rows : i.state.currentMonthPeak = j.state.currentMonthPeak := by
  have hrow : Constraint.Same _ _ := hrows .movingPeak
  have heval := hrow.difference fun _ => 0
  simpa using heval

omit h in
theorem hasBattery_of_rows : i.hasBattery = j.hasBattery := by
  have hrow := hrows .battInit
  simp only [rowOf, battInitRule] at hrow
  cases hi : i.hasBattery with
  | false =>
    cases hj : j.hasBattery with
    | false => rfl
    | true =>
      rw [hi, hj] at hrow
      cases hrow
  | true =>
    cases hj : j.hasBattery with
    | false =>
      rw [hi, hj] at hrow
      cases hrow
    | true => rfl

omit h in
theorem batterySoc_of_rows (hb : i.hasBattery = true) : i.state.batterySoc = j.state.batterySoc := by
  have hrow := hrows .battInit
  simp only [rowOf, battInitRule, hb, hasBattery_of_rows hrows ▸ hb, if_true] at hrow
  have hsame : Constraint.Same _ _ := hrow
  have heval := hsame.difference fun _ => 0
  simpa using heval

theorem batteryStep_of_rows (hb : i.hasBattery = true) (hn : 2 ≤ i.config.nTimesteps) :
    i.config.deltaT / i.config.batteryCapacity = j.config.deltaT / j.config.batteryCapacity := by
  have hrow := sameRow_at h hrows (.battDynamics 1) (show 1 < i.config.nTimesteps by omega) rfl rfl
  simp only [battDynamicsRule, hb, hasBattery_of_rows hrows ▸ hb, if_true, one_ne_zero, if_false] at hrow
  have hsame : Constraint.Same _ _ := hrow
  have heval := hsame.difference (only (.pBatt 0))
  simpa [only] using heval

/-- Of the grid balance of the first step, the coefficient of the discharge. -/
theorem batteryEfficiency_of_rows (hn : 0 < i.config.nTimesteps) :
    i.config.batteryEfficiency = j.config.batteryEfficiency := by
  have hrow : Constraint.Same _ _ := sameRow_at h hrows (.gridBalance 0) hn rfl rfl
  have heval := hrow.difference (only (.pBattDischarge 0))
  simpa [only, h.buildingPower, h.buildingLoadAssumptionKw, Function.comp_def] using heval

omit h in
theorem energyCap_of_rows (hcap : i.config.tariffType = .energyCap)
    (htariff : i.config.tariffType = j.config.tariffType) :
    i.config.energyCapKwh.getD 0 = j.config.energyCapKwh.getD 0 ∧
      i.state.cumulativeKwhPeriod = j.state.cumulativeKwhPeriod := by
  have hcap' : j.config.tariffType = .energyCap := htariff ▸ hcap
  refine ⟨?_, ?_⟩
  · have hrow := hrows .kwhUnderCap
    simp only [rowOf, underEnergyCap, hcap, hcap', if_true] at hrow
    have hsame : Constraint.Same _ _ := hrow
    have heval := hsame.difference fun _ => 0
    simpa using heval
  · have hrow := hrows .totalKwhDef
    simp only [rowOf, underEnergyCap, hcap, hcap', if_true] at hrow
    have hsame : Constraint.Same _ _ := hrow
    have heval := hsame.difference fun _ => 0
    simpa [Function.comp_def] using heval

end Reading

theorem tariffType_of_decls (hdecl : ∀ v, declOf i v = declOf j v) :
    i.config.tariffType = j.config.tariffType := by
  have hkwh := hdecl .totalKwhPeriod
  simp only [declOf, energyCapDecl] at hkwh
  cases hi : i.config.tariffType with
  | simpleDemand =>
    cases hj : j.config.tariffType with
    | simpleDemand => rfl
    | energyCap => simp [hi, hj] at hkwh
  | energyCap =>
    cases hj : j.config.tariffType with
    | simpleDemand => simp [hi, hj] at hkwh
    | energyCap => rfl

theorem battPower_of_decls (h : SameRecorded i j) (hdecl : ∀ v, declOf i v = declOf j v)
    (hn : 0 < i.config.nTimesteps) : i.battPower = j.battPower := by
  have hbatt := hdecl (.pBattCharge 0)
  simp only [declOf, stepDecl, if_pos hn, if_pos (h.nTimesteps ▸ hn : 0 < j.config.nTimesteps)] at hbatt
  simpa using hbatt

theorem objective_only (i : Inputs) {v : OptVar} (hgrid : ∀ t, OptVar.pGrid t ≠ v)
    (hslack : ∀ t, OptVar.precondSlack t ≠ v) :
    i.objective.eval (only v) = i.tariffCost.eval (only v) := by
  simp [objective, only, hgrid, hslack, Function.comp_def]

/-- **When two inputs give the same model.** -/
theorem same_iff (h : SameRecorded i j) (hn : 0 < i.config.nTimesteps) :
    i.chargingModel.Same j.chargingModel ↔ SameUnrecorded i j := by
  rw [Model.same_iff (mem_vars_iff i) (mem_vars_iff j) (mem_constraints_iff i) (mem_constraints_iff j)]
  refine ⟨?_, fun hu => ⟨declOf_eq h hu, sameRow_rowOf h hu, objective_eval_eq h hu⟩⟩
  intro ⟨hdecl, hrows, hobj⟩
  have htariff := tariffType_of_decls hdecl
  have hcost : ∀ v, (∀ t, OptVar.pGrid t ≠ v) → (∀ t, OptVar.precondSlack t ≠ v) →
      i.tariffCost.eval (only v) = j.tariffCost.eval (only v) := by
    intro v hgrid hslack
    rw [← objective_only i hgrid hslack, ← objective_only j hgrid hslack]
    exact hobj (only v)
  refine ⟨fun b hb t ht => available_of_rows h hrows hb ht, hasBattery_of_rows hrows,
    battPower_of_decls h hdecl hn, batterySoc_of_rows hrows, batteryStep_of_rows h hrows,
    batteryEfficiency_of_rows h hrows hn, currentMonthPeak_of_rows hrows, htariff, ?_, ?_,
    fun t ht => requiredPrecond_of_rows h hrows ht⟩
  · intro hsimple
    have hpeak := hcost .pPeak (fun t ht => by cases ht) (fun t ht => by cases ht)
    simpa [tariffCost, hsimple, htariff ▸ hsimple, only] using hpeak
  · intro hcap
    have hcap' : j.config.tariffType = .energyCap := htariff ▸ hcap
    obtain ⟨henergy, hcum⟩ := energyCap_of_rows hrows hcap htariff
    -- the fixed cost is read at an assignment that is 0 at both shares
    have hbase := hcost .totalKwhPeriod (fun t ht => by cases ht) (fun t ht => by cases ht)
    have hunder := hcost .kwhUnder (fun t ht => by cases ht) (fun t ht => by cases ht)
    have hover := hcost .kwhOver (fun t ht => by cases ht) (fun t ht => by cases ht)
    simp only [tariffCost, hcap, hcap', if_true, LinExpr.eval_sub, LinExpr.eval_add, LinExpr.eval_scale,
      LinExpr.eval_var, LinExpr.eval_constant, only, reduceCtorEq, if_false, mul_one, mul_zero, add_zero,
      zero_add] at hbase hunder hover
    exact ⟨henergy, by linarith, by linarith, hcum⟩

end FavoniusBackend.Optimizer.ModelComparison
