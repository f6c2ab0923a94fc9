import FavoniusBackend.Lib.TwoRate
import FavoniusBackend.Optimizer.PlanChanges
import FavoniusBackend.Optimizer.SocTrajectory

/-!
# The energy-cap tariff

With `tariff_type` `energy_cap` the objective charges the energy of the billing period through two slack
variables, `kwh_under` and `kwh_over`, and takes off what was due before the horizon
(`fixed_energy_cap_cost`).  The slacks are a split of the period's energy in the sense of
`Lib.TwoRate` (`tariffFeasible_iff`), and the offset is the two-rate cost of the energy already used.  So
the least tariff cost of a plan is what its energy adds to the bill (`tariff_cost_is_marginal`).
-/

namespace FavoniusBackend.Optimizer.EnergyCap

open Lib Lib.Milp Optimizer.Models
open Optimizer.MilpModel Optimizer.ModelRows
open Optimizer.PlanChanges

def horizonKwh (state : DepotState) (config : DepotConfig) (p : VehicleId → ℕ → ℚ) : ℚ :=
  (state.vehicleSocs.keys.flatMap fun b =>
    (List.range config.nTimesteps).map fun t => config.deltaT * p b t).sum

def planOf (x : OptVar → ℚ) (b : VehicleId) (t : ℕ) : ℚ := x (.pCharge b t)

/-- What the horizon adds to the bill of the period: the tariff is a two-rate cost of its energy. -/
def marginalCost (state : DepotState) (rate penalty cap horizon : ℚ) : ℚ :=
  TwoRate.cost rate penalty cap (state.cumulativeKwhPeriod + horizon) -
    TwoRate.cost rate penalty cap state.cumulativeKwhPeriod

def isTariffVar : OptVar → Bool
  | .totalKwhPeriod | .kwhUnder | .kwhOver => true
  | _ => false

def isTariffRow : ConstraintName → Bool
  | .totalKwhDef | .kwhSplit | .kwhUnderCap => true
  | _ => false

/-- The tariff's own variables and rows; the rest of the model is left aside. -/
structure TariffFeasible (m : ChargingModel) (x : OptVar → ℚ) : Prop where
  admits : ∀ v ∈ m.vars, isTariffVar v.1 = true → v.2.Admits (x v.1)
  holds : ∀ c ∈ m.constraints, isTariffRow c.1 = true → c.2.Holds x

theorem TariffFeasible.of_feasible {m : ChargingModel} {x : OptVar → ℚ} (h : m.Feasible x) :
    TariffFeasible m x :=
  ⟨fun v hv _ => h.admits v hv, fun c hc _ => h.holds c hc⟩

theorem admits_nonNegative (q : ℚ) : Inputs.nonNegative.Admits q ↔ 0 ≤ q :=
  ⟨fun h => h.domain, fun h => ⟨h, trivial, trivial, trivial⟩⟩

section Tariff

variable {i : Inputs} {rate penalty cap : ℚ}

theorem eval_horizon (x : OptVar → ℚ) :
    (LinExpr.sum (i.vehicles.flatMap fun b => i.steps.map fun t =>
      (i.config.deltaT, OptVar.pCharge b t))).eval x = horizonKwh i.state i.config (planOf x) := by
  rw [LinExpr.eval_sum, List.map_flatMap]
  simp only [List.map_map]
  rfl

/-- **The slacks split the energy of the period at the cap.** -/
theorem tariffFeasible_iff (htariff : i.config.tariffType = .energyCap)
    (hcap : i.config.energyCapKwh = some cap) (x : OptVar → ℚ) :
    TariffFeasible i.chargingModel x ↔
      0 ≤ x .totalKwhPeriod ∧
      x .totalKwhPeriod = i.state.cumulativeKwhPeriod + horizonKwh i.state i.config (planOf x) ∧
      TwoRate.Split cap (x .totalKwhPeriod) (x .kwhUnder) (x .kwhOver) := by
  have hdecl : energyCapDecl i = some Inputs.nonNegative := if_pos htariff
  have hrow (r : Option OptConstraint) : underEnergyCap i r = r := if_pos htariff
  have htotal (y : OptVar → ℚ) :
      Constraint.Holds ⟨.var .totalKwhPeriod, .eq, .constant i.state.cumulativeKwhPeriod +
        .sum (i.vehicles.flatMap fun b => i.steps.map fun t => (i.config.deltaT, .pCharge b t))⟩ y ↔
      y .totalKwhPeriod = i.state.cumulativeKwhPeriod + horizonKwh i.state i.config (planOf y) := by
    rw [← eval_horizon]
    simp [Constraint.Holds]
  refine ⟨?_, ?_⟩
  · intro h
    have hadm {v : OptVar} (hv : isTariffVar v = true)
        (hv' : declOf i v = some Inputs.nonNegative) : 0 ≤ x v :=
      (admits_nonNegative _).mp (h.admits (v, _) ((mem_vars_iff i v _).mpr hv') hv)
    have hholds (name : ConstraintName) {c : OptConstraint} (hn : isTariffRow name = true)
        (hc : rowOf i name = some c) : c.Holds x :=
      h.holds (name, c) ((mem_constraints_iff i name c).mpr hc) hn
    have hdef := hholds .totalKwhDef rfl (hrow _)
    have hsplit := hholds .kwhSplit rfl (hrow _)
    have hunder := hholds .kwhUnderCap rfl (hrow _)
    rw [hcap] at hunder
    refine ⟨hadm rfl hdecl, (htotal x).mp hdef, hadm rfl hdecl, hadm rfl hdecl, ?_, ?_⟩
    · simpa [Constraint.Holds] using hunder
    · simpa [Constraint.Holds] using hsplit
  · rintro ⟨hnonneg, hdef, hsplit⟩
    refine ⟨?_, ?_⟩
    · rintro ⟨v, d⟩ hv hvar
      have hd := (mem_vars_iff i v d).mp hv
      cases v with
      | totalKwhPeriod =>
        obtain rfl := Option.some.inj (hdecl.symm.trans hd)
        exact (admits_nonNegative _).mpr hnonneg
      | kwhUnder =>
        obtain rfl := Option.some.inj (hdecl.symm.trans hd)
        exact (admits_nonNegative _).mpr hsplit.under_nonneg
      | kwhOver =>
        obtain rfl := Option.some.inj (hdecl.symm.trans hd)
        exact (admits_nonNegative _).mpr hsplit.over_nonneg
      | _ => cases hvar
    · rintro ⟨name, c⟩ hc hname
      have hr := (mem_constraints_iff i name c).mp hc
      cases name with
      | totalKwhDef =>
        obtain rfl := Option.some.inj ((hrow _).symm.trans hr)
        exact (htotal x).mpr hdef
      | kwhSplit =>
        obtain rfl := Option.some.inj ((hrow _).symm.trans hr)
        simpa [Constraint.Holds] using hsplit.total
      | kwhUnderCap =>
        obtain rfl := Option.some.inj ((hrow _).symm.trans hr)
        simpa [Constraint.Holds, hcap] using hsplit.under_le
      | _ => cases hname

theorem eval_tariffCost (htariff : i.config.tariffType = .energyCap)
    (hcap : i.config.energyCapKwh = some cap) (hunder : i.config.underCapRatePerKwh = some rate)
    (hover : i.config.overCapPenaltyPerKwh = some penalty) (x : OptVar → ℚ) :
    i.tariffCost.eval x = rate * x .kwhUnder + penalty * x .kwhOver -
      TwoRate.cost rate penalty cap i.state.cumulativeKwhPeriod := by
  rw [Inputs.tariffCost, if_pos htariff, Inputs.fixedEnergyCapCost, hcap, hunder, hover]
  simp [TwoRate.cost]

def withSlacks (x : OptVar → ℚ) (a b : ℚ) : OptVar → ℚ
  | .kwhUnder => a
  | .kwhOver => b
  | v => x v

theorem withSlacks_same (x : OptVar → ℚ) (a b : ℚ) {v : OptVar}
    (hv : ¬ (v = .kwhUnder ∨ v = .kwhOver)) : x v = withSlacks x a b v := by
  rw [not_or] at hv
  unfold withSlacks
  split
  · exact absurd rfl hv.1
  · exact absurd rfl hv.2
  · rfl

theorem withSlacks_feasible (htariff : i.config.tariffType = .energyCap)
    (hcap : i.config.energyCapKwh = some cap) {x : OptVar → ℚ} (hx : i.chargingModel.Feasible x)
    {a b : ℚ} (hsplit : TwoRate.Split cap (x .totalKwhPeriod) a b) :
    i.chargingModel.Feasible (withSlacks x a b) := by
  have hpart := (tariffFeasible_iff htariff hcap x).mp (TariffFeasible.of_feasible hx)
  have hnew : TariffFeasible i.chargingModel (withSlacks x a b) :=
    (tariffFeasible_iff htariff hcap _).mpr ⟨hpart.1, hpart.2.1, hsplit⟩
  apply feasible_of_changed (fun v => v = .kwhUnder ∨ v = .kwhOver) hx
    (fun v hv => withSlacks_same x a b hv)
  · rintro v d (rfl | rfl) hd
    · exact hnew.admits (_, d) ((mem_vars_iff i _ d).mpr hd) rfl
    · exact hnew.admits (_, d) ((mem_vars_iff i _ d).mpr hd) rfl
  · -- only rows of the tariff mention the slacks
    rintro name c ⟨v, hv, hment⟩ hc
    have hname : isTariffRow name = true := by
      rcases hv with rfl | rfl
      · cases name with
        | kwhSplit | kwhUnderCap => rfl
        | _ => exact absurd hment id
      · cases name with
        | kwhSplit => rfl
        | _ => exact absurd hment id
    exact hnew.holds (name, c) ((mem_constraints_iff i name c).mpr hc) hname

/-- **The least tariff cost of a plan**, over the tariff's own variables. -/
theorem isLeast_of_plan (htariff : i.config.tariffType = .energyCap)
    (hcap : i.config.energyCapKwh = some cap) (hunder : i.config.underCapRatePerKwh = some rate)
    (hover : i.config.overCapPenaltyPerKwh = some penalty) (hrate : rate ≤ penalty) (h0 : 0 ≤ cap)
    (p : VehicleId → ℕ → ℚ)
    (htotal : 0 ≤ i.state.cumulativeKwhPeriod + horizonKwh i.state i.config p) :
    IsLeast {q | ∃ x, TariffFeasible i.chargingModel x ∧ planOf x = p ∧ i.tariffCost.eval x = q}
      (marginalCost i.state rate penalty cap (horizonKwh i.state i.config p)) := by
  have hleast := TwoRate.isLeast_cost hrate h0 htotal
  obtain ⟨⟨a, b, hsplit, hcost⟩, hlower⟩ := hleast
  refine ⟨?_, ?_⟩
  · let x : OptVar → ℚ
      | .pCharge b t => p b t
      | .totalKwhPeriod => i.state.cumulativeKwhPeriod + horizonKwh i.state i.config p
      | .kwhUnder => a
      | .kwhOver => b
      | _ => 0
    refine ⟨x, (tariffFeasible_iff htariff hcap x).mpr ⟨htotal, rfl, hsplit⟩, rfl, ?_⟩
    rw [eval_tariffCost htariff hcap hunder hover, marginalCost, ← hcost]
  · rintro q ⟨x, hx, rfl, rfl⟩
    obtain ⟨_, hdef, hx⟩ := (tariffFeasible_iff htariff hcap x).mp hx
    rw [hdef] at hx
    have hle := hlower ⟨_, _, hx, rfl⟩
    rw [eval_tariffCost htariff hcap hunder hover, marginalCost]
    linarith

theorem isLeast_of_feasible (htariff : i.config.tariffType = .energyCap)
    (hcap : i.config.energyCapKwh = some cap) (hunder : i.config.underCapRatePerKwh = some rate)
    (hover : i.config.overCapPenaltyPerKwh = some penalty) (hrate : rate ≤ penalty) (h0 : 0 ≤ cap)
    {x : OptVar → ℚ} (hx : i.chargingModel.Feasible x) :
    IsLeast {q | ∃ y, i.chargingModel.Feasible y ∧
        (∀ v, ¬ (v = .kwhUnder ∨ v = .kwhOver) → x v = y v) ∧ i.tariffCost.eval y = q}
      (marginalCost i.state rate penalty cap (horizonKwh i.state i.config (planOf x))) := by
  obtain ⟨hnonneg, hdef, _⟩ := (tariffFeasible_iff htariff hcap x).mp (TariffFeasible.of_feasible hx)
  rw [hdef] at hnonneg
  refine ⟨?_, ?_⟩
  · obtain ⟨⟨a, b, hsplit, hcost⟩, _⟩ := TwoRate.isLeast_cost hrate h0 hnonneg
    rw [← hdef] at hsplit
    refine ⟨withSlacks x a b, withSlacks_feasible htariff hcap hx hsplit,
      fun v hv => withSlacks_same x a b hv, ?_⟩
    rw [eval_tariffCost htariff hcap hunder hover, marginalCost, ← hcost]
    rfl
  · rintro q ⟨y, hy, hsame, rfl⟩
    have hplan : planOf y = planOf x := by
      funext b t
      exact (hsame (.pCharge b t) (by simp)).symm
    exact (isLeast_of_plan htariff hcap hunder hover hrate h0 (planOf x) hnonneg).2
      ⟨y, TariffFeasible.of_feasible hy, hplan, rfl⟩

end Tariff

theorem horizonKwh_empty (state : DepotState) (config : DepotConfig) :
    horizonKwh state config (fun _ _ => 0) = 0 := by
  apply List.sum_eq_zero
  intro q hq
  obtain ⟨b, _, hb⟩ := List.mem_flatMap.mp hq
  obtain ⟨t, _, rfl⟩ := List.mem_map.mp hb
  exact mul_zero _

/-- **The energy-cap tariff charges what the horizon adds to the bill.**  For every model that is built:
the least tariff cost of a charging plan, over the tariff's own variables and over the slacks of a
feasible assignment alike, is the two-rate cost after the horizon less the one before it.  It is zero
for the empty plan and, with non-negative rates, grows with the energy of the horizon. -/
theorem tariff_cost_is_marginal (state : DepotState) (config : DepotConfig)
    (horizonStart : Option Stamp) (utcNow : ℚ) (m : ChargingModel)
    (hm : buildOptimizationModel state config horizonStart utcNow = .ok m)
    (htariff : config.tariffType = .energyCap) (rate penalty cap : ℚ)
    (hcap : config.energyCapKwh = some cap) (hunder : config.underCapRatePerKwh = some rate)
    (hover : config.overCapPenaltyPerKwh = some penalty) (hrate : rate < penalty) (h0 : 0 ≤ cap) :
    ∃ i : Inputs, i.state = state ∧ i.config = config ∧ m = i.chargingModel ∧
      (∀ p : VehicleId → ℕ → ℚ, 0 ≤ state.cumulativeKwhPeriod + horizonKwh state config p →
        IsLeast {q | ∃ x, TariffFeasible m x ∧ planOf x = p ∧ i.tariffCost.eval x = q}
          (marginalCost state rate penalty cap (horizonKwh state config p))) ∧
      (∀ x, m.Feasible x →
        IsLeast {q | ∃ y, m.Feasible y ∧ (∀ v, ¬ (v = .kwhUnder ∨ v = .kwhOver) → x v = y v) ∧
            i.tariffCost.eval y = q}
          (marginalCost state rate penalty cap (horizonKwh state config (planOf x)))) ∧
      marginalCost state rate penalty cap (horizonKwh state config fun _ _ => 0) = 0 ∧
      (0 ≤ rate → 0 ≤ penalty → Monotone (marginalCost state rate penalty cap)) := by
  obtain ⟨i, hbuilt, rfl⟩ := built_of_ok hm
  obtain rfl := hbuilt.state_eq
  obtain rfl := hbuilt.config_eq
  refine ⟨i, rfl, rfl, rfl, ?_, ?_, ?_, ?_⟩
  · intro p hp
    exact isLeast_of_plan htariff hcap hunder hover hrate.le h0 p hp
  · intro x hx
    exact isLeast_of_feasible htariff hcap hunder hover hrate.le h0 hx
  · rw [horizonKwh_empty, marginalCost, add_zero, sub_self]
  · intro hlow hhigh h k hhk
    have hmore : i.state.cumulativeKwhPeriod + h ≤ i.state.cumulativeKwhPeriod + k := by linarith
    have hcost : TwoRate.cost rate penalty cap (i.state.cumulativeKwhPeriod + h) ≤
        TwoRate.cost rate penalty cap (i.state.cumulativeKwhPeriod + k) :=
      TwoRate.cost_mono hlow hhigh hmore
    rw [marginalCost, marginalCost]
    linarith

/-- A cap of 10 kWh a period, with a rate of 1 below it and of 3 beyond. -/
def cappedConfig : DepotConfig :=
  { SocTrajectory.oneBusConfig with
    tariffType := .energyCap
    energyCapKwh := some 10
    underCapRatePerKwh := some 1
    overCapPenaltyPerKwh := some 3 }

def halfUsedState : DepotState :=
  { SocTrajectory.oneBusState (1 / 2) with cumulativeKwhPeriod := 5 }

def cappedInputs : Inputs := ⟨halfUsedState, cappedConfig, Dict.empty, requiredPrecondAt []⟩

/-- 20 kWh more: 5 kWh still at the lower rate, 15 kWh beyond the cap. -/
theorem twenty_kwh_cross_the_cap :
    IsLeast {q | ∃ x, TariffFeasible cappedInputs.chargingModel x ∧ planOf x = (fun _ _ => 40) ∧
      cappedInputs.tariffCost.eval x = q} 50 := by
  have hm : buildOptimizationModel halfUsedState cappedConfig (some (.naive 0)) 0 =
      .ok cappedInputs.chargingModel := by
    decide +kernel
  obtain ⟨i, hstate, hconfig, _, hplan, _⟩ := tariff_cost_is_marginal halfUsedState cappedConfig
    (some (.naive 0)) 0 cappedInputs.chargingModel hm rfl 1 3 10 rfl rfl rfl (by decide +kernel)
    (by decide +kernel)
  have htariff : i.tariffCost = cappedInputs.tariffCost := by
    rw [Inputs.tariffCost, Inputs.fixedEnergyCapCost, hstate, hconfig]
    rfl
  have hcost : marginalCost halfUsedState 1 3 10 (horizonKwh halfUsedState cappedConfig
      fun _ _ => 40) = 50 := by
    decide +kernel
  have hleast := hplan (fun _ _ => 40) (by decide +kernel)
  rw [htariff, hcost] at hleast
  exact hleast

end FavoniusBackend.Optimizer.EnergyCap
