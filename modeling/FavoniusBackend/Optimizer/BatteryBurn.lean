import FavoniusBackend.Optimizer.PlanChanges
import FavoniusBackend.Optimizer.SocTrajectory

/-!
# Charging and discharging at once

The charging model splits the battery power into `P_batt_charge` and `P_batt_discharge`, and no
constraint keeps one of them at zero.  With an efficiency `η` below 1 doing both at once burns energy:
the battery's SoC follows the difference, but the grid has to deliver `1 / η - η` for each kW
(`burnRate`).

Taking some of it back is feasible as long as the grid delivers that much (`lessBurn_feasible`), and the
objective falls by its price (`lessBurn_objective`).  So an optimal plan that draws power at a positive
price does not burn any (`optimal_plan_burns_nothing`).  A negative price pays for burning, and where the
grid delivers nothing there is nothing to save (`optimal_plans_that_burn`).
-/

namespace FavoniusBackend.Optimizer.BatteryBurn

open Lib Lib.Milp Optimizer.Models
open Optimizer.MilpModel Optimizer.ModelRows
open Optimizer.PlanChanges

/-- What the grid delivers for each kW that is charged and discharged at once. -/
def burnRate (config : DepotConfig) : ℚ := 1 / config.batteryEfficiency - config.batteryEfficiency

theorem burnRate_pos {config : DepotConfig} (h0 : 0 < config.batteryEfficiency)
    (h1 : config.batteryEfficiency < 1) : 0 < burnRate config := by
  have hinv : 1 < 1 / config.batteryEfficiency := by
    rw [lt_div_iff₀ h0, one_mul]
    exact h1
  rw [burnRate]
  linarith

/-- The variables of the battery's power at step `t`. -/
def AtStep (t : ℕ) (v : OptVar) : Prop := v = .pBattDischarge t ∨ v = .pBattCharge t ∨ v = .pGrid t

/-- The plan that charges and discharges `ε` less at step `t`. -/
def lessBurn (config : DepotConfig) (x : OptVar → ℚ) (t : ℕ) (ε : ℚ) : OptVar → ℚ
  | .pBattDischarge s => if s = t then x (.pBattDischarge t) - ε else x (.pBattDischarge s)
  | .pBattCharge s => if s = t then x (.pBattCharge t) - ε else x (.pBattCharge s)
  | .pGrid s => if s = t then x (.pGrid t) - ε * burnRate config else x (.pGrid s)
  | v => x v

section Burn

variable {i : Inputs} {x : OptVar → ℚ} {t : ℕ} {ε : ℚ}

theorem lessBurn_same (config : DepotConfig) {v : OptVar} (hv : ¬ AtStep t v) :
    x v = lessBurn config x t ε v := by
  unfold AtStep at hv
  cases v with
  | pBattDischarge s =>
    have hne : s ≠ t := fun h => hv (Or.inl (by rw [h]))
    exact (if_neg hne).symm
  | pBattCharge s =>
    have hne : s ≠ t := fun h => hv (Or.inr (Or.inl (by rw [h])))
    exact (if_neg hne).symm
  | pGrid s =>
    have hne : s ≠ t := fun h => hv (Or.inr (Or.inr (by rw [h])))
    exact (if_neg hne).symm
  | _ => rfl

theorem lessBurn_discharge (config : DepotConfig) :
    lessBurn config x t ε (.pBattDischarge t) = x (.pBattDischarge t) - ε :=
  if_pos rfl

theorem lessBurn_charge (config : DepotConfig) :
    lessBurn config x t ε (.pBattCharge t) = x (.pBattCharge t) - ε :=
  if_pos rfl

theorem lessBurn_grid (config : DepotConfig) :
    lessBurn config x t ε (.pGrid t) = x (.pGrid t) - ε * burnRate config :=
  if_pos rfl

/-! ### What a feasible plan says about one step -/

theorem battery_admits (hx : i.chargingModel.Feasible x) (ht : t < i.config.nTimesteps) :
    (0 ≤ x (.pBattDischarge t) ∧ x (.pBattDischarge t) ≤ i.battPower) ∧
      0 ≤ x (.pBattCharge t) ∧ x (.pBattCharge t) ≤ i.battPower := by
  have hdischarge := admits_declOf hx (.pBattDischarge t) (if_pos ht)
  have hcharge := admits_declOf hx (.pBattCharge t) (if_pos ht)
  exact ⟨⟨hdischarge.lb, hdischarge.ub⟩, hcharge.lb, hcharge.ub⟩

theorem grid_nonneg (hx : i.chargingModel.Feasible x) (ht : t < i.config.nTimesteps) :
    0 ≤ x (.pGrid t) :=
  (admits_declOf hx (.pGrid t) (if_pos ht)).domain

theorem slack_nonneg (hx : i.chargingModel.Feasible x) (ht : t < i.config.nTimesteps) :
    0 ≤ x (.precondSlack t) :=
  (admits_declOf hx (.precondSlack t) (if_pos ht)).domain

theorem grid_le_site (hx : i.chargingModel.Feasible x) (ht : t < i.config.nTimesteps) :
    x (.pGrid t) ≤ i.config.maxSitePower := by
  have hrow := holds_rowOf hx (.sitePowerLimit t) (if_pos ht)
  simpa [Constraint.Holds] using hrow

theorem grid_le_peak (hx : i.chargingModel.Feasible x) (ht : t < i.config.nTimesteps) :
    x (.pGrid t) ≤ x .pPeak := by
  have hrow := holds_rowOf hx (.peakTracking t) (if_pos ht)
  simpa [Constraint.Holds] using hrow

/-! ### Taking back what is burnt -/

/-- **Burning less is feasible** as long as neither power nor the grid falls below zero. -/
theorem lessBurn_feasible (hx : i.chargingModel.Feasible x) (ht : t < i.config.nTimesteps)
    (hburn : 0 ≤ burnRate i.config) (hε : 0 ≤ ε) (hd : ε ≤ x (.pBattDischarge t))
    (hc : ε ≤ x (.pBattCharge t)) (hg : ε * burnRate i.config ≤ x (.pGrid t)) :
    i.chargingModel.Feasible (lessBurn i.config x t ε) := by
  have hsaved : 0 ≤ ε * burnRate i.config := mul_nonneg hε hburn
  obtain ⟨⟨_, hdub⟩, _, hcub⟩ := battery_admits hx ht
  apply feasible_of_changed (AtStep t) hx (fun v hv => lessBurn_same i.config hv)
  · rintro v d (rfl | rfl | rfl) hdecl
    · obtain rfl := Option.some.inj ((if_pos ht).symm.trans hdecl)
      rw [lessBurn_discharge]
      exact ⟨sub_nonneg.mpr hd, sub_nonneg.mpr hd, (sub_le_self _ hε).trans hdub, trivial⟩
    · obtain rfl := Option.some.inj ((if_pos ht).symm.trans hdecl)
      rw [lessBurn_charge]
      exact ⟨sub_nonneg.mpr hc, sub_nonneg.mpr hc, (sub_le_self _ hε).trans hcub, trivial⟩
    · obtain rfl := Option.some.inj ((if_pos ht).symm.trans hdecl)
      rw [lessBurn_grid]
      exact ⟨sub_nonneg.mpr hg, trivial, trivial, trivial⟩
  · rintro name c ⟨v, hv, hment⟩ hrow
    have hold := holds_rowOf hx name hrow
    cases name with
    | battSplit s =>
      obtain rfl : t = s := by rcases hv with rfl | rfl | rfl <;> first | exact hment | cases hment
      obtain rfl := Option.some.inj ((if_pos ht).symm.trans hrow)
      simp only [Constraint.Holds, LinExpr.eval_var, LinExpr.eval_sub] at hold ⊢
      rw [lessBurn_discharge, lessBurn_charge]
      show x (.pBatt t) = _
      rw [hold]
      ring
    | gridBalance s =>
      obtain rfl : t = s := by rcases hv with rfl | rfl | rfl <;> exact hment
      obtain rfl := Option.some.inj ((if_pos ht).symm.trans hrow)
      simp only [Constraint.Holds, LinExpr.eval_var, LinExpr.eval_sub, LinExpr.eval_add,
        LinExpr.eval_sum, LinExpr.eval_constant, LinExpr.eval_scale, List.map_map] at hold ⊢
      rw [lessBurn_discharge, lessBurn_charge, lessBurn_grid, hold, burnRate]
      simp only [Function.comp_def, lessBurn]
      ring
    | sitePowerLimit s =>
      obtain rfl : t = s := by rcases hv with rfl | rfl | rfl <;> first | exact hment | cases hment
      obtain rfl := Option.some.inj ((if_pos ht).symm.trans hrow)
      simp only [Constraint.Holds, LinExpr.eval_var, LinExpr.eval_constant]
      rw [lessBurn_grid]
      exact (sub_le_self _ hsaved).trans (grid_le_site hx ht)
    | peakTracking s =>
      obtain rfl : t = s := by rcases hv with rfl | rfl | rfl <;> first | exact hment | cases hment
      obtain rfl := Option.some.inj ((if_pos ht).symm.trans hrow)
      simp only [Constraint.Holds, LinExpr.eval_var]
      rw [lessBurn_grid]
      exact (sub_le_self _ hsaved).trans (grid_le_peak hx ht)
    | _ => rcases hv with rfl | rfl | rfl <;> cases hment

/-! ### What it saves -/

theorem sum_range_of_eq_off {f g : ℕ → ℚ} (h : ∀ s, s ≠ t → f s = g s) :
    ∀ n, t < n → ((List.range n).map f).sum = ((List.range n).map g).sum + (f t - g t) := by
  intro n
  induction n with
  | zero =>
    intro ht
    exact absurd ht (Nat.not_lt_zero t)
  | succ n ih =>
    intro ht
    rw [List.sum_range_succ, List.sum_range_succ]
    rcases Nat.lt_succ_iff_lt_or_eq.mp ht with hlt | rfl
    · rw [ih hlt, h n (Nat.ne_of_gt hlt)]
      ring
    · have hpre : (List.range t).map f = (List.range t).map g := by
        apply List.map_congr_left
        intro s hs
        exact h s (Nat.ne_of_lt (List.mem_range.mp hs))
      rw [hpre]
      ring

theorem eval_objective (i : Inputs) (x : OptVar → ℚ) :
    i.chargingModel.objective.eval x =
      ((List.range i.config.nTimesteps).map fun t =>
        i.state.prices.getD t 0 * i.config.deltaT * x (.pGrid t)).sum +
      i.tariffCost.eval x +
      Inputs.mPrecond * ((List.range i.config.nTimesteps).map fun t => x (.precondSlack t)).sum := by
  show i.objective.eval x = _
  simp only [Inputs.objective, LinExpr.eval_add, LinExpr.eval_sum, LinExpr.eval_scale, List.map_map,
    Function.comp_def, one_mul, Inputs.steps]

theorem lessBurn_tariffCost :
    i.tariffCost.eval (lessBurn i.config x t ε) = i.tariffCost.eval x := by
  unfold Inputs.tariffCost
  split
  · simp only [LinExpr.eval_add, LinExpr.eval_sub, LinExpr.eval_scale, LinExpr.eval_var,
      LinExpr.eval_constant, lessBurn]
  · simp only [LinExpr.eval_scale, LinExpr.eval_var, lessBurn]

/-- **Burning less costs less**, by the price of the grid power it saves. -/
theorem lessBurn_objective (ht : t < i.config.nTimesteps) :
    i.chargingModel.objective.eval (lessBurn i.config x t ε) = i.chargingModel.objective.eval x -
      i.state.prices.getD t 0 * i.config.deltaT * (ε * burnRate i.config) := by
  have henergy := sum_range_of_eq_off (t := t)
    (f := fun s => i.state.prices.getD s 0 * i.config.deltaT * lessBurn i.config x t ε (.pGrid s))
    (g := fun s => i.state.prices.getD s 0 * i.config.deltaT * x (.pGrid s))
    (by
      intro s hs
      rw [← lessBurn_same i.config (v := .pGrid s) (by simp [AtStep, hs])])
    i.config.nTimesteps ht
  simp only [lessBurn_grid] at henergy
  rw [eval_objective, eval_objective, henergy, lessBurn_tariffCost]
  simp only [lessBurn]
  ring

end Burn

/-- **An optimal plan burns nothing it has to pay for.**  For every model that is built with a battery
efficiency between 0 and 1, in every optimal assignment and at every step with a positive price at which
the grid delivers power, the battery does not charge and discharge at once. -/
theorem optimal_plan_burns_nothing (state : DepotState) (config : DepotConfig)
    (horizonStart : Option Stamp) (utcNow : ℚ) (m : ChargingModel)
    (hm : buildOptimizationModel state config horizonStart utcNow = .ok m)
    (hη0 : 0 < config.batteryEfficiency) (hη1 : config.batteryEfficiency < 1)
    (hstep : 0 < config.deltaT) (x : OptVar → ℚ) (hx : m.Optimal x) (t : ℕ)
    (ht : t < config.nTimesteps) (hprice : 0 < state.prices.getD t 0) (hgrid : 0 < x (.pGrid t)) :
    x (.pBattCharge t) * x (.pBattDischarge t) = 0 := by
  obtain ⟨i, hbuilt, rfl⟩ := built_of_ok hm
  obtain rfl := hbuilt.state_eq
  obtain rfl := hbuilt.config_eq
  obtain ⟨⟨hd0, _⟩, hc0, _⟩ := battery_admits hx.feasible ht
  by_contra hboth
  have hc : 0 < x (.pBattCharge t) := lt_of_le_of_ne hc0 fun h => hboth (by rw [← h, zero_mul])
  have hd : 0 < x (.pBattDischarge t) := lt_of_le_of_ne hd0 fun h => hboth (by rw [← h, mul_zero])
  have hrate := burnRate_pos hη0 hη1
  -- as much as both powers and the grid allow
  let ε := min (min (x (.pBattDischarge t)) (x (.pBattCharge t))) (x (.pGrid t) / burnRate i.config)
  have hε : 0 < ε := lt_min (lt_min hd hc) (div_pos hgrid hrate)
  have hεd : ε ≤ x (.pBattDischarge t) := (min_le_left _ _).trans (min_le_left _ _)
  have hεc : ε ≤ x (.pBattCharge t) := (min_le_left _ _).trans (min_le_right _ _)
  have hεg : ε * burnRate i.config ≤ x (.pGrid t) := (le_div_iff₀ hrate).mp (min_le_right _ _)
  have hleast := hx.least _ (lessBurn_feasible hx.feasible ht hrate.le hε.le hεd hεc hεg)
  rw [lessBurn_objective ht] at hleast
  have hsaved : 0 < i.state.prices.getD t 0 * i.config.deltaT * (ε * burnRate i.config) :=
    mul_pos (mul_pos hprice hstep) (mul_pos hε hrate)
  linarith

/-! ### A depot with a load -/

theorem load_le_grid {i : Inputs} {x : OptVar → ℚ} {t : ℕ} (hx : i.chargingModel.Feasible x)
    (ht : t < i.config.nTimesteps) (hη : 0 < i.config.batteryEfficiency) :
    i.state.buildingPower.getD t 0 + i.config.buildingLoadAssumptionKw -
      i.config.batteryEfficiency * i.battPower ≤ x (.pGrid t) := by
  have hrow := holds_rowOf hx (.gridBalance t) (if_pos ht)
  simp only [Constraint.Holds, LinExpr.eval_var, LinExpr.eval_sub, LinExpr.eval_add, LinExpr.eval_sum,
    LinExpr.eval_constant, LinExpr.eval_scale, List.map_map, Function.comp_def, one_mul] at hrow
  have hcharging : 0 ≤ (i.vehicles.map fun b => x (.pCharge b t)).sum := by
    apply List.sum_nonneg
    intro q hq
    obtain ⟨b, hb, rfl⟩ := List.mem_map.mp hq
    exact (admits_declOf hx (.pCharge b t) (if_pos ⟨hb, ht⟩)).domain
  have hprecond : 0 ≤ x (.pPrecond t) := (admits_declOf hx (.pPrecond t) (if_pos ht)).domain
  obtain ⟨⟨_, hdub⟩, hc0, _⟩ := battery_admits hx ht
  have hgive := mul_le_mul_of_nonneg_left hdub hη.le
  have htake : 0 ≤ 1 / i.config.batteryEfficiency * x (.pBattCharge t) :=
    mul_nonneg (one_div_pos.mpr hη).le hc0
  rw [hrow]
  linarith

def batteryConfig : DepotConfig :=
  { SocTrajectory.oneBusConfig with
    batteryCapacity := 100
    batteryPower := 20
    batteryEfficiency := 1 / 2
    maxSitePower := 6 }

/-- Nothing has to be charged; price and building load are the same in both steps. -/
def idleState (price load : ℚ) : DepotState :=
  { SocTrajectory.oneBusState (1 / 2) with
    prices := [price, price]
    buildingPower := [load, load] }

def batteryInputs (price load : ℚ) : Inputs :=
  ⟨idleState price load, batteryConfig, Dict.empty, requiredPrecondAt []⟩

/-- The battery charges with `c` kW and discharges with `d` kW in both steps. -/
def batteryPlan (load c d : ℚ) : OptVar → ℚ
  | .soc _ _ => 1 / 2
  | .pGrid _ => load + 2 * c - d / 2
  | .pPeak => load + 2 * c - d / 2
  | .pBatt _ => d - c
  | .socBatt t => if t = 0 then 1 / 2 else 1 / 2 - (d - c) / 400
  | .pBattDischarge _ => d
  | .pBattCharge _ => c
  | _ => 0

theorem eval_idle (price load : ℚ) (x : OptVar → ℚ) :
    (batteryInputs price load).chargingModel.objective.eval x =
      price / 4 * (x (.pGrid 0) + x (.pGrid 1)) +
        1000 * (x (.precondSlack 0) + x (.precondSlack 1)) := by
  rw [eval_objective]
  simp [batteryInputs, idleState, batteryConfig, SocTrajectory.oneBusConfig, SocTrajectory.oneBusState,
    Inputs.tariffCost, Inputs.mPrecond, List.range_succ]
  ring

example : (batteryInputs 1 14).chargingModel.objective.eval (batteryPlan 14 0 20) = 2 := by
  rw [eval_idle]
  norm_num [batteryPlan]

theorem batteryPlans_feasible :
    (batteryInputs 1 14).chargingModel.Feasible (batteryPlan 14 0 20) ∧
      (batteryInputs (-1) 0).chargingModel.Feasible (batteryPlan 0 4 4) ∧
      (batteryInputs 1 0).chargingModel.Feasible (batteryPlan 0 1 4) :=
  ⟨by decide +kernel, by decide +kernel, by decide +kernel⟩

theorem batteryModels_built : ∀ p ∈ [((1 : ℚ), (14 : ℚ)), (-1, 0), (1, 0)],
    buildOptimizationModel (idleState p.1 p.2) batteryConfig (some (.naive 0)) 0 =
      .ok (batteryInputs p.1 p.2).chargingModel := by decide +kernel

/-- A building load of 14 kW at a price of 1: the battery gives the 10 kW it can. -/
theorem discharging_is_optimal : (batteryInputs 1 14).chargingModel.Optimal (batteryPlan 14 0 20) := by
  refine ⟨batteryPlans_feasible.1, ?_⟩
  intro y hy
  have hη : 0 < (batteryInputs 1 14).config.batteryEfficiency := one_half_pos
  have hload : ∀ t < 2, 4 ≤ (batteryInputs 1 14).state.buildingPower.getD t 0 +
      (batteryInputs 1 14).config.buildingLoadAssumptionKw -
      (batteryInputs 1 14).config.batteryEfficiency * (batteryInputs 1 14).config.batteryPower := by
    decide +kernel
  have h0 : 4 ≤ y (.pGrid 0) := le_trans (hload 0 (by decide)) (load_le_grid hy (by decide : 0 < 2) hη)
  have h1 : 4 ≤ y (.pGrid 1) := le_trans (hload 1 (by decide)) (load_le_grid hy (by decide : 1 < 2) hη)
  have hs0 := slack_nonneg hy (by decide : 0 < 2)
  have hs1 := slack_nonneg hy (by decide : 1 < 2)
  rw [eval_idle, eval_idle]
  simp only [batteryPlan]
  linarith

/-- The loaded depot does not burn. -/
theorem loaded_depot_burns_nothing :
    batteryPlan 14 0 20 (.pBattCharge 0) * batteryPlan 14 0 20 (.pBattDischarge 0) = 0 :=
  optimal_plan_burns_nothing (idleState 1 14) batteryConfig (some (.naive 0)) 0
    (batteryInputs 1 14).chargingModel (batteryModels_built (1, 14) (by simp)) (by norm_num [batteryConfig])
    (by norm_num [batteryConfig]) (by norm_num [batteryConfig, SocTrajectory.oneBusConfig]) (batteryPlan 14 0 20)
    discharging_is_optimal 0 (by decide) (by norm_num [idleState]) (by norm_num [batteryPlan])

theorem burns_at_negative_price : (batteryInputs (-1) 0).chargingModel.Optimal (batteryPlan 0 4 4) := by
  refine ⟨batteryPlans_feasible.2.1, ?_⟩
  intro y hy
  have h0 := grid_le_site hy (by decide : 0 < 2)
  have h1 := grid_le_site hy (by decide : 1 < 2)
  have hs0 := slack_nonneg hy (by decide : 0 < 2)
  have hs1 := slack_nonneg hy (by decide : 1 < 2)
  rw [eval_idle, eval_idle]
  simp only [batteryPlan]
  have hsite : (batteryInputs (-1) 0).config.maxSitePower = 6 := rfl
  rw [hsite] at h0 h1
  linarith

/-- Also at a price of 1, when discharging alone would feed energy into the grid. -/
theorem burns_without_grid : (batteryInputs 1 0).chargingModel.Optimal (batteryPlan 0 1 4) := by
  refine ⟨batteryPlans_feasible.2.2, ?_⟩
  intro y hy
  have h0 := grid_nonneg hy (by decide : 0 < 2)
  have h1 := grid_nonneg hy (by decide : 1 < 2)
  have hs0 := slack_nonneg hy (by decide : 0 < 2)
  have hs1 := slack_nonneg hy (by decide : 1 < 2)
  rw [eval_idle, eval_idle]
  simp only [batteryPlan]
  linarith

/-- **Optimal plans that burn**: 6 kW of burnt energy at a negative price, and at a positive price a plan
that draws nothing from the grid. -/
theorem optimal_plans_that_burn :
    buildOptimizationModel (idleState (-1) 0) batteryConfig (some (.naive 0)) 0 =
      .ok (batteryInputs (-1) 0).chargingModel ∧
    (batteryInputs (-1) 0).chargingModel.Optimal (batteryPlan 0 4 4) ∧
    batteryPlan 0 4 4 (.pBattCharge 0) * batteryPlan 0 4 4 (.pBattDischarge 0) ≠ 0 ∧
    batteryPlan 0 4 4 (.pGrid 0) = 6 ∧
    buildOptimizationModel (idleState 1 0) batteryConfig (some (.naive 0)) 0 =
      .ok (batteryInputs 1 0).chargingModel ∧
    (batteryInputs 1 0).chargingModel.Optimal (batteryPlan 0 1 4) ∧
    batteryPlan 0 1 4 (.pBattCharge 0) * batteryPlan 0 1 4 (.pBattDischarge 0) ≠ 0 ∧
    batteryPlan 0 1 4 (.pGrid 0) = 0 := by
  refine ⟨batteryModels_built (-1, 0) (by simp), burns_at_negative_price, ?_, ?_,
    batteryModels_built (1, 0) (by simp), burns_without_grid, ?_, ?_⟩
  · norm_num [batteryPlan]
  · norm_num [batteryPlan]
  · norm_num [batteryPlan]
  · norm_num [batteryPlan]

end FavoniusBackend.Optimizer.BatteryBurn
