import FavoniusBackend.Optimizer.SocTrajectory

/-!
# Symmetry breaking and variable fixing

`build_optimization_model` adds two things only for speed: it orders the binary variables `y_charge` of
neighbouring vehicles (`symmetry_break`), and it fixes `P_charge` and `y_charge` of the vehicles on
route at the first step.  Neither changes what can be scheduled.

A feasible assignment of the model without them is repaired on `y_charge` alone.  A vehicle that is not
available gets 0, which its power allows because the availability constraint already forces it to 0.
With symmetry breaking, every available vehicle gets 1: the chain then compares 1 with 1, and the count
constraint has room because the vehicles do not outnumber the chargers.  Without symmetry breaking an
available vehicle keeps its value.
-/

namespace FavoniusBackend.Optimizer.SymmetryBreaking

open Lib Lib.Milp Lib.Guard
open Optimizer.Models Optimizer.MilpModel
open Optimizer.SocTrajectory

/-- Everything but the binary variables: powers, SoCs, grid, peak, battery, preconditioning, tariff. -/
def Scheduled : OptVar → Prop
  | .yCharge _ _ => False
  | _ => True

/-- Every constraint but `symmetry_break`. -/
def keepsConstraint : ConstraintName → Bool
  | .symmetryBreak _ _ => false
  | _ => true

def repairedBinary (i : Inputs) (x : OptVar → ℚ) (b : VehicleId) (t : ℕ) : ℚ :=
  if i.available b t then (if i.breaksSymmetry then 1 else x (.yCharge b t)) else 0

def repair (i : Inputs) (x : OptVar → ℚ) : OptVar → ℚ
  | .yCharge b t => repairedBinary i x b t
  | v => x v

theorem repair_scheduled (i : Inputs) (x : OptVar → ℚ) (v : OptVar) (hv : Scheduled v) :
    repair i x v = x v := by
  cases v with
  | yCharge b t => exact absurd hv id
  | _ => rfl

/-! ### Which constraints see the binaries -/

section Rows

variable (i : Inputs)

/-- A row that stays in the relaxation and sees no binary. -/
structure KeptRow (k : ConstraintName × OptConstraint) : Prop where
  keeps : keepsConstraint k.1 = true
  within : k.2.Within Scheduled

theorem keptRow_overVehicles {name : VehicleId → ConstraintName}
    {rule : VehicleId → Option OptConstraint} (hname : ∀ b, keepsConstraint (name b) = true)
    (hrule : ∀ b, ∀ c ∈ rule b, c.Within Scheduled) {k : ConstraintName × OptConstraint}
    (hk : k ∈ i.overVehicles name rule) : KeptRow k := by
  obtain ⟨b, _, c, hc, rfl⟩ := i.mem_overVehicles.mp hk
  exact ⟨hname b, hrule b c hc⟩

theorem keptRow_overSteps {name : ℕ → ConstraintName} {rule : ℕ → Option OptConstraint}
    (hname : ∀ t, keepsConstraint (name t) = true) (hrule : ∀ t, ∀ c ∈ rule t, c.Within Scheduled)
    {k : ConstraintName × OptConstraint} (hk : k ∈ i.overSteps name rule) : KeptRow k := by
  obtain ⟨t, _, c, hc, rfl⟩ := i.mem_overSteps.mp hk
  exact ⟨hname t, hrule t c hc⟩

theorem keptRow_overBoth {name : VehicleId → ℕ → ConstraintName}
    {rule : VehicleId → ℕ → Option OptConstraint} (hname : ∀ b t, keepsConstraint (name b t) = true)
    (hrule : ∀ b t, ∀ c ∈ rule b t, c.Within Scheduled) {k : ConstraintName × OptConstraint}
    (hk : k ∈ i.overBoth name rule) : KeptRow k := by
  obtain ⟨b, _, t, _, c, hc, rfl⟩ := i.mem_overBoth.mp hk
  exact ⟨hname b t, hrule b t c hc⟩

theorem keptRow_single {name : ConstraintName} {rule : Option OptConstraint}
    (hname : keepsConstraint name = true) (hrule : ∀ c ∈ rule, c.Within Scheduled)
    {k : ConstraintName × OptConstraint} (hk : k ∈ Inputs.single name rule) : KeptRow k := by
  obtain ⟨c, hc, rfl⟩ := Inputs.mem_single.mp hk
  exact ⟨hname, hrule c hc⟩

/-- A rule that always returns one constraint, whose variables are not binary. -/
theorem scheduled_some {c : OptConstraint} (h : c.Within Scheduled) :
    ∀ d ∈ some c, d.Within Scheduled := by
  intro d hd
  cases hd
  exact h

theorem scheduled_ite {q : Prop} [Decidable q] {r s : Option OptConstraint}
    (hr : q → ∀ d ∈ r, d.Within Scheduled) (hs : ¬ q → ∀ d ∈ s, d.Within Scheduled) :
    ∀ d ∈ (if q then r else s), d.Within Scheduled := by
  by_cases hq : q
  · rw [if_pos hq]
    exact hr hq
  · rw [if_neg hq]
    exact hs hq

theorem scheduled_none : ∀ d ∈ (none : Option OptConstraint), d.Within Scheduled := by
  intro d hd
  cases hd

/-! Rule by rule, the rows other than link, count and symmetry see no binary. -/

theorem socInitRule_scheduled (b : VehicleId) : ∀ c ∈ i.socInitRule b, c.Within Scheduled := by
  refine scheduled_ite (fun _ => scheduled_none) (fun _ => scheduled_some ?_)
  simp [Constraint.Within, Scheduled]

theorem incomingVehicleSocRule_scheduled (b : VehicleId) :
    ∀ c ∈ i.incomingVehicleSocRule b, c.Within Scheduled := by
  intro c hc
  obtain ⟨arrival, _, rfl⟩ := Option.map_eq_some_iff.mp hc
  simp [Constraint.Within, Scheduled]

theorem socDynamicsRule_scheduled (b : VehicleId) (t : ℕ) :
    ∀ c ∈ i.socDynamicsRule b t, c.Within Scheduled := by
  refine scheduled_ite (fun _ => scheduled_none) (fun _ => scheduled_some ?_)
  simp [Constraint.Within, Scheduled]

theorem availabilityRule_scheduled (b : VehicleId) (t : ℕ) :
    ∀ c ∈ i.availabilityRule b t, c.Within Scheduled := by
  refine scheduled_ite (fun _ => scheduled_none) (fun _ => scheduled_some ?_)
  simp [Constraint.Within, Scheduled]

theorem departureSocMinRule_scheduled (b : VehicleId) :
    ∀ c ∈ i.departureSocMinRule b, c.Within Scheduled := by
  intro c hc
  obtain ⟨t, _, rfl⟩ := Option.map_eq_some_iff.mp hc
  simp [Constraint.Within, Scheduled]

theorem departureSocMaxRule_scheduled (b : VehicleId) :
    ∀ c ∈ i.departureSocMaxRule b, c.Within Scheduled := by
  intro c hc
  obtain ⟨t, _, ht⟩ := Option.bind_eq_some_iff.mp hc
  refine scheduled_ite (fun _ => scheduled_some ?_) (fun _ => scheduled_none) c ht
  simp [Constraint.Within, Scheduled]

theorem chargerPowerRule_scheduled (t : ℕ) : ∀ c ∈ i.chargerPowerRule t, c.Within Scheduled :=
  scheduled_some (by simp [Constraint.Within, Scheduled])

theorem battSplitRule_scheduled (t : ℕ) : ∀ c ∈ Inputs.battSplitRule t, c.Within Scheduled :=
  scheduled_some (by simp [Constraint.Within, Scheduled])

theorem precondRule_scheduled (t : ℕ) : ∀ c ∈ i.precondRule t, c.Within Scheduled :=
  scheduled_some (by simp [Constraint.Within, Scheduled])

theorem gridBalanceRule_scheduled (t : ℕ) : ∀ c ∈ i.gridBalanceRule t, c.Within Scheduled :=
  scheduled_some (by simp [Constraint.Within, Scheduled])

theorem sitePowerLimitRule_scheduled (t : ℕ) : ∀ c ∈ i.sitePowerLimitRule t, c.Within Scheduled :=
  scheduled_some (by simp [Constraint.Within, Scheduled])

theorem peakTrackingRule_scheduled (t : ℕ) : ∀ c ∈ Inputs.peakTrackingRule t, c.Within Scheduled :=
  scheduled_some (by simp [Constraint.Within, Scheduled])

theorem movingPeakRule_scheduled : ∀ c ∈ i.movingPeakRule, c.Within Scheduled :=
  scheduled_some (by simp [Constraint.Within, Scheduled])

theorem battInitRule_scheduled : ∀ c ∈ i.battInitRule, c.Within Scheduled := by
  refine scheduled_ite (fun _ => scheduled_some ?_) (fun _ => scheduled_none)
  simp [Constraint.Within, Scheduled]

theorem battDynamicsRule_scheduled (t : ℕ) : ∀ c ∈ i.battDynamicsRule t, c.Within Scheduled := by
  refine scheduled_ite (fun _ => scheduled_none)
    (fun _ => scheduled_ite (fun _ => scheduled_some ?_) (fun _ => scheduled_none))
  simp [Constraint.Within, Scheduled]

theorem totalKwhRule_scheduled : ∀ c ∈ i.totalKwhRule, c.Within Scheduled := by
  apply scheduled_some
  simp only [Constraint.Within, LinExpr.within_var, LinExpr.within_add, LinExpr.within_constant,
    LinExpr.within_sum, List.mem_flatMap, List.mem_map, true_and]
  refine ⟨trivial, ?_⟩
  rintro term ⟨b, _, t, _, hterm⟩
  rw [← hterm]
  trivial

theorem kwhSplitRule_scheduled : ∀ c ∈ Inputs.kwhSplitRule, c.Within Scheduled :=
  scheduled_some (by simp [Constraint.Within, Scheduled])

theorem kwhUnderCapRule_scheduled : ∀ c ∈ i.kwhUnderCapRule, c.Within Scheduled :=
  scheduled_some (by simp [Constraint.Within, Scheduled])

theorem keptRow_energyCap {k : ConstraintName × OptConstraint} (hk : k ∈ i.energyCapConstraints) :
    KeptRow k := by
  unfold Inputs.energyCapConstraints at hk
  split at hk
  · rcases List.mem_append.mp hk with h | h
    · rcases List.mem_append.mp h with h | h
      · exact keptRow_single rfl (totalKwhRule_scheduled i) h
      · exact keptRow_single rfl kwhSplitRule_scheduled h
    · exact keptRow_single rfl (kwhUnderCapRule_scheduled i) h
  · cases hk

theorem kept_or_binary {k : ConstraintName × OptConstraint} (hk : k ∈ i.constraints) :
    KeptRow k ∨ k ∈ i.overBoth .chargerLink i.chargerLinkRule ∨
      k ∈ i.overSteps .chargerCount i.chargerCountRule ∨ k ∈ i.symmetryBreak := by
  obtain ⟨component, hcomp, hk⟩ := List.mem_flatten.mp hk
  simp only [Inputs.components, List.mem_cons, List.not_mem_nil, or_false] at hcomp
  rcases hcomp with rfl | rfl | rfl | rfl | rfl | rfl | rfl | rfl | rfl | rfl | rfl | rfl | rfl | rfl |
    rfl | rfl | rfl | rfl | rfl
  · exact Or.inl (keptRow_overVehicles i (fun _ => rfl) (socInitRule_scheduled i) hk)
  · exact Or.inl (keptRow_overVehicles i (fun _ => rfl) (incomingVehicleSocRule_scheduled i) hk)
  · exact Or.inl (keptRow_overBoth i (fun _ _ => rfl) (socDynamicsRule_scheduled i) hk)
  · exact Or.inl (keptRow_overBoth i (fun _ _ => rfl) (availabilityRule_scheduled i) hk)
  · exact Or.inl (keptRow_overVehicles i (fun _ => rfl) (departureSocMinRule_scheduled i) hk)
  · exact Or.inl (keptRow_overVehicles i (fun _ => rfl) (departureSocMaxRule_scheduled i) hk)
  · exact Or.inr (Or.inl hk)
  · exact Or.inr (Or.inr (Or.inl hk))
  · exact Or.inl (keptRow_overSteps i (fun _ => rfl) (chargerPowerRule_scheduled i) hk)
  · exact Or.inr (Or.inr (Or.inr hk))
  · exact Or.inl (keptRow_overSteps i (fun _ => rfl) battSplitRule_scheduled hk)
  · exact Or.inl (keptRow_overSteps i (fun _ => rfl) (precondRule_scheduled i) hk)
  · exact Or.inl (keptRow_overSteps i (fun _ => rfl) (gridBalanceRule_scheduled i) hk)
  · exact Or.inl (keptRow_overSteps i (fun _ => rfl) (sitePowerLimitRule_scheduled i) hk)
  · exact Or.inl (keptRow_overSteps i (fun _ => rfl) peakTrackingRule_scheduled hk)
  · exact Or.inl (keptRow_single rfl (movingPeakRule_scheduled i) hk)
  · exact Or.inl (keptRow_single rfl (battInitRule_scheduled i) hk)
  · exact Or.inl (keptRow_overSteps i (fun _ => rfl) (battDynamicsRule_scheduled i) hk)
  · exact Or.inl (keptRow_energyCap i hk)

theorem objective_scheduled : i.objective.Within Scheduled := by
  unfold Inputs.objective Inputs.tariffCost
  split <;> simp [Scheduled]

end Rows

/-! ### The repaired assignment -/

section Repair

variable {i : Inputs} {x : OptVar → ℚ}

theorem relaxed_holds (hx : (i.chargingModel.relax keepsConstraint).Feasible x)
    {k : ConstraintName × OptConstraint} (hk : k ∈ i.constraints) (hkeep : keepsConstraint k.1 = true) :
    k.2.Holds x :=
  hx.holds k (List.mem_filter.mpr ⟨hk, hkeep⟩)

theorem relaxed_admits (hx : (i.chargingModel.relax keepsConstraint).Feasible x)
    {v : OptVar × VarDecl} (hv : v ∈ i.vars) : VarDecl.Admits { v.2 with fixed := none } (x v.1) :=
  hx.admits (v.1, { v.2 with fixed := none }) (List.mem_map.mpr ⟨v, hv, rfl⟩)

theorem mem_constraints_of_component {l : List (ConstraintName × OptConstraint)}
    (hl : l ∈ i.components) {k : ConstraintName × OptConstraint} (hk : k ∈ l) : k ∈ i.constraints :=
  List.mem_flatten.mpr ⟨l, hl, hk⟩

theorem power_eq_zero (hx : (i.chargingModel.relax keepsConstraint).Feasible x) {b : VehicleId}
    (hb : b ∈ i.vehicles) {t : ℕ} (ht : t < i.config.nTimesteps) (hoff : i.available b t = false) :
    x (.pCharge b t) = 0 := by
  have hrule : i.availabilityRule b t = some ⟨.var (.pCharge b t), .eq, .constant 0⟩ := by
    rw [Inputs.availabilityRule, hoff]
    rfl
  have hmem : (ConstraintName.availabilityCon b t, _) ∈ i.overBoth .availabilityCon i.availabilityRule :=
    i.mem_overBoth.mpr ⟨b, hb, t, ht, _, hrule, rfl⟩
  have hrow := relaxed_holds hx (mem_constraints_of_component (by simp [Inputs.components]) hmem) rfl
  simpa [Constraint.Holds] using hrow

theorem power_le_maxKw (hx : (i.chargingModel.relax keepsConstraint).Feasible x) {b : VehicleId}
    (hb : b ∈ i.vehicles) {t : ℕ} (ht : t < i.config.nTimesteps) : x (.pCharge b t) ≤ i.maxKw b := by
  have hmem : (OptVar.pCharge b t, _) ∈ i.vars := List.mem_flatten.mpr
    ⟨_, List.mem_cons_self, i.mem_vehicleVars.mpr ⟨b, hb, t, ht, rfl⟩⟩
  exact (relaxed_admits hx hmem).ub

theorem binary_of_relaxed (hx : (i.chargingModel.relax keepsConstraint).Feasible x) {b : VehicleId}
    (hb : b ∈ i.vehicles) {t : ℕ} (ht : t < i.config.nTimesteps) :
    x (.yCharge b t) = 0 ∨ x (.yCharge b t) = 1 := by
  have hmem : (OptVar.yCharge b t, _) ∈ i.vars := List.mem_flatten.mpr
    ⟨i.vehicleVars .yCharge (fun b t => ⟨.binary, none, none, i.fixedOnRoute b t⟩),
      by simp [Inputs.varComponents], i.mem_vehicleVars.mpr ⟨b, hb, t, ht, rfl⟩⟩
  exact (relaxed_admits hx hmem).domain

theorem repairedBinary_binary (hx : (i.chargingModel.relax keepsConstraint).Feasible x)
    {b : VehicleId} (hb : b ∈ i.vehicles) {t : ℕ} (ht : t < i.config.nTimesteps) :
    repairedBinary i x b t = 0 ∨ repairedBinary i x b t = 1 := by
  unfold repairedBinary
  split
  · split
    · exact Or.inr rfl
    · exact binary_of_relaxed hx hb ht
  · exact Or.inl rfl

theorem repair_chargerLink (hx : (i.chargingModel.relax keepsConstraint).Feasible x)
    {k : ConstraintName × OptConstraint} (hk : k ∈ i.overBoth .chargerLink i.chargerLinkRule) :
    k.2.Holds (repair i x) := by
  have hrow := relaxed_holds hx (mem_constraints_of_component (by simp [Inputs.components]) hk)
  obtain ⟨b, hb, t, ht, c, hc, rfl⟩ := i.mem_overBoth.mp hk
  cases hc
  have hlink : x (.pCharge b t) ≤ i.maxKw b * x (.yCharge b t) := by
    simpa [Constraint.Holds] using hrow rfl
  suffices h : x (.pCharge b t) ≤ i.maxKw b * repairedBinary i x b t by
    simpa [Constraint.Holds, repair] using h
  unfold repairedBinary
  by_cases hon : i.available b t = true
  · rw [if_pos hon]
    split
    · rw [mul_one]
      exact power_le_maxKw hx hb ht
    · exact hlink
  · rw [if_neg hon, mul_zero]
    exact le_of_eq (power_eq_zero hx hb ht (Bool.not_eq_true _ ▸ hon))

theorem sum_le_length {ι : Type} (l : List ι) (f : ι → ℚ) (hf : ∀ j ∈ l, f j ≤ 1) :
    (l.map f).sum ≤ (l.length : ℚ) := by
  have h := List.sum_le_card_nsmul (l.map f) 1 (List.forall_mem_map.mpr hf)
  simpa using h

/-- The count constraint: with symmetry breaking there are chargers for all vehicles, and without it
no binary was raised. -/
theorem repair_chargerCount (hx : (i.chargingModel.relax keepsConstraint).Feasible x)
    {k : ConstraintName × OptConstraint} (hk : k ∈ i.overSteps .chargerCount i.chargerCountRule) :
    k.2.Holds (repair i x) := by
  have hrow := relaxed_holds hx (mem_constraints_of_component (by simp [Inputs.components]) hk)
  obtain ⟨t, ht, c, hc, rfl⟩ := i.mem_overSteps.mp hk
  cases hc
  have hcount : (i.vehicles.map fun b => x (.yCharge b t)).sum ≤ (i.totalChargers : ℚ) := by
    simpa [Constraint.Holds, Function.comp_def] using hrow rfl
  suffices h : (i.vehicles.map fun b => repairedBinary i x b t).sum ≤ (i.totalChargers : ℚ) by
    simpa [Constraint.Holds, repair, Function.comp_def] using h
  by_cases hsym : i.breaksSymmetry = true
  · have hroom : (i.vehicles.length : ℚ) ≤ (i.totalChargers : ℚ) := by
      have hle := (Bool.and_eq_true _ _ ▸ hsym : _ ∧ _).2
      have hlen : (i.vehicleList.length : ℤ) ≤ i.totalChargers := of_decide_eq_true hle
      rw [Inputs.vehicleList, List.length_insertionSort] at hlen
      exact_mod_cast hlen
    refine (sum_le_length _ _ ?_).trans hroom
    intro b hb
    rcases repairedBinary_binary hx hb ht with h | h
    · rw [h]
      exact zero_le_one
    · rw [h]
  · refine le_trans (List.sum_le_sum ?_) hcount
    intro b hb
    unfold repairedBinary
    split
    · exact le_refl _
    · rcases binary_of_relaxed hx hb ht with h | h
      · rw [h]
      · rw [h]
        exact zero_le_one

theorem repair_symmetryBreak {k : ConstraintName × OptConstraint} (hk : k ∈ i.symmetryBreak) :
    k.2.Holds (repair i x) := by
  unfold Inputs.symmetryBreak at hk
  split at hk
  next hsym =>
    obtain ⟨iIdx, _, hk⟩ := List.mem_flatMap.mp hk
    obtain ⟨t, _, hk⟩ := List.mem_filterMap.mp hk
    obtain ⟨c, hc, rfl⟩ := Option.map_eq_some_iff.mp hk
    unfold Inputs.symmetryBreakRule at hc
    split at hc
    · split at hc
      next vehicleI vehicleJ _ _ hboth =>
        rw [Bool.and_eq_true] at hboth
        cases hc
        simp [Constraint.Holds, repair, repairedBinary, hboth.1, hboth.2, hsym]
      · cases hc
    · cases hc
  · cases hk

theorem repair_holds (hx : (i.chargingModel.relax keepsConstraint).Feasible x)
    {k : ConstraintName × OptConstraint} (hk : k ∈ i.constraints) : k.2.Holds (repair i x) := by
  rcases kept_or_binary i hk with hkept | hlink | hcount | hsym
  · refine Constraint.holds_congr hkept.within ?_ (relaxed_holds hx hk hkept.keeps)
    intro v hv
    exact (repair_scheduled i x v hv).symm
  · exact repair_chargerLink hx hlink
  · exact repair_chargerCount hx hcount
  · exact repair_symmetryBreak hsym

theorem unfixed_stepVars {name : ℕ → OptVar} {decl : VarDecl} {v : OptVar × VarDecl}
    (hv : v ∈ i.stepVars name decl) (hname : ∀ t, Scheduled (name t)) (hdecl : decl.fixed = none) :
    Scheduled v.1 ∧ v.2.fixed = none := by
  obtain ⟨t, _, rfl⟩ := List.mem_map.mp hv
  exact ⟨hname t, hdecl⟩

theorem charging_or_unfixed {v : OptVar × VarDecl} (hv : v ∈ i.vars) :
    (∃ b ∈ i.vehicles, ∃ t < i.config.nTimesteps,
        v = (.pCharge b t, ⟨.nonNegativeReals, none, some (i.maxKw b), i.fixedOnRoute b t⟩)) ∨
      (∃ b ∈ i.vehicles, ∃ t < i.config.nTimesteps,
        v = (.yCharge b t, ⟨.binary, none, none, i.fixedOnRoute b t⟩)) ∨
      (Scheduled v.1 ∧ v.2.fixed = none) := by
  obtain ⟨component, hcomp, hv⟩ := List.mem_flatten.mp hv
  simp only [Inputs.varComponents, List.mem_cons, List.not_mem_nil, or_false] at hcomp
  rcases hcomp with rfl | rfl | rfl | rfl | rfl | rfl | rfl | rfl | rfl | rfl | rfl | rfl
  · obtain ⟨b, hb, t, ht, rfl⟩ := i.mem_vehicleVars.mp hv
    exact Or.inl ⟨b, hb, t, ht, rfl⟩
  · obtain ⟨b, hb, t, ht, rfl⟩ := i.mem_vehicleVars.mp hv
    exact Or.inr (Or.inr ⟨trivial, rfl⟩)
  · obtain ⟨b, hb, t, ht, rfl⟩ := i.mem_vehicleVars.mp hv
    exact Or.inr (Or.inl ⟨b, hb, t, ht, rfl⟩)
  · exact Or.inr (Or.inr (unfixed_stepVars hv (fun _ => trivial) rfl))
  · cases List.mem_singleton.mp hv
    exact Or.inr (Or.inr ⟨trivial, rfl⟩)
  · exact Or.inr (Or.inr (unfixed_stepVars hv (fun _ => trivial) rfl))
  · exact Or.inr (Or.inr (unfixed_stepVars hv (fun _ => trivial) rfl))
  · exact Or.inr (Or.inr (unfixed_stepVars hv (fun _ => trivial) rfl))
  · exact Or.inr (Or.inr (unfixed_stepVars hv (fun _ => trivial) rfl))
  · exact Or.inr (Or.inr (unfixed_stepVars hv (fun _ => trivial) rfl))
  · exact Or.inr (Or.inr (unfixed_stepVars hv (fun _ => trivial) rfl))
  · split at hv
    · simp only [List.mem_cons, List.not_mem_nil, or_false] at hv
      rcases hv with rfl | rfl | rfl
      · exact Or.inr (Or.inr ⟨trivial, rfl⟩)
      · exact Or.inr (Or.inr ⟨trivial, rfl⟩)
      · exact Or.inr (Or.inr ⟨trivial, rfl⟩)
    · cases hv

theorem fixedOnRoute_of_zero {b : VehicleId} {t : ℕ} {q : ℚ}
    (hq : i.available b t = false → q = 0) : OptionHolds (i.fixedOnRoute b t) (q = ·) := by
  unfold Inputs.fixedOnRoute
  split
  next hroute =>
    obtain ⟨rfl, hoff⟩ := hroute
    exact hq hoff
  · trivial

theorem repair_admits (hx : (i.chargingModel.relax keepsConstraint).Feasible x)
    {v : OptVar × VarDecl} (hv : v ∈ i.vars) : v.2.Admits (repair i x v.1) := by
  have hadm := relaxed_admits hx hv
  rcases charging_or_unfixed hv with ⟨b, hb, t, ht, rfl⟩ | ⟨b, hb, t, ht, rfl⟩ | ⟨hsched, hfree⟩
  · exact ⟨hadm.domain, hadm.lb, hadm.ub, fixedOnRoute_of_zero (power_eq_zero hx hb ht)⟩
  · refine ⟨repairedBinary_binary hx hb ht, trivial, trivial, fixedOnRoute_of_zero ?_⟩
    intro hoff
    show repairedBinary i x b t = 0
    rw [repairedBinary, hoff]
    rfl
  · rw [repair_scheduled i x v.1 hsched]
    refine ⟨hadm.domain, hadm.lb, hadm.ub, ?_⟩
    rw [hfree]
    trivial

/-- **The repair.**  A feasible assignment of the relaxation becomes one of the model by changing the
binaries alone. -/
theorem repair_feasible (hx : (i.chargingModel.relax keepsConstraint).Feasible x) :
    i.chargingModel.Feasible (repair i x) ∧ ∀ v, Scheduled v → repair i x v = x v := by
  refine ⟨⟨?_, ?_⟩, repair_scheduled i x⟩
  · intro v hv
    exact repair_admits hx hv
  · intro k hk
    exact repair_holds hx hk

end Repair

/-! ### What can be scheduled -/

/-- **Speed without loss.**  For every state and configuration the builder accepts, the model and the
model without symmetry breaking and without fixings allow the same values of all variables but the
binaries.  The objective sees no binary, so its attainable values are the same, and so is its minimum. -/
theorem symmetry_breaking_keeps_schedules (state : DepotState) (config : DepotConfig)
    (horizonStart : Option Stamp) (utcNow : ℚ) {m : ChargingModel}
    (hm : buildOptimizationModel state config horizonStart utcNow = .ok m) :
    m.projection Scheduled = (m.relax keepsConstraint).projection Scheduled ∧
      m.objectiveValues = (m.relax keepsConstraint).objectiveValues ∧
      ∀ optimum, IsLeast m.objectiveValues optimum ↔
        IsLeast (m.relax keepsConstraint).objectiveValues optimum := by
  obtain ⟨i, _, rfl⟩ := built_of_ok hm
  have hrepair : ∀ x, (i.chargingModel.relax keepsConstraint).Feasible x →
      ∃ y, i.chargingModel.Feasible y ∧ ∀ v, Scheduled v → y v = x v := by
    intro x hx
    exact ⟨repair i x, repair_feasible hx⟩
  have hvalues := objectiveValues_relax (objective_scheduled i) hrepair
  refine ⟨projection_relax hrepair, hvalues, ?_⟩
  intro optimum
  rw [hvalues]

def twoBusConfig : DepotConfig :=
  { oneBusConfig with
    vehicleCapacities := Dict.ofList [("bus_1", 100), ("bus_2", 100)]
    vehicleMaxChargeKw := Dict.ofList [("bus_1", 50), ("bus_2", 50)]
    chargerGroups := Dict.ofList [(50, 2)] }

def twoBusState : DepotState :=
  { oneBusState (1 / 2) with
    vehicleSocs := Dict.ofList [("bus_1", 1 / 2), ("bus_2", 1 / 2)]
    vehicleAvailability := Dict.ofList [("bus_1", [true, true]), ("bus_2", [false, true])] }

def twoBusModel : ChargingModel :=
  Inputs.chargingModel ⟨twoBusState, twoBusConfig, Dict.empty, requiredPrecondAt []⟩

def secondBusPlan : OptVar → ℚ
  | .pCharge b t => if b = "bus_2" ∧ t = 1 then 40 else 0
  | .soc _ _ => 1 / 2
  | .yCharge b _ => if b = "bus_2" then 1 else 0
  | .pGrid t => if t = 1 then 40 else 0
  | .pPeak => 50
  | .socBatt _ => 1 / 2
  | _ => 0

/-- The chain and the fixing both exclude this plan as it stands, and yet nothing is lost. -/
theorem symmetry_breaking_keeps_second_bus :
    (twoBusModel.relax keepsConstraint).Feasible secondBusPlan ∧ ¬ twoBusModel.Feasible secondBusPlan ∧
      twoBusModel.projection Scheduled = (twoBusModel.relax keepsConstraint).projection Scheduled ∧
      twoBusModel.objectiveValues = (twoBusModel.relax keepsConstraint).objectiveValues := by
  have hm : buildOptimizationModel twoBusState twoBusConfig (some (.naive 0)) 0 = .ok twoBusModel := by
    decide +kernel
  have hkeeps := symmetry_breaking_keeps_schedules twoBusState twoBusConfig (some (.naive 0)) 0 hm
  exact ⟨by decide +kernel, by decide +kernel, hkeeps.1, hkeeps.2.1⟩

end FavoniusBackend.Optimizer.SymmetryBreaking
