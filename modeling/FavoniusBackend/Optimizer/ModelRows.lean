import FavoniusBackend.Optimizer.MilpModel

/-!
# The rows of the charging model

Every constraint of the built model has a name with its index, and no two have the same.  `rowOf` gives
the row of a name, `declOf` the declaration of a variable; the model holds exactly these
(`mem_constraints_iff`, `mem_vars_iff`).
-/

namespace FavoniusBackend.Optimizer.ModelRows

open Lib Lib.Milp Optimizer.Models
open Optimizer.MilpModel Optimizer.MilpModel.Inputs

variable (i : Inputs)

def atVehicle (b : VehicleId) (row : Option OptConstraint) : Option OptConstraint :=
  if b ∈ i.vehicles then row else none

def atStep (t : ℕ) (row : Option OptConstraint) : Option OptConstraint :=
  if t < i.config.nTimesteps then row else none

def underEnergyCap (row : Option OptConstraint) : Option OptConstraint :=
  if i.config.tariffType = .energyCap then row else none

def rowOf : ConstraintName → Option OptConstraint
  | .socInitCon b => atVehicle i b (i.socInitRule b)
  | .incomingVehicleSoc b => atVehicle i b (i.incomingVehicleSocRule b)
  | .socDynamics b t => atVehicle i b (atStep i t (i.socDynamicsRule b t))
  | .availabilityCon b t => atVehicle i b (atStep i t (i.availabilityRule b t))
  | .departureSocMin b => atVehicle i b (i.departureSocMinRule b)
  | .departureSocMax b => atVehicle i b (i.departureSocMaxRule b)
  | .chargerLink b t => atVehicle i b (atStep i t (i.chargerLinkRule b t))
  | .chargerCount t => atStep i t (i.chargerCountRule t)
  | .chargerPower t => atStep i t (i.chargerPowerRule t)
  | .symmetryBreak k t =>
    if i.breaksSymmetry = true ∧ k < i.vehicleList.length - 1 then
      atStep i t (i.symmetryBreakRule k t) else none
  | .battSplit t => atStep i t (battSplitRule t)
  | .precondConstraint t => atStep i t (i.precondRule t)
  | .gridBalance t => atStep i t (i.gridBalanceRule t)
  | .sitePowerLimit t => atStep i t (i.sitePowerLimitRule t)
  | .peakTracking t => atStep i t (peakTrackingRule t)
  | .movingPeak => i.movingPeakRule
  | .battInit => i.battInitRule
  | .battDynamics t => atStep i t (i.battDynamicsRule t)
  | .totalKwhDef => underEnergyCap i i.totalKwhRule
  | .kwhSplit => underEnergyCap i kwhSplitRule
  | .kwhUnderCap => underEnergyCap i i.kwhUnderCapRule

def vehicleDecl (b : VehicleId) (t : ℕ) (decl : VarDecl) : Option VarDecl :=
  if b ∈ i.vehicles ∧ t < i.config.nTimesteps then some decl else none

def stepDecl (t : ℕ) (decl : VarDecl) : Option VarDecl :=
  if t < i.config.nTimesteps then some decl else none

def energyCapDecl : Option VarDecl :=
  if i.config.tariffType = .energyCap then some nonNegative else none

/-- The declaration of a variable. -/
def declOf : OptVar → Option VarDecl
  | .pCharge b t =>
    vehicleDecl i b t ⟨.nonNegativeReals, none, some (i.maxKw b), i.fixedOnRoute b t⟩
  | .soc b t => vehicleDecl i b t ⟨.reals, some tighterSocBounds.1, some tighterSocBounds.2, none⟩
  | .yCharge b t => vehicleDecl i b t ⟨.binary, none, none, i.fixedOnRoute b t⟩
  | .pGrid t => stepDecl i t nonNegative
  | .pPeak => some nonNegative
  | .pBatt t => stepDecl i t ⟨.reals, some (-i.battPower), some i.battPower, none⟩
  | .socBatt t => stepDecl i t ⟨.reals, some (1 / 5), some (4 / 5), none⟩
  | .pBattDischarge t => stepDecl i t ⟨.nonNegativeReals, some 0, some i.battPower, none⟩
  | .pBattCharge t => stepDecl i t ⟨.nonNegativeReals, some 0, some i.battPower, none⟩
  | .pPrecond t => stepDecl i t nonNegative
  | .precondSlack t => stepDecl i t nonNegative
  | .totalKwhPeriod => energyCapDecl i
  | .kwhUnder => energyCapDecl i
  | .kwhOver => energyCapDecl i

theorem mem_stepVars {v : ℕ → OptVar} {decl : VarDecl} {k : OptVar × VarDecl} :
    k ∈ i.stepVars v decl ↔ ∃ t < i.config.nTimesteps, (v t, decl) = k := by
  rw [stepVars, List.mem_map]
  simp only [steps, List.mem_range]

theorem mem_symmetryBreak {k : ConstraintName × OptConstraint} :
    k ∈ i.symmetryBreak ↔ i.breaksSymmetry = true ∧ ∃ j < i.vehicleList.length - 1,
      ∃ t < i.config.nTimesteps, ∃ c, i.symmetryBreakRule j t = some c ∧ (.symmetryBreak j t, c) = k := by
  unfold symmetryBreak
  by_cases hb : i.breaksSymmetry = true
  · rw [if_pos hb]
    simp only [List.mem_flatMap, List.mem_filterMap, steps, List.mem_range, Option.map_eq_some_iff, hb,
      true_and]
  · rw [if_neg hb]
    simp [hb]

theorem mem_energyCapConstraints {k : ConstraintName × OptConstraint} :
    k ∈ i.energyCapConstraints ↔ i.config.tariffType = .energyCap ∧
      (k ∈ single .totalKwhDef i.totalKwhRule ∨ k ∈ single .kwhSplit kwhSplitRule ∨
        k ∈ single .kwhUnderCap i.kwhUnderCapRule) := by
  unfold energyCapConstraints
  by_cases hcap : i.config.tariffType = .energyCap
  · rw [if_pos hcap]
    simp only [List.mem_append, hcap, true_and, or_assoc]
  · rw [if_neg hcap]
    simp [hcap]

/-- **The constraints of the model, by name.** -/
theorem mem_constraints_iff (name : ConstraintName) (c : OptConstraint) :
    (name, c) ∈ i.chargingModel.constraints ↔ rowOf i name = some c := by
  show (name, c) ∈ i.components.flatten ↔ _
  cases name with
  | _ =>
    simp [components, mem_overVehicles, mem_overSteps, mem_overBoth, mem_single, mem_symmetryBreak,
      mem_energyCapConstraints, rowOf, atVehicle, atStep, underEnergyCap, and_assoc, and_left_comm]

/-- **The variables of the model.** -/
theorem mem_vars_iff (v : OptVar) (d : VarDecl) :
    (v, d) ∈ i.chargingModel.vars ↔ declOf i v = some d := by
  show (v, d) ∈ i.varComponents.flatten ↔ _
  cases v with
  | pPeak | totalKwhPeriod | kwhUnder | kwhOver =>
    simp [varComponents, mem_vehicleVars, mem_stepVars, declOf, energyCapDecl, @eq_comm _ d]
  | _ => simp [varComponents, mem_vehicleVars, mem_stepVars, declOf, vehicleDecl, stepDecl, and_assoc]

end FavoniusBackend.Optimizer.ModelRows
