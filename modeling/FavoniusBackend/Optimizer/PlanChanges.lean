import FavoniusBackend.Optimizer.ModelRows

/-!
# Changing a plan

A row of the charging model speaks about few variables (`Mentions`, `within_mentions`).  So a feasible
assignment stays feasible when some variables change, provided the new values are admissible and the rows
that mention one of them still hold (`feasible_of_changed`): every other row is untouched.
-/

namespace FavoniusBackend.Optimizer.PlanChanges

open Lib Lib.Milp Optimizer.Models
open Optimizer.MilpModel Optimizer.MilpModel.Inputs
open Optimizer.ModelRows

/-- The variables a row may speak about. -/
def Mentions : ConstraintName → OptVar → Prop
  | .socInitCon _, .soc _ _ => True
  | .incomingVehicleSoc _, .soc _ _ => True
  | .socDynamics _ _, .soc _ _ => True
  | .socDynamics _ _, .pCharge _ _ => True
  | .availabilityCon _ _, .pCharge _ _ => True
  | .departureSocMin _, .soc _ _ => True
  | .departureSocMax _, .soc _ _ => True
  | .chargerLink _ _, .pCharge _ _ => True
  | .chargerLink _ _, .yCharge _ _ => True
  | .chargerCount _, .yCharge _ _ => True
  | .chargerPower _, .pCharge _ _ => True
  | .symmetryBreak _ _, .yCharge _ _ => True
  | .battSplit t, .pBatt s => s = t
  | .battSplit t, .pBattDischarge s => s = t
  | .battSplit t, .pBattCharge s => s = t
  | .precondConstraint t, .pPrecond s => s = t
  | .precondConstraint t, .precondSlack s => s = t
  | .gridBalance t, .pGrid s => s = t
  | .gridBalance _, .pCharge _ _ => True
  | .gridBalance t, .pPrecond s => s = t
  | .gridBalance t, .pBattDischarge s => s = t
  | .gridBalance t, .pBattCharge s => s = t
  | .sitePowerLimit t, .pGrid s => s = t
  | .peakTracking _, .pPeak => True
  | .peakTracking t, .pGrid s => s = t
  | .movingPeak, .pPeak => True
  | .battInit, .socBatt _ => True
  | .battDynamics _, .socBatt _ => True
  | .battDynamics _, .pBatt _ => True
  | .totalKwhDef, .totalKwhPeriod => True
  | .totalKwhDef, .pCharge _ _ => True
  | .kwhSplit, .totalKwhPeriod => True
  | .kwhSplit, .kwhUnder => True
  | .kwhSplit, .kwhOver => True
  | .kwhUnderCap, .kwhUnder => True
  | _, _ => False

variable (i : Inputs)

theorem of_atVehicle {i : Inputs} {b : VehicleId} {row : Option OptConstraint} {c : OptConstraint}
    (h : atVehicle i b row = some c) : row = some c := by
  unfold atVehicle at h
  split at h
  · exact h
  · cases h

theorem of_atStep {i : Inputs} {t : ℕ} {row : Option OptConstraint} {c : OptConstraint}
    (h : atStep i t row = some c) : t < i.config.nTimesteps ∧ row = some c := by
  unfold atStep at h
  split at h
  · rename_i ht
    exact ⟨ht, h⟩
  · cases h

theorem of_underEnergyCap {i : Inputs} {row : Option OptConstraint} {c : OptConstraint}
    (h : underEnergyCap i row = some c) : row = some c := by
  unfold underEnergyCap at h
  split at h
  · exact h
  · cases h

/-- **A row speaks only about the variables it mentions.** -/
theorem within_mentions {name : ConstraintName} {c : OptConstraint} (h : rowOf i name = some c) :
    c.Within (Mentions name) := by
  cases name with
  | socInitCon b =>
    obtain ⟨_, hc⟩ := Option.ite_none_left_eq_some.mp (of_atVehicle h)
    obtain rfl := Option.some.inj hc
    simp [Constraint.Within, Mentions]
  | incomingVehicleSoc b =>
    obtain ⟨arrival, _, rfl⟩ := Option.map_eq_some_iff.mp (of_atVehicle h)
    simp [Constraint.Within, Mentions]
  | socDynamics b t | availabilityCon b t =>
    obtain ⟨_, hc⟩ := Option.ite_none_left_eq_some.mp (of_atStep (of_atVehicle h)).2
    obtain rfl := Option.some.inj hc
    simp [Constraint.Within, Mentions]
  | departureSocMin b =>
    obtain ⟨t, _, rfl⟩ := Option.map_eq_some_iff.mp (of_atVehicle h)
    simp [Constraint.Within, Mentions]
  | departureSocMax b =>
    obtain ⟨t, _, ht⟩ := Option.bind_eq_some_iff.mp (of_atVehicle h)
    obtain ⟨_, hc⟩ := Option.ite_none_right_eq_some.mp ht
    obtain rfl := Option.some.inj hc
    simp [Constraint.Within, Mentions]
  | chargerLink b t =>
    obtain rfl := Option.some.inj (of_atStep (of_atVehicle h)).2
    simp [Constraint.Within, Mentions]
  | symmetryBreak k t =>
    obtain ⟨_, hrow⟩ := Option.ite_none_right_eq_some.mp h
    have hrule := (of_atStep hrow).2
    unfold symmetryBreakRule at hrule
    split at hrule
    · obtain ⟨_, hc⟩ := Option.ite_none_right_eq_some.mp hrule
      obtain rfl := Option.some.inj hc
      simp [Constraint.Within, Mentions]
    · cases hrule
  | chargerCount t | chargerPower t | battSplit t | precondConstraint t | gridBalance t | sitePowerLimit t
  | peakTracking t =>
    obtain rfl := Option.some.inj (of_atStep h).2
    simp [Constraint.Within, Mentions]
  | movingPeak =>
    obtain rfl := Option.some.inj h
    simp [Constraint.Within, Mentions]
  | battInit =>
    obtain ⟨_, hc⟩ := Option.ite_none_right_eq_some.mp h
    obtain rfl := Option.some.inj hc
    simp [Constraint.Within, Mentions]
  | battDynamics t =>
    obtain ⟨_, hrow⟩ := Option.ite_none_left_eq_some.mp (of_atStep h).2
    obtain ⟨_, hc⟩ := Option.ite_none_right_eq_some.mp hrow
    obtain rfl := Option.some.inj hc
    simp [Constraint.Within, Mentions]
  | totalKwhDef =>
    obtain rfl := Option.some.inj (of_underEnergyCap h)
    refine ⟨by simp [Mentions], ?_⟩
    rw [LinExpr.within_add, LinExpr.within_sum]
    refine ⟨by simp, ?_⟩
    intro term hterm
    obtain ⟨b, _, hb⟩ := List.mem_flatMap.mp hterm
    obtain ⟨t, _, rfl⟩ := List.mem_map.mp hb
    trivial
  | kwhSplit | kwhUnderCap =>
    obtain rfl := Option.some.inj (of_underEnergyCap h)
    simp [Constraint.Within, Mentions]

variable {i}

/-- **Frame rule.**  Only the changed variables and the rows that mention one of them have to be checked. -/
theorem feasible_of_changed {x y : OptVar → ℚ} (changed : OptVar → Prop)
    (hx : i.chargingModel.Feasible x) (hsame : ∀ v, ¬ changed v → x v = y v)
    (hadmits : ∀ v d, changed v → declOf i v = some d → d.Admits (y v))
    (hrows : ∀ name c, (∃ v, changed v ∧ Mentions name v) → rowOf i name = some c → c.Holds y) :
    i.chargingModel.Feasible y := by
  refine ⟨?_, ?_⟩
  · intro ⟨v, d⟩ hv
    by_cases hch : changed v
    · exact hadmits v d hch ((mem_vars_iff i v d).mp hv)
    · have hadm := hx.admits (v, d) hv
      rw [hsame v hch] at hadm
      exact hadm
  · intro ⟨name, c⟩ hc
    have hrow := (mem_constraints_iff i name c).mp hc
    by_cases htouched : ∃ v, changed v ∧ Mentions name v
    · exact hrows name c htouched hrow
    · apply Constraint.holds_congr (within_mentions i hrow) _ (hx.holds (name, c) hc)
      intro v hv
      exact hsame v fun hch => htouched ⟨v, hch, hv⟩

theorem holds_rowOf {x : OptVar → ℚ} (hx : i.chargingModel.Feasible x) (name : ConstraintName)
    {c : OptConstraint} (h : rowOf i name = some c) : c.Holds x :=
  hx.holds (name, c) ((mem_constraints_iff i name c).mpr h)

theorem admits_declOf {x : OptVar → ℚ} (hx : i.chargingModel.Feasible x) (v : OptVar) {d : VarDecl}
    (h : declOf i v = some d) : d.Admits (x v) :=
  hx.admits (v, d) ((mem_vars_iff i v d).mpr h)

end FavoniusBackend.Optimizer.PlanChanges
