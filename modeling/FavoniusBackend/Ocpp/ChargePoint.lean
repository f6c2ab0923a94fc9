import FavoniusBackend.Lib.Numeric
import FavoniusBackend.Lib.StepFunction

/-!
# Charging schedule periods

The conversion utility of the OCPP charge point: an optimizer schedule, a list of
`(timestep, power_kw)` pairs, becomes a list of `ChargingSchedulePeriod`s.  Powers are exact
rationals.  The timestep length is a double in hours, as in the source, and the start of a period is
computed on doubles and truncated.

A charger reads the period list as a step function: a limit is in force from its `startPeriod`
(seconds from the start of the schedule) until the next period's, and the first period of a schedule
starts at second `0`.  `DenotesPlan` is that reading, compared with a plan of one power per timestep.
-/

namespace FavoniusBackend.Ocpp.ChargePoint

open Lib.Numeric Lib.StepFunction

/-- The unit of a period's limit. -/
inductive ChargingRateUnit
  | W
  | A
  deriving DecidableEq, Repr

structure ChargingSchedulePeriod where
  startPeriod : ℤ
  limit : ℚ
  numberPhases : ℕ
  deriving DecidableEq, Repr

/-- The only exception the conversion can raise: a division by `number_phases * voltage = 0`. -/
inductive ConversionError
  | zeroDivision
  deriving DecidableEq, Repr

/-- `timestep * delta_t * 3600`, every product rounded. -/
def startSeconds (deltaT : ℚ) (timestep : ℕ) : ℚ :=
  roundDouble (roundDouble (roundDouble timestep * deltaT) * 3600)

def convertStep (deltaT : ℚ) (numberPhases : ℕ) (chargingRateUnit : ChargingRateUnit)
    (step : ℕ × ℚ) : Except ConversionError ChargingSchedulePeriod :=
  let startPeriod := pyInt (startSeconds deltaT step.1)
  match chargingRateUnit with
  | .A =>
    let voltage : ℚ := 230
    if numberPhases * voltage = 0 then .error .zeroDivision
    else .ok ⟨startPeriod, step.2 * 1000 / (numberPhases * voltage), numberPhases⟩
  | .W => .ok ⟨startPeriod, pyInt (roundDouble (step.2 * 1000)), numberPhases⟩

def convertScheduleToOcppProfile (schedule : List (ℕ × ℚ)) (deltaT : ℚ) (numberPhases : ℕ)
    (chargingRateUnit : ChargingRateUnit) :
    Except ConversionError (List ChargingSchedulePeriod) :=
  schedule.mapM (convertStep deltaT numberPhases chargingRateUnit)

def amperePeriod (deltaT : ℚ) (step : ℕ × ℚ) : ChargingSchedulePeriod :=
  ⟨pyInt (startSeconds deltaT step.1), step.2 * 1000 / (3 * 230), 3⟩

/-- On three phases the conversion to ampere never fails and works step by step. -/
theorem convert_ampere (schedule : List (ℕ × ℚ)) (deltaT : ℚ) :
    convertScheduleToOcppProfile schedule deltaT 3 .A = .ok (schedule.map (amperePeriod deltaT)) := by
  have hstep : ∀ step : ℕ × ℚ, convertStep deltaT 3 .A step = .ok (amperePeriod deltaT step) := by
    intro step
    norm_num [convertStep, amperePeriod]
  induction schedule with
  | nil => rfl
  | cons step rest ih =>
    rw [convertScheduleToOcppProfile] at ih
    rw [convertScheduleToOcppProfile, List.mapM_cons, hstep, ih]
    rfl

/-! ### Reading a period list -/

/-- The power a period of a three-phase schedule in ampere allows, in kW. -/
def denotedKw (p : ChargingSchedulePeriod) : ℚ := p.limit * 3 * 230 / 1000

def breakpoints (ps : List ChargingSchedulePeriod) : List (ℚ × ℚ) :=
  ps.map fun p => ((p.startPeriod : ℚ), denotedKw p)

/-- **What a period list says about a plan.**  The first period starts at `0`, and during timestep `j`
(of `k` seconds) the power in force is the planned `plan[j]`. -/
def DenotesPlan (ps : List ChargingSchedulePeriod) (k : ℚ) (plan : List ℚ) : Prop :=
  ps.head?.map ChargingSchedulePeriod.startPeriod = some 0 ∧
    ∀ (j : ℕ) (hj : j < plan.length) (t : ℚ), (j : ℚ) * k ≤ t → t < ((j + 1 : ℕ) : ℚ) * k →
      inForce (breakpoints ps) t = some (plan.get ⟨j, hj⟩)

theorem denotedKw_amperePeriod (deltaT : ℚ) (step : ℕ × ℚ) :
    denotedKw (amperePeriod deltaT step) = step.2 := by
  simp only [denotedKw, amperePeriod]
  ring

theorem breakpoints_full (deltaT : ℚ) (plan : List ℚ) (i : ℕ) :
    breakpoints ((plan.zipIdx i).map fun q => amperePeriod deltaT (q.2, q.1)) =
      starting (fun n => (pyInt (startSeconds deltaT n) : ℚ)) i plan := by
  induction plan generalizing i with
  | nil => rfl
  | cons p plan ih =>
    have ih' := ih (i + 1)
    simp only [breakpoints] at ih' ⊢
    rw [List.zipIdx_cons, List.map_cons, List.map_cons, starting, denotedKw_amperePeriod, ih']
    rfl

/-! ### Where the periods start -/

/-- With a timestep of `k` seconds, the product of step `i` stays within the second that the step starts at. -/
def OnTime (deltaT : ℚ) (k i : ℕ) : Prop :=
  (i : ℚ) * k ≤ startSeconds deltaT i ∧ startSeconds deltaT i < (i : ℚ) * k + 1

instance (deltaT : ℚ) (k i : ℕ) : Decidable (OnTime deltaT k i) := inferInstanceAs (Decidable (_ ∧ _))

/-- With timesteps of five minutes, step 5 starts at second 1499. -/
example : pyInt (startSeconds (roundDouble (300 / 3600)) 5) = 1499 := by decide +kernel

theorem pyInt_of_nonneg {q : ℚ} (h : 0 ≤ q) : pyInt q = ⌊q⌋ := if_pos h

theorem pyInt_eq_iff_onTime {deltaT : ℚ} {k i : ℕ} (h : 0 ≤ startSeconds deltaT i) :
    (pyInt (startSeconds deltaT i) : ℚ) = (i : ℚ) * k ↔ OnTime deltaT k i := by
  have hcast : ((i * k : ℤ) : ℚ) = (i : ℚ) * k := by
    push_cast
    rfl
  rw [pyInt_of_nonneg h, ← hcast, Int.cast_inj, Int.floor_eq_iff, hcast]
  rfl

theorem OnTime.pyInt_eq {deltaT : ℚ} {k i : ℕ} (h : OnTime deltaT k i) :
    (pyInt (startSeconds deltaT i) : ℚ) = (i : ℚ) * k :=
  (pyInt_eq_iff_onTime (le_trans (by positivity) h.1)).mpr h

theorem startSeconds_zero (deltaT : ℚ) : startSeconds deltaT 0 = 0 := by
  rw [startSeconds, Nat.cast_zero, roundDouble_zero, zero_mul, roundDouble_zero, zero_mul, roundDouble_zero]

/-- **Five roundings.**  The product is off by a fraction of `2 ^ -49` at most. -/
theorem startSeconds_near {deltaT : ℚ} {k : ℕ} (hk : 0 < k) (hdt : deltaT = roundDouble (k / 3600)) {i : ℕ}
    (hi : 0 < i) : |startSeconds deltaT i - i * k| ≤ 1 / 2 ^ 49 * (i * k) := by
  have hkq : (1 : ℚ) ≤ k := by exact_mod_cast hk
  have hiq : (1 : ℚ) ≤ i := by exact_mod_cast hi
  have hprod : (1 : ℚ) ≤ (i : ℚ) * k := one_le_mul_of_one_le_of_one_le hiq hkq
  have hindex := roundDouble_near (x := i) (y := i) (δ := 0) (le_trans (by norm_num) hiq) (by norm_num) (by simp)
  have hlength := roundDouble_near (x := (k : ℚ) / 3600) (y := k / 3600) (δ := 0)
    (by rw [le_div_iff₀ (by norm_num)]; exact le_trans (by norm_num) hkq) (by norm_num) (by simp)
  rw [zero_add] at hindex hlength
  rw [← hdt] at hlength
  have hhours : |roundDouble (i : ℚ) * deltaT - i * (k / 3600)| ≤ 3 / 2 ^ 52 * (i * (k / 3600)) := by
    have hsplit : roundDouble (i : ℚ) * deltaT - i * (k / 3600) =
        (roundDouble i - i) * (deltaT - k / 3600) + (roundDouble i - i) * (k / 3600) + i * (deltaT - k / 3600) := by
      ring
    have hbound := mul_le_mul hindex hlength (abs_nonneg _) (by positivity)
    have hfirst := mul_le_mul_of_nonneg_right hindex (by positivity : (0 : ℚ) ≤ k / 3600)
    have hsecond := mul_le_mul_of_nonneg_left hlength (by positivity : (0 : ℚ) ≤ i)
    have htri := abs_add_three ((roundDouble (i : ℚ) - i) * (deltaT - k / 3600))
      ((roundDouble (i : ℚ) - i) * (k / 3600)) (i * (deltaT - k / 3600))
    rw [abs_mul, abs_mul, abs_mul, abs_of_nonneg (by positivity : (0 : ℚ) ≤ k / 3600),
      abs_of_nonneg (by positivity : (0 : ℚ) ≤ (i : ℚ))] at htri
    rw [hsplit]
    refine htri.trans ?_
    have hy : (0 : ℚ) ≤ i * (k / 3600) := by positivity
    nlinarith
  have hrounded := roundDouble_near (y := (i : ℚ) * (k / 3600))
    (by rw [← mul_div_assoc, le_div_iff₀ (by norm_num)]; exact le_trans (by norm_num) hprod) (by norm_num) hhours
  have hscaled : |roundDouble (roundDouble (i : ℚ) * deltaT) * 3600 - i * k| ≤
      (3 / 2 ^ 52 + 1 / 2 ^ 52) * (i * k) := by
    have heq : roundDouble (roundDouble (i : ℚ) * deltaT) * 3600 - i * k =
        (roundDouble (roundDouble (i : ℚ) * deltaT) - i * (k / 3600)) * 3600 := by
      ring
    rw [heq, abs_mul, abs_of_pos (by norm_num : (0 : ℚ) < 3600)]
    linarith
  have hlast := roundDouble_near (le_trans (by norm_num) hprod) (by norm_num) hscaled
  refine hlast.trans (mul_le_mul_of_nonneg_right (by norm_num) (by positivity))

theorem displaced_starts {deltaT : ℚ} {k : ℕ} (hk : 0 < k) (hdt : deltaT = roundDouble (k / 3600)) {n : ℕ}
    (hn : n ≤ 2 ^ 46) : Displaced k (fun i => (pyInt (startSeconds deltaT i) : ℚ)) n := by
  have hkq : (1 : ℚ) ≤ k := by exact_mod_cast hk
  have hbounds : ∀ i < n, (i : ℚ) * k - k / 8 ≤ startSeconds deltaT i ∧
      startSeconds deltaT i ≤ (i : ℚ) * k + k / 8 ∧ pyInt (startSeconds deltaT i) = ⌊startSeconds deltaT i⌋ := by
    intro i hi
    rcases Nat.eq_zero_or_pos i with rfl | hpos
    · rw [startSeconds_zero]
      refine ⟨?_, ?_, pyInt_of_nonneg le_rfl⟩ <;> push_cast <;> linarith
    · have hin : (i : ℚ) ≤ 2 ^ 46 := by exact_mod_cast (hi.trans_le hn).le
      have hik : (i : ℚ) * k ≤ 2 ^ 46 * k := mul_le_mul_of_nonneg_right hin (by positivity)
      have hone : (1 : ℚ) * k ≤ i * k := mul_le_mul_of_nonneg_right (by exact_mod_cast hpos) (by positivity)
      obtain ⟨hlo, hhi⟩ := abs_le.mp (startSeconds_near hk hdt hpos)
      have herr : 1 / 2 ^ 49 * ((i : ℚ) * k) ≤ k / 8 := by linarith
      exact ⟨by linarith, by linarith, pyInt_of_nonneg (by linarith)⟩
  refine ⟨?_, ?_, ?_, ?_⟩
  · simp only [startSeconds_zero]
    rfl
  · intro i hi
    obtain ⟨-, hhi, hfloor⟩ := hbounds i (by omega)
    obtain ⟨hlo, -, hfloor'⟩ := hbounds (i + 1) hi
    have hle := Int.floor_le (startSeconds deltaT i)
    have hlt := Int.lt_floor_add_one (startSeconds deltaT (i + 1))
    simp only [hfloor, hfloor']
    have hint : ⌊startSeconds deltaT i⌋ < ⌊startSeconds deltaT (i + 1)⌋ + 1 := by
      have hfrac : (⌊startSeconds deltaT i⌋ : ℚ) < ⌊startSeconds deltaT (i + 1)⌋ + 1 := by
        push_cast at hlo
        linarith
      exact_mod_cast hfrac
    exact_mod_cast Int.lt_add_one_iff.mp hint
  · intro i hi
    obtain ⟨hlo, -, hfloor⟩ := hbounds (i + 1) hi
    have hlt := Int.lt_floor_add_one (startSeconds deltaT (i + 1))
    simp only [hfloor]
    have hint : (i * k : ℤ) < ⌊startSeconds deltaT (i + 1)⌋ + 1 := by
      have hfrac : (i : ℚ) * k < ⌊startSeconds deltaT (i + 1)⌋ + 1 := by
        push_cast at hlo
        linarith
      exact_mod_cast hfrac
    exact_mod_cast Int.lt_add_one_iff.mp hint
  · intro i hi
    obtain ⟨-, hhi, hfloor⟩ := hbounds i hi
    simp only [hfloor]
    refine (Int.floor_le _).trans_lt (hhi.trans_lt ?_)
    push_cast
    linarith

end FavoniusBackend.Ocpp.ChargePoint
