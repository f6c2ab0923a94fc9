import FavoniusBackend.Lib.Dict
import FavoniusBackend.Lib.RunLength
import FavoniusBackend.Ocpp.ChargingProfiles

/-!
# The composite schedule

`_calculate_composite_schedule`: the profiles, highest stack level first, are painted on slots of one minute, and the
slots are compressed to periods.

A period is painted on the minute on which it starts and on no other, although it is in force until the next period of
its profile.  So at a minute the composite schedule has the limit of the period that starts there in the highest profile
with one, and 0 where none starts; that is the limit in force if and only if the two agree (`follows_iff`).
-/

namespace FavoniusBackend.Ocpp.Composite

open Lib Ocpp.ChargingProfiles

abbrev Curve := List (List (String × ℚ))

structure SchedulePeriod extends ChargingSchedulePeriod where
  setpointReactive : Option ℚ := none
  operationMode : Option String := none
  v2xFreqWattCurve : Option Curve := none
  v2xSignalWattCurve : Option Curve := none
  v2xBaseline : Option ℚ := none
  deriving DecidableEq, Repr

structure StackedProfile where
  stackLevel : ℤ
  chargingProfilePurpose : ChargingProfilePurpose
  chargingSchedulePeriod : List SchedulePeriod
  deriving DecidableEq, Repr

/-! ## Slots -/

structure SlotData where
  chargeLimit : ℚ := 0
  dischargeLimit : Option ℚ := some 0
  setpoint : Option ℚ := none
  setpointReactive : Option ℚ := none
  operationMode : Option String := none
  v2xFreqWattCurve : Option Curve := none
  v2xSignalWattCurve : Option Curve := none
  v2xBaseline : Option ℚ := none
  source : Option ℤ := none
  priority : ℤ := 0
  deriving DecidableEq, Repr

def getProfilePriority (profile : StackedProfile) : ℤ :=
  match profile.chargingProfilePurpose with
  | .chargingStationExternalConstraints => 100
  | .chargingStationMaxProfile => 90
  | .priorityCharging => 80
  | .txProfile => 70
  | .txDefaultProfile => 60
  | .localGeneration => 50

def shouldOverrideSlotV2g (profile : StackedProfile) (slotData : SlotData) : Bool :=
  match slotData.source with
  | none => true
  | some source =>
    if source < profile.stackLevel then true
    else if profile.stackLevel = source then
      match profile.chargingProfilePurpose with
      | .priorityCharging => true
      | .localGeneration => false
      | .chargingStationExternalConstraints => decide (slotData.priority < getProfilePriority profile)
      | _ => false
    else false

def fill (profile : StackedProfile) (period : SchedulePeriod) : SlotData where
  chargeLimit := period.limit
  dischargeLimit := period.dischargingLimit
  setpoint := period.setpoint
  setpointReactive := period.setpointReactive
  operationMode := period.operationMode
  v2xFreqWattCurve := period.v2xFreqWattCurve
  v2xSignalWattCurve := period.v2xSignalWattCurve
  v2xBaseline := period.v2xBaseline
  source := some profile.stackLevel
  priority := getProfilePriority profile

/-- `range(start, stop, 60)`. -/
def minutes (start stop : ℤ) : List ℤ :=
  (List.range ((stop - start + 59) / 60).toNat).map fun i : ℕ => start + 60 * (i : ℤ)

/-- `if slot in time_slots`, and the profile overrides it. -/
def applyToSlot (profile : StackedProfile) (period : SchedulePeriod) (timeSlots : Dict ℤ SlotData) (slot : ℤ) :
    Dict ℤ SlotData :=
  match timeSlots.get? slot with
  | none => timeSlots
  | some slotData =>
    if shouldOverrideSlotV2g profile slotData then timeSlots.set slot (fill profile period) else timeSlots

def applyPeriod (profile : StackedProfile) (duration : ℤ) (timeSlots : Dict ℤ SlotData) (period : SchedulePeriod) :
    Dict ℤ SlotData :=
  let endTime := min (period.startPeriod + 60) duration
  (minutes period.startPeriod endTime).foldl (applyToSlot profile period) timeSlots

def applyProfileToSlotsV2g (duration : ℤ) (timeSlots : Dict ℤ SlotData) (profile : StackedProfile) :
    Dict ℤ SlotData :=
  profile.chargingSchedulePeriod.foldl (applyPeriod profile duration) timeSlots

/-! ## Periods -/

structure CompositePeriod where
  startPeriod : ℤ
  limit : ℚ
  numberPhases : ℕ := 3
  dischargingLimit : Option ℚ
  setpoint : Option ℚ
  setpointReactive : Option ℚ
  operationMode : Option String
  v2xFreqWattCurve : Option Curve
  v2xSignalWattCurve : Option Curve
  v2xBaseline : Option ℚ
  deriving DecidableEq, Repr

/-- `_create_period_from_slot_data`; a field that is `None` is left out. -/
def createPeriodFromSlotData (startPeriod : ℤ) (slotData : SlotData) : CompositePeriod where
  startPeriod := startPeriod
  limit := slotData.chargeLimit
  dischargingLimit := slotData.dischargeLimit
  setpoint := slotData.setpoint
  setpointReactive := slotData.setpointReactive
  operationMode := slotData.operationMode
  v2xFreqWattCurve := slotData.v2xFreqWattCurve
  v2xSignalWattCurve := slotData.v2xSignalWattCurve
  v2xBaseline := slotData.v2xBaseline

def stateKey (slotData : SlotData) : ℚ × Option ℚ × Option ℚ × Option String :=
  (slotData.chargeLimit, slotData.dischargeLimit, slotData.setpoint, slotData.operationMode)

structure CompositeSchedule where
  duration : ℤ
  chargingRateUnit : String
  chargingSchedulePeriod : List CompositePeriod
  deriving DecidableEq, Repr

/-- `sorted(profiles, key=.., reverse=True)`. -/
def sortedProfiles (profiles : List StackedProfile) : List StackedProfile :=
  profiles.insertionSort fun p p' => p'.stackLevel ≤ p.stackLevel

def paintedSlots (profiles : List StackedProfile) (duration : ℤ) : Dict ℤ SlotData :=
  (sortedProfiles profiles).foldl (applyProfileToSlotsV2g duration)
    (Dict.ofList ((minutes 0 duration).map fun i => (i, {})))

def sortedSlots (timeSlots : Dict ℤ SlotData) : List (ℤ × SlotData) :=
  (timeSlots.keys.insertionSort (· ≤ ·)).filterMap fun slot => (timeSlots.get? slot).map fun slotData => (slot, slotData)

def calculateCompositeSchedule (profiles : List StackedProfile) (duration : ℤ) (chargingRateUnit : Option String) :
    CompositeSchedule where
  duration := duration
  chargingRateUnit := (chargingRateUnit.filter fun unit => unit ≠ "").getD "W"
  chargingSchedulePeriod :=
    (RunLength.runs stateKey none (sortedSlots (paintedSlots profiles duration))).map fun slot =>
      createPeriodFromSlotData slot.1 slot.2

/-! ## What the schedule should follow -/

def CompositeSchedule.limitAt (schedule : CompositeSchedule) (t : ℚ) : Option ℚ :=
  StepFunction.inForce (schedule.chargingSchedulePeriod.map fun p => ((p.startPeriod : ℚ), p.limit)) t

def StackedProfile.inForce (profile : StackedProfile) (t : ℚ) : Option SchedulePeriod :=
  StepFunction.inForce (profile.chargingSchedulePeriod.map fun q => ((q.startPeriod : ℚ), q)) t

def IsMinute (duration m : ℤ) : Prop := 0 ≤ m ∧ m < duration ∧ 60 ∣ m

/-- The limit in force at a minute in the highest profile that has started. -/
def InForceInHighest (profiles : List StackedProfile) (m : ℤ) (limit : ℚ) : Prop :=
  ∃ p ∈ profiles, ∃ q, p.inForce m = some q ∧ q.limit = limit ∧
    ∀ p' ∈ profiles, (p'.inForce m).isSome → p'.stackLevel ≤ p.stackLevel

def Follows (profiles : List StackedProfile) (duration : ℤ) (schedule : CompositeSchedule) : Prop :=
  ∀ m limit, IsMinute duration m → InForceInHighest profiles m limit → schedule.limitAt m = some limit

def StackedProfile.startingAt (profile : StackedProfile) (m : ℤ) : Option SchedulePeriod :=
  let starting := profile.chargingSchedulePeriod.filter fun q => q.startPeriod = m
  if profile.chargingProfilePurpose = .priorityCharging then starting.getLast? else starting.head?

/-- The limit of the period that starts at a minute in the highest profile with one, or 0 where none starts. -/
def StartsInHighest (profiles : List StackedProfile) (m : ℤ) (limit : ℚ) : Prop :=
  (∃ p ∈ profiles, ∃ q, p.startingAt m = some q ∧ q.limit = limit ∧
    ∀ p' ∈ profiles, (p'.startingAt m).isSome → p'.stackLevel ≤ p.stackLevel) ∨
  (∀ p ∈ profiles, p.startingAt m = none) ∧ limit = 0

/-! ## Painting one slot -/

theorem mem_minutes {duration m : ℤ} : m ∈ minutes 0 duration ↔ IsMinute duration m := by
  rw [minutes, List.mem_map]
  constructor
  · intro h
    obtain ⟨i, hi, rfl⟩ := h
    rw [List.mem_range] at hi
    refine ⟨?_, ?_, ?_⟩ <;> omega
  · intro h
    obtain ⟨hpos, hlt, k, rfl⟩ := h
    exact ⟨k.toNat, List.mem_range.mpr (by omega), by omega⟩

theorem minutes_nodup (duration : ℤ) : (minutes 0 duration).Nodup := by
  refine List.nodup_range.map ?_
  intro i j hij
  dsimp only at hij
  omega

theorem minutes_period (start duration : ℤ) :
    minutes start (min (start + 60) duration) = if start < duration then [start] else [] := by
  rw [minutes]
  split
  · have hone : ((min (start + 60) duration - start + 59) / 60).toNat = 1 := by omega
    rw [hone]
    simp
  · have hnone : ((min (start + 60) duration - start + 59) / 60).toNat = 0 := by omega
    rw [hnone]
    simp

/-- A period and a slot at `m`. -/
def paint (profile : StackedProfile) (duration m : ℤ) (slotData : SlotData) (period : SchedulePeriod) : SlotData :=
  if period.startPeriod = m ∧ m < duration ∧ shouldOverrideSlotV2g profile slotData then fill profile period
  else slotData

/-- A profile and a slot at `m`. -/
def paintProfile (duration m : ℤ) (slotData : SlotData) (profile : StackedProfile) : SlotData :=
  profile.chargingSchedulePeriod.foldl (paint profile duration m) slotData

theorem get?_applyToSlot (profile : StackedProfile) (period : SchedulePeriod) (timeSlots : Dict ℤ SlotData)
    (slot m : ℤ) :
    (applyToSlot profile period timeSlots slot).get? m =
      (timeSlots.get? m).map fun d => if slot = m ∧ shouldOverrideSlotV2g profile d then fill profile period else d := by
  rw [applyToSlot]
  by_cases hm : slot = m
  · subst hm
    cases hget : timeSlots.get? slot with
    | none => simp [hget]
    | some d =>
      by_cases hoverride : shouldOverrideSlotV2g profile d
      · simp [hoverride]
      · simp [hoverride, hget]
  · simp only [hm, false_and, if_false, Option.map_id']
    cases timeSlots.get? slot with
    | none => rfl
    | some d =>
      dsimp only
      split
      · exact Dict.get?_set_ne _ _ (Ne.symm hm)
      · rfl

theorem get?_applyPeriod (profile : StackedProfile) (duration : ℤ) (timeSlots : Dict ℤ SlotData)
    (period : SchedulePeriod) (m : ℤ) :
    (applyPeriod profile duration timeSlots period).get? m =
      (timeSlots.get? m).map fun d => paint profile duration m d period := by
  rw [applyPeriod, minutes_period]
  split
  · rename_i hstart
    rw [List.foldl_cons, List.foldl_nil, get?_applyToSlot]
    congr 1
    funext d
    have hpaint : (period.startPeriod = m ∧ shouldOverrideSlotV2g profile d = true) ↔
        (period.startPeriod = m ∧ m < duration ∧ shouldOverrideSlotV2g profile d = true) :=
      and_congr_right fun h => (and_iff_right (h ▸ hstart)).symm
    exact if_congr hpaint rfl rfl
  · rename_i hstart
    rw [List.foldl_nil]
    have hsame : ∀ d, paint profile duration m d period = d := by
      intro d
      rw [paint, if_neg]
      intro h
      obtain ⟨rfl, hlt, -⟩ := h
      exact hstart hlt
    simp only [hsame, Option.map_id']

theorem get?_applyProfile (duration : ℤ) (timeSlots : Dict ℤ SlotData) (profile : StackedProfile) (m : ℤ) :
    (applyProfileToSlotsV2g duration timeSlots profile).get? m =
      (timeSlots.get? m).map fun d => paintProfile duration m d profile := by
  unfold applyProfileToSlotsV2g paintProfile
  induction profile.chargingSchedulePeriod generalizing timeSlots with
  | nil => simp
  | cons period periods ih =>
    rw [List.foldl_cons, ih, get?_applyPeriod, Option.map_map]
    rfl

theorem get?_foldl_applyProfile (duration : ℤ) (profiles : List StackedProfile) (timeSlots : Dict ℤ SlotData) (m : ℤ) :
    (profiles.foldl (applyProfileToSlotsV2g duration) timeSlots).get? m =
      (timeSlots.get? m).map fun d => profiles.foldl (paintProfile duration m) d := by
  induction profiles generalizing timeSlots with
  | nil => simp
  | cons profile profiles ih =>
    rw [List.foldl_cons, ih, get?_applyProfile, Option.map_map]
    rfl

theorem get?_paintedSlots (profiles : List StackedProfile) (duration m : ℤ) {d : SlotData} :
    (paintedSlots profiles duration).get? m = some d ↔
      IsMinute duration m ∧ (sortedProfiles profiles).foldl (paintProfile duration m) {} = d := by
  have hkeys : (((minutes 0 duration).map fun i => (i, ({} : SlotData))).map Prod.fst).Nodup := by
    have hkeys : ((minutes 0 duration).map fun i => (i, ({} : SlotData))).map Prod.fst = minutes 0 duration := by
      rw [List.map_map]
      exact List.map_id _
    rw [hkeys]
    exact minutes_nodup duration
  rw [paintedSlots, get?_foldl_applyProfile, Option.map_eq_some_iff]
  simp only [Dict.get?_ofList_of_nodup hkeys, List.mem_map, Prod.mk.injEq, mem_minutes]
  constructor
  · intro h
    obtain ⟨-, ⟨i, hi, rfl, rfl⟩, hd⟩ := h
    exact ⟨hi, hd⟩
  · intro h
    exact ⟨{}, ⟨m, h.1, rfl, rfl⟩, h.2⟩

/-! ## What the profiles leave in a slot -/

section Slot

variable {duration m : ℤ} {profile : StackedProfile} {slotData : SlotData}

theorem shouldOverride_fill (profile : StackedProfile) (period : SchedulePeriod) :
    shouldOverrideSlotV2g profile (fill profile period) =
      decide (profile.chargingProfilePurpose = .priorityCharging) := by
  unfold shouldOverrideSlotV2g fill
  dsimp only
  rw [if_neg (lt_irrefl _), if_pos rfl]
  cases profile.chargingProfilePurpose <;> simp

theorem paintProfile_of_lower (hm : m < duration) (hlower : ∀ source ∈ slotData.source, source < profile.stackLevel) :
    paintProfile duration m slotData profile = ((profile.startingAt m).map (fill profile)).getD slotData := by
  have hfresh : shouldOverrideSlotV2g profile slotData = true := by
    unfold shouldOverrideSlotV2g
    split
    · rfl
    · rename_i source hsource
      rw [if_pos (hlower source hsource)]
  have hfilter : paintProfile duration m slotData profile =
      (profile.chargingSchedulePeriod.filter fun q => q.startPeriod = m).foldl
        (fun d q => if shouldOverrideSlotV2g profile d then fill profile q else d) slotData := by
    rw [paintProfile, List.foldl_filter]
    congr 1
    funext d q
    rw [paint]
    by_cases hq : q.startPeriod = m <;> simp [hq, hm]
  rw [hfilter, StackedProfile.startingAt]
  cases profile.chargingSchedulePeriod.filter fun q => decide (q.startPeriod = m) with
  | nil => simp
  | cons q qs =>
    rw [List.foldl_cons, if_pos hfresh]
    by_cases hpriority : profile.chargingProfilePurpose = .priorityCharging
    · -- each period overrides the one before it
      rw [if_pos hpriority]
      clear hfresh hlower hfilter
      induction qs generalizing q with
      | nil => rfl
      | cons q' qs ih =>
        rw [List.foldl_cons, if_pos (by rw [shouldOverride_fill]; simpa using hpriority), ih,
          List.getLast?_cons_cons]
    · rw [if_neg hpriority]
      clear hfresh hlower hfilter
      induction qs with
      | nil => rfl
      | cons q' qs ih =>
        have hkeep : ¬ shouldOverrideSlotV2g profile (fill profile q) = true := by
          rw [shouldOverride_fill]
          simpa using hpriority
        rw [List.foldl_cons, if_neg hkeep]
        exact ih

theorem paintProfile_of_higher {source : ℤ} (hsource : slotData.source = some source)
    (hhigher : profile.stackLevel < source) : paintProfile duration m slotData profile = slotData := by
  have hkeep : shouldOverrideSlotV2g profile slotData = false := by
    unfold shouldOverrideSlotV2g
    rw [hsource]
    dsimp only
    rw [if_neg (by omega), if_neg (by omega)]
  unfold paintProfile
  induction profile.chargingSchedulePeriod with
  | nil => rfl
  | cons q qs ih =>
    rw [List.foldl_cons, paint, if_neg (by simp [hkeep])]
    exact ih

theorem foldl_paintProfile_of_higher {source : ℤ} (hsource : slotData.source = some source)
    {profiles : List StackedProfile} (hhigher : ∀ p ∈ profiles, p.stackLevel < source) :
    profiles.foldl (paintProfile duration m) slotData = slotData := by
  induction profiles with
  | nil => rfl
  | cons p profiles ih =>
    rw [List.foldl_cons, paintProfile_of_higher hsource (hhigher p List.mem_cons_self)]
    exact ih fun p' hp' => hhigher p' (List.mem_cons_of_mem _ hp')

theorem foldl_paintProfile {profiles : List StackedProfile}
    (hsorted : profiles.Pairwise fun p p' => p'.stackLevel < p.stackLevel) (hm : m < duration)
    (hsource : slotData.source = none) :
    profiles.foldl (paintProfile duration m) slotData =
      (profiles.findSome? fun p => (p.startingAt m).map (fill p)).getD slotData := by
  induction profiles with
  | nil => rfl
  | cons p profiles ih =>
    obtain ⟨hhighest, hsorted⟩ := List.pairwise_cons.mp hsorted
    rw [List.foldl_cons, paintProfile_of_lower hm (by simp [hsource]), List.findSome?_cons]
    cases p.startingAt m with
    | none => exact ih hsorted
    | some q =>
      show profiles.foldl (paintProfile duration m) (fill p q) = fill p q
      exact foldl_paintProfile_of_higher rfl hhighest

end Slot

/-! ## The order of the profiles -/

def DistinctLevels (profiles : List StackedProfile) : Prop := (profiles.map StackedProfile.stackLevel).Nodup

instance (profiles : List StackedProfile) : Decidable (DistinctLevels profiles) :=
  inferInstanceAs (Decidable (List.Nodup _))

theorem sortedProfiles_perm (profiles : List StackedProfile) : (sortedProfiles profiles).Perm profiles :=
  List.perm_insertionSort _ _

theorem sortedProfiles_pairwise {profiles : List StackedProfile} (h : DistinctLevels profiles) :
    (sortedProfiles profiles).Pairwise fun p p' => p'.stackLevel < p.stackLevel := by
  have htotal : Std.Total fun p p' : StackedProfile => p'.stackLevel ≤ p.stackLevel :=
    ⟨fun p p' => le_total p'.stackLevel p.stackLevel⟩
  have htrans : IsTrans StackedProfile fun p p' => p'.stackLevel ≤ p.stackLevel := ⟨fun _ _ _ h h' => h'.trans h⟩
  have hsorted : (sortedProfiles profiles).Pairwise fun p p' => p'.stackLevel ≤ p.stackLevel :=
    List.pairwise_insertionSort _ _
  have hnodup : ((sortedProfiles profiles).map StackedProfile.stackLevel).Nodup :=
    ((sortedProfiles_perm profiles).map _).nodup_iff.mpr h
  exact (hsorted.and (List.pairwise_map.mp hnodup)).imp fun h => lt_of_le_of_ne h.1 (Ne.symm h.2)

theorem sortedProfiles_eq_of_perm {profiles profiles' : List StackedProfile} (h : DistinctLevels profiles)
    (hperm : profiles.Perm profiles') : sortedProfiles profiles = sortedProfiles profiles' := by
  have h' : DistinctLevels profiles' := (hperm.map _).nodup_iff.mp h
  have hsame : (sortedProfiles profiles).Perm (sortedProfiles profiles') :=
    (sortedProfiles_perm profiles).trans (hperm.trans (sortedProfiles_perm profiles').symm)
  refine hsame.eq_of_pairwise ?_ (sortedProfiles_pairwise h) (sortedProfiles_pairwise h')
  intro p p' _ _ hlt hlt'
  omega

/-! ## The schedule -/

theorem sortedSlots_pairwise (timeSlots : Dict ℤ SlotData) :
    ((sortedSlots timeSlots).map (Prod.map (Int.cast : ℤ → ℚ) id)).Pairwise fun a b => a.1 < b.1 := by
  have hsorted : (timeSlots.keys.insertionSort (· ≤ ·)).Pairwise (· ≤ ·) := List.pairwise_insertionSort _ _
  have hnodup : (timeSlots.keys.insertionSort (· ≤ ·)).Nodup :=
    (List.perm_insertionSort _ _).nodup_iff.mpr timeSlots.nodup_keys
  have hstrict : (timeSlots.keys.insertionSort (· ≤ ·)).Pairwise (· < ·) :=
    (hsorted.and hnodup).imp fun h => lt_of_le_of_ne h.1 h.2
  rw [List.pairwise_map, sortedSlots, List.pairwise_filterMap]
  refine hstrict.imp ?_
  intro slot slot' hlt a ha a' ha'
  obtain ⟨d, -, rfl⟩ := Option.map_eq_some_iff.mp ha
  obtain ⟨d', -, rfl⟩ := Option.map_eq_some_iff.mp ha'
  exact Int.cast_lt.mpr hlt

theorem mem_sortedSlots {timeSlots : Dict ℤ SlotData} {slot : ℤ} {d : SlotData} (h : timeSlots.get? slot = some d) :
    (slot, d) ∈ sortedSlots timeSlots := by
  rw [sortedSlots, List.mem_filterMap]
  refine ⟨slot, ?_, by rw [h]; rfl⟩
  rw [List.mem_insertionSort]
  exact Dict.mem_of_get? h

theorem limitAt_eq {profiles : List StackedProfile} {duration m : ℤ} (unit : Option String) {d : SlotData}
    (h : (paintedSlots profiles duration).get? m = some d) :
    (calculateCompositeSchedule profiles duration unit).limitAt m = some d.chargeLimit := by
  let samples := sortedSlots (paintedSlots profiles duration)
  have hmem : ((m : ℚ), d) ∈ samples.map (Prod.map (Int.cast : ℤ → ℚ) id) :=
    List.mem_map.mpr ⟨(m, d), mem_sortedSlots h, rfl⟩
  obtain ⟨v, hv, hkey⟩ := RunLength.inForce_runs stateKey (sortedSlots_pairwise (paintedSlots profiles duration)) hmem
  have hperiods : ((calculateCompositeSchedule profiles duration unit).chargingSchedulePeriod.map fun p =>
      ((p.startPeriod : ℚ), p.limit)) =
        (RunLength.runs stateKey none (samples.map (Prod.map (Int.cast : ℤ → ℚ) id))).map
          (Prod.map id SlotData.chargeLimit) := by
    rw [show (none : Option (ℚ × SlotData)) = Option.map (Prod.map (Int.cast : ℤ → ℚ) id) none from rfl,
      RunLength.runs_map, calculateCompositeSchedule, List.map_map, List.map_map]
    rfl
  rw [CompositeSchedule.limitAt, hperiods, StepFunction.inForce_map, hv, Option.map_some]
  exact congrArg some (Prod.mk.inj hkey).1

theorem limitAt_iff {profiles : List StackedProfile} (hlevels : DistinctLevels profiles) {duration m : ℤ}
    (unit : Option String) (hm : IsMinute duration m) {limit : ℚ} :
    (calculateCompositeSchedule profiles duration unit).limitAt m = some limit ↔
      StartsInHighest profiles m limit := by
  have hslot := (get?_paintedSlots profiles duration m).mpr ⟨hm, rfl⟩
  have hsorted := sortedProfiles_pairwise hlevels
  have hmem : ∀ {p}, p ∈ sortedProfiles profiles ↔ p ∈ profiles := (sortedProfiles_perm profiles).mem_iff
  rw [limitAt_eq unit hslot, foldl_paintProfile hsorted hm.2.1 rfl, Option.some_inj]
  cases hfirst : (sortedProfiles profiles).findSome? fun p => (p.startingAt m).map (fill p) with
  | none =>
    have hnone : ∀ p ∈ profiles, p.startingAt m = none := by
      intro p hp
      simpa using List.findSome?_eq_none_iff.mp hfirst p (hmem.mpr hp)
    constructor
    · exact fun hlimit => .inr ⟨hnone, hlimit.symm⟩
    · intro hstarts
      obtain ⟨p, hp, q, hq, -⟩ | ⟨-, rfl⟩ := hstarts
      · rw [hnone p hp] at hq
        cases hq
      · rfl
  | some d =>
    obtain ⟨before, p, after, hsplit, hd, hbefore⟩ := List.findSome?_eq_some_iff.mp hfirst
    obtain ⟨q, hq, rfl⟩ := Option.map_eq_some_iff.mp hd
    have hp : p ∈ profiles := hmem.mp (by rw [hsplit]; simp)
    have hhighest : ∀ p' ∈ profiles, (p'.startingAt m).isSome → p'.stackLevel ≤ p.stackLevel := by
      intro p' hp' hstarts
      have hp' := hmem.mpr hp'
      rw [hsplit, List.mem_append, List.mem_cons] at hp'
      obtain hin | rfl | hin := hp'
      · have := hbefore p' hin
        simp only [Option.map_eq_none_iff] at this
        rw [this] at hstarts
        cases hstarts
      · exact le_rfl
      · rw [hsplit] at hsorted
        exact ((List.pairwise_cons.mp (List.pairwise_append.mp hsorted).2.1).1 p' hin).le
    constructor
    · exact fun hlimit => .inl ⟨p, hp, q, hq, hlimit, hhighest⟩
    · intro hstarts
      obtain ⟨p', hp', q', hq', rfl, hhighest'⟩ | ⟨hnone, -⟩ := hstarts
      · have hlevel : p.stackLevel = p'.stackLevel :=
          le_antisymm (hhighest' p hp (by rw [hq]; rfl)) (hhighest p' hp' (by rw [hq']; rfl))
        obtain rfl := List.inj_on_of_nodup_map hlevels hp hp' hlevel
        rw [hq] at hq'
        rw [← Option.some.inj hq']
        rfl
      · rw [hnone p hp] at hq
        cases hq

/-- **What the composite schedule shows.**  It has at every minute the limit in force in the highest profile that has
started if and only if that is, at each of them, the limit of the period that starts at the minute in the highest profile
with one, or 0 where none starts; and it is the same for every order of the profiles. -/
theorem follows_iff (profiles : List StackedProfile) (duration : ℤ) (unit : Option String)
    (hlevels : DistinctLevels profiles) :
    (Follows profiles duration (calculateCompositeSchedule profiles duration unit) ↔
      ∀ m limit, IsMinute duration m → InForceInHighest profiles m limit → StartsInHighest profiles m limit) ∧
    ∀ profiles', profiles.Perm profiles' →
      calculateCompositeSchedule profiles' duration unit = calculateCompositeSchedule profiles duration unit := by
  constructor
  · exact forall₂_congr fun m limit => forall₂_congr fun hm _ => limitAt_iff hlevels unit hm
  · intro profiles' hperm
    rw [calculateCompositeSchedule, calculateCompositeSchedule, paintedSlots, paintedSlots,
      sortedProfiles_eq_of_perm hlevels hperm]

/-- A limit of 11 kW, after a minute of 7 kW. -/
def steppingDown : StackedProfile :=
  { stackLevel := 0
    chargingProfilePurpose := .txDefaultProfile
    chargingSchedulePeriod := [{ startPeriod := 0, limit := 11000 }, { startPeriod := 60, limit := 7000 }] }

/-- A limit of 4 kW above it, after two minutes. -/
def tighterLater : StackedProfile :=
  { stackLevel := 1
    chargingProfilePurpose := .txProfile
    chargingSchedulePeriod := [{ startPeriod := 120, limit := 4000 }] }

/-- A period starts at each of the three minutes. -/
theorem follows_three_minutes :
    Follows [steppingDown, tighterLater] 180
        (calculateCompositeSchedule [steppingDown, tighterLater] 180 none) ∧
      calculateCompositeSchedule [tighterLater, steppingDown] 180 none =
        calculateCompositeSchedule [steppingDown, tighterLater] 180 none := by
  obtain ⟨hfollows, horder⟩ := follows_iff [steppingDown, tighterLater] 180 none (by decide)
  refine ⟨hfollows.mpr ?_, horder _ (List.Perm.swap _ _ _)⟩
  rintro m limit ⟨hlo, hhi, hminute⟩ ⟨p, hp, q, hq, rfl, hhighest⟩
  -- at each minute, the highest period in force is the one that starts there
  have hstarts : p.startingAt m = some q ∧
      ∀ p' ∈ [steppingDown, tighterLater], (p'.startingAt m).isSome → p'.stackLevel ≤ p.stackLevel := by
    have hm : m = 0 ∨ m = 60 ∨ m = 120 := by omega
    have hcases : p = steppingDown ∨ p = tighterLater := by simpa using hp
    have hbelow : (tighterLater.inForce m).isSome → 1 ≤ p.stackLevel := hhighest tighterLater (by simp)
    rcases hcases with rfl | rfl <;> rcases hm with rfl | rfl | rfl
    · exact ⟨hq.symm ▸ (by decide +kernel), by decide +kernel⟩
    · exact ⟨hq.symm ▸ (by decide +kernel), by decide +kernel⟩
    · exact absurd (hbelow (by decide +kernel)) (by decide)
    · exact absurd (Option.isSome_iff_exists.mpr ⟨q, hq⟩) (by decide +kernel)
    · exact absurd (Option.isSome_iff_exists.mpr ⟨q, hq⟩) (by decide +kernel)
    · exact ⟨hq.symm ▸ (by decide +kernel), by decide +kernel⟩
  exact .inl ⟨p, hp, q, hstarts.1, rfl, hstarts.2⟩

structure IsValid (profile : StackedProfile) : Prop where
  valid : validateProfile []
    { id := 1
      stackLevel := profile.stackLevel
      chargingProfilePurpose := profile.chargingProfilePurpose
      chargingSchedulePeriod :=
        profile.chargingSchedulePeriod.map SchedulePeriod.toChargingSchedulePeriod } = .ok ()
  sorted : profile.chargingSchedulePeriod.Pairwise fun q q' => q.startPeriod ≤ q'.startPeriod

def fromTheStart : StackedProfile :=
  { stackLevel := 0
    chargingProfilePurpose := .txDefaultProfile
    chargingSchedulePeriod := [{ startPeriod := 0, limit := 11000 }] }

/-- From the second minute on, the limit is 0. -/
theorem second_minute_not_painted :
    ¬ ∀ profiles duration unit, (∀ p ∈ profiles, IsValid p) → DistinctLevels profiles →
      Follows profiles duration (calculateCompositeSchedule profiles duration unit) := by
  intro h
  have hvalid : ∀ p ∈ [fromTheStart], IsValid p := by
    intro p hp
    rw [List.mem_singleton.mp hp]
    exact ⟨by decide +kernel, by decide +kernel⟩
  have hinForce : InForceInHighest [fromTheStart] 60 11000 := by
    refine ⟨fromTheStart, List.mem_singleton_self _, { startPeriod := 0, limit := 11000 }, by decide +kernel, rfl, ?_⟩
    intro p hp _
    rw [List.mem_singleton.mp hp]
  have hlimit := h [fromTheStart] 120 none hvalid (by decide) 60 11000 ⟨by omega, by omega, by omega⟩ hinForce
  revert hlimit
  decide +kernel

end FavoniusBackend.Ocpp.Composite
