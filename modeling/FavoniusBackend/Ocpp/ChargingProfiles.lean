import FavoniusBackend.Lib.Guard
import FavoniusBackend.Lib.Sql

/-!
# Charging profiles of an EVSE

The data of `ChargingProfileManager` and its statements on the table `charging_profiles`, for one EVSE: the
validation of a profile against the stored ones, the stacking limit, and the insert, delete and select statements.

A text with a date is the outcome of reading it: an instant, a wall-clock reading without an offset, or a text that
is no date.
-/

namespace FavoniusBackend.Ocpp.ChargingProfiles

open Lib

inductive ChargingProfilePurpose
  | chargingStationExternalConstraints
  | chargingStationMaxProfile
  | txDefaultProfile
  | txProfile
  | priorityCharging
  | localGeneration
  deriving DecidableEq, Repr

def ChargingProfilePurpose.value : ChargingProfilePurpose → String
  | .chargingStationExternalConstraints => "ChargingStationExternalConstraints"
  | .chargingStationMaxProfile => "ChargingStationMaxProfile"
  | .txDefaultProfile => "TxDefaultProfile"
  | .txProfile => "TxProfile"
  | .priorityCharging => "PriorityCharging"
  | .localGeneration => "LocalGeneration"

structure ChargingSchedulePeriod where
  startPeriod : ℤ
  limit : ℚ
  dischargingLimit : Option ℚ := none
  setpoint : Option ℚ := none
  deriving DecidableEq, Repr

inductive Stamp
  | aware (instant : ℚ)
  | naive (wall : ℚ)
  | malformed
  deriving DecidableEq, Repr

/-- The value of a `TIMESTAMPTZ` column; the database runs in UTC and refuses a text that is no date. -/
def Stamp.column : Stamp → Option ℚ
  | .aware instant => some instant
  | .naive wall => some wall
  | .malformed => none

structure ChargingProfile where
  id : ℤ
  stackLevel : ℤ
  chargingProfilePurpose : ChargingProfilePurpose
  chargingSchedulePeriod : List ChargingSchedulePeriod
  validFrom : Option Stamp := none
  validTo : Option Stamp := none
  deriving DecidableEq, Repr

inductive ReasonCode
  | duplicate
  | propertyConstraintViolation
  | internalError
  deriving DecidableEq, Repr

structure StatusInfo where
  reasonCode : ReasonCode
  additionalInfo : String
  deriving DecidableEq, Repr

/-! ### Validation -/

def validatePeriod (i : ℕ) (period : ChargingSchedulePeriod) : Except StatusInfo Unit := do
  Guard.require (0 ≤ period.startPeriod)
    ⟨.propertyConstraintViolation, "Period " ++ toString i ++ " start time must be >= 0"⟩
  Guard.require (0 ≤ period.limit) ⟨.propertyConstraintViolation, "Period " ++ toString i ++ " limit must be >= 0"⟩
  Guard.require (∀ limit ∈ period.dischargingLimit, limit ≤ 0)
    ⟨.propertyConstraintViolation, "Period " ++ toString i ++ " dischargingLimit must be <= 0"⟩
  Guard.require (∀ setpoint ∈ period.setpoint, 0 < period.limit → setpoint ≤ period.limit)
    ⟨.propertyConstraintViolation, "Period " ++ toString i ++ " setpoint exceeds charge limit"⟩
  Guard.require (∀ setpoint ∈ period.setpoint, ∀ limit ∈ period.dischargingLimit, limit ≤ setpoint)
    ⟨.propertyConstraintViolation, "Period " ++ toString i ++ " setpoint exceeds discharge limit"⟩

/-- The time constraints; a comparison of an instant with a reading without an offset raises. -/
def validateWindow : Option Stamp → Option Stamp → Except StatusInfo Unit
  | some (.aware validFrom), some (.aware validTo) =>
    Guard.require (validFrom < validTo) ⟨.propertyConstraintViolation, "validFrom must be before validTo"⟩
  | some (.naive validFrom), some (.naive validTo) =>
    Guard.require (validFrom < validTo) ⟨.propertyConstraintViolation, "validFrom must be before validTo"⟩
  | some .malformed, some _ => .error ⟨.propertyConstraintViolation, "Invalid datetime format"⟩
  | some _, some .malformed => .error ⟨.propertyConstraintViolation, "Invalid datetime format"⟩
  | some _, some _ => .error ⟨.internalError, "can't compare offset-naive and offset-aware datetimes"⟩
  | _, _ => .ok ()

/-- `_validate_profile` against the profiles that it has read. -/
def validateProfile (existingProfiles : List ChargingProfile) (profile : ChargingProfile) :
    Except StatusInfo Unit := do
  Guard.require (∀ p ∈ existingProfiles, p.id ≠ profile.id)
    ⟨.duplicate, "Profile ID " ++ toString profile.id ++ " already exists"⟩
  Guard.require (0 ≤ profile.stackLevel ∧ profile.stackLevel ≤ 10)
    ⟨.propertyConstraintViolation, "Stack level must be between 0 and 10"⟩
  Guard.require (profile.chargingSchedulePeriod ≠ [])
    ⟨.propertyConstraintViolation, "Charging schedule must have at least one period"⟩
  Guard.forEach (fun p => validatePeriod p.2 p.1) profile.chargingSchedulePeriod.zipIdx
  validateWindow profile.validFrom profile.validTo

/-- `stacking_limits`. -/
def stackingLimit : ChargingProfilePurpose → ℕ
  | .chargingStationMaxProfile => 1
  | .txDefaultProfile => 1
  | .txProfile => 1
  | .priorityCharging => 1
  | .localGeneration => 1
  | .chargingStationExternalConstraints => 1

def sameStack (profile p : ChargingProfile) : Bool :=
  decide (p.chargingProfilePurpose = profile.chargingProfilePurpose ∧ p.stackLevel = profile.stackLevel)

/-- `_check_stacking_limits` against the profiles that it has read. -/
def checkStackingLimits (existingProfiles : List ChargingProfile) (profile : ChargingProfile) :
    Except StatusInfo Unit :=
  Guard.require (existingProfiles.countP (sameStack profile) < stackingLimit profile.chargingProfilePurpose)
    ⟨.propertyConstraintViolation,
      "Maximum " ++ toString (stackingLimit profile.chargingProfilePurpose) ++ " profiles allowed for " ++
        profile.chargingProfilePurpose.value ++ " at stack level " ++ toString profile.stackLevel⟩

/-! ### Statements -/

/-- `store_charging_profile`: an upsert under the profile id; `none` if a date is malformed. -/
def storeChargingProfile (stored : List ChargingProfile) (profile : ChargingProfile) :
    Option (List ChargingProfile) :=
  if profile.validFrom = some .malformed ∨ profile.validTo = some .malformed then none
  else some (Sql.upsert ChargingProfile.id profile stored)

def removeChargingProfile (stored : List ChargingProfile) (profileId : ℤ) : List ChargingProfile :=
  stored.filter fun p => p.id ≠ profileId

/-- `ORDER BY stack_level DESC, created_at DESC`. -/
def inStackOrder (stored : List ChargingProfile) : List ChargingProfile :=
  Sql.orderBy (fun a b : ChargingProfile => b.stackLevel ≤ a.stackLevel) stored.reverse

/-- The filter of `get_charging_profiles`: only the first criterion that is given counts. -/
def matchesCriteria (profileId : Option ℤ) (purpose : Option String) (stackLevel : Option ℤ) (p : ChargingProfile) :
    Bool :=
  match profileId, purpose, stackLevel with
  | some profileId, _, _ => p.id = profileId
  | none, some purpose, _ => p.chargingProfilePurpose.value = purpose
  | none, none, some stackLevel => p.stackLevel = stackLevel
  | none, none, none => true

def getChargingProfiles (stored : List ChargingProfile) (profileId : Option ℤ) (purpose : Option String)
    (stackLevel : Option ℤ) : List ChargingProfile :=
  inStackOrder (stored.filter (matchesCriteria profileId purpose stackLevel))

/-- The `WHERE` clause of `get_active_charging_profiles`. -/
def isActive (now : ℚ) (p : ChargingProfile) : Bool :=
  (p.validFrom.bind Stamp.column).all (· ≤ now) && (p.validTo.bind Stamp.column).all (now ≤ ·)

def getActiveChargingProfiles (stored : List ChargingProfile) (now : ℚ) : List ChargingProfile :=
  inStackOrder (stored.filter (isActive now))

@[simp] theorem mem_inStackOrder {stored : List ChargingProfile} {p : ChargingProfile} :
    p ∈ inStackOrder stored ↔ p ∈ stored := by
  rw [inStackOrder, Sql.mem_orderBy, List.mem_reverse]

theorem mem_getActiveChargingProfiles {stored : List ChargingProfile} {now : ℚ} {p : ChargingProfile} :
    p ∈ getActiveChargingProfiles stored now ↔ p ∈ stored ∧ isActive now p := by
  rw [getActiveChargingProfiles, mem_inStackOrder, List.mem_filter]

theorem mem_getChargingProfiles_all {stored : List ChargingProfile} {p : ChargingProfile} :
    p ∈ getChargingProfiles stored none none none ↔ p ∈ stored := by
  rw [getChargingProfiles, mem_inStackOrder, List.mem_filter, matchesCriteria]
  simp

theorem id_ne_of_validateProfile {existing : List ChargingProfile} {profile : ChargingProfile}
    (h : validateProfile existing profile = .ok ()) : ∀ p ∈ existing, p.id ≠ profile.id := by
  obtain ⟨_, hunique, -⟩ := (Guard.bind_eq_ok _ _ _).mp h
  exact (Guard.require_eq_ok _ _).mp hunique

end FavoniusBackend.Ocpp.ChargingProfiles
