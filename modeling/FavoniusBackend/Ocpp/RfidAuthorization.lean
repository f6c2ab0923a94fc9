import Mathlib.Data.Finset.Basic
import FavoniusBackend.Lib.Answers
import FavoniusBackend.Lib.Dict
import FavoniusBackend.Lib.Text

/-!
# RFID authorization

`RFIDAuthorizationService.authorize`, with the process-wide maps behind its throttle: the times of the invalid attempts
of each (station, tag), until when a pair is throttled, and the marks of the recovery audit.  All pairs are pruned on
every call.

What pruning removes is never read again: the throttle of a pair and its attempts of the last minute are what they were
(`throttledAt_prune`, `recent_prune`).
-/

namespace FavoniusBackend.Ocpp.RfidAuthorization

open Lib

/-- A station and a tag. -/
abbrev Key := List Char × List Char

def invalidAttemptThreshold : ℕ := 8

def invalidAttemptWindowS : ℚ := 60

def throttleDurationS : ℚ := 120

/-! ## Decisions -/

inductive RFIDAuthStatus
  | accepted
  | invalid
  | expired
  | blocked
  | concurrentTx
  deriving DecidableEq, Repr

inductive Reason
  | missingIdTag
  | tooManyInvalidAttempts
  | operatorOverride
  | lookupError
  | unknownIdTag
  | identityMatched
  deriving DecidableEq, Repr

def Reason.text : Reason → String
  | .missingIdTag => "missing_id_tag"
  | .tooManyInvalidAttempts => "too_many_invalid_attempts"
  | .operatorOverride => "operator_override"
  | .lookupError => "lookup_error"
  | .unknownIdTag => "unknown_id_tag"
  | .identityMatched => "identity_matched"

structure RFIDAuthDecision where
  status : RFIDAuthStatus
  source : String
  reason : Reason
  vehicleId : Option String := none
  driverId : Option String := none
  cardId : Option String := none
  depotId : Option String := none
  deriving DecidableEq, Repr

structure IdTagRow where
  vehicleId : Option String := none
  driverId : Option String := none
  cardId : Option String := none
  depotId : Option String := none
  deriving DecidableEq, Repr

inductive Lookup
  | known (row : IdTagRow)
  | unknown
  | error
  deriving DecidableEq, Repr

structure OperatorOverride where
  depotId : Option String := none
  deriving DecidableEq, Repr

/-- A call of `authorize`: what the database answers when it is asked, the reading of the clock for the throttle, and
the one for the record of an invalid attempt, or a time at which the call is over. -/
structure Call where
  stationId : List Char
  idTag : List Char
  source : String
  durableCount : Option ℤ := none
  lookup : Lookup
  override : Option OperatorOverride := none
  checkedAt : ℚ
  recordedAt : ℚ
  deriving DecidableEq, Repr

def Call.key (c : Call) : Key := (c.stationId, c.idTag)

/-! ## The maps -/

structure State where
  invalidAttempts : Dict Key (List ℚ) := Dict.empty
  throttledUntil : Dict Key ℚ := Dict.empty
  recoveryLogged : Finset Key := ∅
  pendingRecoveryAudit : Finset Key := ∅

def fresh (now ts : ℚ) : Bool := decide (now - ts ≤ invalidAttemptWindowS)

namespace State

/-- `_prune_in_memory_state`. -/
def prune (s : State) (now : ℚ) : State :=
  let invalidAttempts :=
    (s.invalidAttempts.mapValues fun timestamps => timestamps.filter (fresh now)).filter fun _ timestamps =>
      decide (timestamps ≠ [])
  let throttledUntil := s.throttledUntil.filter fun _ expiresAt => decide (now < expiresAt)
  { invalidAttempts := invalidAttempts
    throttledUntil := throttledUntil
    recoveryLogged := ∅
    pendingRecoveryAudit := s.pendingRecoveryAudit.filter fun key => key ∈ invalidAttempts ∨ key ∈ throttledUntil }

/-- `bool(expires_at and expires_at > now)`; a time of zero is no time. -/
def throttledAt (s : State) (key : Key) (now : ℚ) : Bool :=
  (s.throttledUntil.get? key).any fun expiresAt => decide (expiresAt ≠ 0 ∧ now < expiresAt)

def isThrottled (s : State) (durableCount : Option ℤ) (key : Key) (now : ℚ) : State × Bool :=
  (s.prune now,
    durableCount.any (fun count => decide ((invalidAttemptThreshold : ℤ) ≤ count)) || (s.prune now).throttledAt key now)

def recordInvalidAttempt (s : State) (key : Key) (now : ℚ) : State :=
  let s := s.prune now
  let attempts := (s.invalidAttempts.getD key []).filter (fresh now) ++ [now]
  { invalidAttempts := s.invalidAttempts.set key attempts
    throttledUntil :=
      if invalidAttemptThreshold ≤ attempts.length then s.throttledUntil.set key (now + throttleDurationS)
      else s.throttledUntil
    recoveryLogged := s.recoveryLogged.erase key
    pendingRecoveryAudit := insert key s.pendingRecoveryAudit }

def acceptIdentity (s : State) (key : Key) : State where
  invalidAttempts := s.invalidAttempts.erase key
  throttledUntil := s.throttledUntil.erase key
  recoveryLogged := insert key s.recoveryLogged
  pendingRecoveryAudit :=
    if key ∉ s.recoveryLogged then s.pendingRecoveryAudit.erase key else s.pendingRecoveryAudit

def resolve (s : State) (c : Call) : State × RFIDAuthDecision :=
  match c.lookup, c.override with
  | .known row, _ =>
    (s.acceptIdentity c.key,
      { status := .accepted
        source := c.source
        reason := .identityMatched
        vehicleId := row.vehicleId
        driverId := row.driverId
        cardId := row.cardId
        depotId := row.depotId })
  | _, some override =>
    (s,
      { status := .accepted
        source := c.source
        reason := .operatorOverride
        depotId := override.depotId.filter fun depotId => depotId ≠ "" })
  | .error, none => (s, { status := .invalid, source := c.source, reason := .lookupError })
  | .unknown, none =>
    (s.recordInvalidAttempt c.key c.recordedAt, { status := .invalid, source := c.source, reason := .unknownIdTag })

def authorize (s : State) (c : Call) : State × RFIDAuthDecision :=
  if Text.strip c.idTag = [] then (s, { status := .invalid, source := c.source, reason := .missingIdTag })
  else if (s.isThrottled c.durableCount c.key c.checkedAt).2 then
    ((s.isThrottled c.durableCount c.key c.checkedAt).1,
      { status := .blocked, source := c.source, reason := .tooManyInvalidAttempts })
  else (s.isThrottled c.durableCount c.key c.checkedAt).1.resolve c

/-- A call gets as far as `consume_operator_override`. -/
def asksOverride (s : State) (c : Call) : Bool :=
  decide (Text.strip c.idTag ≠ []) && !(s.isThrottled c.durableCount c.key c.checkedAt).2 &&
    match c.lookup with
    | .known _ => false
    | _ => true

/-! ## What the maps say of a pair -/

def recent (s : State) (key : Key) (now : ℚ) : List ℚ := (s.invalidAttempts.getD key []).filter (fresh now)

end State

theorem filter_fresh_fresh {now later : ℚ} (h : now ≤ later) (timestamps : List ℚ) :
    (timestamps.filter (fresh now)).filter (fresh later) = timestamps.filter (fresh later) := by
  rw [List.filter_filter]
  apply List.filter_congr
  intro ts _
  rw [fresh, fresh, ← Bool.decide_and, decide_eq_decide]
  apply and_iff_left_of_imp
  intro hfresh
  linarith

namespace State

variable (s : State) {key : Key} {now later : ℚ}

theorem recent_recent (h : now ≤ later) : (s.recent key now).filter (fresh later) = s.recent key later :=
  filter_fresh_fresh h _

theorem recent_prune (h : now ≤ later) : (s.prune now).recent key later = s.recent key later := by
  have hget : (s.prune now).invalidAttempts.getD key [] = s.recent key now := by
    unfold prune recent Dict.getD
    dsimp only
    rw [Dict.get?_filter, Dict.get?_mapValues]
    cases s.invalidAttempts.get? key with
    | none => rfl
    | some timestamps =>
      by_cases hnil : timestamps.filter (fresh now) = []
      · simp [Option.filter, hnil]
      · simp [Option.filter, hnil]
  rw [recent, hget, s.recent_recent h]

theorem throttledAt_prune (h : now ≤ later) : (s.prune now).throttledAt key later = s.throttledAt key later := by
  unfold prune throttledAt
  dsimp only
  rw [Dict.get?_filter]
  cases s.throttledUntil.get? key with
  | none => rfl
  | some expiresAt =>
    by_cases hexpired : now < expiresAt
    · simp [Option.filter, hexpired]
    · have : ¬ later < expiresAt := by linarith
      simp [Option.filter, hexpired, this]

@[simp] theorem recent_acceptIdentity (key' : Key) :
    (s.acceptIdentity key').recent key now = if key = key' then [] else s.recent key now := by
  rw [acceptIdentity, recent, Dict.getD, Dict.get?_erase]
  split <;> rfl

@[simp] theorem throttledAt_acceptIdentity (key' : Key) :
    (s.acceptIdentity key').throttledAt key now = if key = key' then false else s.throttledAt key now := by
  rw [acceptIdentity, throttledAt, Dict.get?_erase]
  split <;> rfl

theorem recent_recordInvalidAttempt (h : now ≤ later) (key' : Key) :
    (s.recordInvalidAttempt key' now).recent key later =
      if key = key' then (s.recent key now ++ [now]).filter (fresh later) else s.recent key later := by
  unfold recordInvalidAttempt
  dsimp only
  rw [recent, Dict.getD, Dict.get?_set]
  split
  · rename_i hkey
    subst hkey
    show (((s.prune now).recent key now) ++ [now]).filter (fresh later) = _
    rw [s.recent_prune le_rfl]
  · exact s.recent_prune h

theorem throttledAt_recordInvalidAttempt (hnow : 0 ≤ now) (h : now ≤ later) (key' : Key) :
    (s.recordInvalidAttempt key' now).throttledAt key later =
      if key = key' ∧ invalidAttemptThreshold ≤ (s.recent key now ++ [now]).length then
        decide (later < now + throttleDurationS)
      else s.throttledAt key later := by
  have hrecent : ∀ k, (s.prune now).recent k now = s.recent k now := fun k => s.recent_prune le_rfl
  unfold recordInvalidAttempt
  dsimp only
  rw [← recent, hrecent, throttledAt]
  dsimp only
  by_cases hkey : key = key'
  · subst hkey
    by_cases hmany : invalidAttemptThreshold ≤ (s.recent key now ++ [now]).length
    · have hpos : now + throttleDurationS ≠ 0 := by
        rw [throttleDurationS]
        linarith
      rw [if_pos hmany, if_pos ⟨rfl, hmany⟩, Dict.get?_set_self, Option.any_some]
      simp only [ne_eq, hpos, not_false_eq_true, true_and]
    · rw [if_neg hmany, if_neg fun h' => hmany h'.2]
      exact s.throttledAt_prune h
  · have hother : ¬ (key = key' ∧ invalidAttemptThreshold ≤ (s.recent key now ++ [now]).length) :=
      fun h' => hkey h'.1
    rw [if_neg hother]
    split
    · rw [Dict.get?_set_ne _ _ hkey]
      exact s.throttledAt_prune h
    · exact s.throttledAt_prune h

/-! ### One call -/

def answer (c : Call) (throttled : Bool) : RFIDAuthDecision :=
  if Text.strip c.idTag = [] then { status := .invalid, source := c.source, reason := .missingIdTag }
  else if throttled then { status := .blocked, source := c.source, reason := .tooManyInvalidAttempts }
  else (resolve {} c).2

theorem resolve_snd (s s' : State) (c : Call) : (s.resolve c).2 = (s'.resolve c).2 := by
  unfold resolve
  split <;> rfl

variable {c : Call}

theorem isThrottled_snd (hdurable : c.durableCount = none) :
    (s.isThrottled c.durableCount c.key c.checkedAt).2 = s.throttledAt c.key c.checkedAt := by
  rw [isThrottled, hdurable]
  exact s.throttledAt_prune le_rfl

theorem authorize_snd (hdurable : c.durableCount = none) :
    (s.authorize c).2 = answer c (s.throttledAt c.key c.checkedAt) := by
  rw [authorize, s.isThrottled_snd hdurable, answer]
  split
  · rfl
  · split
    · rfl
    · exact resolve_snd _ _ c

theorem resolve_fst (c : Call) :
    (s.resolve c).1 =
      match (s.resolve c).2.reason with
      | .identityMatched => s.acceptIdentity c.key
      | .unknownIdTag => s.recordInvalidAttempt c.key c.recordedAt
      | _ => s := by
  unfold resolve
  split <;> rfl

theorem recent_authorize (hchecked : c.checkedAt ≤ c.recordedAt) (hlater : c.recordedAt ≤ later) :
    (s.authorize c).1.recent key later =
      if key = c.key then
        match (s.authorize c).2.reason with
        | .identityMatched => []
        | .unknownIdTag => (s.recent key c.recordedAt ++ [c.recordedAt]).filter (fresh later)
        | _ => s.recent key later
      else s.recent key later := by
  have hprune : (s.prune c.checkedAt).recent key later = s.recent key later :=
    s.recent_prune (hchecked.trans hlater)
  unfold authorize
  split
  · simp
  · split
    · show (s.prune c.checkedAt).recent key later = _
      simp [hprune]
    · show ((s.prune c.checkedAt).resolve c).1.recent key later = _
      rw [resolve_fst]
      show _ = if key = c.key then
          match ((s.prune c.checkedAt).resolve c).2.reason with
          | .identityMatched => []
          | .unknownIdTag => (s.recent key c.recordedAt ++ [c.recordedAt]).filter (fresh later)
          | _ => s.recent key later
        else s.recent key later
      cases ((s.prune c.checkedAt).resolve c).2.reason with
      | identityMatched => rw [recent_acceptIdentity, hprune]
      | unknownIdTag => rw [recent_recordInvalidAttempt _ hlater, hprune, s.recent_prune hchecked]
      | _ => simp [hprune]

theorem throttledAt_authorize (hchecked : c.checkedAt ≤ c.recordedAt) (hlater : c.recordedAt ≤ later)
    (hpos : 0 ≤ c.recordedAt) :
    (s.authorize c).1.throttledAt key later =
      if key = c.key then
        match (s.authorize c).2.reason with
        | .identityMatched => false
        | .unknownIdTag =>
          if invalidAttemptThreshold ≤ (s.recent key c.recordedAt ++ [c.recordedAt]).length then
            decide (later < c.recordedAt + throttleDurationS)
          else s.throttledAt key later
        | _ => s.throttledAt key later
      else s.throttledAt key later := by
  have hprune : (s.prune c.checkedAt).throttledAt key later = s.throttledAt key later :=
    s.throttledAt_prune (hchecked.trans hlater)
  unfold authorize
  split
  · simp
  · split
    · show (s.prune c.checkedAt).throttledAt key later = _
      simp [hprune]
    · show ((s.prune c.checkedAt).resolve c).1.throttledAt key later = _
      rw [resolve_fst]
      show _ = if key = c.key then
          match ((s.prune c.checkedAt).resolve c).2.reason with
          | .identityMatched => false
          | .unknownIdTag =>
            if invalidAttemptThreshold ≤ (s.recent key c.recordedAt ++ [c.recordedAt]).length then
              decide (later < c.recordedAt + throttleDurationS)
            else s.throttledAt key later
          | _ => s.throttledAt key later
        else s.throttledAt key later
      cases ((s.prune c.checkedAt).resolve c).2.reason with
      | identityMatched => rw [throttledAt_acceptIdentity, hprune]
      | unknownIdTag =>
        rw [throttledAt_recordInvalidAttempt _ hpos hlater, hprune, s.recent_prune hchecked, ite_and]
      | _ => simp [hprune]

end State

end FavoniusBackend.Ocpp.RfidAuthorization
