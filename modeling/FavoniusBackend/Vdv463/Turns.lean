import FavoniusBackend.Lib.Guard
import FavoniusBackend.Vdv463.Handler

/-!
# One turn of the loop over the requests

What becomes of an item is decided before anything is written: `verdict` says whether it is passed over, raises, is
refused or is accepted.  `exec_processRequest_eq` says what the turn then does with the world, and `statusOf_turn` what
the table holds after it.
-/

namespace FavoniusBackend.Vdv463

open Lib
open Lib.PyJson
open Lib.Stateful

variable (setting : Setting) (self : VDV463Handler) (c : Circumstances) (envelope : VDVMessageEnvelope)

/-! ## Calls that wait -/

theorem exec_perform (op : Operation) (e : PyException) (w : World) :
    exec (perform c op e) w = (if c.fails op then .error e else .ok (), w) := by
  rw [perform, exec_attempt]

theorem exec_send (op : Operation) (reply : Reply) (w : World) :
    exec (send c op reply) w =
      if c.fails op then (.error .connectionClosed, w) else (.ok (), { w with sent := w.sent ++ [reply] }) := by
  rw [send, exec_bind, exec_perform]
  by_cases h : c.fails op
  · rw [if_pos h, if_pos h]
  · rw [if_neg h, if_neg h]
    rfl

theorem exec_execute (op : Operation) (effect : Requests → Requests) (w : World) :
    exec (execute c op effect) w =
      if c.fails op then (.error .database, w) else (.ok (), { w with store := effect w.store }) := by
  rw [execute, exec_bind, exec_perform]
  by_cases h : c.fails op
  · rw [if_pos h, if_pos h]
  · rw [if_neg h, if_neg h]
    rfl

def logFails (item : Option ℕ) : Bool := self.stored.isSome && c.fails (.log item)

theorem exec_logError (item : Option ℕ) (w : World) :
    exec (logError self c item) w = (if logFails self c item then .error .database else .ok (), w) := by
  rw [logError, logFails]
  by_cases h : self.stored.isSome
  · rw [if_pos h, exec_perform, h, Bool.true_and]
  · rw [if_neg h, exec_pure]
    simp [h]

/-! ## The verdict on an item -/

inductive Verdict where
  | skipped
  | raises (e : PyException)
  | rejected (req : ChargingRequest) (errorCode : String) (errorDescription : PyStr)
  | accepted (req : ChargingRequest) (vehicleId : PyStr) (chargingPointId : Option PyStr)

def resolveVerdict (i : ℕ) (req : ChargingRequest) : Verdict :=
  match c.vehicle i with
  | none =>
    .rejected req "InvalidVehicleId"
      (py "Vehicle '" ++ setting.str req.vehicleExternalId ++ py "' not found in depot configuration")
  | some vehicleId =>
    if req.chargingPointId.truthy && self.depot.isSome then
      match c.chargingPoint i with
      | none =>
        .rejected req "InvalidChargingPointId"
          (py "Charging point '" ++ setting.str req.chargingPointId ++ py "' not found in depot")
      | some chargingPointId => .accepted req vehicleId (some chargingPointId)
    else .accepted req vehicleId none

def verdict (i : ℕ) (reqData : Json) : Verdict :=
  match parseChargingRequestItem reqData
    (if envelope.validationStatus = "" then "ok" else envelope.validationStatus) with
  | .error .keyError | .error .typeError => .skipped
  | .error e => .raises (.builtin e)
  | .ok req =>
    match invalidTimeWindow req with
    | .error e => .raises (.builtin e)
    | .ok true =>
      .rejected req "InvalidTimeWindow"
        (py "expectedArrivalTimeAtChargingPoint must be before requestedTimeForDeparture")
    | .ok false => resolveVerdict setting self c i req

/-- The rest of a turn. -/
def settle (i : ℕ) : Verdict → Handling (Option Json)
  | .skipped => pure none
  | .raises e => attempt (.error e)
  | .rejected req errorCode errorDescription => reject setting self c envelope i req errorCode errorDescription
  | .accepted req vehicleId chargingPointId => persist setting self c envelope i req vehicleId chargingPointId

theorem resolve_eq (i : ℕ) (req : ChargingRequest) :
    resolve setting self c envelope i req = settle setting self c envelope i (resolveVerdict setting self c i req) := by
  unfold resolve resolveVerdict
  cases c.vehicle i with
  | none => rfl
  | some vehicleId =>
    by_cases hpoint : (req.chargingPointId.truthy && self.depot.isSome) = true
    · simp only [if_pos hpoint]
      cases c.chargingPoint i with
      | none => rfl
      | some chargingPointId => rfl
    · simp only [if_neg hpoint]
      rfl

theorem exec_processRequest_eq (i : ℕ) (reqData : Json) (w : World) :
    exec (processRequest setting self c envelope i reqData) w =
      exec (settle setting self c envelope i (verdict setting self c envelope i reqData)) w := by
  unfold processRequest verdict
  rcases parseChargingRequestItem reqData
    (if envelope.validationStatus = "" then "ok" else envelope.validationStatus) with e | req
  · cases e <;> rfl
  · simp only [exec_bind, exec_attempt]
    rcases invalidTimeWindow req with e | b
    · rfl
    · cases b with
      | true => rfl
      | false => exact congrArg (exec · w) (resolve_eq setting self c envelope i req)

/-! ## The world after a turn -/

/-- The statement of an accepted item, unless it raises. -/
def persistEffect (depotId : PyStr) (i : ℕ) (req : ChargingRequest) (vehicleId : PyStr)
    (chargingPointId : Option PyStr) : Option (Requests → Requests) :=
  let key : RequestKey := ⟨depotId, self.presystemId, req.chargingRequestId⟩
  if c.fails (.persist i) then none
  else if req.chargingInstruction = .str (py "Terminate") then some (setChargingRequestTerminated key)
  else
    match requestRow setting.fromisoformat req vehicleId chargingPointId (envelope.messageId.orElse (.str [])) with
    | .ok row => some (upsertChargingRequest key row)
    | .error _ => none

theorem exec_reject (i : ℕ) (req : ChargingRequest) (errorCode : String) (errorDescription : PyStr) (w : World) :
    exec (reject setting self c envelope i req errorCode errorDescription) w =
      if c.fails (.send (some i)) then (.error .connectionClosed, w)
      else
        (if logFails self c (some i) then .error .database else .ok none,
          { w with sent := w.sent ++ [buildError setting envelope errorCode errorDescription
              [(py "chargingRequestId", req.chargingRequestId)]] }) := by
  have hsend := exec_send c (.send (some i)) (buildError setting envelope errorCode errorDescription
    [(py "chargingRequestId", req.chargingRequestId)]) w
  by_cases h : c.fails (.send (some i))
  · rw [if_pos h] at hsend ⊢
    exact exec_bind_error hsend
  · rw [if_neg h] at hsend ⊢
    rw [reject, exec_bind_ok hsend]
    by_cases hlog : logFails self c (some i)
    · rw [if_pos hlog]
      exact exec_bind_error (by rw [exec_logError, if_pos hlog])
    · rw [if_neg hlog]
      exact exec_bind_ok (by rw [exec_logError, if_neg hlog])

theorem exec_persistStatement (depotId : PyStr) (i : ℕ) (req : ChargingRequest) (vehicleId : PyStr)
    (chargingPointId : Option PyStr) (w : World) :
    ∃ e, exec (persistStatement setting self c depotId envelope i req vehicleId chargingPointId) w =
      match persistEffect setting self c envelope depotId i req vehicleId chargingPointId with
      | some effect => (.ok (), { w with store := effect w.store })
      | none => (.error e, w) := by
  unfold persistStatement persistEffect
  by_cases hterm : req.chargingInstruction = .str (py "Terminate")
  · refine ⟨.database, ?_⟩
    simp only [if_pos hterm, exec_execute]
    split
    · rfl
    · rfl
  · simp only [if_neg hterm]
    rcases requestRow setting.fromisoformat req vehicleId chargingPointId (envelope.messageId.orElse (.str [])) with
      e | row
    · refine ⟨.builtin e, ?_⟩
      have hrow : exec (attempt ((Except.error e : Except PyError RequestRow).mapError PyException.builtin)) w =
          (.error (.builtin e), w) := rfl
      rw [exec_bind_error hrow]
      split
      · rename_i heq
        split at heq <;> exact nomatch heq
      · rfl
    · refine ⟨.database, ?_⟩
      have hrow : exec (attempt ((Except.ok row : Except PyError RequestRow).mapError PyException.builtin)) w =
          (.ok row, w) := rfl
      rw [exec_bind_ok hrow, exec_execute]
      split
      · rfl
      · rfl

/-- An item that is accepted is kept, unless its statement raises. -/
theorem exec_persist_stored {depotId : PyStr} (hstored : self.stored = some depotId) (i : ℕ) (req : ChargingRequest)
    (vehicleId : PyStr) (chargingPointId : Option PyStr) (w : World) :
    exec (persist setting self c envelope i req vehicleId chargingPointId) w =
      match persistEffect setting self c envelope depotId i req vehicleId chargingPointId with
      | some effect => (.ok (some req.chargingRequestId), { w with store := effect w.store })
      | none => (if logFails self c (some i) then .error .database else .ok none, w) := by
  obtain ⟨e, hstatement⟩ := exec_persistStatement setting self c envelope depotId i req vehicleId chargingPointId w
  rw [persist, hstored]
  cases heffect : persistEffect setting self c envelope depotId i req vehicleId chargingPointId with
  | some effect =>
    rw [heffect] at hstatement
    exact exec_recover_ok (exec_bind_ok hstatement)
  | none =>
    rw [heffect] at hstatement
    refine (exec_recover_error (exec_bind_error hstatement)).trans ?_
    by_cases hlog : logFails self c (some i)
    · rw [if_pos hlog]
      exact exec_bind_error (by rw [exec_logError, if_pos hlog])
    · rw [if_neg hlog]
      exact exec_bind_ok (by rw [exec_logError, if_neg hlog])

def turnResult (i : ℕ) (reqData : Json) : Except PyException (Option Json) :=
  match verdict setting self c envelope i reqData with
  | .skipped => .ok none
  | .raises e => .error e
  | .rejected _ _ _ =>
    if c.fails (.send (some i)) then .error .connectionClosed
    else if logFails self c (some i) then .error .database else .ok none
  | .accepted req vehicleId chargingPointId =>
    match self.stored with
    | none => .ok (some req.chargingRequestId)
    | some depotId =>
      match persistEffect setting self c envelope depotId i req vehicleId chargingPointId with
      | some _ => .ok (some req.chargingRequestId)
      | none => if logFails self c (some i) then .error .database else .ok none

theorem exec_processRequest_fst (i : ℕ) (reqData : Json) (w : World) :
    (exec (processRequest setting self c envelope i reqData) w).1 = turnResult setting self c envelope i reqData := by
  rw [exec_processRequest_eq, turnResult]
  rcases verdict setting self c envelope i reqData with _ | e | ⟨req, code, description⟩ | ⟨req, vehicleId, point⟩
  · rfl
  · rfl
  · rw [settle, exec_reject]
    split
    · rfl
    · rfl
  · rw [settle]
    rcases hstored : self.stored with _ | depotId
    · rw [persist, hstored]
      rfl
    · rw [exec_persist_stored setting self c envelope hstored]
      cases heffect : persistEffect setting self c envelope depotId i req vehicleId point with
      | some effect => simp only [heffect]
      | none => simp only [heffect]

/-- The request of an item whose statement goes through. -/
def written (depotId : PyStr) (i : ℕ) (reqData : Json) : Option ChargingRequest :=
  match verdict setting self c envelope i reqData with
  | .accepted req vehicleId chargingPointId =>
    (persistEffect setting self c envelope depotId i req vehicleId chargingPointId).map fun _ => req
  | _ => none

theorem requestRow_status {fromisoformat : PyStr → Option ℚ} {req : ChargingRequest} {vehicleId : PyStr}
    {chargingPointId : Option PyStr} {messageId : Json} {row : RequestRow}
    (h : requestRow fromisoformat req vehicleId chargingPointId messageId = .ok row) :
    row.status = if req.chargingInstruction = .str (py "Terminate") then .terminated else .active := by
  unfold requestRow at h
  simp only [Guard.bind_eq_ok] at h
  obtain ⟨_, -, _, -, _, -, _, -, _, -, _, -, _, -, _, -, _, -, _, -, _, -, h⟩ := h
  cases h
  rfl

theorem statusOf_persistEffect {depotId : PyStr} {i : ℕ} {req : ChargingRequest} {vehicleId : PyStr}
    {chargingPointId : Option PyStr} {effect : Requests → Requests}
    (h : persistEffect setting self c envelope depotId i req vehicleId chargingPointId = some effect)
    (store : Requests) (key : RequestKey) :
    statusOf (effect store) key =
      if key = ⟨depotId, self.presystemId, req.chargingRequestId⟩ then
        if req.chargingInstruction = .str (py "Terminate") then (statusOf store key).map fun _ => .terminated
        else some .active
      else statusOf store key := by
  unfold persistEffect at h
  simp only at h
  split at h
  · exact nomatch h
  · split at h
    · rename_i hterm
      cases h
      rw [statusOf_setTerminated, if_pos hterm]
    · rename_i hterm
      split at h
      · rename_i row hrow
        cases h
        rw [statusOf_upsert, requestRow_status hrow, if_neg hterm, if_neg hterm]
      · exact nomatch h

/-! ## The message around the loop -/

variable {setting self c envelope} in
theorem world_handleProvideChargingRequests {items : List Json}
    (hlist : chargingRequestList envelope.payload = .ok items) (w : World) :
    (exec (handleProvideChargingRequests setting self c envelope) w).2 =
      match duplicateRequestId [] items with
      | .error _ => w
      | .ok (some crid) => (exec (refuseDuplicate setting self c envelope crid) w).2
      | .ok none => (exec (processMessage setting self c envelope items) w).2 := by
  have hattempt : exec (attempt ((chargingRequestList envelope.payload).mapError PyException.builtin)) w =
      (.ok items, w) := by
    rw [exec_attempt, hlist]
    rfl
  rw [handleProvideChargingRequests, exec_bind_ok hattempt]
  rcases duplicateRequestId [] items with e | crid
  · rfl
  · cases crid with
    | none => rfl
    | some crid => rfl

/-! ## What a turn keeps and writes -/

variable {setting self c envelope}

theorem turnResult_eq_some {depotId : PyStr} (hstored : self.stored = some depotId) {i : ℕ} {reqData id : Json} :
    turnResult setting self c envelope i reqData = .ok (some id) ↔
      ∃ req, written setting self c envelope depotId i reqData = some req ∧ req.chargingRequestId = id := by
  unfold turnResult written
  rcases verdict setting self c envelope i reqData with _ | e | ⟨req, code, description⟩ | ⟨req, vehicleId, point⟩
  · simp
  · simp
  · simp only [reduceCtorEq, false_and, exists_false, iff_false]
    split
    · exact nofun
    · split
      · exact nofun
      · exact nofun
  · rw [hstored]
    cases heffect : persistEffect setting self c envelope depotId i req vehicleId point with
    | some effect => simp [heffect]
    | none =>
      simp only [heffect, Option.map_none, reduceCtorEq, false_and, exists_false, iff_false]
      split
      · exact nofun
      · exact nofun

theorem statusOf_turn {depotId : PyStr} (hstored : self.stored = some depotId) (i : ℕ) (reqData : Json) (w : World)
    (key : RequestKey) :
    statusOf (exec (processRequest setting self c envelope i reqData) w).2.store key =
      match written setting self c envelope depotId i reqData with
      | some req =>
        if key = ⟨depotId, self.presystemId, req.chargingRequestId⟩ then
          if req.chargingInstruction = .str (py "Terminate") then
            (statusOf w.store key).map fun _ => .terminated
          else some .active
        else statusOf w.store key
      | none => statusOf w.store key := by
  rw [exec_processRequest_eq]
  unfold written
  rcases verdict setting self c envelope i reqData with _ | e | ⟨req, code, description⟩ | ⟨req, vehicleId, point⟩
  · rfl
  · rfl
  · rw [settle, exec_reject]
    split
    · rfl
    · rfl
  · rw [settle, exec_persist_stored setting self c envelope hstored]
    cases heffect : persistEffect setting self c envelope depotId i req vehicleId point with
    | some effect => simp only [heffect, Option.map_some, statusOf_persistEffect setting self c envelope heffect]
    | none => simp only [heffect, Option.map_none]

theorem get_of_parse {reqData : Json} {validationStatus : String} {req : ChargingRequest}
    (h : parseChargingRequestItem reqData validationStatus = .ok req) :
    reqData.get "chargingRequestId" (.str []) = .ok req.chargingRequestId ∧
      reqData.get "chargingInstruction" (.str (py "Normal")) = .ok req.chargingInstruction := by
  unfold parseChargingRequestItem at h
  simp only [Guard.bind_eq_ok] at h
  obtain ⟨_, -, _, -, _, -, _, -, _, -, _, -, _, -, _, -, _, -, id, hid, _, -, _, -, _, -, _, -, _, -, _, -, _, -,
    instruction, hinstruction, _, -, _, -, h⟩ := h
  cases h
  exact ⟨hid, hinstruction⟩

theorem req_of_resolveVerdict {i : ℕ} {req req' : ChargingRequest} {vehicleId : PyStr} {point : Option PyStr}
    (h : resolveVerdict setting self c i req = .accepted req' vehicleId point) : req = req' := by
  unfold resolveVerdict at h
  split at h
  · exact nomatch h
  · split at h
    · split at h
      · exact nomatch h
      · exact (Verdict.accepted.inj h).1
    · exact (Verdict.accepted.inj h).1

theorem parse_of_accepted {i : ℕ} {reqData : Json} {req : ChargingRequest} {vehicleId : PyStr}
    {point : Option PyStr} (h : verdict setting self c envelope i reqData = .accepted req vehicleId point) :
    ∃ validationStatus, parseChargingRequestItem reqData validationStatus = .ok req := by
  unfold verdict at h
  split at h
  · exact nomatch h
  · exact nomatch h
  · exact nomatch h
  · rename_i req' hparse
    split at h
    · exact nomatch h
    · exact nomatch h
    · exact ⟨_, req_of_resolveVerdict h ▸ hparse⟩

theorem get_of_written {depotId : PyStr} {i : ℕ} {reqData : Json} {req : ChargingRequest}
    (h : written setting self c envelope depotId i reqData = some req) :
    reqData.get "chargingRequestId" (.str []) = .ok req.chargingRequestId ∧
      reqData.get "chargingInstruction" (.str (py "Normal")) = .ok req.chargingInstruction := by
  unfold written at h
  split at h
  · rename_i req' vehicleId point hverdict
    obtain ⟨_, -, rfl⟩ := Option.map_eq_some_iff.mp h
    obtain ⟨validationStatus, hparse⟩ := parse_of_accepted hverdict
    exact get_of_parse hparse
  · exact nomatch h

end FavoniusBackend.Vdv463
