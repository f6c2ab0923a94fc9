import FavoniusBackend.Lib.Stateful
import FavoniusBackend.Vdv463.Repository

/-!
# The handler of the charging management interface

`VDV463Handler` in `adapters/vdv463/handler.py` takes the frames of one presystem.  A method of it reads and writes a
`World`: the table of charging requests, the frames sent so far and the requests kept in memory.  It may raise, and
everything it did before stays done; `_handle_message` swallows what reaches it.

Each call that waits for the database or the socket may fail (`Circumstances.fails`).  The two resolvers never raise, so
their answers are given for each item of a message.  `begun` records which items the loop took up; no method reads it.
-/

namespace FavoniusBackend.Vdv463

open Lib
open Lib.PyJson
open Lib.Stateful

/-! ## The object and its surroundings -/

/-- The fields of a handler that its methods read. -/
structure VDV463Handler where
  presystemId : PyStr
  depotId : Option PyStr
  dbPool : Bool
  validationMode : ValidationMode
  maxMessageSize : ℕ

/-- `self.depot_id` where it is true. -/
def VDV463Handler.depot (self : VDV463Handler) : Option PyStr := self.depotId.filter fun d => !d.isEmpty

/-- `self.db_pool and self.depot_id`. -/
def VDV463Handler.stored (self : VDV463Handler) : Option PyStr := if self.dbPool then self.depot else none

/-- The calls that wait for the database or the socket; those of an item are given its position. -/
inductive Operation where
  | send (item : Option ℕ)
  | sendGeneric
  | log (item : Option ℕ)
  | persist (item : ℕ)
  | terminate
  | timestamp
  | logConnection
  deriving DecidableEq

/-- What the surroundings do while one frame is handled: the answer of the rate limiter (a reason to refuse), the answers
of the resolvers for each item, and the calls that fail. -/
structure Circumstances where
  refusal : Option PyStr
  vehicle : ℕ → Option PyStr
  chargingPoint : ℕ → Option PyStr
  fails : Operation → Bool

structure World where
  store : Requests
  sent : List Reply
  chargingRequests : Dict PyStr ChargingRequest
  begun : List Json

abbrev Handling (α : Type) := Method World PyException α

section Methods

variable (setting : Setting) (self : VDV463Handler) (c : Circumstances)

/-- A call that waits. -/
def perform (op : Operation) (e : PyException) : Handling Unit := attempt (if c.fails op then .error e else .ok ())

def send (op : Operation) (reply : Reply) : Handling Unit := do
  perform c op .connectionClosed
  modify fun w => { w with sent := w.sent ++ [reply] }

def execute (op : Operation) (effect : Requests → Requests) : Handling Unit := do
  perform c op .database
  modify fun w => { w with store := effect w.store }

/-- `log_vdv463_error`, where there is a database. -/
def logError (item : Option ℕ) : Handling Unit :=
  if self.stored.isSome then perform c (.log item) .database else pure ()

/-! ## ProvideChargingRequests -/

def duplicateRequestId (seen : List Json) : List Json → Except PyError (Option Json)
  | [] => .ok none
  | reqData :: rest => do
    let crid ← reqData.get "chargingRequestId" .null
    if crid.truthy then
      if ← crid.memSet seen then return some crid else duplicateRequestId (crid :: seen) rest
    else duplicateRequestId seen rest

/-- An item is refused: an error for it, and the loop goes on. -/
def reject (envelope : VDVMessageEnvelope) (i : ℕ) (req : ChargingRequest) (errorCode : String)
    (errorDescription : PyStr) : Handling (Option Json) := do
  send c (.send (some i)) (buildError setting envelope errorCode errorDescription
    [(py "chargingRequestId", req.chargingRequestId)])
  logError self c (some i)
  return none

def persistStatement (depotId : PyStr) (envelope : VDVMessageEnvelope) (i : ℕ) (req : ChargingRequest)
    (vehicleId : PyStr) (chargingPointId : Option PyStr) : Handling Unit :=
  let key : RequestKey := ⟨depotId, self.presystemId, req.chargingRequestId⟩
  if req.chargingInstruction = .str (py "Terminate") then execute c (.persist i) (setChargingRequestTerminated key)
  else do
    let row ← attempt ((requestRow setting.fromisoformat req vehicleId chargingPointId
      (envelope.messageId.orElse (.str []))).mapError .builtin)
    execute c (.persist i) (upsertChargingRequest key row)

/-- An item that is accepted: its id is kept, unless the statement raises. -/
def persist (envelope : VDVMessageEnvelope) (i : ℕ) (req : ChargingRequest) (vehicleId : PyStr)
    (chargingPointId : Option PyStr) : Handling (Option Json) :=
  match self.stored with
  | some depotId =>
    recover
      (do
        persistStatement setting self c depotId envelope i req vehicleId chargingPointId
        return some req.chargingRequestId)
      fun _ => do
        logError self c (some i)
        return none
  | none => do
    let requestKey := setting.str req.chargingRequestId ++ py "_" ++ setting.str req.vehicleExternalId
    modify fun w => { w with chargingRequests := w.chargingRequests.set requestKey req }
    return some req.chargingRequestId

/-- `arrival and departure and arrival >= departure`. -/
def invalidTimeWindow (req : ChargingRequest) : Except PyError Bool :=
  if req.arrivalTime.truthy && req.departureTime.truthy then req.arrivalTime.ge req.departureTime else .ok false

/-- The items after their time window: the ids are resolved. -/
def resolve (envelope : VDVMessageEnvelope) (i : ℕ) (req : ChargingRequest) : Handling (Option Json) :=
  match c.vehicle i with
  | none =>
    reject setting self c envelope i req "InvalidVehicleId"
      (py "Vehicle '" ++ setting.str req.vehicleExternalId ++ py "' not found in depot configuration")
  | some vehicleId =>
    if req.chargingPointId.truthy && self.depot.isSome then
      match c.chargingPoint i with
      | none =>
        reject setting self c envelope i req "InvalidChargingPointId"
          (py "Charging point '" ++ setting.str req.chargingPointId ++ py "' not found in depot")
      | some chargingPointId => persist setting self c envelope i req vehicleId (some chargingPointId)
    else persist setting self c envelope i req vehicleId none

/-- One turn of the second loop: the id that is kept. -/
def processRequest (envelope : VDVMessageEnvelope) (i : ℕ) (reqData : Json) : Handling (Option Json) :=
  match parseChargingRequestItem reqData
    (if envelope.validationStatus = "" then "ok" else envelope.validationStatus) with
  | .error .keyError | .error .typeError => pure none
  | .error e => attempt (.error (.builtin e))
  | .ok req => do
    if ← attempt ((invalidTimeWindow req).mapError .builtin) then
      reject setting self c envelope i req "InvalidTimeWindow"
        (py "expectedArrivalTimeAtChargingPoint must be before requestedTimeForDeparture")
    else resolve setting self c envelope i req

/-- The second loop: the ids that are kept. -/
def processRequests (envelope : VDVMessageEnvelope) : ℕ → List Json → Handling (List Json)
  | _, [] => pure []
  | i, reqData :: rest => do
    modify fun w => { w with begun := w.begun ++ [reqData] }
    let processed ← processRequest setting self c envelope i reqData
    let processedIds ← processRequests envelope (i + 1) rest
    return processed.toList ++ processedIds

/-- The requests that are not kept are terminated; what fails here is passed over. -/
def terminateAbsent (processedIds : List Json) : Handling Unit :=
  match self.stored with
  | some depotId =>
    recover
      (do
        execute c .terminate (terminateRequestsNotInList depotId self.presystemId processedIds)
        perform c .timestamp .database)
      fun _ => pure ()
  | none => pure ()

def chargingRequestList (payload : Json) : Except PyError (List Json) := do
  (← payload.get "chargingRequestList" (.arr [])).iter

/-- The second loop, and what follows it. -/
def processMessage (envelope : VDVMessageEnvelope) (items : List Json) : Handling Unit := do
  let processedIds ← processRequests setting self c envelope 0 items
  terminateAbsent self c processedIds
  send c (.send none) (buildProvideChargingRequestsResponse setting envelope)

def refuseDuplicate (envelope : VDVMessageEnvelope) (crid : Json) : Handling Unit := do
  send c (.send none) (buildError setting envelope "DuplicateRequestId"
    (py "Duplicate chargingRequestId in message: " ++ setting.str crid) [(py "chargingRequestId", crid)])
  logError self c none

def handleProvideChargingRequests (envelope : VDVMessageEnvelope) : Handling Unit := do
  let items ← attempt ((chargingRequestList envelope.payload).mapError .builtin)
  match ← attempt ((duplicateRequestId [] items).mapError .builtin) with
  | some crid => refuseDuplicate setting self c envelope crid
  | none => processMessage setting self c envelope items

/-! ## The other messages -/

def handleBootNotification (envelope : VDVMessageEnvelope) : Handling Unit := do
  if self.stored.isSome then recover (perform c .logConnection .database) fun _ => pure ()
  send c (.send none) {
    messageType := 2
    presystemId := envelope.presystemId
    messageId := py "boot-response-" ++ setting.str envelope.messageId
    messageAction := .str (py "BootNotification")
    payload := [(py "status", .str (py "Accepted"))] }

def handleRequest (envelope : VDVMessageEnvelope) : Handling Unit :=
  if envelope.messageAction = .str (py "ProvideChargingRequests") then
    handleProvideChargingRequests setting self c envelope
  else if envelope.messageAction = .str (py "BootNotification") then handleBootNotification setting self c envelope
  else do
    send c (.send none) (buildError setting envelope "UnsupportedAction"
      (py "Action not supported: " ++ setting.str envelope.messageAction) [])
    logError self c none

/-- `_handle_error`: the fields of the payload are read for a log line. -/
def handleError (envelope : VDVMessageEnvelope) : Handling Unit := do
  let _ ← attempt ((envelope.payload.get "errorCode" (.str (py "UnknownError"))).mapError .builtin)
  let _ ← attempt ((envelope.payload.get "errorDescription" (.str (py "Unknown error"))).mapError .builtin)
  return ()

/-- The message types by number; `True` and `1.0` are 1. -/
def route (envelope : VDVMessageEnvelope) : Handling Unit :=
  if envelope.messageType.same (.int 1) then handleRequest setting self c envelope
  else if envelope.messageType.same (.int 2) then pure ()
  else if envelope.messageType.same (.int 3) then handleError envelope
  else pure ()

/-! ## Frames -/

/-- The reply to a frame that is too large, or that even the soft mode cannot read. -/
def genericError (messageId action : String) (errorCode : String) (errorDescription : PyStr) : Reply where
  messageType := 3
  presystemId := .str self.presystemId
  messageId := py messageId
  messageAction := .str (py action)
  payload := [(py "errorCode", .str (py errorCode)), (py "errorDescription", .str errorDescription)]

def replyInvalid (rawMessage : String) (e : VDV463ValidationError) : Handling Unit := do
  logError self c none
  recover
    (do
      let envelope ← attempt (parseMessage setting rawMessage (some .soft))
      send c (.send none) (buildError setting envelope e.errorCode e.message e.details))
    fun _ => send c .sendGeneric (genericError self "parse-error" "Unknown" e.errorCode e.message)

def replyRefused (rawMessage : String) (reason : PyStr) : Handling Unit := do
  recover
    (do
      let envelope ← attempt (parseMessage setting rawMessage (some .soft))
      send c (.send none) (buildError setting envelope "RateLimitExceeded" (py "Rate limit exceeded: " ++ reason) []))
    fun _ => pure ()
  logError self c none

def handleAdmitted (rawMessage : String) : Handling Unit :=
  match parseMessage setting rawMessage (some self.validationMode) with
  | .error (.validation e) => replyInvalid setting self c rawMessage e
  | .error e => attempt (.error e)
  | .ok envelope => route setting self c envelope

/-- The body of `_handle_message`. -/
def messageBody (rawMessage : String) : Handling Unit :=
  if self.maxMessageSize < rawMessage.utf8ByteSize then do
    send c (.send none) (genericError self "error-message-too-large" "ProvideChargingRequests" "MessageTooLarge"
      (py "Message size " ++ setting.str (.int rawMessage.utf8ByteSize) ++ py " exceeds limit " ++
        setting.str (.int self.maxMessageSize) ++ py " bytes"))
    logError self c none
  else
    match c.refusal with
    | some reason => replyRefused setting self c rawMessage reason
    | none => handleAdmitted setting self c rawMessage

/-- `_handle_message`: an exception is logged. -/
def handleMessage (rawMessage : String) : Handling Unit :=
  recover (messageBody setting self c rawMessage) fun
    | .builtin .jsonDecodeError => logError self c none
    | _ => pure ()

end Methods

end FavoniusBackend.Vdv463
