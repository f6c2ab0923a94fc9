import FavoniusBackend.Lib.JsonText

/-!
# Messages of the charging management interface

`adapters/vdv463/messages.py` decodes a text frame into an envelope of seven elements, checks it against the JSON schemas
and builds the replies.  In the soft mode nothing that the schemas say is enforced: whatever was decoded goes on.

The schemas and the function that checks a value against one are not part of the repository (`Setting`).  Timestamps of
replies and log lines are left out.
-/

namespace FavoniusBackend.Vdv463

open Lib
open Lib.PyJson
open Lib.JsonText

/-! ## Exceptions -/

inductive ValidationMode where
  | hard
  | soft
  deriving DecidableEq, Repr

structure VDV463ValidationError where
  message : PyStr
  errorCode : String := "SchemaValidationError"
  details : List (PyStr × Json) := []

/-- What may be raised while a frame is handled. -/
inductive PyException where
  | builtin (e : PyError)
  | validation (e : VDV463ValidationError)
  | schema
  | database
  | connectionClosed

/-- `jsonschema.ValidationError`: its message, its text and its path.  There is no text where the value that is
complained about is nested too deeply to be printed. -/
structure SchemaViolation where
  message : PyStr
  text : Option PyStr
  path : List Json

/-- What `jsonschema.validate` may raise: the violation, or something about the schema itself. -/
inductive SchemaException where
  | validationError (e : SchemaViolation)
  | other

/-- What the process runs with: its environment variables, the recursion limits, the schemas it has loaded, the schema
library, and the text of a value in a formatted string and the parser of timestamps.  `json.loads` decodes `decodeDepth`
lists and dictionaries inside one another, and `copy.deepcopy` copies values up to the height `copyDepth`; what was
decoded can be formatted and encoded. -/
structure Setting where
  production : Bool
  defaultMode : ValidationMode
  decodeDepth : ℕ
  copyDepth : ℕ
  schemas : Dict PyStr Json
  validate : Json → Json → Except SchemaException Unit
  str : Json → PyStr
  decodeErrorText : String → PyStr
  fromisoformat : PyStr → Option ℚ

/-- `str` of a value that is a string. -/
def strOfStr : Json → PyStr
  | .str s => s
  | _ => []

/-- The schemas themselves are valid, so only the value is ever complained about. -/
def Setting.OnlyValidationErrors (setting : Setting) : Prop :=
  ∀ v s, setting.validate v s ≠ .error .other

/-! ## Envelopes -/

/-- `VDVMessageEnvelope`; nothing checks the types of its fields. -/
structure VDVMessageEnvelope where
  messageType : Json
  source : Json
  presystemId : Json
  timestamp : Json
  messageId : Json
  messageAction : Json
  payload : Json
  validationStatus : String := "ok"
  validationWarnings : List PyStr := []

def Setting.schema (setting : Setting) (name : PyStr) : Option Json :=
  (setting.schemas.get? name).filter Json.truthy

def violated (title : String) (e : SchemaViolation) : PyException :=
  match e.text with
  | none => .builtin .recursionError
  | some text =>
    .validation {
      message := py title ++ e.message
      details := [(py "validation_error", .str text), (py "path", .arr e.path)] }

def validateMessageStructure (setting : Setting) (message : Json) : Except PyException Unit :=
  match setting.schema (py "MessageStructure") with
  | none => .error (.validation { message := py "MessageStructure schema not loaded", errorCode := "SchemaNotLoaded" })
  | some schema =>
    match setting.validate message schema with
    | .ok () => .ok ()
    | .error .other => .error .schema
    | .error (.validationError e) => .error (violated "Message structure validation failed: " e)

/-- An item with `priority` for `chargingPriority`. -/
def normalizeItem : Json → Json
  | .obj fields =>
    match Json.lookup fields (py "chargingPriority") with
    | some priority =>
      let fields :=
        if (Json.lookup fields (py "priority")).isSome then fields else fields ++ [(py "priority", priority)]
      .obj (fields.filter fun p => decide (p.1 ≠ py "chargingPriority"))
    | none => .obj fields
  | item => item

def deepcopy (copyDepth : ℕ) (payload : Json) : Except PyError Json :=
  if payload.height ≤ copyDepth then .ok payload else .error .recursionError

/-- The copy of a payload that is checked; the loop over its list raises where there is no list. -/
def normalizePayload (copyDepth : ℕ) (payload : Json) : Except PyError Json := do
  let payload ← deepcopy copyDepth payload
  let requests ← payload.get "chargingRequestList" (.arr [])
  let _ ← requests.iter
  match payload with
  | .obj fields =>
    return .obj (fields.map fun p =>
      match p.2 with
      | .arr items => if p.1 = py "chargingRequestList" then (p.1, .arr (items.map normalizeItem)) else p
      | _ => p)
  | v => return v

/-- The value that the schema of an action is held against. -/
def checkedPayload (setting : Setting) (payload action : Json) : Except PyError Json :=
  if action = .str (py "ProvideChargingRequests") then normalizePayload setting.copyDepth payload else .ok payload

/-- `validate_payload`: the warnings. -/
def validatePayload (setting : Setting) (payload action : Json) (mode : ValidationMode) :
    Except PyException (List PyStr) :=
  match setting.schema (setting.str action ++ py "Request"), mode with
  | none, .hard =>
    .error (.validation {
      message := py "Schema not found for action: " ++ setting.str action, errorCode := "SchemaNotLoaded" })
  | none, .soft => .ok [py "Schema not found for action: " ++ setting.str action]
  | some schema, mode =>
    match checkedPayload setting payload action with
    | .error e => .error (.builtin e)
    | .ok toValidate =>
      match setting.validate toValidate schema, mode with
      | .ok (), _ => .ok []
      | .error .other, _ => .error .schema
      | .error (.validationError e), .hard => .error (violated "Payload validation failed: " e)
      | .error (.validationError e), .soft => .ok [py "Payload validation warning: " ++ e.message]

def Setting.mode (setting : Setting) (validationMode : Option ValidationMode) : ValidationMode :=
  if setting.production then .hard else validationMode.getD setting.defaultMode

/-- `message[i] if len(message) > i else default`. -/
def itemOr (message : Json) (i : ℕ) (default : Json) : Except PyError Json := do
  if i < (← message.len) then message.item i else return default

def shortEnvelope (message : Json) : Except PyError VDVMessageEnvelope := do
  return {
    messageType := ← itemOr message 0 (.int 1)
    source := ← itemOr message 1 (.str [])
    presystemId := ← itemOr message 2 (.str [])
    timestamp := ← itemOr message 3 (.str [])
    messageId := ← itemOr message 4 (.str [])
    messageAction := ← itemOr message 5 (.str [])
    payload := ← itemOr message 6 (.obj [])
    validationStatus := "warning"
    validationWarnings := [py "Message must be an array with at least 7 elements"] }

def fullEnvelope (items : List Json) : VDVMessageEnvelope where
  messageType := items.getD 0 .null
  source := items.getD 1 .null
  presystemId := items.getD 2 .null
  timestamp := items.getD 3 .null
  messageId := items.getD 4 .null
  messageAction := items.getD 5 .null
  payload := items.getD 6 .null

def enforced (mode : ValidationMode) (checked : Except PyException Unit) : Except PyException Unit :=
  match checked, mode with
  | .error (.validation _), .soft => .ok ()
  | checked, _ => checked

/-- An array of seven elements or more. -/
def parseFull (setting : Setting) (items : List Json) (mode : ValidationMode) :
    Except PyException VDVMessageEnvelope := do
  enforced mode (validateMessageStructure setting (.arr items))
  let envelope := fullEnvelope items
  let warnings ← validatePayload setting envelope.payload envelope.messageAction mode
  return if warnings = [] then envelope
    else { envelope with validationStatus := "warning", validationWarnings := warnings }

def parseShort (message : Json) (mode : ValidationMode) : Except PyException VDVMessageEnvelope :=
  match mode with
  | .hard =>
    .error (.validation {
      message := py "Message must be an array with at least 7 elements", errorCode := "InvalidMessageStructure" })
  | .soft => (shortEnvelope message).mapError .builtin

def parseMessage (setting : Setting) (rawText : String) (validationMode : Option ValidationMode) :
    Except PyException VDVMessageEnvelope :=
  let mode := setting.mode validationMode
  match loadsWithin setting.decodeDepth rawText with
  | .error .jsonDecodeError =>
    .error (.validation {
      message := py "Invalid JSON: " ++ setting.decodeErrorText rawText, errorCode := "InvalidJSON" })
  | .error e => .error (.builtin e)
  | .ok (.arr items) => if items.length < 7 then parseShort (.arr items) mode else parseFull setting items mode
  | .ok message => parseShort message mode

/-! ## Charging requests -/

structure ChargingRequest where
  chargingRequestId : Json
  vehicleExternalId : Json
  arrivalTime : Json
  departureTime : Json
  minTargetSoc : PyFloat
  maxTargetSoc : PyFloat
  chargingPointId : Json
  expectedSocAtArrival : Option PyFloat
  priority : Json
  chargingInstruction : Json
  manualPreconditioning : Json
  automaticPreconditioning : Json
  validationStatus : String
  deriving DecidableEq

/-- A percentage becomes a fraction. -/
def normalizeSoc (soc : Json) : Except PyError Json := do
  if soc = .null then return soc
  if ← soc.gtOne then soc.percent else return soc

/-- `float(soc) if soc is not None else default`. -/
def socFloat {α : Type} (soc : Json) (some' : PyFloat → α) (default : α) : Except PyError α :=
  if soc = .null then .ok default else soc.toFloat.map some'

def parseChargingRequestItem (reqData : Json) (validationStatus : String) : Except PyError ChargingRequest := do
  let data := (← reqData.get "chargingRequestData" .null).orElse (.obj [])
  let minSoc ← data.get "minTargetSoc" (.int 0)
  let maxSoc ← data.get "maxTargetSoc" (.int 1)
  let expectedSoc ← data.get "expectedSocAtArrival" .null
  let minSoc ← normalizeSoc minSoc
  let maxSoc ← normalizeSoc maxSoc
  let expectedSoc ← normalizeSoc expectedSoc
  return {
    arrivalTime := (← data.get "expectedArrivalTimeAtChargingPoint" .null).orElse (.str [])
    departureTime := (← data.get "requestedTimeForDeparture" .null).orElse (.str [])
    chargingRequestId := ← reqData.get "chargingRequestId" (.str [])
    vehicleExternalId := ← reqData.get "vehicleId" (.str [])
    chargingPointId := ← reqData.get "chargingPointId" .null
    minTargetSoc := ← socFloat minSoc id (.finite 0)
    maxTargetSoc := ← socFloat maxSoc id (.finite 1)
    expectedSocAtArrival := ← socFloat expectedSoc some none
    priority := (← reqData.get "priority" .null).orElse (← reqData.get "chargingPriority" .null)
    chargingInstruction := ← reqData.get "chargingInstruction" (.str (py "Normal"))
    manualPreconditioning := ← reqData.get "manualPreconditioning" .null
    automaticPreconditioning := ← reqData.get "automaticPreconditioning" .null
    validationStatus }

/-! ## Replies -/

/-- A frame that is sent, without its timestamp; the source is always the management system. -/
structure Reply where
  messageType : ℕ
  presystemId : Json
  messageId : PyStr
  messageAction : Json
  payload : List (PyStr × Json)
  deriving DecidableEq

def buildError (setting : Setting) (envelope : VDVMessageEnvelope) (errorCode : String) (errorDescription : PyStr)
    (errorDetails : List (PyStr × Json)) : Reply where
  messageType := 3
  presystemId := envelope.presystemId
  messageId := py "error-" ++ setting.str envelope.messageId
  messageAction := envelope.messageAction
  payload := errorDetails.foldl (fun fields p => Dict.assign fields p.1 p.2)
    [(py "errorCode", .str (py errorCode)), (py "errorDescription", .str errorDescription)]

def buildProvideChargingRequestsResponse (setting : Setting) (envelope : VDVMessageEnvelope) : Reply where
  messageType := 2
  presystemId := envelope.presystemId
  messageId := py "response-" ++ setting.str envelope.messageId
  messageAction := .str (py "ProvideChargingRequests")
  payload := []

end FavoniusBackend.Vdv463
