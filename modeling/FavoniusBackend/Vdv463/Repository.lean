import FavoniusBackend.Vdv463.Messages

/-!
# The charging requests of the presystems

`adapters/vdv463/repository.py` keeps one row for each depot, presystem and request id.  An insert of a known request
replaces its row; the two updates that terminate requests change the status only.
-/

namespace FavoniusBackend.Vdv463

open Lib
open Lib.PyJson

inductive Status where
  | active
  | completed
  | terminated
  deriving DecidableEq, Repr

/-- The key of `vdv463_charging_requests`. -/
structure RequestKey where
  depotId : PyStr
  presystemId : PyStr
  chargingRequestId : Json
  deriving DecidableEq

/-- The other columns. -/
structure RequestRow where
  vehicleId : PyStr
  chargingPointId : Option PyStr
  priority : Json
  chargingInstruction : Json
  expectedArrival : Option ℚ
  expectedSocAtArrival : Option PyFloat
  minTargetSoc : PyFloat
  maxTargetSoc : PyFloat
  requestedDeparture : Option ℚ
  preconditioningType : Option String
  preconditioningStart : Option ℚ
  ambientTemperature : Json
  requestedStartTime : Option ℚ
  requestedFinishTime : Option ℚ
  hvacAuxPower : Json
  systemAuxPower : Json
  messageId : Json
  status : Status
  validationStatus : String
  deriving DecidableEq

abbrev Requests := Dict RequestKey RequestRow

def parseIso (fromisoformat : PyStr → Option ℚ) (s : Json) : Except PyError (Option ℚ) :=
  match s with
  | .str s => .ok (fromisoformat (if s.getLast? = some 90 then s.dropLast ++ py "+00:00" else s))
  | _ => .error .attributeError

/-- `_parse_iso(s) if s else None`. -/
def parseIsoIf (fromisoformat : PyStr → Option ℚ) (s : Json) : Except PyError (Option ℚ) :=
  if s.truthy then parseIso fromisoformat s else .ok none

/-- `_parse_iso(s) if isinstance(s, str) else None`; the empty string has no time either. -/
def parseIsoText (fromisoformat : PyStr → Option ℚ) (s : Json) : Except PyError (Option ℚ) :=
  match s with
  | .str [] => .ok none
  | .str s => parseIso fromisoformat (.str s)
  | _ => .ok none

/-- `options.get(key)` if there are options. -/
def optionOf (options : Json) (key : String) : Except PyError Json :=
  if options.truthy then options.get key .null else .ok .null

/-- The row that `upsert_charging_request` writes. -/
def requestRow (fromisoformat : PyStr → Option ℚ) (req : ChargingRequest) (vehicleId : PyStr)
    (chargingPointId : Option PyStr) (messageId : Json) : Except PyError RequestRow := do
  let precondStart ← optionOf req.manualPreconditioning "hvacPreconditioningStartTime"
  let hvacAux ← optionOf req.manualPreconditioning "hvacAuxiliaryConsumerPower"
  let systemAux ← optionOf req.manualPreconditioning "systemAuxiliaryConsumerPower"
  let ambientTemp ← optionOf req.automaticPreconditioning "ambientTemperature"
  let reqStart ← optionOf req.automaticPreconditioning "requestedStartTime"
  let reqFinish ← optionOf req.automaticPreconditioning "requestedFinishTime"
  return {
    expectedArrival := ← parseIsoIf fromisoformat req.arrivalTime
    requestedDeparture := ← parseIsoIf fromisoformat req.departureTime
    preconditioningStart := ← parseIsoText fromisoformat precondStart
    requestedStartTime := ← parseIsoText fromisoformat reqStart
    requestedFinishTime := ← parseIsoText fromisoformat reqFinish
    vehicleId
    chargingPointId
    priority := req.priority.orElse (.int 1)
    chargingInstruction := req.chargingInstruction
    expectedSocAtArrival := req.expectedSocAtArrival
    minTargetSoc := req.minTargetSoc
    maxTargetSoc := req.maxTargetSoc
    preconditioningType :=
      if req.manualPreconditioning.truthy then some "manual"
      else if req.automaticPreconditioning.truthy then some "automatic" else none
    ambientTemperature := ambientTemp
    hvacAuxPower := hvacAux
    systemAuxPower := systemAux
    messageId
    status := if req.chargingInstruction = .str (py "Terminate") then .terminated else .active
    validationStatus := if req.validationStatus = "" then "ok" else req.validationStatus }

/-- The statement of `upsert_charging_request`. -/
def upsertChargingRequest (key : RequestKey) (row : RequestRow) (requests : Requests) : Requests := requests.set key row

def setChargingRequestTerminated (key : RequestKey) (requests : Requests) : Requests :=
  requests.mapWithKey fun k row => if k = key then { row with status := .terminated } else row

/-- `terminate_requests_not_in_list`; an empty list has a statement of its own. -/
def terminateRequestsNotInList (depotId presystemId : PyStr) (keepChargingRequestIds : List Json)
    (requests : Requests) : Requests :=
  if keepChargingRequestIds = [] then
    requests.mapWithKey fun k row =>
      if k.depotId = depotId ∧ k.presystemId = presystemId ∧ row.status = .active then
        { row with status := .terminated }
      else row
  else
    requests.mapWithKey fun k row =>
      if k.depotId = depotId ∧ k.presystemId = presystemId ∧ row.status = .active ∧
          k.chargingRequestId ∉ keepChargingRequestIds then
        { row with status := .terminated }
      else row

/-! ## What the statements do to a status -/

def statusOf (requests : Requests) (key : RequestKey) : Option Status := (requests.get? key).map RequestRow.status

theorem statusOf_upsert (key key' : RequestKey) (row : RequestRow) (requests : Requests) :
    statusOf (upsertChargingRequest key row requests) key' =
      if key' = key then some row.status else statusOf requests key' := by
  rw [statusOf, upsertChargingRequest, Dict.get?_set]
  split
  · rfl
  · rfl

theorem statusOf_setTerminated (key key' : RequestKey) (requests : Requests) :
    statusOf (setChargingRequestTerminated key requests) key' =
      if key' = key then (statusOf requests key').map fun _ => .terminated else statusOf requests key' := by
  rw [statusOf, setChargingRequestTerminated, Dict.get?_mapWithKey, statusOf]
  cases requests.get? key' with
  | none => simp
  | some row =>
    simp only [Option.map_some]
    split
    · rfl
    · rfl

theorem statusOf_terminateRequestsNotInList (depotId presystemId : PyStr) (keep : List Json) (key : RequestKey)
    (requests : Requests) :
    statusOf (terminateRequestsNotInList depotId presystemId keep requests) key =
      if key.depotId = depotId ∧ key.presystemId = presystemId ∧ statusOf requests key = some .active ∧
          key.chargingRequestId ∉ keep then some .terminated
      else statusOf requests key := by
  unfold terminateRequestsNotInList
  split
  · rename_i hnil
    rw [statusOf, Dict.get?_mapWithKey, statusOf, hnil]
    cases requests.get? key with
    | none => simp
    | some row =>
      simp only [Option.map_some, Option.some.injEq, List.not_mem_nil, not_false_eq_true, and_true]
      split
      · rfl
      · rfl
  · rw [statusOf, Dict.get?_mapWithKey, statusOf]
    cases requests.get? key with
    | none => simp
    | some row =>
      simp only [Option.map_some, Option.some.injEq]
      split
      · rfl
      · rfl

end FavoniusBackend.Vdv463
