import FavoniusBackend.Lib.Run
import FavoniusBackend.Lib.Tasks
import FavoniusBackend.Lib.Text

/-!
# The queue of charging commands

A row of `charging_command_queue` is inserted as pending.  Two coroutines drain the table: the consumer
fetches the pending rows of all charge points, and the session of a charge point replays the pending rows of
this charge point after a BootNotification.  Both push a profile to the charger, wait for the answer and mark
the row; a scan marks the rows that have expired.

Every statement is atomic, and the coroutines interleave at their awaits: a drainer holds the rows it has
fetched, pushes the first one, and marks it at a later step.  Rows are numbered in the order of their
insertion and sessions in the order of their connection.  The log of the pushes is kept beside the state.
-/

namespace FavoniusBackend.Ocpp.CommandQueue

open Lib

/-! ### The table -/

/-- `set_charging_profile`, or one of the commands that have a handler of their own. -/
inductive CommandType
  | setChargingProfile
  | other
  deriving DecidableEq, Repr

/-- The fields of a profile that decide whether it can be sent; they may be missing. -/
structure Payload where
  chargingProfilePurpose : Option String := none
  chargingProfileKind : Option String := none
  deriving DecidableEq, Repr

structure Command where
  chargePointId : String
  connectorId : ℕ
  commandType : CommandType := .setChargingProfile
  payload : Payload := {}
  deriving DecidableEq, Repr

inductive Status
  | pending
  | sent
  | acked
  | failed
  | expired
  deriving DecidableEq, Repr

structure Row where
  command : Command
  status : Status := .pending
  expiresAt : ℤ
  lastError : Option String := none
  attemptCount : ℕ := 0
  deriving DecidableEq, Repr

/-- The updates `mark_command_sent`, `mark_command_acked` and `mark_command_failed` of a row: they change a
pending row only.  The first two leave the last error alone. -/
def Row.mark (status : Status) (error : Option String) (row : Row) : Row :=
  if row.status = .pending then
    { row with
      status := status
      lastError := (error.map fun e => String.ofList (e.toList.take 500)).or row.lastError
      attemptCount := row.attemptCount + 1 }
  else row

/-- The update `expire_overdue_commands` of a row. -/
def Row.expire (now : ℤ) (row : Row) : Row :=
  if row.status = .pending ∧ row.expiresAt ≤ now then { row with status := .expired } else row

/-- What a fetch selects. -/
def Row.isDue (now : ℤ) (row : Row) : Bool := decide (row.status = .pending ∧ now < row.expiresAt)

/-! ### Sessions -/

inductive Version
  | ocpp16
  | ocpp201
  deriving DecidableEq, Repr

structure Session where
  chargePointId : String
  version : Version
  isOpen : Bool := true
  deriving DecidableEq, Repr

def maxRetries : ℕ := 3

/-- `FleetChargePoint.set_charging_profile` raises before it calls the charger. -/
def Payload.isForbidden (payload : Payload) : Bool :=
  decide (payload.chargingProfilePurpose.getD "TxDefaultProfile" = "ChargePointMaxProfile" ∧
    payload.chargingProfileKind.getD "Absolute" = "Relative")

def forbiddenMessage : String :=
  "ChargePointMaxProfile with chargingProfileKind=Relative is forbidden in OCPP 1.6"

/-- `send_charging_profile` raises on this session: only the one of OCPP 1.6 checks the profile, and
nothing else gets out of it. -/
def Session.refuses (session : Session) (payload : Payload) : Bool :=
  decide (session.version = .ocpp16) && payload.isForbidden

/-- How a call of the charger ends.  An error is whatever the call raises. -/
inductive Reply
  | accepted
  | rejected
  | error
  deriving DecidableEq, Repr

/-- What `send_charging_profile` does with a reply: it returns, or calls again. -/
def Session.returns (session : Session) (attempt : ℕ) : Reply → Option Bool
  | .accepted => some true
  | .rejected | .error =>
    match session.version with
    | .ocpp16 => if attempt + 1 < maxRetries then none else some false
    | .ocpp201 => some false

/-! ### Drainers -/

inductive Source
  | consumer
  | replay (session : ℕ)
  deriving DecidableEq, Repr

/-- What a drainer is doing: it is between two rows, in the calls of a push (with the number of the call and
whether one of them was answered with a rejection), about to mark a row, or in the handler of another
command. -/
inductive Phase
  | ready (rest : List (ℕ × Command))
  | pushing (queueId : ℕ) (command : Command) (session attempt : ℕ) (rejected : Bool)
      (rest : List (ℕ × Command))
  | marking (queueId : ℕ) (status : Status) (error : Option String) (answered : Bool)
      (rest : List (ℕ × Command))
  | other (queueId : ℕ) (rest : List (ℕ × Command))
  | finished
  deriving DecidableEq, Repr

structure Drainer where
  source : Source
  phase : Phase
  deriving DecidableEq, Repr

structure Push where
  queueId : ℕ
  source : Source
  deriving DecidableEq, Repr

/-- The table, the clock, the sessions and the one registered for each charge point, the charge points that
the consumer has found offline, the drainers, and the log of the pushes. -/
structure Queue where
  rows : List Row := []
  now : ℤ := 0
  sessions : List Session := []
  registry : String → Option ℕ := fun _ => none
  offline : String → Option ℤ := fun _ => none
  drainers : List Drainer := []
  pushes : List Push := []

def Queue.init : Queue := {}

def excludedOfflineRetrySeconds : ℤ := 30

/-- The rows that satisfy a condition, oldest first, with their numbers. -/
def select (rows : List Row) (p : Row → Bool) : List (ℕ × Command) :=
  (rows.zipIdx.filter fun q => p q.1).map fun q => (q.2, q.1.command)

def Queue.fetchPendingCommands (s : Queue) (chargePointId : String) : List (ℕ × Command) :=
  select s.rows fun row => decide (row.command.chargePointId = chargePointId) && row.isDue s.now

def Queue.isExcluded (s : Queue) (chargePointId : String) : Bool :=
  match s.offline chargePointId with
  | some lastSeen => decide (s.now - lastSeen < excludedOfflineRetrySeconds)
  | none => false

/-- `_on_notify`.  The payload is `<queue_id>:<charge_point_id>`; without a colon, or without a payload, every
charge point is looked for again. -/
def Queue.onNotify (s : Queue) (payload : Option String) : Queue :=
  { s with
    offline :=
      match (payload.getD "").toList.dropWhile (· ≠ ':') with
      | [] => fun _ => none
      | _ :: chargePointId =>
        let named := Text.strip chargePointId
        if named = [] then s.offline else fun cp => if cp.toList = named then none else s.offline cp }

theorem Queue.isExcluded_onNotify (s : Queue) {queueId chargePointId : List Char} (hcolon : ':' ∉ queueId)
    (hnamed : Text.strip chargePointId ≠ []) (cp : String) :
    (s.onNotify (some (String.ofList (queueId ++ ':' :: chargePointId)))).isExcluded cp =
      (decide (cp.toList ≠ Text.strip chargePointId) && s.isExcluded cp) := by
  have hrest : (queueId ++ ':' :: chargePointId).dropWhile (· ≠ ':') = ':' :: chargePointId := by
    rw [List.dropWhile_append_of_pos fun c hc => by simpa using ne_of_mem_of_not_mem hc hcolon]
    simp
  have hoffline : (s.onNotify (some (String.ofList (queueId ++ ':' :: chargePointId)))).offline =
      fun cp => if cp.toList = Text.strip chargePointId then none else s.offline cp := by
    rw [Queue.onNotify, Option.getD_some, String.toList_ofList, hrest]
    simp only [if_neg hnamed]
  rw [Queue.isExcluded, Queue.isExcluded, hoffline]
  by_cases hcp : cp.toList = Text.strip chargePointId
  · simp [hcp]
  · simp only [ne_eq, hcp, not_false_eq_true, decide_true, Bool.true_and]
    rfl

def Queue.fetchPendingCommandsAll (s : Queue) : List (ℕ × Command) :=
  (select s.rows fun row => !s.isExcluded row.command.chargePointId && row.isDue s.now).take 200

def Queue.setPhase (s : Queue) (i : ℕ) (d : Drainer) (phase : Phase) : Queue :=
  { s with drainers := s.drainers.set i { d with phase := phase } }

def Queue.markOffline (s : Queue) (chargePointId : String) : Queue :=
  { s with offline := fun cp => if cp = chargePointId then some s.now else s.offline cp }

def Queue.markRow (s : Queue) (queueId : ℕ) (status : Status) (error : Option String) : Queue :=
  { s with rows := s.rows.modify queueId (Row.mark status error) }

/-- `send_charging_profile` is called for a row. -/
def Queue.startPush (s : Queue) (i : ℕ) (d : Drainer) (queueId : ℕ) (command : Command) (session : ℕ)
    (rest : List (ℕ × Command)) : Queue :=
  { s.setPhase i d (.pushing queueId command session 0 false rest) with
    pushes := s.pushes ++ [{ queueId := queueId, source := d.source }] }

/-- The next row of the batch: `_handle_row`, or an iteration of `replay_queued_commands`. -/
def Queue.takeRow (s : Queue) (i : ℕ) (d : Drainer) (queueId : ℕ) (command : Command)
    (rest : List (ℕ × Command)) : Queue :=
  match d.source with
  | .consumer =>
    match s.registry command.chargePointId with
    | none => (s.markOffline command.chargePointId).setPhase i d (.ready rest)
    | some session =>
      match command.commandType with
      | .setChargingProfile => s.startPush i d queueId command session rest
      | .other => s.setPhase i d (.other queueId rest)
  | .replay session =>
    match command.commandType with
    | .setChargingProfile => s.startPush i d queueId command session rest
    | .other => s.setPhase i d (.ready rest)

def Source.successStatus : Source → Status
  | .consumer => .sent
  | .replay _ => .acked

def Source.rejectedMessage : Source → String
  | .consumer => "charger Rejected SetChargingProfile"
  | .replay _ => "charger rejected SetChargingProfile"

/-- A call of the charger ends; from a closed connection nothing comes but errors. -/
def Queue.takeReply (s : Queue) (i : ℕ) (d : Drainer) (queueId : ℕ) (command : Command)
    (session attempt : ℕ) (rejected : Bool) (rest : List (ℕ × Command)) (reply : Reply) : Queue :=
  match s.sessions[session]? with
  | none => s
  | some found =>
    if found.refuses command.payload || (decide (reply ≠ .error) && !found.isOpen) then s
    else
      let rejected := rejected || decide (reply = .rejected)
      match found.returns attempt reply with
      | none => s.setPhase i d (.pushing queueId command session (attempt + 1) rejected rest)
      | some true => s.setPhase i d (.marking queueId d.source.successStatus none true rest)
      | some false =>
        s.setPhase i d (.marking queueId .failed (some d.source.rejectedMessage) rejected rest)

/-- `send_charging_profile` raises: the consumer leaves the row pending if the charge point has gone. -/
def Queue.takeRaise (s : Queue) (i : ℕ) (d : Drainer) (queueId : ℕ) (command : Command) (session : ℕ)
    (rest : List (ℕ × Command)) : Queue :=
  match s.sessions[session]? with
  | none => s
  | some found =>
    if found.refuses command.payload then
      if d.source = .consumer ∧ s.registry command.chargePointId = none then
        (s.markOffline command.chargePointId).setPhase i d (.ready rest)
      else s.setPhase i d (.marking queueId .failed (some forbiddenMessage) false rest)
    else s

/-- What happens to a drainer: it goes on to the next row, a call of the charger ends, the push raises, its
update is executed or fails, the handler of another command is done, its task is cancelled. -/
inductive DrainEvent
  | next
  | reply (reply : Reply)
  | raises
  | mark
  | markFails
  | otherDone (status : Option Status)
  | cancel
  deriving DecidableEq, Repr

def Queue.stepDrainer (s : Queue) (i : ℕ) (d : Drainer) (e : DrainEvent) : Queue :=
  match d.phase, e with
  | .ready [], .next => s.setPhase i d .finished
  | .ready ((queueId, command) :: rest), .next => s.takeRow i d queueId command rest
  | .pushing queueId command session attempt rejected rest, .reply reply =>
    s.takeReply i d queueId command session attempt rejected rest reply
  | .pushing queueId command session _ _ rest, .raises => s.takeRaise i d queueId command session rest
  | .marking queueId status error _ rest, .mark =>
    (s.markRow queueId status error).setPhase i d (.ready rest)
  | .marking _ _ _ _ rest, .markFails => s.setPhase i d (.ready rest)
  | .other queueId rest, .otherDone status =>
    (match status with
      | some status => s.markRow queueId status none
      | none => s).setPhase i d (.ready rest)
  | _, .cancel => s.setPhase i d .finished
  | _, _ => s

/-! ### Runs of the queue -/

/-- What happens: a command is inserted, the consumer is notified, time passes, a charger connects, a connection
drops, its session is cleaned up, the consumer or a session fetches, the rows are scanned for expiry, a drainer
goes on. -/
inductive Event
  | enqueue (command : Command) (expiresInMin : ℤ)
  | notify (payload : Option String)
  | pass (seconds : ℕ)
  | connect (chargePointId : String) (version : Version)
  | drop (session : ℕ)
  | cleanUp (session : ℕ)
  | drain
  | replay (session : ℕ)
  | expire
  | drainer (i : ℕ) (e : DrainEvent)
  deriving DecidableEq, Repr

def step (s : Queue) : Event → Queue
  | .enqueue command expiresInMin =>
    { s with rows := s.rows ++ [{ command := command, expiresAt := s.now + 60 * expiresInMin }] }
  | .notify payload => s.onNotify payload
  | .pass seconds => { s with now := s.now + seconds }
  | .connect chargePointId version =>
    { s with
      sessions := s.sessions ++ [{ chargePointId := chargePointId, version := version }]
      registry := fun cp => if cp = chargePointId then some s.sessions.length else s.registry cp }
  | .drop session => { s with sessions := s.sessions.modify session fun found => { found with isOpen := false } }
  | .cleanUp session =>
    { s with registry := fun cp => if s.registry cp = some session then none else s.registry cp }
  | .drain =>
    { s with drainers := s.drainers ++ [{ source := .consumer, phase := .ready s.fetchPendingCommandsAll }] }
  | .replay session =>
    match s.sessions[session]? with
    | some found =>
      if found.version = .ocpp16 then
        { s with drainers := s.drainers ++
            [{ source := .replay session
               phase := .ready (s.fetchPendingCommands found.chargePointId) }] }
      else s
    | none => s
  | .expire => { s with rows := s.rows.map (Row.expire s.now) }
  | .drainer i e =>
    match s.drainers[i]? with
    | some d => s.stepDrainer i d e
    | none => s

end FavoniusBackend.Ocpp.CommandQueue
