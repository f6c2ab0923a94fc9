import FavoniusBackend.Lib.Guard
import FavoniusBackend.Lib.JsonObject
import FavoniusBackend.Lib.PyText
import FavoniusBackend.Reports.Timing

/-!
# Payloads of report schedules

The validation half of `api/report_schedule_timing.py`.  A payload may be any value that the JSON decoder gives, so a
check may be handed a value of a type that it does not expect: a list or a dictionary has no hash, and is not looked up
in a set.  The message of an error shows the value by its `repr`; an integer that is too long for it, or a value that
nests too deep, is not read by the decoder either.
-/

namespace FavoniusBackend.Reports.Payloads

open Lib Lib.PyJson Lib.PyText

/-! ## Values -/

inductive Kind where
  | weeklyOps
  | monthlySavings
  | monthlyConsumption
  | incident
  | compliance
  deriving DecidableEq, Repr

namespace Kind

def all : List Kind := [weeklyOps, monthlySavings, monthlyConsumption, incident, compliance]

def text : Kind → String
  | weeklyOps => "weekly_ops"
  | monthlySavings => "monthly_savings"
  | monthlyConsumption => "monthly_consumption"
  | incident => "incident"
  | compliance => "compliance"

end Kind

inductive GroupBy where
  | card
  | vehicle
  deriving DecidableEq, Repr

namespace GroupBy

def all : List GroupBy := [card, vehicle]

def text : GroupBy → String
  | card => "card"
  | vehicle => "vehicle"

end GroupBy

inductive Format where
  | pdf
  | csv
  deriving DecidableEq, Repr

namespace Format

def all : List Format := [pdf, csv]

def text : Format → String
  | pdf => "pdf"
  | csv => "csv"

end Format

inductive AutonomyMode where
  | shadow
  | proposed
  | autoNotify
  | autoSilent
  deriving DecidableEq, Repr

namespace AutonomyMode

def all : List AutonomyMode := [shadow, proposed, autoNotify, autoSilent]

def text : AutonomyMode → String
  | shadow => "shadow"
  | proposed => "proposed"
  | autoNotify => "auto_notify"
  | autoSilent => "auto_silent"

end AutonomyMode

def frequencies : List Frequency := [.weekly, .monthly, .quarterly]

abbrev Between (lo hi : ℤ) := { n : ℤ // lo ≤ n ∧ n ≤ hi }

structure NormalizedRecipient where
  emailAddress : PyStr
  format : Format
  position : ℕ
  deriving DecidableEq, Repr

structure NormalizedScheduleInput where
  name : PyStr
  kind : Kind
  groupBy : Option GroupBy
  frequency : Frequency
  dayOfMonth : Option (Between 1 28)
  dayOfWeek : Option (Between 0 6)
  timeOfDay : TimeOfDay
  autonomyMode : AutonomyMode
  isActive : Bool
  recipients : List NormalizedRecipient
  deriving DecidableEq

/-! ## Checks of one value -/

inductive Error where
  | scheduleValidationError (message : PyStr)
  | other (e : PyError)
  deriving DecidableEq, Repr

/-- Methods of the built-in types: `repr` and `str.lower`. -/
structure Builtins where
  repr : Json → PyStr
  lower : PyStr → PyStr

section

variable (b : Builtins)

def invalid {α : Type} (message : PyStr) : Except Error α := .error (.scheduleValidationError message)

/-- `value in values`, for a set of the texts of an enumeration. -/
def member {α : Type} (all : List α) (text : α → String) (value : Json) : Except Error (Option α) :=
  if value.hashable then .ok (all.find? fun a => decide (value = .str (py (text a)))) else .error (.other .typeError)

/-- The check that the fields of an enumeration share; the message ends in the value. -/
def oneOf {α : Type} (all : List α) (text : α → String) (message : String) (value : Json) : Except Error α := do
  match ← member all text value with
  | some a => return a
  | none => invalid (py message ++ b.repr value)

def parseHhMm (value : Json) : Except Error TimeOfDay :=
  match value with
  | .str s =>
    let malformed := py "timeOfDay " ++ b.repr value ++ py " must be in 'HH:mm' format"
    match s.splitOn ':'.toNat with
    | [hours, minutes] =>
      if hours.length ≠ 2 ∨ minutes.length ≠ 2 then invalid malformed
      else if !(isDigit hours && isDigit minutes) then invalid malformed
      else
        match int hours, int minutes with
        | .ok hour, .ok minute =>
          if h : (0 ≤ hour ∧ hour ≤ 23) ∧ 0 ≤ minute ∧ minute ≤ 59 then .ok ⟨hour, minute, h.1, h.2⟩
          else invalid (py "timeOfDay " ++ b.repr value ++ py " is out of range")
        | .error e, _ => .error (.other e)
        | _, .error e => .error (.other e)
    | _ => invalid malformed
  | _ => invalid (py "timeOfDay must be a 'HH:mm' string")

/-- `f"{n:02d}"` of a number below 100. -/
def twoDigits (n : ℤ) : PyStr := ['0'.toNat + (n / 10).toNat, '0'.toNat + (n % 10).toNat]

def formatHhMm (t : TimeOfDay) : PyStr := twoDigits t.hour ++ ':'.toNat :: twoDigits t.minute

def validateEmail (value : Json) : Except Error PyStr :=
  let message := py "Invalid email address: " ++ b.repr value
  match value with
  | .str s =>
    if '@'.toNat ∉ s then invalid message
    else
      let domain := (s.dropWhile (· != '@'.toNat)).tail
      if s.takeWhile (· != '@'.toNat) = [] ∨ '.'.toNat ∉ domain ∨ domain.getLast? = some '.'.toNat then
        invalid message
      else .ok s
  | _ => invalid message

def validateRecipient (seen : List (PyStr × Format)) (position : ℕ) (item : Json) :
    Except Error NormalizedRecipient :=
  match item with
  | .obj fields => do
    let email ← validateEmail b
      ((JsonObject.get fields "emailAddress").orElse (JsonObject.get fields "email_address"))
    let format ← oneOf b Format.all Format.text "recipient format must be one of ['csv', 'pdf']; got "
      (JsonObject.get fields "format")
    Guard.require ((b.lower email, format) ∉ seen) (.scheduleValidationError
      (py "duplicate recipient (" ++ email ++ py (", " ++ format.text ++ ") — (email, format) must be unique")))
    return { emailAddress := email, format := format, position := position }
  | _ => invalid (py "each recipient must be an object")

def validateItems (seen : List (PyStr × Format)) (position : ℕ) :
    List Json → Except Error (List NormalizedRecipient)
  | [] => .ok []
  | item :: rest => do
    let recipient ← validateRecipient b seen position item
    let recipients ← validateItems ((b.lower recipient.emailAddress, recipient.format) :: seen) (position + 1) rest
    return recipient :: recipients

def validateRecipients (raw : Json) : Except Error (List NormalizedRecipient) :=
  match raw with
  | .null => .ok []
  | .arr items => validateItems b [] 0 items
  | _ => invalid (py "recipients must be an array")

def boundedInt (lo hi : ℤ) (message : String) (value : Json) : Except Error (Between lo hi) :=
  match value with
  | .int n => if h : lo ≤ n ∧ n ≤ hi then .ok ⟨n, h⟩ else invalid (py message)
  | _ => invalid (py message)

def validateCadence (frequency : Frequency) (dayOfMonth dayOfWeek : Json) :
    Except Error (Option (Between 1 28) × Option (Between 0 6)) :=
  match frequency with
  | .weekly => do
    Guard.require (dayOfWeek ≠ .null) (.scheduleValidationError (py "weekly schedules require dayOfWeek"))
    let day ← boundedInt 0 6 "dayOfWeek must be an int in 0..6 (0=Sun)" dayOfWeek
    Guard.require (dayOfMonth = .null) (.scheduleValidationError (py "weekly schedules must not set dayOfMonth"))
    return (none, some day)
  | frequency => do
    Guard.require (dayOfMonth ≠ .null)
      (.scheduleValidationError (py (frequency.text ++ " schedules require dayOfMonth")))
    let day ← boundedInt 1 28 "dayOfMonth must be an int in 1..28" dayOfMonth
    Guard.require (dayOfWeek = .null)
      (.scheduleValidationError (py (frequency.text ++ " schedules must not set dayOfWeek")))
    return (some day, none)

def validateKindAndGroupBy (kind groupBy : Json) : Except Error (Kind × Option GroupBy) := do
  let kind ← oneOf b Kind.all Kind.text
    "kind must be one of ['compliance', 'incident', 'monthly_consumption', 'monthly_savings', 'weekly_ops']; got " kind
  let group ← if groupBy = .null then .ok none
    else oneOf b GroupBy.all GroupBy.text "groupBy must be one of ['card', 'vehicle']; got " groupBy >>= fun group =>
      .ok (some group)
  Guard.require (¬ (kind = .monthlyConsumption ∧ group = none))
    (.scheduleValidationError (py "groupBy is required for kind 'monthly_consumption'"))
  return (kind, group)

def validateName (value : Json) : Except Error PyStr :=
  match value with
  | .str s => if strip s = [] then invalid (py "name is required") else .ok s
  | _ => invalid (py "name is required")

def validateIsActive (value : Json) : Except Error Bool :=
  match value with
  | .bool active => .ok active
  | _ => invalid (py "isActive must be a boolean")

/-! ## Payloads -/

def normalizeFields (payload : JsonObject) : Except Error NormalizedScheduleInput := do
  let name ← validateName (payload.get "name")
  let frequency ← oneOf b frequencies Frequency.text
    "frequency must be one of ['monthly', 'quarterly', 'weekly']; got " (payload.get "frequency")
  let kind ← validateKindAndGroupBy b (payload.get "kind") (payload.get "groupBy")
  let day ← validateCadence frequency (payload.get "dayOfMonth") (payload.get "dayOfWeek")
  Guard.require (payload.get "timeOfDay" ≠ .null) (.scheduleValidationError (py "timeOfDay is required"))
  let timeOfDay ← parseHhMm b (payload.get "timeOfDay")
  let autonomyMode ← oneOf b AutonomyMode.all AutonomyMode.text
    "autonomyMode must be one of ['auto_notify', 'auto_silent', 'proposed', 'shadow']; got "
    (payload.get "autonomyMode")
  let isActive ← validateIsActive ((Dict.lookup payload (py "isActive")).getD (.bool true))
  let recipients ← validateRecipients b (payload.get "recipients")
  return {
    name := strip name
    kind := kind.1
    groupBy := kind.2
    frequency := frequency
    dayOfMonth := day.1
    dayOfWeek := day.2
    timeOfDay := timeOfDay
    autonomyMode := autonomyMode
    isActive := isActive
    recipients := recipients }

def normalizeCreatePayload (payload : Json) : Except Error NormalizedScheduleInput :=
  match payload with
  | .obj fields => normalizeFields b fields
  | _ => invalid (py "schedule input must be an object")

/-- The row of a schedule. -/
structure Current where
  name : PyStr
  kind : Kind
  groupBy : Option GroupBy
  frequency : Frequency
  dayOfMonth : Option (Between 1 28)
  dayOfWeek : Option (Between 0 6)
  timeOfDay : TimeOfDay
  autonomyMode : AutonomyMode
  isActive : Bool

/-- A text, or `None`. -/
def textOrNull {α : Type} (text : α → String) : Option α → Json
  | some a => .str (py (text a))
  | none => .null

/-- A day, or `None`. -/
def dayOrNull {lo hi : ℤ} : Option (Between lo hi) → Json
  | some day => .int day
  | none => .null

def Current.payload (c : Current) : JsonObject :=
  [(py "name", .str c.name), (py "kind", .str (py c.kind.text)), (py "groupBy", textOrNull GroupBy.text c.groupBy),
    (py "frequency", .str (py c.frequency.text)), (py "dayOfMonth", dayOrNull c.dayOfMonth),
    (py "dayOfWeek", dayOrNull c.dayOfWeek), (py "timeOfDay", .str (formatHhMm c.timeOfDay)),
    (py "autonomyMode", .str (py c.autonomyMode.text)), (py "isActive", .bool c.isActive)]

def wireKeys : List String :=
  ["name", "kind", "groupBy", "frequency", "dayOfMonth", "dayOfWeek", "timeOfDay", "autonomyMode", "isActive"]

/-- The row under the members that the patch has; a change of the frequency clears the day that the patch does not
set. -/
def merged (patch : JsonObject) (c : Current) : JsonObject :=
  let overlaid := wireKeys.foldl (fun m key => match Dict.lookup patch (py key) with
    | some value => m.set key value
    | none => m) c.payload
  let weekly := if patch.get "frequency" = .str (py "weekly") ∧ Dict.lookup patch (py "dayOfMonth") = none
    then overlaid.set "dayOfMonth" .null else overlaid
  let monthly := if (patch.get "frequency" = .str (py "monthly") ∨ patch.get "frequency" = .str (py "quarterly")) ∧
      Dict.lookup patch (py "dayOfWeek") = none
    then weekly.set "dayOfWeek" .null else weekly
  monthly.set "recipients" ((Dict.lookup patch (py "recipients")).getD (.arr []))

def normalizePatchPayload (patch : Json) (c : Current) : Except Error NormalizedScheduleInput :=
  match patch with
  | .obj fields => normalizeCreatePayload b (.obj (merged fields c))
  | _ => invalid (py "patch must be an object")

end

end FavoniusBackend.Reports.Payloads
