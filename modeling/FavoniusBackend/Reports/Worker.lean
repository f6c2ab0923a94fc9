import FavoniusBackend.Lib.Dict
import FavoniusBackend.Lib.Run
import FavoniusBackend.Reports.Periods

/-!
# The report worker

`_tick` of `api/report_schedules.py`, the run that it executes and the edit of a schedule in `api/main.py`, one statement a
step.  A worker is at a `Phase`; each call that it waits for gives an `Answer`, which may be an exception before or after
the statement took effect.  It may stop anywhere and starts again with a new tick, on a clock of its own.

A run is known by its schedule and slot, as the unique constraint says.  `version` counts the edits that changed when a
schedule fires; no statement reads it.
-/

namespace FavoniusBackend.Reports

open Lib
open Lib.Run

/-! ## Tables -/

abbrev ScheduleId := String

abbrev ReportId := String

inductive AutonomyMode where
  | shadow
  | proposed
  | autoNotify
  | autoSilent
  deriving DecidableEq, Repr

inductive RunStatus where
  | succeeded
  | failed
  | skipped
  | pendingApproval
  deriving DecidableEq, Repr

/-- A row of `report_schedules`. -/
structure Schedule where
  depotId : String
  cadence : Cadence
  autonomyMode : AutonomyMode
  isActive : Bool
  nextRunAt : Option ℤ
  lastRunAt : Option ℤ
  lastRunStatus : Option RunStatus
  version : ℕ
  deriving DecidableEq

structure RunKey where
  scheduleId : ScheduleId
  scheduledFor : ℤ
  deriving DecidableEq

/-- A row of `schedule_runs`. -/
structure ScheduleRun where
  reportId : Option ReportId
  triggeredAt : ℤ
  completedAt : Option ℤ
  status : RunStatus
  errorMessage : Option String
  deriving DecidableEq

/-- The two tables, and the clock of the database. -/
structure Database where
  schedules : Dict ScheduleId Schedule
  runs : Dict RunKey ScheduleRun
  now : ℤ

/-! ## Statements -/

def claimedRun (now : ℤ) : ScheduleRun where
  reportId := none
  triggeredAt := now
  completedAt := none
  status := .skipped
  errorMessage := none

/-- `claim_run`: a slot that has a row is left alone. -/
def claimRun (db : Database) (key : RunKey) : Database :=
  match db.runs.get? key with
  | some _ => db
  | none => { db with runs := db.runs.set key (claimedRun db.now) }

def updateRun (db : Database) (key : RunKey) (f : ScheduleRun → ScheduleRun) : Database :=
  match db.runs.get? key with
  | some run => { db with runs := db.runs.set key (f run) }
  | none => db

def finalizeRun (db : Database) (key : RunKey) (status : RunStatus) (reportId : Option ReportId)
    (errorMessage : Option String) : Database :=
  updateRun db key fun run =>
    { run with status := status, reportId := reportId, errorMessage := errorMessage, completedAt := some db.now }

def persistRunReportId (db : Database) (key : RunKey) (reportId : ReportId) : Database :=
  updateRun db key fun run => if run.completedAt = none then { run with reportId := some reportId } else run

def isStale (db : Database) (key : RunKey) (threshold : ℤ) : Bool :=
  match db.runs.get? key with
  | some run => decide (run.completedAt = none ∧ run.triggeredAt ≤ threshold)
  | none => false

def retryStale (db : Database) (key : RunKey) (threshold : ℤ) : Database :=
  if isStale db key threshold then updateRun db key fun run => { run with triggeredAt := db.now } else db

def isInFlight (db : Database) (key : RunKey) (threshold : ℤ) : Bool :=
  match db.runs.get? key with
  | some run => decide (run.completedAt = none ∧ threshold < run.triggeredAt)
  | none => false

def updateSchedule (db : Database) (id : ScheduleId) (f : Schedule → Schedule) : Database :=
  match db.schedules.get? id with
  | some row => { db with schedules := db.schedules.set id (f row) }
  | none => db

/-- The last statement of a slot: after a run of its own the worker writes the next slot whatever the row says by then, and
otherwise only if the row is still on this one. -/
def advanceSchedule (db : Database) (id : ScheduleId) (scheduledFor nextAt : ℤ) (terminalStatus : Option RunStatus) :
    Database :=
  match terminalStatus with
  | some status =>
    updateSchedule db id fun row =>
      { row with nextRunAt := some nextAt, lastRunAt := some scheduledFor, lastRunStatus := some status }
  | none =>
    updateSchedule db id fun row =>
      if row.nextRunAt = some scheduledFor then { row with nextRunAt := some nextAt } else row

/-! ## A tick -/

/-- What the process runs with: the zones that are known and the zone of each depot. -/
structure Setting where
  zones : String → Option ZoneInfo
  timezoneOf : String → String

def Setting.nextRunAt (setting : Setting) (row : Schedule) (cadence : Cadence) (u : ℤ) :
    Except ScheduleValidationError ℤ :=
  cadence.nextRunAt setting.zones (setting.timezoneOf row.depotId) u

structure Due where
  id : ScheduleId
  row : Schedule
  scheduledFor : ℤ

/-- The query of a tick. -/
def dueSchedules (db : Database) (now : ℤ) : List Due :=
  db.schedules.items.filterMap fun p =>
    p.2.nextRunAt.bind fun s => if p.2.isActive ∧ s ≤ now then some ⟨p.1, p.2, s⟩ else none

/-- The turn of one schedule: the time of the tick, the schedule, and those after it. -/
structure Frame where
  now : ℤ
  due : Due
  rest : List Due

def Frame.key (f : Frame) : RunKey := ⟨f.due.id, f.due.scheduledFor⟩

/-- An hour, in microseconds. -/
def staleAfter : ℤ := 3600000000

def Frame.staleThreshold (f : Frame) : ℤ := f.now - staleAfter

/-- Where `execute_schedule_run` is. -/
inductive Execution where
  | resolveMode
  | skip
  | fetchRun (mode : AutonomyMode)
  | generate (mode : AutonomyMode)
  | generationFailed
  | persistReport (mode : AutonomyMode) (reportId : ReportId)
  | propose (reportId : ReportId)
  | deliver (mode : AutonomyMode) (reportId : ReportId)
  | notify (reportId : ReportId)
  | succeed (reportId : ReportId)

/-- Where a worker is. -/
inductive Phase where
  | idle
  | loop (now : ℤ) (due : List Due)
  | claiming (f : Frame)
  | executing (f : Frame) (e : Execution)
  | failing (f : Frame)
  | checkingStale (f : Frame)
  | checkingInFlight (f : Frame)
  | advancing (f : Frame) (terminalStatus : Option RunStatus) (nextAt : ℤ)

/-- The answer to the call that a worker waits for: an exception, after the statement took effect or not; and what the
surroundings give. -/
structure Answer where
  raises : Option Bool
  now : ℤ
  mode : Option AutonomyMode
  reportId : Option ReportId
  draftInserted : Bool
  error : String

def Answer.commit (a : Answer) (db db' : Database) : Database := if a.raises = some false then db else db'

section Step

variable (setting : Setting)

def handled (f : Frame) (terminalStatus : Option RunStatus) : Phase :=
  match setting.nextRunAt f.due.row f.due.row.cadence f.due.scheduledFor with
  | .ok nextAt => .advancing f terminalStatus nextAt
  | .error _ => .loop f.now f.rest

def withReport (f : Frame) (mode : AutonomyMode) (reportId : ReportId) : Phase :=
  .executing f (if mode = .proposed then .propose reportId else .deliver mode reportId)

def finishRun (db : Database) (f : Frame) (a : Answer) (status : RunStatus) (reportId : Option ReportId)
    (errorMessage : Option String) : Database × Phase :=
  (a.commit db (finalizeRun db f.key status reportId errorMessage),
    if a.raises.isSome then .failing f else handled setting f (some status))

/-- `execute_schedule_run`. -/
def executeStep (db : Database) (f : Frame) (e : Execution) (a : Answer) : Database × Phase :=
  match e with
  | .resolveMode =>
    let mode := a.mode.getD f.due.row.autonomyMode
    (db,
      if (setting.zones (setting.timezoneOf f.due.row.depotId)).isNone ∨ a.raises.isSome then .failing f
      else .executing f (if mode = .shadow then .skip else .fetchRun mode))
  | .skip => finishRun setting db f a .skipped none none
  | .fetchRun mode =>
    (db,
      if a.raises.isSome then .failing f
      else match (db.runs.get? f.key).bind ScheduleRun.reportId with
        | some reportId => withReport f mode reportId
        | none => .executing f (.generate mode))
  | .generate mode =>
    (db,
      .executing f (match a.reportId with
        | some reportId => if a.raises.isSome then .generationFailed else .persistReport mode reportId
        | none => .generationFailed))
  | .generationFailed => finishRun setting db f a .failed none (some a.error)
  | .persistReport mode reportId =>
    (a.commit db (persistRunReportId db f.key reportId),
      if a.raises.isSome then .failing f else withReport f mode reportId)
  | .propose reportId =>
    if a.draftInserted then finishRun setting db f a .pendingApproval (some reportId) none
    else finishRun setting db f a .skipped (some reportId)
      (some "A report draft for this schedule and period is already pending approval")
  | .deliver mode reportId =>
    (db,
      if a.raises.isSome then .failing f
      else .executing f (if mode = .autoNotify then .notify reportId else .succeed reportId))
  | .notify reportId => (db, .executing f (.succeed reportId))
  | .succeed reportId => finishRun setting db f a .succeeded (some reportId) none

def workerStep (db : Database) (phase : Phase) (a : Answer) : Database × Phase :=
  match phase with
  | .idle => (db, if a.raises.isSome then .idle else .loop a.now (dueSchedules db a.now))
  | .loop _ [] => (db, .idle)
  | .loop now (due :: rest) => (db, if a.raises.isSome then .loop now rest else .claiming ⟨now, due, rest⟩)
  | .claiming f =>
    (a.commit db (claimRun db f.key),
      if a.raises.isSome then .idle
      else if (db.runs.get? f.key).isSome then .checkingStale f else .executing f .resolveMode)
  | .executing f e => executeStep setting db f e a
  | .failing f =>
    (a.commit db (finalizeRun db f.key .failed none (some a.error)),
      if a.raises.isSome then .idle else handled setting f (some .failed))
  | .checkingStale f =>
    (a.commit db (retryStale db f.key f.staleThreshold),
      if a.raises.isSome then .idle
      else if isStale db f.key f.staleThreshold then .executing f .resolveMode else .checkingInFlight f)
  | .checkingInFlight f =>
    (db,
      if a.raises.isSome then .idle
      else if isInFlight db f.key f.staleThreshold then .loop f.now f.rest else handled setting f none)
  | .advancing f terminalStatus nextAt =>
    (a.commit db (advanceSchedule db f.due.id f.due.scheduledFor nextAt terminalStatus),
      if a.raises.isSome then .idle else .loop f.now f.rest)

/-! ## Edits -/

/-- A patch: of what a schedule is called and does, or also of when it fires. -/
inductive Patch where
  | metadata (autonomyMode : AutonomyMode)
  | cadence (cadence : Cadence) (isActive : Bool) (autonomyMode : AutonomyMode)

def updateScheduleFields (db : Database) (id : ScheduleId) (cadence : Cadence) (isActive : Bool)
    (autonomyMode : AutonomyMode) (nextRunAt : Option ℤ) : Database :=
  updateSchedule db id fun row =>
    { row with
      cadence := cadence
      isActive := isActive
      autonomyMode := autonomyMode
      nextRunAt := nextRunAt
      version := if (cadence, isActive, nextRunAt) = (row.cadence, row.isActive, row.nextRunAt) then row.version
        else row.version + 1 }

/-- The second half of `_handle_report_schedule_update`, on the row that the first half read: only a patch of the cadence
computes the next run. -/
def commitEdit (db : Database) (id : ScheduleId) (existing : Schedule) (patch : Patch) (now : ℤ) : Database :=
  match patch with
  | .metadata autonomyMode =>
    updateScheduleFields db id existing.cadence existing.isActive autonomyMode existing.nextRunAt
  | .cadence cadence isActive autonomyMode =>
    if isActive then
      match setting.nextRunAt existing cadence now with
      | .ok nextRunAt => updateScheduleFields db id cadence isActive autonomyMode (some nextRunAt)
      | .error _ => db
    else updateScheduleFields db id cadence isActive autonomyMode none

/-! ## Runs of the system -/

structure World where
  db : Database
  workers : ℕ → Phase
  editors : ℕ → Option (ScheduleId × Schedule)

inductive Event where
  | pass (micros : ℕ)
  | work (worker : ℕ) (a : Answer)
  | crash (worker : ℕ)
  | readForEdit (editor : ℕ) (id : ScheduleId)
  | commitEdit (editor : ℕ) (patch : Patch) (now : ℤ)

def step (w : World) : Event → World
  | .pass micros => { w with db := { w.db with now := w.db.now + micros } }
  | .work worker a =>
    { w with
      db := (workerStep setting w.db (w.workers worker) a).1
      workers := Function.update w.workers worker (workerStep setting w.db (w.workers worker) a).2 }
  | .crash worker => { w with workers := Function.update w.workers worker .idle }
  | .readForEdit editor id =>
    { w with editors := Function.update w.editors editor ((w.db.schedules.get? id).map fun row => (id, row)) }
  | .commitEdit editor patch now =>
    match w.editors editor with
    | some (id, existing) =>
      { w with
        db := commitEdit setting w.db id existing patch now
        editors := Function.update w.editors editor none }
    | none => w

end Step

/-! ## What a step of a run does -/

inductive RunStatement (db : Database) (key : RunKey) : Database → Prop where
  | none : RunStatement db key db
  | persist (reportId : ReportId) : RunStatement db key (persistRunReportId db key reportId)
  | finalize (status : RunStatus) (reportId : Option ReportId) (errorMessage : Option String) :
      RunStatement db key (finalizeRun db key status reportId errorMessage)

inductive ExecuteOutcome (setting : Setting) (db : Database) (f : Frame) : Database × Phase → Prop where
  | goesOn {db' : Database} (e : Execution) (h : RunStatement db f.key db') :
      ExecuteOutcome setting db f (db', .executing f e)
  | raises {db' : Database} (h : RunStatement db f.key db') : ExecuteOutcome setting db f (db', .failing f)
  | ends (status : RunStatus) (reportId : Option ReportId) (errorMessage : Option String) :
      ExecuteOutcome setting db f (finalizeRun db f.key status reportId errorMessage, handled setting f (some status))

section Outcome

variable {setting : Setting} {db : Database} {f : Frame} {a : Answer}

theorem runStatement_commit {db' : Database} (h : RunStatement db f.key db') :
    RunStatement db f.key (a.commit db db') := by
  unfold Answer.commit
  split
  · exact .none
  · exact h

theorem finishRun_outcome (status : RunStatus) (reportId : Option ReportId) (errorMessage : Option String) :
    ExecuteOutcome setting db f (finishRun setting db f a status reportId errorMessage) := by
  unfold finishRun
  by_cases h : a.raises.isSome
  · rw [if_pos h]
    exact .raises (runStatement_commit (.finalize _ _ _))
  · have hcommit : a.commit db (finalizeRun db f.key status reportId errorMessage) =
        finalizeRun db f.key status reportId errorMessage := by
      unfold Answer.commit
      rw [if_neg]
      intro hsome
      rw [hsome] at h
      exact h rfl
    rw [if_neg h, hcommit]
    exact .ends status reportId errorMessage

theorem executeOutcome_ite {p : Prop} [Decidable p] {phase : Phase} (h : ∃ e, phase = .executing f e) :
    ExecuteOutcome setting db f (db, if p then .failing f else phase) := by
  obtain ⟨e, rfl⟩ := h
  split
  · exact .raises .none
  · exact .goesOn e .none

theorem executeStep_outcome (e : Execution) : ExecuteOutcome setting db f (executeStep setting db f e a) := by
  cases e with
  | resolveMode => exact executeOutcome_ite ⟨_, rfl⟩
  | skip => exact finishRun_outcome _ _ _
  | fetchRun mode =>
    refine executeOutcome_ite ?_
    split
    · exact ⟨_, rfl⟩
    · exact ⟨_, rfl⟩
  | generate mode => exact .goesOn _ .none
  | generationFailed => exact finishRun_outcome _ _ _
  | persistReport mode reportId =>
    rw [executeStep]
    by_cases h : a.raises.isSome
    · rw [if_pos h]
      exact .raises (runStatement_commit (.persist reportId))
    · rw [if_neg h]
      exact .goesOn _ (runStatement_commit (.persist reportId))
  | propose reportId =>
    rw [executeStep]
    by_cases h : a.draftInserted
    · rw [if_pos h]
      exact finishRun_outcome _ _ _
    · rw [if_neg h]
      exact finishRun_outcome _ _ _
  | deliver mode reportId => exact executeOutcome_ite ⟨_, rfl⟩
  | notify reportId => exact .goesOn _ .none
  | succeed reportId => exact finishRun_outcome _ _ _

end Outcome

/-! ## What a statement leaves alone -/

@[simp] theorem schedules_updateRun (db : Database) (key : RunKey) (g : ScheduleRun → ScheduleRun) :
    (updateRun db key g).schedules = db.schedules := by
  unfold updateRun
  split <;> rfl

@[simp] theorem schedules_claimRun (db : Database) (key : RunKey) : (claimRun db key).schedules = db.schedules := by
  unfold claimRun
  split <;> rfl

@[simp] theorem schedules_retryStale (db : Database) (key : RunKey) (threshold : ℤ) :
    (retryStale db key threshold).schedules = db.schedules := by
  unfold retryStale
  split
  · exact schedules_updateRun _ _ _
  · rfl

theorem RunStatement.schedules {db db' : Database} {key : RunKey} (h : RunStatement db key db') :
    db'.schedules = db.schedules := by
  cases h with
  | none => rfl
  | persist reportId => exact schedules_updateRun _ _ _
  | finalize status reportId errorMessage => exact schedules_updateRun _ _ _

theorem ExecuteOutcome.schedules {setting : Setting} {db : Database} {f : Frame} {r : Database × Phase}
    (h : ExecuteOutcome setting db f r) : r.1.schedules = db.schedules := by
  cases h with
  | goesOn e h => exact h.schedules
  | raises h => exact h.schedules
  | ends status reportId errorMessage => exact schedules_updateRun _ _ _

theorem schedules_commit (a : Answer) {db db' : Database} (h : db'.schedules = db.schedules) :
    (a.commit db db').schedules = db.schedules := by
  unfold Answer.commit
  split
  · rfl
  · exact h

/-- Only the last statement of a turn writes a schedule. -/
theorem schedules_workerStep (setting : Setting) (db : Database) {phase : Phase} (a : Answer)
    (h : ∀ f terminalStatus nextAt, phase ≠ .advancing f terminalStatus nextAt) :
    (workerStep setting db phase a).1.schedules = db.schedules := by
  cases phase with
  | idle => rfl
  | loop now due =>
    cases due with
    | nil => rfl
    | cons due rest => rfl
  | claiming f => exact schedules_commit a (schedules_claimRun db f.key)
  | executing f e => exact (executeStep_outcome e).schedules
  | failing f => exact schedules_commit a (schedules_updateRun db f.key _)
  | checkingStale f => exact schedules_commit a (schedules_retryStale db f.key _)
  | checkingInFlight f => rfl
  | advancing f terminalStatus nextAt => exact absurd rfl (h f terminalStatus nextAt)

theorem get?_updateSchedule (db : Database) (id id' : ScheduleId) (g : Schedule → Schedule) :
    (updateSchedule db id g).schedules.get? id' = if id' = id then (db.schedules.get? id).map g
      else db.schedules.get? id' := by
  unfold updateSchedule
  cases hrow : db.schedules.get? id with
  | some row =>
    simp only [Dict.get?_set]
    rfl
  | none =>
    by_cases h : id' = id
    · subst h
      rw [if_pos rfl, hrow]
      rfl
    · rw [if_neg h]

theorem get?_updateRun (db : Database) (key key' : RunKey) (g : ScheduleRun → ScheduleRun) :
    (updateRun db key g).runs.get? key' = if key' = key then (db.runs.get? key).map g else db.runs.get? key' := by
  unfold updateRun
  cases hrun : db.runs.get? key with
  | some run =>
    simp only [Dict.get?_set]
    rfl
  | none =>
    by_cases h : key' = key
    · subst h
      rw [if_pos rfl, hrun]
      rfl
    · rw [if_neg h]

end FavoniusBackend.Reports
