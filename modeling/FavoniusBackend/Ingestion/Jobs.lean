import Mathlib.Data.Int.Notation
import FavoniusBackend.Lib.DictViews

/-!
# Ingestion jobs

The rows of `data_source_ingestion_jobs`, the statements of `core/data_sources/repository.py` that write them, the driver of
`core/data_sources/ingestion.py`, the recovery of `core/data_sources/scheduler.py` and the ingestion of
`core/data_sources/kempower_provider.py`, the only provider that is registered.

A worker sends one statement a step, and each statement is atomic and may raise; between two steps of a worker anything
else may happen.  The database's clock advances from one statement to the next.  A job may be inserted and a worker spawned
for it at any time, so the checks that the callers make before are not part of the model.
-/

namespace FavoniusBackend.Ingestion

open Lib

/-! ## Rows -/

inductive JobStatus where
  | pending
  | running
  | succeeded
  | partially
  | failed
  deriving DecidableEq, Repr

/-- `status IN ('pending', 'running')`. -/
def JobStatus.isActive (s : JobStatus) : Bool := s = .pending || s = .running

inductive ProgressValue where
  | text (s : String)
  | count (n : ℕ)
  | flag (b : Bool)
  deriving DecidableEq, Repr

abbrev Progress := Dict String ProgressValue

/-- `progress || fields`. -/
def Progress.merge (progress : Progress) (fields : List (String × ProgressValue)) : Progress :=
  fields.foldl (fun d p => d.set p.1 p.2) progress

structure Job where
  connectionId : String
  status : JobStatus
  progress : Progress
  errorDetail : Option String
  importBatchId : Option String
  createdAt : ℤ
  startedAt : Option ℤ
  finishedAt : Option ℤ
  heartbeatAt : Option ℤ

/-- `COALESCE(heartbeat_at, started_at, created_at)`. -/
def Job.leaseAt (j : Job) : ℤ := (j.heartbeatAt.orElse fun _ => j.startedAt).getD j.createdAt

inductive ConnectionStatus where
  | active
  | paused
  | error
  | disabled
  deriving DecidableEq, Repr

structure Database where
  connections : Dict String ConnectionStatus
  jobs : Dict String Job

/-! ## Statements -/

section Statements

variable (db : Database)

/-- `UPDATE data_source_ingestion_jobs SET … WHERE id = … AND …`. -/
def updateJob (jobId : String) (applies : Job → Bool) (set : Job → Job) : Database :=
  match db.jobs.get? jobId with
  | some job => if applies job then { db with jobs := db.jobs.set jobId (set job) } else db
  | none => db

def hasActiveJob (connectionId : String) : Bool :=
  db.jobs.values.any fun job => job.connectionId = connectionId && job.status.isActive

/-- `enqueue_job`; nothing where a unique index is violated. -/
def enqueueJob (jobId connectionId : String) (now : ℤ) : Option Database :=
  if hasActiveJob db connectionId ∨ jobId ∈ db.jobs then none
  else some { db with
    jobs := db.jobs.set jobId
      { connectionId := connectionId
        status := .pending
        progress := Dict.empty
        errorDetail := none
        importBatchId := none
        createdAt := now
        startedAt := none
        finishedAt := none
        heartbeatAt := none } }

/-- The rows that `claim_job` updates. -/
def claimable (allowRunningReclaim : Bool) (expectedRunningLeaseAt : Option ℤ) (job : Job) : Bool :=
  job.status = .pending || (allowRunningReclaim && job.status = .running &&
    expectedRunningLeaseAt.all fun lease => decide (job.leaseAt = lease))

def Job.claimed (now : ℤ) (job : Job) : Job :=
  { job with status := .running, startedAt := some (job.startedAt.getD now), heartbeatAt := some now }

/-- `claim_job`; the second component is the connection of the row that it returns. -/
def claimJob (jobId : String) (allowRunningReclaim : Bool) (expectedRunningLeaseAt : Option ℤ) (now : ℤ) :
    Database × Option String :=
  let applies := claimable allowRunningReclaim expectedRunningLeaseAt
  (updateJob db jobId applies (Job.claimed now),
    ((db.jobs.get? jobId).filter applies).map Job.connectionId)

def mergeJobProgress (jobId : String) (fields : List (String × ProgressValue)) (now : ℤ) : Database :=
  updateJob db jobId (fun _ => true) fun job =>
    { job with progress := job.progress.merge fields, heartbeatAt := some now }

/-- What a job ends with. -/
inductive FinalStatus where
  | succeeded
  | partially
  | failed
  deriving DecidableEq, Repr

def FinalStatus.toJobStatus : FinalStatus → JobStatus
  | .succeeded => .succeeded
  | .partially => .partially
  | .failed => .failed

structure Ending where
  status : FinalStatus
  progress : List (String × ProgressValue)
  errorDetail : Option String
  importBatchId : Option String

def finalizeJob (jobId : String) (ending : Ending) (allowPending : Bool) (now : ℤ) : Database :=
  updateJob db jobId (fun job => if allowPending then job.status.isActive else job.status = .running) fun job =>
    { job with
      status := ending.status.toJobStatus
      progress := job.progress.merge ending.progress
      errorDetail := ending.errorDetail
      importBatchId := ending.importBatchId
      finishedAt := some now
      heartbeatAt := some now }

def Job.cancelled (connectionId : String) (now : ℤ) (job : Job) : Job :=
  if job.connectionId = connectionId ∧ job.status.isActive then
    { job with
      status := .failed
      errorDetail := some "connection disabled"
      finishedAt := some now
      heartbeatAt := some now
      progress := job.progress.merge [("stage", .text "cancelled")] }
  else job

def disableConnection (connectionId : String) (now : ℤ) : Database where
  connections := db.connections.mapWithKey fun id status => if id = connectionId then .disabled else status
  jobs := db.jobs.mapValues (Job.cancelled connectionId now)

def updateConnection (connectionId : String) (status : ConnectionStatus) : Database :=
  { db with connections := db.connections.mapWithKey fun id old => if id = connectionId then status else old }

def touchConnectionAfterRun (connectionId : String) (lastStatus : FinalStatus) : Database :=
  { db with
    connections := db.connections.mapWithKey fun id status =>
      if id = connectionId then
        (if status = .disabled ∨ status = .paused then status else if lastStatus = .failed then .error else .active)
      else status }

/-- A row that `find_orphaned_jobs` returns. -/
def isOrphaned (orphanThreshold now : ℤ) (job : Job) : Bool :=
  (job.status = .pending || (job.status = .running && job.leaseAt < now - orphanThreshold)) &&
    (db.connections.get? job.connectionId).any fun status => status ≠ .disabled

end Statements

/-! ## The provider -/

/-- `OnboardingCounts`, as far as it is reported. -/
structure Counts where
  chargersCreated : ℕ
  vehiclesCreated : ℕ
  sessionsInserted : ℕ
  accessRowsUpserted : ℕ
  skipped : ℕ
  deriving DecidableEq, Repr

def Counts.zero : Counts := ⟨0, 0, 0, 0, 0⟩

inductive Stage where
  | chargers
  | vehicles
  | access
  | sessions
  deriving DecidableEq, Repr

def Stage.text : Stage → String
  | .chargers => "chargers"
  | .vehicles => "vehicles"
  | .access => "access"
  | .sessions => "sessions"

def Stage.next (backfill : Bool) : Stage → Option Stage
  | .chargers => some .vehicles
  | .vehicles => some .access
  | .access => if backfill then some .sessions else none
  | .sessions => none

def snapshot (stage : Stage) (counts : Counts) : List (String × ProgressValue) :=
  [("chargers_created", .count counts.chargersCreated), ("vehicles_created", .count counts.vehiclesCreated),
    ("sessions_inserted", .count counts.sessionsInserted), ("access_rows_upserted", .count counts.accessRowsUpserted),
    ("skipped_count", .count counts.skipped), ("stage", .text stage.text)]

structure IngestionResult where
  status : FinalStatus
  counts : Counts
  errorDetail : Option String

/-- What `run_ingestion` returns after its stages, or where the API failed. -/
def ingestionResult (counts : Counts) (errorDetail : Option String) : IngestionResult where
  status :=
    if errorDetail.isSome then
      (if 0 < counts.chargersCreated + counts.vehiclesCreated + counts.sessionsInserted + counts.accessRowsUpserted then
        .partially
      else .failed)
    else if 0 < counts.skipped then .partially
    else .succeeded
  counts := counts
  errorDetail := errorDetail

/-! ## Workers -/

def truncate (text : String) : String :=
  if text.length ≤ 2000 then text else String.ofList (text.toList.take 2000) ++ "…"

def failure (errorDetail : String) (importBatchId : Option String) : Ending :=
  ⟨.failed, [("stage", .text "error")], some errorDetail, importBatchId⟩

def endingOf (result : IngestionResult) (batchId : String) : Ending where
  status := result.status
  progress :=
    [("stage", .text "done"), ("chargers_created", .count result.counts.chargersCreated),
      ("vehicles_created", .count result.counts.vehiclesCreated),
      ("sessions_inserted", .count result.counts.sessionsInserted),
      ("access_rows_upserted", .count result.counts.accessRowsUpserted),
      ("skipped_count", .count result.counts.skipped),
      ("credentials_pending_rotation", .flag (0 < result.counts.chargersCreated))]
  errorDetail := result.errorDetail.map truncate
  importBatchId := some batchId

/-- Where a worker is, up to its next statement. -/
inductive Phase where
  | claiming
  | readingSecret
  /-- Inside `provider.run_ingestion`. -/
  | ingesting (batchId : String) (stage : Stage) (backfill : Bool)
  /-- About to finalize; `connection` says whether the connection is touched afterwards. -/
  | finalizing (ending : Ending) (connection : Bool)
  | touching (status : FinalStatus)
  /-- In the handler of `run_ingestion_job`. -/
  | crashed
  | done

/-- A worker with the arguments of `run_ingestion_job`; `claimed` is the connection of the row that its `claim_job`
returned, and `lastBeat` the time of the last statement by which it showed that it is alive. -/
structure Worker where
  jobId : String
  allowStaleRunningClaim : Bool
  expectedRunningLeaseAt : Option ℤ
  claimed : Option String
  lastBeat : ℤ
  phase : Phase

/-- What `get_connection_secret` and the start of the provider lead to. -/
inductive Preparation where
  | connectionGone
  | decryptionFailed
  | providerNotFound (detail : String)
  | locationMissing (batchId : String)
  | backfillInvalid (batchId detail : String)
  | begins (batchId : String) (backfill : Bool)

/-- What the next step of a worker leads to. -/
inductive Reply where
  | executed
  | raises
  | prepared (preparation : Preparation)
  | imported (counts : Counts)
  | updateRaises (detail : String)
  | apiFails (detail : String) (counts : Counts)
  | importRaises (detail : String)

def Preparation.phase : Preparation → Phase
  | .connectionGone => .finalizing (failure "connection no longer exists" none) false
  | .decryptionFailed => .finalizing (failure "credential decryption failed (key rotated?)" none) true
  | .providerNotFound detail => .finalizing (failure detail none) true
  | .locationMissing batchId =>
    .finalizing (endingOf ⟨.failed, .zero, some "locationId missing from connection config/credentials"⟩ batchId) true
  | .backfillInvalid batchId detail => .finalizing (failure (truncate detail) (some batchId)) true
  | .begins batchId backfill => .ingesting batchId .chargers backfill

def workerStep (db : Database) (now : ℤ) (w : Worker) (reply : Reply) : Database × Worker :=
  match w.phase, reply with
  | .claiming, .executed =>
    let (db', claimed) := claimJob db w.jobId w.allowStaleRunningClaim w.expectedRunningLeaseAt now
    match claimed with
    | some connectionId =>
      (db', { w with claimed := some connectionId, lastBeat := now, phase := .readingSecret })
    | none => (db', { w with phase := .done })
  | .readingSecret, .prepared preparation => (db, { w with phase := preparation.phase })
  | .ingesting batchId stage backfill, .imported counts =>
    (mergeJobProgress db w.jobId (snapshot stage counts) now,
      { w with
        lastBeat := now
        phase := match stage.next backfill with
          | some stage => .ingesting batchId stage backfill
          | none => .finalizing (endingOf (ingestionResult counts none) batchId) true })
  | .ingesting batchId _ _, .updateRaises detail =>
    (db, { w with phase := .finalizing (failure (truncate detail) (some batchId)) true })
  | .ingesting batchId _ _, .importRaises detail =>
    (db, { w with phase := .finalizing (failure (truncate detail) (some batchId)) true })
  | .ingesting batchId _ _, .apiFails detail counts =>
    (db, { w with
      phase := .finalizing (endingOf (ingestionResult counts (some ("Kempower API error: " ++ detail))) batchId) true })
  | .finalizing ending connection, .executed =>
    (finalizeJob db w.jobId ending false now,
      { w with phase := if connection then .touching ending.status else .done })
  | .touching status, .executed =>
    (match w.claimed with
      | some connectionId => touchConnectionAfterRun db connectionId status
      | none => db, { w with phase := .done })
  | .crashed, .executed =>
    (finalizeJob db w.jobId (failure "internal error (see server logs)" none) true now, { w with phase := .done })
  | .claiming, .raises => (db, { w with phase := .crashed })
  | .readingSecret, .raises => (db, { w with phase := .crashed })
  | .finalizing _ _, .raises => (db, { w with phase := .crashed })
  | .touching _, .raises => (db, { w with phase := .crashed })
  | .crashed, .raises => (db, { w with phase := .done })
  | _, _ => (db, w)

/-! ## Runs -/

structure State where
  db : Database
  now : ℤ
  workers : ℕ → Option Worker

inductive Action where
  | enqueue (jobId connectionId : String)
  | spawn (workerId : ℕ) (jobId : String)
  | recover (workerId : ℕ) (jobId : String)
  | work (workerId : ℕ) (reply : Reply)
  /-- The process of a worker stops. -/
  | stop (workerId : ℕ)
  | disable (connectionId : String)
  | patch (connectionId : String) (status : ConnectionStatus)

/-- An action, some time after the one before it. -/
structure Event where
  wait : ℕ
  action : Action

def State.timeOf (s : State) (e : Event) : ℤ := s.now + e.wait + 1

/-- A new worker for a job; `recovery` is the lease that the sweep has read. -/
def Worker.start (jobId : String) (recovery : Option ℤ) : Worker where
  jobId := jobId
  allowStaleRunningClaim := recovery.isSome
  expectedRunningLeaseAt := recovery
  claimed := none
  lastBeat := 0
  phase := .claiming

def act (orphanThreshold : ℤ) (s : State) (now : ℤ) : Action → Database × (ℕ → Option Worker)
  | .enqueue jobId connectionId => ((enqueueJob s.db jobId connectionId now).getD s.db, s.workers)
  | .spawn workerId jobId =>
    (s.db, if (s.workers workerId).isSome then s.workers
      else Function.update s.workers workerId (some (.start jobId none)))
  | .recover workerId jobId =>
    (s.db, match (s.db.jobs.get? jobId).filter (isOrphaned s.db orphanThreshold now) with
      | some job =>
        if (s.workers workerId).isSome then s.workers
        else Function.update s.workers workerId (some (.start jobId (some job.leaseAt)))
      | none => s.workers)
  | .work workerId reply =>
    match s.workers workerId with
    | some w =>
      let (db, w') := workerStep s.db now w reply
      (db, Function.update s.workers workerId (some w'))
    | none => (s.db, s.workers)
  | .stop workerId => (s.db, Function.update s.workers workerId none)
  | .disable connectionId => (disableConnection s.db connectionId now, s.workers)
  | .patch connectionId status => (updateConnection s.db connectionId status, s.workers)

def step (orphanThreshold : ℤ) (s : State) (e : Event) : State where
  db := (act orphanThreshold s (s.timeOf e) e.action).1
  now := s.timeOf e
  workers := (act orphanThreshold s (s.timeOf e) e.action).2

/-! ## What the statements do to a row -/

theorem get?_updateJob (db : Database) (jobId id : String) (applies : Job → Bool) (set : Job → Job) :
    (updateJob db jobId applies set).jobs.get? id =
      (db.jobs.get? id).map fun job => if id = jobId ∧ applies job = true then set job else job := by
  unfold updateJob
  cases hjob : db.jobs.get? jobId with
  | none =>
    by_cases hid : id = jobId
    · subst hid
      simp only [hjob]
      rfl
    · simp [hid]
  | some job =>
    by_cases happlies : applies job = true
    · simp only [happlies, if_true]
      rw [Dict.get?_set]
      by_cases hid : id = jobId
      · subst hid
        simp [hjob, happlies]
      · simp [hid]
    · simp only [happlies]
      by_cases hid : id = jobId
      · subst hid
        simp [hjob, happlies]
      · simp [hid]

theorem get?_disableConnection (db : Database) (connectionId id : String) (now : ℤ) :
    (disableConnection db connectionId now).jobs.get? id = (db.jobs.get? id).map (Job.cancelled connectionId now) :=
  Dict.get?_mapValues _ _ _

theorem not_hasActiveJob_iff {db : Database} {connectionId : String} :
    hasActiveJob db connectionId = false ↔
      ∀ id job, db.jobs.get? id = some job → job.connectionId = connectionId → job.status.isActive = false := by
  unfold hasActiveJob
  rw [List.any_eq_false]
  refine ⟨fun h id job hjob hconnection => ?_, fun h job hjob => ?_⟩
  · have hnot := h job (Dict.mem_values_iff.mpr ⟨id, hjob⟩)
    simpa [hconnection] using hnot
  · obtain ⟨id, hid⟩ := Dict.mem_values_iff.mp hjob
    by_cases hconnection : job.connectionId = connectionId
    · simp [hconnection, h id job hid hconnection]
    · simp [hconnection]

theorem get?_enqueueJob {db db' : Database} {jobId connectionId : String} {now : ℤ}
    (h : enqueueJob db jobId connectionId now = some db') :
    hasActiveJob db connectionId = false ∧ jobId ∉ db.jobs ∧ ∃ job : Job, job.connectionId = connectionId ∧
      job.status = .pending ∧ job.leaseAt = now ∧
        ∀ id, db'.jobs.get? id = if id = jobId then some job else db.jobs.get? id := by
  unfold enqueueJob at h
  split at h
  · exact nomatch h
  · rename_i hfree
    obtain ⟨hactive, hfresh⟩ := not_or.mp hfree
    obtain rfl := Option.some.inj h
    exact ⟨eq_false_of_ne_true hactive, hfresh, _, rfl, rfl, rfl, fun id => Dict.get?_set _ _ _ _⟩

/-! ## What a step of a worker can do -/

def Phase.isDone : Phase → Bool
  | .done => true
  | _ => false

def Worker.Coherent (w : Worker) : Prop :=
  match w.phase with
  | .claiming => w.claimed = none
  | .crashed => True
  | .done => True
  | _ => w.claimed.isSome = true

/-- Everything that a step of a worker can do to the rows and to the worker. -/
inductive WorkerEffect (db : Database) (now : ℤ) (w : Worker) (reply : Reply) : Database × Worker → Prop where
  | claims (job : Job) (hphase : w.phase = .claiming) (hjob : db.jobs.get? w.jobId = some job)
      (hclaim : claimable w.allowStaleRunningClaim w.expectedRunningLeaseAt job = true) :
      WorkerEffect db now w reply
        (updateJob db w.jobId (claimable w.allowStaleRunningClaim w.expectedRunningLeaseAt) (Job.claimed now),
          { w with claimed := some job.connectionId, lastBeat := now, phase := .readingSecret })
  | beats (stage : Stage) (counts : Counts) (batchId : String) (backfill : Bool) (phase : Phase)
      (hphase : w.phase = .ingesting batchId stage backfill) (hreply : reply = .imported counts)
      (hnext : phase ≠ .claiming) : WorkerEffect db now w reply
        (mergeJobProgress db w.jobId (snapshot stage counts) now, { w with lastBeat := now, phase := phase })
  | ends (ending : Ending) (phase : Phase) (hcoherent : w.Coherent → w.claimed.isSome = true)
      (hphase : phase ≠ .claiming) (hlive : w.phase.isDone = false) : WorkerEffect db now w reply
        (finalizeJob db w.jobId ending false now, { w with phase := phase })
  | crashes (ending : Ending) (hphase : w.phase = .crashed) : WorkerEffect db now w reply
        (finalizeJob db w.jobId ending true now, { w with phase := .done })
  | moves (db' : Database) (phase : Phase) (hjobs : db'.jobs = db.jobs)
      (hcoherent : w.Coherent → ({ w with phase := phase } : Worker).Coherent)
      (hdone : w.phase.isDone = true → phase.isDone = true) : WorkerEffect db now w reply (db', { w with phase := phase })

theorem coherent_preparation (preparation : Preparation) (w : Worker) (h : w.claimed.isSome = true) :
    ({ w with phase := preparation.phase } : Worker).Coherent := by
  cases preparation with
  | connectionGone => exact h
  | decryptionFailed => exact h
  | providerNotFound => exact h
  | locationMissing => exact h
  | backfillInvalid => exact h
  | begins => exact h

theorem WorkerEffect.leaves {db : Database} {now : ℤ} {w : Worker} {reply : Reply} {old phase : Phase}
    (hphase : w.phase = old) (hlive : old.isDone = false)
    (hcoherent : ({ w with phase := old } : Worker).Coherent → ({ w with phase := phase } : Worker).Coherent) :
    WorkerEffect db now w reply (db, { w with phase := phase }) := by
  subst hphase
  refine .moves db phase rfl hcoherent fun hdone => ?_
  rw [hlive] at hdone
  exact nomatch hdone

theorem workerStep_effect (db : Database) (now : ℤ) (w : Worker) (reply : Reply) :
    WorkerEffect db now w reply (workerStep db now w reply) := by
  have hstay : WorkerEffect db now w reply (db, w) := .moves db w.phase rfl id id
  have hcoherent : ∀ {phase : Phase}, w.phase = phase → w.Coherent → ({ w with phase := phase } : Worker).Coherent := by
    rintro phase rfl h
    exact h
  unfold workerStep
  split
  · rename_i hphase
    cases hjob : db.jobs.get? w.jobId with
    | none =>
      simp only [claimJob, hjob]
      refine .moves _ .done ?_ (fun _ => trivial) fun _ => rfl
      unfold updateJob
      rw [hjob]
    | some job =>
      by_cases hclaim : claimable w.allowStaleRunningClaim w.expectedRunningLeaseAt job = true
      · simp only [claimJob, hjob, Option.filter_some_pos hclaim, Option.map_some]
        exact .claims job hphase hjob hclaim
      · simp only [claimJob, hjob, Option.filter_some_neg (eq_false_of_ne_true hclaim), Option.map_none]
        refine .moves _ .done ?_ (fun _ => trivial) fun _ => rfl
        unfold updateJob
        rw [hjob]
        simp only [if_neg hclaim]
  · rename_i preparation hphase
    exact .leaves hphase rfl fun h => coherent_preparation preparation w h
  · rename_i batchId stage backfill counts hphase
    refine .beats stage counts batchId backfill _ hphase rfl ?_
    split
    · rintro ⟨⟩
    · rintro ⟨⟩
  · rename_i hphase
    exact .leaves hphase rfl id
  · rename_i hphase
    exact .leaves hphase rfl id
  · rename_i hphase
    exact .leaves hphase rfl id
  · rename_i ending connection hphase
    refine .ends ending _ (fun h => hcoherent hphase h) ?_ (by rw [hphase]; rfl)
    split
    · rintro ⟨⟩
    · rintro ⟨⟩
  · refine .moves _ .done ?_ (fun _ => trivial) fun _ => rfl
    split
    · rfl
    · rfl
  · rename_i hphase
    exact .crashes _ hphase
  · rename_i hphase
    exact .leaves hphase rfl fun _ => trivial
  · rename_i hphase
    exact .leaves hphase rfl fun _ => trivial
  · rename_i hphase
    exact .leaves hphase rfl fun _ => trivial
  · rename_i hphase
    exact .leaves hphase rfl fun _ => trivial
  · exact .moves db .done rfl (fun _ => trivial) fun _ => rfl
  · exact hstay

end FavoniusBackend.Ingestion
