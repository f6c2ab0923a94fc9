import FavoniusBackend.Ingestion.Overlap

/-!
# Finished ingestion jobs

Every statement that updates a job names the statuses that it applies to, except `merge_job_progress`.  A worker that goes
on after its job was cancelled so writes its progress over that of the row: finished jobs stay as they are just as long as
no progress with other values is written for one.
-/

namespace FavoniusBackend.Ingestion

open Lib
open Lib.Run

/-- The row has the outcome of the other one. -/
structure Job.SameOutcome (job' job : Job) : Prop where
  status : job'.status = job.status
  errorDetail : job'.errorDetail = job.errorDetail
  importBatchId : job'.importBatchId = job.importBatchId
  finishedAt : job'.finishedAt = job.finishedAt
  progress : job'.progress = job.progress

theorem Job.SameOutcome.refl (job : Job) : job.SameOutcome job := ⟨rfl, rfl, rfl, rfl, rfl⟩

def KeepsOutcomes (db db' : Database) : Prop :=
  ∀ jobId job, db.jobs.get? jobId = some job → job.status.isActive = false →
    ∃ job', db'.jobs.get? jobId = some job' ∧ job'.SameOutcome job

def Frozen (orphanThreshold : ℤ) (s : State) (e : Event) : Prop := KeepsOutcomes s.db (step orphanThreshold s e).db

/-- Where the event is the end of a stage, the job of the worker has not ended, or the row has what is written already. -/
def UpdatesInTime (s : State) (e : Event) : Prop :=
  ∀ workerId counts w batchId stage backfill job, e.action = .work workerId (.imported counts) →
    s.workers workerId = some w → w.phase = .ingesting batchId stage backfill → s.db.jobs.get? w.jobId = some job →
      job.status.isActive = false → job.progress.merge (snapshot stage counts) = job.progress

/-! ## The statements -/

theorem keepsOutcomes_of_jobs {db db' : Database} (h : db'.jobs = db.jobs) : KeepsOutcomes db db' :=
  fun jobId job hjob _ => ⟨job, by rw [h]; exact hjob, .refl job⟩

theorem keepsOutcomes_updateJob (db : Database) (jobId : String) {applies : Job → Bool} {set : Job → Job}
    (hguard : ∀ job, applies job = true → job.status.isActive = true) :
    KeepsOutcomes db (updateJob db jobId applies set) := by
  intro id job hjob hended
  refine ⟨job, ?_, .refl job⟩
  have hnot : ¬(id = jobId ∧ applies job = true) := by
    rintro ⟨-, happlies⟩
    rw [hguard job happlies] at hended
    exact nomatch hended
  rw [get?_updateJob, hjob, Option.map_some, if_neg hnot]

theorem isActive_of_claimable {allowRunningReclaim : Bool} {lease : Option ℤ} {job : Job}
    (h : claimable allowRunningReclaim lease job = true) : job.status.isActive = true := by
  unfold claimable at h
  rcases Bool.or_eq_true_iff.mp h with hpending | hrunning
  · rw [of_decide_eq_true hpending]
    rfl
  · have hboth := (Bool.and_eq_true_iff.mp hrunning).1
    exact isActive_running (of_decide_eq_true (Bool.and_eq_true_iff.mp hboth).2)

theorem keepsOutcomes_finalize (db : Database) (jobId : String) (ending : Ending) (allowPending : Bool) (now : ℤ) :
    KeepsOutcomes db (finalizeJob db jobId ending allowPending now) := by
  refine keepsOutcomes_updateJob db jobId fun job happlies => ?_
  cases allowPending with
  | true => exact happlies
  | false => exact isActive_running (of_decide_eq_true happlies)

theorem keepsOutcomes_disable (db : Database) (connectionId : String) (now : ℤ) :
    KeepsOutcomes db (disableConnection db connectionId now) := by
  intro id job hjob hended
  refine ⟨job, ?_, .refl job⟩
  have hnot : ¬(job.connectionId = connectionId ∧ job.status.isActive = true) := by
    rw [hended]
    exact nofun
  rw [get?_disableConnection, hjob, Option.map_some, Job.cancelled, if_neg hnot]

theorem keepsOutcomes_enqueue (db : Database) (jobId connectionId : String) (now : ℤ) :
    KeepsOutcomes db ((enqueueJob db jobId connectionId now).getD db) := by
  cases hdb : enqueueJob db jobId connectionId now with
  | none => exact keepsOutcomes_of_jobs rfl
  | some db' =>
    intro id job hjob hended
    obtain ⟨-, hfresh, new, -, -, -, hrows⟩ := get?_enqueueJob hdb
    have hne : id ≠ jobId := by
      rintro rfl
      exact hfresh (Dict.mem_of_get? hjob)
    refine ⟨job, ?_, .refl job⟩
    rw [Option.getD_some, hrows, if_neg hne]
    exact hjob

theorem keepsOutcomes_merge_iff (db : Database) (jobId : String) (fields : List (String × ProgressValue)) (now : ℤ) :
    KeepsOutcomes db (mergeJobProgress db jobId fields now) ↔
      ∀ job, db.jobs.get? jobId = some job → job.status.isActive = false → job.progress.merge fields = job.progress := by
  have hget : ∀ id, (mergeJobProgress db jobId fields now).jobs.get? id = (db.jobs.get? id).map fun job =>
      if id = jobId ∧ true = true then { job with progress := job.progress.merge fields, heartbeatAt := some now }
      else job := fun id => get?_updateJob db jobId id _ _
  constructor
  · intro h job hjob hended
    obtain ⟨job', hjob', hsame⟩ := h jobId job hjob hended
    rw [hget, hjob, Option.map_some, if_pos ⟨rfl, rfl⟩] at hjob'
    obtain rfl := Option.some.inj hjob'
    exact hsame.progress
  · intro h id job hjob hended
    rw [hget, hjob]
    by_cases hid : id = jobId
    · subst hid
      rw [Option.map_some, if_pos ⟨rfl, rfl⟩]
      exact ⟨_, rfl, rfl, rfl, rfl, rfl, h job hjob hended⟩
    · rw [Option.map_some, if_neg fun h => hid h.1]
      exact ⟨job, rfl, .refl job⟩

/-! ## Steps -/

section Steps

variable {s : State} {e : Event} {workerId : ℕ} {w : Worker} {reply : Reply}

theorem keepsOutcomes_work (hw : s.workers workerId = some w) (haction : e.action = .work workerId reply)
    (hupdates : UpdatesInTime s e) : KeepsOutcomes s.db (workerStep s.db (s.timeOf e) w reply).1 := by
  have heffect := workerStep_effect s.db (s.timeOf e) w reply
  generalize workerStep s.db (s.timeOf e) w reply = result at heffect
  cases heffect with
  | claims => exact keepsOutcomes_updateJob s.db w.jobId fun _ => isActive_of_claimable
  | beats stage counts batchId backfill phase hphase hreply =>
    refine (keepsOutcomes_merge_iff s.db w.jobId (snapshot stage counts) _).mpr fun job hjob hended => ?_
    rw [hreply] at haction
    exact hupdates workerId counts w batchId stage backfill job haction hw hphase hjob hended
  | ends ending => exact keepsOutcomes_finalize s.db w.jobId ending false _
  | crashes ending => exact keepsOutcomes_finalize s.db w.jobId ending true _
  | moves db' phase hjobs => exact keepsOutcomes_of_jobs hjobs

/-- A step leaves the finished jobs as they are just where it writes no progress into one. -/
theorem frozen_step_iff (orphanThreshold : ℤ) (s : State) (e : Event) :
    Frozen orphanThreshold s e ↔ UpdatesInTime s e := by
  constructor
  · intro hfrozen workerId counts w batchId stage backfill job haction hw hphase
    have hdb : (step orphanThreshold s e).db = mergeJobProgress s.db w.jobId (snapshot stage counts) (s.timeOf e) := by
      simp only [step, haction, act, hw, workerStep, hphase]
    unfold Frozen at hfrozen
    rw [hdb, keepsOutcomes_merge_iff] at hfrozen
    exact hfrozen job
  · intro hupdates
    unfold Frozen step
    cases haction : e.action with
    | enqueue jobId connectionId => exact keepsOutcomes_enqueue s.db jobId connectionId _
    | spawn => exact keepsOutcomes_of_jobs rfl
    | recover => exact keepsOutcomes_of_jobs rfl
    | work workerId reply =>
      simp only [act]
      cases hw : s.workers workerId with
      | none => exact keepsOutcomes_of_jobs rfl
      | some w => exact keepsOutcomes_work hw haction hupdates
    | stop => exact keepsOutcomes_of_jobs rfl
    | disable connectionId => exact keepsOutcomes_disable s.db connectionId _
    | patch => exact keepsOutcomes_of_jobs rfl

end Steps

/-! ## Runs -/

/-- **Finished jobs** are left as they are along exactly the runs in which no progress is written into one. -/
theorem along_frozen_iff (orphanThreshold : ℤ) (s : State) (events : List Event) :
    Along (step orphanThreshold) (Frozen orphanThreshold) s events ↔
      Along (step orphanThreshold) UpdatesInTime s events :=
  @along_iff_along _ _ _ _ _ (fun _ => True) (fun s e _ => frozen_step_iff orphanThreshold s e)
    (fun _ _ _ _ => trivial) s events trivial

/-- A connection is disabled under its worker, which then ends the stage of the chargers. -/
theorem cancelled_job_in_chargers : ¬ ∀ orphanThreshold s events, AtRest s →
    Along (step orphanThreshold) (Frozen orphanThreshold) s events := by
  intro h
  have hall := h 1800000000 connected
    ((ingests 1 "J1" ++ [⟨0, .disable "C"⟩]) ++ [⟨0, .work 1 (.imported .zero)⟩]) connected_atRest
  obtain ⟨job', hjob', hsame⟩ := hall.last "J1" _ rfl rfl
  obtain rfl := Option.some.inj hjob'
  have hstage := congrArg (fun progress : Progress => progress.get? "stage") hsame.progress
  exact absurd hstage (by decide +kernel)

end FavoniusBackend.Ingestion
