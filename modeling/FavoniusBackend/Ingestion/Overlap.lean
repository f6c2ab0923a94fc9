import FavoniusBackend.Ingestion.Jobs
import FavoniusBackend.Lib.Run
import Mathlib.Algebra.Order.Group.Int

/-!
# One ingestion for a connection

A worker holds its job from the claim that returned the row until it is done.  As long as the job is running, nobody else
holds it: a claim of a running row compares its lease with what the sweep has read, and every statement of a holder moves
the lease on (`Inv`).  With the unique index, two workers whose jobs are running are never inside the provider for one
connection.

A row that is failed under its holder, because the connection is disabled or another worker of the job crashed at its claim,
frees the connection while the holder goes on.  `two_ingestions_after_disable` is such a run.
-/

namespace FavoniusBackend.Ingestion

open Lib
open Lib.Run

/-! ## What is meant -/

def Worker.Holding (w : Worker) : Prop := w.claimed.isSome = true ∧ w.phase.isDone = false

/-- The worker is inside `provider.run_ingestion` for the connection. -/
def Worker.Inside (w : Worker) (connectionId : String) : Prop :=
  w.claimed = some connectionId ∧ ∃ batchId stage backfill, w.phase = .ingesting batchId stage backfill

def State.RunningFor (s : State) (w : Worker) : Prop := ∃ job, s.db.jobs.get? w.jobId = some job ∧ job.status = .running

def Alone (s : State) : Prop :=
  ∀ k k' w w' connectionId, s.workers k = some w → s.workers k' = some w' → w.Inside connectionId →
    w'.Inside connectionId → s.RunningFor w → s.RunningFor w' → k = k'

/-- The event may end the job: it is a step of a worker that has claimed it, or of one whose claim raised, or the
connection is disabled. -/
def MayEnd (s : State) (e : Event) (jobId : String) (job : Job) : Prop :=
  (∃ k reply w, e.action = .work k reply ∧ s.workers k = some w ∧ w.jobId = jobId ∧
    (w.claimed = some job.connectionId ∨ w.claimed = none ∧ w.phase = .crashed)) ∨
  e.action = .disable job.connectionId

/-- After the event the workers are alone, and a job that it has ended is one that it may end. -/
structure OneIngestion (orphanThreshold : ℤ) (s : State) (e : Event) : Prop where
  alone : Alone (step orphanThreshold s e)
  ended : ∀ jobId job job', s.db.jobs.get? jobId = some job → (step orphanThreshold s e).db.jobs.get? jobId = some job' →
    job.status.isActive = true → job'.status.isActive = false → MayEnd s e jobId job

/-- No worker that holds a job is silent for longer than the threshold. -/
def NotSilent (orphanThreshold : ℤ) (s : State) (e : Event) : Prop :=
  ∀ k w, s.workers k = some w → w.Holding → s.timeOf e - w.lastBeat ≤ orphanThreshold

/-- A state in which no worker runs: the unique index holds, and the times of the rows have passed. -/
structure AtRest (s : State) : Prop where
  idle : ∀ k, s.workers k = none
  index : ∀ id id' job job', s.db.jobs.get? id = some job → s.db.jobs.get? id' = some job' →
    job.status.isActive = true → job'.status.isActive = true → job.connectionId = job'.connectionId → id = id'
  past : ∀ id job, s.db.jobs.get? id = some job → job.leaseAt ≤ s.now

/-! ## The invariant -/

/-- What carries the induction: a claimed job is not pending, the heartbeat of a running one is not before the last sign of
its holder, a running job has one holder, and a lease that a sweep has read is the lease of a running job only where
nobody holds it. -/
structure Inv (s : State) : Prop where
  past : ∀ id job, s.db.jobs.get? id = some job → job.leaseAt ≤ s.now
  index : ∀ id id' job job', s.db.jobs.get? id = some job → s.db.jobs.get? id' = some job' →
    job.status.isActive = true → job'.status.isActive = true → job.connectionId = job'.connectionId → id = id'
  coherent : ∀ k w, s.workers k = some w → w.Coherent
  reclaims : ∀ k w, s.workers k = some w → w.allowStaleRunningClaim = true → w.expectedRunningLeaseAt.isSome = true
  held : ∀ k w connectionId, s.workers k = some w → w.claimed = some connectionId → w.phase.isDone = false →
    ∃ job, s.db.jobs.get? w.jobId = some job ∧ job.connectionId = connectionId ∧ job.status ≠ .pending ∧
      (job.status = .running → w.lastBeat ≤ job.leaseAt)
  single : ∀ k k' w w' job, s.workers k = some w → s.workers k' = some w' → w.Holding → w'.Holding →
    w.jobId = w'.jobId → s.db.jobs.get? w.jobId = some job → job.status = .running → k = k'
  leases : ∀ k w lease, s.workers k = some w → w.claimed = none → w.expectedRunningLeaseAt = some lease →
    lease ≤ s.now ∧ ∀ job, s.db.jobs.get? w.jobId = some job → job.status = .running → job.leaseAt = lease →
      ∀ k' w', s.workers k' = some w' → w'.Holding → w'.jobId ≠ w.jobId

theorem AtRest.inv {s : State} (h : AtRest s) : Inv s where
  past := h.past
  index := h.index
  coherent := fun k _ hw => nomatch (h.idle k).symm.trans hw
  reclaims := fun k _ hw => nomatch (h.idle k).symm.trans hw
  held := fun k _ _ hw => nomatch (h.idle k).symm.trans hw
  single := fun k _ _ _ _ hw => nomatch (h.idle k).symm.trans hw
  leases := fun k _ _ hw => nomatch (h.idle k).symm.trans hw

theorem isActive_running {status : JobStatus} (h : status = .running) : status.isActive = true := by
  rw [h]
  rfl

/-- A row after a statement that neither claims it nor inserts it. -/
structure RowStep (now : ℤ) (job job' : Job) : Prop where
  connection : job'.connectionId = job.connectionId
  lease : job'.leaseAt = job.leaseAt ∨ job'.leaseAt = now
  status : job'.status = job.status ∨ job'.status.isActive = false

theorem RowStep.refl (now : ℤ) (job : Job) : RowStep now job job := ⟨rfl, .inl rfl, .inl rfl⟩

theorem RowStep.status_of_active {now : ℤ} {job job' : Job} (h : RowStep now job job')
    (hactive : job'.status.isActive = true) : job'.status = job.status := by
  rcases h.status with hsame | hended
  · exact hsame
  · rw [hended] at hactive
    exact nomatch hactive

/-- Every row after the statement is the step of one before it, and the other way round. -/
structure RowsStep (now : ℤ) (db db' : Database) : Prop where
  back : ∀ id job', db'.jobs.get? id = some job' → ∃ job, db.jobs.get? id = some job ∧ RowStep now job job'
  forth : ∀ id job, db.jobs.get? id = some job → ∃ job', db'.jobs.get? id = some job' ∧ RowStep now job job'

theorem rowsStep_of_map {now : ℤ} {db db' : Database} {f : String → Job → Job}
    (hget : ∀ id, db'.jobs.get? id = (db.jobs.get? id).map (f id)) (hf : ∀ id job, RowStep now job (f id job)) :
    RowsStep now db db' where
  back := by
    intro id job' hjob'
    rw [hget] at hjob'
    obtain ⟨job, hjob, rfl⟩ := Option.map_eq_some_iff.mp hjob'
    exact ⟨job, hjob, hf id job⟩
  forth := fun id job hjob => ⟨f id job, by rw [hget, hjob]; rfl, hf id job⟩

theorem rowsStep_updateJob {now : ℤ} (db : Database) (jobId : String) {applies : Job → Bool} {set : Job → Job}
    (hset : ∀ job, RowStep now job (set job)) : RowsStep now db (updateJob db jobId applies set) := by
  refine rowsStep_of_map (fun id => get?_updateJob db jobId id applies set) fun id job => ?_
  split
  · exact hset job
  · exact RowStep.refl now job

theorem rowsStep_merge (db : Database) (jobId : String) (fields : List (String × ProgressValue)) (now : ℤ) :
    RowsStep now db (mergeJobProgress db jobId fields now) :=
  rowsStep_updateJob db jobId fun _ => ⟨rfl, .inr rfl, .inl rfl⟩

theorem rowsStep_finalize (db : Database) (jobId : String) (ending : Ending) (allowPending : Bool) (now : ℤ) :
    RowsStep now db (finalizeJob db jobId ending allowPending now) := by
  refine rowsStep_updateJob db jobId fun _ => ⟨rfl, .inr rfl, .inr ?_⟩
  cases ending.status with
  | succeeded => rfl
  | partially => rfl
  | failed => rfl

theorem rowsStep_disable (db : Database) (connectionId : String) (now : ℤ) :
    RowsStep now db (disableConnection db connectionId now) := by
  refine rowsStep_of_map (fun id => get?_disableConnection db connectionId id now) fun _ job => ?_
  unfold Job.cancelled
  split
  · exact ⟨rfl, .inr rfl, .inr rfl⟩
  · exact RowStep.refl now job

theorem rowsStep_of_jobs {now : ℤ} {db db' : Database} (h : db'.jobs = db.jobs) : RowsStep now db db' :=
  rowsStep_of_map (f := fun _ job => job) (fun id => by rw [h, Option.map_id']) fun _ job => RowStep.refl now job

theorem eq_or_of_update {workers : ℕ → Option Worker} {k k' : ℕ} {w w' : Worker}
    (h : Function.update workers k (some w) k' = some w') :
    k' = k ∧ w' = w ∨ k' ≠ k ∧ workers k' = some w' := by
  by_cases hk : k' = k
  · subst hk
    rw [Function.update_self] at h
    exact .inl ⟨rfl, (Option.some.inj h).symm⟩
  · rw [Function.update_of_ne hk] at h
    exact .inr ⟨hk, h⟩

section Preserved

variable {s : State}

/-- A statement that claims nothing keeps the invariant. -/
theorem Inv.rows (hinv : Inv s) {db : Database} {now : ℤ} (hnow : s.now < now) (h : RowsStep now s.db db) :
    Inv ⟨db, now, s.workers⟩ where
  past := by
    intro id job' hjob'
    obtain ⟨job, hjob, hstep⟩ := h.back id job' hjob'
    have hpast := hinv.past id job hjob
    rcases hstep.lease with hlease | hlease
    · exact hlease ▸ hpast.trans hnow.le
    · exact hlease.le
  index := by
    intro id id' job₁ job₁' hjob₁ hjob₁' hactive hactive' hconnection
    obtain ⟨job, hjob, hstep⟩ := h.back id job₁ hjob₁
    obtain ⟨job', hjob', hstep'⟩ := h.back id' job₁' hjob₁'
    rw [hstep.status_of_active hactive] at hactive
    rw [hstep'.status_of_active hactive'] at hactive'
    rw [hstep.connection, hstep'.connection] at hconnection
    exact hinv.index id id' job job' hjob hjob' hactive hactive' hconnection
  coherent := hinv.coherent
  reclaims := hinv.reclaims
  held := by
    intro k w connectionId hw hclaimed hdone
    obtain ⟨job, hjob, hconnection, hpending, hbeat⟩ := hinv.held k w connectionId hw hclaimed hdone
    obtain ⟨job', hjob', hstep⟩ := h.forth w.jobId job hjob
    refine ⟨job', hjob', hstep.connection.trans hconnection, ?_, fun hrunning => ?_⟩
    · intro hpending'
      have hsame := hstep.status_of_active (by rw [hpending']; rfl)
      exact hpending (hsame.symm.trans hpending')
    · have hlast := hbeat ((hstep.status_of_active (isActive_running hrunning)).symm.trans hrunning)
      rcases hstep.lease with hlease | hlease
      · exact hlast.trans hlease.ge
      · exact (hlast.trans ((hinv.past _ _ hjob).trans hnow.le)).trans hlease.ge
  single := by
    intro k k' w w' job' hw hw' hholding hholding' hsame hjob' hrunning
    obtain ⟨job, hjob, hstep⟩ := h.back w.jobId job' hjob'
    exact hinv.single k k' w w' job hw hw' hholding hholding' hsame hjob
      ((hstep.status_of_active (isActive_running hrunning)).symm.trans hrunning)
  leases := by
    intro k w lease hw hclaimed hexpected
    obtain ⟨hle, hfree⟩ := hinv.leases k w lease hw hclaimed hexpected
    refine ⟨hle.trans hnow.le, fun job' hjob' hrunning hlease => ?_⟩
    obtain ⟨job, hjob, hstep⟩ := h.back w.jobId job' hjob'
    rcases hstep.lease with hsame | hmoved
    · exact hfree job hjob ((hstep.status_of_active (isActive_running hrunning)).symm.trans hrunning)
        (hsame.symm.trans hlease)
    · have : lease = now := hlease.symm.trans hmoved
      omega

structure WorkerGoesOn (s : State) (w w' : Worker) : Prop where
  jobId : w'.jobId = w.jobId
  claimed : w'.claimed = w.claimed
  reclaims : w'.allowStaleRunningClaim = w.allowStaleRunningClaim
  lease : w'.expectedRunningLeaseAt = w.expectedRunningLeaseAt
  coherent : w.Coherent → w'.Coherent
  live : w'.phase.isDone = false → w.phase.isDone = false
  beat : ∀ job, s.db.jobs.get? w.jobId = some job → w.lastBeat ≤ job.leaseAt → w'.lastBeat ≤ job.leaseAt

theorem WorkerGoesOn.refl (s : State) (w : Worker) : WorkerGoesOn s w w :=
  ⟨rfl, rfl, rfl, rfl, id, id, fun _ _ => id⟩

theorem WorkerGoesOn.holding {w w' : Worker} (h : WorkerGoesOn s w w') (hholding : w'.Holding) : w.Holding :=
  ⟨h.claimed ▸ hholding.1, h.live hholding.2⟩

theorem Inv.goOn (hinv : Inv s) {workers : ℕ → Option Worker}
    (h : ∀ k w', workers k = some w' → ∃ w, s.workers k = some w ∧ WorkerGoesOn s w w') :
    Inv ⟨s.db, s.now, workers⟩ where
  past := hinv.past
  index := hinv.index
  coherent := by
    intro k w' hw'
    obtain ⟨w, hw, hstep⟩ := h k w' hw'
    exact hstep.coherent (hinv.coherent k w hw)
  reclaims := by
    intro k w' hw' hallow
    obtain ⟨w, hw, hstep⟩ := h k w' hw'
    rw [hstep.lease]
    exact hinv.reclaims k w hw (hstep.reclaims ▸ hallow)
  held := by
    intro k w' connectionId hw' hclaimed hdone
    obtain ⟨w, hw, hstep⟩ := h k w' hw'
    obtain ⟨job, hjob, hconnection, hpending, hbeat⟩ :=
      hinv.held k w connectionId hw (hstep.claimed ▸ hclaimed) (hstep.live hdone)
    refine ⟨job, ?_, hconnection, hpending, fun hrunning => hstep.beat job hjob (hbeat hrunning)⟩
    rw [hstep.jobId]
    exact hjob
  single := by
    intro k k' w₁ w₁' job hw₁ hw₁' hholding hholding' hsame hjob hrunning
    obtain ⟨w, hw, hstep⟩ := h k w₁ hw₁
    obtain ⟨w', hw', hstep'⟩ := h k' w₁' hw₁'
    rw [hstep.jobId] at hsame hjob
    rw [hstep'.jobId] at hsame
    exact hinv.single k k' w w' job hw hw' (hstep.holding hholding) (hstep'.holding hholding') hsame hjob hrunning
  leases := by
    intro k w₁ lease hw₁ hclaimed hexpected
    obtain ⟨w, hw, hstep⟩ := h k w₁ hw₁
    obtain ⟨hle, hfree⟩ := hinv.leases k w lease hw (hstep.claimed ▸ hclaimed) (hstep.lease ▸ hexpected)
    refine ⟨hle, fun job hjob hrunning hlease k' w₁' hw₁' hholding => ?_⟩
    obtain ⟨w', hw', hstep'⟩ := h k' w₁' hw₁'
    rw [hstep.jobId] at hjob ⊢
    rw [hstep'.jobId]
    exact hfree job hjob hrunning hlease k' w' hw' (hstep'.holding hholding)

theorem Inv.goOn_one (hinv : Inv s) {k : ℕ} {w w' : Worker} (hw : s.workers k = some w) (h : WorkerGoesOn s w w') :
    Inv ⟨s.db, s.now, Function.update s.workers k (some w')⟩ := by
  refine hinv.goOn fun k' w'' hw'' => ?_
  rcases eq_or_of_update hw'' with ⟨rfl, rfl⟩ | ⟨-, hold⟩
  · exact ⟨w, hw, h⟩
  · exact ⟨w'', hold, .refl s w''⟩

theorem Inv.start (hinv : Inv s) (k : ℕ) (jobId : String) (recovery : Option ℤ)
    (hlease : ∀ lease, recovery = some lease → lease ≤ s.now ∧ ∀ job, s.db.jobs.get? jobId = some job →
      job.status = .running → job.leaseAt = lease → ∀ k' w', s.workers k' = some w' → w'.Holding → w'.jobId ≠ jobId) :
    Inv ⟨s.db, s.now, Function.update s.workers k (some (.start jobId recovery))⟩ := by
  -- the new worker holds nothing, so every holder was there before
  have hold : ∀ k' w', Function.update s.workers k (some (.start jobId recovery)) k' = some w' →
      w'.claimed.isSome = true → s.workers k' = some w' := by
    intro k' w' hw' hclaimed
    rcases eq_or_of_update hw' with ⟨-, rfl⟩ | ⟨-, hbefore⟩
    · exact nomatch hclaimed
    · exact hbefore
  refine ⟨hinv.past, hinv.index, fun k' w' hw' => ?_, fun k' w' hw' => ?_, fun k' w' connectionId hw' hclaimed => ?_,
    fun k₁ k₂ w₁ w₂ job hw₁ hw₂ hholding₁ hholding₂ => ?_, fun k' w' lease hw' hclaimed hexpected => ?_⟩
  · rcases eq_or_of_update hw' with ⟨-, rfl⟩ | ⟨-, hw'⟩
    · exact rfl
    · exact hinv.coherent k' w' hw'
  · rcases eq_or_of_update hw' with ⟨-, rfl⟩ | ⟨-, hw'⟩
    · exact id
    · exact hinv.reclaims k' w' hw'
  · exact hinv.held k' w' connectionId (hold k' w' hw' (by rw [hclaimed]; rfl)) hclaimed
  · exact hinv.single k₁ k₂ w₁ w₂ job (hold k₁ w₁ hw₁ hholding₁.1) (hold k₂ w₂ hw₂ hholding₂.1) hholding₁ hholding₂
  · have hnew : lease ≤ s.now ∧ ∀ job, s.db.jobs.get? w'.jobId = some job → job.status = .running →
        job.leaseAt = lease → ∀ k'' w'', s.workers k'' = some w'' → w''.Holding → w''.jobId ≠ w'.jobId := by
      rcases eq_or_of_update hw' with ⟨-, rfl⟩ | ⟨-, hw'⟩
      · exact hlease lease hexpected
      · exact hinv.leases k' w' lease hw' hclaimed hexpected
    refine ⟨hnew.1, fun job hjob hrunning heq k'' w'' hw'' hholding => ?_⟩
    exact hnew.2 job hjob hrunning heq k'' w'' (hold k'' w'' hw'' hholding.1) hholding

theorem Inv.enqueue (hinv : Inv s) {db : Database} {jobId connectionId : String} {now : ℤ} (hnow : s.now < now)
    (h : enqueueJob s.db jobId connectionId now = some db) : Inv ⟨db, now, s.workers⟩ := by
  obtain ⟨hactive, hfresh, new, hconnection, hpending, hlease, hget⟩ := get?_enqueueJob h
  have hnone : s.db.jobs.get? jobId = none := by
    rw [← Option.not_isSome_iff_eq_none, ← Dict.mem_iff_isSome]
    exact hfresh
  have hcases : ∀ id job, db.jobs.get? id = some job →
      id = jobId ∧ job = new ∨ id ≠ jobId ∧ s.db.jobs.get? id = some job := by
    intro id job hjob
    rw [hget] at hjob
    split at hjob
    · rename_i hid
      exact .inl ⟨hid, (Option.some.inj hjob).symm⟩
    · rename_i hid
      exact .inr ⟨hid, hjob⟩
  have hrunning : ∀ id job, db.jobs.get? id = some job → job.status = .running → s.db.jobs.get? id = some job := by
    intro id job hjob hstatus
    rcases hcases id job hjob with ⟨-, rfl⟩ | ⟨-, hold⟩
    · cases hpending.symm.trans hstatus
    · exact hold
  have hfree := not_hasActiveJob_iff.mp hactive
  refine ⟨fun id job hjob => ?_, fun id id' job job' hjob hjob' hact hact' hsame => ?_, hinv.coherent, hinv.reclaims,
    fun k w c hw hclaimed hdone => ?_, fun k k' w w' job hw hw' hholding hholding' hsame hjob hstatus => ?_,
    fun k w lease hw hclaimed hexpected => ?_⟩
  · rcases hcases id job hjob with ⟨-, rfl⟩ | ⟨-, hold⟩
    · exact hlease.le
    · exact (hinv.past id job hold).trans hnow.le
  · rcases hcases id job hjob with ⟨rfl, rfl⟩ | ⟨-, hold⟩
    · rcases hcases id' job' hjob' with ⟨rfl, -⟩ | ⟨-, hold'⟩
      · rfl
      · rw [hfree id' job' hold' (hsame.symm.trans hconnection)] at hact'
        cases hact'
    · rcases hcases id' job' hjob' with ⟨rfl, rfl⟩ | ⟨-, hold'⟩
      · rw [hfree id job hold (hsame.trans hconnection)] at hact
        cases hact
      · exact hinv.index id id' job job' hold hold' hact hact' hsame
  · obtain ⟨job, hjob, hrest⟩ := hinv.held k w c hw hclaimed hdone
    refine ⟨job, ?_, hrest⟩
    rw [hget, if_neg]
    · exact hjob
    · intro hid
      rw [hid, hnone] at hjob
      cases hjob
  · exact hinv.single k k' w w' job hw hw' hholding hholding' hsame (hrunning _ job hjob hstatus) hstatus
  · obtain ⟨hle, hnobody⟩ := hinv.leases k w lease hw hclaimed hexpected
    exact ⟨hle.trans hnow.le, fun job hjob hstatus => hnobody job (hrunning _ job hjob hstatus) hstatus⟩

theorem Inv.unheld (hinv : Inv s) {k : ℕ} {w : Worker} {job : Job} (hw : s.workers k = some w)
    (hphase : w.phase = .claiming) (hjob : s.db.jobs.get? w.jobId = some job)
    (hclaim : claimable w.allowStaleRunningClaim w.expectedRunningLeaseAt job = true) :
    ∀ k' w', s.workers k' = some w' → w'.Holding → w'.jobId ≠ w.jobId := by
  have hunclaimed : w.claimed = none := by
    have hcoherent := hinv.coherent k w hw
    unfold Worker.Coherent at hcoherent
    rw [hphase] at hcoherent
    exact hcoherent
  intro k' w' hw' hholding hsame
  obtain ⟨connectionId, hclaimed⟩ := Option.isSome_iff_exists.mp hholding.1
  obtain ⟨job', hjob', -, hnot, -⟩ := hinv.held k' w' connectionId hw' hclaimed hholding.2
  rw [hsame, hjob] at hjob'
  obtain rfl := Option.some.inj hjob'
  rcases Bool.or_eq_true_iff.mp hclaim with hpending | hreclaim
  · exact hnot (of_decide_eq_true hpending)
  · obtain ⟨hallowed, hlease⟩ := Bool.and_eq_true_iff.mp hreclaim
    obtain ⟨hallow, hrunning⟩ := Bool.and_eq_true_iff.mp hallowed
    obtain ⟨lease, hexpected⟩ := Option.isSome_iff_exists.mp (hinv.reclaims k w hw hallow)
    rw [hexpected] at hlease
    exact (hinv.leases k w lease hw hunclaimed hexpected).2 job hjob (of_decide_eq_true hrunning)
      (of_decide_eq_true hlease) k' w' hw' hholding hsame

theorem claimable_active {allow : Bool} {lease : Option ℤ} {job : Job} (h : claimable allow lease job = true) :
    job.status.isActive = true := by
  rcases Bool.or_eq_true_iff.mp h with hpending | hreclaim
  · rw [of_decide_eq_true hpending]
    rfl
  · obtain ⟨hallowed, -⟩ := Bool.and_eq_true_iff.mp hreclaim
    exact isActive_running (of_decide_eq_true (Bool.and_eq_true_iff.mp hallowed).2)

structure RowSet (db db' : Database) (jobId : String) (row : Job) : Prop where
  self : db'.jobs.get? jobId = some row
  other : ∀ id, id ≠ jobId → db'.jobs.get? id = db.jobs.get? id

theorem RowSet.eq_or {db db' : Database} {jobId id : String} {row job : Job} (h : RowSet db db' jobId row)
    (hjob : db'.jobs.get? id = some job) :
    id = jobId ∧ job = row ∨ id ≠ jobId ∧ db.jobs.get? id = some job := by
  by_cases hid : id = jobId
  · subst hid
    exact .inl ⟨rfl, Option.some.inj (hjob.symm.trans h.self)⟩
  · exact .inr ⟨hid, (h.other id hid).symm.trans hjob⟩

theorem rowSet_claim {db : Database} {w : Worker} {job : Job} {now : ℤ} (hjob : db.jobs.get? w.jobId = some job)
    (hclaim : claimable w.allowStaleRunningClaim w.expectedRunningLeaseAt job = true) :
    RowSet db (updateJob db w.jobId (claimable w.allowStaleRunningClaim w.expectedRunningLeaseAt) (Job.claimed now))
      w.jobId (job.claimed now) where
  self := by rw [get?_updateJob, hjob, Option.map_some, if_pos ⟨rfl, hclaim⟩]
  other := by
    intro id hid
    rw [get?_updateJob]
    simp [hid]

def Worker.claims (w : Worker) (job : Job) (now : ℤ) : Worker :=
  { w with claimed := some job.connectionId, lastBeat := now, phase := .readingSecret }

section Claim

variable {db : Database} {k : ℕ} {w : Worker} {job : Job} {now : ℤ}

theorem Inv.index_claim (hinv : Inv s) (hjob : s.db.jobs.get? w.jobId = some job)
    (hactive : job.status.isActive = true) (hrows : RowSet s.db db w.jobId (job.claimed now)) {id id' : String}
    {row row' : Job} (hrow : db.jobs.get? id = some row) (hrow' : db.jobs.get? id' = some row')
    (hact : row.status.isActive = true) (hact' : row'.status.isActive = true)
    (hsame : row.connectionId = row'.connectionId) : id = id' := by
  have hbefore : ∀ id row, db.jobs.get? id = some row → row.status.isActive = true → ∃ old,
      s.db.jobs.get? id = some old ∧ old.status.isActive = true ∧ old.connectionId = row.connectionId := by
    intro id row hrow hact
    rcases hrows.eq_or hrow with ⟨rfl, rfl⟩ | ⟨-, hold⟩
    · exact ⟨job, hjob, hactive, rfl⟩
    · exact ⟨row, hold, hact, rfl⟩
  obtain ⟨old, hold, hactive, hconnection⟩ := hbefore id row hrow hact
  obtain ⟨old', hold', hactive', hconnection'⟩ := hbefore id' row' hrow' hact'
  exact hinv.index id id' old old' hold hold' hactive hactive' (hconnection.trans (hsame.trans hconnection'.symm))

theorem Inv.single_claim (hinv : Inv s) (hrows : RowSet s.db db w.jobId (job.claimed now))
    (hunheld : ∀ k' w', s.workers k' = some w' → w'.Holding → w'.jobId ≠ w.jobId) {k₁ k₂ : ℕ} {w₁ w₂ : Worker}
    {row : Job} (hw₁ : Function.update s.workers k (some (w.claims job now)) k₁ = some w₁)
    (hw₂ : Function.update s.workers k (some (w.claims job now)) k₂ = some w₂) (hholding₁ : w₁.Holding)
    (hholding₂ : w₂.Holding) (hsame : w₁.jobId = w₂.jobId) (hrow : db.jobs.get? w₁.jobId = some row)
    (hstatus : row.status = .running) : k₁ = k₂ := by
  rcases eq_or_of_update hw₁ with ⟨rfl, rfl⟩ | ⟨-, hold₁⟩
  · rcases eq_or_of_update hw₂ with ⟨rfl, -⟩ | ⟨-, hold₂⟩
    · rfl
    · exact absurd hsame.symm (hunheld k₂ w₂ hold₂ hholding₂)
  · rcases eq_or_of_update hw₂ with ⟨rfl, rfl⟩ | ⟨-, hold₂⟩
    · exact absurd hsame (hunheld k₁ w₁ hold₁ hholding₁)
    · rw [hrows.other _ (hunheld k₁ w₁ hold₁ hholding₁)] at hrow
      exact hinv.single k₁ k₂ w₁ w₂ row hold₁ hold₂ hholding₁ hholding₂ hsame hrow hstatus

theorem Inv.leases_claim (hinv : Inv s) (hnow : s.now < now) (hrows : RowSet s.db db w.jobId (job.claimed now))
    {k' : ℕ} {w' : Worker} {lease : ℤ} (hw' : s.workers k' = some w') (hclaimed : w'.claimed = none)
    (hexpected : w'.expectedRunningLeaseAt = some lease) :
    lease ≤ now ∧ ∀ row, db.jobs.get? w'.jobId = some row → row.status = .running → row.leaseAt = lease →
      ∀ k'' w'', Function.update s.workers k (some (w.claims job now)) k'' = some w'' → w''.Holding →
        w''.jobId ≠ w'.jobId := by
  obtain ⟨hle, hfree⟩ := hinv.leases k' w' lease hw' hclaimed hexpected
  refine ⟨hle.trans hnow.le, fun row hrow hstatus hlease k'' w'' hw'' hholding => ?_⟩
  rcases hrows.eq_or hrow with ⟨-, rfl⟩ | ⟨hne, hrow'⟩
  · have hmoved : lease = now := hlease.symm
    omega
  · rcases eq_or_of_update hw'' with ⟨-, rfl⟩ | ⟨-, hold⟩
    · exact hne.symm
    · exact hfree row hrow' hstatus hlease k'' w'' hold hholding

theorem Inv.claim (hinv : Inv s) (hnow : s.now < now)
    (hw : s.workers k = some w) (hphase : w.phase = .claiming) (hjob : s.db.jobs.get? w.jobId = some job)
    (hclaim : claimable w.allowStaleRunningClaim w.expectedRunningLeaseAt job = true) :
    Inv ⟨updateJob s.db w.jobId (claimable w.allowStaleRunningClaim w.expectedRunningLeaseAt) (Job.claimed now), now,
      Function.update s.workers k (some (w.claims job now))⟩ := by
  have hunheld := hinv.unheld hw hphase hjob hclaim
  have hrows : RowSet s.db _ w.jobId (job.claimed now) := rowSet_claim hjob hclaim
  refine ⟨fun id row hrow => ?_, fun id id' row row' hrow hrow' hact hact' hsame => ?_, fun k' w' hw' => ?_,
    fun k' w' hw' => ?_, fun k' w' c hw' hclaimed hdone => ?_,
    fun k₁ k₂ w₁ w₂ row hw₁ hw₂ hholding₁ hholding₂ hsame hrow hstatus => ?_, fun k' w' lease hw' hclaimed hexpected => ?_⟩
  · rcases hrows.eq_or hrow with ⟨-, rfl⟩ | ⟨-, hold⟩
    · exact le_rfl
    · exact (hinv.past id row hold).trans hnow.le
  · exact hinv.index_claim hjob (claimable_active hclaim) hrows hrow hrow' hact hact' hsame
  · rcases eq_or_of_update hw' with ⟨-, rfl⟩ | ⟨-, hold⟩
    · exact rfl
    · exact hinv.coherent k' w' hold
  · rcases eq_or_of_update hw' with ⟨-, rfl⟩ | ⟨-, hold⟩
    · exact hinv.reclaims k w hw
    · exact hinv.reclaims k' w' hold
  · rcases eq_or_of_update hw' with ⟨-, rfl⟩ | ⟨-, hold⟩
    · obtain rfl := Option.some.inj hclaimed
      exact ⟨job.claimed now, hrows.self, rfl, nofun, fun _ => le_rfl⟩
    · obtain ⟨row, hrow, hrest⟩ := hinv.held k' w' c hold hclaimed hdone
      have hne := hunheld k' w' hold ⟨by rw [hclaimed]; rfl, hdone⟩
      exact ⟨row, (hrows.other _ hne).trans hrow, hrest⟩
  · exact hinv.single_claim hrows hunheld hw₁ hw₂ hholding₁ hholding₂ hsame hrow hstatus
  · rcases eq_or_of_update hw' with ⟨-, rfl⟩ | ⟨-, hold⟩
    · exact nomatch hclaimed
    · exact hinv.leases_claim hnow hrows hold hclaimed hexpected

end Claim

/-! ## One event -/

theorem coherent_of_claimed {w : Worker} (hphase : w.phase ≠ .claiming) (hclaimed : w.claimed.isSome = true) :
    w.Coherent := by
  unfold Worker.Coherent
  split
  · rename_i h
    exact absurd h hphase
  · trivial
  · trivial
  · exact hclaimed

variable {orphanThreshold : ℤ} {e : Event}

theorem lt_timeOf (s : State) (e : Event) : s.now < s.timeOf e := by
  unfold State.timeOf
  omega

theorem Inv.later (hinv : Inv s) (e : Event) : Inv ⟨s.db, s.timeOf e, s.workers⟩ :=
  hinv.rows (lt_timeOf s e) (rowsStep_of_jobs rfl)

theorem inv_spawn (hinv : Inv s) (workerId : ℕ) (jobId : String) (recovery : Option ℤ)
    (hlease : ∀ lease, recovery = some lease → lease ≤ s.now ∧ ∀ job, s.db.jobs.get? jobId = some job →
      job.status = .running → job.leaseAt = lease → ∀ k' w', s.workers k' = some w' → w'.Holding → w'.jobId ≠ jobId) :
    Inv ⟨s.db, s.timeOf e, if (s.workers workerId).isSome then s.workers
      else Function.update s.workers workerId (some (.start jobId recovery))⟩ := by
  have hlater := hinv.later e
  split
  · exact hlater
  · refine hlater.start workerId jobId recovery fun lease hrecovery => ?_
    exact ⟨(hlease lease hrecovery).1.trans (lt_timeOf s e).le, (hlease lease hrecovery).2⟩

theorem lease_of_orphaned (hinv : Inv s) (hsilent : NotSilent orphanThreshold s e) {jobId : String} {job : Job}
    (hjob : s.db.jobs.get? jobId = some job) (horphaned : isOrphaned s.db orphanThreshold (s.timeOf e) job = true) :
    job.leaseAt ≤ s.now ∧ ∀ job', s.db.jobs.get? jobId = some job' → job'.status = .running →
      job'.leaseAt = job.leaseAt → ∀ k' w', s.workers k' = some w' → w'.Holding → w'.jobId ≠ jobId := by
  refine ⟨hinv.past jobId job hjob, fun job' hjob' hrunning _ k' w' hw' hholding hsame => ?_⟩
  obtain rfl := Option.some.inj (hjob.symm.trans hjob')
  obtain ⟨connectionId, hclaimed⟩ := Option.isSome_iff_exists.mp hholding.1
  obtain ⟨job', hjob', -, -, hbeat⟩ := hinv.held k' w' connectionId hw' hclaimed hholding.2
  rw [hsame, hjob] at hjob'
  obtain rfl := Option.some.inj hjob'
  have hrecent := hsilent k' w' hw' hholding
  have hlast := hbeat hrunning
  rcases Bool.or_eq_true_iff.mp (Bool.and_eq_true_iff.mp horphaned).1 with hpending | hstale
  · exact nomatch hrunning.symm.trans (of_decide_eq_true hpending)
  · have hold : job.leaseAt < s.timeOf e - orphanThreshold :=
      of_decide_eq_true (Bool.and_eq_true_iff.mp hstale).2
    omega

theorem inv_work (hinv : Inv s) {workerId : ℕ} {w : Worker} (hw : s.workers workerId = some w) (reply : Reply) :
    Inv ⟨(workerStep s.db (s.timeOf e) w reply).1, s.timeOf e,
      Function.update s.workers workerId (some (workerStep s.db (s.timeOf e) w reply).2)⟩ := by
  have heffect := workerStep_effect s.db (s.timeOf e) w reply
  have hnow := lt_timeOf s e
  have hcoherent := hinv.coherent workerId w hw
  generalize workerStep s.db (s.timeOf e) w reply = result at heffect
  cases heffect with
  | claims job hphase hjob hclaim => exact hinv.claim hnow hw hphase hjob hclaim
  | beats stage counts batchId backfill phase hphase hreply hnext =>
    refine (hinv.rows hnow (rowsStep_merge s.db w.jobId (snapshot stage counts) _)).goOn_one hw ?_
    refine ⟨rfl, rfl, rfl, rfl, fun h => coherent_of_claimed hnext ?_, fun _ => by rw [hphase]; rfl, ?_⟩
    · unfold Worker.Coherent at h
      rw [hphase] at h
      exact h
    -- the statement moves the row's own heartbeat to the same time
    intro job hjob _
    dsimp only at hjob
    unfold mergeJobProgress at hjob
    rw [get?_updateJob] at hjob
    obtain ⟨old, -, rfl⟩ := Option.map_eq_some_iff.mp hjob
    rw [if_pos ⟨rfl, rfl⟩]
    exact le_rfl
  | ends ending phase hclaimed hphase hlive =>
    refine (hinv.rows hnow (rowsStep_finalize s.db w.jobId ending false _)).goOn_one hw ?_
    exact ⟨rfl, rfl, rfl, rfl, fun h => coherent_of_claimed hphase (hclaimed h), fun _ => hlive, fun _ _ => id⟩
  | crashes ending hphase =>
    refine (hinv.rows hnow (rowsStep_finalize s.db w.jobId ending true _)).goOn_one hw ?_
    exact ⟨rfl, rfl, rfl, rfl, fun _ => trivial, nofun, fun _ _ => id⟩
  | moves db' phase hjobs hkeeps hdone =>
    refine (hinv.rows hnow (rowsStep_of_jobs hjobs)).goOn_one hw ?_
    refine ⟨rfl, rfl, rfl, rfl, hkeeps, fun h => ?_, fun _ _ => id⟩
    exact eq_false_of_ne_true fun hd => by
      rw [hdone hd] at h
      exact nomatch h

/-- **Every event keeps the invariant**, as long as no worker is silent for too long. -/
theorem inv_step (hinv : Inv s) (hsilent : NotSilent orphanThreshold s e) : Inv (step orphanThreshold s e) := by
  unfold step
  cases haction : e.action with
  | enqueue jobId connectionId =>
    show Inv ⟨(enqueueJob s.db jobId connectionId (s.timeOf e)).getD s.db, s.timeOf e, s.workers⟩
    cases hdb : enqueueJob s.db jobId connectionId (s.timeOf e) with
    | none => exact hinv.later e
    | some db => exact hinv.enqueue (lt_timeOf s e) hdb
  | spawn workerId jobId => exact inv_spawn hinv workerId jobId none (by rintro lease ⟨⟩)
  | recover workerId jobId =>
    show Inv ⟨(act orphanThreshold s (s.timeOf e) (.recover workerId jobId)).1, s.timeOf e,
      (act orphanThreshold s (s.timeOf e) (.recover workerId jobId)).2⟩
    unfold act
    dsimp only
    split
    · rename_i job hfound
      obtain ⟨hjob, horphaned⟩ := Option.filter_eq_some_iff.mp hfound
      refine inv_spawn hinv workerId jobId (some job.leaseAt) fun lease hlease => ?_
      obtain rfl := Option.some.inj hlease
      exact lease_of_orphaned hinv hsilent hjob horphaned
    · exact hinv.later e
  | work workerId reply =>
    show Inv ⟨(act orphanThreshold s (s.timeOf e) (.work workerId reply)).1, s.timeOf e,
      (act orphanThreshold s (s.timeOf e) (.work workerId reply)).2⟩
    cases hw : s.workers workerId with
    | none =>
      simp only [act, hw]
      exact hinv.later e
    | some w =>
      simp only [act, hw]
      exact inv_work hinv hw reply
  | stop workerId =>
    refine (hinv.later e).goOn fun k w' hw' => ?_
    have hupdate : Function.update s.workers workerId none k = some w' := hw'
    by_cases hk : k = workerId
    · subst hk
      rw [Function.update_self] at hupdate
      cases hupdate
    · rw [Function.update_of_ne hk] at hupdate
      exact ⟨w', hupdate, .refl _ w'⟩
  | disable connectionId => exact hinv.rows (lt_timeOf s e) (rowsStep_disable s.db connectionId _)
  | patch connectionId status => exact hinv.rows (lt_timeOf s e) (rowsStep_of_jobs rfl)

/-- Two workers inside the provider for one connection whose jobs run hold one job, so they are one. -/
theorem Inv.alone (hinv : Inv s) : Alone s := by
  intro k k' w w' connectionId hw hw' hinside hinside' ⟨job, hjob, hrunning⟩ ⟨job', hjob', hrunning'⟩
  have hholding : ∀ {w : Worker}, w.Inside connectionId → w.Holding := by
    rintro w ⟨hclaimed, batchId, stage, backfill, hphase⟩
    refine ⟨by rw [hclaimed]; rfl, by rw [hphase]; rfl⟩
  have hconnection : ∀ {k w job}, s.workers k = some w → w.Inside connectionId → s.db.jobs.get? w.jobId = some job →
      job.connectionId = connectionId := by
    intro k w job hw hinside hjob
    obtain ⟨row, hrow, hrowConnection, -⟩ := hinv.held k w connectionId hw hinside.1 (hholding hinside).2
    obtain rfl := Option.some.inj (hjob.symm.trans hrow)
    exact hrowConnection
  have hsame := hinv.index w.jobId w'.jobId job job' hjob hjob' (isActive_running hrunning) (isActive_running hrunning')
    ((hconnection hw hinside hjob).trans (hconnection hw' hinside' hjob').symm)
  exact hinv.single k k' w w' job hw hw' (hholding hinside) (hholding hinside') hsame hjob hrunning

theorem Inv.claimed_of_holding (hinv : Inv s) {k : ℕ} {w : Worker} {job : Job} (hw : s.workers k = some w)
    (hholding : w.Holding) (hjob : s.db.jobs.get? w.jobId = some job) : w.claimed = some job.connectionId := by
  obtain ⟨connectionId, hclaimed⟩ := Option.isSome_iff_exists.mp hholding.1
  obtain ⟨row, hrow, hconnection, -⟩ := hinv.held k w connectionId hw hclaimed hholding.2
  obtain rfl := Option.some.inj (hjob.symm.trans hrow)
  rw [hclaimed, hconnection]

theorem ended_work (hinv : Inv s) {workerId : ℕ} {w : Worker} (hw : s.workers workerId = some w) {reply : Reply}
    (haction : e.action = .work workerId reply) {jobId : String} {job job' : Job}
    (hjob : s.db.jobs.get? jobId = some job)
    (hjob' : (workerStep s.db (s.timeOf e) w reply).1.jobs.get? jobId = some job')
    (hactive : job.status.isActive = true) (hended : job'.status.isActive = false) : MayEnd s e jobId job := by
  have heffect := workerStep_effect s.db (s.timeOf e) w reply
  generalize workerStep s.db (s.timeOf e) w reply = result at heffect hjob'
  have hnot : job' = job → MayEnd s e jobId job := by
    rintro rfl
    rw [hended] at hactive
    exact nomatch hactive
  cases heffect with
  | claims row hphase hrow hclaim =>
    rw [get?_updateJob, hjob, Option.map_some] at hjob'
    split at hjob'
    · obtain rfl := Option.some.inj hjob'
      exact nomatch hended
    · exact hnot (Option.some.inj hjob').symm
  | beats stage counts batchId backfill phase hphase hreply hnext =>
    unfold mergeJobProgress at hjob'
    rw [get?_updateJob, hjob, Option.map_some] at hjob'
    split at hjob'
    · obtain rfl := Option.some.inj hjob'
      rw [show job.status.isActive = false from hended] at hactive
      exact nomatch hactive
    · exact hnot (Option.some.inj hjob').symm
  | ends ending phase hclaimed hphase hlive =>
    unfold finalizeJob at hjob'
    rw [get?_updateJob, hjob] at hjob'
    by_cases hid : jobId = w.jobId
    · subst hid
      have hholding : w.Holding := ⟨hclaimed (hinv.coherent workerId w hw), hlive⟩
      exact .inl ⟨workerId, reply, w, haction, hw, rfl, .inl (hinv.claimed_of_holding hw hholding hjob)⟩
    · rw [Option.map_some, if_neg fun h => hid h.1] at hjob'
      exact hnot (Option.some.inj hjob').symm
  | crashes ending hphase =>
    unfold finalizeJob at hjob'
    rw [get?_updateJob, hjob] at hjob'
    by_cases hid : jobId = w.jobId
    · subst hid
      refine .inl ⟨workerId, reply, w, haction, hw, rfl, ?_⟩
      cases hclaimed : w.claimed with
      | none => exact .inr ⟨rfl, hphase⟩
      | some connectionId =>
        have hholding : w.Holding := ⟨by rw [hclaimed]; rfl, by rw [hphase]; rfl⟩
        rw [← hclaimed]
        exact .inl (hinv.claimed_of_holding hw hholding hjob)
    · rw [Option.map_some, if_neg fun h => hid h.1] at hjob'
      exact hnot (Option.some.inj hjob').symm
  | moves db' phase hjobs hkeeps hdone =>
    rw [hjobs, hjob] at hjob'
    exact hnot (Option.some.inj hjob').symm

theorem ended_step (hinv : Inv s) {jobId : String} {job job' : Job} (hjob : s.db.jobs.get? jobId = some job)
    (hjob' : (step orphanThreshold s e).db.jobs.get? jobId = some job') (hactive : job.status.isActive = true)
    (hended : job'.status.isActive = false) : MayEnd s e jobId job := by
  have hsame : (step orphanThreshold s e).db.jobs = s.db.jobs → MayEnd s e jobId job := by
    intro hjobs
    rw [hjobs, hjob] at hjob'
    obtain rfl := Option.some.inj hjob'
    rw [hended] at hactive
    cases hactive
  unfold step at hjob' hsame
  cases haction : e.action with
  | enqueue newId connectionId =>
    rw [haction] at hjob'
    have hget : ((enqueueJob s.db newId connectionId (s.timeOf e)).getD s.db).jobs.get? jobId = some job' := hjob'
    cases hdb : enqueueJob s.db newId connectionId (s.timeOf e) with
    | none =>
      rw [hdb, Option.getD_none, hjob] at hget
      obtain rfl := Option.some.inj hget
      rw [hended] at hactive
      cases hactive
    | some db =>
      obtain ⟨-, hfresh, new, -, -, -, hrows⟩ := get?_enqueueJob hdb
      have hne : jobId ≠ newId := by
        rintro rfl
        exact hfresh (Dict.mem_of_get? hjob)
      rw [hdb, Option.getD_some, hrows, if_neg hne, hjob] at hget
      obtain rfl := Option.some.inj hget
      rw [hended] at hactive
      cases hactive
  | spawn => exact hsame (by rw [haction]; rfl)
  | recover => exact hsame (by rw [haction]; rfl)
  | work workerId reply =>
    rw [haction] at hjob'
    cases hw : s.workers workerId with
    | none => exact hsame (by rw [haction]; simp only [act, hw])
    | some w =>
      simp only [act, hw] at hjob'
      exact ended_work hinv hw haction hjob hjob' hactive hended
  | stop => exact hsame (by rw [haction]; rfl)
  | disable connectionId =>
    rw [haction] at hjob'
    have hget : (disableConnection s.db connectionId (s.timeOf e)).jobs.get? jobId = some job' := hjob'
    rw [get?_disableConnection, hjob] at hget
    obtain rfl := Option.some.inj hget
    by_cases hconnection : job.connectionId = connectionId
    · exact .inr (hconnection ▸ haction)
    · rw [Job.cancelled, if_neg fun h => hconnection h.1, hactive] at hended
      cases hended
  | patch => exact hsame (by rw [haction]; rfl)

end Preserved

/-! ## Runs -/

/-- **One ingestion for a connection**, along every run in which no worker is silent for longer than the threshold: no two
workers whose jobs are running are inside the provider for one connection, and only its own worker, one whose claim raised
or disabling the connection ends a job. -/
theorem along_oneIngestion (orphanThreshold : ℤ) (s : State) (hrest : AtRest s) (events : List Event)
    (hsilent : Along (step orphanThreshold) (NotSilent orphanThreshold) s events) :
    Along (step orphanThreshold) (OneIngestion orphanThreshold) s events := by
  refine Along.imp (fun s e hnotSilent hinv => ?_) hrest.inv hsilent
  have hnext := inv_step hinv hnotSilent
  exact ⟨⟨hnext.alone, fun jobId job job' hjob hjob' => ended_step hinv hjob hjob'⟩, hnext⟩

/-- A connection without a job. -/
def connected : State := ⟨⟨Dict.empty.set "C" .active, Dict.empty⟩, 0, fun _ => none⟩

theorem connected_atRest : AtRest connected := by
  have hnone : ∀ id, connected.db.jobs.get? id = none := fun _ => rfl
  exact ⟨fun _ => rfl, fun id _ _ _ hjob => (nomatch (hnone id).symm.trans hjob),
    fun id _ hjob => (nomatch (hnone id).symm.trans hjob)⟩

/-- A job is inserted, and its worker goes on until it is inside the provider. -/
def ingests (workerId : ℕ) (jobId : String) : List Event :=
  [⟨0, .enqueue jobId "C"⟩, ⟨0, .spawn workerId jobId⟩, ⟨0, .work workerId .executed⟩,
    ⟨0, .work workerId (.prepared (.begins "B" false))⟩]

def Action.concerns (ids : List ℕ) : Action → Bool
  | .spawn k _ => decide (k ∈ ids)
  | .recover k _ => decide (k ∈ ids)
  | .work k _ => decide (k ∈ ids)
  | _ => true

def beats (orphanThreshold : ℤ) (ids : List ℕ) (s : State) (e : Event) : Bool :=
  e.action.concerns ids && ids.all fun k => (s.workers k).all fun w =>
    w.claimed.isNone || decide (s.timeOf e - w.lastBeat ≤ orphanThreshold)

theorem workers_step_none {orphanThreshold : ℤ} {ids : List ℕ} {s : State} {e : Event}
    (hconcerns : e.action.concerns ids = true) {k : ℕ} (hk : k ∉ ids) (hnone : s.workers k = none) :
    (step orphanThreshold s e).workers k = none := by
  unfold step
  have hupdate : ∀ {k' : ℕ} {w : Option Worker}, k' ∈ ids → Function.update s.workers k' w k = none := by
    intro k' w hk'
    rw [Function.update_of_ne (fun h : k = k' => hk (h ▸ hk'))]
    exact hnone
  cases haction : e.action with
  | enqueue => exact hnone
  | spawn k' jobId =>
    rw [haction] at hconcerns
    simp only [act]
    split
    · exact hnone
    · exact hupdate (of_decide_eq_true hconcerns)
  | recover k' jobId =>
    rw [haction] at hconcerns
    simp only [act]
    cases (s.db.jobs.get? jobId).filter (isOrphaned s.db orphanThreshold (s.timeOf e)) with
    | none => exact hnone
    | some job =>
      dsimp only
      split
      · exact hnone
      · exact hupdate (of_decide_eq_true hconcerns)
  | work k' reply =>
    rw [haction] at hconcerns
    simp only [act]
    split
    · exact hupdate (of_decide_eq_true hconcerns)
    · exact hnone
  | stop k' =>
    show Function.update s.workers k' none k = none
    by_cases hkk : k = k'
    · subst hkk
      exact Function.update_self _ _ _
    · rw [Function.update_of_ne hkk]
      exact hnone
  | disable => exact hnone
  | patch => exact hnone

theorem along_notSilent {orphanThreshold : ℤ} {ids : List ℕ} {s : State} {events : List Event}
    (hnone : ∀ k, k ∉ ids → s.workers k = none)
    (h : Along (step orphanThreshold) (fun s e => beats orphanThreshold ids s e = true) s events) :
    Along (step orphanThreshold) (NotSilent orphanThreshold) s events := by
  refine @Along.imp _ _ _ _ _ (fun s => ∀ k, k ∉ ids → s.workers k = none)
    (fun s e hbeats hnone => ⟨fun k w hw hholding => ?_, fun k hk => ?_⟩) s events hnone h
  · obtain ⟨-, hall⟩ := Bool.and_eq_true_iff.mp hbeats
    by_cases hk : k ∈ ids
    · have hone := List.all_eq_true.mp hall k hk
      rw [hw] at hone
      rcases Bool.or_eq_true_iff.mp hone with hunclaimed | hle
      · have hclaimed := hholding.1
        rw [Option.isNone_iff_eq_none.mp hunclaimed] at hclaimed
        exact nomatch hclaimed
      · exact of_decide_eq_true hle
    · exact nomatch (hnone k hk).symm.trans hw
  · exact workers_step_none (Bool.and_eq_true_iff.mp hbeats).1 hk (hnone k hk)

/-- A worker that is not silent for half an hour, up to the provider. -/
theorem first_sync_ingests_alone : Along (step 1800000000) (OneIngestion 1800000000) connected (ingests 1 "J1") :=
  along_oneIngestion 1800000000 connected connected_atRest (ingests 1 "J1")
    (@along_notSilent _ [1] _ _ (fun _ _ => rfl) (by decide +kernel))

/-- The connection is disabled under the worker of the first job, enabled again and synchronized again. -/
def disabledUnderWay : List Event :=
  ingests 1 "J1" ++ [⟨0, .disable "C"⟩, ⟨0, .patch "C" .active⟩] ++ ingests 2 "J2"

/-- Two workers are inside the provider for one connection. -/
theorem two_ingestions_after_disable : ¬ ∀ orphanThreshold s events, AtRest s →
    Along (step orphanThreshold) (NotSilent orphanThreshold) s events →
      ∀ k k' w w' connectionId, (run (step orphanThreshold) s events).workers k = some w →
        (run (step orphanThreshold) s events).workers k' = some w' → w.Inside connectionId → w'.Inside connectionId →
          k = k' := by
  intro h
  have hall := h 1800000000 connected disabledUnderWay connected_atRest
    (@along_notSilent _ [1, 2] _ _ (fun _ _ => rfl) (by decide +kernel))
  exact absurd (hall 1 2 _ _ "C" rfl rfl ⟨rfl, _, _, _, rfl⟩ ⟨rfl, _, _, _, rfl⟩) (by decide)

end FavoniusBackend.Ingestion
