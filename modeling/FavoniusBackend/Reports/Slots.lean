import FavoniusBackend.Reports.ScheduleEdits

/-!
# No report slot is lost

A worker leaves a slot only when the run of the slot is finished.  It has finished the run itself, or it has seen a row
that it can neither take over nor leave to its owner; since a run is only ever triggered anew at the present, such a row is
finished.  A worker that was taken over and comes back writes the slot after its own, whose run it has finished as well.

`TurnHolds` says for every phase what is known of the run of the slot; `Grows` what all statements do to the runs.
-/

namespace FavoniusBackend.Reports

open Lib
open Lib.Run

variable {setting : Setting}

/-! ## Runs only grow -/

def Finished (db : Database) (key : RunKey) : Prop := ∃ run, db.runs.get? key = some run ∧ run.completedAt.isSome

def TriggeredInPast (db : Database) : Prop := ∀ key run, db.runs.get? key = some run → run.triggeredAt ≤ db.now

/-- What happened to the runs: none is gone, none that was finished is not, and none is triggered earlier. -/
def Grows (db db' : Database) : Prop :=
  ∀ key run, db.runs.get? key = some run → ∃ run', db'.runs.get? key = some run' ∧
    (run.completedAt.isSome → run'.completedAt.isSome) ∧ run.triggeredAt ≤ run'.triggeredAt

theorem grows_of_eq {db db' : Database} (h : db'.runs = db.runs) : Grows db db' :=
  fun _ run hrun => ⟨run, h ▸ hrun, id, le_rfl⟩

theorem Finished.grows {db db' : Database} {key : RunKey} (h : Finished db key) (hgrows : Grows db db') :
    Finished db' key := by
  obtain ⟨run, hrun, hcompleted⟩ := h
  obtain ⟨run', hrun', hkeeps, -⟩ := hgrows key run hrun
  exact ⟨run', hrun', hkeeps hcompleted⟩

theorem grows_updateRun {db : Database} (key : RunKey) {g : ScheduleRun → ScheduleRun}
    (h : ∀ run, db.runs.get? key = some run → (run.completedAt.isSome → (g run).completedAt.isSome) ∧
      run.triggeredAt ≤ (g run).triggeredAt) : Grows db (updateRun db key g) := by
  intro key' run hrun
  rw [get?_updateRun]
  by_cases hkey : key' = key
  · subst hkey
    rw [if_pos rfl, hrun]
    exact ⟨g run, rfl, h run hrun⟩
  · rw [if_neg hkey]
    exact ⟨run, hrun, id, le_rfl⟩

theorem triggeredInPast_updateRun {db : Database} (hdb : TriggeredInPast db) (key : RunKey)
    {g : ScheduleRun → ScheduleRun} (h : ∀ run, run.triggeredAt ≤ db.now → (g run).triggeredAt ≤ db.now) :
    TriggeredInPast (updateRun db key g) := by
  intro key' run' hrun'
  have hnow : (updateRun db key g).now = db.now := by
    unfold updateRun
    split <;> rfl
  rw [hnow]
  rw [get?_updateRun] at hrun'
  split at hrun'
  · obtain ⟨run, hrun, rfl⟩ := Option.map_eq_some_iff.mp hrun'
    exact h run (hdb key run hrun)
  · exact hdb key' run' hrun'

structure KeepsRuns (db db' : Database) : Prop where
  grows : Grows db db'
  past : TriggeredInPast db → TriggeredInPast db'

theorem keepsRuns_of_eq {db db' : Database} (hruns : db'.runs = db.runs) (hnow : db.now ≤ db'.now) : KeepsRuns db db' where
  grows := grows_of_eq hruns
  past := fun h key run hrun => (h key run (hruns ▸ hrun)).trans hnow

theorem keepsRuns_claimRun (db : Database) (key : RunKey) : KeepsRuns db (claimRun db key) := by
  unfold claimRun
  cases hrun : db.runs.get? key with
  | some run => exact keepsRuns_of_eq rfl le_rfl
  | none =>
    constructor
    · intro key' run' hrun'
      have hne : key' ≠ key := by
        rintro rfl
        rw [hrun] at hrun'
        exact nomatch hrun'
      exact ⟨run', (Dict.get?_set_ne db.runs _ hne).trans hrun', id, le_rfl⟩
    · intro h key' run' hrun'
      simp only [Dict.get?_set] at hrun'
      split at hrun'
      · obtain rfl := Option.some.inj hrun'
        exact le_rfl
      · exact h key' run' hrun'

theorem keepsRuns_finalizeRun (db : Database) (key : RunKey) (status : RunStatus) (reportId : Option ReportId)
    (errorMessage : Option String) : KeepsRuns db (finalizeRun db key status reportId errorMessage) where
  grows := grows_updateRun key fun _ _ => ⟨fun _ => rfl, le_rfl⟩
  past := fun h => triggeredInPast_updateRun h key fun _ hrun => hrun

theorem RunStatement.keepsRuns {db db' : Database} {key : RunKey} (h : RunStatement db key db') : KeepsRuns db db' := by
  cases h with
  | none => exact keepsRuns_of_eq rfl le_rfl
  | persist reportId =>
    constructor
    · refine grows_updateRun key fun run _ => ?_
      split
      · exact ⟨id, le_rfl⟩
      · exact ⟨id, le_rfl⟩
    · refine fun h => triggeredInPast_updateRun h key fun run hrun => ?_
      split
      · exact hrun
      · exact hrun
  | finalize status reportId errorMessage => exact keepsRuns_finalizeRun db key status reportId errorMessage

theorem past_retryStale {db : Database} (h : TriggeredInPast db) (key : RunKey) (threshold : ℤ) :
    TriggeredInPast (retryStale db key threshold) := by
  unfold retryStale
  split
  · exact triggeredInPast_updateRun h key fun _ _ => le_rfl
  · exact h

theorem grows_retryStale {db : Database} (h : TriggeredInPast db) (key : RunKey) (threshold : ℤ) :
    Grows db (retryStale db key threshold) := by
  unfold retryStale
  split
  · exact grows_updateRun key fun run hrun => ⟨id, h key run hrun⟩
  · exact grows_of_eq rfl

theorem finished_finalizeRun {db : Database} {key : RunKey} (h : (db.runs.get? key).isSome) (status : RunStatus)
    (reportId : Option ReportId) (errorMessage : Option String) :
    Finished (finalizeRun db key status reportId errorMessage) key := by
  obtain ⟨run, hrun⟩ := Option.isSome_iff_exists.mp h
  unfold Finished finalizeRun
  rw [get?_updateRun, if_pos rfl, hrun]
  exact ⟨_, rfl, rfl⟩

/-! ## What a worker knows -/

/-- What is known of the run of a worker's slot. -/
def TurnHolds (setting : Setting) (db : Database) : Phase → Prop
  | .idle | .loop _ _ | .claiming _ => True
  | .executing f _ | .failing f | .checkingStale f => (db.runs.get? f.key).isSome
  | .checkingInFlight f =>
    ∃ run, db.runs.get? f.key = some run ∧ (run.completedAt.isSome ∨ f.staleThreshold < run.triggeredAt)
  | .advancing f _ nextAt =>
    Finished db f.key ∧ setting.nextRunAt f.due.row f.due.row.cadence f.due.scheduledFor = .ok nextAt

theorem isSome_grows {db db' : Database} {key : RunKey} (h : (db.runs.get? key).isSome) (hgrows : Grows db db') :
    (db'.runs.get? key).isSome := by
  obtain ⟨run, hrun⟩ := Option.isSome_iff_exists.mp h
  obtain ⟨run', hrun', -⟩ := hgrows key run hrun
  rw [hrun']
  rfl

theorem TurnHolds.grows {db db' : Database} {phase : Phase} (h : TurnHolds setting db phase) (hgrows : Grows db db') :
    TurnHolds setting db' phase := by
  cases phase with
  | idle => trivial
  | loop now due => trivial
  | claiming f => trivial
  | executing f e => exact isSome_grows h hgrows
  | failing f => exact isSome_grows h hgrows
  | checkingStale f => exact isSome_grows h hgrows
  | checkingInFlight f =>
    obtain ⟨run, hrun, hstate⟩ := h
    obtain ⟨run', hrun', hkeeps, hle⟩ := hgrows f.key run hrun
    exact ⟨run', hrun', hstate.imp hkeeps fun hlt => hlt.trans_le hle⟩
  | advancing f terminalStatus nextAt => exact ⟨h.1.grows hgrows, h.2⟩

theorem turnHolds_handled {db : Database} {f : Frame} (h : Finished db f.key) (terminalStatus : Option RunStatus) :
    TurnHolds setting db (handled setting f terminalStatus) := by
  unfold handled
  split
  · rename_i hnext
    exact ⟨h, hnext⟩
  · trivial

theorem grows_commit (a : Answer) {db db' : Database} (h : Grows db db') : Grows db (a.commit db db') := by
  unfold Answer.commit
  split
  · exact grows_of_eq rfl
  · exact h

theorem past_commit (a : Answer) {db db' : Database} (hdb : TriggeredInPast db) (h : TriggeredInPast db') :
    TriggeredInPast (a.commit db db') := by
  unfold Answer.commit
  split
  · exact hdb
  · exact h

theorem commit_of_returns {a : Answer} (h : ¬ a.raises.isSome) (db db' : Database) : a.commit db db' = db' := by
  unfold Answer.commit
  rw [if_neg]
  intro hraises
  rw [hraises] at h
  exact h rfl

theorem runs_advanceSchedule (db : Database) (id : ScheduleId) (scheduledFor nextAt : ℤ)
    (terminalStatus : Option RunStatus) :
    (advanceSchedule db id scheduledFor nextAt terminalStatus).runs = db.runs ∧
      (advanceSchedule db id scheduledFor nextAt terminalStatus).now = db.now := by
  unfold advanceSchedule updateSchedule
  cases terminalStatus with
  | some status => cases db.schedules.get? id <;> exact ⟨rfl, rfl⟩
  | none => cases db.schedules.get? id <;> exact ⟨rfl, rfl⟩

theorem ExecuteOutcome.keepsRuns {db : Database} {f : Frame} {r : Database × Phase}
    (h : ExecuteOutcome setting db f r) : KeepsRuns db r.1 := by
  cases h with
  | goesOn e h => exact h.keepsRuns
  | raises h => exact h.keepsRuns
  | ends status reportId errorMessage => exact keepsRuns_finalizeRun _ _ _ _ _

theorem runs_workerStep {db : Database} (hpast : TriggeredInPast db) (phase : Phase) (a : Answer) :
    Grows db (workerStep setting db phase a).1 ∧ TriggeredInPast (workerStep setting db phase a).1 := by
  cases phase with
  | idle => exact ⟨grows_of_eq rfl, hpast⟩
  | loop now due =>
    cases due with
    | nil => exact ⟨grows_of_eq rfl, hpast⟩
    | cons due rest => exact ⟨grows_of_eq rfl, hpast⟩
  | claiming f =>
    have hclaim := keepsRuns_claimRun db f.key
    exact ⟨grows_commit a hclaim.grows, past_commit a hpast (hclaim.past hpast)⟩
  | executing f e =>
    have hexecute := (@executeStep_outcome setting db f a e).keepsRuns
    exact ⟨hexecute.grows, hexecute.past hpast⟩
  | failing f =>
    have hfinalize := keepsRuns_finalizeRun db f.key .failed none (some a.error)
    exact ⟨grows_commit a hfinalize.grows, past_commit a hpast (hfinalize.past hpast)⟩
  | checkingStale f =>
    exact ⟨grows_commit a (grows_retryStale hpast _ _), past_commit a hpast (past_retryStale hpast _ _)⟩
  | checkingInFlight f => exact ⟨grows_of_eq rfl, hpast⟩
  | advancing f terminalStatus nextAt =>
    obtain ⟨hruns, hnow⟩ := runs_advanceSchedule db f.due.id f.due.scheduledFor nextAt terminalStatus
    have hkeeps := keepsRuns_of_eq hruns hnow.ge
    exact ⟨grows_commit a hkeeps.grows, past_commit a hpast (hkeeps.past hpast)⟩

theorem isSome_claimRun (db : Database) (key : RunKey) : ((claimRun db key).runs.get? key).isSome := by
  unfold claimRun
  cases hrun : db.runs.get? key with
  | some run =>
    simp only [hrun]
    rfl
  | none =>
    simp only [Dict.get?_set_self]
    rfl

theorem finished_of_not_inFlight {db : Database} {f : Frame} (h : TurnHolds setting db (.checkingInFlight f))
    (hnot : isInFlight db f.key f.staleThreshold = false) : Finished db f.key := by
  obtain ⟨run, hrun, hstate⟩ := h
  refine ⟨run, hrun, hstate.elim id fun hlt => ?_⟩
  rw [isInFlight, hrun] at hnot
  simp only [decide_eq_false_iff_not, not_and] at hnot
  rw [Option.isSome_iff_ne_none]
  exact fun hnone => hnot hnone hlt

theorem turnHolds_executing {db : Database} {f : Frame} {e : Execution} (h : TurnHolds setting db (.executing f e))
    (a : Answer) : TurnHolds setting (workerStep setting db (.executing f e) a).1
      (workerStep setting db (.executing f e) a).2 := by
  rcases hr : executeStep setting db f e a with ⟨db', phase'⟩
  have houtcome := @executeStep_outcome setting db f a e
  rw [hr] at houtcome
  rw [workerStep, hr]
  cases houtcome with
  | goesOn e' hstatement => exact isSome_grows h hstatement.keepsRuns.grows
  | raises hstatement => exact isSome_grows h hstatement.keepsRuns.grows
  | ends status reportId errorMessage => exact turnHolds_handled (finished_finalizeRun h _ _ _) _

theorem turnHolds_checkingStale {db : Database} (hpast : TriggeredInPast db) {f : Frame}
    (h : TurnHolds setting db (.checkingStale f)) (a : Answer) :
    TurnHolds setting (workerStep setting db (.checkingStale f) a).1 (workerStep setting db (.checkingStale f) a).2 := by
  rw [workerStep]
  by_cases hraises : a.raises.isSome
  · rw [if_pos hraises]
    trivial
  · rw [if_neg hraises, commit_of_returns hraises]
    by_cases hstale : isStale db f.key f.staleThreshold
    · rw [if_pos hstale]
      exact isSome_grows h (grows_retryStale hpast _ _)
    · rw [if_neg hstale, retryStale, if_neg hstale]
      obtain ⟨run, hrun⟩ := Option.isSome_iff_exists.mp h
      refine ⟨run, hrun, ?_⟩
      rw [isStale, hrun] at hstale
      simp only [decide_eq_true_eq, not_and, not_le] at hstale
      by_cases hcompleted : run.completedAt = none
      · exact .inr (hstale hcompleted)
      · exact .inl (Option.isSome_iff_ne_none.mpr hcompleted)

theorem turnHolds_workerStep {db : Database} (hpast : TriggeredInPast db) {phase : Phase}
    (h : TurnHolds setting db phase) (a : Answer) :
    TurnHolds setting (workerStep setting db phase a).1 (workerStep setting db phase a).2 := by
  cases phase with
  | idle =>
    rw [workerStep]
    split <;> trivial
  | loop now due =>
    cases due with
    | nil => trivial
    | cons due rest =>
      rw [workerStep]
      split <;> trivial
  | claiming f =>
    rw [workerStep]
    by_cases hraises : a.raises.isSome
    · rw [if_pos hraises]
      trivial
    · rw [if_neg hraises, commit_of_returns hraises]
      have hclaimed := isSome_claimRun db f.key
      split
      · exact hclaimed
      · exact hclaimed
  | executing f e => exact turnHolds_executing h a
  | failing f =>
    rw [workerStep]
    by_cases hraises : a.raises.isSome
    · rw [if_pos hraises]
      trivial
    · rw [if_neg hraises, commit_of_returns hraises]
      exact turnHolds_handled (finished_finalizeRun h _ _ _) _
  | checkingStale f => exact turnHolds_checkingStale hpast h a
  | checkingInFlight f =>
    rw [workerStep]
    by_cases hraises : a.raises.isSome
    · rw [if_pos hraises]
      trivial
    · rw [if_neg hraises]
      by_cases hflight : isInFlight db f.key f.staleThreshold
      · rw [if_pos hflight]
        trivial
      · rw [if_neg hflight]
        exact turnHolds_handled (finished_of_not_inFlight h (Bool.eq_false_iff.mpr hflight)) none
  | advancing f terminalStatus nextAt =>
    rw [workerStep]
    split <;> trivial

/-! ## The slots of a schedule -/

section Slots

variable (setting) (id : ScheduleId) (row₀ : Schedule)

def slotAt : ℕ → Option ℤ
  | 0 => row₀.nextRunAt
  | k + 1 => (slotAt k).bind fun s => (setting.nextRunAt row₀ row₀.cadence s).toOption

def WorkedUpTo (db : Database) (m : ℕ) : Prop :=
  ∀ k < m, ∃ s, slotAt setting row₀ k = some s ∧ Finished db ⟨id, s⟩

def Reached (db : Database) (s : ℤ) : Prop := ∃ m, slotAt setting row₀ m = some s ∧ WorkedUpTo setting id row₀ db m

end Slots

variable {id : ScheduleId} {row₀ : Schedule}

theorem Reached.grows {db db' : Database} {s : ℤ} (h : Reached setting id row₀ db s) (hgrows : Grows db db') :
    Reached setting id row₀ db' s := by
  obtain ⟨m, hm, hworked⟩ := h
  refine ⟨m, hm, fun k hk => ?_⟩
  obtain ⟨s', hs', hfinished⟩ := hworked k hk
  exact ⟨s', hs', hfinished.grows hgrows⟩

theorem Reached.next {db : Database} {s s' : ℤ} (h : Reached setting id row₀ db s) (hfinished : Finished db ⟨id, s⟩)
    (hnext : setting.nextRunAt row₀ row₀.cadence s = .ok s') : Reached setting id row₀ db s' := by
  obtain ⟨m, hm, hworked⟩ := h
  refine ⟨m + 1, ?_, fun k hk => ?_⟩
  · rw [slotAt, hm]
    simp only [Option.bind_some, hnext]
    rfl
  · rcases Nat.lt_succ_iff_lt_or_eq.mp hk with hlt | rfl
    · exact hworked k hlt
    · exact ⟨s, hm, hfinished⟩

theorem slotAt_lt {k m : ℕ} (hkm : k < m) {s s' : ℤ} (hs : slotAt setting row₀ k = some s)
    (hs' : slotAt setting row₀ m = some s') : s < s' := by
  induction m generalizing s' with
  | zero => exact absurd hkm (Nat.not_lt_zero k)
  | succ m ih =>
    rw [slotAt] at hs'
    obtain ⟨mid, hmid, hnext⟩ := Option.bind_eq_some_iff.mp hs'
    have hok : setting.nextRunAt row₀ row₀.cadence mid = .ok s' := by
      rcases hres : setting.nextRunAt row₀ row₀.cadence mid with e | r
      · rw [hres] at hnext
        exact nomatch hnext
      · rw [hres] at hnext
        rw [Option.some.inj hnext]
    have hlt : mid < s' := (nextRunAt_ok hok).1
    rcases Nat.lt_succ_iff_lt_or_eq.mp hkm with hk | rfl
    · exact (ih hk hmid).trans hlt
    · obtain rfl := Option.some.inj (hs.symm.trans hmid)
      exact hlt

theorem Reached.finished_of_next {db : Database} {s s' : ℤ} (h : Reached setting id row₀ db s)
    (hnext : setting.nextRunAt row₀ row₀.cadence s = .ok s') (h' : Reached setting id row₀ db s') :
    Finished db ⟨id, s⟩ := by
  obtain ⟨k, hk, -⟩ := h
  obtain ⟨m, hm, hworked⟩ := h'
  have hkm : k < m := by
    by_contra hnot
    have hlt : s < s' := (nextRunAt_ok hnext).1
    rcases Nat.lt_or_eq_of_le (not_lt.mp hnot) with hmk | rfl
    · exact absurd (slotAt_lt hmk hm hk) (not_lt.mpr hlt.le)
    · obtain rfl := Option.some.inj (hk.symm.trans hm)
      exact lt_irrefl _ hlt
  obtain ⟨t, ht, hfinished⟩ := hworked k hkm
  obtain rfl := Option.some.inj (hk.symm.trans ht)
  exact hfinished

/-! ## The property -/

/-- The rows of `schedule_runs` for a slot. -/
def runRows (db : Database) (key : RunKey) : List (RunKey × ScheduleRun) := db.runs.items.filter fun p => p.1 = key

def OneFinishedRun (db : Database) (key : RunKey) : Prop :=
  ∃ run, runRows db key = [(key, run)] ∧ run.completedAt.isSome

/-- A step loses no slot of a schedule: afterwards no slot has two runs; the next run moved from a slot to its successor
only if the run of the slot was finished; and all slots before the next run have exactly one run, which is finished. -/
structure LosesNoSlot (setting : Setting) (id : ScheduleId) (row₀ : Schedule) (w : World) (ev : Event) : Prop where
  atMostOne : ∀ s, (runRows (step setting w ev).db ⟨id, s⟩).length ≤ 1
  moves : ∀ row row' s s', w.db.schedules.get? id = some row → row.nextRunAt = some s →
    (step setting w ev).db.schedules.get? id = some row' → row'.nextRunAt = some s' →
    setting.nextRunAt row row.cadence s = .ok s' → OneFinishedRun w.db ⟨id, s⟩
  finished : ∃ row m s, (step setting w ev).db.schedules.get? id = some row ∧ row.nextRunAt = some s ∧
    slotAt setting row₀ m = some s ∧
      ∀ k < m, ∃ s', slotAt setting row₀ k = some s' ∧ OneFinishedRun (step setting w ev).db ⟨id, s'⟩

def Unedited (id : ScheduleId) (w : World) (ev : Event) : Prop :=
  ∀ editor patch now, ev = .commitEdit editor patch now → ∀ existing, w.editors editor ≠ some (id, existing)

theorem oneFinishedRun_iff {db : Database} {key : RunKey} : OneFinishedRun db key ↔ Finished db key := by
  unfold OneFinishedRun Finished runRows
  rw [Dict.filter_items]
  constructor
  · rintro ⟨run, hrows, hcompleted⟩
    cases hrun : db.runs.get? key with
    | none =>
      rw [hrun] at hrows
      exact nomatch hrows
    | some run' =>
      rw [hrun] at hrows
      obtain rfl : run' = run := by
        have hhead := (List.cons.inj hrows).1
        exact (Prod.mk.inj hhead).2
      exact ⟨run', rfl, hcompleted⟩
  · rintro ⟨run, hrun, hcompleted⟩
    refine ⟨run, ?_, hcompleted⟩
    rw [hrun]
    rfl

theorem length_runRows_le (db : Database) (key : RunKey) : (runRows db key).length ≤ 1 := by
  unfold runRows
  rw [Dict.filter_items]
  cases db.runs.get? key <;> simp

/-! ## The invariant -/

structure SlotInvariant (setting : Setting) (id : ScheduleId) (row₀ : Schedule) (w : World) : Prop where
  past : TriggeredInPast w.db
  turns : ∀ worker, TurnHolds setting w.db (w.workers worker)
  row : ∃ row s, w.db.schedules.get? id = some row ∧ row.depotId = row₀.depotId ∧ row.cadence = row₀.cadence ∧
    row.nextRunAt = some s ∧ Reached setting id row₀ w.db s
  held : ∀ worker, ∀ due ∈ (w.workers worker).snapshots, due.id = id → due.row.depotId = row₀.depotId ∧
    due.row.cadence = row₀.cadence ∧ Reached setting id row₀ w.db due.scheduledFor

theorem held_workerStep {w : World} (hinv : SlotInvariant setting id row₀ w) {worker : ℕ} (a : Answer) {due : Due}
    (hdue : due ∈ (workerStep setting w.db (w.workers worker) a).2.snapshots) (hid : due.id = id) :
    due.row.depotId = row₀.depotId ∧ due.row.cadence = row₀.cadence ∧
      Reached setting id row₀ w.db due.scheduledFor := by
  rcases List.mem_append.mp (snapshots_workerStep _ _ _ hdue) with hold | hnew
  · exact hinv.held worker due hold hid
  · obtain ⟨hrow, hnext⟩ := get?_of_mem_dueSchedules hnew
    obtain ⟨row, s, hrow', hdepot, hcadence, hs, hreached⟩ := hinv.row
    obtain rfl := Option.some.inj (hrow'.symm.trans (hid ▸ hrow))
    obtain rfl := Option.some.inj (hs.symm.trans hnext)
    exact ⟨hdepot, hcadence, hreached⟩

theorem exists_updateSchedule {db : Database} {row : Schedule} (hrow : db.schedules.get? id = some row)
    (id' : ScheduleId) (g : Schedule → Schedule) :
    ∃ row', (updateSchedule db id' g).schedules.get? id = some row' := by
  rw [get?_updateSchedule]
  split
  · rename_i hid
    rw [← hid, hrow]
    exact ⟨_, rfl⟩
  · exact ⟨row, hrow⟩

theorem exists_workerStep {db : Database} {row : Schedule} (hrow : db.schedules.get? id = some row) (phase : Phase)
    (a : Answer) : ∃ row', (workerStep setting db phase a).1.schedules.get? id = some row' := by
  by_cases hphase : ∃ f terminalStatus nextAt, phase = .advancing f terminalStatus nextAt
  · obtain ⟨f, terminalStatus, nextAt, rfl⟩ := hphase
    rw [workerStep, Answer.commit]
    split
    · exact ⟨row, hrow⟩
    · unfold advanceSchedule
      cases terminalStatus with
      | some status => exact exists_updateSchedule hrow _ _
      | none => exact exists_updateSchedule hrow _ _
  · push Not at hphase
    exact ⟨row, schedules_workerStep setting db a hphase ▸ hrow⟩

theorem row_workerStep {w : World} (hinv : SlotInvariant setting id row₀ w) {worker : ℕ} (a : Answer) :
    ∃ row s, (workerStep setting w.db (w.workers worker) a).1.schedules.get? id = some row ∧
      row.depotId = row₀.depotId ∧ row.cadence = row₀.cadence ∧ row.nextRunAt = some s ∧
        Reached setting id row₀ w.db s := by
  obtain ⟨row, s, hrow, hdepot, hcadence, hs, hreached⟩ := hinv.row
  obtain ⟨row', hrow'⟩ := @exists_workerStep setting id w.db row hrow (w.workers worker) a
  obtain ⟨row'', hrow'', halike, hnext⟩ := get?_workerStep hrow'
  obtain rfl := Option.some.inj (hrow.symm.trans hrow'')
  rcases hnext with hsame | ⟨f, terminalStatus, nextAt, hphase, hid, -, hnextAt, -⟩
  · exact ⟨row', s, hrow', halike.depotId.trans hdepot, halike.cadence.trans hcadence, hsame.trans hs, hreached⟩
  · -- the slot of the worker was reached and is finished, so the one after it is reached
    have hheld : f.due ∈ (w.workers worker).snapshots := by
      rw [hphase]
      exact List.mem_cons_self
    obtain ⟨hduedepot, hduecadence, hduereached⟩ := hinv.held worker f.due hheld hid
    have hturn := hinv.turns worker
    rw [hphase] at hturn
    have hfinished : Finished w.db ⟨id, f.due.scheduledFor⟩ := hid ▸ hturn.1
    have hcomputed : setting.nextRunAt row₀ row₀.cadence f.due.scheduledFor = .ok nextAt := by
      have := hturn.2
      rwa [Setting.nextRunAt, hduedepot, hduecadence] at this
    exact ⟨row', nextAt, hrow', halike.depotId.trans hdepot, halike.cadence.trans hcadence, hnextAt,
      hduereached.next hfinished hcomputed⟩

theorem slotInvariant_work {w : World} (hinv : SlotInvariant setting id row₀ w) (worker : ℕ) (a : Answer) :
    SlotInvariant setting id row₀ (step setting w (.work worker a)) := by
  obtain ⟨hgrows, hpast⟩ := @runs_workerStep setting w.db hinv.past (w.workers worker) a
  refine ⟨hpast, fun worker' => ?_, ?_, fun worker' due hdue hid => ?_⟩
  · by_cases h : worker' = worker
    · subst h
      have hself : (step setting w (.work worker' a)).workers worker' =
        (workerStep setting w.db (w.workers worker') a).2 := Function.update_self _ _ _
      rw [hself]
      exact turnHolds_workerStep hinv.past (hinv.turns worker') a
    · have hother : (step setting w (.work worker a)).workers worker' = w.workers worker' :=
        Function.update_of_ne h _ _
      rw [hother]
      exact (hinv.turns worker').grows hgrows
  · obtain ⟨row, s, hrow, hdepot, hcadence, hs, hreached⟩ := row_workerStep hinv a
    exact ⟨row, s, hrow, hdepot, hcadence, hs, hreached.grows hgrows⟩
  · by_cases h : worker' = worker
    · subst h
      have hself : (step setting w (.work worker' a)).workers worker' =
        (workerStep setting w.db (w.workers worker') a).2 := Function.update_self _ _ _
      rw [hself] at hdue
      obtain ⟨hdepot, hcadence, hreached⟩ := held_workerStep hinv a hdue hid
      exact ⟨hdepot, hcadence, hreached.grows hgrows⟩
    · have hother : (step setting w (.work worker a)).workers worker' = w.workers worker' :=
        Function.update_of_ne h _ _
      rw [hother] at hdue
      obtain ⟨hdepot, hcadence, hreached⟩ := hinv.held worker' due hdue hid
      exact ⟨hdepot, hcadence, hreached.grows hgrows⟩

theorem commitEdit_other {db : Database} {id' : ScheduleId} (h : id' ≠ id) (existing : Schedule) (patch : Patch)
    (now : ℤ) : (commitEdit setting db id' existing patch now).schedules.get? id = db.schedules.get? id ∧
      (commitEdit setting db id' existing patch now).runs = db.runs ∧
        (commitEdit setting db id' existing patch now).now = db.now := by
  have hupdate : ∀ g, (updateSchedule db id' g).schedules.get? id = db.schedules.get? id ∧
      (updateSchedule db id' g).runs = db.runs ∧ (updateSchedule db id' g).now = db.now := by
    intro g
    rw [get?_updateSchedule, if_neg (Ne.symm h)]
    unfold updateSchedule
    cases db.schedules.get? id' <;> exact ⟨rfl, rfl, rfl⟩
  unfold commitEdit
  cases patch with
  | metadata autonomyMode => exact hupdate _
  | cadence cadence isActive autonomyMode =>
    simp only
    split
    · split
      · exact hupdate _
      · exact ⟨rfl, rfl, rfl⟩
    · exact hupdate _

theorem slotInvariant_step {w : World} (hinv : SlotInvariant setting id row₀ w) {ev : Event}
    (hunedited : Unedited id w ev) : SlotInvariant setting id row₀ (step setting w ev) := by
  cases ev with
  | pass micros =>
    refine ⟨fun key run hrun => ?_, fun worker => (hinv.turns worker).grows (grows_of_eq rfl), hinv.row, hinv.held⟩
    have hle : run.triggeredAt ≤ w.db.now := hinv.past key run hrun
    have hnow : (step setting w (.pass micros)).db.now = w.db.now + micros := rfl
    omega
  | work worker a => exact slotInvariant_work hinv worker a
  | crash worker =>
    have hworkers : ∀ worker', (step setting w (.crash worker)).workers worker' = .idle ∨
        (step setting w (.crash worker)).workers worker' = w.workers worker' := by
      intro worker'
      by_cases h : worker' = worker
      · subst h
        exact .inl (Function.update_self _ _ _)
      · exact .inr (Function.update_of_ne h _ _)
    refine ⟨hinv.past, fun worker' => ?_, hinv.row, fun worker' due hdue hid => ?_⟩
    · rcases hworkers worker' with h | h
      · rw [h]
        trivial
      · rw [h]
        exact hinv.turns worker'
    · rcases hworkers worker' with h | h
      · rw [h] at hdue
        exact absurd hdue List.not_mem_nil
      · rw [h] at hdue
        exact hinv.held worker' due hdue hid
  | readForEdit editor id' => exact ⟨hinv.past, hinv.turns, hinv.row, hinv.held⟩
  | commitEdit editor patch now =>
    rw [step]
    cases hediting : w.editors editor with
    | none => exact hinv
    | some pending =>
      obtain ⟨id', existing⟩ := pending
      have hother : id' ≠ id := by
        rintro rfl
        exact hunedited editor patch now rfl existing hediting
      obtain ⟨hschedule, hruns, hnow⟩ := @commitEdit_other setting id w.db id' hother existing patch now
      have hkeeps := keepsRuns_of_eq hruns hnow.ge
      refine ⟨hkeeps.past hinv.past, fun worker => (hinv.turns worker).grows hkeeps.grows, ?_, ?_⟩
      · obtain ⟨row, s, hrow, hdepot, hcadence, hs, hreached⟩ := hinv.row
        exact ⟨row, s, hschedule.trans hrow, hdepot, hcadence, hs, hreached.grows hkeeps.grows⟩
      · intro worker due hdue hid
        obtain ⟨hdepot, hcadence, hreached⟩ := hinv.held worker due hdue hid
        exact ⟨hdepot, hcadence, hreached.grows hkeeps.grows⟩

theorem reached_step {w : World} (hinv : SlotInvariant setting id row₀ w) {ev : Event} (hunedited : Unedited id w ev) :
    ∃ row s, (step setting w ev).db.schedules.get? id = some row ∧ row.nextRunAt = some s ∧
      Reached setting id row₀ w.db s := by
  obtain ⟨row, s, hrow, -, -, hs, hreached⟩ := hinv.row
  cases ev with
  | pass micros => exact ⟨row, s, hrow, hs, hreached⟩
  | work worker a =>
    obtain ⟨row', s', hrow', -, -, hs', hreached'⟩ := @row_workerStep setting id row₀ w hinv worker a
    exact ⟨row', s', hrow', hs', hreached'⟩
  | crash worker => exact ⟨row, s, hrow, hs, hreached⟩
  | readForEdit editor id' => exact ⟨row, s, hrow, hs, hreached⟩
  | commitEdit editor patch now =>
    rw [step]
    cases hediting : w.editors editor with
    | none => exact ⟨row, s, hrow, hs, hreached⟩
    | some pending =>
      obtain ⟨id', existing⟩ := pending
      have hother : id' ≠ id := by
        rintro rfl
        exact hunedited editor patch now rfl existing hediting
      have hschedule := (@commitEdit_other setting id w.db id' hother existing patch now).1
      exact ⟨row, s, hschedule.trans hrow, hs, hreached⟩

theorem losesNoSlot {w : World} (hinv : SlotInvariant setting id row₀ w) {ev : Event} (hunedited : Unedited id w ev) :
    LosesNoSlot setting id row₀ w ev where
  atMostOne := fun s => length_runRows_le _ _
  moves := by
    intro row row' s s' hrow hs hrow' hs' hnext
    obtain ⟨cur, t, hcur, hdepot, hcadence, ht, hreached⟩ := hinv.row
    obtain rfl := Option.some.inj (hrow.symm.trans hcur)
    obtain rfl := Option.some.inj (hs.symm.trans ht)
    obtain ⟨cur', t', hcur', ht', hreached'⟩ := reached_step hinv hunedited
    obtain rfl := Option.some.inj (hrow'.symm.trans hcur')
    obtain rfl := Option.some.inj (hs'.symm.trans ht')
    have hnext₀ : setting.nextRunAt row₀ row₀.cadence s = .ok s' := by
      rwa [Setting.nextRunAt, hdepot, hcadence] at hnext
    exact oneFinishedRun_iff.mpr (hreached.finished_of_next hnext₀ hreached')
  finished := by
    obtain ⟨row, s, hrow, -, -, hs, m, hm, hworked⟩ := (slotInvariant_step hinv hunedited).row
    refine ⟨row, m, s, hrow, hs, hm, fun k hk => ?_⟩
    obtain ⟨s', hs', hfinished⟩ := hworked k hk
    exact ⟨s', hs', oneFinishedRun_iff.mpr hfinished⟩

/-! ## Runs -/

/-- No tick is under way, no run was triggered in the future, and a schedule is at its first slot. -/
structure AtFirstSlot (id : ScheduleId) (row₀ : Schedule) (w : World) : Prop where
  workers : ∀ worker, w.workers worker = .idle
  past : TriggeredInPast w.db
  row : w.db.schedules.get? id = some row₀
  nextRunAt : row₀.nextRunAt.isSome

theorem AtFirstSlot.invariant {w : World} (h : AtFirstSlot id row₀ w) : SlotInvariant setting id row₀ w where
  past := h.past
  turns := fun worker => by
    rw [h.workers worker]
    trivial
  row := by
    obtain ⟨s, hs⟩ := Option.isSome_iff_exists.mp h.nextRunAt
    exact ⟨row₀, s, h.row, rfl, rfl, hs, 0, hs, fun k hk => absurd hk (Nat.not_lt_zero k)⟩
  held := fun worker due hdue => by
    rw [h.workers worker] at hdue
    exact absurd hdue List.not_mem_nil

/-- **No slot is lost.**  In every run in which a schedule is not edited, with any number of workers, exceptions and
crashes, no step loses a slot of it. -/
theorem along_losesNoSlot (setting : Setting) (id : ScheduleId) (row₀ : Schedule) (w : World)
    (hstart : AtFirstSlot id row₀ w) (events : List Event) (hunedited : Along (step setting) (Unedited id) w events) :
    Along (step setting) (LosesNoSlot setting id row₀) w events :=
  hunedited.imp (fun _ _ h hinv => ⟨losesNoSlot hinv h, slotInvariant_step hinv h⟩) hstart.invariant

/-- A worker works off the first Monday and moves on to the second. -/
theorem first_monday_worked_off :
    Along (step utcSetting) (LosesNoSlot utcSetting "s1" mondaySchedule) dueWorld (tickOfRun ++ [work]) := by
  refine along_losesNoSlot utcSetting "s1" mondaySchedule dueWorld ⟨fun _ => rfl, ?_, rfl, rfl⟩ (tickOfRun ++ [work]) ?_
  · intro key run hrun
    exact nomatch hrun
  · refine ⟨?_, ?_, ?_, ?_, ?_, ?_, trivial⟩ <;> exact fun _ _ _ h => nomatch h

end FavoniusBackend.Reports
