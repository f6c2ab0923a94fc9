import FavoniusBackend.Reports.Worker

/-!
# A tick and an edit of its schedule

A tick works on the row that it read.  If an edit of the schedule commits in between, the last statement of the tick
writes the next slot of the cadence that is gone, unless it checks the row: it does where another worker had the run, and
does not where it executed the run itself.

`along_editsKept_iff` says of every run of ticks, crashes and edits when no edit is overwritten; then the next run of every
active schedule is an occurrence of its cadence.
-/

namespace FavoniusBackend.Reports

open Lib
open Lib.Run

variable {setting : Setting}

/-! ## What a tick holds -/

/-- The turn that a worker is in. -/
def Phase.frame? : Phase → Option Frame
  | .idle | .loop _ _ => none
  | .claiming f | .executing f _ | .failing f | .checkingStale f | .checkingInFlight f | .advancing f _ _ => some f

/-- The rows that a worker read. -/
def Phase.snapshots : Phase → List Due
  | .idle => []
  | .loop _ due => due
  | .claiming f | .executing f _ | .failing f | .checkingStale f | .checkingInFlight f | .advancing f _ _ =>
    f.due :: f.rest

def Phase.NextComputed (setting : Setting) : Phase → Prop
  | .advancing f _ nextAt => setting.nextRunAt f.due.row f.due.row.cadence f.due.scheduledFor = .ok nextAt
  | _ => True

theorem snapshots_handled (f : Frame) (terminalStatus : Option RunStatus) :
    (handled setting f terminalStatus).snapshots ⊆ f.due :: f.rest := by
  unfold handled
  split
  · exact fun _ h => h
  · exact List.subset_cons_self _ _

theorem nextComputed_handled (f : Frame) (terminalStatus : Option RunStatus) :
    (handled setting f terminalStatus).NextComputed setting := by
  unfold handled
  split
  · rename_i h
    exact h
  · trivial

theorem ExecuteOutcome.phase {db : Database} {f : Frame} {r : Database × Phase} (h : ExecuteOutcome setting db f r) :
    r.2.snapshots ⊆ f.due :: f.rest ∧ r.2.NextComputed setting := by
  cases h with
  | goesOn e h => exact ⟨fun _ h => h, trivial⟩
  | raises h => exact ⟨fun _ h => h, trivial⟩
  | ends status reportId errorMessage => exact ⟨snapshots_handled f _, nextComputed_handled f _⟩

theorem snapshots_workerStep (db : Database) (phase : Phase) (a : Answer) :
    (workerStep setting db phase a).2.snapshots ⊆ phase.snapshots ++ dueSchedules db a.now := by
  refine fun due hdue => List.mem_append.mpr ?_
  cases phase with
  | idle =>
    rw [workerStep] at hdue
    split at hdue
    · exact absurd hdue List.not_mem_nil
    · exact .inr hdue
  | loop now due' =>
    cases due' with
    | nil => exact absurd hdue List.not_mem_nil
    | cons d rest =>
      rw [workerStep] at hdue
      split at hdue
      · exact .inl (List.mem_cons_of_mem _ hdue)
      · exact .inl hdue
  | claiming f =>
    rw [workerStep] at hdue
    split at hdue
    · exact absurd hdue List.not_mem_nil
    · split at hdue
      · exact .inl hdue
      · exact .inl hdue
  | executing f e => exact .inl ((executeStep_outcome e).phase.1 hdue)
  | failing f =>
    rw [workerStep] at hdue
    split at hdue
    · exact absurd hdue List.not_mem_nil
    · exact .inl (snapshots_handled f _ hdue)
  | checkingStale f =>
    rw [workerStep] at hdue
    split at hdue
    · exact absurd hdue List.not_mem_nil
    · split at hdue
      · exact .inl hdue
      · exact .inl hdue
  | checkingInFlight f =>
    rw [workerStep] at hdue
    split at hdue
    · exact absurd hdue List.not_mem_nil
    · split at hdue
      · exact .inl (List.mem_cons_of_mem _ hdue)
      · exact .inl (snapshots_handled f _ hdue)
  | advancing f terminalStatus nextAt =>
    rw [workerStep] at hdue
    split at hdue
    · exact absurd hdue List.not_mem_nil
    · exact .inl (List.mem_cons_of_mem _ hdue)

theorem nextComputed_workerStep (db : Database) (phase : Phase) (a : Answer) :
    (workerStep setting db phase a).2.NextComputed setting := by
  cases phase with
  | idle =>
    rw [workerStep]
    split <;> trivial
  | loop now due =>
    cases due with
    | nil => trivial
    | cons due rest =>
      rw [workerStep]
      split <;> trivial
  | claiming f =>
    rw [workerStep]
    split
    · trivial
    · split <;> trivial
  | executing f e => exact (executeStep_outcome e).phase.2
  | failing f =>
    rw [workerStep]
    split
    · trivial
    · exact nextComputed_handled f _
  | checkingStale f =>
    rw [workerStep]
    split
    · trivial
    · split <;> trivial
  | checkingInFlight f =>
    rw [workerStep]
    split
    · trivial
    · split
      · trivial
      · exact nextComputed_handled f _
  | advancing f terminalStatus nextAt =>
    rw [workerStep]
    split <;> trivial

/-! ## The property -/

/-- A tick moves the next run of a schedule only if no edit came between the reading of the row and now. -/
def KeepsEdits (setting : Setting) (w : World) (ev : Event) : Prop :=
  ∀ worker a, ev = .work worker a → ∀ id row row', w.db.schedules.get? id = some row →
    (step setting w ev).db.schedules.get? id = some row' → row'.nextRunAt ≠ row.nextRunAt →
    ∃ f, (w.workers worker).frame? = some f ∧ f.due.id = id ∧ f.due.row.version = row.version

def Schedule.Consistent (setting : Setting) (row : Schedule) : Prop :=
  row.isActive = true → ∃ s, row.nextRunAt = some s ∧
    ∀ tz, setting.zones (setting.timezoneOf row.depotId) = some tz → row.cadence.Occurs tz s

def AllConsistent (setting : Setting) (w : World) : Prop :=
  ∀ id row, w.db.schedules.get? id = some row → row.Consistent setting

/-! ## The condition -/

/-- Where an edit came in between, a tick that executed its run finds the slot that it is about to write there already, and
any other tick finds another slot than its own. -/
def WritesNothingStale (w : World) (ev : Event) : Prop :=
  ∀ worker a, ev = .work worker a → a.raises ≠ some false →
    ∀ f terminalStatus nextAt, w.workers worker = .advancing f terminalStatus nextAt →
      ∀ row, w.db.schedules.get? f.due.id = some row → f.due.row.version ≠ row.version →
        if terminalStatus.isSome then row.nextRunAt = some nextAt else row.nextRunAt ≠ some f.due.scheduledFor

/-! ## The invariant -/

/-- A row that was read before another one of the same schedule; without an edit in between it fires as that one does. -/
def Schedule.Before (row cur : Schedule) : Prop :=
  row.depotId = cur.depotId ∧ row.version ≤ cur.version ∧
    (row.version = cur.version → row.cadence = cur.cadence ∧ row.isActive = cur.isActive)

theorem Schedule.before_refl (row : Schedule) : row.Before row := ⟨rfl, le_rfl, fun _ => ⟨rfl, rfl⟩⟩

theorem Schedule.Before.trans {row mid cur : Schedule} (h : row.Before mid) (h' : mid.Before cur) : row.Before cur := by
  refine ⟨h.1.trans h'.1, h.2.1.trans h'.2.1, fun heq => ?_⟩
  have hmid : row.version = mid.version := le_antisymm h.2.1 (heq ▸ h'.2.1)
  obtain ⟨hcadence, hactive⟩ := h.2.2 hmid
  obtain ⟨hcadence', hactive'⟩ := h'.2.2 (hmid.symm.trans heq)
  exact ⟨hcadence.trans hcadence', hactive.trans hactive'⟩

def IsSnapshot (db : Database) (id : ScheduleId) (row : Schedule) : Prop :=
  ∀ cur, db.schedules.get? id = some cur → row.Before cur

def SchedulesAfter (db db' : Database) : Prop :=
  ∀ id cur', db'.schedules.get? id = some cur' → ∃ cur, db.schedules.get? id = some cur ∧ cur.Before cur'

theorem schedulesAfter_of_eq {db db' : Database} (h : db'.schedules = db.schedules) : SchedulesAfter db db' :=
  fun _ cur' hcur => ⟨cur', h ▸ hcur, cur'.before_refl⟩

theorem schedulesAfter_updateSchedule (db : Database) (id : ScheduleId) {g : Schedule → Schedule}
    (h : ∀ row : Schedule, row.Before (g row)) : SchedulesAfter db (updateSchedule db id g) := by
  intro id' cur' hcur
  rw [get?_updateSchedule] at hcur
  split at hcur
  · rename_i hid
    subst hid
    obtain ⟨cur, hrow, rfl⟩ := Option.map_eq_some_iff.mp hcur
    exact ⟨cur, hrow, h cur⟩
  · exact ⟨cur', hcur, cur'.before_refl⟩

theorem IsSnapshot.after {db db' : Database} {id : ScheduleId} {row : Schedule} (h : IsSnapshot db id row)
    (hafter : SchedulesAfter db db') : IsSnapshot db' id row := by
  intro cur' hcur
  obtain ⟨cur, hrow, hbefore⟩ := hafter id cur' hcur
  exact (h cur hrow).trans hbefore

theorem schedulesAfter_advanceSchedule (db : Database) (id : ScheduleId) (scheduledFor nextAt : ℤ)
    (terminalStatus : Option RunStatus) :
    SchedulesAfter db (advanceSchedule db id scheduledFor nextAt terminalStatus) := by
  unfold advanceSchedule
  cases terminalStatus with
  | some status => exact schedulesAfter_updateSchedule db id fun row => ⟨rfl, le_rfl, fun _ => ⟨rfl, rfl⟩⟩
  | none =>
    refine schedulesAfter_updateSchedule db id fun row => ?_
    split
    · exact ⟨rfl, le_rfl, fun _ => ⟨rfl, rfl⟩⟩
    · exact row.before_refl

theorem schedulesAfter_commit (a : Answer) {db db' : Database} (h : SchedulesAfter db db') :
    SchedulesAfter db (a.commit db db') := by
  unfold Answer.commit
  split
  · exact schedulesAfter_of_eq rfl
  · exact h

theorem schedulesAfter_workerStep (db : Database) (phase : Phase) (a : Answer) :
    SchedulesAfter db (workerStep setting db phase a).1 := by
  by_cases h : ∃ f terminalStatus nextAt, phase = .advancing f terminalStatus nextAt
  · obtain ⟨f, terminalStatus, nextAt, rfl⟩ := h
    exact schedulesAfter_commit a (schedulesAfter_advanceSchedule _ _ _ _ _)
  · push Not at h
    exact schedulesAfter_of_eq (schedules_workerStep setting db a h)

theorem schedulesAfter_updateScheduleFields (db : Database) (id : ScheduleId) (cadence : Cadence) (isActive : Bool)
    (autonomyMode : AutonomyMode) (nextRunAt : Option ℤ) :
    SchedulesAfter db (updateScheduleFields db id cadence isActive autonomyMode nextRunAt) := by
  refine schedulesAfter_updateSchedule db id fun row => ⟨rfl, ?_, ?_⟩
  · simp only
    split <;> omega
  · simp only
    split
    · rename_i hsame
      exact fun _ => ⟨(Prod.mk.inj hsame).1.symm, (Prod.mk.inj (Prod.mk.inj hsame).2).1.symm⟩
    · exact fun h => absurd h (by omega)

theorem schedulesAfter_commitEdit (db : Database) (id : ScheduleId) (existing : Schedule) (patch : Patch) (now : ℤ) :
    SchedulesAfter db (commitEdit setting db id existing patch now) := by
  unfold commitEdit
  cases patch with
  | metadata autonomyMode => exact schedulesAfter_updateScheduleFields _ _ _ _ _ _
  | cadence cadence isActive autonomyMode =>
    simp only
    split
    · split
      · exact schedulesAfter_updateScheduleFields _ _ _ _ _ _
      · exact schedulesAfter_of_eq rfl
    · exact schedulesAfter_updateScheduleFields _ _ _ _ _ _

theorem get?_of_mem_dueSchedules {db : Database} {now : ℤ} {due : Due} (h : due ∈ dueSchedules db now) :
    db.schedules.get? due.id = some due.row ∧ due.row.nextRunAt = some due.scheduledFor := by
  obtain ⟨p, hp, hdue⟩ := List.mem_filterMap.mp h
  obtain ⟨s, hs, hite⟩ := Option.bind_eq_some_iff.mp hdue
  split at hite
  · obtain rfl := Option.some.inj hite
    exact ⟨Dict.mem_items_iff.mp hp, hs⟩
  · exact nomatch hite

structure EditInvariant (setting : Setting) (w : World) : Prop where
  consistent : AllConsistent setting w
  held : ∀ worker, ∀ due ∈ (w.workers worker).snapshots, IsSnapshot w.db due.id due.row
  next : ∀ worker, (w.workers worker).NextComputed setting
  edits : ∀ editor id row, w.editors editor = some (id, row) → IsSnapshot w.db id row ∧ row.Consistent setting

/-! ## The invariant is kept -/

theorem consistent_updateScheduleFields {db : Database} (hdb : ∀ id row, db.schedules.get? id = some row →
    row.Consistent setting) {id : ScheduleId} {existing : Schedule} (hsnapshot : IsSnapshot db id existing)
    {cadence : Cadence} {isActive : Bool} {nextRunAt : Option ℤ}
    (hnew : isActive = true → ∃ s, nextRunAt = some s ∧
      ∀ tz, setting.zones (setting.timezoneOf existing.depotId) = some tz → cadence.Occurs tz s)
    (autonomyMode : AutonomyMode) (id' : ScheduleId) (row : Schedule)
    (hrow : (updateScheduleFields db id cadence isActive autonomyMode nextRunAt).schedules.get? id' = some row) :
    row.Consistent setting := by
  rw [updateScheduleFields, get?_updateSchedule] at hrow
  split at hrow
  · obtain ⟨cur, hcur, rfl⟩ := Option.map_eq_some_iff.mp hrow
    intro hactive
    have hdepot : existing.depotId = cur.depotId := (hsnapshot cur hcur).1
    obtain ⟨s, hs, hoccurs⟩ := hnew hactive
    exact ⟨s, hs, fun tz htz => hoccurs tz (hdepot ▸ htz)⟩
  · exact hdb id' row hrow

theorem consistent_commitEdit {db : Database} (hdb : ∀ id row, db.schedules.get? id = some row →
    row.Consistent setting) {id : ScheduleId} {existing : Schedule} (hsnapshot : IsSnapshot db id existing)
    (hexisting : existing.Consistent setting) (patch : Patch) (now : ℤ) (id' : ScheduleId) (row : Schedule)
    (hrow : (commitEdit setting db id existing patch now).schedules.get? id' = some row) : row.Consistent setting := by
  cases patch with
  | metadata autonomyMode =>
    exact consistent_updateScheduleFields hdb hsnapshot hexisting autonomyMode id' row hrow
  | cadence cadence isActive autonomyMode =>
    rw [commitEdit] at hrow
    by_cases hactive : isActive
    · rw [if_pos hactive] at hrow
      rcases hnext : setting.nextRunAt existing cadence now with e | nextRunAt
      · rw [hnext] at hrow
        exact hdb id' row hrow
      · rw [hnext] at hrow
        refine consistent_updateScheduleFields hdb hsnapshot ?_ autonomyMode id' row hrow
        exact fun _ => ⟨nextRunAt, rfl, (nextRunAt_ok hnext).2⟩
    · rw [if_neg hactive] at hrow
      exact consistent_updateScheduleFields hdb hsnapshot (fun h => absurd h hactive) autonomyMode id' row hrow

/-- Two rows that fire alike, with no edit between them. -/
structure Schedule.FiresAlike (row row' : Schedule) : Prop where
  depotId : row'.depotId = row.depotId
  cadence : row'.cadence = row.cadence
  isActive : row'.isActive = row.isActive
  version : row'.version = row.version

theorem Schedule.firesAlike_refl (row : Schedule) : row.FiresAlike row := ⟨rfl, rfl, rfl, rfl⟩

theorem get?_advanceSchedule (db : Database) (id id' : ScheduleId) (scheduledFor nextAt : ℤ)
    (terminalStatus : Option RunStatus) {row' : Schedule}
    (h : (advanceSchedule db id scheduledFor nextAt terminalStatus).schedules.get? id' = some row') :
    ∃ row, db.schedules.get? id' = some row ∧ row.FiresAlike row' ∧ (row'.nextRunAt = row.nextRunAt ∨
      id = id' ∧ row'.nextRunAt = some nextAt ∧ (terminalStatus.isSome ∨ row.nextRunAt = some scheduledFor)) := by
  unfold advanceSchedule at h
  cases terminalStatus with
  | some status =>
    simp only [get?_updateSchedule] at h
    split at h
    · rename_i hid
      obtain ⟨row, hrow, rfl⟩ := Option.map_eq_some_iff.mp h
      exact ⟨row, hid ▸ hrow, ⟨rfl, rfl, rfl, rfl⟩, .inr ⟨hid.symm, rfl, .inl rfl⟩⟩
    · exact ⟨row', h, row'.firesAlike_refl, .inl rfl⟩
  | none =>
    simp only [get?_updateSchedule] at h
    split at h
    · rename_i hid
      obtain ⟨row, hrow, rfl⟩ := Option.map_eq_some_iff.mp h
      refine ⟨row, hid ▸ hrow, ?_⟩
      by_cases hstill : row.nextRunAt = some scheduledFor
      · rw [if_pos hstill]
        exact ⟨⟨rfl, rfl, rfl, rfl⟩, .inr ⟨hid.symm, rfl, .inr hstill⟩⟩
      · rw [if_neg hstill]
        exact ⟨row.firesAlike_refl, .inl rfl⟩
    · exact ⟨row', h, row'.firesAlike_refl, .inl rfl⟩

theorem get?_workerStep {db : Database} {phase : Phase} {a : Answer} {id : ScheduleId} {row' : Schedule}
    (h : (workerStep setting db phase a).1.schedules.get? id = some row') :
    ∃ row, db.schedules.get? id = some row ∧ row.FiresAlike row' ∧ (row'.nextRunAt = row.nextRunAt ∨
      ∃ f terminalStatus nextAt, phase = .advancing f terminalStatus nextAt ∧ f.due.id = id ∧ a.raises ≠ some false ∧
        row'.nextRunAt = some nextAt ∧ (terminalStatus.isSome ∨ row.nextRunAt = some f.due.scheduledFor)) := by
  by_cases hphase : ∃ f terminalStatus nextAt, phase = .advancing f terminalStatus nextAt
  · obtain ⟨f, terminalStatus, nextAt, rfl⟩ := hphase
    rw [workerStep, Answer.commit] at h
    by_cases hraises : a.raises = some false
    · rw [if_pos hraises] at h
      exact ⟨row', h, row'.firesAlike_refl, .inl rfl⟩
    · rw [if_neg hraises] at h
      obtain ⟨row, hrow, halike, hsame | ⟨hid, hnext, hwrites⟩⟩ := get?_advanceSchedule _ _ _ _ _ _ h
      · exact ⟨row, hrow, halike, .inl hsame⟩
      · exact ⟨row, hrow, halike, .inr ⟨f, terminalStatus, nextAt, rfl, hid, hraises, hnext, hwrites⟩⟩
  · push Not at hphase
    rw [schedules_workerStep setting db a hphase] at h
    exact ⟨row', h, row'.firesAlike_refl, .inl rfl⟩

theorem advanceSchedule_writes {db : Database} {f : Frame} {terminalStatus : Option RunStatus} {nextAt : ℤ} {a : Answer}
    {row : Schedule} (hrow : db.schedules.get? f.due.id = some row) (hraises : a.raises ≠ some false)
    (hwrites : terminalStatus.isSome ∨ row.nextRunAt = some f.due.scheduledFor) :
    ∃ row', (workerStep setting db (.advancing f terminalStatus nextAt) a).1.schedules.get? f.due.id = some row' ∧
      row'.nextRunAt = some nextAt := by
  rw [workerStep, Answer.commit, if_neg hraises]
  cases terminalStatus with
  | some status =>
    simp only [advanceSchedule, get?_updateSchedule, if_true, hrow]
    exact ⟨_, rfl, rfl⟩
  | none =>
    simp only [advanceSchedule, get?_updateSchedule, if_true, hrow]
    refine ⟨_, rfl, ?_⟩
    simp only [if_pos (hwrites.resolve_left (by simp))]

theorem keepsEdits_iff {w : World} (hinv : EditInvariant setting w) (ev : Event) :
    KeepsEdits setting w ev ↔ WritesNothingStale w ev := by
  constructor
  · rintro h worker a rfl hraises f terminalStatus nextAt hphase row hrow hstale
    by_contra hnot
    have hwrites : terminalStatus.isSome ∨ row.nextRunAt = some f.due.scheduledFor := by
      by_cases hterminal : terminalStatus.isSome
      · exact .inl hterminal
      · rw [if_neg hterminal, not_not] at hnot
        exact .inr hnot
    obtain ⟨row', hrow', hnext⟩ := @advanceSchedule_writes setting w.db f terminalStatus nextAt a row hrow hraises hwrites
    have hmoved : row'.nextRunAt ≠ row.nextRunAt := by
      rw [hnext]
      by_cases hterminal : terminalStatus.isSome
      · rw [if_pos hterminal] at hnot
        exact fun heq => hnot heq.symm
      · -- the slot of the tick is before the one that it computed
        rw [if_neg hterminal, not_not] at hnot
        have hcomputed : (w.workers worker).NextComputed setting := hinv.next worker
        rw [hphase] at hcomputed
        have hlt := (nextRunAt_ok hcomputed).1
        rw [hnot]
        exact fun heq => absurd (Option.some.inj heq) hlt.ne'
    have hstep : (step setting w (.work worker a)).db.schedules.get? f.due.id = some row' := by
      rw [step, hphase]
      exact hrow'
    obtain ⟨f', hframe, -, hversion⟩ := h worker a rfl f.due.id row row' hrow hstep hmoved
    rw [hphase] at hframe
    obtain rfl : f = f' := Option.some.inj hframe
    exact hstale hversion
  · rintro h worker a rfl id row row' hrow hrow' hmoved
    obtain ⟨row₀, hrow₀, -, hsame | ⟨f, terminalStatus, nextAt, hphase, hid, hraises, hnext, hwrites⟩⟩ :=
      get?_workerStep hrow'
    · obtain rfl := Option.some.inj (hrow.symm.trans hrow₀)
      exact absurd hsame hmoved
    · obtain rfl := Option.some.inj (hrow.symm.trans hrow₀)
      refine ⟨f, by rw [hphase]; rfl, hid, ?_⟩
      by_contra hstale
      have hcond := h worker a rfl hraises f terminalStatus nextAt hphase row (hid ▸ hrow) hstale
      by_cases hterminal : terminalStatus.isSome
      · rw [if_pos hterminal] at hcond
        exact hmoved (hnext.trans hcond.symm)
      · rw [if_neg hterminal] at hcond
        exact hcond (hwrites.resolve_left hterminal)

theorem consistent_work {w : World} (hinv : EditInvariant setting w) {worker : ℕ} {a : Answer}
    (hkeeps : KeepsEdits setting w (.work worker a)) : AllConsistent setting (step setting w (.work worker a)) := by
  intro id row' hrow' hactive
  obtain ⟨row, hrow, halike, hnext⟩ := get?_workerStep hrow'
  by_cases hsame : row'.nextRunAt = row.nextRunAt
  · obtain ⟨s, hs, hoccurs⟩ := hinv.consistent id row hrow (halike.isActive ▸ hactive)
    refine ⟨s, hsame.trans hs, fun tz htz => ?_⟩
    rw [halike.cadence]
    exact hoccurs tz (halike.depotId ▸ htz)
  · obtain ⟨f, terminalStatus, nextAt, hphase, rfl, -, hnextAt, -⟩ := hnext.resolve_left hsame
    obtain ⟨f', hframe, -, hversion⟩ := hkeeps worker a rfl f.due.id row row' hrow hrow' hsame
    rw [hphase] at hframe
    obtain rfl : f = f' := Option.some.inj hframe
    have hheld : f.due ∈ (w.workers worker).snapshots := by
      rw [hphase]
      exact List.mem_cons_self
    obtain ⟨hdepot, -, hcadence⟩ := hinv.held worker f.due hheld row hrow
    have hcomputed : (w.workers worker).NextComputed setting := hinv.next worker
    rw [hphase] at hcomputed
    refine ⟨nextAt, hnextAt, fun tz htz => ?_⟩
    rw [halike.cadence, ← (hcadence hversion).1]
    exact (nextRunAt_ok hcomputed).2 tz (by rw [hdepot, ← halike.depotId]; exact htz)

theorem snapshots_update {w : World} {db' : Database} (hinv : EditInvariant setting w)
    (hafter : SchedulesAfter w.db db') {worker : ℕ} {phase : Phase}
    (hphase : ∀ due ∈ phase.snapshots, IsSnapshot db' due.id due.row) (worker' : ℕ) :
    ∀ due ∈ (Function.update w.workers worker phase worker').snapshots, IsSnapshot db' due.id due.row := by
  by_cases h : worker' = worker
  · subst h
    rw [Function.update_self]
    exact hphase
  · rw [Function.update_of_ne h]
    exact fun due hdue => (hinv.held worker' due hdue).after hafter

theorem editInvariant_work {w : World} (hinv : EditInvariant setting w) {worker : ℕ} {a : Answer}
    (hkeeps : KeepsEdits setting w (.work worker a)) : EditInvariant setting (step setting w (.work worker a)) := by
  have hafter := @schedulesAfter_workerStep setting w.db (w.workers worker) a
  refine ⟨consistent_work hinv hkeeps, ?_, ?_, ?_⟩
  · refine snapshots_update hinv hafter fun due hdue => ?_
    rcases List.mem_append.mp (snapshots_workerStep _ _ _ hdue) with hold | hnew
    · exact (hinv.held worker due hold).after hafter
    · have hread : IsSnapshot w.db due.id due.row := by
        intro cur hcur
        obtain rfl := Option.some.inj ((get?_of_mem_dueSchedules hnew).1.symm.trans hcur)
        exact due.row.before_refl
      exact hread.after hafter
  · intro worker'
    by_cases h : worker' = worker
    · subst h
      have hself : (step setting w (.work worker' a)).workers worker' =
        (workerStep setting w.db (w.workers worker') a).2 := Function.update_self _ _ _
      rw [hself]
      exact nextComputed_workerStep _ _ _
    · have hother : (step setting w (.work worker a)).workers worker' = w.workers worker' :=
        Function.update_of_ne h _ _
      rw [hother]
      exact hinv.next worker'
  · exact fun editor id row h => ⟨(hinv.edits editor id row h).1.after hafter, (hinv.edits editor id row h).2⟩

theorem editInvariant_crash {w : World} (hinv : EditInvariant setting w) (worker : ℕ) :
    EditInvariant setting (step setting w (.crash worker)) := by
  have hidle : ∀ due ∈ Phase.idle.snapshots, IsSnapshot w.db due.id due.row := fun due hdue => nomatch hdue
  refine ⟨hinv.consistent, snapshots_update hinv (schedulesAfter_of_eq rfl) hidle, fun worker' => ?_, hinv.edits⟩
  by_cases h : worker' = worker
  · subst h
    have hself : (step setting w (.crash worker')).workers worker' = .idle := Function.update_self _ _ _
    rw [hself]
    trivial
  · have hother : (step setting w (.crash worker)).workers worker' = w.workers worker' :=
      Function.update_of_ne h _ _
    rw [hother]
    exact hinv.next worker'

theorem editInvariant_readForEdit {w : World} (hinv : EditInvariant setting w) (editor : ℕ) (id : String) :
    EditInvariant setting (step setting w (.readForEdit editor id)) := by
  refine ⟨hinv.consistent, hinv.held, hinv.next, fun editor' id' row h => ?_⟩
  by_cases heditor : editor' = editor
  · subst heditor
    have hself : (step setting w (.readForEdit editor' id)).editors editor' =
      (w.db.schedules.get? id).map fun row => (id, row) := Function.update_self _ _ _
    obtain ⟨cur, hcur, heq⟩ := Option.map_eq_some_iff.mp (hself.symm.trans h)
    obtain ⟨rfl, rfl⟩ := Prod.mk.inj heq
    refine ⟨fun cur' hcur' => ?_, hinv.consistent id cur hcur⟩
    obtain rfl := Option.some.inj (hcur.symm.trans hcur')
    exact cur.before_refl
  · have hother : (step setting w (.readForEdit editor id)).editors editor' = w.editors editor' :=
      Function.update_of_ne heditor _ _
    exact hinv.edits editor' id' row (hother.symm.trans h)

theorem editInvariant_commitEdit {w : World} (hinv : EditInvariant setting w) (editor : ℕ) (patch : Patch)
    (now : ℤ) : EditInvariant setting (step setting w (.commitEdit editor patch now)) := by
  rw [step]
  cases hediting : w.editors editor with
  | none => exact hinv
  | some pending =>
    obtain ⟨id, existing⟩ := pending
    obtain ⟨hsnapshot, hexisting⟩ := hinv.edits editor id existing hediting
    have hafter := @schedulesAfter_commitEdit setting w.db id existing patch now
    refine ⟨consistent_commitEdit hinv.consistent hsnapshot hexisting patch now,
      fun worker due hdue => (hinv.held worker due hdue).after hafter, hinv.next, fun editor' id' row h => ?_⟩
    by_cases heditor : editor' = editor
    · subst heditor
      exact absurd h (by simp)
    · simp only [Function.update_of_ne heditor] at h
      exact ⟨(hinv.edits editor' id' row h).1.after hafter, (hinv.edits editor' id' row h).2⟩

theorem editInvariant_step {w : World} (hinv : EditInvariant setting w) {ev : Event}
    (hkeeps : KeepsEdits setting w ev) : EditInvariant setting (step setting w ev) := by
  cases ev with
  | pass micros => exact ⟨hinv.consistent, hinv.held, hinv.next, hinv.edits⟩
  | work worker a => exact editInvariant_work hinv hkeeps
  | crash worker => exact editInvariant_crash hinv worker
  | readForEdit editor id => exact editInvariant_readForEdit hinv editor id
  | commitEdit editor patch now => exact editInvariant_commitEdit hinv editor patch now

/-! ## Runs -/

/-- No tick and no edit is under way, and every active schedule has an occurrence as its next run. -/
structure AtRest (setting : Setting) (w : World) : Prop where
  workers : ∀ worker, w.workers worker = .idle
  editors : ∀ editor, w.editors editor = none
  consistent : AllConsistent setting w

theorem AtRest.invariant {w : World} (h : AtRest setting w) : EditInvariant setting w where
  consistent := h.consistent
  held := fun worker due hdue => by
    rw [h.workers worker] at hdue
    exact absurd hdue List.not_mem_nil
  next := fun worker => by
    rw [h.workers worker]
    trivial
  edits := fun editor id row hediting => by
    rw [h.editors editor] at hediting
    exact nomatch hediting

/-- **Edits and ticks.**  In a run no edit is overwritten, and every active schedule keeps an occurrence of its cadence as
its next run, if and only if no tick writes anything stale. -/
theorem along_editsKept_iff (setting : Setting) (w : World) (hrest : AtRest setting w) (events : List Event) :
    Along (step setting) (fun w ev => KeepsEdits setting w ev ∧ AllConsistent setting (step setting w ev)) w events ↔
      Along (step setting) WritesNothingStale w events := by
  refine @along_iff_along World Event (step setting) _ _ (EditInvariant setting) (fun w ev hinv => ?_) (fun w ev h hinv => ?_) w events
    hrest.invariant
  · rw [← keepsEdits_iff hinv ev]
    exact ⟨And.left, fun h => ⟨h, (editInvariant_step hinv h).consistent⟩⟩
  · exact editInvariant_step hinv h.1

/-! ## An edit during a run -/

/-- One zone, for every depot. -/
def utcSetting : Setting where
  zones := fun _ => some utc
  timezoneOf := fun _ => "UTC"

def tuesdays : Cadence where
  frequency := .weekly
  dayOfMonth := none
  dayOfWeek := some ⟨2, by decide⟩
  timeOfDay := mondays.timeOfDay
  cadence_ck := by decide +kernel

def firstMonday : ℤ := mondays.instantOn utc (Lib.Calendar.Date.ofParts 2025 3 3)

def mondaySchedule : Schedule where
  depotId := "depot-1"
  cadence := mondays
  autonomyMode := .shadow
  isActive := true
  nextRunAt := some firstMonday
  lastRunAt := none
  lastRunStatus := none
  version := 0

/-- The slot is reached, and nothing runs. -/
def dueWorld : World where
  db := ⟨Dict.empty.set "s1" mondaySchedule, Dict.empty, firstMonday⟩
  workers := fun _ => .idle
  editors := fun _ => none

def returned : Answer := ⟨none, firstMonday, none, none, true, ""⟩

/-- A step of the first worker. -/
def work : Event := .work 0 returned

/-- A tick of the first worker before its last statement: it reads, looks up the zone, claims the slot, finds the shadow
mode and finishes the run. -/
def tickOfRun : List Event := [work, work, work, work, work]

theorem dueWorld_atRest : AtRest utcSetting dueWorld where
  workers := fun _ => rfl
  editors := fun _ => rfl
  consistent := by
    intro id row hrow _
    have hrow' : (Dict.empty.set "s1" mondaySchedule).get? id = some row := hrow
    rw [Dict.get?_set] at hrow'
    split at hrow'
    · obtain rfl := Option.some.inj hrow'
      refine ⟨firstMonday, rfl, fun tz htz => ?_⟩
      obtain rfl := Option.some.inj htz
      exact ⟨Lib.Calendar.Date.ofParts 2025 3 3, ⟨1, rfl, by decide +kernel⟩, rfl⟩
    · exact nomatch hrow'

def edited (w : World) (worker : ℕ) : Bool :=
  match (w.workers worker).frame? with
  | some f => match w.db.schedules.get? f.due.id with
    | some row => decide (f.due.row.version ≠ row.version)
    | none => false
  | none => false

def Quiet (w : World) : Event → Prop
  | .work worker _ => edited w worker = false
  | _ => False

instance (w : World) : (ev : Event) → Decidable (Quiet w ev)
  | .work _ _ => inferInstanceAs (Decidable (_ = _))
  | .pass _ | .crash _ | .readForEdit _ _ | .commitEdit _ _ _ => inferInstanceAs (Decidable False)

theorem Quiet.writesNothingStale {w : World} {ev : Event} (h : Quiet w ev) : WritesNothingStale w ev := by
  rintro worker a rfl - f terminalStatus nextAt hphase row hrow hversion
  change edited w worker = false at h
  rw [edited, hphase] at h
  simp only [Phase.frame?, hrow, decide_eq_false_iff_not, not_not] at h
  exact absurd h hversion

/-- A tick without an edit keeps the schedule consistent. -/
theorem tick_keeps_schedule :
    Along (step utcSetting) (fun w ev => KeepsEdits utcSetting w ev ∧ AllConsistent utcSetting (step utcSetting w ev))
      dueWorld (tickOfRun ++ [work]) := by
  have hquiet : Along (step utcSetting) Quiet dueWorld (tickOfRun ++ [work]) := by decide +kernel
  have hstep (w : World) (ev : Event) (h : Quiet w ev) (_ : True) : WritesNothingStale w ev ∧ True :=
    ⟨h.writesNothingStale, trivial⟩
  exact (along_editsKept_iff utcSetting dueWorld dueWorld_atRest (tickOfRun ++ [work])).mpr (hquiet.imp hstep trivial)

/-- The schedule is moved to Tuesdays while its run is under way; the tick then writes the Monday after. -/
theorem edit_overwritten :
    ¬ ∀ (setting : Setting) (w : World) (events : List Event), AtRest setting w →
      Along (step setting) (fun w ev => KeepsEdits setting w ev ∧ AllConsistent setting (step setting w ev)) w events := by
  intro h
  let before := tickOfRun ++ [.readForEdit 0 "s1", .commitEdit 0 (.cadence tuesdays true .shadow) firstMonday]
  obtain ⟨hkeeps, -⟩ := (h utcSetting dueWorld (before ++ [work]) dueWorld_atRest).last
  let w := run (step utcSetting) dueWorld before
  -- the day after the slot, and a week after it
  have htuesday : (w.db.schedules.get? "s1").bind Schedule.nextRunAt =
      some (tuesdays.instantOn utc (Lib.Calendar.Date.ofParts 2025 3 4)) := by decide +kernel
  have hmonday : ((step utcSetting w work).db.schedules.get? "s1").bind Schedule.nextRunAt =
      some (mondays.instantOn utc (Lib.Calendar.Date.ofParts 2025 3 10)) := by decide +kernel
  obtain ⟨row, hrow, hnext⟩ := Option.bind_eq_some_iff.mp htuesday
  obtain ⟨row', hrow', hnext'⟩ := Option.bind_eq_some_iff.mp hmonday
  obtain ⟨f, hf, -, hversion⟩ := hkeeps 0 returned rfl "s1" row row' hrow hrow' (by
    rw [hnext, hnext']
    decide +kernel)
  have hedited : edited w 0 = true := by decide +kernel
  have hid : (w.workers 0).frame?.map (fun f => f.due.id) = some "s1" := by decide +kernel
  rw [hf] at hid
  have hsame : f.due.id = "s1" := Option.some.inj hid
  rw [edited, hf] at hedited
  simp only [hsame, hrow, hversion] at hedited
  exact absurd hedited (by simp)

end FavoniusBackend.Reports
