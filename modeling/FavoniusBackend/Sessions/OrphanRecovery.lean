import FavoniusBackend.Sessions.Closing

/-!
# Orphan recovery against the live sessions

Everything that writes an open row of `charging_sessions`, in any order: the insert of StartTransaction, the
register samples, the stamp of a closed socket, its removal at BootNotification, the close of StopTransaction and
the sweeps of `recover_orphaned_sessions`.  Each statement is one step.  A sweep reads its batch in one step and
closes the rows of the batch later, one by one, with the registers it has read.

A reconnect without a BootNotification changes no row, so it is no step.  Beside the table stands the time of every
register sample that was written, under the number of its row.
-/

namespace FavoniusBackend.Sessions.OrphanRecovery

open Lib Sessions.MeterValues
open Sessions.LiveMetrics Sessions.Closing

structure State where
  clock : ℚ := 0
  rows : List Session := []
  /-- What sweeps have read and not yet closed. -/
  batch : List Session := []
  /-- The register samples that were written, with the number of the row and the time. -/
  samples : List (ℕ × ℚ) := []

inductive Event
  | elapse (seconds : ℚ)
  | start (sessionId : ℕ) (stationId : String) (transactionId : ℤ) (startTime : ℚ) (meterStartWh : Option ℤ)
  | meterValues (stationId : String) (transactionId : ℤ) (meterWh : Option ℤ) (works : Bool)
  | socketClosed (stationId : String) (works : Bool)
  | boot (stationId : String) (works : Bool)
  | stop (request : StopTransaction) (capWh : ℤ) (works : Bool)
  | scan (batchLimit : ℕ)
  | recoverRow (i : ℕ) (now : ℚ)

/-- `insert_open_session`: not if the transaction has an open row, and not under a key that exists. -/
def insertOpenSession (rows : List Session) (sessionId : ℕ) (stationId : String) (transactionId : ℤ) (startTime : ℚ)
    (meterStartWh : Option ℤ) (now : ℚ) : List Session :=
  if rows.any fun row => row.isOpenFor stationId transactionId || decide (row.sessionId = sessionId) then rows
  else rows ++ [openSession sessionId stationId transactionId startTime meterStartWh now]

/-- The `UPDATE` of `mark_sessions_seen` and of `clear_sessions_seen`. -/
def setLastSeen (rows : List Session) (stationId : String) (seen : Option ℚ) : List Session :=
  rows.map fun row =>
    if row.stationId = stationId ∧ row.endTime = none ∧ row.live then { row with lastSeenAt := seen } else row

def markSessionsSeen (rows : List Session) (stationId : String) (now : ℚ) : List Session :=
  setLastSeen rows stationId (some now)

def clearSessionsSeen (rows : List Session) (stationId : String) : List Session := setLastSeen rows stationId none

/-- The `SELECT` of `recover_orphaned_sessions`. -/
def selectStale (rows : List Session) (staleAfterSeconds now : ℚ) (batchLimit : ℕ) : List Session :=
  (Sql.orderBy (fun a b : Session => a.lastSeenAt.getD a.startTime ≤ b.lastSeenAt.getD b.startTime)
    (rows.filter fun row =>
      decide (row.endTime = none ∧ row.transactionId ≠ none) && row.live && isStale row staleAfterSeconds now)).take
    batchLimit

/-- The `WHERE` clause of its `UPDATE`. -/
def stillOrphaned (snapshot : Session) (staleAfterSeconds now : ℚ) (row : Session) : Bool :=
  decide (row.stationId = snapshot.stationId ∧ row.transactionId = snapshot.transactionId ∧
    row.sessionId = snapshot.sessionId ∧ row.endTime = none) && row.live && isStale row staleAfterSeconds now

def openRows (rows : List Session) (stationId : String) (transactionId : ℤ) : List ℕ :=
  (List.range rows.length).filter fun j => rows[j]?.any fun row => row.isOpenFor stationId transactionId

def step (staleAfterSeconds : ℚ) (s : State) : Event → State
  | .elapse seconds => { s with clock := s.clock + |seconds| }
  | .start sessionId stationId transactionId startTime meterStartWh =>
    { s with
      rows := insertOpenSession s.rows sessionId stationId transactionId startTime meterStartWh s.clock }
  | .meterValues stationId transactionId meterWh works =>
    let u : Update := { stationId, transactionId, meterWh, now := s.clock, works }
    { s with
      rows := updateSessionLiveMetrics s.rows u
      samples :=
        if meterWh.isSome && u.succeeds s.rows then
          s.samples ++ (openRows s.rows stationId transactionId).map fun j => (j, s.clock)
        else s.samples }
  | .socketClosed stationId works =>
    { s with rows := if works then markSessionsSeen s.rows stationId s.clock else s.rows }
  | .boot stationId works => { s with rows := if works then clearSessionsSeen s.rows stationId else s.rows }
  | .stop request capWh works => { s with rows := (onTransactionStop s.rows request capWh s.clock works).1 }
  | .scan batchLimit => { s with batch := s.batch ++ selectStale s.rows staleAfterSeconds s.clock batchLimit }
  | .recoverRow i now =>
    match s.batch[i]? with
    | none => s
    | some snapshot =>
      { s with
        rows := Sql.update (stillOrphaned snapshot staleAfterSeconds s.clock) (recover snapshot now s.clock) s.rows
        batch := s.batch.eraseIdx i }

/-! ## What a step does to a row -/

section
variable {staleAfterSeconds : ℚ} {s : State}

inductive RowStep (staleAfterSeconds : ℚ) (s : State) : Event → Session → Session → Prop
  | same {op : Event} {row : Session} : RowStep staleAfterSeconds s op row row
  | metered {stationId : String} {transactionId : ℤ} {meterWh : Option ℤ} {works : Bool} {row row' : Session}
      (hopen : row.endTime = none) (h : row.withMeter s.clock meterWh = some row') :
      RowStep staleAfterSeconds s (.meterValues stationId transactionId meterWh works) row row'
  | stamped {op : Event} {row : Session} (seen : Option ℚ) (hop : ∀ i now, op ≠ .recoverRow i now)
      (hopen : row.endTime = none) : RowStep staleAfterSeconds s op row { row with lastSeenAt := seen }
  | stopped {request : StopTransaction} {capWh : ℤ} {works : Bool} {row row' : Session} (h : SameOrClosed row row') :
      RowStep staleAfterSeconds s (.stop request capWh works) row row'
  | recovered {i : ℕ} {now : ℚ} {snapshot row row' : Session} (hbatch : s.batch[i]? = some snapshot)
      (horphan : stillOrphaned snapshot staleAfterSeconds s.clock row)
      (h : recover snapshot now s.clock row = some row') :
      RowStep staleAfterSeconds s (.recoverRow i now) row row'

theorem getElem?_insertOpenSession {rows : List Session} {j : ℕ} {row : Session} (hrow : rows[j]? = some row)
    (sessionId : ℕ) (stationId : String) (transactionId : ℤ) (startTime : ℚ) (meterStartWh : Option ℤ) (now : ℚ) :
    (insertOpenSession rows sessionId stationId transactionId startTime meterStartWh now)[j]? = some row := by
  unfold insertOpenSession
  split
  · exact hrow
  · rw [List.getElem?_append_left (List.getElem?_eq_some_iff.mp hrow).1]
    exact hrow

theorem rowStep_setLastSeen {op : Event} (hop : ∀ i now, op ≠ .recoverRow i now) {j : ℕ} {row : Session}
    (hrow : s.rows[j]? = some row) (stationId : String) (seen : Option ℚ) :
    ∃ row', (setLastSeen s.rows stationId seen)[j]? = some row' ∧ RowStep staleAfterSeconds s op row row' := by
  rw [setLastSeen, List.getElem?_map, hrow, Option.map_some]
  split
  · rename_i h
    exact ⟨_, rfl, .stamped seen hop h.2.1⟩
  · exact ⟨row, rfl, .same⟩

/-- **What a step does to a row.** -/
theorem exists_rowStep {j : ℕ} {row : Session} (hrow : s.rows[j]? = some row) (op : Event) :
    ∃ row', (step staleAfterSeconds s op).rows[j]? = some row' ∧ RowStep staleAfterSeconds s op row row' := by
  cases op with
  | elapse seconds => exact ⟨row, hrow, .same⟩
  | start sessionId stationId transactionId startTime meterStartWh =>
    exact ⟨row, getElem?_insertOpenSession hrow _ _ _ _ _ _, .same⟩
  | meterValues stationId transactionId meterWh works =>
    show ∃ row', (updateSessionLiveMetrics _ _)[j]? = some row' ∧ _
    unfold updateSessionLiveMetrics
    split
    · obtain ⟨row', hrow', hcase⟩ := Sql.exists_getElem?_update hrow _ _
      refine ⟨row', hrow', ?_⟩
      rcases hcase with rfl | ⟨hopen, h⟩
      · exact .same
      · exact .metered (endTime_eq_none_of_isOpenFor hopen) h
    · exact ⟨row, hrow, .same⟩
  | socketClosed stationId works =>
    cases works with
    | false => exact ⟨row, hrow, .same⟩
    | true => exact rowStep_setLastSeen (by simp) hrow stationId (some s.clock)
  | boot stationId works =>
    cases works with
    | false => exact ⟨row, hrow, .same⟩
    | true => exact rowStep_setLastSeen (by simp) hrow stationId none
  | stop request capWh works =>
    obtain ⟨row', hrow', h⟩ := getElem?_onTransactionStop hrow request capWh s.clock works
    exact ⟨row', hrow', .stopped h⟩
  | scan batchLimit => exact ⟨row, hrow, .same⟩
  | recoverRow i now =>
    cases hbatch : s.batch[i]? with
    | none => exact ⟨row, by simpa only [step, hbatch] using hrow, .same⟩
    | some snapshot =>
      simp only [step, hbatch]
      obtain ⟨row', hrow', hcase⟩ := Sql.exists_getElem?_update hrow _ _
      refine ⟨row', hrow', ?_⟩
      rcases hcase with rfl | ⟨horphan, h⟩
      · exact .same
      · exact .recovered hbatch horphan h

theorem RowStep.eq_of_closed {op : Event} {row row' : Session} (h : RowStep staleAfterSeconds s op row row')
    (hclosed : row.endTime ≠ none) : row' = row := by
  cases h with
  | same => rfl
  | metered hopen => exact absurd hopen hclosed
  | stamped seen hop hopen => exact absurd hopen hclosed
  | stopped h =>
    rcases h with rfl | ⟨hopen, -⟩
    · rfl
    · exact absurd hopen hclosed
  | recovered hbatch horphan =>
    simp only [stillOrphaned, Bool.and_eq_true, decide_eq_true_eq] at horphan
    exact absurd horphan.1.1.2.2.2 hclosed

end

/-! ## The samples that were written -/

/-- The samples of a row are not later than its `last_meter_seen_at`, and none is in the future. -/
structure Recorded (s : State) : Prop where
  seen : ∀ j row t, s.rows[j]? = some row → (j, t) ∈ s.samples → ∃ t', row.lastMeterSeenAt = some t' ∧ t ≤ t'
  row : ∀ j t, (j, t) ∈ s.samples → j < s.rows.length
  past : ∀ j t, (j, t) ∈ s.samples → t ≤ s.clock

section
variable {staleAfterSeconds : ℚ} {s : State}

theorem length_le_length_step (op : Event) : s.rows.length ≤ (step staleAfterSeconds s op).rows.length := by
  by_contra hlt
  obtain ⟨row, hrow⟩ : ∃ row, s.rows[(step staleAfterSeconds s op).rows.length]? = some row :=
    ⟨_, List.getElem?_eq_getElem (not_le.mp hlt)⟩
  obtain ⟨row', hrow', -⟩ := exists_rowStep hrow op
  exact absurd (List.getElem?_eq_some_iff.mp hrow').1 (lt_irrefl _)

theorem clock_le_clock_step (op : Event) : s.clock ≤ (step staleAfterSeconds s op).clock := by
  cases op with
  | elapse seconds => exact le_add_of_nonneg_right (abs_nonneg seconds)
  | recoverRow i now =>
    cases hbatch : s.batch[i]? with
    | none => simp [step, hbatch]
    | some snapshot => simp [step, hbatch]
  | _ => exact le_rfl

theorem RowStep.lastMeterSeenAt {op : Event} {row row' : Session} (h : RowStep staleAfterSeconds s op row row') :
    row'.lastMeterSeenAt = row.lastMeterSeenAt ∨ row'.lastMeterSeenAt = some s.clock := by
  cases h with
  | same => exact .inl rfl
  | @metered _ _ meterWh _ _ _ hopen h =>
    cases meterWh with
    | none =>
      obtain rfl := Option.some.inj h
      exact .inl rfl
    | some m => exact .inr (lastMeterSeenAt_withMeter h)
  | stamped => exact .inl rfl
  | stopped h =>
    rcases h with rfl | ⟨-, h⟩
    · exact .inl rfl
    · exact .inl h
  | recovered _ _ h => exact .inl (closed_of_close h).lastMeterSeenAt

theorem mem_openRows {rows : List Session} {stationId : String} {transactionId : ℤ} {j : ℕ} :
    j ∈ openRows rows stationId transactionId ↔
      ∃ row, rows[j]? = some row ∧ row.isOpenFor stationId transactionId := by
  rw [openRows, List.mem_filter, List.mem_range, Option.any_eq_true]
  constructor
  · exact fun h => h.2
  · rintro ⟨row, hrow, hopen⟩
    exact ⟨(List.getElem?_eq_some_iff.mp hrow).1, row, hrow, hopen⟩

theorem lastMeterSeenAt_updateSessionLiveMetrics {rows : List Session} {u : Update} {m : ℤ} {j : ℕ} {row' : Session}
    (hsample : u.meterWh = some m) (hok : u.succeeds rows) (hj : j ∈ openRows rows u.stationId u.transactionId)
    (hrow' : (updateSessionLiveMetrics rows u)[j]? = some row') : row'.lastMeterSeenAt = some u.now := by
  obtain ⟨row, hrow, hopen⟩ := mem_openRows.mp hj
  obtain ⟨hworks, hupdates⟩ := Bool.and_eq_true_iff.mp hok
  obtain ⟨row'', hset⟩ := Option.isSome_iff_exists.mp (Sql.isSome_of_updates hupdates hrow hopen)
  rw [updateSessionLiveMetrics, if_pos hworks, Sql.getElem?_update, hrow, Option.map_some, if_pos ⟨hupdates, hopen⟩,
    hset, Option.getD_some] at hrow'
  obtain rfl := Option.some.inj hrow'
  rw [hsample] at hset
  exact lastMeterSeenAt_withMeter hset

theorem mem_samples_step {op : Event} {j : ℕ} {t : ℚ} (h : (j, t) ∈ (step staleAfterSeconds s op).samples) :
    (j, t) ∈ s.samples ∨ t = s.clock ∧ j < s.rows.length ∧
      ∀ row', (step staleAfterSeconds s op).rows[j]? = some row' → row'.lastMeterSeenAt = some s.clock := by
  cases op with
  | meterValues stationId transactionId meterWh works =>
    simp only [step] at h
    split at h
    · rename_i hok
      obtain ⟨hsome, hok⟩ := Bool.and_eq_true_iff.mp hok
      obtain ⟨m, rfl⟩ := Option.isSome_iff_exists.mp hsome
      rcases List.mem_append.mp h with hold | hnew
      · exact .inl hold
      · obtain ⟨j', hj, heq⟩ := List.mem_map.mp hnew
        obtain ⟨rfl, rfl⟩ := Prod.mk.inj heq
        obtain ⟨row, hrow, -⟩ := mem_openRows.mp hj
        refine .inr ⟨rfl, (List.getElem?_eq_some_iff.mp hrow).1, ?_⟩
        intro row' hrow'
        exact lastMeterSeenAt_updateSessionLiveMetrics rfl hok hj hrow'
    · exact .inl h
  | recoverRow i now =>
    left
    cases hbatch : s.batch[i]? with
    | none => simpa [step, hbatch] using h
    | some snapshot => simpa [step, hbatch] using h
  | _ => exact .inl h

theorem Recorded.step (h : Recorded s) (op : Event) : Recorded (step staleAfterSeconds s op) := by
  refine ⟨?_, ?_, ?_⟩
  · intro j row' t hrow' hmem
    rcases mem_samples_step hmem with hold | ⟨rfl, -, hnew⟩
    · obtain ⟨row, hrow⟩ : ∃ row, s.rows[j]? = some row :=
        ⟨_, List.getElem?_eq_getElem (h.row j t hold)⟩
      obtain ⟨row'', hrow'', hstep⟩ := exists_rowStep hrow op
      obtain rfl : row'' = row' := Option.some.inj (hrow''.symm.trans hrow')
      rcases hstep.lastMeterSeenAt with heq | hnow
      · rw [heq]
        exact h.seen j row t hrow hold
      · exact ⟨s.clock, hnow, h.past j t hold⟩
    · exact ⟨s.clock, hnew row' hrow', le_rfl⟩
  · intro j t hmem
    rcases mem_samples_step hmem with hold | ⟨-, hlt, -⟩
    · exact lt_of_lt_of_le (h.row j t hold) (length_le_length_step op)
    · exact lt_of_lt_of_le hlt (length_le_length_step op)
  · intro j t hmem
    rcases mem_samples_step hmem with hold | ⟨rfl, -, -⟩
    · exact (h.past j t hold).trans (clock_le_clock_step op)
    · exact clock_le_clock_step op

end

/-! ## What recovery may close -/

/-- In one step no closed row changes, and a row that recovery closes has had no register sample within the
threshold and gets the energy of its own registers. -/
def Safe (staleAfterSeconds : ℚ) (s : State) (op : Event) : Prop :=
  ∀ j row, s.rows[j]? = some row → ∃ row', (step staleAfterSeconds s op).rows[j]? = some row' ∧
    (row.endTime ≠ none → row' = row) ∧
    (∀ i now, op = .recoverRow i now → row.endTime = none → row'.endTime ≠ none →
      (∀ t, (j, t) ∈ s.samples → t < s.clock - staleAfterSeconds) ∧
        row'.energyDeliveredKwh = computeEnergyKwh row.lastMeterWh row.meterStartWh)

/-- Recovery meets a row as it is: its stamp is not older than its last register sample, and its registers are
those that the sweep has read. -/
def MeetsCurrent (staleAfterSeconds : ℚ) (s : State) : Event → Prop
  | .recoverRow i _ => ∀ snapshot ∈ s.batch[i]?, ∀ row ∈ s.rows, stillOrphaned snapshot staleAfterSeconds s.clock row →
      (∀ seen ∈ row.lastSeenAt, ∀ t ∈ row.lastMeterSeenAt, t ≤ seen) ∧
        row.lastMeterWh = snapshot.lastMeterWh ∧ row.meterStartWh = snapshot.meterStartWh
  | _ => True

instance (staleAfterSeconds : ℚ) (s : State) : ∀ op, Decidable (MeetsCurrent staleAfterSeconds s op)
  | .recoverRow i _ => inferInstanceAs (Decidable (∀ snapshot ∈ s.batch[i]?, ∀ row ∈ s.rows,
      stillOrphaned snapshot staleAfterSeconds s.clock row →
        (∀ seen ∈ row.lastSeenAt, ∀ t ∈ row.lastMeterSeenAt, t ≤ seen) ∧
          row.lastMeterWh = snapshot.lastMeterWh ∧ row.meterStartWh = snapshot.meterStartWh))
  | .elapse _ | .start .. | .meterValues .. | .socketClosed .. | .boot .. | .stop .. | .scan _ => isTrue trivial

theorem lt_of_isStale {row : Session} {staleAfterSeconds now t : ℚ} (hstale : isStale row staleAfterSeconds now)
    (hstamp : ∀ seen ∈ row.lastSeenAt, ∀ t ∈ row.lastMeterSeenAt, t ≤ seen) (ht : row.lastMeterSeenAt = some t) :
    t < now - staleAfterSeconds := by
  unfold isStale at hstale
  cases hseen : row.lastSeenAt with
  | none =>
    simp only [hseen, ht, decide_eq_true_eq] at hstale
    exact hstale.2
  | some seen =>
    simp only [hseen, decide_eq_true_eq] at hstale
    exact lt_of_le_of_lt (hstamp seen hseen t ht) hstale

theorem safe_of_meetsCurrent {staleAfterSeconds : ℚ} {s : State} {op : Event} (hrec : Recorded s)
    (hcur : MeetsCurrent staleAfterSeconds s op) : Safe staleAfterSeconds s op := by
  intro j row hrow
  obtain ⟨row', hrow', hstep⟩ := exists_rowStep hrow op
  refine ⟨row', hrow', hstep.eq_of_closed, ?_⟩
  rintro i now rfl hopen hclosed
  cases hstep with
  | same => exact absurd hopen hclosed
  | stamped seen hop => exact absurd rfl (hop i now)
  | @recovered _ _ snapshot _ _ hbatch horphan h =>
    obtain ⟨hstamp, hlast, hstart⟩ := hcur snapshot hbatch row (List.mem_of_getElem? hrow) horphan
    have hstale := (Bool.and_eq_true_iff.mp horphan).2
    refine ⟨?_, ?_⟩
    · intro t hmem
      obtain ⟨t', ht', hle⟩ := hrec.seen j row t hrow hmem
      exact lt_of_le_of_lt hle (lt_of_isStale hstale hstamp ht')
    · rw [hlast, hstart]
      exact energyColumn_computeEnergyKwh (closed_of_close h).energy

/-- **Recovery against live sessions.**  In every run in which recovery only ever meets rows whose stamp is not
older than their last register sample and whose registers are still those that the sweep has read, recovery closes
no session with a register sample within the threshold, the energy it writes is that of the row's registers at that
moment, and a row that is closed, by whomever, is never changed again. -/
theorem safe_along_of_meetsCurrent {staleAfterSeconds : ℚ} {ops : List Event}
    (h : Run.Along (step staleAfterSeconds) (MeetsCurrent staleAfterSeconds) {} ops) :
    Run.Along (step staleAfterSeconds) (Safe staleAfterSeconds) {} ops := by
  have hstep : ∀ s op, MeetsCurrent staleAfterSeconds s op → Recorded s →
      Safe staleAfterSeconds s op ∧ Recorded (step staleAfterSeconds s op) :=
    fun _ op hcur hrec => ⟨safe_of_meetsCurrent hrec hcur, hrec.step op⟩
  exact Run.Along.imp hstep ⟨by simp, by simp, by simp⟩ h

/-- A charger disconnects while it charges, and never comes back: its session is closed after half an hour. -/
def abandonedSession : List Event :=
  [.start 1 "CP1" 7 0 (some 1000), .meterValues "CP1" 7 (some 2000) true, .elapse 20, .socketClosed "CP1" true,
    .elapse 2000, .scan 100, .recoverRow 0 2020]

theorem abandoned_session_recovered :
    (Run.run (step 1800) {} abandonedSession).rows.map (fun row => row.energyDeliveredKwh) = [some 1] ∧
      Run.Along (step 1800) (Safe 1800) {} abandonedSession :=
  ⟨by decide +kernel, safe_along_of_meetsCurrent (by decide +kernel)⟩

/-- The charger reconnects without a BootNotification and goes on charging: the stamp of its first disconnect
stays. -/
def reconnectWithoutBoot : List Event :=
  [.start 1 "CP1" 7 0 (some 1000), .meterValues "CP1" 7 (some 2000) true, .elapse 20, .socketClosed "CP1" true,
    .elapse 1000, .meterValues "CP1" 7 (some 3000) true, .elapse 1000, .scan 100]

/-- The session is closed although its last sample is 1000 seconds old. -/
theorem reconnect_without_boot_recovered :
    ¬ Run.Along (step 1800) (Safe 1800) {} (reconnectWithoutBoot ++ [Event.recoverRow 0 2020]) := by
  intro h
  have hsafe := h.last
  obtain ⟨row, hrow⟩ : ∃ row, (Run.run (step 1800) {} reconnectWithoutBoot).rows[0]? = some row :=
    Option.isSome_iff_exists.mp (by decide +kernel)
  obtain ⟨row', hrow', -, hclosed⟩ := hsafe 0 row hrow
  have hopen : row.endTime = none := by
    have : (Run.run (step 1800) {} reconnectWithoutBoot).rows[0]?.map (·.endTime) = some none := by
      decide +kernel
    simpa [hrow] using this
  have hend : row'.endTime = some 20 := by
    have : (step 1800 (Run.run (step 1800) {} reconnectWithoutBoot) (.recoverRow 0 2020)).rows[0]?.map (·.endTime) =
        some (some 20) := by
      decide +kernel
    simpa [hrow'] using this
  have hlt := (hclosed 0 2020 rfl hopen (by simp [hend])).1 1020 (by decide +kernel)
  exact absurd hlt (by decide +kernel)

end FavoniusBackend.Sessions.OrphanRecovery
