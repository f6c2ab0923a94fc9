import FavoniusBackend.Sessions.LiveMetrics

/-!
# Closing a session

Two statements set the end of a session.  `close_open_session` runs at StopTransaction with the register that
`_resolve_meter_stop` finds in the request; `recover_orphaned_sessions` closes the rows whose StopTransaction never
came, with the last register of the live metrics.  Both store the kWh delta of `compute_energy_kwh`.

A StopTransaction does not look at the last register of the row.  What it writes is at least what recovery would
have written exactly when its own register is not below the last one (`stop_energy_ge_recovered_iff`).
-/

namespace FavoniusBackend.Sessions.Closing

open Lib Lib.Numeric
open Sessions.MeterValues Sessions.LiveMetrics

/-! ### The columns that a closing statement writes -/

def isBigint (m : ℤ) : Bool := decide (-2 ^ 63 ≤ m ∧ m < 2 ^ 63)

/-- `energy_delivered_kwh DECIMAL(10,3)`; the outer `none` is a numeric overflow. -/
def energyColumn : Option ℚ → Option (Option ℚ)
  | none => some none
  | some e => (numericColumn 10 3 e).map some

/-- The `SET` list of the two closing statements, `none` where the `BIGINT`, the `DECIMAL(10,3)` or the
`VARCHAR(64)` column refuses its value. -/
def close (row : Session) (endTime : ℚ) (meterStopWh : Option ℤ) (energyKwh : Option ℚ) (stopReason : Option String)
    (now : ℚ) : Option Session :=
  if meterStopWh.all isBigint && stopReason.all (fun text => decide (text.length ≤ 64)) then
    (energyColumn energyKwh).map fun energy =>
      { row with
        endTime := some endTime
        meterStopWh := meterStopWh
        energyDeliveredKwh := energy
        stopReason := stopReason.or row.stopReason
        updatedAt := some now }
  else none

/-! ### StopTransaction -/

/-- The bracket is refused, and there is neither a start register nor a sample. -/
def mayBeSynthesized (row : Session) (meterStopWh : Option ℤ) : Bool :=
  decide (computeEnergyKwh meterStopWh row.meterStartWh = none ∧ row.meterStartWh = none ∧ row.lastMeterWh = none ∧
    meterStopWh ≠ none)

/-- `energy_kwh` of `close_open_session`. -/
def stopEnergy (row : Session) (meterStopWh : Option ℤ) (capWh : ℤ) : Option ℚ :=
  if mayBeSynthesized row meterStopWh then synthesizeEnergyKwhFromMeterStop meterStopWh capWh
  else computeEnergyKwh meterStopWh row.meterStartWh

def synthesized (row : Session) (meterStopWh : Option ℤ) (capWh : ℤ) : Bool :=
  mayBeSynthesized row meterStopWh && (synthesizeEnergyKwhFromMeterStop meterStopWh capWh).isSome

/-- `stop_reason or "unknown"`. -/
def baseReason : Option String → String
  | some text => if text = "" then "unknown" else text
  | none => "unknown"

def effectiveStopReason (row : Session) (meterStopWh : Option ℤ) (capWh : ℤ) (stopReason : Option String) :
    Option String :=
  if synthesized row meterStopWh capWh then
    some (String.ofList ((baseReason stopReason ++ "|synthesized_delta").toList.take 64))
  else stopReason

structure CloseResult where
  meterStartWh : Option ℤ
  lastMeterWh : Option ℤ
  energyDeliveredKwh : Option ℚ
  sessionId : ℕ
  synthesized : Bool
  deriving DecidableEq, Repr

/-- `close_open_session`; `none` if a statement raises.  The row that it selects is locked until its update. -/
def closeOpenSession (rows : List Session) (stationId : String) (transactionId : ℤ) (endTime : ℚ)
    (meterStopWh : Option ℤ) (stopReason : Option String) (capWh : ℤ) (now : ℚ) :
    Option (List Session × Option CloseResult) :=
  match rows.find? fun row => row.isOpenFor stationId transactionId with
  | none => some (rows, none)
  | some row =>
    let closed := fun (r : Session) =>
      close r endTime meterStopWh (stopEnergy row meterStopWh capWh)
        (effectiveStopReason row meterStopWh capWh stopReason) now
    (closed row).map fun row' =>
      (Sql.update (fun r => r.isOpenFor stationId transactionId && decide (r.sessionId = row.sessionId)) closed rows,
        some
          { meterStartWh := row'.meterStartWh
            lastMeterWh := row'.lastMeterWh
            energyDeliveredKwh := row'.energyDeliveredKwh
            sessionId := row.sessionId
            synthesized := synthesized row meterStopWh capWh })

structure StopTransaction where
  stationId : String
  transactionId : ℤ
  endTime : ℚ
  meterStop : Option ℤ
  reason : Option String := none
  transactionData : Option (List TransactionDataEntry) := none

/-- `_on_transaction_stop`, as far as the table goes; `works` is false if the database fails.  A register that
`int` refuses ends it before the row is closed. -/
def onTransactionStop (rows : List Session) (stop : StopTransaction) (capWh : ℤ) (now : ℚ) (works : Bool) :
    List Session × Option CloseResult :=
  match resolveMeterStop stop.meterStop stop.transactionData with
  | .error _ => (rows, none)
  | .ok meterStopWh =>
    if works then
      (closeOpenSession rows stop.stationId stop.transactionId stop.endTime meterStopWh stop.reason capWh now).getD
        (rows, none)
    else (rows, none)

/-! ### Orphan recovery -/

/-- The staleness condition of both statements of `recover_orphaned_sessions`. -/
def isStale (row : Session) (staleAfterSeconds now : ℚ) : Bool :=
  match row.lastSeenAt with
  | some seen => decide (seen < now - staleAfterSeconds)
  | none =>
    decide (row.startTime < now - staleAfterSeconds ∧
      ((row.lastMeterSeenAt.or row.updatedAt).getD row.startTime) < now - staleAfterSeconds)

/-- The `SET` list of recovery's `UPDATE` on a row, with the values of the row that was read before. -/
def recover (snapshot : Session) (clock now : ℚ) (row : Session) : Option Session :=
  close row (snapshot.lastSeenAt.getD clock) snapshot.lastMeterWh
    (computeEnergyKwh snapshot.lastMeterWh snapshot.meterStartWh) (some "orphaned_recovered") now

/-! ## What a closing statement writes -/

theorem energyColumn_computeEnergyKwh {stop start : Option ℤ} {e : Option ℚ}
    (h : energyColumn (computeEnergyKwh stop start) = some e) : e = computeEnergyKwh stop start := by
  cases hc : computeEnergyKwh stop start with
  | none =>
    rw [hc] at h
    exact (Option.some.inj h).symm
  | some q =>
    obtain ⟨m, s, -, -, -, -, rfl⟩ := computeEnergyKwh_eq_some hc
    rw [hc, energyColumn, numericColumn_wh] at h
    split at h
    · exact (Option.some.inj h).symm
    · cases h

structure Closed (row row' : Session) (endTime : ℚ) (energyKwh : Option ℚ) : Prop where
  sessionId : row'.sessionId = row.sessionId
  endTime : row'.endTime = some endTime
  energy : energyColumn energyKwh = some row'.energyDeliveredKwh
  lastMeterSeenAt : row'.lastMeterSeenAt = row.lastMeterSeenAt

theorem closed_of_close {row row' : Session} {endTime now : ℚ} {meterStopWh : Option ℤ} {energyKwh : Option ℚ}
    {stopReason : Option String} (h : close row endTime meterStopWh energyKwh stopReason now = some row') :
    Closed row row' endTime energyKwh := by
  unfold close at h
  split at h
  · obtain ⟨e, he, rfl⟩ := Option.map_eq_some_iff.mp h
    exact ⟨rfl, rfl, he, rfl⟩
  · cases h

theorem close_isSome_iff (row row' : Session) (endTime : ℚ) (meterStopWh : Option ℤ) (energyKwh : Option ℚ)
    (stopReason : Option String) (now : ℚ) :
    (close row endTime meterStopWh energyKwh stopReason now).isSome =
      (close row' endTime meterStopWh energyKwh stopReason now).isSome := by
  unfold close
  split <;> simp

theorem stopEnergy_of_start {row : Session} {s : ℤ} (hs : row.meterStartWh = some s) (meterStopWh : Option ℤ)
    (capWh : ℤ) : stopEnergy row meterStopWh capWh = computeEnergyKwh meterStopWh (some s) := by
  rw [stopEnergy, if_neg, hs]
  simp [mayBeSynthesized, hs]

theorem closeOpenSession_eq_some {rows rows' : List Session} {stationId : String} {transactionId capWh : ℤ}
    {endTime now : ℚ} {meterStopWh : Option ℤ} {stopReason : Option String} {result : CloseResult} {row : Session}
    (hrow : rows.find? (fun row => row.isOpenFor stationId transactionId) = some row)
    (h : closeOpenSession rows stationId transactionId endTime meterStopWh stopReason capWh now =
      some (rows', some result)) :
    ∃ row' ∈ rows', Closed row row' endTime (stopEnergy row meterStopWh capWh) ∧
      row'.energyDeliveredKwh = result.energyDeliveredKwh := by
  unfold closeOpenSession at h
  simp only [hrow] at h
  obtain ⟨row', hclosed, heq⟩ := Option.map_eq_some_iff.mp h
  simp only [Prod.mk.injEq, Option.some.injEq] at heq
  obtain ⟨rfl, rfl⟩ := heq
  obtain ⟨i, hi⟩ := List.mem_iff_getElem?.mp (List.mem_of_find?_eq_some hrow)
  have hopen : row.isOpenFor stationId transactionId = true := by
    simpa using List.find?_some hrow
  refine ⟨row', ?_, closed_of_close hclosed, rfl⟩
  refine List.mem_of_getElem? (i := i) ?_
  rw [Sql.getElem?_update, hi, Option.map_some, if_pos, hclosed, Option.getD_some]
  refine ⟨?_, by simp [hopen]⟩
  rw [Sql.updates, List.all_eq_true]
  intro r _
  rw [close_isSome_iff r row, hclosed]
  simp

theorem onTransactionStop_eq_some {rows rows' : List Session} {stop : StopTransaction} {capWh : ℤ} {now : ℚ}
    {works : Bool} {result : CloseResult}
    (h : onTransactionStop rows stop capWh now works = (rows', some result)) :
    ∃ register, resolveMeterStop stop.meterStop stop.transactionData = .ok register ∧
      closeOpenSession rows stop.stationId stop.transactionId stop.endTime register stop.reason capWh now =
        some (rows', some result) := by
  unfold onTransactionStop at h
  cases hregister : resolveMeterStop stop.meterStop stop.transactionData with
  | error _ =>
    rw [hregister] at h
    cases h
  | ok register =>
    simp only [hregister] at h
    split at h
    · cases hcall : closeOpenSession rows stop.stationId stop.transactionId stop.endTime register stop.reason capWh
          now with
      | none =>
        rw [hcall] at h
        cases h
      | some outcome =>
        rw [hcall, Option.getD_some] at h
        exact ⟨register, rfl, hcall.trans (congrArg some h)⟩
    · cases h

theorem endTime_eq_none_of_isOpenFor {row : Session} {stationId : String} {transactionId : ℤ}
    (h : row.isOpenFor stationId transactionId = true) : row.endTime = none := by
  simp only [Session.isOpenFor, Bool.and_eq_true, decide_eq_true_eq] at h
  exact h.1.2.2

/-- A row is left as it is, or it was open and its samples stay. -/
def SameOrClosed (row row' : Session) : Prop :=
  row' = row ∨ row.endTime = none ∧ row'.lastMeterSeenAt = row.lastMeterSeenAt

theorem getElem?_closeOpenSession {rows rows' : List Session} {j : ℕ} {row : Session} (hrow : rows[j]? = some row)
    {stationId : String} {transactionId capWh : ℤ} {endTime now : ℚ} {meterStopWh : Option ℤ}
    {stopReason : Option String} {result : Option CloseResult}
    (h : closeOpenSession rows stationId transactionId endTime meterStopWh stopReason capWh now =
      some (rows', result)) : ∃ row', rows'[j]? = some row' ∧ SameOrClosed row row' := by
  unfold closeOpenSession at h
  split at h
  · obtain ⟨rfl, -⟩ := Prod.mk.inj (Option.some.inj h)
    exact ⟨row, hrow, .inl rfl⟩
  · obtain ⟨_, _, hout⟩ := Option.map_eq_some_iff.mp h
    obtain ⟨rfl, -⟩ := Prod.mk.inj hout
    obtain ⟨row', hrow', hcase⟩ := Sql.exists_getElem?_update hrow _ _
    refine ⟨row', hrow', ?_⟩
    rcases hcase with rfl | ⟨hopen, hclosed⟩
    · exact .inl rfl
    · refine .inr ⟨?_, (closed_of_close hclosed).lastMeterSeenAt⟩
      exact endTime_eq_none_of_isOpenFor (Bool.and_eq_true _ _ ▸ hopen).1

theorem getElem?_onTransactionStop {rows : List Session} {j : ℕ} {row : Session} (hrow : rows[j]? = some row)
    (stop : StopTransaction) (capWh : ℤ) (now : ℚ) (works : Bool) :
    ∃ row', (onTransactionStop rows stop capWh now works).1[j]? = some row' ∧ SameOrClosed row row' := by
  unfold onTransactionStop
  split
  · exact ⟨row, hrow, .inl rfl⟩
  · split
    · cases hcall : closeOpenSession rows stop.stationId stop.transactionId stop.endTime _ stop.reason capWh now with
      | none => exact ⟨row, hrow, .inl rfl⟩
      | some outcome => exact getElem?_closeOpenSession hrow hcall
    · exact ⟨row, hrow, .inl rfl⟩

/-! ## A StopTransaction against recovery -/

theorem energy_ge_iff {s l : ℤ} (hpos : 0 < s) (hle : s ≤ l) (register : Option ℤ) :
    (∃ e, computeEnergyKwh register (some s) = some e ∧ ((l - s : ℤ) : ℚ) / 1000 ≤ e) ↔
      ∃ m, register = some m ∧ l ≤ m := by
  constructor
  · rintro ⟨e, he, hge⟩
    obtain ⟨m, s', rfl, hs, -, -, rfl⟩ := computeEnergyKwh_eq_some he
    obtain rfl := Option.some.inj hs
    refine ⟨m, rfl, ?_⟩
    have : ((l - s : ℤ) : ℚ) ≤ ((m - s : ℤ) : ℚ) := by
      linarith
    have : l - s ≤ m - s := by
      exact_mod_cast this
    omega
  · rintro ⟨m, rfl, hm⟩
    exact computeEnergyKwh_mono hm (computeEnergyKwh_of_le hpos hle)

theorem energy_eq_none_iff {s : ℤ} (hpos : 0 < s) (register : Option ℤ) :
    computeEnergyKwh register (some s) = none ↔ ∀ m, register = some m → m < s := by
  cases register with
  | none => simp
  | some m =>
    rw [computeEnergyKwh, if_neg (not_le.mpr hpos)]
    simp

/-- **A StopTransaction keeps the known energy exactly when its register does.**  Let the open row have a positive
start register and a last register that is not below it, so that recovery would write the energy between the two.
The StopTransaction that closes the row writes the energy of the register that is resolved from its request; it is
`NULL` exactly when there is no such register or it is below the start, and at least what recovery would have
written exactly when it is not below the last register. -/
theorem stop_energy_ge_recovered_iff {rows rows' : List Session} {stop : StopTransaction} {capWh : ℤ} {now : ℚ}
    {works : Bool} {result : CloseResult} {row : Session} {s l : ℤ}
    (hrow : rows.find? (fun row => row.isOpenFor stop.stationId stop.transactionId) = some row)
    (hs : row.meterStartWh = some s) (hpos : 0 < s) (hl : row.lastMeterWh = some l) (hle : s ≤ l)
    (hclose : onTransactionStop rows stop capWh now works = (rows', some result)) :
    ∃ register, resolveMeterStop stop.meterStop stop.transactionData = .ok register ∧
      (∃ row' ∈ rows', row'.sessionId = row.sessionId ∧ row'.endTime = some stop.endTime ∧
        row'.energyDeliveredKwh = result.energyDeliveredKwh) ∧
      result.energyDeliveredKwh = computeEnergyKwh register (some s) ∧
      (result.energyDeliveredKwh = none ↔ ∀ m, register = some m → m < s) ∧
      ((∃ e, result.energyDeliveredKwh = some e ∧ ((l - s : ℤ) : ℚ) / 1000 ≤ e) ↔ ∃ m, register = some m ∧ l ≤ m) ∧
      ∀ clock time recovered, recover row clock time row = some recovered →
        recovered.energyDeliveredKwh = some (((l - s : ℤ) : ℚ) / 1000) := by
  obtain ⟨register, hregister, hcall⟩ := onTransactionStop_eq_some hclose
  obtain ⟨row', hmem, hclosed, henergy⟩ := closeOpenSession_eq_some hrow hcall
  have hval : result.energyDeliveredKwh = computeEnergyKwh register (some s) := by
    have := hclosed.energy
    rw [stopEnergy_of_start hs] at this
    rw [← henergy]
    exact energyColumn_computeEnergyKwh this
  refine ⟨register, hregister, ⟨row', hmem, hclosed.sessionId, hclosed.endTime, henergy⟩, hval, ?_, ?_, ?_⟩
  · rw [hval]
    exact energy_eq_none_iff hpos register
  · rw [hval]
    exact energy_ge_iff hpos hle register
  · intro clock time recovered hrecovered
    have := energyColumn_computeEnergyKwh (closed_of_close hrecovered).energy
    rw [this, hl, hs]
    exact computeEnergyKwh_of_le hpos hle

def chargingRow : Session :=
  { openSession 1 "CP1" 7 0 (some 1000) 0 with lastMeterWh := some 5000, energyDeliveredKwh := some 4 }

def finalSample : SampledValue :=
  { measurand := some registerMeasurand, value := some (.ok (.finite 6)), unit := some "kWh" }

/-- The request has no `meterStop`, but a sample. -/
def stopWithSample : StopTransaction :=
  { stationId := "CP1", transactionId := 7, endTime := 900, meterStop := none
    transactionData := some [{ sampledValue := some [finalSample] }] }

theorem stop_with_sample_keeps_energy :
    ∃ rows' result, onTransactionStop [chargingRow] stopWithSample 50000 900 true = (rows', some result) ∧
      ∃ e, result.energyDeliveredKwh = some e ∧ ((5000 - 1000 : ℤ) : ℚ) / 1000 ≤ e := by
  have hresolved : resolveMeterStop stopWithSample.meterStop stopWithSample.transactionData = .ok (some 6000) := by
    decide +kernel
  have hcloses : (onTransactionStop [chargingRow] stopWithSample 50000 900 true).2.isSome = true := by
    decide +kernel
  obtain ⟨result, hresult⟩ := Option.isSome_iff_exists.mp hcloses
  refine ⟨_, result, Prod.ext rfl hresult, ?_⟩
  have hrow : [chargingRow].find?
      (fun row => row.isOpenFor stopWithSample.stationId stopWithSample.transactionId) = some chargingRow := by
    decide
  obtain ⟨register, hregister, -, -, -, hiff, -⟩ :=
    stop_energy_ge_recovered_iff hrow (s := 1000) rfl (by decide) (l := 5000) rfl (by decide)
      (Prod.ext rfl hresult)
  rw [hresolved] at hregister
  obtain rfl := Except.ok.inj hregister
  exact hiff.mpr ⟨6000, rfl, by decide⟩

def stopWithoutRegister : StopTransaction :=
  { stationId := "CP1", transactionId := 7, endTime := 900, meterStop := none }

theorem stop_without_register_discards_energy :
    ∃ rows' result, onTransactionStop [chargingRow] stopWithoutRegister 50000 900 true = (rows', some result) ∧
      [chargingRow].find? (fun row => row.isOpenFor "CP1" 7) = some chargingRow ∧
      chargingRow.meterStartWh = some 1000 ∧ chargingRow.lastMeterWh = some 5000 ∧
      result.energyDeliveredKwh = none :=
  ⟨_, _, rfl, by decide, rfl, rfl, rfl⟩

end FavoniusBackend.Sessions.Closing
