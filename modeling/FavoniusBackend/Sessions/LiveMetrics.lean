import FavoniusBackend.Lib.Run
import FavoniusBackend.Lib.Sql
import FavoniusBackend.Sessions.MeterValues

/-!
# The live metrics of an open session

`_update_session_live_metrics` writes each register sample of a MeterValues frame onto the open row of its
transaction: one `UPDATE` whose expressions all read the old row.  It backfills the start register, raises the
last register and computes the energy again.  A statement that raises is swallowed and changes nothing.

The samples that were written to a row determine it: the last register is their maximum, the start register is
the one of StartTransaction or else the first positive sample, and the energy is that of the two registers.  For
the only open row of its transaction they are all the samples of its calls that the columns can take.
-/

namespace FavoniusBackend.Sessions.LiveMetrics

open Lib Lib.Numeric Sessions.MeterValues

/-- A row of `charging_sessions`, with the columns that the session pipeline reads; `live` says that its
`source` is `'live'`. -/
structure Session where
  sessionId : ℕ
  stationId : String
  transactionId : Option ℤ
  live : Bool := true
  startTime : ℚ
  endTime : Option ℚ := none
  meterStartWh : Option ℤ
  lastMeterWh : Option ℤ := none
  meterStopWh : Option ℤ := none
  energyDeliveredKwh : Option ℚ := none
  stopReason : Option String := none
  lastSeenAt : Option ℚ := none
  lastMeterSeenAt : Option ℚ := none
  updatedAt : Option ℚ
  deriving DecidableEq, Repr

/-- The `INSERT` of `insert_open_session`. -/
def openSession (sessionId : ℕ) (stationId : String) (transactionId : ℤ) (startTime : ℚ) (meterStartWh : Option ℤ)
    (now : ℚ) : Session :=
  { sessionId := sessionId, stationId := stationId, transactionId := some transactionId, startTime := startTime,
    meterStartWh := meterStartWh, updatedAt := some now }

namespace Session

/-- The `WHERE` clause that finds the open row of a transaction. -/
def isOpenFor (row : Session) (stationId : String) (transactionId : ℤ) : Bool :=
  decide (row.stationId = stationId ∧ row.transactionId = some transactionId ∧ row.endTime = none) && row.live

/-- `COALESCE(meter_start_wh, CASE WHEN $6 > 0 THEN $6 END)`. -/
def effectiveStart (row : Session) (meterWh : ℤ) : Option ℤ :=
  row.meterStartWh.or (if 0 < meterWh then some meterWh else none)

/-- `GREATEST(COALESCE(last_meter_wh, $6), $6)`. -/
def greatestMeter (row : Session) (meterWh : ℤ) : ℤ := max (row.lastMeterWh.getD meterWh) meterWh

/-- The new `energy_delivered_kwh`, `DECIMAL(10,3)`; the outer `none` is a numeric overflow. -/
def liveEnergy (row : Session) (meterWh : ℤ) : Option (Option ℚ) :=
  match row.effectiveStart meterWh with
  | none => some row.energyDeliveredKwh
  | some start =>
    if 0 < start ∧ start ≤ row.greatestMeter meterWh then
      (numericColumn 10 3 (((row.greatestMeter meterWh - start : ℤ) : ℚ) / 1000)).map some
    else some row.energyDeliveredKwh

/-- The `SET` list; a sample that is not a `BIGINT` raises. -/
def withMeter (row : Session) (now : ℚ) (meterWh : Option ℤ) : Option Session :=
  match meterWh with
  | none => some { row with updatedAt := some now }
  | some m =>
    if m < -2 ^ 63 ∨ 2 ^ 63 ≤ m then none
    else
      (row.liveEnergy m).map fun energy =>
        { row with
          meterStartWh := if row.meterStartWh = none ∧ 0 < m then some m else row.meterStartWh
          lastMeterWh := some (row.greatestMeter m)
          lastMeterSeenAt := some now
          energyDeliveredKwh := energy
          updatedAt := some now }

end Session

/-- A call of `_update_session_live_metrics` at a time; `works` is false if the database fails. -/
structure Update where
  stationId : String
  transactionId : ℤ
  meterWh : Option ℤ
  now : ℚ
  works : Bool := true

/-- The statement is executed without an error. -/
def Update.succeeds (u : Update) (rows : List Session) : Bool :=
  u.works &&
    Sql.updates (fun row => row.isOpenFor u.stationId u.transactionId) (fun row => row.withMeter u.now u.meterWh) rows

def updateSessionLiveMetrics (rows : List Session) (u : Update) : List Session :=
  if u.works then
    Sql.update (fun row => row.isOpenFor u.stationId u.transactionId) (fun row => row.withMeter u.now u.meterWh) rows
  else rows

/-- The sample that a call writes to the `i`-th row. -/
def sampleOf (i : ℕ) (rows : List Session) (u : Update) : Option ℤ :=
  if u.succeeds rows ∧ (rows[i]?.any fun row => row.isOpenFor u.stationId u.transactionId) then u.meterWh else none

/-- The samples that a run writes to the `i`-th row, in order. -/
def samplesOf (i : ℕ) : List Session → List Update → List ℤ
  | _, [] => []
  | rows, u :: us => (sampleOf i rows u).toList ++ samplesOf i (updateSessionLiveMetrics rows u) us

/-- The next sample is a `BIGINT`, and the energy that comes of it a `DECIMAL(10,3)`. -/
def fits (meterStartWh : Option ℤ) (samples : List ℤ) (m : ℤ) : Bool :=
  decide (-2 ^ 63 ≤ m ∧ m < 2 ^ 63) &&
    (computeEnergyKwh (samples ++ [m]).max? (meterStartWh.or ((samples ++ [m]).find? (0 < ·)))).all
      fun e => decide (e < 10 ^ 7)

def fitting (meterStartWh : Option ℤ) : List ℤ → List ℤ → List ℤ
  | _, [] => []
  | samples, m :: ms =>
    if fits meterStartWh samples m then m :: fitting meterStartWh (samples ++ [m]) ms
    else fitting meterStartWh samples ms

def callSamples (stationId : String) (transactionId : ℤ) (us : List Update) : List ℤ :=
  us.filterMap fun u =>
    if u.works ∧ u.stationId = stationId ∧ u.transactionId = transactionId then u.meterWh else none

/-! ## One sample -/

theorem numericColumn_wh (z : ℤ) :
    numericColumn 10 3 ((z : ℚ) / 1000) = if |(z : ℚ) / 1000| < 10 ^ 7 then some ((z : ℚ) / 1000) else none := by
  have hz : (z : ℚ) / 1000 * 10 ^ 3 = z := by
    norm_num
  unfold numericColumn
  have hfloor : (⌊(z : ℚ) + 1 / 2⌋ : ℤ) = z := by
    rw [Int.floor_intCast_add]
    norm_num
  have hceil : (⌈(z : ℚ) - 1 / 2⌉ : ℤ) = z := by
    rw [Int.ceil_eq_iff]
    constructor <;> linarith
  simp only [hz, hfloor, hceil, ite_self]
  norm_num

/-- The row's registers are those of the samples, and its energy is that of its registers. -/
structure Tracks (opened row : Session) (samples : List ℤ) : Prop where
  stationId : row.stationId = opened.stationId
  transactionId : row.transactionId = opened.transactionId
  live : row.live = opened.live
  endTime : row.endTime = opened.endTime
  last : row.lastMeterWh = samples.max?
  start : row.meterStartWh = opened.meterStartWh.or (samples.find? (0 < ·))
  energy : row.energyDeliveredKwh = computeEnergyKwh row.lastMeterWh row.meterStartWh

theorem max?_concat (l : List ℤ) (m : ℤ) : (l ++ [m]).max? = some (max (l.max?.getD m) m) := by
  cases l with
  | nil => simp
  | cons x xs =>
    rw [List.cons_append, List.max?_cons', List.max?_cons', List.foldl_append]
    rfl

theorem start_withMeter (row : Session) (m : ℤ) :
    (if row.meterStartWh = none ∧ 0 < m then some m else row.meterStartWh) = row.effectiveStart m := by
  unfold Session.effectiveStart
  cases row.meterStartWh with
  | none => by_cases hm : 0 < m <;> simp [hm]
  | some s => simp

theorem le_greatestMeter {row : Session} {l : ℤ} (m : ℤ) (h : row.lastMeterWh = some l) :
    l ≤ row.greatestMeter m := by
  rw [Session.greatestMeter, h]
  exact le_max_left _ _

theorem refused_of_refused {row : Session} {m start : ℤ} (hstart : row.effectiveStart m = some start)
    (h : ¬ (0 < start ∧ start ≤ row.greatestMeter m)) :
    computeEnergyKwh row.lastMeterWh row.meterStartWh = none := by
  rw [Option.eq_none_iff_forall_ne_some]
  intro e he
  obtain ⟨l, s, hl, hs, hpos, hle, -⟩ := computeEnergyKwh_eq_some he
  have heq : row.effectiveStart m = some s := by
    rw [Session.effectiveStart, hs, Option.some_or]
  obtain rfl : s = start := Option.some.inj (heq.symm.trans hstart)
  exact h ⟨hpos, hle.trans (le_greatestMeter m hl)⟩

theorem liveEnergy_eq {row : Session} {m : ℤ} {e : Option ℚ}
    (henergy : row.energyDeliveredKwh = computeEnergyKwh row.lastMeterWh row.meterStartWh)
    (h : row.liveEnergy m = some e) : e = computeEnergyKwh (some (row.greatestMeter m)) (row.effectiveStart m) := by
  unfold Session.liveEnergy at h
  cases hstart : row.effectiveStart m with
  | none =>
    have hnull : row.meterStartWh = none := by
      rw [Session.effectiveStart, Option.or_eq_none_iff] at hstart
      exact hstart.1
    rw [hstart, henergy, hnull] at h
    simpa using h.symm
  | some start =>
    simp only [hstart] at h
    split at h
    · rename_i hok
      rw [computeEnergyKwh_of_le hok.1 hok.2]
      rw [numericColumn_wh] at h
      split at h
      · exact (Option.some.inj h).symm
      · cases h
    · rename_i hrefused
      rw [henergy, refused_of_refused hstart hrefused] at h
      rw [← Option.some.inj h, computeEnergyKwh]
      by_cases hpos : start ≤ 0
      · rw [if_pos hpos]
      · rw [if_neg hpos, if_pos]
        by_contra hle
        exact hrefused ⟨not_le.mp hpos, not_lt.mp hle⟩

/-- **One sample.**  A row that is determined by its samples is determined by them and the next one. -/
theorem Tracks.withMeter {opened row row' : Session} {samples : List ℤ} (h : Tracks opened row samples) {now : ℚ}
    {meterWh : Option ℤ} (hrow : row.withMeter now meterWh = some row') :
    Tracks opened row' (samples ++ meterWh.toList) := by
  cases meterWh with
  | none =>
    obtain rfl := Option.some.inj hrow
    rw [Option.toList_none, List.append_nil]
    exact ⟨h.stationId, h.transactionId, h.live, h.endTime, h.last, h.start, h.energy⟩
  | some m =>
    unfold Session.withMeter at hrow
    dsimp only at hrow
    split at hrow
    · cases hrow
    · obtain ⟨e, he, rfl⟩ := Option.map_eq_some_iff.mp hrow
      refine ⟨h.stationId, h.transactionId, h.live, h.endTime, ?_, ?_, ?_⟩
      · show some (row.greatestMeter m) = _
        rw [Option.toList_some, max?_concat, Session.greatestMeter, h.last]
      · show (if row.meterStartWh = none ∧ 0 < m then some m else row.meterStartWh) = _
        rw [start_withMeter, Session.effectiveStart, h.start, Option.toList_some, List.find?_append,
          List.find?_singleton, Option.or_assoc]
        simp
      · show e = computeEnergyKwh (some (row.greatestMeter m)) (if _ then _ else _)
        rw [start_withMeter]
        exact liveEnergy_eq h.energy he

theorem Tracks.isSome_withMeter {opened row : Session} {samples : List ℤ} (h : Tracks opened row samples) (now : ℚ)
    (m : ℤ) : (row.withMeter now (some m)).isSome = fits opened.meterStartWh samples m := by
  have hlast : (samples ++ [m]).max? = some (row.greatestMeter m) := by
    rw [max?_concat, Session.greatestMeter, h.last]
  have hstart : opened.meterStartWh.or ((samples ++ [m]).find? (0 < ·)) = row.effectiveStart m := by
    rw [Session.effectiveStart, h.start, List.find?_append, List.find?_singleton, Option.or_assoc]
    simp
  have henergy : (row.liveEnergy m).isSome =
      (computeEnergyKwh (some (row.greatestMeter m)) (row.effectiveStart m)).all fun e => decide (e < 10 ^ 7) := by
    unfold Session.liveEnergy
    cases row.effectiveStart m with
    | none => simp
    | some start =>
      dsimp only
      by_cases hok : 0 < start ∧ start ≤ row.greatestMeter m
      · have hnonneg : (0 : ℚ) ≤ ((row.greatestMeter m - start : ℤ) : ℚ) / 1000 := by
          have : (0 : ℚ) ≤ ((row.greatestMeter m - start : ℤ) : ℚ) := by exact_mod_cast sub_nonneg.mpr hok.2
          positivity
        rw [if_pos hok, computeEnergyKwh_of_le hok.1 hok.2, numericColumn_wh, abs_of_nonneg hnonneg]
        split <;> simp_all
      · have hrefused : computeEnergyKwh (some (row.greatestMeter m)) (some start) = none := by
          rw [computeEnergyKwh]
          by_cases hpos : start ≤ 0
          · rw [if_pos hpos]
          · rw [if_neg hpos, if_pos (not_le.mp fun hle => hok ⟨not_le.mp hpos, hle⟩)]
        rw [if_neg hok, hrefused]
        rfl
  rw [fits, hlast, hstart, ← henergy]
  unfold Session.withMeter
  dsimp only
  by_cases hrange : m < -2 ^ 63 ∨ 2 ^ 63 ≤ m
  · have hout : ¬ (-2 ^ 63 ≤ m ∧ m < 2 ^ 63) := by omega
    rw [if_pos hrange, decide_eq_false hout]
    rfl
  · have hin : -2 ^ 63 ≤ m ∧ m < 2 ^ 63 := by omega
    rw [if_neg hrange, decide_eq_true hin, Option.isSome_map, Bool.true_and]

/-- A register sample is stamped with the time of its statement. -/
theorem lastMeterSeenAt_withMeter {row row' : Session} {now : ℚ} {m : ℤ}
    (h : row.withMeter now (some m) = some row') : row'.lastMeterSeenAt = some now := by
  unfold Session.withMeter at h
  dsimp only at h
  split at h
  · cases h
  · obtain ⟨e, -, rfl⟩ := Option.map_eq_some_iff.mp h
    rfl

/-! ## Every run -/

theorem Tracks.update {opened row : Session} {samples : List ℤ} {rows : List Session} {i : ℕ}
    (h : Tracks opened row samples) (hrow : rows[i]? = some row) (u : Update) :
    ∃ row', (updateSessionLiveMetrics rows u)[i]? = some row' ∧
      Tracks opened row' (samples ++ (sampleOf i rows u).toList) := by
  unfold updateSessionLiveMetrics sampleOf Update.succeeds
  cases hworks : u.works with
  | false => exact ⟨row, by simpa using hrow, by simpa using h⟩
  | true =>
    simp only [if_true, Bool.true_and, Sql.getElem?_update, hrow, Option.map_some, Option.any_some]
    split
    · rename_i hok
      obtain ⟨row', hrow'⟩ := Option.isSome_iff_exists.mp (Sql.isSome_of_updates hok.1 hrow hok.2)
      refine ⟨row', by rw [hrow', Option.getD_some], ?_⟩
      exact h.withMeter hrow'
    · exact ⟨row, rfl, by simpa using h⟩

/-- **Every run.** -/
theorem Tracks.run {opened row : Session} {samples : List ℤ} {rows : List Session} {i : ℕ}
    (h : Tracks opened row samples) (hrow : rows[i]? = some row) (us : List Update) :
    ∃ row', (Run.run updateSessionLiveMetrics rows us)[i]? = some row' ∧
      Tracks opened row' (samples ++ samplesOf i rows us) := by
  induction us generalizing rows row samples with
  | nil => exact ⟨row, hrow, by simpa [samplesOf] using h⟩
  | cons u us ih =>
    obtain ⟨row₁, hrow₁, h₁⟩ := h.update hrow u
    obtain ⟨row₂, hrow₂, h₂⟩ := ih h₁ hrow₁
    refine ⟨row₂, hrow₂, ?_⟩
    rw [samplesOf, ← List.append_assoc]
    exact h₂

section Recorded

variable {opened row : Session} {samples : List ℤ} {rows : List Session} {i : ℕ}

/-- No other row is open for the transaction of the `i`-th. -/
def OnlyOpen (opened : Session) (rows : List Session) (i : ℕ) : Prop :=
  ∀ j r, rows[j]? = some r → j ≠ i → ∀ transactionId, opened.transactionId = some transactionId →
    r.isOpenFor opened.stationId transactionId = false

theorem isOpenFor_withMeter {row row' : Session} {now : ℚ} {meterWh : Option ℤ}
    (h : row.withMeter now meterWh = some row') (stationId : String) (transactionId : ℤ) :
    row'.isOpenFor stationId transactionId = row.isOpenFor stationId transactionId := by
  unfold Session.withMeter at h
  split at h
  · cases h
    rfl
  · split at h
    · cases h
    · obtain ⟨e, -, rfl⟩ := Option.map_eq_some_iff.mp h
      rfl

theorem OnlyOpen.update (h : OnlyOpen opened rows i) (u : Update) :
    OnlyOpen opened (updateSessionLiveMetrics rows u) i := by
  intro j r hr hj transactionId htx
  unfold updateSessionLiveMetrics at hr
  split at hr
  · rw [Sql.getElem?_update] at hr
    obtain ⟨r₀, hr₀, rfl⟩ := Option.map_eq_some_iff.mp hr
    have hclosed := h j r₀ hr₀ hj transactionId htx
    split
    · cases hset : r₀.withMeter u.now u.meterWh with
      | none => exact hclosed
      | some r₁ =>
        rw [Option.getD_some, isOpenFor_withMeter hset]
        exact hclosed
    · exact hclosed
  · exact h j r hr hj transactionId htx

/-- **One call.**  A sample for the transaction is written exactly when the call works and the sample fits. -/
theorem sampleOf_eq (h : Tracks opened row samples) (hlive : opened.live = true) (hopen : opened.endTime = none)
    {transactionId : ℤ} (htx : opened.transactionId = some transactionId) (hrow : rows[i]? = some row)
    (hothers : OnlyOpen opened rows i) (u : Update) :
    sampleOf i rows u =
      ((if u.works ∧ u.stationId = opened.stationId ∧ u.transactionId = transactionId then u.meterWh else none).filter
        (fits opened.meterStartWh samples)) := by
  have hkey : row.isOpenFor u.stationId u.transactionId =
      decide (u.stationId = opened.stationId ∧ u.transactionId = transactionId) := by
    rw [Session.isOpenFor, h.stationId, h.transactionId, h.endTime, h.live, hlive, hopen, htx, Bool.and_true]
    simp [eq_comm]
  unfold sampleOf Update.succeeds
  rw [hrow, Option.any_some, hkey]
  by_cases hmine : u.stationId = opened.stationId ∧ u.transactionId = transactionId
  · rw [decide_eq_true hmine]
    have hupdates : Sql.updates (fun row => row.isOpenFor u.stationId u.transactionId)
        (fun row => row.withMeter u.now u.meterWh) rows = (row.withMeter u.now u.meterWh).isSome := by
      rw [Bool.eq_iff_iff, Sql.updates, List.all_eq_true]
      constructor
      · intro hall
        have hrow' := hall row (List.mem_of_getElem? hrow)
        rw [hkey, decide_eq_true hmine] at hrow'
        simpa using hrow'
      · intro hsome r hr
        obtain ⟨j, hj⟩ := List.mem_iff_getElem?.mp hr
        by_cases hji : j = i
        · subst hji
          obtain rfl := Option.some.inj (hj.symm.trans hrow)
          rw [hsome, Bool.or_true]
        · rw [hmine.1, hmine.2, hothers j r hj hji transactionId htx]
          rfl
    rw [hupdates]
    cases hm : u.meterWh with
    | none => cases u.works <;> simp [Session.withMeter, hmine]
    | some m =>
      rw [h.isSome_withMeter]
      cases u.works with
      | false => simp
      | true =>
        cases hfits : fits opened.meterStartWh samples m <;> simp [hmine, Option.filter, hfits]
  · rw [decide_eq_false hmine, if_neg (by simp), if_neg fun h => hmine h.2]
    rfl

/-- **Every run** writes the samples of the calls for the transaction that fit. -/
theorem samplesOf_eq (h : Tracks opened row samples) (hlive : opened.live = true) (hopen : opened.endTime = none)
    {transactionId : ℤ} (htx : opened.transactionId = some transactionId) (hrow : rows[i]? = some row)
    (hothers : OnlyOpen opened rows i) (us : List Update) :
    samplesOf i rows us =
      fitting opened.meterStartWh samples (callSamples opened.stationId transactionId us) := by
  induction us generalizing rows row samples with
  | nil => rfl
  | cons u us ih =>
    obtain ⟨row₁, hrow₁, h₁⟩ := h.update hrow u
    have hcalls : callSamples opened.stationId transactionId (u :: us) =
        (if u.works ∧ u.stationId = opened.stationId ∧ u.transactionId = transactionId then u.meterWh
          else none).toList ++ callSamples opened.stationId transactionId us := by
      rw [callSamples, List.filterMap_cons, callSamples]
      split <;> simp_all
    rw [samplesOf, ih h₁ hrow₁ (hothers.update u), sampleOf_eq h hlive hopen htx hrow hothers, hcalls]
    cases (if u.works ∧ u.stationId = opened.stationId ∧ u.transactionId = transactionId then u.meterWh
        else none) with
    | none => simp
    | some m =>
      rw [Option.toList_some, List.singleton_append, fitting]
      cases hfits : fits opened.meterStartWh samples m <;> simp [Option.filter, hfits]

end Recorded

theorem tracks_openSession (sessionId : ℕ) (stationId : String) (transactionId : ℤ) (startTime : ℚ)
    (meterStartWh : Option ℤ) (now : ℚ) :
    Tracks (openSession sessionId stationId transactionId startTime meterStartWh now)
      (openSession sessionId stationId transactionId startTime meterStartWh now) [] :=
  ⟨rfl, rfl, rfl, rfl, rfl, by simp, by simp [openSession]⟩

theorem max?_le_max?_append {l : List ℤ} {m : ℤ} (l' : List ℤ) (h : l.max? = some m) :
    ∃ m', (l ++ l').max? = some m' ∧ m ≤ m' := by
  have hmem : m ∈ l ++ l' := List.mem_append_left _ (List.max?_mem h)
  cases hmax : (l ++ l').max? with
  | none => simp [List.max?_eq_none_iff.mp hmax] at hmem
  | some m' => exact ⟨m', rfl, (List.max?_eq_some_iff.mp hmax).2 m hmem⟩

theorem Tracks.start_eq {opened row row' : Session} {samples later : List ℤ} (h : Tracks opened row samples)
    (h' : Tracks opened row' (samples ++ later)) {s : ℤ} (hs : row.meterStartWh = some s) :
    row'.meterStartWh = some s := by
  rw [h'.start, List.find?_append, ← Option.or_assoc, ← h.start, hs, Option.some_or]

theorem Tracks.energy_le {opened row row' : Session} {samples later : List ℤ} (h : Tracks opened row samples)
    (h' : Tracks opened row' (samples ++ later)) {e : ℚ} (he : row.energyDeliveredKwh = some e) :
    ∃ e', row'.energyDeliveredKwh = some e' ∧ e ≤ e' := by
  rw [h.energy] at he
  obtain ⟨m, s, hm, hs, -⟩ := computeEnergyKwh_eq_some he
  obtain ⟨m', hm', hle⟩ := max?_le_max?_append later (h.last.symm.trans hm)
  rw [h'.energy, h'.last, hm', h.start_eq h' hs, ← hs]
  rw [hm] at he
  exact computeEnergyKwh_mono hle he

/-- **The registers and the energy of a session are those of its samples.**  After every run of MeterValues updates
the last register of an opened row is the maximum of the samples written to it, the start register is the one it
was opened with or else the first positive sample, and the energy is that of the two registers.  It is not
negative, and neither the start register nor the energy is lost or lowered by what comes later.  When no other row
is open for the transaction, the samples written are those of all its calls that reach the database, but for the
ones that the columns cannot take. -/
theorem live_metrics_eq_of_samples (before after : List Session) (sessionId : ℕ) (stationId : String)
    (transactionId : ℤ) (startTime : ℚ) (meterStartWh : Option ℤ) (now : ℚ) (us later : List Update) :
    let rows := before ++ openSession sessionId stationId transactionId startTime meterStartWh now :: after
    let samples := samplesOf before.length rows us
    ∃ row row', (Run.run updateSessionLiveMetrics rows us)[before.length]? = some row ∧
      (Run.run updateSessionLiveMetrics rows (us ++ later))[before.length]? = some row' ∧
      (∀ m, row.lastMeterWh = some m ↔ m ∈ samples ∧ ∀ x ∈ samples, x ≤ m) ∧
      row.meterStartWh = meterStartWh.or (samples.find? (0 < ·)) ∧
      (∀ s, row.meterStartWh = some s → row'.meterStartWh = some s) ∧
      row.energyDeliveredKwh = computeEnergyKwh row.lastMeterWh row.meterStartWh ∧
      (∀ e, row.energyDeliveredKwh = some e → 0 ≤ e ∧ ∃ e', row'.energyDeliveredKwh = some e' ∧ e ≤ e') ∧
      ((∀ r ∈ before ++ after, r.isOpenFor stationId transactionId = false) →
        samples = fitting meterStartWh [] (callSamples stationId transactionId us)) := by
  intro rows samples
  have hopened : rows[before.length]? =
      some (openSession sessionId stationId transactionId startTime meterStartWh now) := by
    simp [rows]
  obtain ⟨row, hrow, htracks⟩ := (tracks_openSession _ _ _ _ _ _).run hopened us
  obtain ⟨row', hrow', htracks'⟩ := htracks.run hrow later
  refine ⟨row, row', hrow, ?_, ?_, htracks.start, ?_, htracks.energy, ?_, ?_⟩
  · rw [Run.run_append]
    exact hrow'
  · intro m
    rw [htracks.last]
    exact List.max?_eq_some_iff
  · intro s hs
    exact htracks.start_eq htracks' hs
  · intro e he
    exact ⟨computeEnergyKwh_nonneg (htracks.energy.symm.trans he), htracks.energy_le htracks' he⟩
  · intro hothers
    refine samplesOf_eq (tracks_openSession _ _ _ _ _ _) rfl rfl rfl hopened ?_ us
    intro j r hr hj transactionId' htx
    cases htx
    apply hothers
    rcases lt_trichotomy j before.length with hlt | heq | hgt
    · rw [List.getElem?_append_left hlt] at hr
      exact List.mem_append_left _ (List.mem_of_getElem? hr)
    · exact absurd heq hj
    · rw [List.getElem?_append_right hgt.le, ← Nat.succ_pred_eq_of_pos (Nat.sub_pos_of_lt hgt),
        List.getElem?_cons_succ] at hr
      exact List.mem_append_right _ (List.mem_of_getElem? hr)

/-- Of a start at 0, two samples and a late one: the registers are 1500 and 1800, and 0.3 kWh are delivered. -/
theorem live_metrics_of_late_sample :
    ∃ row, (Run.run updateSessionLiveMetrics [openSession 1 "CP1" 7 0 none 0]
        [⟨"CP1", 7, some 1500, 60, true⟩, ⟨"CP1", 7, some 1800, 120, true⟩, ⟨"CP1", 7, some 1600, 180, true⟩])[0]? =
          some row ∧
      row.meterStartWh = some 1500 ∧ row.energyDeliveredKwh = some (3 / 10) := by
  obtain ⟨row, -, hrow, -, hlast, hstart, -, henergy, -, hsamples⟩ :=
    live_metrics_eq_of_samples [] [] 1 "CP1" 7 0 none 0
      [⟨"CP1", 7, some 1500, 60, true⟩, ⟨"CP1", 7, some 1800, 120, true⟩, ⟨"CP1", 7, some 1600, 180, true⟩] []
  have hall := hsamples (fun r hr => absurd hr List.not_mem_nil)
  rw [show fitting none [] (callSamples "CP1" 7 [⟨"CP1", 7, some 1500, 60, true⟩, ⟨"CP1", 7, some 1800, 120, true⟩,
    ⟨"CP1", 7, some 1600, 180, true⟩]) = [1500, 1800, 1600] by decide +kernel] at hall
  rw [hall] at hlast hstart
  have hmax := (hlast 1800).mpr ⟨by decide, by decide⟩
  refine ⟨row, hrow, hstart, ?_⟩
  rw [henergy, hmax, hstart]
  decide +kernel

end FavoniusBackend.Sessions.LiveMetrics
