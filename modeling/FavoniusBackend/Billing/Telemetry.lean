import FavoniusBackend.Lib.Sql
import FavoniusBackend.Lib.Trapezoid

/-!
# The granular telemetry query

`_GRANULAR_TELEMETRY_SQL` of `core/billing/session_cost.py`, common table expression by common table
expression.  `samples` selects the rows of the where clause that carry a positive power, from fifteen
minutes before the session up to its end, and pairs each with its successor.  `bucketed` clamps a
sample that precedes the session to its start and drops one whose successor does not reach it.  The
outer query groups by the UTC hour of the clamped time and sums observed seconds and energy.

Times are seconds since the epoch.  Each bucketed row is the graph of a linearly interpolated power
over the interval up to its successor, or of a constant power up to the end of the session
(`BucketedRow.segment`); its energy is the area of that segment.
-/

namespace FavoniusBackend.Billing.Telemetry

open Lib.Sql Lib.Trapezoid

/-- The columns of `telemetry` that billing and reconciliation read. -/
structure TelemetryRow where
  time : ℚ
  vehicleId : Option String
  stationId : String
  connectorId : ℤ
  transactionId : Option ℤ
  chargingKw : Option ℚ
  deriving DecidableEq, Repr

/-- The where clauses `_fetch_granular_telemetry_rows` puts into the query. -/
inductive WhereClause
  | vehicle (vehicleId : String)
  | transaction (stationId : String) (connectorId transactionId : ℤ)
  | transactionOrNull (stationId : String) (connectorId transactionId : ℤ)
  | connector (stationId : String) (connectorId : ℤ)
  deriving DecidableEq, Repr

def WhereClause.holds : WhereClause → TelemetryRow → Bool
  | .vehicle v, t => t.vehicleId == some v
  | .transaction s c x, t => t.stationId == s && t.connectorId == c && t.transactionId == some x
  | .transactionOrNull s c x, t =>
    t.stationId == s && t.connectorId == c &&
      (t.transactionId == none || t.transactionId == some x)
  | .connector s c, t => t.stationId == s && t.connectorId == c

structure Sample where
  rawTime : ℚ
  chargingKw : ℚ
  deriving DecidableEq, Repr

/-- The order of the `LEAD` windows. -/
def Sample.le (a b : Sample) : Prop := a.rawTime ≤ b.rawTime

instance : DecidableRel Sample.le := fun a b => inferInstanceAs (Decidable (a.rawTime ≤ b.rawTime))

instance : Std.Total Sample.le := ⟨fun a b => le_total a.rawTime b.rawTime⟩

instance : IsTrans Sample Sample.le := ⟨fun _ _ _ hab hbc => le_trans hab hbc⟩

/-- `${time_start} - INTERVAL '15 minutes'`, in seconds. -/
def lookback : ℚ := 900

/-- The row conditions of the `samples` expression. -/
def granularSample (clause : WhereClause) (startTime endTime : ℚ) (t : TelemetryRow) : Option Sample :=
  match t.chargingKw with
  | none => none
  | some kw =>
    if clause.holds t ∧ startTime - lookback ≤ t.time ∧ t.time < endTime ∧ 0 < kw then
      some ⟨t.time, kw⟩
    else none

/-- The `samples` expression, in the order of its windows. -/
def granularSamples (clause : WhereClause) (startTime endTime : ℚ) (telemetry : List TelemetryRow) :
    List Sample :=
  orderBy Sample.le (telemetry.filterMap (granularSample clause startTime endTime))

/-- A row of the `bucketed` expression; `next` holds `next_time` and `next_kw`. -/
structure BucketedRow where
  time : ℚ
  chargingKw : ℚ
  next : Option Sample
  deriving DecidableEq, Repr

/-- One row of `bucketed`: the effective time is `GREATEST(raw_time, start)`, and the row goes when its
successor does not lie after the start. -/
def bucketedRow (startTime : ℚ) (row : Sample × Option Sample) : Option BucketedRow :=
  match row.2 with
  | none => some ⟨max row.1.rawTime startTime, row.1.chargingKw, none⟩
  | some next =>
    if startTime < next.rawTime then
      some ⟨max row.1.rawTime startTime, row.1.chargingKw, some next⟩
    else none

def bucketed (startTime : ℚ) (samples : List Sample) : List BucketedRow :=
  (lead samples).filterMap (bucketedRow startTime)

/-- The two filtered sums of `observed_seconds` at one row. -/
def BucketedRow.observedSeconds (endTime : ℚ) (row : BucketedRow) : ℚ :=
  match row.next with
  | some next => min next.rawTime endTime - row.time
  | none => endTime - row.time

/-- The two filtered sums of `energy_kwh` at one row: the trapezoid up to the successor, or the last
power held up to the end of the session. -/
def BucketedRow.energyKwh (endTime : ℚ) (row : BucketedRow) : ℚ :=
  match row.next with
  | some next => (row.chargingKw + next.chargingKw) / 2 * (min next.rawTime endTime - row.time) / 3600
  | none => row.chargingKw * (endTime - row.time) / 3600

/-- `time_bucket('1 hour', time)` as the number of the UTC hour since the epoch. -/
def hourOf (time : ℚ) : ℤ := ⌊time / 3600⌋

/-- A row of the result; `hour` is the number of the hour. -/
structure HourBucket where
  hour : ℤ
  observedSeconds : ℚ
  energyKwh : ℚ
  deriving DecidableEq, Repr

/-- The query. -/
def granularTelemetry (clause : WhereClause) (startTime endTime : ℚ)
    (telemetry : List TelemetryRow) : List HourBucket :=
  (groupBy (fun row => hourOf row.time)
    (bucketed startTime (granularSamples clause startTime endTime telemetry))).map fun g =>
      ⟨g.1, (g.2.map (BucketedRow.observedSeconds endTime)).sum,
        (g.2.map (BucketedRow.energyKwh endTime)).sum⟩

/-! ### The samples -/

theorem granularSample_eq_some {clause : WhereClause} {startTime endTime : ℚ} {t : TelemetryRow}
    {s : Sample} (h : granularSample clause startTime endTime t = some s) :
    clause.holds t ∧ startTime - lookback ≤ s.rawTime ∧ s.rawTime < endTime ∧ 0 < s.chargingKw := by
  unfold granularSample at h
  split at h
  · cases h
  · split at h
    · rename_i hcond
      obtain rfl := Option.some.inj h
      exact hcond
    · cases h

theorem mem_granularSamples {clause : WhereClause} {startTime endTime : ℚ}
    {telemetry : List TelemetryRow} {s : Sample}
    (h : s ∈ granularSamples clause startTime endTime telemetry) :
    s.rawTime < endTime ∧ 0 < s.chargingKw := by
  rw [granularSamples, mem_orderBy, List.mem_filterMap] at h
  obtain ⟨t, _, ht⟩ := h
  obtain ⟨_, _, hend, hkw⟩ := granularSample_eq_some ht
  exact ⟨hend, hkw⟩

theorem granularSamples_pairwise (clause : WhereClause) (startTime endTime : ℚ)
    (telemetry : List TelemetryRow) :
    (granularSamples clause startTime endTime telemetry).Pairwise Sample.le :=
  orderBy_pairwise Sample.le _

/-! ### Bucketed rows as segments -/

def BucketedRow.segment (endTime : ℚ) (row : BucketedRow) : Segment :=
  match row.next with
  | some next => ⟨row.time, min next.rawTime endTime, row.chargingKw, next.chargingKw⟩
  | none => ⟨row.time, endTime, row.chargingKw, row.chargingKw⟩

theorem segment_t0 (endTime : ℚ) (row : BucketedRow) : (row.segment endTime).t0 = row.time := by
  unfold BucketedRow.segment
  split <;> rfl

theorem energyKwh_eq_area (endTime : ℚ) (row : BucketedRow) :
    row.energyKwh endTime = (row.segment endTime).area / 3600 := by
  unfold BucketedRow.energyKwh BucketedRow.segment Segment.area
  split
  · rfl
  · ring

/-- What the query's own conditions guarantee of a bucketed row: a proper interval inside the session,
with positive power at both ends. -/
structure BucketedRow.Proper (startTime endTime : ℚ) (row : BucketedRow) : Prop where
  start_le : startTime ≤ (row.segment endTime).t0
  ordered : (row.segment endTime).t0 ≤ (row.segment endTime).t1
  lt_end : (row.segment endTime).t0 < endTime
  le_end : (row.segment endTime).t1 ≤ endTime
  k0_pos : 0 < (row.segment endTime).k0
  k1_pos : 0 < (row.segment endTime).k1

theorem bucketed_proper {clause : WhereClause} {startTime endTime : ℚ} (hwindow : startTime < endTime)
    {telemetry : List TelemetryRow} {row : BucketedRow}
    (h : row ∈ bucketed startTime (granularSamples clause startTime endTime telemetry)) :
    row.Proper startTime endTime := by
  rw [bucketed, List.mem_filterMap] at h
  obtain ⟨⟨s, next⟩, hlead, hrow⟩ := h
  obtain ⟨hs, hnext⟩ := mem_lead (granularSamples_pairwise clause startTime endTime telemetry) hlead
  obtain ⟨hsend, hskw⟩ := mem_granularSamples hs
  cases next with
  | none =>
    obtain rfl := Option.some.inj hrow
    exact ⟨le_max_right _ _, (max_lt hsend hwindow).le, max_lt hsend hwindow, le_rfl, hskw, hskw⟩
  | some n =>
    obtain ⟨hn, hle⟩ := hnext n rfl
    obtain ⟨hnend, hnkw⟩ := mem_granularSamples hn
    simp only [bucketedRow] at hrow
    split at hrow
    · rename_i hafter
      obtain rfl := Option.some.inj hrow
      refine ⟨le_max_right _ _, ?_, max_lt hsend hwindow, min_le_right _ _, hskw, hnkw⟩
      exact max_le (le_min hle hsend.le) (le_min hafter.le hwindow.le)
    · cases hrow

/-! ### The hour groups -/

/-- **Summing the query's rows.**  Weighing each hour's energy by a value of the hour is weighing each
bucketed row's energy by the value of the hour in which it begins. -/
theorem sum_granularTelemetry (clause : WhereClause) (startTime endTime : ℚ)
    (telemetry : List TelemetryRow) (p : ℤ → ℚ) :
    ((granularTelemetry clause startTime endTime telemetry).map fun r => p r.hour * r.energyKwh).sum =
      ((bucketed startTime (granularSamples clause startTime endTime telemetry)).map fun row =>
        p (hourOf row.time) * row.energyKwh endTime).sum := by
  rw [granularTelemetry, List.map_map]
  exact sum_groupBy (fun row => hourOf row.time) _ p (BucketedRow.energyKwh endTime)

theorem sum_energyKwh (clause : WhereClause) (startTime endTime : ℚ) (telemetry : List TelemetryRow) :
    ((granularTelemetry clause startTime endTime telemetry).map HourBucket.energyKwh).sum =
      ((bucketed startTime (granularSamples clause startTime endTime telemetry)).map
        (BucketedRow.energyKwh endTime)).sum := by
  have h := sum_granularTelemetry clause startTime endTime telemetry (fun _ => 1)
  simpa using h

theorem hour_mem_granularTelemetry {clause : WhereClause} {startTime endTime : ℚ}
    {telemetry : List TelemetryRow} {r : HourBucket}
    (h : r ∈ granularTelemetry clause startTime endTime telemetry) :
    ∃ row ∈ bucketed startTime (granularSamples clause startTime endTime telemetry),
      hourOf row.time = r.hour := by
  rw [granularTelemetry, List.mem_map] at h
  obtain ⟨g, hg, rfl⟩ := h
  exact (mem_groupBy_keys (fun row => hourOf row.time) _ g.1).mp (List.mem_map_of_mem hg)

end FavoniusBackend.Billing.Telemetry
