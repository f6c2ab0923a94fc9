import FavoniusBackend.Billing.Telemetry

/-!
# Session energy in the charger-log reconciliation

`_OUR_ENERGY_SQL` and `_our_energy_kwh` of `core/reconciliation/session_log_reconciliation.py`.  The
query is a second integrator over the telemetry that billing integrates: the same lookback, the same
clamp to the start of the session and the same trapezoids, but it keeps idle samples (zero power) and
caps the tail after the last sample.

Both integrals are the same functional `heldIntegral` of a list of samples: clamp the samples to the
start, interpolate linearly, hold the last power to the end.  Billing applies it to the active samples
only, so the two differ exactly by what the idle runs contribute (`heldIntegral_active_sub`), and they
agree if and only if these contributions cancel (`billed_energy_eq_reconciled_iff`).
-/

namespace FavoniusBackend.Reconciliation.SessionLog

open Lib.Sql Billing.Telemetry

/-! ### The query -/

def tailExtrapolationCapSeconds : ℚ := 300

/-- The row conditions of the `samples` expression.  Its three transaction filters are the clauses
`transaction`, `transactionOrNull` and, for a `NULL` parameter, `connector`. -/
def ourSample (clause : WhereClause) (startTime endTime : ℚ) (t : TelemetryRow) : Option Sample :=
  match t.chargingKw with
  | none => none
  | some kw =>
    if clause.holds t ∧ startTime - lookback ≤ t.time ∧ t.time < endTime then some ⟨t.time, kw⟩
    else none

def ourSamples (clause : WhereClause) (startTime endTime : ℚ) (telemetry : List TelemetryRow) :
    List Sample :=
  orderBy Sample.le (telemetry.filterMap (ourSample clause startTime endTime))

/-- `next_time IS NULL OR next_time > start`. -/
def reachesStart (startTime : ℚ) (row : Sample × Option Sample) : Bool :=
  match row.2 with
  | some next => decide (startTime < next.rawTime)
  | none => true

def ourTerm (startTime endTime : ℚ) (row : Sample × Option Sample) : ℚ :=
  match row.2 with
  | some next =>
    (row.1.chargingKw + next.chargingKw) / 2 *
      (min next.rawTime endTime - max row.1.rawTime startTime) / 3600
  | none =>
    row.1.chargingKw *
      min (endTime - max row.1.rawTime startTime) tailExtrapolationCapSeconds / 3600

def ourEnergySql (clause : WhereClause) (startTime endTime : ℚ) (telemetry : List TelemetryRow) : ℚ :=
  (((lead (ourSamples clause startTime endTime telemetry)).filter (reachesStart startTime)).map
    (ourTerm startTime endTime)).sum

/-- The inner `_query`: only a positive energy counts. -/
def ourQuery (clause : WhereClause) (startTime endTime : ℚ) (telemetry : List TelemetryRow) :
    Option ℚ :=
  let value := ourEnergySql clause startTime endTime telemetry
  if value ≤ 0 then none else some value

def ourEnergyKwh (stationId : Option String) (connectorId transactionId : Option ℤ)
    (startTime endTime : Option ℚ) (telemetry : List TelemetryRow) : Option ℚ :=
  match startTime, endTime, stationId, connectorId with
  | some a, some b, some s, some c =>
    match transactionId with
    | some x =>
      match ourQuery (.transaction s c x) a b telemetry with
      | some value => some value
      | none => ourQuery (.transactionOrNull s c x) a b telemetry
    | none => ourQuery (.connector s c) a b telemetry
  | _, _, _, _ => none

/-! ### The common integral -/

def effective (startTime : ℚ) (s : Sample) : ℚ := max s.rawTime startTime

/-- Linear interpolation between clamped samples, the last power held to the end; in kW seconds. -/
def heldIntegral (startTime endTime : ℚ) : List Sample → ℚ
  | [] => 0
  | [a] => a.chargingKw * (endTime - effective startTime a)
  | a :: b :: rest =>
    (a.chargingKw + b.chargingKw) / 2 * (effective startTime b - effective startTime a) +
      heldIntegral startTime endTime (b :: rest)

theorem heldIntegral_cons_cons (startTime endTime : ℚ) (a b : Sample) (rest : List Sample) :
    heldIntegral startTime endTime (a :: b :: rest) =
      (a.chargingKw + b.chargingKw) / 2 * (effective startTime b - effective startTime a) +
        heldIntegral startTime endTime (b :: rest) := rfl

/-- What a row and its successor contribute, in the form both queries share. -/
def heldTerm (startTime endTime : ℚ) (row : Sample × Option Sample) : ℚ :=
  match row.2 with
  | some next =>
    if startTime < next.rawTime then
      (row.1.chargingKw + next.chargingKw) / 2 *
        (min next.rawTime endTime - max row.1.rawTime startTime) / 3600
    else 0
  | none => row.1.chargingKw * (endTime - max row.1.rawTime startTime) / 3600

/-- Dropping a row whose successor does not reach the start loses nothing: clamped, the interval is
empty. -/
theorem sum_heldTerm (startTime endTime : ℚ) (samples : List Sample)
    (hsorted : samples.Pairwise Sample.le) (hend : ∀ s ∈ samples, s.rawTime < endTime) :
    ((lead samples).map (heldTerm startTime endTime)).sum =
      heldIntegral startTime endTime samples / 3600 := by
  induction samples with
  | nil => simp [lead, heldIntegral]
  | cons a samples ih =>
    rw [List.pairwise_cons] at hsorted
    cases samples with
    | nil => simp [lead, heldIntegral, heldTerm, effective]
    | cons b rest =>
      have htail := ih hsorted.2 (fun s hs => hend s (List.mem_cons_of_mem _ hs))
      have hterm : heldTerm startTime endTime (a, some b) =
          (a.chargingKw + b.chargingKw) / 2 *
            (effective startTime b - effective startTime a) / 3600 := by
        have hb : b.rawTime < endTime := hend b (List.mem_cons_of_mem _ List.mem_cons_self)
        have hab : a.rawTime ≤ b.rawTime := hsorted.1 b List.mem_cons_self
        simp only [heldTerm, effective]
        split
        · rename_i hafter
          rw [min_eq_left hb.le, max_eq_left hafter.le]
        · rename_i hbefore
          have hb' : b.rawTime ≤ startTime := not_lt.mp hbefore
          rw [max_eq_right hb', max_eq_right (hab.trans hb'), sub_self, mul_zero, zero_div]
      rw [lead_cons_cons, List.map_cons, List.sum_cons, htail, hterm, heldIntegral_cons_cons]
      ring

/-! ### Both queries are the common integral -/

theorem billed_eq_heldIntegral (clause : WhereClause) (startTime endTime : ℚ)
    (telemetry : List TelemetryRow) :
    ((granularTelemetry clause startTime endTime telemetry).map HourBucket.energyKwh).sum =
      heldIntegral startTime endTime (granularSamples clause startTime endTime telemetry) / 3600 := by
  rw [sum_energyKwh, ← sum_heldTerm startTime endTime _
    (granularSamples_pairwise clause startTime endTime telemetry)
    (fun s hs => (mem_granularSamples hs).1), bucketed, sum_map_filterMap]
  congr 1
  apply List.map_congr_left
  intro row _
  obtain ⟨a, next⟩ := row
  cases next with
  | none => rfl
  | some n =>
    simp only [bucketedRow, heldTerm]
    split
    · rfl
    · rfl

theorem mem_ourSamples {clause : WhereClause} {startTime endTime : ℚ}
    {telemetry : List TelemetryRow} {s : Sample}
    (h : s ∈ ourSamples clause startTime endTime telemetry) :
    s.rawTime < endTime ∧ ∃ t ∈ telemetry, t.chargingKw = some s.chargingKw := by
  rw [ourSamples, mem_orderBy, List.mem_filterMap] at h
  obtain ⟨t, ht, hs⟩ := h
  unfold ourSample at hs
  split at hs
  · cases hs
  · rename_i kw hkw
    split at hs
    · rename_i hcond
      obtain rfl := Option.some.inj hs
      exact ⟨hcond.2.2, t, ht, hkw⟩
    · cases hs

/-- Reconciliation's energy is the integral over its samples, as long as the cap on the tail does not
bite. -/
theorem reconciled_eq_heldIntegral (clause : WhereClause) (startTime endTime : ℚ)
    (telemetry : List TelemetryRow)
    (hlast : ∀ s, (ourSamples clause startTime endTime telemetry).getLast? = some s →
      endTime - tailExtrapolationCapSeconds ≤ s.rawTime) :
    ourEnergySql clause startTime endTime telemetry =
      heldIntegral startTime endTime (ourSamples clause startTime endTime telemetry) / 3600 := by
  have hsorted : (ourSamples clause startTime endTime telemetry).Pairwise Sample.le :=
    orderBy_pairwise Sample.le _
  rw [ourEnergySql, ← sum_heldTerm startTime endTime _ hsorted (fun s hs => (mem_ourSamples hs).1),
    sum_map_filter]
  congr 1
  apply List.map_congr_left
  intro row hrow
  obtain ⟨a, next⟩ := row
  cases next with
  | none =>
    have ha := hlast a (getLast?_of_mem_lead hrow)
    have hle : endTime - max a.rawTime startTime ≤ tailExtrapolationCapSeconds := by
      have hmax := le_max_left a.rawTime startTime
      linarith
    simp only [reachesStart, ourTerm, heldTerm, min_eq_left hle, if_true]
  | some n => simp only [reachesStart, ourTerm, heldTerm, decide_eq_true_eq]

theorem granularSamples_eq_filter (clause : WhereClause) (startTime endTime : ℚ)
    (telemetry : List TelemetryRow) :
    granularSamples clause startTime endTime telemetry =
      (ourSamples clause startTime endTime telemetry).filter fun s => 0 < s.chargingKw := by
  rw [ourSamples, ← orderBy_filter, granularSamples]
  congr 1
  rw [← List.filterMap_eq_filter, List.filterMap_filterMap]
  apply List.filterMap_congr
  intro t _
  unfold granularSample ourSample
  cases t.chargingKw with
  | none => rfl
  | some kw =>
    by_cases hin : clause.holds t ∧ startTime - lookback ≤ t.time ∧ t.time < endTime
    · simp [Option.guard, hin]
    · simp only [if_neg hin, Option.bind_none]
      rw [if_neg (fun h => hin ⟨h.1, h.2.1, h.2.2.1⟩)]

/-! ### Idle runs -/

/-- A maximal run of idle samples between two active ones, either of which may be missing. -/
structure IdleRun where
  before : Option Sample
  first : Sample
  last : Sample
  after : Option Sample
  deriving DecidableEq, Repr

/-- The idle runs of a list of samples.  `before` is the last active sample met so far, `run` the first
and the last sample of the run under way. -/
def idleRuns : Option Sample → Option (Sample × Sample) → List Sample → List IdleRun
  | _, none, [] => []
  | before, some run, [] => [⟨before, run.1, run.2, none⟩]
  | before, none, s :: rest =>
    if 0 < s.chargingKw then idleRuns (some s) none rest else idleRuns before (some (s, s)) rest
  | before, some run, s :: rest =>
    if 0 < s.chargingKw then ⟨before, run.1, run.2, some s⟩ :: idleRuns (some s) none rest
    else idleRuns before (some (run.1, s)) rest

/-- What billing adds over an idle run by leaving it out: it bridges the run between two active
samples, it holds the last power over a trailing run, and it misses the ramp after a leading run. -/
def IdleRun.excess (startTime endTime : ℚ) (r : IdleRun) : ℚ :=
  match r.before, r.after with
  | some a, some b =>
    a.chargingKw / 2 * (effective startTime b - effective startTime r.first) +
      b.chargingKw / 2 * (effective startTime r.last - effective startTime a)
  | some a, none =>
    a.chargingKw / 2 * (endTime - effective startTime a) +
      a.chargingKw / 2 * (endTime - effective startTime r.first)
  | none, some b => -(b.chargingKw / 2 * (effective startTime b - effective startTime r.last))
  | none, none => 0

/-- The samples of the run under way, as far as the integral sees them. -/
def pending : Option (Sample × Sample) → List Sample
  | none => []
  | some run => [run.1, run.2]

def PendingIdle (run : Option (Sample × Sample)) : Prop := ∀ s ∈ pending run, s.chargingKw = 0

theorem heldIntegral_idle_pair (startTime endTime : ℚ) (f g : Sample) (rest : List Sample)
    (hf : f.chargingKw = 0) (hg : g.chargingKw = 0) :
    heldIntegral startTime endTime (f :: g :: rest) = heldIntegral startTime endTime (g :: rest) := by
  rw [heldIntegral_cons_cons, hf, hg]
  ring

theorem heldIntegral_extend_run (startTime endTime : ℚ) (before : Option Sample)
    (f g s : Sample) (rest : List Sample) (hf : f.chargingKw = 0) (hg : g.chargingKw = 0)
    (hs : s.chargingKw = 0) :
    heldIntegral startTime endTime (before.toList ++ f :: g :: s :: rest) =
      heldIntegral startTime endTime (before.toList ++ f :: s :: rest) := by
  have hpair : heldIntegral startTime endTime (f :: g :: s :: rest) =
      heldIntegral startTime endTime (f :: s :: rest) := by
    rw [heldIntegral_idle_pair _ _ f g _ hf hg, heldIntegral_idle_pair _ _ g s _ hg hs,
      heldIntegral_idle_pair _ _ f s _ hf hs]
  cases before with
  | none => exact hpair
  | some a =>
    show heldIntegral startTime endTime (a :: f :: g :: s :: rest) =
      heldIntegral startTime endTime (a :: f :: s :: rest)
    rw [heldIntegral_cons_cons, hpair, heldIntegral_cons_cons startTime endTime a f (s :: rest)]

theorem heldIntegral_start_run (startTime endTime : ℚ) (before : Option Sample) (s : Sample)
    (rest : List Sample) (hs : s.chargingKw = 0) :
    heldIntegral startTime endTime (before.toList ++ s :: s :: rest) =
      heldIntegral startTime endTime (before.toList ++ s :: rest) := by
  have hpair := heldIntegral_idle_pair startTime endTime s s rest hs hs
  cases before with
  | none => exact hpair
  | some a =>
    show heldIntegral startTime endTime (a :: s :: s :: rest) =
      heldIntegral startTime endTime (a :: s :: rest)
    rw [heldIntegral_cons_cons, hpair, heldIntegral_cons_cons startTime endTime a s rest]

theorem heldIntegral_close_run (startTime endTime : ℚ) (before : Option Sample) (f g s : Sample)
    (rest : List Sample) (hf : f.chargingKw = 0) (hg : g.chargingKw = 0) :
    heldIntegral startTime endTime (before.toList ++ f :: g :: s :: rest) =
      heldIntegral startTime endTime (before.toList ++ s :: rest) -
        IdleRun.excess startTime endTime ⟨before, f, g, some s⟩ := by
  cases before with
  | none =>
    show heldIntegral startTime endTime (f :: g :: s :: rest) =
      heldIntegral startTime endTime (s :: rest) - _
    rw [heldIntegral_idle_pair _ _ f g _ hf hg, heldIntegral_cons_cons, hg]
    simp only [IdleRun.excess]
    ring
  | some a =>
    show heldIntegral startTime endTime (a :: f :: g :: s :: rest) =
      heldIntegral startTime endTime (a :: s :: rest) - _
    rw [heldIntegral_cons_cons, heldIntegral_idle_pair _ _ f g _ hf hg, heldIntegral_cons_cons,
      heldIntegral_cons_cons startTime endTime a s rest, hf, hg]
    simp only [IdleRun.excess]
    ring

theorem heldIntegral_end_run (startTime endTime : ℚ) (before : Option Sample) (f g : Sample)
    (hf : f.chargingKw = 0) (hg : g.chargingKw = 0) :
    heldIntegral startTime endTime (before.toList ++ [f, g]) =
      heldIntegral startTime endTime before.toList -
        IdleRun.excess startTime endTime ⟨before, f, g, none⟩ := by
  cases before with
  | none =>
    show heldIntegral startTime endTime [f, g] = heldIntegral startTime endTime [] - _
    simp only [heldIntegral, hf, hg, IdleRun.excess]
    ring
  | some a =>
    show heldIntegral startTime endTime [a, f, g] = heldIntegral startTime endTime [a] - _
    simp only [heldIntegral, hf, hg, IdleRun.excess]
    ring

theorem heldIntegral_cons_of_before (startTime endTime : ℚ) (before : Option Sample) (s : Sample)
    (rest rest' : List Sample) :
    heldIntegral startTime endTime (before.toList ++ s :: rest) -
        heldIntegral startTime endTime (before.toList ++ s :: rest') =
      heldIntegral startTime endTime (s :: rest) - heldIntegral startTime endTime (s :: rest') := by
  cases before with
  | none => rfl
  | some a =>
    show heldIntegral startTime endTime (a :: s :: rest) -
      heldIntegral startTime endTime (a :: s :: rest') = _
    rw [heldIntegral_cons_cons, heldIntegral_cons_cons]
    ring

theorem heldIntegral_walk (startTime endTime : ℚ) (samples : List Sample)
    (hnn : ∀ s ∈ samples, 0 ≤ s.chargingKw) :
    ∀ (before : Option Sample) (run : Option (Sample × Sample)), PendingIdle run →
      heldIntegral startTime endTime
          (before.toList ++ samples.filter fun s => 0 < s.chargingKw) -
        heldIntegral startTime endTime (before.toList ++ (pending run ++ samples)) =
      ((idleRuns before run samples).map (IdleRun.excess startTime endTime)).sum := by
  induction samples with
  | nil =>
    intro before run hidle
    cases run with
    | none => simp [idleRuns, pending]
    | some run =>
      have hend := heldIntegral_end_run startTime endTime before run.1 run.2
        (hidle run.1 (by simp [pending])) (hidle run.2 (by simp [pending]))
      simp only [idleRuns, pending, List.filter_nil, List.append_nil, List.map_cons,
        List.map_nil, List.sum_cons, List.sum_nil, hend]
      ring
  | cons s rest ih =>
    intro before run hidle
    have hwalk := ih (fun s' hs' => hnn s' (List.mem_cons_of_mem _ hs'))
    by_cases hs : 0 < s.chargingKw
    · -- an active sample closes the run under way, and the walk goes on from it
      have hnext := hwalk (some s) none (by intro s' hs'; simp [pending] at hs')
      rw [List.filter_cons_of_pos (by simpa using hs)]
      cases run with
      | none =>
        have hsame := heldIntegral_cons_of_before startTime endTime before s
          (rest.filter fun s => 0 < s.chargingKw) rest
        simp only [idleRuns, if_pos hs]
        rw [← hnext]
        exact hsame
      | some run =>
        have hclose := heldIntegral_close_run startTime endTime before run.1 run.2 s rest
          (hidle run.1 (by simp [pending])) (hidle run.2 (by simp [pending]))
        have hsame := heldIntegral_cons_of_before startTime endTime before s
          (rest.filter fun s => 0 < s.chargingKw) rest
        simp only [idleRuns, if_pos hs, List.map_cons, List.sum_cons]
        rw [← hnext]
        show _ - heldIntegral startTime endTime (before.toList ++ run.1 :: run.2 :: s :: rest) =
          _ + (heldIntegral startTime endTime (s :: rest.filter fun s => 0 < s.chargingKw) -
            heldIntegral startTime endTime (s :: rest))
        rw [hclose, ← hsame]
        ring
    · -- an idle sample opens a run or prolongs the one under way
      have hzero : s.chargingKw = 0 :=
        le_antisymm (not_lt.mp hs) (hnn s List.mem_cons_self)
      rw [List.filter_cons_of_neg (by simpa using hs)]
      cases run with
      | none =>
        have hnext := hwalk before (some (s, s)) (by simp [PendingIdle, pending, hzero])
        have hstart := heldIntegral_start_run startTime endTime before s rest hzero
        simp only [idleRuns, if_neg hs]
        rw [← hnext]
        show _ - heldIntegral startTime endTime (before.toList ++ s :: rest) =
          _ - heldIntegral startTime endTime (before.toList ++ s :: s :: rest)
        rw [hstart]
      | some run =>
        have hf := hidle run.1 (by simp [pending])
        have hg := hidle run.2 (by simp [pending])
        have hnext := hwalk before (some (run.1, s)) (by simp [PendingIdle, pending, hf, hzero])
        have hextend := heldIntegral_extend_run startTime endTime before run.1 run.2 s rest
          hf hg hzero
        simp only [idleRuns, if_neg hs]
        rw [← hnext]
        show _ - heldIntegral startTime endTime (before.toList ++ run.1 :: run.2 :: s :: rest) =
          _ - heldIntegral startTime endTime (before.toList ++ run.1 :: s :: rest)
        rw [hextend]

/-- **Leaving out the idle samples** changes the integral by the excess of the idle runs. -/
theorem heldIntegral_active_sub (startTime endTime : ℚ) (samples : List Sample)
    (hnn : ∀ s ∈ samples, 0 ≤ s.chargingKw) :
    heldIntegral startTime endTime (samples.filter fun s => 0 < s.chargingKw) -
        heldIntegral startTime endTime samples =
      ((idleRuns none none samples).map (IdleRun.excess startTime endTime)).sum :=
  heldIntegral_walk startTime endTime samples hnn none none (by intro s hs; simp [pending] at hs)

/-! ### When billing and reconciliation agree -/

/-- **Billing and reconciliation integrate the same energy exactly when the idle runs balance.**  For
every station, connector, transaction, window and telemetry content with non-negative power whose last
sample lies at most 300 seconds before the end: the two energies of the transaction are equal if and
only if the excesses of its idle runs add up to zero. -/
theorem billed_energy_eq_reconciled_iff (stationId : String) (connectorId transactionId : ℤ)
    (startTime endTime : ℚ) (telemetry : List TelemetryRow)
    (hnn : ∀ t ∈ telemetry, ∀ kw, t.chargingKw = some kw → 0 ≤ kw)
    (hlast : ∀ s, (ourSamples (.transaction stationId connectorId transactionId) startTime endTime
      telemetry).getLast? = some s → endTime - 300 ≤ s.rawTime) :
    ((granularTelemetry (.transaction stationId connectorId transactionId) startTime endTime
        telemetry).map HourBucket.energyKwh).sum =
      ourEnergySql (.transaction stationId connectorId transactionId) startTime endTime telemetry ↔
    ((idleRuns none none (ourSamples (.transaction stationId connectorId transactionId) startTime
      endTime telemetry)).map (IdleRun.excess startTime endTime)).sum = 0 := by
  have hsamples : ∀ s ∈ ourSamples (.transaction stationId connectorId transactionId) startTime
      endTime telemetry, 0 ≤ s.chargingKw := by
    intro s hs
    obtain ⟨_, t, ht, hkw⟩ := mem_ourSamples hs
    exact hnn t ht s.chargingKw hkw
  rw [billed_eq_heldIntegral, granularSamples_eq_filter,
    reconciled_eq_heldIntegral _ startTime endTime telemetry hlast,
    ← heldIntegral_active_sub startTime endTime _ hsamples, sub_eq_zero,
    div_left_inj' (by norm_num)]

/-- One row of transaction 7 on connector 1 of station `cs1`. -/
def meterRow (time kw : ℚ) : TelemetryRow := ⟨time, none, "cs1", 1, some 7, some kw⟩

/-- Without idle samples the two agree. -/
theorem billed_energy_eq_reconciled_steady :
    ((granularTelemetry (.transaction "cs1" 1 7) 0 3600
        [meterRow 0 10, meterRow 1800 20, meterRow 3400 10]).map HourBucket.energyKwh).sum =
      ourEnergySql (.transaction "cs1" 1 7) 0 3600
        [meterRow 0 10, meterRow 1800 20, meterRow 3400 10] := by
  apply (billed_energy_eq_reconciled_iff "cs1" 1 7 0 3600 _ ?_ ?_).mpr
  · decide +kernel
  · intro t ht kw hkw
    simp only [List.mem_cons, List.not_mem_nil, or_false] at ht
    rcases ht with rfl | rfl | rfl
    all_goals
      obtain rfl := Option.some.inj hkw
      norm_num
  · intro s hs
    have hlast : (ourSamples (.transaction "cs1" 1 7) 0 3600
        [meterRow 0 10, meterRow 1800 20, meterRow 3400 10]).getLast? = some ⟨3400, 10⟩ := by
      decide +kernel
    rw [hlast] at hs
    obtain rfl := Option.some.inj hs
    norm_num

/-- Ten minutes at 10 kW at both ends of the hour, and a pause in between. -/
def pausedTelemetry : List TelemetryRow :=
  [meterRow 0 10, meterRow 600 10, meterRow 601 0, meterRow 2999 0, meterRow 3000 10, meterRow 3500 10]

/-- Billing bridges the pause and bills 10 kWh; reconciliation finds a third of it. -/
theorem pause_billed_as_charging :
    (ourSamples (.transaction "cs1" 1 7) 0 3600 pausedTelemetry).getLast? = some ⟨3500, 10⟩ ∧
    ((granularTelemetry (.transaction "cs1" 1 7) 0 3600 pausedTelemetry).map
      HourBucket.energyKwh).sum = 10 ∧
    ourEnergySql (.transaction "cs1" 1 7) 0 3600 pausedTelemetry = 1201 / 360 ∧
    ((granularTelemetry (.transaction "cs1" 1 7) 0 3600 pausedTelemetry).map
      HourBucket.energyKwh).sum ≠ ourEnergySql (.transaction "cs1" 1 7) 0 3600 pausedTelemetry := by
  decide +kernel

end FavoniusBackend.Reconciliation.SessionLog
