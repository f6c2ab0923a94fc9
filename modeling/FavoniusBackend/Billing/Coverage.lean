import FavoniusBackend.Billing.GranularCost

/-!
# What the coverage gate measures

The granular query adds up the time from each sample to the next and from the last one to the end.  The sum telescopes: what
it calls observed is everything from the first sample on (`sum_observed`), however far the samples are apart.  So the gate
rejects a session only for a first sample that is late, an energy that does not reconcile or an hour without a price
(`tryGranular_eq_none_iff`), and never for a gap.
-/

namespace FavoniusBackend.Billing.Coverage

open Lib Lib.Sql Billing.Telemetry
open Billing.SessionCost Billing.GranularCost

/-! ### What is meant -/

section Meaning

variable (clause : WhereClause) (startTime endTime : DateTime) (telemetry : List TelemetryRow)

def samples : List Sample := granularSamples clause startTime.instant endTime.instant telemetry

/-- The part of the session that may be missing. -/
def slack : ℚ := (1 - telemetryCoverageMin) * (endTime.instant - startTime.instant)

def gap (row : Sample × Option Sample) : ℚ :=
  (match row.2 with
    | some next => next.rawTime
    | none => endTime.instant) - max row.1.rawTime startTime.instant

/-- One gap alone is longer than what may be missing. -/
def BigGap : Prop :=
  ∃ row ∈ lead (samples clause startTime endTime telemetry), slack startTime endTime < gap startTime endTime row

/-- Every sample comes later than what may be missing. -/
def LateStart : Prop :=
  ∀ s ∈ samples clause startTime endTime telemetry, slack startTime endTime < s.rawTime - startTime.instant

/-- A sample begins an interval in an hour without a price. -/
def Unpriced (priceMap : PriceMap) : Prop :=
  ∃ row ∈ intervals clause startTime endTime telemetry, priceForHour priceMap (hourStamp (hourOf row.time)) = none

end Meaning

/-! ### The sums of the query -/

theorem sum_observedSeconds (clause : WhereClause) (startTime endTime : ℚ) (telemetry : List TelemetryRow) :
    ((granularTelemetry clause startTime endTime telemetry).map HourBucket.observedSeconds).sum =
      ((bucketed startTime (granularSamples clause startTime endTime telemetry)).map
        (BucketedRow.observedSeconds endTime)).sum := by
  have h := sum_groupBy (fun row : BucketedRow => hourOf row.time)
    (bucketed startTime (granularSamples clause startTime endTime telemetry)) (fun _ => 1)
    (BucketedRow.observedSeconds endTime)
  rw [granularTelemetry, List.map_map]
  simpa [Function.comp_def] using h

section Sums

variable {startTime endTime : ℚ}

theorem bucketed_cons_cons (a b : Sample) (rest : List Sample) :
    bucketed startTime (a :: b :: rest) =
      (if startTime < b.rawTime then [⟨max a.rawTime startTime, a.chargingKw, some b⟩] else []) ++
        bucketed startTime (b :: rest) := by
  unfold bucketed
  rw [lead_cons_cons, List.filterMap_cons]
  simp only [bucketedRow]
  by_cases hafter : startTime < b.rawTime
  · simp [hafter]
  · simp [hafter]

/-- **What is observed**: all of the session from the first sample on. -/
theorem sum_observed {a : Sample} {rest : List Sample} (hsorted : (a :: rest).Pairwise Sample.le)
    (hend : ∀ s ∈ a :: rest, s.rawTime < endTime) :
    ((bucketed startTime (a :: rest)).map (BucketedRow.observedSeconds endTime)).sum =
      endTime - max a.rawTime startTime := by
  induction rest generalizing a with
  | nil =>
    show (endTime - max a.rawTime startTime) + 0 = _
    rw [add_zero]
  | cons b rest ih =>
    obtain ⟨hfirst, hrest⟩ := List.pairwise_cons.mp hsorted
    have hab : a.rawTime ≤ b.rawTime := hfirst b List.mem_cons_self
    have hb := hend b (List.mem_cons_of_mem _ List.mem_cons_self)
    rw [bucketed_cons_cons, List.map_append, List.sum_append, ih hrest fun s hs => hend s (List.mem_cons_of_mem _ hs)]
    by_cases hafter : startTime < b.rawTime
    · rw [if_pos hafter, List.map_singleton, List.sum_singleton]
      show min b.rawTime endTime - max a.rawTime startTime + (endTime - max b.rawTime startTime) = _
      rw [min_eq_left hb.le, max_eq_left hafter.le]
      ring
    · rw [if_neg hafter, max_eq_right (hab.trans (not_lt.mp hafter)), max_eq_right (not_lt.mp hafter)]
      exact zero_add _

theorem sum_energy_pos {a : Sample} {rest : List Sample} (hsorted : (a :: rest).Pairwise Sample.le)
    (hwindow : startTime < endTime) (hend : ∀ s ∈ a :: rest, s.rawTime < endTime ∧ 0 < s.chargingKw) :
    0 < ((bucketed startTime (a :: rest)).map (BucketedRow.energyKwh endTime)).sum := by
  induction rest generalizing a with
  | nil =>
    obtain ⟨ha, hkw⟩ := hend a List.mem_cons_self
    have hlast : 0 < endTime - max a.rawTime startTime := sub_pos.mpr (max_lt ha hwindow)
    show 0 < a.chargingKw * (endTime - max a.rawTime startTime) / 3600 + 0
    positivity
  | cons b rest ih =>
    obtain ⟨hfirst, hrest⟩ := List.pairwise_cons.mp hsorted
    have hab : a.rawTime ≤ b.rawTime := hfirst b List.mem_cons_self
    obtain ⟨ha, hkw⟩ := hend a List.mem_cons_self
    obtain ⟨hb, hkw'⟩ := hend b (List.mem_cons_of_mem _ List.mem_cons_self)
    have htail := ih hrest fun s hs => hend s (List.mem_cons_of_mem _ hs)
    rw [bucketed_cons_cons, List.map_append, List.sum_append]
    by_cases hafter : startTime < b.rawTime
    · have hlength : 0 ≤ min b.rawTime endTime - max a.rawTime startTime :=
        sub_nonneg.mpr (max_le (le_min hab ha.le) (le_min hafter.le hwindow.le))
      have hrow : 0 ≤ BucketedRow.energyKwh endTime ⟨max a.rawTime startTime, a.chargingKw, some b⟩ := by
        show 0 ≤ (a.chargingKw + b.chargingKw) / 2 * (min b.rawTime endTime - max a.rawTime startTime) / 3600
        positivity
      rw [if_pos hafter, List.map_singleton, List.sum_singleton]
      linarith
    · rw [if_neg hafter, List.map_nil, List.sum_nil, zero_add]
      exact htail

end Sums

/-! ### The gate -/

section Gate

variable {clause : WhereClause} {startTime endTime : DateTime} {telemetry : List TelemetryRow}

theorem priceBuckets_eq_none_iff (priceMap : PriceMap) (rows : List HourBucket) :
    priceBuckets priceMap rows = none ↔ ∃ r ∈ rows, priceForHour priceMap (bucketHour r) = none := by
  induction rows with
  | nil => simp [priceBuckets]
  | cons r rows ih =>
    rw [priceBuckets]
    cases hprice : priceForHour priceMap (bucketHour r) with
    | none => simp [hprice]
    | some price => simp [hprice, ih]

theorem unpriced_iff (priceMap : PriceMap) :
    (∃ r ∈ granularTelemetry clause startTime.instant endTime.instant telemetry,
      priceForHour priceMap (bucketHour r) = none) ↔ Unpriced clause startTime endTime telemetry priceMap := by
  constructor
  · rintro ⟨r, hr, hnone⟩
    obtain ⟨row, hrow, hhour⟩ := hour_mem_granularTelemetry hr
    refine ⟨row, hrow, ?_⟩
    rw [hhour]
    exact hnone
  · rintro ⟨row, hrow, hnone⟩
    obtain ⟨g, hg, hkey⟩ := List.mem_map.mp ((mem_groupBy_keys (fun row : BucketedRow => hourOf row.time) _ _).mpr
      ⟨row, hrow, rfl⟩)
    refine ⟨_, List.mem_map_of_mem hg, ?_⟩
    show priceForHour priceMap (hourStamp g.1) = none
    rw [hkey]
    exact hnone

theorem coverage_iff (hwindow : startTime.instant < endTime.instant) {a : Sample} {rest : List Sample}
    (hsamples : samples clause startTime endTime telemetry = a :: rest) :
    telemetryCoverageMin ≤ coverage (granularTelemetry clause startTime.instant endTime.instant telemetry) startTime
      endTime ↔ ¬LateStart clause startTime endTime telemetry := by
  have hsorted := granularSamples_pairwise clause startTime.instant endTime.instant telemetry
  have hmem : ∀ s ∈ samples clause startTime endTime telemetry, s.rawTime < endTime.instant :=
    fun s hs => (mem_granularSamples hs).1
  have hlate : LateStart clause startTime endTime telemetry ↔
      slack startTime endTime < a.rawTime - startTime.instant := by
    unfold LateStart
    rw [hsamples]
    constructor
    · exact fun h => h a List.mem_cons_self
    · intro h s hs
      have hle : a.rawTime ≤ s.rawTime := by
        rcases List.mem_cons.mp hs with rfl | hrest
        · exact le_rfl
        · exact (List.pairwise_cons.mp (hsamples ▸ hsorted : (a :: rest).Pairwise Sample.le)).1 s hrest
      linarith
  rw [hsamples] at hmem
  unfold samples at hsamples
  rw [hsamples] at hsorted
  have hlength : 0 < endTime.instant - startTime.instant := sub_pos.mpr hwindow
  rw [hlate, coverage, if_pos hlength, sum_observedSeconds, hsamples, sum_observed hsorted hmem, le_div_iff₀ hlength,
    not_lt]
  unfold slack telemetryCoverageMin
  rcases le_total a.rawTime startTime.instant with hbefore | hafter
  · rw [max_eq_right hbefore]
    constructor
    · intro _
      linarith
    · intro _
      linarith
  · rw [max_eq_left hafter]
    constructor
    · intro _
      linarith
    · intro _
      linarith

/-- **When the strategy gives up**: all samples are late, the energy does not reconcile, or an hour has no price. -/
theorem tryGranular_eq_none_iff (hwindow : startTime.instant < endTime.instant) (energyDeliveredKwh : Option ℚ)
    (priceMap : PriceMap) :
    tryGranular (granularTelemetry clause startTime.instant endTime.instant telemetry) startTime endTime
        energyDeliveredKwh priceMap = none ↔
      LateStart clause startTime endTime telemetry ∨
      reconciles energyDeliveredKwh
        (telemEnergy (granularTelemetry clause startTime.instant endTime.instant telemetry)) = false ∨
      Unpriced clause startTime endTime telemetry priceMap := by
  cases hsamples : samples clause startTime endTime telemetry with
  | nil =>
    have hlate : LateStart clause startTime endTime telemetry := by
      unfold LateStart
      rw [hsamples]
      exact nofun
    refine iff_of_true ?_ (.inl hlate)
    unfold samples at hsamples
    have hempty : granularTelemetry clause startTime.instant endTime.instant telemetry = [] := by
      rw [granularTelemetry, hsamples]
      rfl
    rw [tryGranular, if_pos hempty]
  | cons a rest =>
    have henergy : 0 < telemEnergy (granularTelemetry clause startTime.instant endTime.instant telemetry) := by
      have hsorted := granularSamples_pairwise clause startTime.instant endTime.instant telemetry
      have hmem : ∀ s ∈ granularSamples clause startTime.instant endTime.instant telemetry,
          s.rawTime < endTime.instant ∧ 0 < s.chargingKw := fun s hs => mem_granularSamples hs
      unfold samples at hsamples
      rw [telemEnergy, sum_energyKwh]
      rw [hsamples] at hsorted hmem ⊢
      exact sum_energy_pos hsorted hwindow hmem
    have hne : granularTelemetry clause startTime.instant endTime.instant telemetry ≠ [] := by
      intro hempty
      rw [hempty] at henergy
      exact lt_irrefl _ henergy
    have hcoverage := coverage_iff hwindow hsamples
    rw [tryGranular, if_neg hne, granularGate, decide_eq_true henergy, Bool.true_and, ← unpriced_iff priceMap,
      ← priceBuckets_eq_none_iff]
    by_cases hlate : LateStart clause startTime endTime telemetry
    · rw [decide_eq_false fun h => hcoverage.mp h hlate]
      simp [hlate]
    · rw [decide_eq_true (hcoverage.mpr hlate)]
      cases hreconciles : reconciles energyDeliveredKwh
        (telemEnergy (granularTelemetry clause startTime.instant endTime.instant telemetry)) with
      | false => simp
      | true => simp [hlate]

end Gate

/-- **The coverage gate**: a session with a gap that is too long is rejected just where it would be rejected for another
reason. -/
theorem gap_rejected_iff (clause : WhereClause) (startTime endTime : DateTime) (telemetry : List TelemetryRow)
    (energyDeliveredKwh : Option ℚ) (priceMap : PriceMap) (hwindow : startTime.instant < endTime.instant) :
    (BigGap clause startTime endTime telemetry →
      tryGranular (granularTelemetry clause startTime.instant endTime.instant telemetry) startTime endTime
        energyDeliveredKwh priceMap = none) ↔
    (BigGap clause startTime endTime telemetry →
      LateStart clause startTime endTime telemetry ∨
      reconciles energyDeliveredKwh
        (telemEnergy (granularTelemetry clause startTime.instant endTime.instant telemetry)) = false ∨
      Unpriced clause startTime endTime telemetry priceMap) :=
  imp_congr_right fun _ => tryGranular_eq_none_iff hwindow energyDeliveredKwh priceMap

/-- An hour at 10 kW of which the first half has no sample is rejected. -/
theorem late_first_sample_rejected : tryGranular (granularTelemetry (.transaction "cs1" 1 7) (DateTime.instant ⟨0, 0⟩)
    (DateTime.instant ⟨3600, 0⟩) (steadySamples [1800])) ⟨0, 0⟩ ⟨3600, 0⟩ (some 10) (Dict.ofList [(.aware 0, 1)]) =
      none := by
  have hsamples : samples (.transaction "cs1" 1 7) ⟨0, 0⟩ ⟨3600, 0⟩ (steadySamples [1800]) = [⟨1800, 10⟩] := by
    decide +kernel
  refine (gap_rejected_iff (.transaction "cs1" 1 7) ⟨0, 0⟩ ⟨3600, 0⟩ (steadySamples [1800]) (some 10)
    (Dict.ofList [(.aware 0, 1)]) (by decide +kernel)).mpr (fun _ => .inl ?_) ⟨(⟨1800, 10⟩, none), ?_, by decide +kernel⟩
  · intro s hs
    rw [hsamples] at hs
    obtain rfl := List.mem_singleton.mp hs
    decide +kernel
  · rw [hsamples]
    exact List.mem_cons_self

/-- An hour at 10 kW with a sample at its start and one a minute before its end is priced by telemetry. -/
theorem two_samples_at_the_edges : ¬ ∀ (clause : WhereClause) (startTime endTime : DateTime)
    (telemetry : List TelemetryRow) (energyDeliveredKwh : Option ℚ) (priceMap : PriceMap),
    startTime.instant < endTime.instant → BigGap clause startTime endTime telemetry →
      tryGranular (granularTelemetry clause startTime.instant endTime.instant telemetry) startTime endTime
        energyDeliveredKwh priceMap = none := by
  intro h
  have hbig : BigGap (.transaction "cs1" 1 7) ⟨0, 0⟩ ⟨3600, 0⟩ (steadySamples [0, 3540]) :=
    ⟨(⟨0, 10⟩, some ⟨3540, 10⟩), by decide +kernel, by decide +kernel⟩
  have hnone := h (.transaction "cs1" 1 7) ⟨0, 0⟩ ⟨3600, 0⟩ (steadySamples [0, 3540]) (some 10)
    (Dict.ofList [(.aware 0, 1)]) (by decide +kernel) hbig
  exact absurd hnone (by decide +kernel)

end FavoniusBackend.Billing.Coverage
