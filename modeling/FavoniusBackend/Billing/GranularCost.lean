import FavoniusBackend.Billing.SessionCost

/-!
# What the granular cost prices

The granular strategy is meant to charge what was drawn in each hour at the price of that hour.  The
reference is `exactCost`: interpolate the power linearly between the samples (clamped to the session,
the last one held to its end), cut the result at every full UTC hour, and weigh the energy of each
hour by its price.

The query puts the whole interval up to the next sample into the hour in which it begins, so the two
agree for every price map exactly when no interval reaches beyond that hour
(`granular_cost_exact_iff`).  If one does, prices that rise with the hour tell the two apart.
-/

namespace FavoniusBackend.Billing.GranularCost

open Finset
open Lib Lib.Numeric Lib.Sql
open Lib.Trapezoid Billing.Telemetry
open Billing.SessionCost

/-! ### The reference -/

def firstHour (startTime : DateTime) : ℤ := hourOf startTime.instant

/-- How many UTC hours meet `[start, end)`, counted from the first. -/
def hourCount (startTime endTime : DateTime) : ℕ :=
  (⌈endTime.instant / 3600⌉ - firstHour startTime).toNat

def hourStamp (h : ℤ) : DateTime := ⟨3600 * h, 0⟩

/-- The price map has a price for every hour of the session. -/
def Covers (priceMap : PriceMap) (startTime endTime : DateTime) : Prop :=
  ∀ i < hourCount startTime endTime,
    (priceForHour priceMap (hourStamp (firstHour startTime + i))).isSome

def priceAt (priceMap : PriceMap) (h : ℤ) : ℚ := (priceForHour priceMap (hourStamp h)).getD 0

/-- The intervals of the session: each sample up to the next, the last one up to the end. -/
def intervals (clause : WhereClause) (startTime endTime : DateTime) (telemetry : List TelemetryRow) :
    List BucketedRow :=
  bucketed startTime.instant
    (granularSamples clause startTime.instant endTime.instant telemetry)

def hourEnergy (clause : WhereClause) (startTime endTime : DateTime) (telemetry : List TelemetryRow)
    (h : ℤ) : ℚ :=
  ((intervals clause startTime endTime telemetry).map fun row =>
    (row.segment endTime.instant).cell 3600 h / 3600).sum

def exactCost (clause : WhereClause) (startTime endTime : DateTime) (telemetry : List TelemetryRow)
    (p : ℤ → ℚ) : ℚ :=
  ∑ i ∈ range (hourCount startTime endTime),
    p (firstHour startTime + i) * hourEnergy clause startTime endTime telemetry (firstHour startTime + i)

/-- The granular cost is the exact one, whatever the prices are. -/
def CostExact (clause : WhereClause) (startTime endTime : DateTime) (telemetry : List TelemetryRow)
    (energyDeliveredKwh : Option ℚ) : Prop :=
  ∀ priceMap : PriceMap, Covers priceMap startTime endTime →
    ∃ result, tryGranular
        (granularTelemetry clause startTime.instant endTime.instant telemetry)
        startTime endTime energyDeliveredKwh priceMap = some result ∧
      result.cost = some (quantize 4
        (exactCost clause startTime endTime telemetry (priceAt priceMap)))

def hourEnd (time : ℚ) : ℚ := 3600 * (hourOf time + 1)

/-- No interval between consecutive samples, counted from the start of the session, and no tail from
the last sample to the end of the session reaches beyond the hour in which it begins. -/
def WithinHours (startTime endTime : ℚ) (samples : List Sample) : Prop :=
  ∀ s next, (s, next) ∈ lead samples →
    match next with
    | some n => startTime < n.rawTime → n.rawTime ≤ hourEnd (max s.rawTime startTime)
    | none => endTime ≤ hourEnd (max s.rawTime startTime)

/-! ### Pricing the buckets -/

theorem normalizeHour_hourStamp (h : ℤ) : (normalizeHour (hourStamp h)).instant = 3600 * h := by
  simp [normalizeHour, hourStamp, DateTime.instant, DateTime.floorHour]

theorem priceBuckets_eq_some (priceMap : PriceMap) (p : ℤ → ℚ) (rows : List HourBucket)
    (h : ∀ r ∈ rows, priceForHour priceMap (hourStamp r.hour) = some (p r.hour)) :
    priceBuckets priceMap rows = some (rows.map fun r => p r.hour * r.energyKwh).sum := by
  induction rows with
  | nil => rfl
  | cons r rows ih =>
    have hr : priceForHour priceMap (bucketHour r) = some (p r.hour) :=
      h r List.mem_cons_self
    have htail := ih (fun r' hr' => h r' (List.mem_cons_of_mem _ hr'))
    rw [priceBuckets, hr]
    show (priceBuckets priceMap rows).map _ = _
    rw [htail, List.map_cons, List.sum_cons, Option.map_some, mul_comm r.energyKwh]

section Session

variable {clause : WhereClause} {startTime endTime : DateTime} {telemetry : List TelemetryRow}

theorem endTime_le_hours (hwindow : startTime.instant < endTime.instant) :
    endTime.instant ≤ 3600 * ((firstHour startTime : ℚ) + hourCount startTime endTime) := by
  have hfirst : (firstHour startTime : ℚ) ≤ startTime.instant / 3600 := Int.floor_le _
  have hceil : endTime.instant / 3600 ≤ (⌈endTime.instant / 3600⌉ : ℚ) := Int.le_ceil _
  have hlt : startTime.instant / 3600 < endTime.instant / 3600 := by linarith
  have hle : firstHour startTime ≤ ⌈endTime.instant / 3600⌉ := by
    have hq : (firstHour startTime : ℚ) ≤ (⌈endTime.instant / 3600⌉ : ℚ) := by linarith
    exact_mod_cast hq
  have hcast : ((hourCount startTime endTime : ℕ) : ℤ) =
      ⌈endTime.instant / 3600⌉ - firstHour startTime := by
    rw [hourCount]
    omega
  have hcast' : (hourCount startTime endTime : ℚ) =
      (⌈endTime.instant / 3600⌉ : ℚ) - firstHour startTime := by
    exact_mod_cast hcast
  rw [hcast']
  linarith

theorem hourOf_mem_hours {t : ℚ} (hlo : startTime.instant ≤ t) (hhi : t < endTime.instant) :
    firstHour startTime ≤ hourOf t ∧ hourOf t < firstHour startTime + hourCount startTime endTime := by
  have hfirst : firstHour startTime ≤ hourOf t := by
    apply Int.floor_le_floor
    linarith
  have hlt : hourOf t < ⌈endTime.instant / 3600⌉ := by
    rw [Int.lt_ceil]
    have hfl : (hourOf t : ℚ) ≤ t / 3600 := Int.floor_le _
    linarith
  refine ⟨hfirst, ?_⟩
  rw [hourCount]
  omega

theorem hourOf_le (t : ℚ) : 3600 * (hourOf t : ℚ) ≤ t := by
  have h : (hourOf t : ℚ) ≤ t / 3600 := Int.floor_le _
  linarith

theorem lt_hourEnd (t : ℚ) : t < hourEnd t := by
  have h : t / 3600 < (hourOf t : ℚ) + 1 := Int.lt_floor_add_one _
  rw [hourEnd]
  linarith

theorem window_pos_of_gate {rows : List HourBucket} {delivered : Option ℚ}
    (h : granularGate rows startTime endTime delivered = true) :
    startTime.instant < endTime.instant := by
  simp only [granularGate, Bool.and_eq_true, decide_eq_true_eq] at h
  have hcov := h.1.2
  unfold coverage at hcov
  split at hcov
  · linarith
  · norm_num [telemetryCoverageMin] at hcov

theorem rows_ne_nil_of_gate {rows : List HourBucket} {delivered : Option ℚ}
    (h : granularGate rows startTime endTime delivered = true) : rows ≠ [] := by
  intro hnil
  simp [granularGate, telemEnergy, hnil] at h

/-- The total the strategy computes: every interval at the price of the hour in which it begins. -/
def bucketCost (clause : WhereClause) (startTime endTime : DateTime) (telemetry : List TelemetryRow)
    (p : ℤ → ℚ) : ℚ :=
  ((intervals clause startTime endTime telemetry).map fun row =>
    p (hourOf row.time) * row.energyKwh endTime.instant).sum

structure OnGrid (startTime endTime : DateTime) (row : BucketedRow) : Prop where
  proper : row.Proper startTime.instant endTime.instant
  own_le : 3600 * (hourOf row.time : ℚ) ≤ (row.segment endTime.instant).t0
  lt_own : (row.segment endTime.instant).t0 ≤ 3600 * ((hourOf row.time : ℚ) + 1)
  first_le : 3600 * (firstHour startTime : ℚ) ≤ (row.segment endTime.instant).t0
  le_last : (row.segment endTime.instant).t1 ≤
    3600 * ((firstHour startTime : ℚ) + hourCount startTime endTime)
  own_mem : firstHour startTime ≤ hourOf row.time ∧
    hourOf row.time < firstHour startTime + hourCount startTime endTime

theorem onGrid_of_mem (hwindow : startTime.instant < endTime.instant) {row : BucketedRow}
    (hrow : row ∈ intervals clause startTime endTime telemetry) : OnGrid startTime endTime row := by
  have hproper := bucketed_proper hwindow hrow
  have ht0 := segment_t0 endTime.instant row
  refine ⟨hproper, ?_, ?_, ?_, ?_, ?_⟩
  · rw [ht0]
    exact hourOf_le row.time
  · rw [ht0]
    exact (lt_hourEnd row.time).le
  · exact (hourOf_le startTime.instant).trans hproper.start_le
  · exact hproper.le_end.trans (endTime_le_hours hwindow)
  · rw [← ht0]
    exact hourOf_mem_hours hproper.start_le hproper.lt_end

/-- **What the strategy returns** on prices that cover the session, once the gate is open. -/
theorem tryGranular_of_covers {delivered : Option ℚ} {priceMap : PriceMap}
    (hgate : granularGate (granularTelemetry clause startTime.instant endTime.instant telemetry)
      startTime endTime delivered = true)
    (hcovers : Covers priceMap startTime endTime) :
    ∃ result, tryGranular (granularTelemetry clause startTime.instant endTime.instant telemetry)
        startTime endTime delivered priceMap = some result ∧
      result.cost = some (quantize 4
        (bucketCost clause startTime endTime telemetry (priceAt priceMap))) := by
  have hwindow := window_pos_of_gate hgate
  have hprices : ∀ r ∈ granularTelemetry clause startTime.instant endTime.instant telemetry,
      priceForHour priceMap (hourStamp r.hour) = some (priceAt priceMap r.hour) := by
    intro r hr
    obtain ⟨row, hrow, hhour⟩ := hour_mem_granularTelemetry hr
    obtain ⟨hlo, hhi⟩ := (onGrid_of_mem hwindow hrow).own_mem
    rw [hhour] at hlo hhi
    have hsome := hcovers (r.hour - firstHour startTime).toNat (by omega)
    have heq : firstHour startTime + ((r.hour - firstHour startTime).toNat : ℤ) = r.hour := by omega
    rw [heq] at hsome
    obtain ⟨price, hprice⟩ := Option.isSome_iff_exists.mp hsome
    rw [priceAt, hprice, Option.getD_some]
  have htotal := priceBuckets_eq_some priceMap (priceAt priceMap) _ hprices
  rw [sum_granularTelemetry] at htotal
  rw [tryGranular, if_neg (rows_ne_nil_of_gate hgate), if_pos hgate, htotal, Option.map_some]
  exact ⟨_, rfl, rfl⟩

/-! ### The two costs, interval by interval -/

theorem exactCost_eq_sum_weigh (p : ℤ → ℚ) :
    exactCost clause startTime endTime telemetry p =
      ((intervals clause startTime endTime telemetry).map fun row =>
        (row.segment endTime.instant).weigh 3600 p (firstHour startTime)
          (hourCount startTime endTime) / 3600).sum := by
  unfold exactCost hourEnergy
  induction intervals clause startTime endTime telemetry with
  | nil => simp
  | cons row rows ih =>
    simp only [List.map_cons, List.sum_cons, mul_add, sum_add_distrib]
    rw [ih, Segment.weigh, sum_div]
    congr 1
    apply sum_congr rfl
    intro i _
    ring

theorem exactCost_eq_bucketCost (hwindow : startTime.instant < endTime.instant)
    (hwithin : ∀ row ∈ intervals clause startTime endTime telemetry,
      (row.segment endTime.instant).t1 ≤ hourEnd row.time) (p : ℤ → ℚ) :
    exactCost clause startTime endTime telemetry p =
      bucketCost clause startTime endTime telemetry p := by
  rw [exactCost_eq_sum_weigh, bucketCost]
  congr 1
  apply List.map_congr_left
  intro row hrow
  have hgrid := onGrid_of_mem hwindow hrow
  rw [Segment.weigh_of_single (by norm_num) p _ _ _ hgrid.proper.ordered (hourOf row.time)
    hgrid.own_le (hwithin row hrow) hgrid.first_le hgrid.le_last, energyKwh_eq_area]
  ring

/-- Prices that rise with the hour never make the exact cost smaller, and they make it larger as soon
as an interval reaches beyond its hour. -/
theorem bucketCost_lt_exactCost (hwindow : startTime.instant < endTime.instant)
    (hreach : ∃ row ∈ intervals clause startTime endTime telemetry,
      hourEnd row.time < (row.segment endTime.instant).t1) :
    bucketCost clause startTime endTime telemetry (fun h => (h : ℚ)) <
      exactCost clause startTime endTime telemetry (fun h => (h : ℚ)) := by
  obtain ⟨row₀, hrow₀, hreach₀⟩ := hreach
  rw [exactCost_eq_sum_weigh, bucketCost]
  apply List.sum_lt_sum
  · intro row hrow
    have hgrid := onGrid_of_mem hwindow hrow
    have hge := Segment.index_sum_ge (by norm_num) (firstHour startTime)
      (hourCount startTime endTime) (row.segment endTime.instant) hgrid.proper.ordered
      hgrid.proper.k0_pos hgrid.proper.k1_pos (hourOf row.time) hgrid.own_le hgrid.first_le
      hgrid.le_last hgrid.own_mem
    have hle := Segment.cell_le_area (by norm_num) (row.segment endTime.instant) hgrid.proper.ordered
      hgrid.proper.k0_pos hgrid.proper.k1_pos (hourOf row.time) hgrid.own_le hgrid.lt_own
    rw [energyKwh_eq_area]
    linarith
  · refine ⟨row₀, hrow₀, ?_⟩
    have hgrid := onGrid_of_mem hwindow hrow₀
    have hgt := Segment.index_sum_gt_of_reaches (by norm_num) (firstHour startTime)
      (hourCount startTime endTime) (row₀.segment endTime.instant) hgrid.proper.k0_pos
      hgrid.proper.k1_pos (hourOf row₀.time) hgrid.own_le hgrid.lt_own hreach₀ hgrid.first_le
      hgrid.le_last hgrid.own_mem
    rw [energyKwh_eq_area]
    linarith

/-! ### When the granular cost is exact -/

theorem withinHours_iff :
    WithinHours startTime.instant endTime.instant
      (granularSamples clause startTime.instant endTime.instant telemetry) ↔
    ∀ row ∈ intervals clause startTime endTime telemetry,
      (row.segment endTime.instant).t1 ≤ hourEnd row.time := by
  have hsorted := granularSamples_pairwise clause startTime.instant endTime.instant telemetry
  refine ⟨?_, ?_⟩
  · intro hwithin row hrow
    rw [intervals, bucketed, List.mem_filterMap] at hrow
    obtain ⟨⟨s, next⟩, hlead, hrow⟩ := hrow
    have hs := hwithin s next hlead
    cases next with
    | none =>
      obtain rfl := Option.some.inj hrow
      simp only [BucketedRow.segment]
      exact hs
    | some n =>
      simp only [bucketedRow] at hrow
      split at hrow
      · rename_i hafter
        obtain rfl := Option.some.inj hrow
        simp only [BucketedRow.segment]
        exact (min_le_left _ _).trans (hs hafter)
      · cases hrow
  · intro hrows s next hlead
    cases next with
    | none =>
      have hmem : (⟨max s.rawTime startTime.instant, s.chargingKw, none⟩ : BucketedRow) ∈
          intervals clause startTime endTime telemetry :=
        List.mem_filterMap.mpr ⟨(s, none), hlead, rfl⟩
      have hrow := hrows _ hmem
      simp only [BucketedRow.segment] at hrow
      exact hrow
    | some n =>
      intro hafter
      have hmem : (⟨max s.rawTime startTime.instant, s.chargingKw, some n⟩ : BucketedRow) ∈
          intervals clause startTime endTime telemetry :=
        List.mem_filterMap.mpr ⟨(s, some n), hlead, if_pos hafter⟩
      have hrow := hrows _ hmem
      simp only [BucketedRow.segment] at hrow
      have hend := (mem_granularSamples ((mem_lead hsorted hlead).2 n rfl).1).1
      rw [min_eq_left hend.le] at hrow
      exact hrow

/-- A price map that gives the hour `h` the price `p h`. -/
def hourlyPrices (startTime endTime : DateTime) (p : ℤ → ℚ) : PriceMap :=
  Dict.ofList ((List.range (hourCount startTime endTime)).map fun i : ℕ =>
    (PriceKey.aware (3600 * ((firstHour startTime + i : ℤ) : ℚ)), p (firstHour startTime + i)))

theorem priceForHour_hourlyPrices (p : ℤ → ℚ) {i : ℕ} (hi : i < hourCount startTime endTime) :
    priceForHour (hourlyPrices startTime endTime p) (hourStamp (firstHour startTime + i)) =
      some (p (firstHour startTime + i)) := by
  have hget : (hourlyPrices startTime endTime p).get?
      (.aware (3600 * ((firstHour startTime + i : ℤ) : ℚ))) = some (p (firstHour startTime + i)) := by
    rw [hourlyPrices, Dict.get?_ofList_of_nodup]
    · exact List.mem_map.mpr ⟨i, List.mem_range.mpr hi, rfl⟩
    · rw [List.map_map]
      apply List.Nodup.map _ List.nodup_range
      intro j k hjk
      have hq : 3600 * ((firstHour startTime + j : ℤ) : ℚ) =
          3600 * ((firstHour startTime + k : ℤ) : ℚ) := PriceKey.aware.inj hjk
      have hz : firstHour startTime + (j : ℤ) = firstHour startTime + k := by
        have := mul_left_cancel₀ (by norm_num) hq
        exact_mod_cast this
      omega
  rw [priceForHour, normalizeHour_hourStamp, hget]

theorem priceAt_hourlyPrices (p : ℤ → ℚ) {h : ℤ} (hlo : firstHour startTime ≤ h)
    (hhi : h < firstHour startTime + hourCount startTime endTime) :
    priceAt (hourlyPrices startTime endTime p) h = p h := by
  have hi : (h - firstHour startTime).toNat < hourCount startTime endTime := by omega
  have hget := priceForHour_hourlyPrices p hi
  have heq : firstHour startTime + ((h - firstHour startTime).toNat : ℤ) = h := by omega
  rw [heq] at hget
  rw [priceAt, hget, Option.getD_some]

theorem exactCost_hourlyPrices (p : ℤ → ℚ) :
    exactCost clause startTime endTime telemetry (priceAt (hourlyPrices startTime endTime p)) =
      exactCost clause startTime endTime telemetry p := by
  rw [exactCost, exactCost]
  apply sum_congr rfl
  intro i hi
  rw [mem_range] at hi
  rw [priceAt_hourlyPrices p (by omega) (by omega)]

theorem bucketCost_hourlyPrices (hwindow : startTime.instant < endTime.instant) (p : ℤ → ℚ) :
    bucketCost clause startTime endTime telemetry (priceAt (hourlyPrices startTime endTime p)) =
      bucketCost clause startTime endTime telemetry p := by
  rw [bucketCost, bucketCost]
  congr 1
  apply List.map_congr_left
  intro row hrow
  obtain ⟨hlo, hhi⟩ := (onGrid_of_mem hwindow hrow).own_mem
  rw [priceAt_hourlyPrices p hlo hhi]

theorem abs_sub_le_of_quantize_eq {x y : ℚ} (h : quantize 4 x = quantize 4 y) :
    |x - y| ≤ 1 / 10000 := by
  have hx := abs_le.mp (abs_quantize_sub_le 4 x)
  have hy := abs_le.mp (abs_quantize_sub_le 4 y)
  rw [h] at hx
  rw [abs_le]
  norm_num at hx hy ⊢
  refine ⟨by linarith [hx.2, hy.1], by linarith [hx.1, hy.2]⟩

theorem exactCost_mul (c : ℚ) :
    exactCost clause startTime endTime telemetry (fun h => c * h) =
      c * exactCost clause startTime endTime telemetry (fun h => (h : ℚ)) := by
  rw [exactCost, exactCost, mul_sum]
  apply sum_congr rfl
  intro i _
  ring

theorem bucketCost_mul (c : ℚ) :
    bucketCost clause startTime endTime telemetry (fun h => c * h) =
      c * bucketCost clause startTime endTime telemetry (fun h => (h : ℚ)) := by
  rw [bucketCost, bucketCost, ← List.sum_map_mul_left]
  congr 1
  apply List.map_congr_left
  intro row _
  ring

end Session

/-- **The granular cost is exact precisely when no interval crosses an hour.**  For every telemetry
content and session whose gate is open: the cost equals the hour-by-hour cost for every price map that
covers the session if and only if no interval between consecutive samples, and no tail, reaches beyond
the UTC hour in which it begins. -/
theorem granular_cost_exact_iff (clause : WhereClause) (startTime endTime : DateTime)
    (telemetry : List TelemetryRow) (energyDeliveredKwh : Option ℚ)
    (hgate : granularGate (granularTelemetry clause startTime.instant endTime.instant telemetry)
      startTime endTime energyDeliveredKwh = true) :
    CostExact clause startTime endTime telemetry energyDeliveredKwh ↔
      WithinHours startTime.instant endTime.instant
        (granularSamples clause startTime.instant endTime.instant telemetry) := by
  have hwindow := window_pos_of_gate hgate
  rw [withinHours_iff]
  refine ⟨?_, ?_⟩
  · intro hexact
    by_contra hnot
    push Not at hnot
    have hlt := bucketCost_lt_exactCost hwindow hnot
    -- scale the hour number so that the two costs differ by one unit of currency
    obtain ⟨c, hc⟩ : ∃ c : ℚ, c * (exactCost clause startTime endTime telemetry (fun h => (h : ℚ)) -
        bucketCost clause startTime endTime telemetry (fun h => (h : ℚ))) = 1 :=
      ⟨_, inv_mul_cancel₀ (by linarith)⟩
    have hcovers : Covers (hourlyPrices startTime endTime fun h => c * h) startTime endTime := by
      intro i hi
      rw [priceForHour_hourlyPrices _ hi]
      rfl
    obtain ⟨result, hresult, hcost⟩ := hexact _ hcovers
    obtain ⟨result', hresult', hcost'⟩ := tryGranular_of_covers hgate hcovers
    obtain rfl : result = result' := Option.some.inj (hresult.symm.trans hresult')
    have hquant := abs_sub_le_of_quantize_eq (Option.some.inj (hcost.symm.trans hcost'))
    rw [exactCost_hourlyPrices, bucketCost_hourlyPrices hwindow, exactCost_mul, bucketCost_mul,
      ← mul_sub, hc] at hquant
    norm_num at hquant
  · intro hwithin priceMap hcovers
    obtain ⟨result, hresult, hcost⟩ := tryGranular_of_covers hgate hcovers
    refine ⟨result, hresult, ?_⟩
    rw [hcost, exactCost_eq_bucketCost hwindow hwithin]

def steadySamples (times : List ℚ) : List TelemetryRow :=
  times.map fun t => ⟨t, none, "cs1", 1, some 7, some 10⟩

/-- Two hours at 10 kW sampled on the hour: nothing crosses an hour, and the cost is exact. -/
theorem granular_cost_exact_on_the_hour :
    CostExact (.transaction "cs1" 1 7) ⟨0, 0⟩ ⟨7200, 0⟩ (steadySamples [0, 3600]) (some 20) := by
  have hgate : granularGate (granularTelemetry (.transaction "cs1" 1 7) (DateTime.instant ⟨0, 0⟩)
      (DateTime.instant ⟨7200, 0⟩) (steadySamples [0, 3600])) ⟨0, 0⟩ ⟨7200, 0⟩ (some 20) = true := by
    decide +kernel
  have hsamples : granularSamples (.transaction "cs1" 1 7) (DateTime.instant ⟨0, 0⟩)
      (DateTime.instant ⟨7200, 0⟩) (steadySamples [0, 3600]) = [⟨0, 10⟩, ⟨3600, 10⟩] := by
    decide +kernel
  apply (granular_cost_exact_iff _ _ _ _ _ hgate).mpr
  rw [hsamples]
  intro s next hlead
  simp only [lead, List.mem_cons, Prod.mk.injEq, List.not_mem_nil, or_false] at hlead
  rcases hlead with ⟨rfl, rfl⟩ | ⟨rfl, rfl⟩
  · intro _
    decide +kernel
  · show DateTime.instant ⟨7200, 0⟩ ≤ _
    decide +kernel

/-- The same two hours with the second sample at half past one.  The prices of the two hours are 0.1
and 0.5; the 5 kWh drawn between one o'clock and half past are charged at the price of the first
hour, and the session costs 4 instead of 6. -/
theorem interval_across_hour_mispriced :
    ∃ priceMap : PriceMap, Covers priceMap ⟨0, 0⟩ ⟨7200, 0⟩ ∧
      (∃ result, tryGranular (granularTelemetry (.transaction "cs1" 1 7) (DateTime.instant ⟨0, 0⟩)
          (DateTime.instant ⟨7200, 0⟩) (steadySamples [0, 5400])) ⟨0, 0⟩ ⟨7200, 0⟩ (some 20) priceMap =
            some result ∧ result.cost = some 4) ∧
      quantize 4 (exactCost (.transaction "cs1" 1 7) ⟨0, 0⟩ ⟨7200, 0⟩ (steadySamples [0, 5400])
        (priceAt priceMap)) = 6 ∧
      ¬ CostExact (.transaction "cs1" 1 7) ⟨0, 0⟩ ⟨7200, 0⟩ (steadySamples [0, 5400]) (some 20) := by
  have hcovers : Covers (Dict.ofList [(.aware 0, 1 / 10), (.aware 3600, 1 / 2)])
      ⟨0, 0⟩ ⟨7200, 0⟩ := by
    unfold Covers
    decide +kernel
  have hresult : tryGranular (granularTelemetry (.transaction "cs1" 1 7) (DateTime.instant ⟨0, 0⟩)
      (DateTime.instant ⟨7200, 0⟩) (steadySamples [0, 5400])) ⟨0, 0⟩ ⟨7200, 0⟩ (some 20)
      (Dict.ofList [(.aware 0, 1 / 10), (.aware 3600, 1 / 2)]) =
        some ⟨some 4, .granular, some 20, some (1 / 5), some 1⟩ := by
    decide +kernel
  have hexact : quantize 4 (exactCost (.transaction "cs1" 1 7) ⟨0, 0⟩ ⟨7200, 0⟩
      (steadySamples [0, 5400])
      (priceAt (Dict.ofList [(.aware 0, 1 / 10), (.aware 3600, 1 / 2)]))) = 6 := by
    decide +kernel
  refine ⟨_, hcovers, ⟨_, hresult, rfl⟩, hexact, ?_⟩
  intro hall
  obtain ⟨result, hres, hcost⟩ := hall _ hcovers
  rw [hresult] at hres
  obtain rfl := Option.some.inj hres
  rw [hexact] at hcost
  norm_num at hcost

end FavoniusBackend.Billing.GranularCost
