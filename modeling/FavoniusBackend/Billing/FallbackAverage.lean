import FavoniusBackend.Billing.GranularCost

/-!
# What the fallback average weighs

The fallback is meant to charge the delivered energy at the average price of the session, each hour weighed by the part of it
in which the session runs.  The buckets are the full hours of the start's own zone, while prices and overlaps go by the full
hours of UTC.  In a zone that is not whole hours off, the UTC hour of a bucket begins before the bucket does: the UTC hours
may stop short of the end of the session, and the first may lie before it (`fallback_partitions_iff`).
-/

namespace FavoniusBackend.Billing.FallbackAverage

open Finset
open Lib Lib.Numeric Billing.Telemetry
open Billing.SessionCost Billing.GranularCost

/-! ### The reference -/

/-- How long the session runs in an hour that it touches. -/
def touched (startTime endTime : DateTime) (h : ℤ) : ℚ :=
  min endTime.instant (3600 * (h + 1)) - max startTime.instant (3600 * h)

def exactAverage (startTime endTime : DateTime) (p : ℤ → ℚ) : ℚ :=
  (∑ i ∈ range (hourCount startTime endTime),
    p (firstHour startTime + i) * touched startTime endTime (firstHour startTime + i)) /
      (endTime.instant - startTime.instant)

structure Partitions (deliveredKwh : ℚ) (startTime endTime : DateTime) (priceMap : PriceMap) : Prop where
  whole : 3600 * (weighHours priceMap startTime endTime (expectedHourBuckets startTime endTime)).2 =
    endTime.instant - startTime.instant
  average : (fallbackAverage deliveredKwh startTime endTime priceMap).avgPriceUsed =
    some (exactAverage startTime endTime (priceAt priceMap))
  lower : ∃ i < hourCount startTime endTime,
    priceAt priceMap (firstHour startTime + i) ≤ exactAverage startTime endTime (priceAt priceMap)
  upper : ∃ i < hourCount startTime endTime,
    exactAverage startTime endTime (priceAt priceMap) ≤ priceAt priceMap (firstHour startTime + i)

def bucketStart (startTime : DateTime) : ℤ := hourOf startTime.floorHour.instant

/-- The session ends no later than the UTC hour in which its last local hour begins. -/
def EndsInLastHour (startTime endTime : DateTime) : Prop :=
  endTime.instant ≤ 3600 * ((bucketStart startTime : ℚ) + (expectedHourBuckets startTime endTime).length)

/-! ### The hours of the buckets -/

theorem floorHour_bounds (d : DateTime) : d.floorHour.instant ≤ d.instant ∧ d.instant < d.floorHour.instant + 3600 := by
  have hle : (⌊d.wall / 3600⌋ : ℚ) ≤ d.wall / 3600 := Int.floor_le _
  have hlt : d.wall / 3600 < (⌊d.wall / 3600⌋ : ℚ) + 1 := Int.lt_floor_add_one _
  unfold DateTime.floorHour DateTime.instant
  constructor
  · linarith
  · linarith

theorem bucketStart_bounds (startTime : DateTime) :
    bucketStart startTime ≤ firstHour startTime ∧ firstHour startTime ≤ bucketStart startTime + 1 := by
  obtain ⟨hle, hlt⟩ := floorHour_bounds startTime
  have hbucket := lt_hourEnd startTime.floorHour.instant
  unfold hourEnd at hbucket
  constructor
  · exact Int.floor_le_floor (by linarith)
  · have hfirst : startTime.instant / 3600 < ((bucketStart startTime + 1 + 1 : ℤ) : ℚ) := by
      unfold bucketStart
      push_cast
      linarith
    exact Int.le_of_lt_add_one (Int.floor_lt.mpr hfirst)

section Buckets

variable {startTime endTime : DateTime}

theorem expectedHourBuckets_eq (startTime endTime : DateTime) :
    expectedHourBuckets startTime endTime =
      (List.range ⌈(endTime.instant - startTime.floorHour.instant) / 3600⌉.toNat).map fun i : ℕ =>
        (⟨startTime.floorHour.wall + 3600 * (i : ℚ), startTime.floorHour.offset⟩ : DateTime) := by
  simp [expectedHourBuckets, List.bind_eq_flatMap, ← List.map_eq_flatMap]

theorem bucketCount_bounds (hwindow : startTime.instant < endTime.instant) :
    0 < (expectedHourBuckets startTime endTime).length ∧
    startTime.floorHour.instant + 3600 * ((expectedHourBuckets startTime endTime).length - 1 : ℚ) < endTime.instant := by
  have hle := (floorHour_bounds startTime).1
  have hpos : 0 < (endTime.instant - startTime.floorHour.instant) / 3600 := by
    have : 0 < endTime.instant - startTime.floorHour.instant := by linarith
    positivity
  have hlength : ((expectedHourBuckets startTime endTime).length : ℤ) =
      ⌈(endTime.instant - startTime.floorHour.instant) / 3600⌉ := by
    rw [expectedHourBuckets_eq, List.length_map, List.length_range]
    exact Int.toNat_of_nonneg (Int.ceil_nonneg hpos.le)
  have hceil := Int.ceil_lt_add_one ((endTime.instant - startTime.floorHour.instant) / 3600)
  have hceilPos := Int.ceil_pos.mpr hpos
  have hcast : ((expectedHourBuckets startTime endTime).length : ℚ) =
      (⌈(endTime.instant - startTime.floorHour.instant) / 3600⌉ : ℚ) := by
    exact_mod_cast hlength
  refine ⟨by omega, ?_⟩
  rw [hcast]
  linarith

theorem normalizeHour_bucket (startTime : DateTime) (i : ℕ) :
    normalizeHour ⟨startTime.floorHour.wall + 3600 * (i : ℚ), startTime.floorHour.offset⟩ =
      hourStamp (bucketStart startTime + i) := by
  have hfloor : ⌊(startTime.floorHour.wall + 3600 * (i : ℚ) - startTime.floorHour.offset) / 3600⌋ =
      bucketStart startTime + i := by
    have hshift : (startTime.floorHour.wall + 3600 * (i : ℚ) - startTime.floorHour.offset) / 3600 =
        startTime.floorHour.instant / 3600 + (i : ℕ) := by
      unfold DateTime.instant
      ring
    rw [hshift, Int.floor_add_natCast]
    rfl
  unfold normalizeHour hourStamp
  show (⟨3600 * ((⌊(startTime.floorHour.wall + 3600 * (i : ℚ) - startTime.floorHour.offset) / 3600⌋ : ℤ) : ℚ), 0⟩ :
    DateTime) = _
  rw [hfloor]

theorem priceForHour_normalize (priceMap : PriceMap) (hour : DateTime) :
    priceForHour priceMap hour = priceForHour priceMap (normalizeHour hour) := by
  have hsame : normalizeHour (normalizeHour hour) = normalizeHour hour := by
    unfold normalizeHour DateTime.floorHour DateTime.instant
    simp
  unfold priceForHour
  rw [hsame]

theorem overlapHours_bucket (i : ℕ) :
    overlapHours startTime endTime ⟨startTime.floorHour.wall + 3600 * (i : ℚ), startTime.floorHour.offset⟩ =
      touched startTime endTime (bucketStart startTime + i) / 3600 := by
  unfold overlapHours touched
  rw [normalizeHour_bucket]
  simp [hourStamp, DateTime.instant]
  ring_nf

theorem weighHours_eq {priceMap : PriceMap} {n : ℕ} (hours : ℕ → DateTime) (p w : ℕ → ℚ)
    (hp : ∀ i < n, priceForHour priceMap (hours i) = some (p i))
    (hw : ∀ i < n, overlapHours startTime endTime (hours i) = w i) :
    weighHours priceMap startTime endTime ((List.range n).map hours) =
      (∑ i ∈ range n, p i * max 0 (w i), ∑ i ∈ range n, max 0 (w i)) := by
  induction n with
  | zero => rfl
  | succ n ih =>
    have hprefix := ih (fun i hi => hp i (by omega)) fun i hi => hw i (by omega)
    unfold weighHours at hprefix ⊢
    rw [List.range_succ, List.map_append, List.foldl_append, hprefix, List.map_singleton, List.foldl_cons, List.foldl_nil,
      sum_range_succ, sum_range_succ]
    simp only [hp n (by omega), hw n (by omega)]
    split
    · rename_i hneg
      rw [max_eq_left hneg]
      simp
    · rename_i hpos
      rw [max_eq_right (by linarith)]

/-! ### Summing over the hours -/

/-- An hour adds what lies between the start, or its own beginning, and the end, or its own end. -/
theorem clip_add {s e a b : ℚ} (h : a ≤ b) :
    max 0 (min e a - s) + max 0 (min e b - max s a) = max 0 (min e b - s) := by
  rcases le_total e a with hea | hae
  · have hzero : max 0 (e - max s a) = 0 := max_eq_left (by have := le_max_right s a; linarith)
    rw [min_eq_left hea, min_eq_left (hea.trans h), hzero, add_zero]
  · rw [min_eq_right hae]
    rcases le_total s a with hsa | has
    · have hmin : a ≤ min e b := le_min hae h
      rw [max_eq_right hsa, max_eq_right (by linarith), max_eq_right (by linarith), max_eq_right (by linarith)]
      ring
    · rw [max_eq_left has, max_eq_left (by linarith), zero_add]

theorem sum_touched {k : ℤ} (hfirst : k ≤ firstHour startTime)
    (n : ℕ) :
    ∑ i ∈ range n, max 0 (touched startTime endTime (k + i)) =
      max 0 (min endTime.instant (3600 * ((k : ℚ) + n)) - startTime.instant) := by
  have hle : 3600 * (firstHour startTime : ℚ) ≤ startTime.instant := hourOf_le startTime.instant
  have hk : (k : ℚ) ≤ (firstHour startTime : ℚ) := by exact_mod_cast hfirst
  induction n with
  | zero =>
    have hreach : min endTime.instant (3600 * ((k : ℚ) + (0 : ℕ))) - startTime.instant ≤ 0 := by
      have := min_le_right endTime.instant (3600 * ((k : ℚ) + (0 : ℕ)))
      push_cast at this ⊢
      linarith
    rw [max_eq_left hreach]
    rfl
  | succ n ih =>
    rw [sum_range_succ, ih]
    unfold touched
    push_cast
    have hclip := @clip_add startTime.instant endTime.instant (3600 * ((k : ℚ) + n)) (3600 * ((k : ℚ) + n + 1))
      (by linarith)
    rw [hclip, show (k : ℚ) + (n + 1) = k + n + 1 by ring]

theorem touched_pos (hwindow : startTime.instant < endTime.instant) {i : ℕ} (hi : i < hourCount startTime endTime) :
    0 < touched startTime endTime (firstHour startTime + i) := by
  have hfirst := hourOf_le startTime.instant
  have hnext := lt_hourEnd startTime.instant
  unfold hourEnd at hnext
  have hlast : firstHour startTime + i < ⌈endTime.instant / 3600⌉ := by
    unfold hourCount at hi
    omega
  have hend : ((firstHour startTime + i : ℤ) : ℚ) < endTime.instant / 3600 := Int.lt_ceil.mp hlast
  have hi0 : (0 : ℚ) ≤ i := Nat.cast_nonneg i
  unfold touched
  push_cast at hend ⊢
  unfold firstHour at hend ⊢
  refine sub_pos.mpr (lt_min (max_lt hwindow ?_) (max_lt ?_ ?_))
  · linarith
  · linarith
  · linarith

theorem sum_touched_hours (hwindow : startTime.instant < endTime.instant) :
    ∑ i ∈ range (hourCount startTime endTime), max 0 (touched startTime endTime (firstHour startTime + i)) =
      endTime.instant - startTime.instant := by
  rw [sum_touched le_rfl, min_eq_left (endTime_le_hours hwindow), max_eq_right (by linarith)]

theorem average_between {n : ℕ} (hn : 0 < n) (p w : ℕ → ℚ) (hw : ∀ i < n, 0 < w i) :
    (∃ i < n, p i ≤ (∑ j ∈ range n, p j * w j) / ∑ j ∈ range n, w j) ∧
      ∃ i < n, (∑ j ∈ range n, p j * w j) / (∑ j ∈ range n, w j) ≤ p i := by
  have hne : (range n).Nonempty := nonempty_range_iff.mpr (by omega)
  have hpos : 0 < ∑ j ∈ range n, w j := sum_pos (fun i hi => hw i (mem_range.mp hi)) hne
  have hsame : ∑ j ∈ range n, p j * w j =
      ∑ i ∈ range n, (∑ j ∈ range n, p j * w j) / (∑ j ∈ range n, w j) * w i := by
    rw [← mul_sum, div_mul_cancel₀ _ hpos.ne']
  constructor
  · obtain ⟨i, hi, hle⟩ := exists_le_of_sum_le hne hsame.le
    have hlt := mem_range.mp hi
    exact ⟨i, hlt, le_of_mul_le_mul_right hle (hw i hlt)⟩
  · obtain ⟨i, hi, hle⟩ := exists_le_of_sum_le hne hsame.ge
    have hlt := mem_range.mp hi
    exact ⟨i, hlt, le_of_mul_le_mul_right hle (hw i hlt)⟩

/-! ### The two ends -/

theorem firstHour_add_count (hwindow : startTime.instant < endTime.instant) :
    firstHour startTime + hourCount startTime endTime = ⌈endTime.instant / 3600⌉ := by
  have hfirst := hourOf_le startTime.instant
  have hlt : firstHour startTime < ⌈endTime.instant / 3600⌉ := by
    refine Int.lt_ceil.mpr ?_
    unfold firstHour
    linarith
  unfold hourCount
  omega

theorem bucket_hours_le (hwindow : startTime.instant < endTime.instant) :
    bucketStart startTime + (expectedHourBuckets startTime endTime).length ≤ ⌈endTime.instant / 3600⌉ := by
  obtain ⟨hpos, hlast⟩ := bucketCount_bounds hwindow
  have hbucket : 3600 * (bucketStart startTime : ℚ) ≤ startTime.floorHour.instant := hourOf_le _
  have hlt : bucketStart startTime + (expectedHourBuckets startTime endTime).length - 1 < ⌈endTime.instant / 3600⌉ := by
    refine Int.lt_ceil.mpr ?_
    push_cast
    linarith
  omega

theorem endsInLastHour_iff (hwindow : startTime.instant < endTime.instant) :
    EndsInLastHour startTime endTime ↔
      bucketStart startTime + (expectedHourBuckets startTime endTime).length =
        firstHour startTime + hourCount startTime endTime := by
  have hle := bucket_hours_le hwindow
  rw [firstHour_add_count hwindow]
  constructor
  · intro hends
    unfold EndsInLastHour at hends
    refine le_antisymm hle (Int.ceil_le.mpr ?_)
    push_cast
    linarith
  · intro heq
    have hceil := Int.le_ceil (endTime.instant / 3600)
    rw [← heq] at hceil
    unfold EndsInLastHour
    push_cast at hceil
    linarith

theorem weighHours_buckets {priceMap : PriceMap}
    (hpriced : ∀ b ∈ expectedHourBuckets startTime endTime, (priceForHour priceMap b).isSome) :
    weighHours priceMap startTime endTime (expectedHourBuckets startTime endTime) =
      (∑ i ∈ range (expectedHourBuckets startTime endTime).length, priceAt priceMap (bucketStart startTime + i) *
          max 0 (touched startTime endTime (bucketStart startTime + i) / 3600),
        ∑ i ∈ range (expectedHourBuckets startTime endTime).length,
          max 0 (touched startTime endTime (bucketStart startTime + i) / 3600)) := by
  rw [expectedHourBuckets_eq] at hpriced ⊢
  rw [List.length_map, List.length_range]
  refine weighHours_eq _ _ _ (fun i hi => ?_) fun i _ => overlapHours_bucket i
  have hsome := hpriced _ (List.mem_map_of_mem (List.mem_range.mpr hi))
  obtain ⟨price, hprice⟩ := Option.isSome_iff_exists.mp hsome
  rw [hprice]
  rw [priceForHour_normalize, normalizeHour_bucket] at hprice
  unfold priceAt
  rw [hprice]
  rfl

theorem firstBucket_eq (startTime : DateTime) :
    (⟨startTime.floorHour.wall + 3600 * ((0 : ℕ) : ℚ), startTime.floorHour.offset⟩ : DateTime) =
      startTime.floorHour := by
  rw [Nat.cast_zero, mul_zero, add_zero]

theorem bucket_priced_iff (hwindow : startTime.instant < endTime.instant) {priceMap : PriceMap}
    (hcovers : Covers priceMap startTime endTime) :
    (∀ b ∈ expectedHourBuckets startTime endTime, (priceForHour priceMap b).isSome) ↔
      (priceForHour priceMap startTime.floorHour).isSome := by
  have hpos := (bucketCount_bounds hwindow).1
  have hle := bucket_hours_le hwindow
  rw [← firstHour_add_count hwindow] at hle
  have hstart := (bucketStart_bounds startTime).2
  rw [expectedHourBuckets_eq, List.length_map, List.length_range] at hpos hle
  rw [expectedHourBuckets_eq]
  constructor
  · intro h
    have hfirst := h _ (List.mem_map_of_mem (List.mem_range.mpr hpos))
    rwa [firstBucket_eq] at hfirst
  · intro h b hb
    obtain ⟨i, hi, rfl⟩ := List.mem_map.mp hb
    have hlt := List.mem_range.mp hi
    cases i with
    | zero =>
      rw [firstBucket_eq]
      exact h
    | succ i =>
      have hindex : bucketStart startTime + ((i + 1 : ℕ) : ℤ) =
          firstHour startTime + ((bucketStart startTime + (i + 1) - firstHour startTime).toNat : ℕ) := by
        omega
      rw [priceForHour_normalize, normalizeHour_bucket, hindex]
      exact hcovers _ (by omega)

/-! ### The average -/

theorem sum_buckets (hwindow : startTime.instant < endTime.instant) (hends : EndsInLastHour startTime endTime)
    (p : ℤ → ℚ) :
    ∑ i ∈ range (expectedHourBuckets startTime endTime).length,
        p (bucketStart startTime + i) * max 0 (touched startTime endTime (bucketStart startTime + i) / 3600) =
      (∑ i ∈ range (hourCount startTime endTime),
        p (firstHour startTime + i) * touched startTime endTime (firstHour startTime + i)) / 3600 := by
  have hcount := (endsInLastHour_iff hwindow).mp hends
  have hhours : ∑ i ∈ range (hourCount startTime endTime),
      p (firstHour startTime + i) * max 0 (touched startTime endTime (firstHour startTime + i) / 3600) =
        (∑ i ∈ range (hourCount startTime endTime),
          p (firstHour startTime + i) * touched startTime endTime (firstHour startTime + i)) / 3600 := by
    rw [sum_div]
    refine sum_congr rfl fun i hi => ?_
    have hpos := touched_pos hwindow (mem_range.mp hi)
    rw [max_eq_right (by positivity), mul_div_assoc]
  rw [← hhours]
  obtain ⟨hlo, hhi⟩ := bucketStart_bounds startTime
  by_cases hsame : bucketStart startTime = firstHour startTime
  · rw [hsame, show (expectedHourBuckets startTime endTime).length = hourCount startTime endTime by omega]
  · have hlength : (expectedHourBuckets startTime endTime).length = hourCount startTime endTime + 1 := by omega
    have hbefore : touched startTime endTime (bucketStart startTime + (0 : ℕ)) ≤ 0 := by
      have hfirst := hourOf_le startTime.instant
      have hnext : ((bucketStart startTime : ℤ) : ℚ) + 1 = (hourOf startTime.instant : ℚ) := by
        have : bucketStart startTime + 1 = hourOf startTime.instant := le_antisymm (by
          have : firstHour startTime = hourOf startTime.instant := rfl
          omega) hhi
        exact_mod_cast this
      have hmin := min_le_right endTime.instant (3600 * ((bucketStart startTime : ℚ) + 1))
      have hmax := le_max_left startTime.instant (3600 * (bucketStart startTime : ℚ))
      unfold touched
      push_cast
      rw [add_zero]
      linarith
    rw [hlength, sum_range_succ', max_eq_left (div_nonpos_of_nonpos_of_nonneg hbefore (by norm_num)), mul_zero, add_zero]
    refine sum_congr rfl fun i _ => ?_
    rw [show bucketStart startTime + ((i + 1 : ℕ) : ℤ) = firstHour startTime + i by omega]

theorem weights_whole_iff (hwindow : startTime.instant < endTime.instant) {priceMap : PriceMap}
    (hpriced : ∀ b ∈ expectedHourBuckets startTime endTime, (priceForHour priceMap b).isSome) :
    3600 * (weighHours priceMap startTime endTime (expectedHourBuckets startTime endTime)).2 =
        endTime.instant - startTime.instant ↔ EndsInLastHour startTime endTime := by
  have hscale : ∀ x : ℚ, 3600 * max 0 (x / 3600) = max 0 x := by
    intro x
    rw [mul_max_of_nonneg _ _ (by norm_num), mul_zero, mul_div_cancel₀ _ (by norm_num)]
  rw [weighHours_buckets hpriced, mul_sum, sum_congr rfl fun i _ => hscale _,
    sum_touched (bucketStart_bounds startTime).1]
  unfold EndsInLastHour
  constructor
  · intro h
    by_contra hshort
    rw [min_eq_right (by linarith)] at h
    rcases le_total (3600 * ((bucketStart startTime : ℚ) + (expectedHourBuckets startTime endTime).length) -
      startTime.instant) 0 with hneg | hpos
    · rw [max_eq_left hneg] at h
      linarith
    · rw [max_eq_right hpos] at h
      linarith
  · intro h
    rw [min_eq_left h, max_eq_right (by linarith)]

theorem fallbackAverage_priced (hwindow : startTime.instant < endTime.instant) {priceMap : PriceMap} (deliveredKwh : ℚ)
    (hpriced : ∀ b ∈ expectedHourBuckets startTime endTime, (priceForHour priceMap b).isSome)
    (hends : EndsInLastHour startTime endTime) :
    (fallbackAverage deliveredKwh startTime endTime priceMap).avgPriceUsed =
      some (exactAverage startTime endTime (priceAt priceMap)) := by
  have hlength : ((expectedHourBuckets startTime endTime).filter fun h => (priceForHour priceMap h).isSome).length =
      (expectedHourBuckets startTime endTime).length := by
    rw [List.filter_eq_self.mpr hpriced]
  have hwhole := (weights_whole_iff hwindow hpriced).mpr hends
  have hsum := congrArg Prod.fst (weighHours_buckets hpriced)
  rw [sum_buckets hwindow hends] at hsum
  have hne : expectedHourBuckets startTime endTime ≠ [] := List.length_pos_iff.mp (bucketCount_bounds hwindow).1
  unfold fallbackAverage exactAverage
  simp only [hlength, lt_irrefl, hne, or_self, if_false]
  rw [if_neg (by linarith), hsum, ← hwhole, div_div]

theorem priced_of_average {priceMap : PriceMap} {deliveredKwh avg : ℚ}
    (h : (fallbackAverage deliveredKwh startTime endTime priceMap).avgPriceUsed = some avg) :
    ∀ b ∈ expectedHourBuckets startTime endTime, (priceForHour priceMap b).isSome := by
  unfold fallbackAverage at h
  simp only at h
  split at h
  · exact nomatch h
  · rename_i hall
    obtain ⟨-, hcovered⟩ := not_or.mp hall
    have hlength := le_antisymm (List.length_filter_le (fun h => (priceForHour priceMap h).isSome)
      (expectedHourBuckets startTime endTime)) (not_lt.mp hcovered)
    exact List.length_filter_eq_length_iff.mp hlength

theorem floorHour_of_wholeHours {k : ℤ} (hoffset : startTime.offset = 3600 * k) :
    startTime.floorHour.instant = 3600 * (firstHour startTime : ℚ) := by
  have hfirst : firstHour startTime = ⌊startTime.wall / 3600⌋ - k := by
    have hshift : startTime.instant / 3600 = startTime.wall / 3600 - (k : ℚ) := by
      rw [DateTime.instant, hoffset]
      push_cast
      ring
    rw [firstHour, hourOf, hshift, Int.floor_sub_intCast]
  rw [hfirst, DateTime.instant, DateTime.floorHour, hoffset]
  push_cast
  ring

/-- **Whole hours off UTC**, the buckets are the hours of the session: the condition of the fallback holds. -/
theorem wholeHours_meet {k : ℤ} (hoffset : startTime.offset = 3600 * k) (hwindow : startTime.instant < endTime.instant)
    {priceMap : PriceMap} (hcovers : Covers priceMap startTime endTime) :
    EndsInLastHour startTime endTime ∧ (priceForHour priceMap startTime.floorHour).isSome := by
  have hfloor := floorHour_of_wholeHours hoffset
  have hbucket : bucketStart startTime = firstHour startTime := by
    rw [bucketStart, hourOf, hfloor, mul_div_cancel_left₀ _ (by norm_num), Int.floor_intCast]
  have hcount : (expectedHourBuckets startTime endTime).length = hourCount startTime endTime := by
    rw [expectedHourBuckets_eq, List.length_map, List.length_range, hfloor, sub_div,
      mul_div_cancel_left₀ _ (by norm_num), Int.ceil_sub_intCast]
    rfl
  refine ⟨(endsInLastHour_iff hwindow).mpr (by rw [hbucket, hcount]), ?_⟩
  have hfirst := firstHour_add_count hwindow
  have hlast := bucket_hours_le hwindow
  have hpos := (bucketCount_bounds hwindow).1
  have hpriced := hcovers 0 (by omega)
  have hstamp := normalizeHour_bucket startTime 0
  rw [firstBucket_eq, hbucket] at hstamp
  rw [priceForHour_normalize, hstamp]
  exact hpriced

/-- **The fallback average**: its weights partition the session just where the session ends no later than the UTC hour in
which its last local hour begins, and the hour in which its first local hour begins has a price. -/
theorem fallback_partitions_iff (deliveredKwh : ℚ) (startTime endTime : DateTime) (priceMap : PriceMap)
    (hwindow : startTime.instant < endTime.instant) (hcovers : Covers priceMap startTime endTime) :
    Partitions deliveredKwh startTime endTime priceMap ↔
      EndsInLastHour startTime endTime ∧ (priceForHour priceMap startTime.floorHour).isSome := by
  constructor
  · intro h
    have hpriced := priced_of_average h.average
    exact ⟨(weights_whole_iff hwindow hpriced).mp h.whole, (bucket_priced_iff hwindow hcovers).mp hpriced⟩
  · rintro ⟨hends, hfirst⟩
    have hpriced := (bucket_priced_iff hwindow hcovers).mpr hfirst
    have hcount : 0 < hourCount startTime endTime := by
      have hfirst := hourOf_mem_hours le_rfl hwindow
      unfold firstHour at hfirst
      omega
    have hbetween := average_between hcount (fun i => priceAt priceMap (firstHour startTime + i))
      (fun i => touched startTime endTime (firstHour startTime + i)) fun i hi => touched_pos hwindow hi
    have hsum : ∑ i ∈ range (hourCount startTime endTime), touched startTime endTime (firstHour startTime + i) =
        endTime.instant - startTime.instant := by
      rw [← sum_touched_hours hwindow]
      exact sum_congr rfl fun i hi => (max_eq_right (touched_pos hwindow (mem_range.mp hi)).le).symm
    rw [hsum] at hbetween
    exact ⟨(weights_whole_iff hwindow hpriced).mpr hends, fallbackAverage_priced hwindow deliveredKwh hpriced hends,
      hbetween.1, hbetween.2⟩

end Buckets

/-- A session from 10:10 to 11:50 in a zone five and a half hours ahead of UTC, or in UTC. -/
def morning (offset : ℤ) : DateTime × DateTime := (⟨36600, offset⟩, ⟨42600, offset⟩)

def flatPrices (hours : List ℤ) : PriceMap := Dict.ofList (hours.map fun h => (PriceKey.aware (3600 * h), 1))

theorem morning_in_utc : Partitions 10 (morning 0).1 (morning 0).2 (flatPrices [10, 11]) := by
  have hcovers : Covers (flatPrices [10, 11]) (morning 0).1 (morning 0).2 := by
    unfold Covers
    decide +kernel
  refine (fallback_partitions_iff 10 (morning 0).1 (morning 0).2 (flatPrices [10, 11]) (by decide +kernel)
    hcovers).mpr ⟨?_, by decide +kernel⟩
  unfold EndsInLastHour
  decide +kernel

/-- The last twenty minutes have no weight. -/
theorem morning_cut_short : ¬ ∀ (deliveredKwh : ℚ) (startTime endTime : DateTime) (priceMap : PriceMap),
    startTime.instant < endTime.instant → Covers priceMap startTime endTime →
      Partitions deliveredKwh startTime endTime priceMap := by
  intro h
  have hcovers : Covers (flatPrices [4, 5, 6]) (morning 19800).1 (morning 19800).2 := by
    unfold Covers
    decide +kernel
  have hwhole := (h 10 (morning 19800).1 (morning 19800).2 (flatPrices [4, 5, 6]) (by decide +kernel) hcovers).whole
  exact absurd hwhole (by decide +kernel)

end FavoniusBackend.Billing.FallbackAverage
