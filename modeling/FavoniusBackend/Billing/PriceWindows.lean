import FavoniusBackend.Billing.PriceReadThrough

/-!
# The price of an hour does not depend on the window

`fetch_prices_by_zone` reads the rows of a zone from one fill window before the first hour on, and scans them for each
hour until one is later than it.  The rows of a zone have distinct times, so the scan ends with the latest price in
reach of the hour, and every row in reach is among those that are read, whatever the window is (`prices_of_window`).
-/

namespace FavoniusBackend.Billing.PriceReadThrough

open Lib

def OnHour (h : ℚ) : Prop := ∃ k : ℤ, h = 3600 * (k : ℚ)

def InReach (forwardFillWindow h ts : ℚ) : Prop := h - forwardFillWindow ≤ ts ∧ ts ≤ h

def LatestOf (known : List (ℚ × ℚ)) (forwardFillWindow h price : ℚ) : Prop :=
  ∃ ts, (ts, price) ∈ known ∧ InReach forwardFillWindow h ts ∧
    ∀ p ∈ known, InReach forwardFillWindow h p.1 → p.1 ≤ ts

def Prices (table : PriceTable) (biddingZone : String) (ts raw : ℚ) : Prop :=
  ⟨ts, biddingZone, "ENTSOE_DAM", some raw⟩ ∈ table.rows

/-- The latest price of the zone in reach of an hour, per kWh. -/
def IsLatestPrice (table : PriceTable) (biddingZone : String) (forwardFillWindow h price : ℚ) : Prop :=
  ∃ ts raw, Prices table biddingZone ts raw ∧ InReach forwardFillWindow h ts ∧ price = raw / 1000 ∧
    ∀ ts' raw', Prices table biddingZone ts' raw' → InReach forwardFillWindow h ts' → ts' ≤ ts

/-! ## The hours of a window -/

theorem mem_hoursFrom_iff {startTime : Stamp} {endTime h : ℚ} :
    h ∈ hoursFrom (hourFloorUtc startTime) endTime ↔ OnHour h ∧ hourFloorUtc startTime ≤ h ∧ h < endTime := by
  constructor
  · intro hmem
    refine ⟨?_, mem_hoursFrom hmem⟩
    obtain ⟨i, -, rfl⟩ := List.mem_map.mp hmem
    refine ⟨⌊asUtcAware startTime / 3600⌋ + i, ?_⟩
    rw [hourFloorUtc]
    push_cast
    ring
  · intro hwindow
    obtain ⟨⟨k, rfl⟩, hlower, hupper⟩ := hwindow
    rw [hourFloorUtc] at hlower ⊢
    generalize ⌊asUtcAware startTime / 3600⌋ = first at hlower ⊢
    have hle : first ≤ k := by
      have : (first : ℚ) ≤ k := by linarith
      exact_mod_cast this
    have hlt : k - first < ⌈(endTime - 3600 * (first : ℚ)) / 3600⌉ := by
      rw [Int.lt_ceil, lt_div_iff₀ (by norm_num)]
      push_cast
      linarith
    refine List.mem_map.mpr ⟨(k - first).toNat, List.mem_range.mpr (by omega), ?_⟩
    have hcast : (((k - first).toNat : ℤ) : ℚ) = k - first := by
      rw [Int.toNat_of_nonneg (by omega)]
      push_cast
      rfl
    rw [Int.cast_natCast] at hcast
    rw [hcast]
    ring

/-! ## The scan -/

section Scan

variable {known : List (ℚ × ℚ)} {forwardFillWindow h ts price price₀ : ℚ}

theorem latestOf_cons_of_inReach (hlater : ∀ p ∈ known, ts < p.1) (hin : InReach forwardFillWindow h ts) :
    LatestOf ((ts, price₀) :: known) forwardFillWindow h price ↔
      LatestOf known forwardFillWindow h price ∨
        (∀ p ∈ known, ¬ InReach forwardFillWindow h p.1) ∧ price₀ = price := by
  constructor
  · intro hlatest
    obtain ⟨ts', hmem, hin', hmax⟩ := hlatest
    obtain heq | hmem := List.mem_cons.mp hmem
    · obtain ⟨rfl, rfl⟩ := Prod.mk.inj heq
      refine .inr ⟨?_, rfl⟩
      intro p hp hpin
      exact absurd (hmax p (List.mem_cons_of_mem _ hp) hpin) (not_le.mpr (hlater p hp))
    · exact .inl ⟨ts', hmem, hin', fun p hp => hmax p (List.mem_cons_of_mem _ hp)⟩
  · intro hlatest
    obtain ⟨ts', hmem, hin', hmax⟩ | ⟨hnone, rfl⟩ := hlatest
    · refine ⟨ts', List.mem_cons_of_mem _ hmem, hin', ?_⟩
      intro p hp hpin
      obtain rfl | hp := List.mem_cons.mp hp
      · exact (hlater _ hmem).le
      · exact hmax p hp hpin
    · refine ⟨ts, List.mem_cons_self, hin, ?_⟩
      intro p hp hpin
      obtain rfl | hp := List.mem_cons.mp hp
      · exact le_rfl
      · exact absurd hpin (hnone p hp)

theorem latestOf_cons_of_not_inReach (hout : ¬ InReach forwardFillWindow h ts) :
    LatestOf ((ts, price₀) :: known) forwardFillWindow h price ↔ LatestOf known forwardFillWindow h price := by
  constructor
  · intro hlatest
    obtain ⟨ts', hmem, hin, hmax⟩ := hlatest
    obtain heq | hmem := List.mem_cons.mp hmem
    · exact absurd ((Prod.mk.inj heq).1 ▸ hin) hout
    · exact ⟨ts', hmem, hin, fun p hp => hmax p (List.mem_cons_of_mem _ hp)⟩
  · intro hlatest
    obtain ⟨ts', hmem, hin, hmax⟩ := hlatest
    refine ⟨ts', List.mem_cons_of_mem _ hmem, hin, ?_⟩
    intro p hp hpin
    obtain rfl | hp := List.mem_cons.mp hp
    · exact absurd hpin hout
    · exact hmax p hp hpin

/-- What the scan of prices in the order of their times ends with: the latest in reach or, with none, what it began
with. -/
theorem candidate_eq_some_iff (hsorted : known.Pairwise fun a b => a.1 < b.1) (found : Option ℚ) :
    candidate h forwardFillWindow found known = some price ↔
      LatestOf known forwardFillWindow h price ∨
        (∀ p ∈ known, ¬ InReach forwardFillWindow h p.1) ∧ found = some price := by
  induction known generalizing found with
  | nil => simp [candidate, LatestOf]
  | cons head known ih =>
    obtain ⟨ts, price₀⟩ := head
    obtain ⟨hlater, hsorted⟩ := List.pairwise_cons.mp hsorted
    have hreach : (ts ≤ h ∧ h - ts ≤ forwardFillWindow) ↔ InReach forwardFillWindow h ts := by
      rw [InReach]
      constructor <;> intro h <;> constructor <;> linarith [h.1, h.2]
    rw [candidate, List.forall_mem_cons]
    by_cases hin : InReach forwardFillWindow h ts
    · rw [if_pos (hreach.mpr hin), ih hsorted, latestOf_cons_of_inReach hlater hin, Option.some.injEq]
      simp only [hin, not_true_eq_false, false_and, or_false]
    · rw [if_neg (mt hreach.mp hin), latestOf_cons_of_not_inReach hin]
      simp only [hin, not_false_eq_true, true_and]
      by_cases hafter : h < ts
      · rw [if_pos hafter]
        -- the loop stops here: what follows is later still
        have hrest : ∀ p ∈ known, ¬ InReach forwardFillWindow h p.1 := by
          intro p hp hpin
          have := hlater p hp
          linarith [hpin.2]
        constructor
        · exact fun heq => .inr ⟨hrest, heq⟩
        · intro hlatest
          obtain ⟨ts', hmem, hin', -⟩ | ⟨-, heq⟩ := hlatest
          · exact absurd hin' (hrest _ hmem)
          · exact heq
      · rw [if_neg hafter]
        exact ih hsorted found

end Scan

/-! ## The rows that are read -/

theorem mem_knownPrices {table : PriceTable} {biddingZone : String} {lower upper ts price : ℚ} :
    (ts, price) ∈ knownPrices (priceRows table biddingZone lower upper) ↔
      ∃ raw, Prices table biddingZone ts raw ∧ lower ≤ ts ∧ ts < upper ∧ price = raw / 1000 := by
  rw [knownPrices, List.mem_filterMap]
  constructor
  · intro h
    obtain ⟨row, hrow, hsome⟩ := h
    obtain ⟨raw, hraw, heq⟩ := Option.map_eq_some_iff.mp hsome
    obtain ⟨rfl, rfl⟩ := Prod.mk.inj heq
    obtain ⟨hmem, rfl, hmarket, hlower, hupper⟩ := mem_priceRows.mp hrow
    refine ⟨raw, ?_, hlower, hupper, rfl⟩
    rw [Prices, ← hmarket, ← hraw]
    exact hmem
  · intro h
    obtain ⟨raw, hrow, hlower, hupper, rfl⟩ := h
    exact ⟨_, mem_priceRows.mpr ⟨hrow, rfl, rfl, hlower, hupper⟩, rfl⟩

theorem latestOf_knownPrices {table : PriceTable} {biddingZone : String} {first endTime forwardFillWindow h price : ℚ}
    (hfirst : first ≤ h) (hend : h < endTime) :
    LatestOf (knownPrices (priceRows table biddingZone (first - forwardFillWindow) endTime)) forwardFillWindow h price ↔
      IsLatestPrice table biddingZone forwardFillWindow h price := by
  have hread : ∀ {ts : ℚ}, InReach forwardFillWindow h ts → first - forwardFillWindow ≤ ts ∧ ts < endTime := by
    intro ts hin
    constructor <;> linarith [hin.1, hin.2]
  constructor
  · intro hlatest
    obtain ⟨ts, hmem, hin, hmax⟩ := hlatest
    obtain ⟨raw, hrow, -, -, rfl⟩ := mem_knownPrices.mp hmem
    refine ⟨ts, raw, hrow, hin, rfl, ?_⟩
    intro ts' raw' hrow' hin'
    exact hmax (ts', raw' / 1000) (mem_knownPrices.mpr ⟨raw', hrow', (hread hin').1, (hread hin').2, rfl⟩) hin'
  · intro hlatest
    obtain ⟨ts, raw, hrow, hin, rfl, hmax⟩ := hlatest
    refine ⟨ts, mem_knownPrices.mpr ⟨raw, hrow, (hread hin).1, (hread hin).2, rfl⟩, hin, ?_⟩
    intro p hp hpin
    obtain ⟨raw', hrow', -⟩ := mem_knownPrices.mp hp
    exact hmax p.1 raw' hrow' hpin

theorem get?_eq_some_iff {table : PriceTable} {biddingZone : String} {startTime endTime : Stamp}
    {forwardFillWindow h price : ℚ} :
    (fetchPricesByZone table biddingZone startTime endTime forwardFillWindow).get? h = some price ↔
      (OnHour h ∧ hourFloorUtc startTime ≤ h ∧ h < asUtcAware endTime) ∧
        IsLatestPrice table biddingZone forwardFillWindow h price := by
  rw [get?_fetchPricesByZone_eq_some, mem_hoursFrom_iff]
  refine and_congr_right fun hwindow => ?_
  rw [candidate_eq_some_iff (knownPrices_pairwise ..), latestOf_knownPrices hwindow.2.1 hwindow.2.2]
  simp

theorem exists_isLatestPrice {table : PriceTable} {biddingZone : String} {forwardFillWindow h : ℚ} :
    (∃ price, IsLatestPrice table biddingZone forwardFillWindow h price) ↔
      ∃ ts raw, Prices table biddingZone ts raw ∧ InReach forwardFillWindow h ts := by
  constructor
  · intro hprice
    obtain ⟨-, ts, raw, hrow, hin, -⟩ := hprice
    exact ⟨ts, raw, hrow, hin⟩
  · intro hrow
    let times := {ts | ∃ raw, Prices table biddingZone ts raw ∧ InReach forwardFillWindow h ts}
    have hfinite : times.Finite := by
      apply (table.rows.map PriceRow.time).finite_toSet.subset
      intro ts hts
      obtain ⟨raw, hprices, -⟩ := hts
      exact List.mem_map.mpr ⟨_, hprices, rfl⟩
    have hne : times.Nonempty := hrow
    obtain ⟨ts, ⟨raw, hprices, hin⟩, hmax⟩ := hfinite.exists_maximalFor id times hne
    refine ⟨raw / 1000, ts, raw, hprices, hin, rfl, ?_⟩
    intro ts' raw' hprices' hin'
    obtain hle | hle := le_total ts' ts
    · exact hle
    · exact hmax ⟨raw', hprices', hin'⟩ hle

/-- **The prices of a window.**  The map has exactly the hours of the window with a price in reach, each with the latest
of them; so two windows that contain an hour agree on it. -/
theorem prices_of_window (table : PriceTable) (biddingZone : String) (startTime endTime : Stamp)
    (forwardFillWindow : ℚ) :
    (∀ h, h ∈ fetchPricesByZone table biddingZone startTime endTime forwardFillWindow ↔
      (OnHour h ∧ hourFloorUtc startTime ≤ h ∧ h < asUtcAware endTime) ∧
        ∃ ts raw, Prices table biddingZone ts raw ∧ InReach forwardFillWindow h ts) ∧
    (∀ h price, (fetchPricesByZone table biddingZone startTime endTime forwardFillWindow).get? h = some price →
      IsLatestPrice table biddingZone forwardFillWindow h price) ∧
    (∀ h startTime' endTime', hourFloorUtc startTime ≤ h ∧ h < asUtcAware endTime →
      hourFloorUtc startTime' ≤ h ∧ h < asUtcAware endTime' →
        (fetchPricesByZone table biddingZone startTime endTime forwardFillWindow).get? h =
          (fetchPricesByZone table biddingZone startTime' endTime' forwardFillWindow).get? h) := by
  refine ⟨?_, ?_, ?_⟩
  · intro h
    rw [Dict.mem_iff_isSome, Option.isSome_iff_exists, ← exists_isLatestPrice]
    simp only [get?_eq_some_iff, exists_and_left]
  · exact fun h price hget => (get?_eq_some_iff.mp hget).2
  · intro h startTime' endTime' hin hin'
    ext price
    rw [get?_eq_some_iff, get?_eq_some_iff]
    simp only [hin, hin', and_self, and_true]

end FavoniusBackend.Billing.PriceReadThrough
