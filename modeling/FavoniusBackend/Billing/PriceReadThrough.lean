import FavoniusBackend.Lib.Dict
import FavoniusBackend.Lib.Numeric
import FavoniusBackend.Lib.Sql

/-!
# Prices of a zone, with a read-through to the market

`fetch_prices_by_zone` and `fetch_or_pull_prices_by_zone` of `db/queries.py`.  The first reads the hourly prices of a
bidding zone and fills an hour that has none from the last price that is young enough; the second asks the market for the
window when an hour is still missing, stores what the table has no row for, and reads again.

Whether an hour is missing is judged after the fill.  So an hour may keep a filled price although the market has its own,
if every hour of the window is filled; once one is missing, an hour without a row gets the market's price
(`fetchOrPull_own_price`).
-/

namespace FavoniusBackend.Billing.PriceReadThrough

open Lib

/-! ## Times -/

/-- A time stamp as a caller gives it; both are read as UTC. -/
inductive Stamp
  | aware (instant : ℚ)
  | naive (wall : ℚ)
  deriving DecidableEq, Repr

def asUtcAware : Stamp → ℚ
  | .aware instant => instant
  | .naive wall => wall

def hourFloorUtc (dt : Stamp) : ℚ := 3600 * ⌊asUtcAware dt / 3600⌋

/-- The hours from `cursor` on that begin before the end. -/
def hoursFrom (cursor endTime : ℚ) : List ℚ :=
  (List.range ⌈(endTime - cursor) / 3600⌉.toNat).map fun i : ℕ => cursor + 3600 * (i : ℚ)

theorem hoursFrom_nodup (cursor endTime : ℚ) : (hoursFrom cursor endTime).Nodup := by
  refine List.nodup_range.map fun i j hij => ?_
  have : (i : ℚ) = j := by linarith
  exact_mod_cast this

theorem mem_hoursFrom {cursor endTime h : ℚ} (hmem : h ∈ hoursFrom cursor endTime) : cursor ≤ h ∧ h < endTime := by
  obtain ⟨i, hi, rfl⟩ := List.mem_map.mp hmem
  have hlt : (i : ℤ) < ⌈(endTime - cursor) / 3600⌉ := by
    have := List.mem_range.mp hi
    omega
  have hlt' : (i : ℚ) < (endTime - cursor) / 3600 := Int.lt_ceil.mp hlt
  have hi0 : (0 : ℚ) ≤ i := Nat.cast_nonneg i
  rw [lt_div_iff₀ (by norm_num)] at hlt'
  constructor <;> linarith

/-! ## The table -/

/-- A row of `electricity_prices`. -/
structure PriceRow where
  time : ℚ
  nodeId : String
  marketType : String
  lmpPriceMwh : Option ℚ
  deriving DecidableEq, Repr

/-- What the unique index is on. -/
def PriceRow.key (row : PriceRow) : ℚ × String × String := (row.time, row.nodeId, row.marketType)

structure PriceTable where
  rows : List PriceRow
  unique : (rows.map PriceRow.key).Nodup

namespace PriceTable

/-- `INSERT .. ON CONFLICT DO NOTHING`. -/
def insert (table : PriceTable) (row : PriceRow) : PriceTable :=
  if h : row.key ∈ table.rows.map PriceRow.key then table
  else
    { rows := table.rows ++ [row]
      unique := by
        rw [List.map_append]
        exact table.unique.append (List.nodup_singleton _) (by simpa using h) }

theorem mem_insert_of_mem {table : PriceTable} {row : PriceRow} (h : row ∈ table.rows) (new : PriceRow) :
    row ∈ (table.insert new).rows := by
  unfold insert
  split
  · exact h
  · exact List.mem_append_left _ h

theorem mem_foldl_insert_of_mem {table : PriceTable} {row : PriceRow} (h : row ∈ table.rows) (new : List PriceRow) :
    row ∈ (new.foldl insert table).rows := by
  induction new generalizing table with
  | nil => exact h
  | cons new₀ new ih => exact ih (mem_insert_of_mem h new₀)

theorem mem_foldl_insert {table : PriceTable} {new : List PriceRow} {row : PriceRow}
    (hkey : row.key ∉ table.rows.map PriceRow.key) (hfirst : new.find? (fun r => r.key = row.key) = some row) :
    row ∈ (new.foldl insert table).rows := by
  induction new generalizing table with
  | nil => cases hfirst
  | cons new₀ new ih =>
    rw [List.foldl_cons]
    by_cases h : new₀.key = row.key
    · rw [List.find?_cons_of_pos (by simpa using h)] at hfirst
      obtain rfl := Option.some.inj hfirst
      refine mem_foldl_insert_of_mem ?_ new
      rw [insert, dif_neg hkey]
      exact List.mem_append_right _ (List.mem_singleton_self _)
    · rw [List.find?_cons_of_neg (by simpa using h)] at hfirst
      refine ih ?_ hfirst
      unfold insert
      split
      · exact hkey
      · rw [List.map_append, List.mem_append]
        rintro (hold | hnew)
        · exact hkey hold
        · exact h (List.mem_singleton.mp hnew).symm

end PriceTable

/-! ## Reading -/

/-- The loop over the known prices, in the order of their times: the last one that is not after the hour and not too
old. -/
def candidate (cursor forwardFillWindow : ℚ) : Option ℚ → List (ℚ × ℚ) → Option ℚ
  | found, [] => found
  | found, (ts, price) :: known =>
    if ts ≤ cursor ∧ cursor - ts ≤ forwardFillWindow then candidate cursor forwardFillWindow (some price) known
    else if cursor < ts then found
    else candidate cursor forwardFillWindow found known

def priceRows (table : PriceTable) (biddingZone : String) (lower upper : ℚ) : List PriceRow :=
  Sql.orderBy (fun r r' => r.time ≤ r'.time)
    (table.rows.filter fun r =>
      decide (r.nodeId = biddingZone ∧ r.marketType = "ENTSOE_DAM" ∧ lower ≤ r.time ∧ r.time < upper))

def knownPrices (rows : List PriceRow) : List (ℚ × ℚ) :=
  rows.filterMap fun r => r.lmpPriceMwh.map fun raw => (r.time, raw / 1000)

def fetchPricesByZone (table : PriceTable) (biddingZone : String) (startTime endTime : Stamp)
    (forwardFillWindow : ℚ) : Dict ℚ ℚ :=
  let fetchLower := hourFloorUtc startTime - forwardFillWindow
  let known := knownPrices (priceRows table biddingZone fetchLower (asUtcAware endTime))
  Dict.ofList ((hoursFrom (hourFloorUtc startTime) (asUtcAware endTime)).filterMap fun cursor =>
    (candidate cursor forwardFillWindow none known).map fun price => (cursor, price))

/-! ## Asking the market -/

/-- A price point of the adapter. -/
structure ENTSOEPrice where
  timestamp : Stamp
  priceEurMwh : ℚ
  deriving DecidableEq, Repr

def ENTSOEPrice.pricePerKwh (p : ENTSOEPrice) : ℚ := p.priceEurMwh / 1000

/-- What the adapter does: it raises, or answers with its price points. -/
abbrev Answer := Option (List ENTSOEPrice)

/-- The rows that are stored: those of times for which the window has none. -/
def newRows (table : PriceTable) (biddingZone : String) (startTime endTime : ℚ) (fetched : List ENTSOEPrice) :
    List PriceRow :=
  let existingTimes := (table.rows.filter fun r =>
    decide (r.nodeId = biddingZone ∧ r.marketType = "ENTSOE_DAM" ∧ startTime ≤ r.time ∧ r.time < endTime)).map
      PriceRow.time
  (fetched.filter fun p => decide (asUtcAware p.timestamp ∉ existingTimes)).map fun p =>
    ⟨asUtcAware p.timestamp, biddingZone, "ENTSOE_DAM", some (p.pricePerKwh * 1000)⟩

def missingHours (cached : Dict ℚ ℚ) (startTime endTime : Stamp) : List ℚ :=
  (hoursFrom (hourFloorUtc startTime) (asUtcAware endTime)).filter fun h => decide (h ∉ cached)

/-- The table and the prices after a call; `configured` says that the token of the market is set. -/
def fetchOrPullPricesByZone (table : PriceTable) (configured : Bool) (answer : Answer) (biddingZone : String)
    (startTime endTime : Stamp) (forwardFillWindow : ℚ) : PriceTable × Dict ℚ ℚ :=
  let cached := fetchPricesByZone table biddingZone startTime endTime forwardFillWindow
  if missingHours cached startTime endTime = [] then (table, cached)
  else if !configured then (table, cached)
  else
    match answer with
    | none => (table, cached)
    | some [] => (table, cached)
    | some fetched =>
      let stored := (newRows table biddingZone (asUtcAware startTime) (asUtcAware endTime) fetched).foldl
        PriceTable.insert table
      (stored, fetchPricesByZone stored biddingZone startTime endTime forwardFillWindow)

/-! ## The price of an hour -/

theorem candidate_of_mem {known : List (ℚ × ℚ)} {cursor forwardFillWindow price : ℚ}
    (hsorted : known.Pairwise fun a b => a.1 < b.1) (hwindow : 0 ≤ forwardFillWindow) (hmem : (cursor, price) ∈ known)
    (found : Option ℚ) : candidate cursor forwardFillWindow found known = some price := by
  induction known generalizing found with
  | nil => cases hmem
  | cons head known ih =>
    obtain ⟨ts, price'⟩ := head
    rw [List.pairwise_cons] at hsorted
    rw [candidate]
    rcases List.mem_cons.mp hmem with heq | hmem
    · obtain ⟨rfl, rfl⟩ := Prod.mk.inj heq
      rw [if_pos ⟨le_rfl, by linarith⟩]
      -- the prices that follow are of later times
      cases known with
      | nil => rfl
      | cons next known =>
        have hlater := hsorted.1 next List.mem_cons_self
        rw [candidate, if_neg fun h => absurd h.1 (not_le.mpr hlater), if_pos hlater]
    · have hearlier : ts < cursor := hsorted.1 (cursor, price) hmem
      split
      · exact ih hsorted.2 hmem _
      · rw [if_neg (not_lt.mpr hearlier.le)]
        exact ih hsorted.2 hmem _

theorem mem_priceRows {table : PriceTable} {biddingZone : String} {lower upper : ℚ} {row : PriceRow} :
    row ∈ priceRows table biddingZone lower upper ↔
      row ∈ table.rows ∧ row.nodeId = biddingZone ∧ row.marketType = "ENTSOE_DAM" ∧ lower ≤ row.time ∧
        row.time < upper := by
  rw [priceRows, Sql.mem_orderBy, List.mem_filter, decide_eq_true_eq]

theorem priceRows_pairwise (table : PriceTable) (biddingZone : String) (lower upper : ℚ) :
    (priceRows table biddingZone lower upper).Pairwise fun r r' => r.time < r'.time := by
  have htotal : Std.Total fun r r' : PriceRow => r.time ≤ r'.time := ⟨fun r r' => le_total r.time r'.time⟩
  have htrans : IsTrans PriceRow fun r r' => r.time ≤ r'.time := ⟨fun _ _ _ => le_trans⟩
  have hsorted : (priceRows table biddingZone lower upper).Pairwise fun r r' => r.time ≤ r'.time :=
    Sql.orderBy_pairwise _ _
  have hperm : (priceRows table biddingZone lower upper).Perm _ := List.perm_insertionSort _ _
  have hnodup : ((priceRows table biddingZone lower upper).map PriceRow.key).Nodup :=
    (hperm.map PriceRow.key).nodup_iff.mpr (table.unique.sublist (List.filter_sublist.map PriceRow.key))
  have hne : (priceRows table biddingZone lower upper).Pairwise fun r r' => r.key ≠ r'.key := List.pairwise_map.mp hnodup
  refine (hsorted.and hne).imp_of_mem fun {r r'} hr hr' h => lt_of_le_of_ne h.1 fun htime => h.2 ?_
  obtain ⟨-, hzone, hmarket, -⟩ := mem_priceRows.mp hr
  obtain ⟨-, hzone', hmarket', -⟩ := mem_priceRows.mp hr'
  rw [PriceRow.key, PriceRow.key, htime, hzone, hmarket, hzone', hmarket']

theorem knownPrices_pairwise (table : PriceTable) (biddingZone : String) (lower upper : ℚ) :
    (knownPrices (priceRows table biddingZone lower upper)).Pairwise fun a b => a.1 < b.1 := by
  rw [knownPrices, List.pairwise_filterMap]
  refine (priceRows_pairwise table biddingZone lower upper).imp fun {r r'} hlt a ha a' ha' => ?_
  obtain ⟨raw, -, rfl⟩ := Option.map_eq_some_iff.mp ha
  obtain ⟨raw', -, rfl⟩ := Option.map_eq_some_iff.mp ha'
  exact hlt

section Read

variable {table : PriceTable} {biddingZone : String} {startTime endTime : Stamp} {forwardFillWindow h : ℚ}

theorem get?_fetchPricesByZone_eq_some {price : ℚ} :
    (fetchPricesByZone table biddingZone startTime endTime forwardFillWindow).get? h = some price ↔
      h ∈ hoursFrom (hourFloorUtc startTime) (asUtcAware endTime) ∧
        candidate h forwardFillWindow none (knownPrices
          (priceRows table biddingZone (hourFloorUtc startTime - forwardFillWindow) (asUtcAware endTime))) =
            some price := by
  unfold fetchPricesByZone
  dsimp only
  generalize knownPrices _ = known
  have hkeys : (((hoursFrom (hourFloorUtc startTime) (asUtcAware endTime)).filterMap fun cursor =>
      (candidate cursor forwardFillWindow none known).map fun price => (cursor, price)).map Prod.fst).Nodup := by
    rw [List.map_filterMap]
    refine (hoursFrom_nodup _ _).filterMap fun a a' k hk hk' => ?_
    simp only [Option.map_map, Option.mem_def, Option.map_eq_some_iff, Function.comp_apply] at hk hk'
    obtain ⟨-, -, rfl⟩ := hk
    obtain ⟨-, -, rfl⟩ := hk'
    rfl
  rw [Dict.get?_ofList_of_nodup hkeys, List.mem_filterMap]
  constructor
  · rintro ⟨cursor, hcursor, hsome⟩
    obtain ⟨price', hcandidate, heq⟩ := Option.map_eq_some_iff.mp hsome
    obtain ⟨rfl, rfl⟩ := Prod.mk.inj heq
    exact ⟨hcursor, hcandidate⟩
  · intro hprice
    exact ⟨h, hprice.1, by rw [hprice.2]; rfl⟩

theorem get?_fetchPricesByZone (hmem : h ∈ hoursFrom (hourFloorUtc startTime) (asUtcAware endTime)) :
    (fetchPricesByZone table biddingZone startTime endTime forwardFillWindow).get? h =
      candidate h forwardFillWindow none (knownPrices
        (priceRows table biddingZone (hourFloorUtc startTime - forwardFillWindow) (asUtcAware endTime))) := by
  ext price
  rw [get?_fetchPricesByZone_eq_some]
  exact and_iff_right hmem

theorem get?_fetchPricesByZone_of_mem (hmem : h ∈ hoursFrom (hourFloorUtc startTime) (asUtcAware endTime))
    (hwindow : 0 ≤ forwardFillWindow) {raw : ℚ} (hrow : ⟨h, biddingZone, "ENTSOE_DAM", some raw⟩ ∈ table.rows) :
    (fetchPricesByZone table biddingZone startTime endTime forwardFillWindow).get? h = some (raw / 1000) := by
  rw [get?_fetchPricesByZone hmem]
  refine candidate_of_mem (knownPrices_pairwise ..) hwindow ?_ none
  obtain ⟨hlower, hupper⟩ := mem_hoursFrom hmem
  refine List.mem_filterMap.mpr ⟨_, mem_priceRows.mpr ⟨hrow, rfl, rfl, ?_, hupper⟩, rfl⟩
  show hourFloorUtc startTime - forwardFillWindow ≤ h
  linarith

end Read

def marketPrice (fetched : List ENTSOEPrice) (h : ℚ) : Option ℚ :=
  (fetched.find? fun p => decide (asUtcAware p.timestamp = h)).map ENTSOEPrice.pricePerKwh

/-- The table has a row for the hour, with or without a price. -/
def HasRow (table : PriceTable) (biddingZone : String) (h : ℚ) : Prop :=
  (h, biddingZone, "ENTSOE_DAM") ∈ table.rows.map PriceRow.key

theorem mem_stored {table : PriceTable} {biddingZone : String} {startTime endTime h price : ℚ}
    {fetched : List ENTSOEPrice} (hrow : ¬HasRow table biddingZone h) (hprice : marketPrice fetched h = some price) :
    ⟨h, biddingZone, "ENTSOE_DAM", some (price * 1000)⟩ ∈
      ((newRows table biddingZone startTime endTime fetched).foldl PriceTable.insert table).rows := by
  obtain ⟨p, hfind, rfl⟩ := Option.map_eq_some_iff.mp hprice
  refine PriceTable.mem_foldl_insert hrow ?_
  obtain rfl : asUtcAware p.timestamp = h := by simpa using List.find?_some hfind
  have hnone : asUtcAware p.timestamp ∉ (table.rows.filter fun r =>
      decide (r.nodeId = biddingZone ∧ r.marketType = "ENTSOE_DAM" ∧ startTime ≤ r.time ∧ r.time < endTime)).map
        PriceRow.time := by
    intro hmem
    obtain ⟨r, hr, htime⟩ := List.mem_map.mp hmem
    rw [List.mem_filter, decide_eq_true_eq] at hr
    obtain ⟨hr, hzone, hmarket, -⟩ := hr
    exact hrow (List.mem_map.mpr ⟨r, hr, by rw [PriceRow.key, htime, hzone, hmarket]⟩)
  unfold newRows
  dsimp only
  rw [List.find?_map, List.find?_filter]
  -- of the points that are kept, those with the key of the hour are the points of the hour
  have hpred : (fun a => decide (decide (asUtcAware a.timestamp ∉ (table.rows.filter fun r =>
      decide (r.nodeId = biddingZone ∧ r.marketType = "ENTSOE_DAM" ∧ startTime ≤ r.time ∧ r.time < endTime)).map
        PriceRow.time) = true ∧
      ((fun r : PriceRow => decide (r.key = (asUtcAware p.timestamp, biddingZone, "ENTSOE_DAM"))) ∘
        fun p : ENTSOEPrice => (⟨asUtcAware p.timestamp, biddingZone, "ENTSOE_DAM", some (p.pricePerKwh * 1000)⟩ :
          PriceRow)) a = true)) =
      fun a : ENTSOEPrice => decide (asUtcAware a.timestamp = asUtcAware p.timestamp) := by
    funext a
    simp only [Function.comp_apply, decide_eq_true_eq, decide_eq_decide, PriceRow.key, Prod.mk.injEq, and_true]
    constructor
    · exact And.right
    · intro heq
      exact ⟨heq ▸ hnone, heq⟩
  exact (congrArg (fun q => (fetched.find? q).map _) hpred).trans (by rw [hfind]; rfl)

/-- **The price of an hour.**  When the market is configured and answers: the table's own price of an hour is returned;
the filled prices are returned as they are when they cover the window; and when they do not, an hour for which the table
has no row gets the market's own price. -/
theorem fetchOrPull_own_price (table : PriceTable) (biddingZone : String) (startTime endTime : Stamp)
    (forwardFillWindow : ℚ) (hwindow : 0 ≤ forwardFillWindow) (fetched : List ENTSOEPrice) :
    let cached := fetchPricesByZone table biddingZone startTime endTime forwardFillWindow
    let result := (fetchOrPullPricesByZone table true (some fetched) biddingZone startTime endTime forwardFillWindow).2
    (∀ h ∈ hoursFrom (hourFloorUtc startTime) (asUtcAware endTime), ∀ raw,
      ⟨h, biddingZone, "ENTSOE_DAM", some raw⟩ ∈ table.rows → result.get? h = some (raw / 1000)) ∧
    (missingHours cached startTime endTime = [] → result = cached) ∧
    (missingHours cached startTime endTime ≠ [] →
      ∀ h ∈ hoursFrom (hourFloorUtc startTime) (asUtcAware endTime), ¬HasRow table biddingZone h →
        ∀ price, marketPrice fetched h = some price → result.get? h = some price) := by
  intro cached result
  by_cases hmissing : missingHours cached startTime endTime = []
  · have hresult : result = cached := by
      show (fetchOrPullPricesByZone ..).2 = _
      unfold fetchOrPullPricesByZone
      dsimp only
      rw [if_pos hmissing]
    refine ⟨fun h hmem raw hrow => ?_, fun _ => hresult, fun hne => absurd hmissing hne⟩
    rw [hresult]
    exact get?_fetchPricesByZone_of_mem hmem hwindow hrow
  · cases fetched with
    | nil =>
      have hresult : result = cached := by
        show (fetchOrPullPricesByZone ..).2 = _
        unfold fetchOrPullPricesByZone
        dsimp only
        rw [if_neg hmissing]
        rfl
      refine ⟨fun h hmem raw hrow => ?_, fun _ => hresult, fun _ h hmem hrow price hprice => nomatch hprice⟩
      rw [hresult]
      exact get?_fetchPricesByZone_of_mem hmem hwindow hrow
    | cons p fetched =>
      have hresult : result = fetchPricesByZone
          ((newRows table biddingZone (asUtcAware startTime) (asUtcAware endTime) (p :: fetched)).foldl
            PriceTable.insert table) biddingZone startTime endTime forwardFillWindow := by
        show (fetchOrPullPricesByZone ..).2 = _
        unfold fetchOrPullPricesByZone
        dsimp only
        rw [if_neg hmissing]
        rfl
      refine ⟨fun h hmem raw hrow => ?_, fun hnil => absurd hnil hmissing, fun _ h hmem hrow price hprice => ?_⟩
      · rw [hresult]
        exact get?_fetchPricesByZone_of_mem hmem hwindow (PriceTable.mem_foldl_insert_of_mem hrow _)
      · rw [hresult, get?_fetchPricesByZone_of_mem hmem hwindow (mem_stored hrow hprice),
          mul_div_cancel_right₀ price (by norm_num)]

/-- The clock time of one day. -/
def hour (h : ℚ) : Stamp := .aware (3600 * h)

def noonTable (emptyRow : Bool) : PriceTable :=
  let noon : PriceRow := ⟨3600 * 12, "Z", "ENTSOE_DAM", some 100⟩
  if emptyRow then ⟨[noon, ⟨3600 * 13, "Z", "ENTSOE_DAM", none⟩], by decide +kernel⟩
  else ⟨[noon], by decide +kernel⟩

def afternoonPrices : List ENTSOEPrice := [⟨hour 13, 200⟩, ⟨hour 14, 300⟩, ⟨hour 15, 400⟩]

/-- The hour after noon keeps the price of noon, though the market has another one: when it is the only hour that is
asked for, and when its row is there without a price. -/
theorem filled_in_place_of_market :
    (marketPrice afternoonPrices (3600 * 13) = some (1 / 5) ∧
      (fetchOrPullPricesByZone (noonTable false) true (some afternoonPrices) "Z" (hour 13) (hour 14) 3600).2.get?
        (3600 * 13) = some (1 / 10)) ∧
    (fetchOrPullPricesByZone (noonTable true) true (some afternoonPrices) "Z" (hour 13) (hour 15) 3600).2.get?
      (3600 * 13) = some (1 / 10) := by
  decide +kernel

/-- Asked for two hours, the market's price of the first one is returned. -/
theorem fetchOrPull_own_price_afternoon :
    (fetchOrPullPricesByZone (noonTable false) true (some afternoonPrices) "Z" (hour 13) (hour 15) 3600).2.get?
      (3600 * 13) = some (1 / 5) :=
  (fetchOrPull_own_price (noonTable false) "Z" (hour 13) (hour 15) 3600 (by norm_num) afternoonPrices).2.2
    (by decide +kernel) (3600 * 13) (by decide +kernel) (by unfold HasRow; decide +kernel) (1 / 5) (by decide +kernel)

end FavoniusBackend.Billing.PriceReadThrough
