import FavoniusBackend.Lib.Numeric
import FavoniusBackend.Lib.Run

/-!
# Historical sessions that are imported again

`import_historical_charging_session` of `api/main.py`, from the resolved request on: the cost of the
session (`_resolve_session_cost`, with the hourly prices of `charging_import/price_source.py`) and the
UPSERT that merges it into the row of an earlier import.

Each column merges under its own rule.  The end time is overwritten when the import carries one, the
energy and the cost when they are positive, everything else only where it is missing.  The cost is
resolved from the import alone, so it may not be the cost of the merged row, and a cost that is not
positive never arrives.

A session stays coherent as long as complete imports bring numbers that arrive, and the others leave a
row alone whose cost comes from prices (`keeps_of_clear`).  Importing the same row twice changes
nothing (`upsert_again`).
-/

namespace FavoniusBackend.Billing.HistoricalImport

open Lib.Numeric Lib.Run

/-! ### The average price -/

/-- The average of the prices stored for each UTC hour, where there are any. -/
abbrev HourPrices := ℤ → Option ℚ

def hourBucket (t : ℚ) : ℤ := ⌊t / 3600⌋

def buckets (start stop : ℚ) : List ℤ :=
  let startBucket := hourBucket start
  let lastBucket := max startBucket (hourBucket (stop - 1 / 1000000))
  (List.range (lastBucket - startBucket + 1).toNat).map fun (k : ℕ) => startBucket + (k : ℤ)

def overlapSeconds (start stop : ℚ) (bucket : ℤ) : ℚ :=
  min stop (3600 * (bucket + 1)) - max start (3600 * bucket)

/-- The loop over the buckets, with `total_weighted_price` and `total_seconds`. -/
def weighBuckets (prices : HourPrices) (start stop : ℚ) : List ℤ → ℚ → ℚ → Option (ℚ × ℚ)
  | [], weighted, seconds => some (weighted, seconds)
  | bucket :: rest, weighted, seconds =>
    match prices bucket with
    | none => none
    | some price =>
      let overlap := overlapSeconds start stop bucket
      if overlap ≤ 0 then weighBuckets prices start stop rest weighted seconds
      else weighBuckets prices start stop rest (weighted + price * overlap) (seconds + overlap)

def averagePricePerKwh (prices : HourPrices) (start stop : ℚ) : Option ℚ :=
  if stop ≤ start then none
  else
    match weighBuckets prices start stop (buckets start stop) 0 0 with
    | none => none
    | some (weighted, seconds) => if seconds ≤ 0 then none else some (weighted / seconds)

def resolveSessionCost (prices : HourPrices) (startTime : ℚ) (endTime : Option ℚ)
    (energyKwh fallbackRevenue : ℚ) : ℚ :=
  match endTime with
  | none => fallbackRevenue
  | some stop =>
    if energyKwh ≤ 0 then fallbackRevenue
    else
      match averagePricePerKwh prices startTime stop with
      | none => fallbackRevenue
      | some avgPrice => quantize 6 (energyKwh * avgPrice)

def derivedCost (prices : HourPrices) (startTime : ℚ) (endTime : Option ℚ) (energyKwh : ℚ) : Option ℚ :=
  endTime.bind fun stop =>
    if energyKwh ≤ 0 then none
    else (averagePricePerKwh prices startTime stop).map fun avgPrice => quantize 6 (energyKwh * avgPrice)

theorem resolveSessionCost_eq (prices : HourPrices) (startTime : ℚ) (endTime : Option ℚ)
    (energyKwh revenue : ℚ) :
    resolveSessionCost prices startTime endTime energyKwh revenue =
      (derivedCost prices startTime endTime energyKwh).getD revenue := by
  cases endTime with
  | none => rfl
  | some stop =>
    by_cases henergy : energyKwh ≤ 0
    · simp [resolveSessionCost, derivedCost, henergy]
    · cases hprice : averagePricePerKwh prices startTime stop with
      | none => simp [resolveSessionCost, derivedCost, henergy, hprice]
      | some avgPrice => simp [resolveSessionCost, derivedCost, henergy, hprice]

/-! ### The row -/

/-- An accepted request: the identity it resolved to and the columns it writes. -/
structure SessionImport where
  vehicleId : Option String
  driverId : Option String
  cardId : Option String
  endTime : Option ℚ
  energyDeliveredKwh : ℚ
  revenue : ℚ
  userFullName : Option String
  stationOwnerFullName : Option String
  status : Option String
  deriving DecidableEq, Repr

/-- What the UPSERT reads and writes of a row of `charging_sessions`. -/
structure SessionRow where
  startTime : ℚ
  vehicleId : Option String
  driverId : Option String
  cardId : Option String
  endTime : Option ℚ
  energyDeliveredKwh : Option ℚ
  costTotal : Option ℚ
  importUserFullName : Option String
  importStationOwner : Option String
  importStatus : Option String
  deriving DecidableEq, Repr

/-- `energy_delivered_kwh` is `DECIMAL(10,3)`, `cost_total` is `DECIMAL(10,2)`. -/
def energyColumn (q : ℚ) : Option ℚ := numericColumn 10 3 q

def costColumn (q : ℚ) : Option ℚ := numericColumn 10 2 q

def insertedRow (startTime : ℚ) (request : SessionImport) (energy cost : ℚ) : SessionRow where
  startTime := startTime
  vehicleId := request.vehicleId
  driverId := request.driverId
  cardId := request.cardId
  endTime := request.endTime
  energyDeliveredKwh := some energy
  costTotal := some cost
  importUserFullName := request.userFullName
  importStationOwner := request.stationOwnerFullName
  importStatus := request.status

/-- The rule of the two numbers: a positive value, or any where there is none. -/
def refresh (stored : Option ℚ) (excluded : ℚ) : Option ℚ :=
  match stored with
  | none => some excluded
  | some old => if 0 < excluded then some excluded else some old

/-- `DO UPDATE SET`. -/
def mergedRow (row : SessionRow) (request : SessionImport) (energy cost : ℚ) : SessionRow where
  startTime := row.startTime
  vehicleId := row.vehicleId.or request.vehicleId
  driverId := row.driverId.or request.driverId
  cardId := row.cardId.or request.cardId
  endTime := request.endTime.or row.endTime
  energyDeliveredKwh := refresh row.energyDeliveredKwh energy
  costTotal := refresh row.costTotal cost
  importUserFullName := row.importUserFullName.or request.userFullName
  importStationOwner := row.importStationOwner.or request.stationOwnerFullName
  importStatus := row.importStatus.or request.status

section Session

variable (prices : HourPrices) (startTime : ℚ)

def importCost (request : SessionImport) : ℚ :=
  resolveSessionCost prices startTime request.endTime request.energyDeliveredKwh request.revenue

/-- The two numbers as the columns take them; `none` is a numeric field overflow. -/
def importColumns (request : SessionImport) : Option (ℚ × ℚ) := do
  let energy ← energyColumn request.energyDeliveredKwh
  let cost ← costColumn (importCost prices startTime request)
  return (energy, cost)

/-- The statement, on the row with the request's `import_row_hash`. -/
def upsert (row : Option SessionRow) (request : SessionImport) : Option SessionRow :=
  (importColumns prices startTime request).map fun columns =>
    match row with
    | none => insertedRow startTime request columns.1 columns.2
    | some stored => mergedRow stored request columns.1 columns.2

/-! ### Runs -/

structure History where
  row : Option SessionRow
  revenues : List ℚ

def History.start : History := ⟨none, []⟩

/-- One request; a rejected one leaves everything as it is. -/
def importStep (h : History) (request : SessionImport) : History :=
  match upsert prices startTime h.row request with
  | none => h
  | some row => ⟨some row, h.revenues ++ [request.revenue]⟩

/-- The stored cost is that of the stored metering, with the revenue of one of the imports. -/
def Coherent (revenues : List ℚ) (row : SessionRow) : Prop :=
  ∃ revenue ∈ revenues, row.costTotal = costColumn (resolveSessionCost prices row.startTime row.endTime
    (row.energyDeliveredKwh.getD 0) revenue)

def Complete (request : SessionImport) : Prop :=
  request.endTime.isSome = true ∧ 0 < request.energyDeliveredKwh

instance (request : SessionImport) : Decidable (Complete request) :=
  inferInstanceAs (Decidable (_ ∧ _))

/-- The row holds exactly the metering and the cost of the import. -/
structure Carries (request : SessionImport) (row : SessionRow) : Prop where
  endTime : row.endTime = request.endTime
  energy : row.energyDeliveredKwh = energyColumn request.energyDeliveredKwh
  cost : row.costTotal = costColumn (importCost prices startTime request)

/-- What is promised after an accepted import. -/
structure KeepsSession (h : History) (request : SessionImport) (row : SessionRow) : Prop where
  coherent : Coherent prices (h.revenues ++ [request.revenue]) row
  carries : Complete request → Carries prices startTime request row
  again : upsert prices startTime (some row) request = some row

def Keeps (h : History) (request : SessionImport) : Prop :=
  ∀ row, upsert prices startTime h.row request = some row → KeepsSession prices startTime h request row

/-! ### The condition -/

def costsTheSame (request : SessionImport) (energy : ℚ) : Bool :=
  decide (costColumn (importCost prices startTime request) =
    costColumn (resolveSessionCost prices startTime request.endTime energy request.revenue))

def arrives (stored : Option ℚ) (excluded : ℚ) : Bool := decide (0 < excluded ∨ stored = some excluded)

/-- There is no end, or the hours until then are not all priced. -/
def unpriced (endTime : Option ℚ) : Bool := (endTime.bind (averagePricePerKwh prices startTime)).isNone

def hasRevenue (stored : SessionRow) : Bool :=
  unpriced prices startTime stored.endTime || decide (stored.energyDeliveredKwh.getD 0 ≤ 0)

def leavesCost (stored : SessionRow) (request : SessionImport) (energy cost : ℚ) : Bool :=
  -- Neither has energy.
  decide (energy ≤ 0 ∧ stored.energyDeliveredKwh.getD 0 ≤ 0) ||
  match request.endTime with
  -- The row's end has no prices; or the import repeats what is stored.
  | none => unpriced prices startTime stored.endTime ||
      (decide (energy ≤ 0) || decide (stored.energyDeliveredKwh = some energy)) &&
        (decide (cost ≤ 0) || decide (stored.costTotal = some cost))
  -- The new end has no prices, and the cost is a revenue; or the import repeats what is stored.
  | some stop => unpriced prices startTime (some stop) &&
        (decide (0 < cost) || hasRevenue prices startTime stored) ||
      decide (energy ≤ 0 ∧ stored.endTime = some stop) &&
        (decide (cost ≤ 0) || decide (stored.costTotal = some cost))

def Clear (h : History) (request : SessionImport) : Bool :=
  match importColumns prices startTime request with
  | none => true
  | some (energy, cost) =>
    match h.row with
    | none => costsTheSame prices startTime request energy
    | some stored =>
      if Complete request then
        costsTheSame prices startTime request energy && arrives stored.energyDeliveredKwh energy &&
          arrives stored.costTotal cost
      else leavesCost prices startTime stored request energy cost

/-- What the runs keep: the row's own start, its numbers, and a cost that is that of its metering. -/
structure Kept (h : History) : Prop where
  start : ∀ row, h.row = some row → row.startTime = startTime
  energy : ∀ row, h.row = some row → row.energyDeliveredKwh.isSome = true
  cost : ∀ row, h.row = some row → row.costTotal.isSome = true
  coherent : ∀ row, h.row = some row → Coherent prices h.revenues row

/-! ### What the UPSERT leaves -/

theorem importColumns_eq_some {request : SessionImport} {columns : ℚ × ℚ}
    (h : importColumns prices startTime request = some columns) :
    energyColumn request.energyDeliveredKwh = some columns.1 ∧
      costColumn (importCost prices startTime request) = some columns.2 := by
  unfold importColumns at h
  rw [Option.bind_eq_bind, Option.bind_eq_some_iff] at h
  obtain ⟨energy, henergy, h⟩ := h
  obtain ⟨cost, hcost, h⟩ := Option.bind_eq_some_iff.mp h
  obtain rfl := Option.some.inj h
  exact ⟨henergy, hcost⟩

theorem refresh_again (stored : Option ℚ) (excluded : ℚ) :
    refresh (refresh stored excluded) excluded = refresh stored excluded := by
  cases stored with
  | none => simp [refresh]
  | some old =>
    by_cases hpos : 0 < excluded
    · simp [refresh, hpos]
    · simp [refresh, hpos]

theorem refresh_of_arrives {stored : Option ℚ} {excluded : ℚ} (h : arrives stored excluded = true) :
    refresh stored excluded = some excluded := by
  rcases of_decide_eq_true h with hpos | rfl
  · cases stored with
    | none => rfl
    | some old => rw [refresh, if_pos hpos]
  · simp [refresh]

theorem refresh_of_nonpos {stored : Option ℚ} (hstored : stored.isSome = true) {excluded : ℚ} (h : excluded ≤ 0) :
    refresh stored excluded = stored := by
  obtain ⟨old, rfl⟩ := Option.isSome_iff_exists.mp hstored
  rw [refresh, if_neg (not_lt.mpr h)]

theorem refresh_of_repeated {stored : Option ℚ} (hstored : stored.isSome = true) {excluded : ℚ}
    (h : excluded ≤ 0 ∨ stored = some excluded) : refresh stored excluded = stored := by
  rcases h with hle | hsame
  · exact refresh_of_nonpos hstored hle
  · rw [refresh_of_arrives (decide_eq_true (.inr hsame)), hsame]

theorem or_again {α : Type} (a b : Option α) : (a.or b).or b = a.or b := by
  cases a with
  | none => simp
  | some _ => rfl

theorem again_or {α : Type} (a b : Option α) : a.or (a.or b) = a.or b := by
  cases a with
  | none => rfl
  | some _ => rfl

/-- **The same import again** changes nothing. -/
theorem upsert_again {row : Option SessionRow} {request : SessionImport} {stored : SessionRow}
    (h : upsert prices startTime row request = some stored) :
    upsert prices startTime (some stored) request = some stored := by
  unfold upsert at h ⊢
  obtain ⟨columns, hcolumns, hrow⟩ := Option.map_eq_some_iff.mp h
  rw [hcolumns, Option.map_some]
  congr 1
  cases row with
  | none =>
    obtain rfl := hrow
    simp [mergedRow, insertedRow, refresh]
  | some old =>
    obtain rfl := hrow
    simp [mergedRow, refresh_again, or_again, again_or]

theorem refresh_isSome (stored : Option ℚ) (excluded : ℚ) : (refresh stored excluded).isSome = true := by
  cases stored with
  | none => rfl
  | some old =>
    by_cases hpos : 0 < excluded
    · simp [refresh, hpos]
    · simp [refresh, hpos]

/-! ### One import -/

theorem derivedCost_eq_none {endTime : Option ℚ} {energy : ℚ}
    (h : unpriced prices startTime endTime = true ∨ energy ≤ 0) :
    derivedCost prices startTime endTime energy = none := by
  unfold derivedCost
  cases endTime with
  | none => rfl
  | some stop =>
    by_cases henergy : energy ≤ 0
    · simp [henergy]
    · have hnone := Option.isNone_iff_eq_none.mp (h.resolve_right henergy)
      rw [Option.bind_some] at hnone ⊢
      rw [if_neg henergy, hnone]
      rfl

theorem importCost_of_not_complete {request : SessionImport} (h : ¬ Complete request) :
    importCost prices startTime request = request.revenue := by
  unfold importCost resolveSessionCost
  cases hend : request.endTime with
  | none => rfl
  | some stop =>
    have henergy : request.energyDeliveredKwh ≤ 0 := by
      by_contra hpos
      exact h ⟨by rw [hend]; rfl, not_le.mp hpos⟩
    dsimp only
    rw [if_pos henergy]

variable {startTime}

theorem coherent_of_revenue {revenues : List ℚ} {row : SessionRow}
    (hnone : derivedCost prices row.startTime row.endTime (row.energyDeliveredKwh.getD 0) = none)
    (h : ∃ revenue ∈ revenues, row.costTotal = costColumn revenue) : Coherent prices revenues row := by
  obtain ⟨revenue, hmem, hcost⟩ := h
  refine ⟨revenue, hmem, ?_⟩
  rw [resolveSessionCost_eq, hnone]
  exact hcost

theorem revenue_of_coherent {revenues : List ℚ} {row : SessionRow} (h : Coherent prices revenues row)
    (hnone : derivedCost prices row.startTime row.endTime (row.energyDeliveredKwh.getD 0) = none) :
    ∃ revenue ∈ revenues, row.costTotal = costColumn revenue := by
  obtain ⟨revenue, hmem, hcost⟩ := h
  rw [resolveSessionCost_eq, hnone] at hcost
  exact ⟨revenue, hmem, hcost⟩

theorem Coherent.append {revenues : List ℚ} {row : SessionRow} (h : Coherent prices revenues row) (revenue : ℚ) :
    Coherent prices (revenues ++ [revenue]) row := by
  obtain ⟨r, hmem, hcost⟩ := h
  exact ⟨r, List.mem_append_left _ hmem, hcost⟩

theorem derivedCost_of_hasRevenue {stored : SessionRow} (hstart : stored.startTime = startTime)
    (h : hasRevenue prices startTime stored = true) :
    derivedCost prices stored.startTime stored.endTime (stored.energyDeliveredKwh.getD 0) = none := by
  rw [hstart]
  exact derivedCost_eq_none prices startTime ((Bool.or_eq_true_iff.mp h).imp_right of_decide_eq_true)

variable {h : History} {stored : SessionRow} {request : SessionImport} {energy cost : ℚ}

/-- Where the merged row has nothing to derive its cost from: a positive cost of the import is its revenue, and a cost
that stays is one already. -/
theorem coherent_merged_of_revenue (hs : Kept prices startTime h) (hrow : h.row = some stored)
    (hcost : costColumn request.revenue = some cost)
    (hnone : derivedCost prices startTime (request.endTime.or stored.endTime)
      ((refresh stored.energyDeliveredKwh energy).getD 0) = none)
    (hstays : 0 < cost ∨ hasRevenue prices startTime stored = true) :
    Coherent prices (h.revenues ++ [request.revenue]) (mergedRow stored request energy cost) := by
  refine coherent_of_revenue prices ?_ ?_
  · show derivedCost prices stored.startTime _ _ = none
    rw [hs.start stored hrow]
    exact hnone
  · by_cases hpos : 0 < cost
    · refine ⟨request.revenue, List.mem_append_right _ (List.mem_singleton_self _), ?_⟩
      show refresh stored.costTotal cost = _
      rw [refresh_of_arrives (decide_eq_true (.inl hpos)), hcost]
    · obtain ⟨revenue, hmem, hrevenue⟩ := revenue_of_coherent prices (hs.coherent stored hrow)
        (derivedCost_of_hasRevenue prices (hs.start stored hrow) (hstays.resolve_left hpos))
      refine ⟨revenue, List.mem_append_left _ hmem, ?_⟩
      show refresh stored.costTotal cost = _
      rw [refresh_of_nonpos (hs.cost stored hrow) (not_lt.mp hpos), hrevenue]

theorem coherent_merged_of_repeated (hs : Kept prices startTime h) (hrow : h.row = some stored)
    (hend : request.endTime.or stored.endTime = stored.endTime)
    (henergy : energy ≤ 0 ∨ stored.energyDeliveredKwh = some energy)
    (hcost : cost ≤ 0 ∨ stored.costTotal = some cost) :
    Coherent prices (h.revenues ++ [request.revenue]) (mergedRow stored request energy cost) := by
  obtain ⟨revenue, hmem, hcoherent⟩ := (hs.coherent stored hrow).append prices request.revenue
  refine ⟨revenue, hmem, ?_⟩
  show refresh stored.costTotal cost = costColumn (resolveSessionCost prices stored.startTime
    (request.endTime.or stored.endTime) ((refresh stored.energyDeliveredKwh energy).getD 0) revenue)
  rw [hend, refresh_of_repeated (hs.energy stored hrow) henergy, refresh_of_repeated (hs.cost stored hrow) hcost]
  exact hcoherent

theorem coherent_merged_of_leavesCost (hs : Kept prices startTime h) (hrow : h.row = some stored)
    (hcost : costColumn request.revenue = some cost)
    (hclear : leavesCost prices startTime stored request energy cost = true) :
    Coherent prices (h.revenues ++ [request.revenue]) (mergedRow stored request energy cost) := by
  unfold leavesCost at hclear
  rcases Bool.or_eq_true_iff.mp hclear with hnone | hbrings
  · obtain ⟨henergy, hstored⟩ := of_decide_eq_true hnone
    refine coherent_merged_of_revenue prices hs hrow hcost (derivedCost_eq_none prices startTime (.inr ?_))
      (.inr (Bool.or_eq_true_iff.mpr (.inr (decide_eq_true hstored))))
    rw [refresh_of_nonpos (hs.energy stored hrow) henergy]
    exact hstored
  · cases hend : request.endTime with
    | none =>
      rw [hend] at hbrings
      rcases Bool.or_eq_true_iff.mp hbrings with hunpriced | hrepeats
      · refine coherent_merged_of_revenue prices hs hrow hcost (derivedCost_eq_none prices startTime (.inl ?_))
          (.inr (Bool.or_eq_true_iff.mpr (.inl hunpriced)))
        rw [hend]
        exact hunpriced
      · obtain ⟨henergy, hrepeated⟩ := Bool.and_eq_true_iff.mp hrepeats
        exact coherent_merged_of_repeated prices hs hrow (by rw [hend]; rfl)
          ((Bool.or_eq_true_iff.mp henergy).imp of_decide_eq_true of_decide_eq_true)
          ((Bool.or_eq_true_iff.mp hrepeated).imp of_decide_eq_true of_decide_eq_true)
    | some stop =>
      rw [hend] at hbrings
      rcases Bool.or_eq_true_iff.mp hbrings with hnew | hrepeats
      · obtain ⟨hunpriced, hstays⟩ := Bool.and_eq_true_iff.mp hnew
        refine coherent_merged_of_revenue prices hs hrow hcost (derivedCost_eq_none prices startTime (.inl ?_))
          ((Bool.or_eq_true_iff.mp hstays).imp_left of_decide_eq_true)
        rw [hend]
        exact hunpriced
      · obtain ⟨hsame, hrepeated⟩ := Bool.and_eq_true_iff.mp hrepeats
        obtain ⟨henergy, hstop⟩ := of_decide_eq_true hsame
        exact coherent_merged_of_repeated prices hs hrow (by rw [hend, hstop]; rfl) (.inl henergy)
          ((Bool.or_eq_true_iff.mp hrepeated).imp of_decide_eq_true of_decide_eq_true)

theorem carries_merged {columns : ℚ × ℚ} (hcolumns : importColumns prices startTime request = some columns)
    (hcomplete : Complete request) (henergy : arrives stored.energyDeliveredKwh columns.1 = true)
    (hcost : arrives stored.costTotal columns.2 = true) :
    Carries prices startTime request (mergedRow stored request columns.1 columns.2) := by
  obtain ⟨henergy', hcost'⟩ := importColumns_eq_some prices startTime hcolumns
  obtain ⟨stop, hstop⟩ := Option.isSome_iff_exists.mp hcomplete.1
  refine ⟨?_, ?_, ?_⟩
  · show request.endTime.or stored.endTime = request.endTime
    rw [hstop]
    rfl
  · rw [henergy']
    exact refresh_of_arrives henergy
  · rw [hcost']
    exact refresh_of_arrives hcost

theorem coherent_of_carries {row : SessionRow} (hrow : Carries prices startTime request row)
    (hstart : row.startTime = startTime) (henergy : energyColumn request.energyDeliveredKwh = some energy)
    (hsame : costsTheSame prices startTime request energy = true) :
    Coherent prices (h.revenues ++ [request.revenue]) row := by
  rw [costsTheSame, decide_eq_true_iff] at hsame
  have hmem : request.revenue ∈ h.revenues ++ [request.revenue] :=
    List.mem_append_right _ (List.mem_singleton_self _)
  refine ⟨request.revenue, hmem, ?_⟩
  rw [hrow.cost, hsame, hstart, hrow.endTime, hrow.energy, henergy, Option.getD_some]

theorem clear_first (hcolumns : importColumns prices startTime request = some (energy, cost)) (hrow : h.row = none) :
    Clear prices startTime h request = costsTheSame prices startTime request energy := by
  unfold Clear
  rw [hcolumns, hrow]

theorem clear_later (hcolumns : importColumns prices startTime request = some (energy, cost))
    (hrow : h.row = some stored) :
    Clear prices startTime h request =
      if Complete request then
        costsTheSame prices startTime request energy && arrives stored.energyDeliveredKwh energy &&
          arrives stored.costTotal cost
      else leavesCost prices startTime stored request energy cost := by
  unfold Clear
  rw [hcolumns, hrow]

theorem keeps_first (hrow : h.row = none) (hcolumns : importColumns prices startTime request = some (energy, cost))
    (hclear : Clear prices startTime h request = true)
    (hagain : upsert prices startTime (some (insertedRow startTime request energy cost)) request =
      some (insertedRow startTime request energy cost)) :
    KeepsSession prices startTime h request (insertedRow startTime request energy cost) := by
  obtain ⟨henergy, hcost⟩ := importColumns_eq_some prices startTime hcolumns
  rw [clear_first prices hcolumns hrow] at hclear
  have hcarries : Carries prices startTime request (insertedRow startTime request energy cost) :=
    ⟨rfl, henergy.symm, hcost.symm⟩
  exact ⟨coherent_of_carries prices hcarries rfl henergy hclear, fun _ => hcarries, hagain⟩

theorem keeps_later (hs : Kept prices startTime h) (hrow : h.row = some stored)
    (hcolumns : importColumns prices startTime request = some (energy, cost))
    (hclear : Clear prices startTime h request = true)
    (hagain : upsert prices startTime (some (mergedRow stored request energy cost)) request =
      some (mergedRow stored request energy cost)) :
    KeepsSession prices startTime h request (mergedRow stored request energy cost) := by
  obtain ⟨henergy, hcost⟩ := importColumns_eq_some prices startTime hcolumns
  rw [clear_later prices hcolumns hrow] at hclear
  by_cases hcomplete : Complete request
  · rw [if_pos hcomplete] at hclear
    obtain ⟨hboth, hcost'⟩ := Bool.and_eq_true_iff.mp hclear
    obtain ⟨hsame, henergy'⟩ := Bool.and_eq_true_iff.mp hboth
    have hcarries := carries_merged prices hcolumns hcomplete henergy' hcost'
    exact ⟨coherent_of_carries prices hcarries (hs.start stored hrow) henergy hsame, fun _ => hcarries, hagain⟩
  · rw [if_neg hcomplete] at hclear
    rw [importCost_of_not_complete prices startTime hcomplete] at hcost
    exact ⟨coherent_merged_of_leavesCost prices hs hrow hcost hclear, fun h => absurd h hcomplete, hagain⟩

/-- **A clear import keeps the promise.** -/
theorem keeps_of_kept (hs : Kept prices startTime h) (hclear : Clear prices startTime h request = true) :
    Keeps prices startTime h request := by
  intro row hrow
  have hagain := upsert_again prices startTime hrow
  unfold upsert at hrow
  obtain ⟨⟨energy, cost⟩, hcolumns, heq⟩ := Option.map_eq_some_iff.mp hrow
  cases hold : h.row with
  | none =>
    rw [hold] at heq
    subst heq
    exact keeps_first prices hold hcolumns hclear hagain
  | some stored =>
    rw [hold] at heq
    subst heq
    exact keeps_later prices hs hold hcolumns hclear hagain

theorem Kept.importStep (hs : Kept prices startTime h) (hclear : Clear prices startTime h request = true) :
    Kept prices startTime (importStep prices startTime h request) := by
  have hkeeps := keeps_of_kept prices hs hclear
  unfold HistoricalImport.importStep
  split
  · exact hs
  · rename_i row hrow
    have hcoherent := (hkeeps row hrow).coherent
    unfold upsert at hrow
    obtain ⟨columns, hcolumns, rfl⟩ := Option.map_eq_some_iff.mp hrow
    constructor
    · intro row heq
      obtain rfl := Option.some.inj heq
      cases hold : h.row with
      | none => rfl
      | some stored => exact hs.start stored hold
    · intro row heq
      obtain rfl := Option.some.inj heq
      cases hold : h.row with
      | none => rfl
      | some stored => exact refresh_isSome _ _
    · intro row heq
      obtain rfl := Option.some.inj heq
      cases hold : h.row with
      | none => rfl
      | some stored => exact refresh_isSome _ _
    · intro row heq
      obtain rfl := Option.some.inj heq
      exact hcoherent

end Session

/-- **A session stays coherent under clear imports.**  For all hourly prices and every sequence of imports of one
session in which the energy and the cost of every complete import arrive, rounded alike, and every other import leaves a
cost alone that comes from prices: after each accepted import the stored cost is that of the stored metering, a
complete import is stored as it is, and repeating it changes nothing. -/
theorem keeps_of_clear (prices : HourPrices) (startTime : ℚ) (requests : List SessionImport)
    (hclear : Along (importStep prices startTime) (fun h request => Clear prices startTime h request = true)
      .start requests) :
    Along (importStep prices startTime) (Keeps prices startTime) .start requests := by
  have hstart : Kept prices startTime .start := by
    constructor <;> intro row h <;> cases h
  refine Along.imp ?_ hstart hclear
  intro h request hop hs
  exact ⟨keeps_of_kept prices hs hop, hs.importStep prices hop⟩

def twoHours : HourPrices := fun hour => if hour = 0 then some (1 / 5) else if hour = 1 then some (-1) else none

def tenKwhUntil (stop : ℚ) : SessionImport where
  vehicleId := none
  driverId := none
  cardId := none
  endTime := some stop
  energyDeliveredKwh := 10
  revenue := 0
  userFullName := none
  stationOwnerFullName := none
  status := some "Finished"

/-- The session is first imported while it is open, with a revenue of 3, then when it has ended, and then once more
without its end. -/
theorem closed_session_keeps :
    Along (importStep twoHours 0) (Keeps twoHours 0) .start
      [{ tenKwhUntil 0 with endTime := none, revenue := 3 }, tenKwhUntil 3600,
        { tenKwhUntil 0 with endTime := none }] :=
  keeps_of_clear twoHours 0 _ (by decide +kernel)

/-- **A corrected end is stored without its cost.**  The first import ends after one hour and costs 2.00.
The second one ends an hour later and costs -4.00; its end is stored, its cost is not. -/
theorem negative_cost_is_dropped :
    (run (importStep twoHours 0) .start [tenKwhUntil 3600, tenKwhUntil 7200]).row =
      some { insertedRow 0 (tenKwhUntil 7200) 10 2 with costTotal := some 2 } ∧
    importColumns twoHours 0 (tenKwhUntil 7200) = some (10, -4) ∧
    ¬ Along (importStep twoHours 0) (Keeps twoHours 0) .start [tenKwhUntil 3600, tenKwhUntil 7200] := by
  refine ⟨by decide +kernel, by decide +kernel, ?_⟩
  intro ⟨_, hsecond, _⟩
  have hrow : upsert twoHours 0 (importStep twoHours 0 .start (tenKwhUntil 3600)).row (tenKwhUntil 7200) =
      some (insertedRow 0 (tenKwhUntil 7200) 10 2) := by
    decide +kernel
  have hcost := ((hsecond _ hrow).carries (by decide +kernel)).cost
  revert hcost
  decide +kernel

end FavoniusBackend.Billing.HistoricalImport
