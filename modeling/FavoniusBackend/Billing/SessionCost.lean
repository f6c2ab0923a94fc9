import FavoniusBackend.Lib.Dict
import FavoniusBackend.Lib.Numeric
import FavoniusBackend.Billing.Telemetry

/-!
# The session cost calculator

`core/billing/session_cost.py` without its database writes: `compute_session_cost`, the granular
strategy with its coverage and reconciliation gate, and the fallback to a duration-weighted average
price.

Time stamps are timezone-aware, as asyncpg returns `TIMESTAMPTZ` columns: a wall-clock reading with a
fixed offset from UTC.  A price map may be keyed by aware or by naive stamps, and the lookup tries
both.  What the calculator asks of the outside is given by `CostEnv`: the prices of a zone, the rows
of one telemetry query, and the parsing of a vehicle id.  Floats and decimals are rationals.
-/

namespace FavoniusBackend.Billing.SessionCost

open Lib Lib.Numeric Billing.Telemetry

def telemetryCoverageMin : ℚ := 4 / 5

def energyReconcileTol : ℚ := 1 / 10

inductive SessionCostSource
  | granular
  | fallbackAverage
  | unpriceable
  | pendingClose
  | noEnergy
  | noDepot
  | manual
  deriving DecidableEq, Repr

/-- The provenance text stored in `charging_sessions.cost_total_source`. -/
def SessionCostSource.text : SessionCostSource → String
  | .granular => "granular"
  | .fallbackAverage => "fallback_average"
  | .unpriceable => "unpriceable"
  | .pendingClose => "pending_close"
  | .noEnergy => "no_energy"
  | .noDepot => "no_depot"
  | .manual => "manual"

/-- The outcome of one calculation; only `cost` and `source` are persisted. -/
structure SessionCostResult where
  cost : Option ℚ
  source : SessionCostSource
  energyKwhFromTelemetry : Option ℚ := none
  avgPriceUsed : Option ℚ := none
  telemetryCoverage : Option ℚ := none
  deriving DecidableEq, Repr

/-! ### Time stamps and prices -/

/-- An aware time stamp: wall-clock seconds since the epoch, and the UTC offset in seconds. -/
structure DateTime where
  wall : ℚ
  offset : ℤ
  deriving DecidableEq, Repr

def DateTime.instant (d : DateTime) : ℚ := d.wall - d.offset

/-- `replace(minute=0, second=0, microsecond=0)`. -/
def DateTime.floorHour (d : DateTime) : DateTime := ⟨3600 * ⌊d.wall / 3600⌋, d.offset⟩

inductive PriceKey
  | aware (instant : ℚ)
  | naive (wall : ℚ)
  deriving DecidableEq, Repr

/-- The hourly prices of a zone, per kWh. -/
abbrev PriceMap := Dict PriceKey ℚ

/-- `_normalize_hour`: convert to UTC, then floor. -/
def normalizeHour (d : DateTime) : DateTime := DateTime.floorHour ⟨d.instant, 0⟩

def priceForHour (priceMap : PriceMap) (hour : DateTime) : Option ℚ :=
  let key := (normalizeHour hour).instant
  match priceMap.get? (.aware key) with
  | some price => some price
  | none =>
    match priceMap.get? (.naive key) with
    | some price => some price
    | none => priceMap.get? (.aware key)

/-- `_expected_hour_buckets`: from the floored start, hour by hour while before the end. -/
def expectedHourBuckets (startTime endTime : DateTime) : List DateTime :=
  let cursor := startTime.floorHour
  (List.range ⌈(endTime.instant - cursor.instant) / 3600⌉.toNat).map fun i =>
    ⟨cursor.wall + 3600 * i, cursor.offset⟩

/-! ### The granular strategy -/

def bucketHour (r : HourBucket) : DateTime := ⟨3600 * r.hour, 0⟩

def telemEnergy (rows : List HourBucket) : ℚ := (rows.map HourBucket.energyKwh).sum

def coverage (rows : List HourBucket) (startTime endTime : DateTime) : ℚ :=
  if 0 < endTime.instant - startTime.instant then
    (rows.map HourBucket.observedSeconds).sum / (endTime.instant - startTime.instant)
  else 0

/-- The reconciliation with the delivered energy; a missing or non-positive one is an infinite
mismatch. -/
def reconciles (energyDeliveredKwh : Option ℚ) (energy : ℚ) : Bool :=
  match energyDeliveredKwh with
  | some e => decide (0 < e) && decide (|energy - e| / e ≤ energyReconcileTol)
  | none => false

/-- The gate of `_try_granular`: positive energy, enough of the window observed, and an energy that
reconciles with the delivered one. -/
def granularGate (rows : List HourBucket) (startTime endTime : DateTime)
    (energyDeliveredKwh : Option ℚ) : Bool :=
  decide (0 < telemEnergy rows) && decide (telemetryCoverageMin ≤ coverage rows startTime endTime) &&
    reconciles energyDeliveredKwh (telemEnergy rows)

def priceBuckets (priceMap : PriceMap) : List HourBucket → Option ℚ
  | [] => some 0
  | r :: rows =>
    match priceForHour priceMap (bucketHour r) with
    | none => none
    | some price => (priceBuckets priceMap rows).map fun total => r.energyKwh * price + total

/-- `_try_granular` on the fetched rows; `none` asks for the fallback. -/
def tryGranular (rows : List HourBucket) (startTime endTime : DateTime)
    (energyDeliveredKwh : Option ℚ) (priceMap : PriceMap) : Option SessionCostResult :=
  if rows = [] then none
  else if granularGate rows startTime endTime energyDeliveredKwh then
    (priceBuckets priceMap rows).map fun totalCost =>
      { cost := some (quantize 4 totalCost)
        source := .granular
        energyKwhFromTelemetry := some (telemEnergy rows)
        avgPriceUsed := some (totalCost / telemEnergy rows)
        telemetryCoverage := some (coverage rows startTime endTime) }
  else none

/-! ### The fallback -/

def overlapHours (startTime endTime hour : DateTime) : ℚ :=
  (min endTime.instant ((normalizeHour hour).instant + 3600) -
    max startTime.instant (normalizeHour hour).instant) / 3600

/-- The weighting loop, as the pair of `weighted_sum` and `weight_total`. -/
def weighHours (priceMap : PriceMap) (startTime endTime : DateTime) (hours : List DateTime) : ℚ × ℚ :=
  hours.foldl (fun acc hour =>
    match priceForHour priceMap hour with
    | none => acc
    | some price =>
      let weight := overlapHours startTime endTime hour
      if weight ≤ 0 then acc else (acc.1 + price * weight, acc.2 + weight)) (0, 0)

def fallbackAverage (deliveredKwh : ℚ) (startTime endTime : DateTime) (priceMap : PriceMap) :
    SessionCostResult :=
  let expectedHours := expectedHourBuckets startTime endTime
  let covered := expectedHours.filter fun h => (priceForHour priceMap h).isSome
  if expectedHours = [] ∨ covered.length < expectedHours.length then
    { cost := none, source := .unpriceable }
  else
    let weights := weighHours priceMap startTime endTime expectedHours
    if weights.2 ≤ 0 then { cost := none, source := .noEnergy }
    else
      let avgPrice := weights.1 / weights.2
      { cost := some (quantize 4 (deliveredKwh * avgPrice))
        source := .fallbackAverage
        avgPriceUsed := some avgPrice }

/-! ### The dispatcher -/

inductive BillingError
  | database
  | numericFieldOverflow
  deriving DecidableEq, Repr

/-- The columns of `charging_sessions` the callers select. -/
structure SessionColumns where
  sessionId : String
  siteId : Option String
  vehicleId : Option String
  stationId : Option String
  connectorId : Option ℤ
  transactionId : Option ℤ
  startTime : DateTime
  endTime : Option DateTime
  energyDeliveredKwh : Option ℚ
  costTotal : Option ℚ
  costTotalSource : Option String
  deriving DecidableEq, Repr

/-- The row dict the callers pass: the selected columns and the resolved bidding zone. -/
structure SessionRow extends SessionColumns where
  biddingZone : Option String
  deriving DecidableEq, Repr

/-- What the calculator asks of the outside. -/
structure CostEnv where
  parseUuid : String → Option String
  prices : String → DateTime → DateTime → Except BillingError PriceMap
  fetch : WhereClause → DateTime → DateTime → Except BillingError (List HourBucket)

/-- `_fetch_granular_telemetry_rows`: vehicle, then the transaction, then the transaction or untagged
rows; a session without a transaction id takes the connector's rows. -/
def fetchGranularTelemetryRows (env : CostEnv) (vehicleId stationId : Option String)
    (connectorId transactionId : Option ℤ) (startTime endTime : DateTime) :
    Except BillingError (List HourBucket) := do
  let byVehicle ←
    match vehicleId with
    | some v => env.fetch (.vehicle v) startTime endTime
    | none => pure []
  if byVehicle ≠ [] then return byVehicle
  match stationId, connectorId with
  | some s, some c =>
    match transactionId with
    | some x =>
      let strict ← env.fetch (.transaction s c x) startTime endTime
      if strict ≠ [] then return strict
      env.fetch (.transactionOrNull s c x) startTime endTime
    | none => env.fetch (.connector s c) startTime endTime
  | _, _ => return []

/-- The guard of step 0: a cost the calculator refuses to recompute. -/
def refusesOverwrite (row : SessionRow) : Bool :=
  row.costTotalSource = some SessionCostSource.manual.text ∨
    (row.costTotal.isSome ∧ row.costTotal ≠ some 0 ∧ row.costTotalSource ≠ none ∧
      row.costTotalSource ≠ some SessionCostSource.fallbackAverage.text ∧
      row.costTotalSource ≠ some SessionCostSource.unpriceable.text)

def computeSessionCost (env : CostEnv) (row : SessionRow) : Except BillingError SessionCostResult := do
  if refusesOverwrite row then return { cost := row.costTotal, source := .manual }
  let some endTime := row.endTime | return { cost := none, source := .pendingClose }
  let some _ := row.siteId | return { cost := none, source := .noDepot }
  let some biddingZone := row.biddingZone | return { cost := none, source := .unpriceable }
  if biddingZone = "" then return { cost := none, source := .unpriceable }
  let priceMap ← env.prices biddingZone row.startTime endTime
  let rows ← fetchGranularTelemetryRows env (row.vehicleId.bind env.parseUuid) row.stationId
    row.connectorId row.transactionId row.startTime endTime
  if let some granular := tryGranular rows row.startTime endTime row.energyDeliveredKwh priceMap then
    return granular
  match row.energyDeliveredKwh with
  | none => return { cost := none, source := .noEnergy }
  | some delivered =>
    if delivered ≤ 0 then return { cost := none, source := .noEnergy }
    return fallbackAverage delivered row.startTime endTime priceMap

end FavoniusBackend.Billing.SessionCost
