import Mathlib.Data.String.Basic
import FavoniusBackend.Agent.LocalDays
import FavoniusBackend.Lib.Dict
import FavoniusBackend.Lib.IsoFormat
import FavoniusBackend.Lib.Numeric
import FavoniusBackend.Lib.PyJson
import FavoniusBackend.Lib.Sql

/-!
# Energy reports

`api/reports.py` sums up the sessions that start between two local midnights, once in a row for each month and group and
once in all.  The figures of a bucket are sums over its sessions (`accumulate_eq_ok`), so what the rows add up to is what
the totals say.

The database gives its datetimes in UTC; a difference of one that has a zone and one that has none raises `TypeError`.
Numbers are exact, and `round` stands for the last step.
-/

namespace FavoniusBackend.Reports.EnergyRows

open Lib
open Lib.Calendar
open Lib.PyJson (PyError)
open Lib.Uuid (padded)
open Agent.TimeWindows (Representable InYears midnight)

/-! ## Sessions -/

/-- A datetime: a naive one counts as UTC. -/
structure Stamp where
  instant : ℤ
  aware : Bool

structure SessionRow where
  startTime : Stamp
  endTime : Option Stamp
  energyKwh : Option ℚ
  costTotal : Option ℚ
  vehicleId : Option String
  chargerId : Option String
  driverId : Option String
  cardId : Option String
  cardLabel : Option String
  cardIdTag : Option String

/-- `a or b`. -/
def either (a b : Option String) : Option String := if a = some "" then b else a <|> b

def cardName (row : SessionRow) (cardId : String) : Option String :=
  either row.cardLabel (either row.cardIdTag (some cardId))

def cardDisplayKey (row : SessionRow) : Option String := row.cardId.bind (cardName row)

/-- `REPORT_GROUP_BY_VALUES`. -/
inductive GroupBy where
  | vehicle
  | charger
  | driver
  | card
  deriving DecidableEq, Repr

def GroupBy.text : GroupBy → String
  | .vehicle => "vehicle"
  | .charger => "charger"
  | .driver => "driver"
  | .card => "card"

def groupValue (row : SessionRow) : Option GroupBy → Option String
  | none => none
  | some .vehicle => row.vehicleId
  | some .charger => row.chargerId
  | some .driver => row.driverId
  | some .card => cardDisplayKey row

/-! ## Windows and buckets -/

/-- The arithmetic on datetimes raises where it leaves the years. -/
def checked (wall : ℤ) : Except PyError ℤ := if Representable wall then .ok wall else .error .overflowError

/-- `from_date` and `to_date`, in this order. -/
structure DateRange where
  fromDate : Date
  toDate : Date
  ordered : fromDate.toOrdinal ≤ toDate.toOrdinal
  fromDate_inYears : InYears fromDate.toOrdinal
  toDate_inYears : InYears toDate.toOrdinal

def windowUtcBounds (tz : ZoneInfo) (range : DateRange) : Except PyError (ℤ × ℤ) := do
  let _ ← checked ((range.toDate.toOrdinal + 1) * microsPerDay)
  let startUtc ← checked (midnight tz range.fromDate.toOrdinal)
  let endUtc ← checked (midnight tz (range.toDate.toOrdinal + 1))
  return (startUtc, endUtc)

def sessionInWindow (window : ℤ × ℤ) (row : SessionRow) : Bool :=
  decide (window.1 ≤ row.startTime.instant ∧ row.startTime.instant < window.2)

/-- `YYYY-MM`. -/
def monthText (d : Date) : String := String.ofList (padded 10 4 d.year.toNat ++ '-' :: padded 10 2 d.month.toNat)

def bucketFor (tz : ZoneInfo) (startTime : Stamp) : Except PyError String := do
  let wall ← checked (startTime.instant + tz.fromutc startTime.instant)
  return monthText (dateOf wall)

/-! ## Figures -/

/-- The accumulator of `_new_agg`. -/
structure Agg where
  energyKwh : ℚ
  energyKwhWithDuration : ℚ
  sessionCount : ℕ
  durationHours : ℚ
  costTotalSum : ℚ
  costMissingCount : ℕ
  energyKwhMissingCost : ℚ

def newAgg : Agg := ⟨0, 0, 0, 0, 0, 0, 0⟩

def durationHours (row : SessionRow) : Except PyError (Option ℚ) :=
  match row.endTime with
  | none => .ok none
  | some endTime =>
    if endTime.aware = row.startTime.aware then
      .ok (some (max (((endTime.instant - row.startTime.instant : ℤ) : ℚ) / 3600000000) 0))
    else .error .typeError

def accumulate (agg : Agg) (row : SessionRow) : Except PyError Agg := do
  let energy := row.energyKwh.getD 0
  let duration ← durationHours row
  return {
    energyKwh := agg.energyKwh + energy
    sessionCount := agg.sessionCount + 1
    durationHours := agg.durationHours + duration.getD 0
    energyKwhWithDuration := agg.energyKwhWithDuration + if duration.isSome then energy else 0
    costTotalSum := agg.costTotalSum + row.costTotal.getD 0
    costMissingCount := agg.costMissingCount + if row.costTotal.isNone then 1 else 0
    energyKwhMissingCost := agg.energyKwhMissingCost + if row.costTotal.isNone then energy else 0 }

/-- The numbers of a row and of the totals. -/
structure Figures where
  energyKwh : ℚ
  sessionCount : ℕ
  avgKw : ℚ
  amount : ℚ
  currency : String
  estimated : Bool
  deriving DecidableEq

def finalizeAgg (round : ℚ → ℚ) (agg : Agg) (underCapRate : Option ℚ) (currency : String) : Figures :=
  let estimated := decide (0 < agg.costMissingCount)
  let costAmount :=
    if estimated then agg.costTotalSum + (underCapRate.map fun rate => agg.energyKwhMissingCost * rate).getD 0
    else agg.costTotalSum
  let avgKw := if 0 < agg.durationHours then agg.energyKwhWithDuration / agg.durationHours else 0
  { energyKwh := round agg.energyKwh
    sessionCount := agg.sessionCount
    avgKw := round avgKw
    amount := round costAmount
    currency
    estimated }

/-! ## Rows -/

/-- A bucket and the value of the grouping. -/
abbrev Key := String × Option String

/-- The key of `sorted`. -/
def sortKey (key : Key) : String ×ₗ Bool ×ₗ String := toLex (key.1, toLex (key.2.isNone, key.2.getD ""))

def Before (a b : Key × Agg) : Prop := sortKey a.1 ≤ sortKey b.1

instance : DecidableRel Before := fun a b => inferInstanceAs (Decidable (sortKey a.1 ≤ sortKey b.1))

instance : Std.Total Before := ⟨fun a b => le_total (sortKey a.1) (sortKey b.1)⟩

instance : IsTrans (Key × Agg) Before := ⟨fun _ _ _ hab hbc => le_trans hab hbc⟩

structure ReportRow where
  bucket : String
  figures : Figures
  group : Option (String × String)
  cardLabel : Option String

/-- `buckets` and `representatives`. -/
structure Loop where
  buckets : Dict Key Agg
  representatives : Dict Key SessionRow

def addSession (tz : ZoneInfo) (groupBy : Option GroupBy) (window : ℤ × ℤ) (loop : Loop) (row : SessionRow) :
    Except PyError Loop :=
  if sessionInWindow window row then do
    let bucket ← bucketFor tz row.startTime
    let key := (bucket, groupValue row groupBy)
    let agg ← accumulate (loop.buckets.getD key newAgg) row
    return {
      buckets := loop.buckets.set key agg
      representatives :=
        if groupBy = some .card ∧ key ∉ loop.representatives ∧ row.cardId.isSome then loop.representatives.set key row
        else loop.representatives }
  else return loop

def unassigned : String := "unassigned"

def applyGroupId (row : ReportRow) (groupBy : Option GroupBy) (value : Option String) (representative : Option SessionRow) :
    ReportRow :=
  match groupBy with
  | none => row
  | some g =>
    let row := { row with group := some (g.text ++ "_id", value.getD unassigned) }
    if g = .card then
      match representative.bind fun r => r.cardId.map fun cardId => (r, cardId) with
      | some (r, cardId) => { row with group := some ("card_id", cardId), cardLabel := cardName r cardId }
      | none => { row with cardLabel := some (value.getD unassigned) }
    else row

def reportRow (round : ℚ → ℚ) (groupBy : Option GroupBy) (underCapRate : Option ℚ) (currency : String)
    (representatives : Dict Key SessionRow) (entry : Key × Agg) : ReportRow :=
  applyGroupId ⟨entry.1.1, finalizeAgg round entry.2 underCapRate currency, none, none⟩ groupBy entry.1.2
    (representatives.get? entry.1)

def aggregateEnergyRows (round : ℚ → ℚ) (tz : ZoneInfo) (sessions : List SessionRow) (groupBy : Option GroupBy)
    (underCapRate : Option ℚ) (currency : String) (range : DateRange) : Except PyError (List ReportRow) := do
  let window ← windowUtcBounds tz range
  let loop ← sessions.foldlM (addSession tz groupBy window) ⟨Dict.empty, Dict.empty⟩
  return (Sql.orderBy Before loop.buckets.items).map
    (reportRow round groupBy underCapRate currency loop.representatives)

def computeEnergyTotals (round : ℚ → ℚ) (tz : ZoneInfo) (sessions : List SessionRow) (underCapRate : Option ℚ)
    (currency : String) (range : DateRange) : Except PyError Figures := do
  let window ← windowUtcBounds tz range
  let agg ← sessions.foldlM (fun agg row => if sessionInWindow window row then accumulate agg row else return agg) newAgg
  return finalizeAgg round agg underCapRate currency

/-! ## Sums over sessions -/

def Consistent (row : SessionRow) : Prop := ∀ endTime ∈ row.endTime, endTime.aware = row.startTime.aware

def energyOf (row : SessionRow) : ℚ := row.energyKwh.getD 0

def hoursOf (row : SessionRow) : Option ℚ :=
  row.endTime.map fun endTime => max (((endTime.instant - row.startTime.instant : ℤ) : ℚ) / 3600000000) 0

def addRow (agg : Agg) (row : SessionRow) : Agg where
  energyKwh := agg.energyKwh + energyOf row
  sessionCount := agg.sessionCount + 1
  durationHours := agg.durationHours + (hoursOf row).getD 0
  energyKwhWithDuration := agg.energyKwhWithDuration + if (hoursOf row).isSome then energyOf row else 0
  costTotalSum := agg.costTotalSum + row.costTotal.getD 0
  costMissingCount := agg.costMissingCount + if row.costTotal.isNone then 1 else 0
  energyKwhMissingCost := agg.energyKwhMissingCost + if row.costTotal.isNone then energyOf row else 0

theorem durationHours_eq_ok {row : SessionRow} {hours : Option ℚ} :
    durationHours row = .ok hours ↔ Consistent row ∧ hours = hoursOf row := by
  unfold durationHours Consistent hoursOf
  cases row.endTime with
  | none =>
    rw [Except.ok.injEq]
    exact ⟨fun h => ⟨nofun, h.symm⟩, fun h => h.2.symm⟩
  | some endTime =>
    rw [Option.map_some]
    simp only [Option.mem_def, Option.some.injEq, forall_eq']
    split
    · rename_i hsame
      rw [Except.ok.injEq]
      exact ⟨fun h => ⟨hsame, h.symm⟩, fun h => h.2.symm⟩
    · rename_i hmixed
      exact ⟨nofun, fun h => absurd h.1 hmixed⟩

theorem accumulate_eq_ok {agg agg' : Agg} {row : SessionRow} :
    accumulate agg row = .ok agg' ↔ Consistent row ∧ agg' = addRow agg row := by
  unfold accumulate
  rw [Guard.bind_eq_ok]
  constructor
  · rintro ⟨hours, hhours, h⟩
    obtain ⟨hconsistent, rfl⟩ := durationHours_eq_ok.mp hhours
    exact ⟨hconsistent, (Except.ok.inj h).symm⟩
  · rintro ⟨hconsistent, rfl⟩
    exact ⟨_, durationHours_eq_ok.mpr ⟨hconsistent, rfl⟩, rfl⟩

def aggOf (rows : List SessionRow) : Agg := rows.foldl addRow newAgg

theorem foldl_field {β : Type} [AddCommMonoid β] (f : Agg → β) (g : SessionRow → β)
    (h : ∀ agg row, f (addRow agg row) = f agg + g row) (rows : List SessionRow) (agg : Agg) :
    f (rows.foldl addRow agg) = f agg + (rows.map g).sum := by
  induction rows generalizing agg with
  | nil => simp
  | cons row rows ih => rw [List.foldl_cons, ih, h, List.map_cons, List.sum_cons, add_assoc]

instance : RightCommutative addRow where
  right_comm agg row row' := by
    have hnat : ∀ a b c : ℕ, a + b + c = a + c + b := fun a b c => add_right_comm a b c
    have hrat : ∀ a b c : ℚ, a + b + c = a + c + b := fun a b c => add_right_comm a b c
    exact (Agg.mk.injEq ..).mpr ⟨hrat _ _ _, hrat _ _ _, rfl, hrat _ _ _, hrat _ _ _, hnat _ _ _, hrat _ _ _⟩

theorem aggOf_perm {rows rows' : List SessionRow} (h : rows.Perm rows') : aggOf rows = aggOf rows' := h.foldl_eq newAgg

def costOf (underCapRate : Option ℚ) (row : SessionRow) : ℚ := row.costTotal.getD (energyOf row * underCapRate.getD 0)

def figuresOf (underCapRate : Option ℚ) (currency : String) (rows : List SessionRow) : Figures :=
  finalizeAgg id (aggOf rows) underCapRate currency

section Figures

variable (underCapRate : Option ℚ) (currency : String) (rows : List SessionRow)

theorem figuresOf_energyKwh : (figuresOf underCapRate currency rows).energyKwh = (rows.map energyOf).sum := by
  have h := foldl_field Agg.energyKwh energyOf (fun _ _ => rfl) rows newAgg
  exact h.trans (zero_add _)

theorem figuresOf_sessionCount : (figuresOf underCapRate currency rows).sessionCount = rows.length := by
  have h := foldl_field Agg.sessionCount (fun _ => 1) (fun _ _ => rfl) rows newAgg
  rw [List.map_const', List.sum_replicate] at h
  exact h.trans (by show 0 + rows.length • 1 = rows.length; rw [zero_add, smul_eq_mul, mul_one])

theorem costMissingCount_pos : 0 < (aggOf rows).costMissingCount ↔ ∃ row ∈ rows, row.costTotal = none := by
  have h := foldl_field Agg.costMissingCount (fun row => if row.costTotal.isNone then 1 else 0) (fun _ _ => rfl) rows newAgg
  have hcount : (aggOf rows).costMissingCount = (rows.map fun row => if row.costTotal.isNone then 1 else 0).sum :=
    h.trans (zero_add _)
  rw [hcount, Nat.pos_iff_ne_zero, ne_eq, List.sum_eq_zero_iff, not_forall]
  simp [Option.isNone_iff_eq_none]

theorem figuresOf_estimated : (figuresOf underCapRate currency rows).estimated = true ↔
    ∃ row ∈ rows, row.costTotal = none := by
  show decide (0 < (aggOf rows).costMissingCount) = true ↔ _
  rw [decide_eq_true_iff, costMissingCount_pos]

theorem figuresOf_amount : (figuresOf underCapRate currency rows).amount = (rows.map (costOf underCapRate)).sum := by
  have hsum : (aggOf rows).costTotalSum = (rows.map fun row => row.costTotal.getD 0).sum :=
    (foldl_field Agg.costTotalSum (fun row => row.costTotal.getD 0) (fun _ _ => rfl) rows newAgg).trans (zero_add _)
  have hmissing : (aggOf rows).energyKwhMissingCost =
      (rows.map fun row => if row.costTotal.isNone then energyOf row else 0).sum :=
    (foldl_field Agg.energyKwhMissingCost (fun row => if row.costTotal.isNone then energyOf row else 0) (fun _ _ => rfl)
      rows newAgg).trans (zero_add _)
  have hrow : ∀ row, costOf underCapRate row =
      row.costTotal.getD 0 + (if row.costTotal.isNone then energyOf row else 0) * underCapRate.getD 0 := by
    intro row
    unfold costOf
    cases row.costTotal with
    | none => simp
    | some cost => simp
  have hrate : (underCapRate.map fun rate => (aggOf rows).energyKwhMissingCost * rate).getD 0 =
      (aggOf rows).energyKwhMissingCost * underCapRate.getD 0 := by
    cases underCapRate with
    | none => simp
    | some rate => simp
  have hall : (rows.map (costOf underCapRate)).sum =
      (aggOf rows).costTotalSum + (aggOf rows).energyKwhMissingCost * underCapRate.getD 0 := by
    rw [hsum, hmissing, funext hrow, List.sum_map_add, List.sum_map_mul_right]
  show (if decide (0 < (aggOf rows).costMissingCount) = true then
      (aggOf rows).costTotalSum + (underCapRate.map fun rate => (aggOf rows).energyKwhMissingCost * rate).getD 0
    else (aggOf rows).costTotalSum) = _
  rw [hall, hrate]
  split
  · rfl
  · rename_i hnone
    rw [decide_eq_true_iff, costMissingCount_pos] at hnone
    have hzero : (aggOf rows).energyKwhMissingCost = 0 := by
      rw [hmissing]
      apply List.sum_eq_zero
      intro x hx
      obtain ⟨row, hrow, rfl⟩ := List.mem_map.mp hx
      exact if_neg fun h => hnone ⟨row, hrow, Option.isNone_iff_eq_none.mp h⟩
    rw [hzero, zero_mul, add_zero]

end Figures

/-! ## The loop over the sessions -/

def wallOf (tz : ZoneInfo) (row : SessionRow) : ℤ := row.startTime.instant + tz.fromutc row.startTime.instant

def keyOf (tz : ZoneInfo) (groupBy : Option GroupBy) (row : SessionRow) : Key :=
  (monthText (dateOf (wallOf tz row)), groupValue row groupBy)

def inWindow (window : ℤ × ℤ) (sessions : List SessionRow) : List SessionRow := sessions.filter (sessionInWindow window)

section Loop

variable (tz : ZoneInfo) (groupBy : Option GroupBy)

def bucketsOf (rows : List SessionRow) : Dict Key Agg :=
  rows.foldl (fun d row => d.set (keyOf tz groupBy row) (addRow (d.getD (keyOf tz groupBy row) newAgg) row)) Dict.empty

def representativesOf (rows : List SessionRow) : Dict Key SessionRow :=
  rows.foldl (fun d row =>
    if groupBy = some .card ∧ keyOf tz groupBy row ∉ d ∧ row.cardId.isSome then d.set (keyOf tz groupBy row) row else d)
    Dict.empty

variable {tz groupBy}

theorem checked_eq_ok {wall wall' : ℤ} : checked wall = .ok wall' ↔ Representable wall ∧ wall' = wall := by
  unfold checked
  split
  · rename_i h
    rw [Except.ok.injEq]
    exact ⟨fun hwall => ⟨h, hwall.symm⟩, fun hwall => hwall.2.symm⟩
  · rename_i h
    exact ⟨nofun, fun hwall => absurd hwall.1 h⟩

theorem addSession_eq_ok {window : ℤ × ℤ} {loop loop' : Loop} {row : SessionRow} :
    addSession tz groupBy window loop row = .ok loop' ↔
      (sessionInWindow window row = true → Representable (wallOf tz row) ∧ Consistent row) ∧
        loop' = if sessionInWindow window row then
          { buckets := loop.buckets.set (keyOf tz groupBy row)
              (addRow (loop.buckets.getD (keyOf tz groupBy row) newAgg) row)
            representatives :=
              if groupBy = some .card ∧ keyOf tz groupBy row ∉ loop.representatives ∧ row.cardId.isSome then
                loop.representatives.set (keyOf tz groupBy row) row
              else loop.representatives }
        else loop := by
  unfold addSession
  split
  · rename_i hin
    rw [Guard.bind_eq_ok]
    constructor
    · rintro ⟨bucket, hbucket, h⟩
      rw [bucketFor, Guard.bind_eq_ok] at hbucket
      obtain ⟨wall, hwall, hbucket⟩ := hbucket
      obtain ⟨hrepresentable, rfl⟩ := checked_eq_ok.mp hwall
      cases hbucket
      rw [Guard.bind_eq_ok] at h
      obtain ⟨agg, hagg, h⟩ := h
      obtain ⟨hconsistent, rfl⟩ := accumulate_eq_ok.mp hagg
      exact ⟨fun _ => ⟨hrepresentable, hconsistent⟩, (Except.ok.inj h).symm⟩
    · rintro ⟨hall, rfl⟩
      obtain ⟨hrepresentable, hconsistent⟩ := hall hin
      have hbucket : bucketFor tz row.startTime = .ok (monthText (dateOf (wallOf tz row))) := by
        rw [bucketFor, Guard.bind_eq_ok]
        exact ⟨_, checked_eq_ok.mpr ⟨hrepresentable, rfl⟩, rfl⟩
      refine ⟨_, hbucket, ?_⟩
      rw [Guard.bind_eq_ok]
      exact ⟨_, accumulate_eq_ok.mpr ⟨hconsistent, rfl⟩, rfl⟩
  · rename_i hout
    constructor
    · intro h
      exact ⟨fun hin => absurd hin hout, (Except.ok.inj h).symm⟩
    · rintro ⟨-, rfl⟩
      rfl

theorem foldlM_addSession {window : ℤ × ℤ} {sessions : List SessionRow} {loop : Loop} :
    sessions.foldlM (addSession tz groupBy window) ⟨Dict.empty, Dict.empty⟩ = .ok loop ↔
      (∀ row ∈ inWindow window sessions, Representable (wallOf tz row) ∧ Consistent row) ∧
        loop = ⟨bucketsOf tz groupBy (inWindow window sessions), representativesOf tz groupBy (inWindow window sessions)⟩ := by
  rw [Guard.foldlM_eq_ok (fun loop row loop' => @addSession_eq_ok tz groupBy window loop loop' row),
    ← List.foldl_filter, inWindow]
  have hpair : ∀ (rows : List SessionRow) (loop : Loop), rows.foldl (fun loop row =>
      ({ buckets := loop.buckets.set (keyOf tz groupBy row)
            (addRow (loop.buckets.getD (keyOf tz groupBy row) newAgg) row)
         representatives :=
            if groupBy = some .card ∧ keyOf tz groupBy row ∉ loop.representatives ∧ row.cardId.isSome then
              loop.representatives.set (keyOf tz groupBy row) row
            else loop.representatives } : Loop)) loop =
      ⟨rows.foldl (fun d row => d.set (keyOf tz groupBy row) (addRow (d.getD (keyOf tz groupBy row) newAgg) row))
          loop.buckets,
        rows.foldl (fun d row =>
          if groupBy = some .card ∧ keyOf tz groupBy row ∉ d ∧ row.cardId.isSome then d.set (keyOf tz groupBy row) row
          else d) loop.representatives⟩ := by
    intro rows
    induction rows with
    | nil => exact fun _ => rfl
    | cons row rows ih =>
      intro loop
      rw [List.foldl_cons, ih, List.foldl_cons, List.foldl_cons]
  rw [hpair]
  simp only [List.mem_filter, and_imp]
  rfl

theorem foldlM_accumulate {window : ℤ × ℤ} {sessions : List SessionRow} {agg : Agg} :
    sessions.foldlM (fun agg row => if sessionInWindow window row then accumulate agg row else return agg) newAgg =
        .ok agg ↔
      (∀ row ∈ inWindow window sessions, Consistent row) ∧ agg = aggOf (inWindow window sessions) := by
  have hstep : ∀ agg row agg',
      (if sessionInWindow window row = true then accumulate agg row else (return agg : Except PyError Agg)) = .ok agg' ↔
        (sessionInWindow window row = true → Consistent row) ∧
          agg' = if sessionInWindow window row = true then addRow agg row else agg := by
    intro agg row agg'
    split
    · rename_i hin
      rw [accumulate_eq_ok]
      exact and_congr_left fun _ => ⟨fun h _ => h, fun h => h hin⟩
    · rename_i hout
      constructor
      · intro h
        exact ⟨fun hin => absurd hin hout, (Except.ok.inj h).symm⟩
      · rintro ⟨-, rfl⟩
        rfl
  rw [Guard.foldlM_eq_ok hstep, ← List.foldl_filter, inWindow, aggOf]
  simp only [List.mem_filter, and_imp]

/-! ### Buckets -/

theorem mem_bucketsOf {rows : List SessionRow} {key : Key} :
    key ∈ bucketsOf tz groupBy rows ↔ ∃ row ∈ rows, keyOf tz groupBy row = key := by
  have hfold : ∀ d : Dict Key Agg, key ∈ rows.foldl (fun d row =>
      d.set (keyOf tz groupBy row) (addRow (d.getD (keyOf tz groupBy row) newAgg) row)) d ↔
        key ∈ d ∨ ∃ row ∈ rows, keyOf tz groupBy row = key := by
    induction rows with
    | nil => simp
    | cons row rows ih =>
      intro d
      rw [List.foldl_cons, ih, List.exists_mem_cons_iff, ← or_assoc]
      apply or_congr_left
      rw [Dict.mem_iff_isSome, Dict.get?_set, Dict.mem_iff_isSome]
      split
      · rename_i hkey
        simp [hkey]
      · rename_i hkey
        exact ⟨Or.inl, fun h => h.elim id fun heq => absurd heq.symm hkey⟩
  rw [bucketsOf, hfold]
  simp

theorem getD_bucketsOf (rows : List SessionRow) (key : Key) :
    (bucketsOf tz groupBy rows).getD key newAgg = aggOf (rows.filter fun row => keyOf tz groupBy row = key) :=
  Dict.getD_foldl_group (keyOf tz groupBy) addRow newAgg rows Dict.empty key

theorem mem_items_bucketsOf {rows : List SessionRow} {key : Key} {agg : Agg} :
    (key, agg) ∈ (bucketsOf tz groupBy rows).items ↔
      (∃ row ∈ rows, keyOf tz groupBy row = key) ∧ agg = aggOf (rows.filter fun row => keyOf tz groupBy row = key) := by
  rw [Dict.mem_items_iff, ← mem_bucketsOf, ← getD_bucketsOf, Dict.mem_iff_isSome, Dict.getD]
  cases (bucketsOf tz groupBy rows).get? key with
  | none => simp
  | some agg' => simp [eq_comm]

theorem items_bucketsOf (rows : List SessionRow) : (bucketsOf tz groupBy rows).items =
    (bucketsOf tz groupBy rows).keys.map fun key =>
      (key, aggOf (rows.filter fun row => keyOf tz groupBy row = key)) := by
  rw [Dict.keys, List.map_map]
  refine (List.map_id _).symm.trans (List.map_congr_left ?_)
  intro entry hentry
  exact Prod.ext rfl (mem_items_bucketsOf.mp hentry).2

/-! ### Representatives -/

theorem get?_representativesOf {rows : List SessionRow} {key : Key} {row : SessionRow}
    (h : (representativesOf tz groupBy rows).get? key = some row) :
    groupBy = some .card ∧ keyOf tz groupBy row = key ∧ row.cardId.isSome := by
  have hfold : ∀ d : Dict Key SessionRow, (rows.foldl (fun d row =>
      if groupBy = some .card ∧ keyOf tz groupBy row ∉ d ∧ row.cardId.isSome then d.set (keyOf tz groupBy row) row else d)
      d).get? key = some row →
      d.get? key = some row ∨ groupBy = some .card ∧ keyOf tz groupBy row = key ∧ row.cardId.isSome := by
    clear h
    induction rows with
    | nil => exact fun d => .inl
    | cons row' rows ih =>
      intro d hget
      rw [List.foldl_cons] at hget
      rcases ih _ hget with hstep | hdone
      · split at hstep
        · rename_i hset
          rw [Dict.get?_set] at hstep
          split at hstep
          · rename_i hkey
            cases hstep
            exact .inr ⟨hset.1, hkey.symm, hset.2.2⟩
          · exact .inl hstep
        · exact .inl hstep
      · exact .inr hdone
  rcases hfold Dict.empty h with hnone | hdone
  · exact nomatch hnone
  · exact hdone

end Loop

/-! ## Rows and totals -/

section Report

variable (tz : ZoneInfo) (groupBy : Option GroupBy) (underCapRate : Option ℚ) (currency : String)

def rowsOf (rows : List SessionRow) : List ReportRow :=
  (Sql.orderBy Before (bucketsOf tz groupBy rows).items).map
    (reportRow id groupBy underCapRate currency (representativesOf tz groupBy rows))

variable {tz groupBy underCapRate currency} {range : DateRange} {sessions : List SessionRow}

theorem aggregateEnergyRows_eq_ok {out : List ReportRow} :
    aggregateEnergyRows id tz sessions groupBy underCapRate currency range = .ok out ↔
      ∃ window, windowUtcBounds tz range = .ok window ∧
        (∀ row ∈ inWindow window sessions, Representable (wallOf tz row) ∧ Consistent row) ∧
        out = rowsOf tz groupBy underCapRate currency (inWindow window sessions) := by
  rw [aggregateEnergyRows, Guard.bind_eq_ok]
  apply exists_congr
  intro window
  apply and_congr_right
  intro _
  rw [Guard.bind_eq_ok]
  constructor
  · rintro ⟨loop, hloop, h⟩
    obtain ⟨hall, rfl⟩ := foldlM_addSession.mp hloop
    exact ⟨hall, (Except.ok.inj h).symm⟩
  · rintro ⟨hall, rfl⟩
    exact ⟨_, foldlM_addSession.mpr ⟨hall, rfl⟩, rfl⟩

theorem computeEnergyTotals_eq_ok {out : Figures} :
    computeEnergyTotals id tz sessions underCapRate currency range = .ok out ↔
      ∃ window, windowUtcBounds tz range = .ok window ∧ (∀ row ∈ inWindow window sessions, Consistent row) ∧
        out = figuresOf underCapRate currency (inWindow window sessions) := by
  rw [computeEnergyTotals, Guard.bind_eq_ok]
  apply exists_congr
  intro window
  apply and_congr_right
  intro _
  rw [Guard.bind_eq_ok]
  constructor
  · rintro ⟨agg, hagg, h⟩
    obtain ⟨hall, rfl⟩ := foldlM_accumulate.mp hagg
    exact ⟨hall, (Except.ok.inj h).symm⟩
  · rintro ⟨hall, rfl⟩
    exact ⟨_, foldlM_accumulate.mpr ⟨hall, rfl⟩, rfl⟩

theorem applyGroupId_figures (row : ReportRow) (value : Option String) (representative : Option SessionRow) :
    (applyGroupId row groupBy value representative).bucket = row.bucket ∧
      (applyGroupId row groupBy value representative).figures = row.figures := by
  unfold applyGroupId
  cases groupBy with
  | none => exact ⟨rfl, rfl⟩
  | some g =>
    simp only
    split
    · split
      · exact ⟨rfl, rfl⟩
      · exact ⟨rfl, rfl⟩
    · exact ⟨rfl, rfl⟩

theorem mem_rowsOf {rows : List SessionRow} {r : ReportRow}
    (h : r ∈ rowsOf tz groupBy underCapRate currency rows) : ∃ key, (∃ row ∈ rows, keyOf tz groupBy row = key) ∧
      r.bucket = key.1 ∧ r.figures = figuresOf underCapRate currency (rows.filter fun row => keyOf tz groupBy row = key) := by
  obtain ⟨⟨key, agg⟩, hentry, rfl⟩ := List.mem_map.mp h
  obtain ⟨hkey, rfl⟩ := mem_items_bucketsOf.mp (Sql.mem_orderBy.mp hentry)
  exact ⟨key, hkey, (applyGroupId_figures _ _ _).1, (applyGroupId_figures _ _ _).2⟩

theorem exists_mem_rowsOf {rows : List SessionRow} {key : Key} (h : ∃ row ∈ rows, keyOf tz groupBy row = key) :
    ∃ r ∈ rowsOf tz groupBy underCapRate currency rows, r.bucket = key.1 ∧
      r.figures = figuresOf underCapRate currency (rows.filter fun row => keyOf tz groupBy row = key) := by
  have hentry := (@Sql.mem_orderBy _ Before _ _ _).mpr (mem_items_bucketsOf.mpr ⟨h, rfl⟩)
  exact ⟨_, List.mem_map_of_mem hentry, (applyGroupId_figures _ _ _).1, (applyGroupId_figures _ _ _).2⟩

theorem sum_rowsOf {f : Figures → ℚ} {g : SessionRow → ℚ}
    (h : ∀ rows, f (figuresOf underCapRate currency rows) = (rows.map g).sum) (rows : List SessionRow) :
    ((rowsOf tz groupBy underCapRate currency rows).map fun r => f r.figures).sum = (rows.map g).sum := by
  have hfigures : ∀ entry : Key × Agg,
      f (reportRow id groupBy underCapRate currency (representativesOf tz groupBy rows) entry).figures =
        f (finalizeAgg id entry.2 underCapRate currency) := fun entry => congrArg f (applyGroupId_figures _ _ _).2
  have hkeys := Sql.sum_by_keys (keyOf tz groupBy) (bucketsOf tz groupBy rows).keys (bucketsOf tz groupBy rows).nodup_keys
    (fun _ => 1) g rows fun row hrow => mem_bucketsOf.mpr ⟨row, hrow, rfl⟩
  simp only [one_mul] at hkeys
  rw [rowsOf, List.map_map, ← hkeys]
  refine (((List.perm_insertionSort Before _).map _).sum_eq).trans ?_
  rw [items_bucketsOf, List.map_map]
  refine congrArg List.sum (List.map_congr_left fun key _ => ?_)
  exact (hfigures _).trans (h _)

theorem exists_estimated_iff (rows : List SessionRow) :
    (∃ r ∈ rowsOf tz groupBy underCapRate currency rows, r.figures.estimated = true) ↔
      (figuresOf underCapRate currency rows).estimated = true := by
  rw [figuresOf_estimated]
  constructor
  · rintro ⟨r, hr, hestimated⟩
    obtain ⟨key, -, -, hfigures⟩ := mem_rowsOf hr
    rw [hfigures, figuresOf_estimated] at hestimated
    obtain ⟨row, hrow, hcost⟩ := hestimated
    exact ⟨row, List.mem_of_mem_filter hrow, hcost⟩
  · rintro ⟨row, hrow, hcost⟩
    obtain ⟨r, hr, -, hfigures⟩ := @exists_mem_rowsOf tz groupBy underCapRate currency _ _ ⟨row, hrow, rfl⟩
    refine ⟨r, hr, ?_⟩
    rw [hfigures, figuresOf_estimated]
    exact ⟨row, List.mem_filter.mpr ⟨hrow, decide_eq_true rfl⟩, hcost⟩

/-- Rows that say the same; the card that stands for a name may differ. -/
structure Same (groupBy : Option GroupBy) (r r' : ReportRow) : Prop where
  bucket : r.bucket = r'.bucket
  figures : r.figures = r'.figures
  cardLabel : r.cardLabel = r'.cardLabel
  group : groupBy ≠ some .card → r.group = r'.group

theorem cardName_isSome (row : SessionRow) (cardId : String) : (cardName row cardId).isSome := by
  unfold cardName either
  split
  · split
    · rfl
    · cases row.cardIdTag <;> rfl
  · cases row.cardLabel with
    | none =>
      split
      · rfl
      · cases row.cardIdTag <;> rfl
    | some _ => rfl

theorem cardLabel_reportRow (rows : List SessionRow) (entry : Key × Agg) :
    (reportRow id groupBy underCapRate currency (representativesOf tz groupBy rows) entry).cardLabel =
      if groupBy = some .card then some (entry.1.2.getD unassigned) else none := by
  unfold reportRow applyGroupId
  cases groupBy with
  | none => rfl
  | some g =>
    simp only [Option.some.injEq]
    by_cases hg : g = .card
    · subst hg
      rw [if_pos rfl, if_pos rfl]
      cases hget : (representativesOf tz (some .card) rows).get? entry.1 with
      | none => rfl
      | some r =>
        obtain ⟨-, hkey, hcard⟩ := get?_representativesOf hget
        obtain ⟨cardId, hcardId⟩ := Option.isSome_iff_exists.mp hcard
        obtain ⟨name, hname⟩ := Option.isSome_iff_exists.mp (cardName_isSome r cardId)
        have hvalue : entry.1.2 = some name := by
          rw [← hkey]
          show cardDisplayKey r = some name
          rw [cardDisplayKey, hcardId, Option.bind_some, hname]
        simp only [Option.bind_some, hcardId, Option.map_some, hname, hvalue, Option.getD_some]
    · rw [if_neg hg, if_neg hg]

theorem group_reportRow (hcard : groupBy ≠ some .card) (representatives representatives' : Dict Key SessionRow)
    (entry : Key × Agg) : (reportRow id groupBy underCapRate currency representatives entry).group =
      (reportRow id groupBy underCapRate currency representatives' entry).group := by
  unfold reportRow applyGroupId
  cases groupBy with
  | none => rfl
  | some g =>
    have hg : g ≠ .card := fun heq => hcard (congrArg some heq)
    simp only [if_neg hg]

theorem items_perm {rows rows' : List SessionRow} (h : rows.Perm rows') :
    (bucketsOf tz groupBy rows).items.Perm (bucketsOf tz groupBy rows').items := by
  rw [List.perm_ext_iff_of_nodup (bucketsOf tz groupBy rows).nodup_keys.of_map
    (bucketsOf tz groupBy rows').nodup_keys.of_map]
  rintro ⟨key, agg⟩
  rw [mem_items_bucketsOf, mem_items_bucketsOf, aggOf_perm (h.filter _)]
  exact and_congr_left fun _ => ⟨fun ⟨row, hrow, hkey⟩ => ⟨row, h.mem_iff.mp hrow, hkey⟩,
    fun ⟨row, hrow, hkey⟩ => ⟨row, h.mem_iff.mpr hrow, hkey⟩⟩

theorem sortKey_inj {key key' : Key} (h : sortKey key = sortKey key') : key = key' := by
  obtain ⟨hbucket, hvalue⟩ := Prod.mk.inj (toLex.injective h)
  obtain ⟨hnone, hgetD⟩ := Prod.mk.inj (toLex.injective hvalue)
  refine Prod.ext hbucket ?_
  cases hkey : key.2 with
  | none =>
    rw [hkey] at hnone
    exact (Option.isNone_iff_eq_none.mp hnone.symm).symm
  | some s =>
    cases hkey' : key'.2 with
    | none =>
      rw [hkey, hkey'] at hnone
      exact nomatch hnone
    | some s' =>
      rw [hkey, hkey'] at hgetD
      exact congrArg some hgetD

/-- **The order of the sessions does not matter.** -/
theorem rowsOf_perm {rows rows' : List SessionRow} (h : rows.Perm rows') :
    List.Forall₂ (Same groupBy) (rowsOf tz groupBy underCapRate currency rows)
      (rowsOf tz groupBy underCapRate currency rows') := by
  have hsorted : Sql.orderBy Before (bucketsOf tz groupBy rows).items =
      Sql.orderBy Before (bucketsOf tz groupBy rows').items := by
    refine @List.Perm.eq_of_pairwise _ Before _ _ ?_ (Sql.orderBy_pairwise Before _) (Sql.orderBy_pairwise Before _)
      (((List.perm_insertionSort Before _).trans (items_perm h)).trans (List.perm_insertionSort Before _).symm)
    intro a b ha hb hab hba
    have hkey : a.1 = b.1 := sortKey_inj (le_antisymm hab hba)
    have ha' := (mem_items_bucketsOf.mp (Sql.mem_orderBy.mp ha)).2
    have hb' := (mem_items_bucketsOf.mp (Sql.mem_orderBy.mp hb)).2
    refine Prod.ext hkey ?_
    rw [ha', hb', hkey, aggOf_perm (h.filter _)]
  unfold rowsOf
  rw [hsorted, List.forall₂_map_left_iff, List.forall₂_map_right_iff]
  refine List.forall₂_same.mpr fun entry _ => ⟨?_, ?_, ?_, fun hcard => group_reportRow hcard _ _ entry⟩
  · exact (applyGroupId_figures _ _ _).1.trans (applyGroupId_figures _ _ _).1.symm
  · exact (applyGroupId_figures _ _ _).2.trans (applyGroupId_figures _ _ _).2.symm
  · rw [cardLabel_reportRow, cardLabel_reportRow]

end Report

end FavoniusBackend.Reports.EnergyRows
