import Mathlib.Data.String.Basic
import FavoniusBackend.State.Database

/-!
# The freshest telemetry of a vehicle

Two statements of `db/queries.py` merge the feed of the chargers and that of the vehicles: `_MERGED_VEHICLE_SOC_SQL`,
for the optimizer, drops the rows without a state of charge and sorts both feeds together;
`_MERGED_VEHICLE_TELEMETRY_SQL`, for the fleet views, picks the latest row of each feed and then the fresher of the two.
The second one drops rows without a state of charge from the vehicles' feed only.

Rows that are equal in the order of a statement may come in any order, so a statement is run on every permutation of the
tables.  The two states of charge agree just where `SocFromFresherRow` holds (`agrees_iff_socFromFresherRow`).
-/

namespace FavoniusBackend.State.FreshestTelemetry

open Lib.Sql
open Optimizer.Models (VehicleId)
open State.Database

/-! ## Tables -/

/-- A row of `telemetry`. -/
structure ChargerRow extends SocRow where
  chargingKw : Option ℚ := none
  chargerId : Option String := none
  isPlugged : Option Bool := none
  energyKwh : Option ℚ := none
  deriving DecidableEq, Repr

structure VehicleTelemetry where
  rows : List SocRow
  unique : (rows.map fun r => (r.vehicleId, r.time)).Nodup

/-- The parameters of both statements. -/
structure Scan where
  vehicleIds : List VehicleId
  recencyFloor : ℚ

/-! ## The statement of the optimizer -/

/-- `_MERGED_VEHICLE_SOC_SQL`. -/
def mergedVehicleSoc (scan : Scan) (telemetry : List ChargerRow) (vehicleTelemetry : List SocRow) : List SocReading :=
  firstOf SocReading.le SocReading.vehicleId
    ((telemetry.map ChargerRow.toSocRow).filterMap (socReading scan.vehicleIds scan.recencyFloor 0) ++
      vehicleTelemetry.filterMap (socReading scan.vehicleIds scan.recencyFloor 1))

/-! ## The statement of the fleet views -/

/-- A row of `charger_latest`. -/
structure ChargerLatest where
  vehicleId : VehicleId
  chargerTime : ℚ
  chargerSoc : Option ℚ
  chargingKw : Option ℚ
  chargerId : Option String
  isPlugged : Option Bool
  energyKwh : Option ℚ
  deriving DecidableEq, Repr

/-- A row of `telematics_latest`. -/
structure TelematicsLatest where
  vehicleId : VehicleId
  telematicsTime : ℚ
  telematicsSoc : ℚ
  deriving DecidableEq, Repr

/-- `ORDER BY vehicle_id, time DESC`. -/
def latestLe {α : Type} (vehicleId : α → VehicleId) (time : α → ℚ) (a b : α) : Prop :=
  vehicleId a < vehicleId b ∨ vehicleId a = vehicleId b ∧ time b ≤ time a

instance {α : Type} (vehicleId : α → VehicleId) (time : α → ℚ) : DecidableRel (latestLe vehicleId time) := fun a b =>
  inferInstanceAs (Decidable (vehicleId a < vehicleId b ∨ vehicleId a = vehicleId b ∧ time b ≤ time a))

def chargerReading (scan : Scan) (row : ChargerRow) : Option ChargerLatest :=
  match row.vehicleId with
  | some vid =>
    if vid ∈ scan.vehicleIds ∧ scan.recencyFloor < row.time then
      some ⟨vid, row.time, row.soc, row.chargingKw, row.chargerId, row.isPlugged, row.energyKwh⟩
    else none
  | none => none

def chargerLatest (scan : Scan) (telemetry : List ChargerRow) : List ChargerLatest :=
  firstOf (latestLe ChargerLatest.vehicleId ChargerLatest.chargerTime) ChargerLatest.vehicleId
    (telemetry.filterMap (chargerReading scan))

def telematicsReading (scan : Scan) (row : SocRow) : Option TelematicsLatest :=
  match row.vehicleId, row.soc with
  | some vid, some soc =>
    if vid ∈ scan.vehicleIds ∧ scan.recencyFloor < row.time then some ⟨vid, row.time, soc⟩ else none
  | _, _ => none

def telematicsLatest (scan : Scan) (vehicleTelemetry : List SocRow) : List TelematicsLatest :=
  firstOf (latestLe TelematicsLatest.vehicleId TelematicsLatest.telematicsTime) TelematicsLatest.vehicleId
    (vehicleTelemetry.filterMap (telematicsReading scan))

structure FreshestRow where
  vehicleId : Option VehicleId
  time : Option ℚ
  soc : Option ℚ
  chargingKw : Option ℚ
  chargerId : Option String
  isPlugged : Option Bool
  energyKwh : Option ℚ
  deriving DecidableEq, Repr

/-- The columns of the result, from the two rows that are joined. -/
def freshestRow : Option ChargerLatest × Option TelematicsLatest → FreshestRow
  | (c, t) =>
    { vehicleId := (c.map ChargerLatest.vehicleId).or (t.map TelematicsLatest.vehicleId)
      time :=
        match c, t with
        | none, t => t.map TelematicsLatest.telematicsTime
        | some c, none => some c.chargerTime
        | some c, some t => if c.chargerTime < t.telematicsTime then some t.telematicsTime else some c.chargerTime
      soc :=
        match c, t with
        | none, t => t.map TelematicsLatest.telematicsSoc
        | some c, none => c.chargerSoc
        | some c, some t => if c.chargerTime < t.telematicsTime then some t.telematicsSoc else c.chargerSoc
      chargingKw := c.bind ChargerLatest.chargingKw
      chargerId := c.bind ChargerLatest.chargerId
      isPlugged := c.bind ChargerLatest.isPlugged
      energyKwh := c.bind ChargerLatest.energyKwh }

/-- `_MERGED_VEHICLE_TELEMETRY_SQL`. -/
def mergedVehicleTelemetry (scan : Scan) (telemetry : List ChargerRow) (vehicleTelemetry : List SocRow) :
    List FreshestRow :=
  (fullOuterJoin ChargerLatest.vehicleId TelematicsLatest.vehicleId (chargerLatest scan telemetry)
    (telematicsLatest scan vehicleTelemetry)).map freshestRow

/-! ## Agreement -/

/-- However the rows come in, a state of charge of the vehicle that the first statement yields is the one that the second
one yields. -/
def Agrees (scan : Scan) (telemetry : List ChargerRow) (vehicleTelemetry : VehicleTelemetry) (vid : VehicleId) : Prop :=
  ∀ t t' u u', t.Perm telemetry → t'.Perm telemetry → u.Perm vehicleTelemetry.rows → u'.Perm vehicleTelemetry.rows →
    ∀ r ∈ mergedVehicleSoc scan t u, r.vehicleId = vid →
      ∃ r' ∈ mergedVehicleTelemetry scan t' u', r'.vehicleId = some vid ∧ r'.soc = some r.soc

def chargerRows (scan : Scan) (telemetry : List ChargerRow) (vid : VehicleId) : List ChargerRow :=
  telemetry.filter fun row =>
    decide (row.vehicleId = some vid ∧ vid ∈ scan.vehicleIds ∧ scan.recencyFloor < row.time)

def telematicsRows (scan : Scan) (vehicleTelemetry : List SocRow) (vid : VehicleId) : List SocRow :=
  vehicleTelemetry.filter fun row =>
    decide (row.vehicleId = some vid ∧ row.soc ≠ none ∧ vid ∈ scan.vehicleIds ∧ scan.recencyFloor < row.time)

/-- Neither feed has a state of charge; or the vehicles' feed has one that is newer than every row of the chargers' feed;
or the newest rows of the chargers' feed have one, and the same. -/
def SocFromFresherRow (scan : Scan) (telemetry : List ChargerRow) (vehicleTelemetry : VehicleTelemetry)
    (vid : VehicleId) : Prop :=
  ((∀ c ∈ chargerRows scan telemetry vid, c.soc = none) ∧ telematicsRows scan vehicleTelemetry.rows vid = []) ∨
  (∃ t ∈ telematicsRows scan vehicleTelemetry.rows vid, ∀ c ∈ chargerRows scan telemetry vid, c.time < t.time) ∨
  ∃ soc, ∀ c ∈ chargerRows scan telemetry vid,
    (∀ c' ∈ chargerRows scan telemetry vid, c'.time ≤ c.time) → c.soc = some soc

/-! ## What the statements pick -/

instance {α : Type} (vehicleId : α → VehicleId) (time : α → ℚ) : Std.Total (latestLe vehicleId time) where
  total a b := by
    unfold latestLe
    rcases lt_trichotomy (vehicleId a) (vehicleId b) with h | h | h
    · exact .inl (.inl h)
    · rcases le_total (time b) (time a) with ht | ht
      · exact .inl (.inr ⟨h, ht⟩)
      · exact .inr (.inr ⟨h.symm, ht⟩)
    · exact .inr (.inl h)

instance {α : Type} (vehicleId : α → VehicleId) (time : α → ℚ) : IsTrans α (latestLe vehicleId time) where
  trans a b c := by
    unfold latestLe
    rintro (hab | ⟨hab, htab⟩) (hbc | ⟨hbc, htbc⟩)
    · exact .inl (hab.trans hbc)
    · exact .inl (hbc ▸ hab)
    · exact .inl (hab ▸ hbc)
    · exact .inr ⟨hab.trans hbc, htbc.trans htab⟩

instance : Std.Total SocReading.le where
  total a b := by
    unfold SocReading.le
    rcases lt_trichotomy a.vehicleId b.vehicleId with h | h | h
    · exact .inl (.inl h)
    · rcases lt_trichotomy a.time b.time with ht | ht | ht
      · exact .inr (.inr ⟨h.symm, .inl ht⟩)
      · rcases le_total a.srcPriority b.srcPriority with hp | hp
        · exact .inl (.inr ⟨h, .inr ⟨ht, hp⟩⟩)
        · exact .inr (.inr ⟨h.symm, .inr ⟨ht.symm, hp⟩⟩)
      · exact .inl (.inr ⟨h, .inl ht⟩)
    · exact .inr (.inl h)

instance : IsTrans SocReading SocReading.le where
  trans a b c := by
    unfold SocReading.le
    rintro (hab | ⟨hab, htab⟩) (hbc | ⟨hbc, htbc⟩)
    · exact .inl (hab.trans hbc)
    · exact .inl (hbc ▸ hab)
    · exact .inl (hab ▸ hbc)
    · refine .inr ⟨hab.trans hbc, ?_⟩
      rcases htab with htab | ⟨htab, hpab⟩ <;> rcases htbc with htbc | ⟨htbc, hpbc⟩
      · exact .inl (htbc.trans htab)
      · exact .inl (htbc ▸ htab)
      · exact .inl (htab ▸ htbc)
      · exact .inr ⟨htab.trans htbc, hpab.trans hpbc⟩

section Picks

variable {scan : Scan} {telemetry : List ChargerRow} {vehicleTelemetry : List SocRow} {vid : VehicleId}

/-- The row that a charger row gives to `charger_latest`. -/
def ChargerRow.latest (vid : VehicleId) (row : ChargerRow) : ChargerLatest :=
  ⟨vid, row.time, row.soc, row.chargingKw, row.chargerId, row.isPlugged, row.energyKwh⟩

theorem mem_chargerRows {row : ChargerRow} :
    row ∈ chargerRows scan telemetry vid ↔
      row ∈ telemetry ∧ row.vehicleId = some vid ∧ vid ∈ scan.vehicleIds ∧ scan.recencyFloor < row.time := by
  rw [chargerRows, List.mem_filter, decide_eq_true_eq]

theorem mem_telematicsRows {row : SocRow} :
    row ∈ telematicsRows scan vehicleTelemetry vid ↔
      row ∈ vehicleTelemetry ∧ row.vehicleId = some vid ∧ row.soc ≠ none ∧ vid ∈ scan.vehicleIds ∧
        scan.recencyFloor < row.time := by
  rw [telematicsRows, List.mem_filter, decide_eq_true_eq]

theorem chargerReading_eq_some {row : ChargerRow} {c : ChargerLatest} :
    chargerReading scan row = some c ↔
      row.vehicleId = some c.vehicleId ∧ c.vehicleId ∈ scan.vehicleIds ∧ scan.recencyFloor < row.time ∧
        row.latest c.vehicleId = c := by
  unfold chargerReading
  split
  · rename_i v hv
    split
    · rename_i hscan
      constructor
      · intro h
        obtain rfl := Option.some.inj h
        exact ⟨hv, hscan.1, hscan.2, rfl⟩
      · rintro ⟨hc, -, -, hlatest⟩
        obtain rfl := Option.some.inj (hv.symm.trans hc)
        rw [← hlatest]
        rfl
    · rename_i hscan
      constructor
      · exact fun h => nomatch h
      · rintro ⟨hc, hmem, htime, -⟩
        obtain rfl := Option.some.inj (hv.symm.trans hc)
        exact absurd ⟨hmem, htime⟩ hscan
  · rename_i hnone
    constructor
    · exact fun h => nomatch h
    · rintro ⟨hv, -⟩
      exact absurd hv (by simp [hnone])

theorem telematicsReading_eq_some {row : SocRow} {t : TelematicsLatest} :
    telematicsReading scan row = some t ↔
      row.vehicleId = some t.vehicleId ∧ row.soc = some t.telematicsSoc ∧ t.vehicleId ∈ scan.vehicleIds ∧
        scan.recencyFloor < row.time ∧ row.time = t.telematicsTime := by
  unfold telematicsReading
  split
  · rename_i v soc hv hsoc
    split
    · rename_i hscan
      constructor
      · intro h
        obtain rfl := Option.some.inj h
        exact ⟨hv, hsoc, hscan.1, hscan.2, rfl⟩
      · rintro ⟨hv', hsoc', -, -, htime⟩
        obtain rfl := Option.some.inj (hv.symm.trans hv')
        obtain rfl := Option.some.inj (hsoc.symm.trans hsoc')
        rw [htime]
    · rename_i hscan
      constructor
      · exact fun h => nomatch h
      · rintro ⟨hv', -, hmem, htime, -⟩
        obtain rfl := Option.some.inj (hv.symm.trans hv')
        exact absurd ⟨hmem, htime⟩ hscan
  · rename_i hnone
    constructor
    · exact fun h => nomatch h
    · rintro ⟨hv, hsoc, -⟩
      exact absurd hsoc (hnone _ _ hv)

theorem chargerReading_of_mem {row : ChargerRow} (h : row ∈ chargerRows scan telemetry vid) :
    row.latest vid ∈ telemetry.filterMap (chargerReading scan) := by
  obtain ⟨hmem, hv, hvid, htime⟩ := mem_chargerRows.mp h
  exact List.mem_filterMap.mpr ⟨row, hmem, chargerReading_eq_some.mpr ⟨hv, hvid, htime, rfl⟩⟩

theorem of_mem_chargerLatest {c : ChargerLatest} (h : c ∈ chargerLatest scan telemetry) :
    ∃ row ∈ chargerRows scan telemetry c.vehicleId, row.latest c.vehicleId = c ∧
      ∀ row' ∈ chargerRows scan telemetry c.vehicleId, row'.time ≤ row.time := by
  obtain ⟨row, hmem, hreading⟩ := List.mem_filterMap.mp (mem_of_mem_firstOf h)
  obtain ⟨hv, hvid, htime, hlatest⟩ := chargerReading_eq_some.mp hreading
  refine ⟨row, mem_chargerRows.mpr ⟨hmem, hv, hvid, htime⟩, hlatest, fun row' hrow' => ?_⟩
  have hle := le_of_mem_firstOf h (chargerReading_of_mem hrow') rfl
  rw [← hlatest] at hle
  rcases hle with hlt | ⟨-, hle⟩
  · exact absurd hlt (lt_irrefl _)
  · exact hle

theorem exists_chargerLatest {row : ChargerRow} (h : row ∈ chargerRows scan telemetry vid) :
    ∃ c ∈ chargerLatest scan telemetry, c.vehicleId = vid :=
  exists_mem_firstOf (chargerReading_of_mem h)

theorem latest_mem_chargerLatest {row : ChargerRow} (h : row ∈ chargerRows scan telemetry vid)
    (hnewest : ∀ row' ∈ chargerRows scan telemetry vid, row'.time ≤ row.time) :
    row.latest vid ∈ chargerLatest scan (row :: telemetry.erase row) := by
  obtain ⟨-, hv, hvid, htime⟩ := mem_chargerRows.mp h
  have hreading : chargerReading scan row = some (row.latest vid) :=
    chargerReading_eq_some.mpr ⟨hv, hvid, htime, rfl⟩
  rw [chargerLatest, List.filterMap_cons_some hreading]
  refine mem_firstOf_cons fun c hc hkey => .inr ⟨hkey.symm, ?_⟩
  obtain ⟨row', hmem', hreading'⟩ := List.mem_filterMap.mp hc
  obtain ⟨hv', hvid', htime', hlatest'⟩ := chargerReading_eq_some.mp hreading'
  have hvid'' : c.vehicleId = vid := hkey
  rw [hvid''] at hv' hvid' hlatest'
  rw [← hlatest']
  exact hnewest row' (mem_chargerRows.mpr ⟨List.mem_of_mem_erase hmem', hv', hvid', htime'⟩)

theorem telematicsReading_of_mem {row : SocRow} {soc : ℚ} (h : row ∈ telematicsRows scan vehicleTelemetry vid)
    (hsoc : row.soc = some soc) : ⟨vid, row.time, soc⟩ ∈ vehicleTelemetry.filterMap (telematicsReading scan) := by
  obtain ⟨hmem, hv, -, hvid, htime⟩ := mem_telematicsRows.mp h
  exact List.mem_filterMap.mpr ⟨row, hmem, telematicsReading_eq_some.mpr ⟨hv, hsoc, hvid, htime, rfl⟩⟩

theorem of_mem_telematicsLatest {t : TelematicsLatest} (h : t ∈ telematicsLatest scan vehicleTelemetry) :
    ∃ row ∈ telematicsRows scan vehicleTelemetry t.vehicleId, row.soc = some t.telematicsSoc ∧
      row.time = t.telematicsTime ∧
      ∀ row' ∈ telematicsRows scan vehicleTelemetry t.vehicleId, row'.time ≤ row.time := by
  obtain ⟨row, hmem, hreading⟩ := List.mem_filterMap.mp (mem_of_mem_firstOf h)
  obtain ⟨hv, hsoc, hvid, hrecent, htime⟩ := telematicsReading_eq_some.mp hreading
  refine ⟨row, mem_telematicsRows.mpr ⟨hmem, hv, by simp [hsoc], hvid, hrecent⟩, hsoc, htime, fun row' hrow' => ?_⟩
  obtain ⟨soc', hsoc'⟩ := Option.ne_none_iff_exists'.mp (mem_telematicsRows.mp hrow').2.2.1
  rcases le_of_mem_firstOf h (telematicsReading_of_mem hrow' hsoc') rfl with hlt | ⟨-, hle⟩
  · exact absurd hlt (lt_irrefl _)
  · exact htime ▸ hle

theorem exists_telematicsLatest {row : SocRow} (h : row ∈ telematicsRows scan vehicleTelemetry vid) :
    ∃ t ∈ telematicsLatest scan vehicleTelemetry, t.vehicleId = vid := by
  obtain ⟨soc, hsoc⟩ := Option.ne_none_iff_exists'.mp (mem_telematicsRows.mp h).2.2.1
  exact exists_mem_firstOf (telematicsReading_of_mem h hsoc)

/-! ## The row of the optimizer's statement -/

theorem socReading_eq_some {srcPriority : ℕ} {row : SocRow} {r : SocReading} :
    socReading scan.vehicleIds scan.recencyFloor srcPriority row = some r ↔
      row.vehicleId = some r.vehicleId ∧ row.soc = some r.soc ∧ r.vehicleId ∈ scan.vehicleIds ∧
        scan.recencyFloor < row.time ∧ row.time = r.time ∧ srcPriority = r.srcPriority := by
  unfold socReading
  split
  · rename_i v soc hv hsoc
    split
    · rename_i hscan
      constructor
      · intro h
        obtain rfl := Option.some.inj h
        exact ⟨hv, hsoc, hscan.1, hscan.2, rfl, rfl⟩
      · rintro ⟨hv', hsoc', -, -, htime, hprio⟩
        obtain rfl := Option.some.inj (hv.symm.trans hv')
        obtain rfl := Option.some.inj (hsoc.symm.trans hsoc')
        rw [htime, hprio]
    · rename_i hscan
      constructor
      · exact fun h => nomatch h
      · rintro ⟨hv', -, hmem, htime, -⟩
        obtain rfl := Option.some.inj (hv.symm.trans hv')
        exact absurd ⟨hmem, htime⟩ hscan
  · rename_i hnone
    constructor
    · exact fun h => nomatch h
    · rintro ⟨hv, hsoc, -⟩
      exact absurd hsoc (hnone _ _ hv)

theorem chargerSocReading_of_mem {row : ChargerRow} {soc : ℚ} (h : row ∈ chargerRows scan telemetry vid)
    (hsoc : row.soc = some soc) :
    ⟨vid, soc, row.time, 0⟩ ∈
      (telemetry.map ChargerRow.toSocRow).filterMap (socReading scan.vehicleIds scan.recencyFloor 0) := by
  obtain ⟨hmem, hv, hvid, htime⟩ := mem_chargerRows.mp h
  exact List.mem_filterMap.mpr
    ⟨row.toSocRow, List.mem_map_of_mem hmem, socReading_eq_some.mpr ⟨hv, hsoc, hvid, htime, rfl, rfl⟩⟩

theorem telematicsSocReading_of_mem {row : SocRow} {soc : ℚ} (h : row ∈ telematicsRows scan vehicleTelemetry vid)
    (hsoc : row.soc = some soc) :
    ⟨vid, soc, row.time, 1⟩ ∈ vehicleTelemetry.filterMap (socReading scan.vehicleIds scan.recencyFloor 1) := by
  obtain ⟨hmem, hv, -, hvid, htime⟩ := mem_telematicsRows.mp h
  exact List.mem_filterMap.mpr ⟨row, hmem, socReading_eq_some.mpr ⟨hv, hsoc, hvid, htime, rfl, rfl⟩⟩

theorem of_mem_mergedVehicleSoc {r : SocReading} (h : r ∈ mergedVehicleSoc scan telemetry vehicleTelemetry) :
    (∃ row ∈ chargerRows scan telemetry r.vehicleId, row.soc = some r.soc ∧ row.time = r.time) ∨
    (∃ row ∈ telematicsRows scan vehicleTelemetry r.vehicleId,
      row.soc = some r.soc ∧ row.time = r.time ∧ r.srcPriority = 1) := by
  rcases List.mem_append.mp (mem_of_mem_firstOf h) with h | h
  · obtain ⟨row, hmem, hreading⟩ := List.mem_filterMap.mp h
    obtain ⟨crow, hcrow, rfl⟩ := List.mem_map.mp hmem
    obtain ⟨hv, hsoc, hvid, hrecent, htime, -⟩ := socReading_eq_some.mp hreading
    exact .inl ⟨crow, mem_chargerRows.mpr ⟨hcrow, hv, hvid, hrecent⟩, hsoc, htime⟩
  · obtain ⟨row, hmem, hreading⟩ := List.mem_filterMap.mp h
    obtain ⟨hv, hsoc, hvid, hrecent, htime, hprio⟩ := socReading_eq_some.mp hreading
    exact .inr ⟨row, mem_telematicsRows.mpr ⟨hmem, hv, by simp [hsoc], hvid, hrecent⟩, hsoc, htime, hprio.symm⟩

/-- A charger row with a state of charge is older than the result, or as old and then the result is not telematics. -/
theorem charger_le_of_mem_mergedVehicleSoc {r : SocReading}
    (h : r ∈ mergedVehicleSoc scan telemetry vehicleTelemetry) {row : ChargerRow} {soc : ℚ}
    (hrow : row ∈ chargerRows scan telemetry r.vehicleId) (hsoc : row.soc = some soc) :
    row.time < r.time ∨ row.time = r.time ∧ r.srcPriority = 0 := by
  have hmem := List.mem_append_left
    (vehicleTelemetry.filterMap (socReading scan.vehicleIds scan.recencyFloor 1)) (chargerSocReading_of_mem hrow hsoc)
  rcases le_of_mem_firstOf h hmem rfl with hlt | ⟨-, hlt | ⟨heq, hprio⟩⟩
  · exact absurd hlt (lt_irrefl _)
  · exact .inl hlt
  · exact .inr ⟨heq.symm, Nat.le_zero.mp hprio⟩

theorem telematics_le_of_mem_mergedVehicleSoc {r : SocReading}
    (h : r ∈ mergedVehicleSoc scan telemetry vehicleTelemetry) {row : SocRow}
    (hrow : row ∈ telematicsRows scan vehicleTelemetry r.vehicleId) : row.time ≤ r.time := by
  obtain ⟨soc, hsoc⟩ := Option.ne_none_iff_exists'.mp (mem_telematicsRows.mp hrow).2.2.1
  have hmem := List.mem_append_right
    ((telemetry.map ChargerRow.toSocRow).filterMap (socReading scan.vehicleIds scan.recencyFloor 0))
    (telematicsSocReading_of_mem hrow hsoc)
  rcases le_of_mem_firstOf h hmem rfl with hlt | ⟨-, hlt | ⟨heq, -⟩⟩
  · exact absurd hlt (lt_irrefl _)
  · exact hlt.le
  · exact heq.ge

theorem exists_mergedVehicleSoc
    (h : (∃ c ∈ chargerRows scan telemetry vid, c.soc ≠ none) ∨ telematicsRows scan vehicleTelemetry vid ≠ []) :
    ∃ r ∈ mergedVehicleSoc scan telemetry vehicleTelemetry, r.vehicleId = vid := by
  rcases h with ⟨c, hc, hsoc⟩ | h
  · obtain ⟨soc, hsoc⟩ := Option.ne_none_iff_exists'.mp hsoc
    exact exists_mem_firstOf (List.mem_append_left _ (chargerSocReading_of_mem hc hsoc))
  · obtain ⟨row, hrow⟩ := List.exists_mem_of_ne_nil _ h
    obtain ⟨soc, hsoc⟩ := Option.ne_none_iff_exists'.mp (mem_telematicsRows.mp hrow).2.2.1
    exact exists_mem_firstOf (List.mem_append_right _ (telematicsSocReading_of_mem hrow hsoc))

/-! ## The row of the fleet views' statement -/

theorem soc_of_charger {c : ChargerLatest} (hc : c ∈ chargerLatest scan telemetry)
    (hle : ∀ row ∈ telematicsRows scan vehicleTelemetry c.vehicleId, row.time ≤ c.chargerTime) :
    ∃ r ∈ mergedVehicleTelemetry scan telemetry vehicleTelemetry,
      r.vehicleId = some c.vehicleId ∧ r.soc = c.chargerSoc := by
  by_cases hpartner : ∃ t ∈ telematicsLatest scan vehicleTelemetry, t.vehicleId = c.vehicleId
  · obtain ⟨t, ht, hkey⟩ := hpartner
    obtain ⟨row, hrow, -, htime, -⟩ := of_mem_telematicsLatest ht
    have hnot : ¬ c.chargerTime < t.telematicsTime := not_lt.mpr (htime ▸ hle row (hkey ▸ hrow))
    exact ⟨freshestRow (some c, some t),
      List.mem_map_of_mem (mem_fullOuterJoin.mpr (.inl ⟨c, hc, t, ht, hkey, rfl⟩)), rfl, if_neg hnot⟩
  · have hnone : ∀ t ∈ telematicsLatest scan vehicleTelemetry, t.vehicleId ≠ c.vehicleId :=
      fun t ht hkey => hpartner ⟨t, ht, hkey⟩
    exact ⟨freshestRow (some c, none),
      List.mem_map_of_mem (mem_fullOuterJoin.mpr (.inr (.inl ⟨c, hc, hnone, rfl⟩))), rfl, rfl⟩

theorem soc_of_telematics {t : TelematicsLatest} (ht : t ∈ telematicsLatest scan vehicleTelemetry)
    (hlt : ∀ row ∈ chargerRows scan telemetry t.vehicleId, row.time < t.telematicsTime) :
    ∃ r ∈ mergedVehicleTelemetry scan telemetry vehicleTelemetry,
      r.vehicleId = some t.vehicleId ∧ r.soc = some t.telematicsSoc := by
  by_cases hpartner : ∃ c ∈ chargerLatest scan telemetry, t.vehicleId = c.vehicleId
  · obtain ⟨c, hc, hkey⟩ := hpartner
    obtain ⟨row, hrow, hlatest, -⟩ := of_mem_chargerLatest hc
    have hnewer : c.chargerTime < t.telematicsTime := by
      rw [← hlatest]
      exact hlt row (hkey ▸ hrow)
    exact ⟨freshestRow (some c, some t),
      List.mem_map_of_mem (mem_fullOuterJoin.mpr (.inl ⟨c, hc, t, ht, hkey, rfl⟩)), congrArg some hkey.symm,
      if_pos hnewer⟩
  · have hnone : ∀ c ∈ chargerLatest scan telemetry, t.vehicleId ≠ c.vehicleId :=
      fun c hc hkey => hpartner ⟨c, hc, hkey⟩
    exact ⟨freshestRow (none, some t),
      List.mem_map_of_mem (mem_fullOuterJoin.mpr (.inr (.inr ⟨t, ht, hnone, rfl⟩))), rfl, rfl⟩

theorem soc_eq_of_mem {c : ChargerLatest} (hc : c ∈ chargerLatest scan telemetry)
    (hle : ∀ row ∈ telematicsRows scan vehicleTelemetry c.vehicleId, row.time ≤ c.chargerTime) {r : FreshestRow}
    (hr : r ∈ mergedVehicleTelemetry scan telemetry vehicleTelemetry) (hvid : r.vehicleId = some c.vehicleId) :
    r.soc = c.chargerSoc := by
  have hsame : ∀ c' ∈ chargerLatest scan telemetry, c'.vehicleId = c.vehicleId → c' = c := fun c' hc' hkey =>
    List.inj_on_of_nodup_map (firstOf_keys_nodup _) hc' hc hkey
  obtain ⟨pair, hpair, rfl⟩ := List.mem_map.mp hr
  rcases mem_fullOuterJoin.mp hpair with ⟨c', hc', t, ht, hkey, rfl⟩ | ⟨c', hc', -, rfl⟩ | ⟨t, -, hnone, rfl⟩
  · obtain rfl := hsame c' hc' (Option.some.inj hvid)
    obtain ⟨row, hrow, -, htime, -⟩ := of_mem_telematicsLatest ht
    exact if_neg (not_lt.mpr (htime ▸ hle row (hkey ▸ hrow)))
  · obtain rfl := hsame c' hc' (Option.some.inj hvid)
    rfl
  · exact absurd (Option.some.inj hvid) (hnone c hc)

end Picks

/-! ## When they agree -/

section Agreement

variable {scan : Scan} {telemetry t t' : List ChargerRow} {vehicleTelemetry : VehicleTelemetry} {u u' : List SocRow}
  {vid : VehicleId}

theorem chargerRows_perm (h : t.Perm t') {row : ChargerRow} :
    row ∈ chargerRows scan t vid ↔ row ∈ chargerRows scan t' vid := by
  rw [mem_chargerRows, mem_chargerRows, h.mem_iff]

theorem telematicsRows_perm (h : u.Perm u') {row : SocRow} :
    row ∈ telematicsRows scan u vid ↔ row ∈ telematicsRows scan u' vid := by
  rw [mem_telematicsRows, mem_telematicsRows, h.mem_iff]

theorem VehicleTelemetry.eq_of_time {row row' : SocRow} (h : row ∈ telematicsRows scan vehicleTelemetry.rows vid)
    (h' : row' ∈ telematicsRows scan vehicleTelemetry.rows vid) (htime : row.time = row'.time) : row = row' := by
  obtain ⟨hmem, hv, -⟩ := mem_telematicsRows.mp h
  obtain ⟨hmem', hv', -⟩ := mem_telematicsRows.mp h'
  exact List.inj_on_of_nodup_map vehicleTelemetry.unique hmem hmem' (Prod.ext (hv.trans hv'.symm) htime)

theorem not_mem_of_no_soc (hchargers : ∀ c ∈ chargerRows scan t vid, c.soc = none)
    (htelematics : ∀ row, row ∉ telematicsRows scan u vid) {r : SocReading} (hr : r ∈ mergedVehicleSoc scan t u) :
    r.vehicleId ≠ vid := by
  rintro rfl
  rcases of_mem_mergedVehicleSoc hr with ⟨row, hrow, hsoc, -⟩ | ⟨row, hrow, -⟩
  · rw [hchargers row hrow] at hsoc
    exact nomatch hsoc
  · exact htelematics row hrow

theorem agrees_of_telematics {row : SocRow} (hrow : row ∈ telematicsRows scan vehicleTelemetry.rows vid)
    (hnewer : ∀ c ∈ chargerRows scan telemetry vid, c.time < row.time) : Agrees scan telemetry vehicleTelemetry vid := by
  intro t t' u u' ht ht' hu hu' r hr hvid
  subst hvid
  have hrowu := (telematicsRows_perm hu).mpr hrow
  have hler := telematics_le_of_mem_mergedVehicleSoc hr hrowu
  obtain ⟨tl, htl, hkey⟩ := exists_telematicsLatest ((telematicsRows_perm hu').mpr hrow)
  obtain ⟨picked, hpicked, hpsoc, hptime, hpnewest⟩ := of_mem_telematicsLatest htl
  rw [hkey] at hpicked hpnewest
  have hple := hpnewest row ((telematicsRows_perm hu').mpr hrow)
  have hlt : ∀ c ∈ chargerRows scan t' tl.vehicleId, c.time < tl.telematicsTime := by
    intro c hc
    rw [hkey] at hc
    rw [← hptime]
    exact (hnewer c ((chargerRows_perm ht').mp hc)).trans_le hple
  rcases of_mem_mergedVehicleSoc hr with ⟨c, hc, -, hctime⟩ | ⟨read, hread, hrsoc, hrtime, -⟩
  · have hold := hnewer c ((chargerRows_perm ht).mp hc)
    exact absurd (hctime ▸ hler) (not_le.mpr hold)
  · have hsame : read.time = picked.time := by
      refine le_antisymm (hpnewest read ((telematicsRows_perm hu').mpr ((telematicsRows_perm hu).mp hread))) ?_
      rw [hrtime]
      exact telematics_le_of_mem_mergedVehicleSoc hr
        ((telematicsRows_perm hu).mpr ((telematicsRows_perm hu').mp hpicked))
    have heq := VehicleTelemetry.eq_of_time ((telematicsRows_perm hu).mp hread)
      ((telematicsRows_perm hu').mp hpicked) hsame
    obtain ⟨r', hr', hvid', hsoc'⟩ := soc_of_telematics htl hlt
    refine ⟨r', hr', hvid'.trans (congrArg some hkey), hsoc'.trans ?_⟩
    rw [← hpsoc, ← heq, hrsoc]

theorem agrees_of_charger {soc : ℚ}
    (hnotNewer : ¬ ∃ row ∈ telematicsRows scan vehicleTelemetry.rows vid,
      ∀ c ∈ chargerRows scan telemetry vid, c.time < row.time)
    (hsoc : ∀ c ∈ chargerRows scan telemetry vid,
      (∀ c' ∈ chargerRows scan telemetry vid, c'.time ≤ c.time) → c.soc = some soc) :
    Agrees scan telemetry vehicleTelemetry vid := by
  intro t t' u u' ht ht' hu hu' r hr hvid
  subst hvid
  have hcharged : ∀ row ∈ telematicsRows scan vehicleTelemetry.rows r.vehicleId,
      ∃ c ∈ chargerRows scan telemetry r.vehicleId, row.time ≤ c.time := by
    intro row hrow
    by_contra hnone
    exact hnotNewer ⟨row, hrow, fun c hc => not_le.mp fun hle => hnone ⟨c, hc, hle⟩⟩
  obtain ⟨c₀, hc₀⟩ : ∃ c, c ∈ chargerRows scan telemetry r.vehicleId := by
    rcases of_mem_mergedVehicleSoc hr with ⟨c, hc, -⟩ | ⟨row, hrow, -⟩
    · exact ⟨c, (chargerRows_perm ht).mp hc⟩
    · obtain ⟨c, hc, -⟩ := hcharged row ((telematicsRows_perm hu).mp hrow)
      exact ⟨c, hc⟩
  obtain ⟨cl, hcl, hkey⟩ := exists_chargerLatest ((chargerRows_perm ht').mpr hc₀)
  obtain ⟨newest, hnewest, hlatest, hmax⟩ := of_mem_chargerLatest hcl
  rw [hkey] at hnewest hmax hlatest
  have hmax' : ∀ c' ∈ chargerRows scan telemetry r.vehicleId, c'.time ≤ newest.time :=
    fun c' hc' => hmax c' ((chargerRows_perm ht').mpr hc')
  have hnewestSoc := hsoc newest ((chargerRows_perm ht').mp hnewest) hmax'
  have htele : ∀ row ∈ telematicsRows scan vehicleTelemetry.rows r.vehicleId, row.time ≤ newest.time := by
    intro row hrow
    obtain ⟨c, hc, hle⟩ := hcharged row hrow
    exact hle.trans (hmax' c hc)
  have hle : ∀ row ∈ telematicsRows scan u' cl.vehicleId, row.time ≤ cl.chargerTime := by
    intro row hrow
    rw [hkey] at hrow
    rw [← hlatest]
    exact htele row ((telematicsRows_perm hu').mp hrow)
  obtain ⟨r', hr', hvid', hsoc'⟩ := soc_of_charger hcl hle
  have hclSoc : cl.chargerSoc = some soc := by
    rw [← hlatest]
    exact hnewestSoc
  refine ⟨r', hr', hvid'.trans (congrArg some hkey), hsoc'.trans (hclSoc.trans ?_)⟩
  have hler := charger_le_of_mem_mergedVehicleSoc hr
    ((chargerRows_perm ht).mpr ((chargerRows_perm ht').mp hnewest)) hnewestSoc
  rcases of_mem_mergedVehicleSoc hr with ⟨c, hc, hcsoc, hctime⟩ | ⟨row, hrow, -, hrtime, hprio⟩
  · -- the optimizer's row is one of the newest as well
    have hcmax : ∀ c' ∈ chargerRows scan telemetry r.vehicleId, c'.time ≤ c.time := by
      intro c' hc'
      refine (hmax' c' hc').trans ?_
      rw [hctime]
      exact hler.elim le_of_lt fun h => h.1.le
    rw [← hcsoc, hsoc c ((chargerRows_perm ht).mp hc) hcmax]
  · have hle := htele row ((telematicsRows_perm hu).mp hrow)
    rcases hler with hlt | ⟨-, hzero⟩
    · exact absurd (hrtime ▸ hle) (not_le.mpr hlt)
    · rw [hprio] at hzero
      exact nomatch hzero

theorem soc_of_agrees (h : Agrees scan telemetry vehicleTelemetry vid)
    (hnotNewer : ¬ ∃ row ∈ telematicsRows scan vehicleTelemetry.rows vid,
      ∀ c ∈ chargerRows scan telemetry vid, c.time < row.time)
    {r : SocReading} (hr : r ∈ mergedVehicleSoc scan telemetry vehicleTelemetry.rows) (hvid : r.vehicleId = vid)
    {c : ChargerRow} (hc : c ∈ chargerRows scan telemetry vid)
    (hnewest : ∀ c' ∈ chargerRows scan telemetry vid, c'.time ≤ c.time) : c.soc = some r.soc := by
  have hperm : (c :: telemetry.erase c).Perm telemetry := (List.perm_cons_erase (mem_chargerRows.mp hc).1).symm
  obtain ⟨r', hr', hvid', hsoc'⟩ :=
    h telemetry _ vehicleTelemetry.rows vehicleTelemetry.rows (.refl _) hperm (.refl _) (.refl _) r hr hvid
  have hle : ∀ row ∈ telematicsRows scan vehicleTelemetry.rows vid, row.time ≤ c.time := by
    intro row hrow
    by_contra hlt
    exact hnotNewer ⟨row, hrow, fun c' hc' => (hnewest c' hc').trans_lt (not_le.mp hlt)⟩
  rw [← hsoc', soc_eq_of_mem (latest_mem_chargerLatest hc hnewest) hle hr' hvid']
  rfl

/-- The states of charge agree if and only if it comes from the fresher row. -/
theorem agrees_iff_socFromFresherRow (scan : Scan) (telemetry : List ChargerRow) (vehicleTelemetry : VehicleTelemetry)
    (vid : VehicleId) :
    Agrees scan telemetry vehicleTelemetry vid ↔ SocFromFresherRow scan telemetry vehicleTelemetry vid := by
  constructor
  · intro h
    by_cases hsome : (∃ c ∈ chargerRows scan telemetry vid, c.soc ≠ none) ∨
        telematicsRows scan vehicleTelemetry.rows vid ≠ []
    · by_cases hnewer : ∃ row ∈ telematicsRows scan vehicleTelemetry.rows vid,
          ∀ c ∈ chargerRows scan telemetry vid, c.time < row.time
      · exact .inr (.inl hnewer)
      · obtain ⟨r, hr, hvid⟩ := exists_mergedVehicleSoc hsome
        exact .inr (.inr ⟨r.soc, fun c hc hnewest => soc_of_agrees h hnewer hr hvid hc hnewest⟩)
    · obtain ⟨hchargers, htelematics⟩ := not_or.mp hsome
      exact .inl ⟨fun c hc => by_contra fun hsoc => hchargers ⟨c, hc, hsoc⟩, not_not.mp htelematics⟩
  · rintro (⟨hchargers, htelematics⟩ | ⟨row, hrow, hnewer⟩ | ⟨soc, hsoc⟩)
    · intro t t' u u' ht ht' hu hu' r hr hvid
      refine absurd hvid (not_mem_of_no_soc (fun c hc => hchargers c ((chargerRows_perm ht).mp hc)) ?_ hr)
      intro row hrow
      have hmem := (telematicsRows_perm hu).mp hrow
      rw [htelematics] at hmem
      exact List.not_mem_nil hmem
    · exact agrees_of_telematics hrow hnewer
    · by_cases hnewer : ∃ row ∈ telematicsRows scan vehicleTelemetry.rows vid,
          ∀ c ∈ chargerRows scan telemetry vid, c.time < row.time
      · obtain ⟨row, hrow, hnewer⟩ := hnewer
        exact agrees_of_telematics hrow hnewer
      · exact agrees_of_charger hnewer hsoc

end Agreement

/-! ## A charger row without a state of charge -/

/-- The vehicle drove in with 62 %; a minute later the charger reports the power, and no state of charge. -/
theorem power_row_hides_soc :
    ¬ Agrees ⟨["bus-7"], 0⟩
      [{ vehicleId := some "bus-7", soc := none, time := 7200, chargingKw := some 88, chargerId := some "cp-1" }]
      ⟨[{ vehicleId := some "bus-7", soc := some (62 / 100), time := 7140 }], by decide⟩ "bus-7" := by
  intro h
  obtain ⟨r', hr', -, hsoc⟩ := h _ _ _ _ (.refl _) (.refl _) (.refl _) (.refl _) ⟨"bus-7", 62 / 100, 7140, 1⟩
    (by decide +kernel) rfl
  revert r'
  decide +kernel

end FavoniusBackend.State.FreshestTelemetry
