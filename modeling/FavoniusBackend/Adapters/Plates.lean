import FavoniusBackend.Lib.GroupSums
import FavoniusBackend.Lib.PyText

/-!
# Readings and license plates

The telematics provider names a vehicle by its plate only.  `build_plate_map` takes a normalized plate to the vehicle
that has it, unless another vehicle has it too; `resolve_readings` puts the readings of a cycle into the batches of the
depots.
-/

namespace FavoniusBackend.Adapters.Plates

open Lib
open Lib.PyJson (PyStr py)

variable {V D R : Type}

local instance lawfulBEq_codePoints : LawfulBEq (List ℕ) := inferInstance

/-! ## Plates -/

structure Upper where
  char : ℕ → PyStr
  ascii : ∀ c < 128, char c = [if 97 ≤ c ∧ c ≤ 122 then c - 32 else c]

/-- What `_NON_ALNUM` leaves. -/
def isAlnum (c : ℕ) : Bool := decide (65 ≤ c ∧ c ≤ 90 ∨ 48 ≤ c ∧ c ≤ 57)

def normalizePlate (upper : Upper) : Option PyStr → PyStr
  | none => []
  | some text => if text = [] then [] else (text.flatMap upper.char).filter isAlnum

/-! ## The code -/

/-- A row of the query on the table `vehicles`. -/
structure VehicleRow (V D : Type) where
  vehicleId : V
  depotId : D
  licensePlate : PyStr

structure VehicleTelemetryReading (R : Type) where
  vehiclePlate : { plate : PyStr // plate ≠ [] }
  soc : ℚ
  time : ℤ
  latitude : Option ℚ
  longitude : Option ℚ
  rawFields : R

structure ParsedPoint where
  soc : ℚ
  time : ℤ
  latitude : Option ℚ
  longitude : Option ℚ

def readingFromPoint (plate : { plate : PyStr // plate ≠ [] }) (point : ParsedPoint) (rawFields : R) :
    VehicleTelemetryReading R :=
  ⟨plate, point.soc, point.time, point.latitude, point.longitude, rawFields⟩

def navirecVehicleToReading (upper : Upper) (plate : Option PyStr) (point : Option ParsedPoint) (raw : R) :
    Option (VehicleTelemetryReading R) :=
  if h : normalizePlate upper plate = [] then none
  else point.map fun point => readingFromPoint ⟨normalizePlate upper plate, h⟩ point raw

abbrev PlateMap (V D : Type) := Dict PyStr (V × D)

/-- The dictionary and the set that the loop fills. -/
structure Loop (V D : Type) where
  plateMap : PlateMap V D
  ambiguous : List PyStr

def addVehicle [DecidableEq V] (upper : Upper) (loop : Loop V D) (row : VehicleRow V D) : Loop V D :=
  let key := normalizePlate upper (some row.licensePlate)
  if key = [] then loop
  else if key ∈ loop.ambiguous then loop
  else if ∃ hit ∈ loop.plateMap.get? key, hit.1 ≠ row.vehicleId then
    ⟨loop.plateMap.erase key, key :: loop.ambiguous⟩
  else { loop with plateMap := loop.plateMap.set key (row.vehicleId, row.depotId) }

def buildPlateMap [DecidableEq V] (upper : Upper) (rows : List (VehicleRow V D)) : PlateMap V D :=
  (rows.foldl (addVehicle upper) ⟨Dict.empty, []⟩).plateMap

/-- A row of `vehicle_telemetry`. -/
structure TelemetryRow (V : Type) where
  time : ℤ
  vehicleId : V
  soc : ℚ
  latitude : Option ℚ
  longitude : Option ℚ
  source : PyStr
  rawFields : PyStr

/-- `_reading_to_row`; `dumps` writes the fields without their NaNs and infinities. -/
def readingToRow (dumps : R → PyStr) (vehicleId : V) (reading : VehicleTelemetryReading R) : TelemetryRow V :=
  ⟨reading.time, vehicleId, reading.soc, reading.latitude, reading.longitude, py "navirec", dumps reading.rawFields⟩

/-- The batches and the number of unmatched readings. -/
structure Resolved (V D : Type) where
  rowsByDepot : Dict D (List (TelemetryRow V))
  unmatched : ℕ

def addReading [DecidableEq D] (dumps : R → PyStr) (plateMap : PlateMap V D) (resolved : Resolved V D)
    (reading : VehicleTelemetryReading R) : Resolved V D :=
  match plateMap.get? reading.vehiclePlate with
  | none => { resolved with unmatched := resolved.unmatched + 1 }
  | some (vehicleId, depotId) =>
    let batch := resolved.rowsByDepot.getD depotId []
    { resolved with
      rowsByDepot := resolved.rowsByDepot.set depotId (batch ++ [readingToRow dumps vehicleId reading]) }

def resolveReadings [DecidableEq D] (dumps : R → PyStr) (readings : List (VehicleTelemetryReading R))
    (plateMap : PlateMap V D) : Resolved V D :=
  readings.foldl (addReading dumps plateMap) ⟨Dict.empty, 0⟩

/-! ## Plates that one vehicle has -/

def VehicleRow.Has (upper : Upper) (row : VehicleRow V D) (key : PyStr) : Prop :=
  normalizePlate upper (some row.licensePlate) = key

/-- The vehicle has the plate, and no other vehicle has it. -/
def Only (upper : Upper) (rows : List (VehicleRow V D)) (key : PyStr) (v : V) : Prop :=
  (∃ row ∈ rows, row.Has upper key ∧ row.vehicleId = v) ∧ ∀ row ∈ rows, row.Has upper key → row.vehicleId = v

/-- Two vehicles have the plate. -/
def Shared (upper : Upper) (rows : List (VehicleRow V D)) (key : PyStr) : Prop :=
  ∃ row ∈ rows, ∃ row' ∈ rows, row.Has upper key ∧ row'.Has upper key ∧ row.vehicleId ≠ row'.vehicleId

/-- What the loop knows of a plate after some rows: whether two vehicles have it, and else the vehicle that has it, with
a depot that one of its rows names. -/
structure Knows (upper : Upper) (rows : List (VehicleRow V D)) (loop : Loop V D) (key : PyStr) : Prop where
  ambiguous_iff : key ∈ loop.ambiguous ↔ Shared upper rows key
  mapped_iff : ∀ v, (∃ d, loop.plateMap.get? key = some (v, d)) ↔ Only upper rows key v
  depot : ∀ v d, loop.plateMap.get? key = some (v, d) →
    ∃ row ∈ rows, row.Has upper key ∧ row.vehicleId = v ∧ row.depotId = d

variable {upper : Upper} {rows : List (VehicleRow V D)} {row : VehicleRow V D} {loop : Loop V D} {key : PyStr}

theorem only_concat_iff {v : V} : Only upper (rows ++ [row]) key v ↔
    ((∃ r ∈ rows, r.Has upper key ∧ r.vehicleId = v) ∨ row.Has upper key ∧ row.vehicleId = v) ∧
      (∀ r ∈ rows, r.Has upper key → r.vehicleId = v) ∧ (row.Has upper key → row.vehicleId = v) := by
  simp only [Only, List.mem_append, List.mem_singleton, or_and_right, exists_or, exists_eq_left, or_imp, forall_and,
    forall_eq]

theorem Shared.concat (h : Shared upper rows key) : Shared upper (rows ++ [row]) key := by
  obtain ⟨r, hr, r', hr', hboth⟩ := h
  exact ⟨r, List.mem_append_left _ hr, r', List.mem_append_left _ hr', hboth⟩

theorem Shared.not_only {v : V} (h : Shared upper rows key) : ¬ Only upper rows key v := by
  obtain ⟨r, hr, r', hr', hhas, hhas', hne⟩ := h
  rintro ⟨-, hall⟩
  exact hne ((hall r hr hhas).trans (hall r' hr' hhas').symm)

theorem Knows.concat_of_not_has {loop' : Loop V D} (h : Knows upper rows loop key) (hnot : ¬ row.Has upper key)
    (hambiguous : key ∈ loop'.ambiguous ↔ key ∈ loop.ambiguous)
    (hmap : loop'.plateMap.get? key = loop.plateMap.get? key) : Knows upper (rows ++ [row]) loop' key := by
  refine ⟨?_, fun v => ?_, fun v d hhit => ?_⟩
  · rw [hambiguous, h.ambiguous_iff]
    constructor
    · exact Shared.concat
    · rintro ⟨r, hr, r', hr', hhas, hhas', hne⟩
      have hold : ∀ s ∈ rows ++ [row], s.Has upper key → s ∈ rows := by
        intro s hs hhas
        rcases List.mem_append.mp hs with hs | hs
        · exact hs
        · exact absurd (List.mem_singleton.mp hs ▸ hhas) hnot
      exact ⟨r, hold r hr hhas, r', hold r' hr' hhas', hhas, hhas', hne⟩
  · rw [hmap, h.mapped_iff, only_concat_iff, Only]
    simp only [hnot, false_and, or_false, false_imp_iff, and_true]
  · obtain ⟨r, hr, hrest⟩ := h.depot v d (hmap ▸ hhit)
    exact ⟨r, List.mem_append_left _ hr, hrest⟩

theorem Knows.concat_of_ambiguous (h : Knows upper rows loop key) (hambiguous : key ∈ loop.ambiguous) :
    Knows upper (rows ++ [row]) loop key := by
  have hshared := h.ambiguous_iff.mp hambiguous
  have hnone : ∀ v d, loop.plateMap.get? key ≠ some (v, d) := by
    intro v d hhit
    exact hshared.not_only ((h.mapped_iff v).mp ⟨d, hhit⟩)
  refine ⟨iff_of_true hambiguous hshared.concat, fun v => ?_, fun v d hhit => absurd hhit (hnone v d)⟩
  exact iff_of_false (fun ⟨d, hhit⟩ => hnone v d hhit) hshared.concat.not_only

theorem Knows.concat_of_other (h : Knows upper rows loop key) (hhas : row.Has upper key) {v : V} {d : D}
    (hhit : loop.plateMap.get? key = some (v, d)) (hother : v ≠ row.vehicleId) :
    Knows upper (rows ++ [row]) ⟨loop.plateMap.erase key, key :: loop.ambiguous⟩ key := by
  obtain ⟨⟨r, hr, hrhas, rfl⟩, -⟩ := (h.mapped_iff v).mp ⟨d, hhit⟩
  have hshared : Shared upper (rows ++ [row]) key :=
    ⟨r, List.mem_append_left _ hr, row, List.mem_append_right _ List.mem_cons_self, hrhas, hhas, hother⟩
  have hnone : (loop.plateMap.erase key).get? key = none := by
    rw [Dict.get?_erase, if_pos rfl]
  refine ⟨iff_of_true List.mem_cons_self hshared, fun w => ?_, fun w d hhit => ?_⟩
  · exact iff_of_false (fun ⟨d, hhit⟩ => nomatch hnone.symm.trans hhit) hshared.not_only
  · exact nomatch hnone.symm.trans hhit

theorem Knows.vehicleId_eq (h : Knows upper rows loop key) (hambiguous : key ∉ loop.ambiguous) {v : V}
    (hhit : ∀ w d, loop.plateMap.get? key = some (w, d) → w = v) {r : VehicleRow V D} (hr : r ∈ rows)
    (hhas : r.Has upper key) : r.vehicleId = v := by
  have honly : Only upper rows key r.vehicleId := by
    refine ⟨⟨r, hr, hhas, rfl⟩, fun s hs hshas => ?_⟩
    by_contra hdiffer
    exact hambiguous (h.ambiguous_iff.mpr ⟨s, hs, r, hr, hshas, hhas, hdiffer⟩)
  obtain ⟨d, hget⟩ := (h.mapped_iff _).mpr honly
  exact hhit _ d hget

theorem knows_concat_of_same (hhas : row.Has upper key) (hambiguous : key ∉ loop.ambiguous)
    (hsame : ∀ r ∈ rows, r.Has upper key → r.vehicleId = row.vehicleId) :
    Knows upper (rows ++ [row]) { loop with plateMap := loop.plateMap.set key (row.vehicleId, row.depotId) } key := by
  have hget := Dict.get?_set_self loop.plateMap key (row.vehicleId, row.depotId)
  refine ⟨iff_of_false hambiguous ?_, fun v => ?_, fun v d hhit => ?_⟩
  · have hall : ∀ s ∈ rows ++ [row], s.Has upper key → s.vehicleId = row.vehicleId := by
      intro s hs hshas
      rcases List.mem_append.mp hs with hs | hs
      · exact hsame s hs hshas
      · rw [List.mem_singleton.mp hs]
    rintro ⟨r, hr, r', hr', hrhas, hrhas', hdiffer⟩
    exact hdiffer ((hall r hr hrhas).trans (hall r' hr' hrhas').symm)
  · rw [hget, only_concat_iff]
    constructor
    · rintro ⟨d, heq⟩
      obtain ⟨rfl, -⟩ := Prod.mk.inj (Option.some.inj heq)
      exact ⟨.inr ⟨hhas, rfl⟩, hsame, fun _ => rfl⟩
    · rintro ⟨-, -, hv⟩
      exact ⟨row.depotId, by rw [hv hhas]⟩
  · obtain ⟨rfl, rfl⟩ := Prod.mk.inj (Option.some.inj (hget.symm.trans hhit))
    exact ⟨row, List.mem_append_right _ List.mem_cons_self, hhas, rfl, rfl⟩

section Loop

variable [DecidableEq V]

theorem addVehicle_of_not_has (hnot : ¬ row.Has upper key) :
    (key ∈ (addVehicle upper loop row).ambiguous ↔ key ∈ loop.ambiguous) ∧
      (addVehicle upper loop row).plateMap.get? key = loop.plateMap.get? key := by
  have hne : key ≠ normalizePlate upper (some row.licensePlate) := fun heq => hnot heq.symm
  unfold addVehicle
  dsimp only
  split
  · exact ⟨Iff.rfl, rfl⟩
  split
  · exact ⟨Iff.rfl, rfl⟩
  split
  · rw [List.mem_cons, Dict.get?_erase, if_neg hne]
    exact ⟨or_iff_right hne, rfl⟩
  · exact ⟨Iff.rfl, Dict.get?_set_ne _ _ hne⟩

theorem addVehicle_of_has (hhas : row.Has upper key) (hne : key ≠ []) :
    addVehicle upper loop row =
      if key ∈ loop.ambiguous then loop
      else if ∃ hit ∈ loop.plateMap.get? key, hit.1 ≠ row.vehicleId then
        ⟨loop.plateMap.erase key, key :: loop.ambiguous⟩
      else { loop with plateMap := loop.plateMap.set key (row.vehicleId, row.depotId) } := by
  subst hhas
  exact if_neg hne

theorem Knows.addVehicle (h : Knows upper rows loop key) (hne : key ≠ []) :
    Knows upper (rows ++ [row]) (addVehicle upper loop row) key := by
  by_cases hhas : row.Has upper key
  · rw [addVehicle_of_has hhas hne]
    split
    · rename_i hambiguous
      exact h.concat_of_ambiguous hambiguous
    rename_i hambiguous
    split
    · rename_i hother
      obtain ⟨⟨v, d⟩, hhit, hdiffer⟩ := hother
      exact h.concat_of_other hhas hhit hdiffer
    · rename_i hother
      refine knows_concat_of_same hhas hambiguous fun r hr => h.vehicleId_eq hambiguous (fun w d hhit => ?_) hr
      by_contra hdiffer
      exact hother ⟨(w, d), hhit, hdiffer⟩
  · obtain ⟨hambiguous, hmap⟩ := @addVehicle_of_not_has V D upper row loop key _ hhas
    exact h.concat_of_not_has hhas hambiguous hmap

theorem knows_foldl (upper : Upper) (rows : List (VehicleRow V D)) {key : PyStr} (hne : key ≠ []) :
    Knows upper rows (rows.foldl (Plates.addVehicle upper) ⟨Dict.empty, []⟩) key := by
  induction rows using List.reverseRecOn with
  | nil =>
    refine ⟨iff_of_false List.not_mem_nil fun ⟨r, hr, _⟩ => absurd hr List.not_mem_nil, fun v => ?_,
      fun v d hhit => ?_⟩
    · exact iff_of_false (fun ⟨d, hhit⟩ => nomatch hhit) fun ⟨⟨r, hr, _⟩, _⟩ => absurd hr List.not_mem_nil
    · cases hhit
  | append_singleton rows row ih =>
    rw [List.foldl_append]
    exact ih.addVehicle hne

theorem nil_not_mem_foldl (upper : Upper) (rows : List (VehicleRow V D)) :
    (rows.foldl (Plates.addVehicle upper) ⟨Dict.empty, []⟩).plateMap.get? [] = none := by
  induction rows using List.reverseRecOn with
  | nil => rfl
  | append_singleton rows row ih =>
    rw [List.foldl_append]
    show (Plates.addVehicle upper _ row).plateMap.get? [] = none
    by_cases hhas : row.Has upper []
    · rw [show Plates.addVehicle upper _ row = _ from if_pos hhas]
      exact ih
    · rw [(addVehicle_of_not_has hhas).2]
      exact ih

/-! ## The map -/

structure Fleet (V D : Type) where
  rows : List (VehicleRow V D)
  one_depot : ∀ row ∈ rows, ∀ row' ∈ rows, row.vehicleId = row'.vehicleId → row.depotId = row'.depotId

theorem get?_buildPlateMap_iff (upper : Upper) (fleet : Fleet V D) {key : PyStr} (hne : key ≠ []) (v : V) (d : D) :
    (buildPlateMap upper fleet.rows).get? key = some (v, d) ↔
      Only upper fleet.rows key v ∧ ∃ row ∈ fleet.rows, row.vehicleId = v ∧ row.depotId = d := by
  have hknows := knows_foldl upper fleet.rows hne
  constructor
  · intro hhit
    obtain ⟨row, hrow, -, hv, hd⟩ := hknows.depot v d hhit
    exact ⟨(hknows.mapped_iff v).mp ⟨d, hhit⟩, row, hrow, hv, hd⟩
  · rintro ⟨honly, row, hrow, rfl, rfl⟩
    obtain ⟨d, hhit⟩ := (hknows.mapped_iff _).mpr honly
    obtain ⟨row', hrow', -, hv, rfl⟩ := hknows.depot _ d hhit
    rw [fleet.one_depot row hrow row' hrow' hv.symm]
    exact hhit

theorem get?_buildPlateMap_perm (upper : Upper) {fleet fleet' : Fleet V D} (h : fleet'.rows.Perm fleet.rows)
    (key : PyStr) : (buildPlateMap upper fleet'.rows).get? key = (buildPlateMap upper fleet.rows).get? key := by
  by_cases hne : key = []
  · subst hne
    exact (nil_not_mem_foldl upper fleet'.rows).trans (nil_not_mem_foldl upper fleet.rows).symm
  · apply Option.ext
    rintro ⟨v, d⟩
    rw [get?_buildPlateMap_iff upper fleet' hne, get?_buildPlateMap_iff upper fleet hne]
    simp only [Only, h.mem_iff]

end Loop

/-! ## The batches -/

section Batches

variable [DecidableEq D] (dumps : R → PyStr) (plateMap : PlateMap V D)

def rowIn (depot : D) (reading : VehicleTelemetryReading R) : Option (TelemetryRow V) :=
  match plateMap.get? reading.vehiclePlate with
  | none => none
  | some (vehicleId, depotId) => if depotId = depot then some (readingToRow dumps vehicleId reading) else none

/-- Each reading with a mapped plate is in the batch of its vehicle's depot, in its place, and in no other; the others
are counted, and no reading is lost or doubled. -/
structure Partitions (readings : List (VehicleTelemetryReading R)) (resolved : Resolved V D) : Prop where
  batch : ∀ depot, resolved.rowsByDepot.getD depot [] = readings.filterMap (rowIn dumps plateMap depot)
  unmatched : resolved.unmatched = readings.countP fun reading => (plateMap.get? reading.vehiclePlate).isNone
  total : (resolved.rowsByDepot.values.map List.length).sum + resolved.unmatched = readings.length

theorem sum_length_set (batches : Dict D (List (TelemetryRow V))) (depot : D) (row : TelemetryRow V) :
    ((batches.set depot (batches.getD depot [] ++ [row])).values.map List.length).sum =
      (batches.values.map List.length).sum + 1 := by
  have hset := Dict.sum_values_set (batches.mapValues List.length) depot (batches.getD depot [] ++ [row]).length
  have hlast : (batches.mapValues List.length).getD depot 0 = (batches.getD depot []).length := by
    rw [Dict.getD, Dict.getD, Dict.get?_mapValues]
    cases batches.get? depot with
    | none => rfl
    | some rows => rfl
  rw [← Dict.mapValues_set, Dict.values_mapValues, Dict.values_mapValues, hlast, List.length_append,
    List.length_singleton] at hset
  omega

theorem Partitions.addReading {readings : List (VehicleTelemetryReading R)} {resolved : Resolved V D}
    (h : Partitions dumps plateMap readings resolved) (reading : VehicleTelemetryReading R) :
    Partitions dumps plateMap (readings ++ [reading]) (addReading dumps plateMap resolved reading) := by
  cases hhit : plateMap.get? reading.vehiclePlate with
  | none =>
    have hstep : Plates.addReading dumps plateMap resolved reading =
        { resolved with unmatched := resolved.unmatched + 1 } := by
      rw [Plates.addReading, hhit]
    rw [hstep]
    refine ⟨fun depot => ?_, ?_, ?_⟩
    · rw [List.filterMap_append, h.batch]
      simp [rowIn, hhit]
    · simp [h.unmatched, List.countP_append, hhit]
    · have htotal := h.total
      rw [List.length_append, List.length_singleton]
      dsimp only
      omega
  | some hit =>
    obtain ⟨vehicleId, depotId⟩ := hit
    have hstep : Plates.addReading dumps plateMap resolved reading =
        ⟨resolved.rowsByDepot.set depotId
          (resolved.rowsByDepot.getD depotId [] ++ [readingToRow dumps vehicleId reading]), resolved.unmatched⟩ := by
      rw [Plates.addReading, hhit]
    rw [hstep]
    refine ⟨fun depot => ?_, ?_, ?_⟩
    · rw [List.filterMap_append, ← h.batch]
      by_cases hdepot : depotId = depot
      · subst hdepot
        simp [Dict.getD, rowIn, hhit]
      · simp [Dict.getD, rowIn, hhit, hdepot, Dict.get?_set_ne _ _ (Ne.symm hdepot)]
    · simp [h.unmatched, List.countP_append, hhit]
    · have htotal := h.total
      rw [List.length_append, List.length_singleton]
      dsimp only
      rw [sum_length_set]
      omega

theorem partitions_resolveReadings (readings : List (VehicleTelemetryReading R)) :
    Partitions dumps plateMap readings (resolveReadings dumps readings plateMap) := by
  induction readings using List.reverseRecOn with
  | nil => exact ⟨fun _ => rfl, rfl, rfl⟩
  | append_singleton readings reading ih =>
    rw [resolveReadings, List.foldl_append]
    exact ih.addReading dumps plateMap reading

end Batches

/-! ## Attribution -/

variable [DecidableEq V]

theorem get?_vehiclePlate (upper : Upper) (fleet : Fleet V D) {plate : Option PyStr} {point : Option ParsedPoint}
    {raw : R} {reading : VehicleTelemetryReading R}
    (hreading : navirecVehicleToReading upper plate point raw = some reading) (v : V) (d : D) :
    (buildPlateMap upper fleet.rows).get? reading.vehiclePlate = some (v, d) ↔
      Only upper fleet.rows (normalizePlate upper plate) v ∧
        ∃ row ∈ fleet.rows, row.vehicleId = v ∧ row.depotId = d := by
  unfold navirecVehicleToReading at hreading
  split at hreading
  · cases hreading
  · rename_i hne
    obtain ⟨point, -, rfl⟩ := Option.map_eq_some_iff.mp hreading
    exact get?_buildPlateMap_iff upper fleet hne v d

/-- **A plate with letters or digits is mapped to a vehicle exactly when no other vehicle has it**, in whatever order
the rows come, and the readings are attributed by the map to the batches of the depots. -/
theorem attributed [DecidableEq D] (upper : Upper) (fleet : Fleet V D) (dumps : R → PyStr) :
    (∀ key, key ≠ [] → ∀ v d, (buildPlateMap upper fleet.rows).get? key = some (v, d) ↔
      Only upper fleet.rows key v ∧ ∃ row ∈ fleet.rows, row.vehicleId = v ∧ row.depotId = d) ∧
    (buildPlateMap upper fleet.rows).get? [] = none ∧
    (∀ fleet' : Fleet V D, fleet'.rows.Perm fleet.rows → ∀ key,
      (buildPlateMap upper fleet'.rows).get? key = (buildPlateMap upper fleet.rows).get? key) ∧
    ∀ readings, Partitions dumps (buildPlateMap upper fleet.rows) readings
      (resolveReadings dumps readings (buildPlateMap upper fleet.rows)) := by
  refine ⟨fun key hne v d => ?_, ?_, fun fleet' h key => ?_, fun readings => ?_⟩
  · exact get?_buildPlateMap_iff upper fleet hne v d
  · exact nil_not_mem_foldl upper fleet.rows
  · exact get?_buildPlateMap_perm upper h key
  · exact partitions_resolveReadings dumps _ readings

/-- `str.upper` of a text of ASCII. -/
def asciiUpper : Upper where
  char c := [if 97 ≤ c ∧ c ≤ 122 then c - 32 else c]
  ascii _ _ := rfl

/-- The only vehicle of the fleet has a plate without letters and digits. -/
def dashes : Fleet ℕ ℕ where
  rows := [⟨1, 7, py "---"⟩]
  one_depot row hrow row' hrow' _ := by rw [List.mem_singleton.mp hrow, List.mem_singleton.mp hrow']

theorem blank_plate_not_mapped : ¬ ∀ (fleet : Fleet ℕ ℕ) (key : PyStr) (v : ℕ),
    (∃ d, (buildPlateMap asciiUpper fleet.rows).get? key = some (v, d)) ↔ Only asciiUpper fleet.rows key v := by
  intro h
  have honly : Only asciiUpper dashes.rows [] 1 := by
    have hblank : normalizePlate asciiUpper (some (py "---")) = [] := by decide
    refine ⟨⟨_, List.mem_cons_self, hblank, rfl⟩, fun row hrow _ => ?_⟩
    rw [List.mem_singleton.mp hrow]
  obtain ⟨d, hhit⟩ := (h dashes [] 1).mpr honly
  have hnone : (buildPlateMap asciiUpper dashes.rows).get? [] = none := nil_not_mem_foldl asciiUpper dashes.rows
  rw [hnone] at hhit
  cases hhit

end FavoniusBackend.Adapters.Plates
