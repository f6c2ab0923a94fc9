import FavoniusBackend.Lib.InsertIgnore
import FavoniusBackend.Lib.IsoFormat
import FavoniusBackend.Lib.Numeric
import FavoniusBackend.Lib.Run

/-!
# The backfill of Kempower transactions

`backfill_sessions` of `adapters/kempower/onboarding.py`, with the mapping of one transaction
(`mapping.py`) and the hash that identifies its row (`defaults.py`).

A row is found again by the depot, the start and the token of its transaction, and an insert that finds
it does nothing.  So a transaction that was still running when it was first read keeps its first reading,
and of two transactions with one token and one start only the first has a row.  After a run all is well
exactly when none of this was met (`backfill_delivers_iff`).
-/

namespace FavoniusBackend.Kempower.Backfill

open Lib Lib.Numeric Lib.Run Lib.InsertIgnore
open Lib.DateTime

/-! ### The mapping -/

/-- A transaction as ChargEye returns it, with the fields that the import reads. -/
structure Transaction where
  txId : Option String
  startTime : Option String
  endTime : Option String
  chargedEnergyKwh : Option ℚ
  authorizationToken : Option String
  status : Option String
  /-- `schedulePlan.evId` -/
  evId : Option String
  deriving DecidableEq, Repr

/-- What the import uses of Python's library. -/
structure Library where
  /-- `none` is a `ValueError`. -/
  fromisoformat : String → Option DateTime
  isoError : String → String
  repr : Option String → String
  sha256 : String → String

inductive MappingError where
  | valueError (message : String)
  | overflowError
  deriving DecidableEq, Repr

/-- A row to be inserted.  `origin`, the transaction that it was made from, is not a column. -/
structure SessionRow where
  origin : Option String
  stationId : String
  vehicleId : Option String
  idToken : String
  startTime : Wall
  endTime : Option Wall
  energyDeliveredKwh : ℚ
  siteId : String
  importBatchId : String
  importRowHash : String
  importUserFullName : Option String
  importStationOwner : Option String
  importStatus : Option String
  deriving DecidableEq

/-- A value that Python takes for true. -/
def truthy (s : Option String) : Option String := s.filter fun text => text ≠ ""

def str (s : Option String) : String := s.getD "None"

section Mapping

variable (py : Library)

def parseIsoUtc (value : String) : Except MappingError Wall :=
  let stripped := String.ofList (Text.strip value.toList)
  let text := if stripped.toList.getLast? = some 'Z'
    then String.ofList stripped.toList.dropLast ++ "+00:00" else stripped
  match py.fromisoformat text with
  | none => .error (.valueError (py.isoError text))
  | some dt =>
    match dt.toUtc with
    | none => .error .overflowError
    | some utc => .ok utc

def computeImportRowHash (depotId : String) (startTimeUtc : Wall) (idTag : String) : String :=
  py.sha256 (depotId ++ "|" ++ String.ofList (isoformat startTimeUtc) ++ "|" ++ idTag)

def mappedStart (tx : Transaction) : Except MappingError Wall :=
  match truthy tx.startTime with
  | none => .error (.valueError "Kempower transaction is missing required field 'startTime'")
  | some raw => parseIsoUtc py raw

def mappedEnd (tx : Transaction) : Except MappingError (Option Wall) :=
  match truthy tx.endTime with
  | none => .ok none
  | some raw => (parseIsoUtc py raw).map some

def mappedEnergy (tx : Transaction) : Except MappingError ℚ :=
  match tx.chargedEnergyKwh with
  | none => .error (.valueError
      ("Kempower transaction " ++ py.repr tx.txId ++ " is missing 'chargedEnergyKwh'"))
  | some energy => .ok energy

/-- `id_token` and `hash_id_token`. -/
def mappedTokens (tx : Transaction) : Except MappingError (String × String) :=
  match truthy tx.authorizationToken with
  | some token => .ok (token, token)
  | none =>
    match tx.txId with
    | none => .error (.valueError ("Kempower transaction has neither 'authorizationToken' nor " ++
        "'txId'; cannot construct a stable import row hash"))
    | some txId => .ok ("platform-start", "kempower-tx:" ++ txId)

def kempowerTransactionToSessionRow (tx : Transaction) (siteId stationId : String)
    (vehicleId : Option String) (batchId : String) : Except MappingError SessionRow := do
  let startTimeUtc ← mappedStart py tx
  let endTimeUtc ← mappedEnd py tx
  let energyKwh ← mappedEnergy py tx
  let tokens ← mappedTokens tx
  return {
    origin := tx.txId
    stationId := stationId
    vehicleId := vehicleId
    idToken := tokens.1
    startTime := startTimeUtc
    endTime := endTimeUtc
    energyDeliveredKwh := energyKwh
    siteId := siteId
    importBatchId := batchId
    importRowHash := computeImportRowHash py siteId startTimeUtc tokens.2
    importUserFullName := none
    importStationOwner := none
    importStatus := tx.status }

end Mapping

/-! ### The table -/

/-- A row of `charging_sessions`.  `origin` is the transaction that the backfill inserted it for. -/
structure StoredRow where
  origin : Option String
  stationId : String
  vehicleId : Option String
  idToken : Option String
  startTime : Wall
  endTime : Option Wall
  energyDeliveredKwh : Option ℚ
  siteId : Option String
  source : String
  importBatchId : Option String
  importRowHash : Option String
  importUserFullName : Option String
  importStationOwner : Option String
  importStatus : Option String
  deriving DecidableEq

/-- `charging_sessions_import_dedup_idx`: a null is no duplicate. -/
def dedupKey (row : StoredRow) : Option (String × String) :=
  if row.source = "import" then
    match row.siteId, row.importRowHash with
    | some site, some hash => some (site, hash)
    | _, _ => none
  else none

/-- `energy_delivered_kwh DECIMAL(10,3)`. -/
def energyColumn (q : ℚ) : Option ℚ := numericColumn 10 3 q

/-- The row in the columns of the table; `none` is an error of the database. -/
def storedRow (row : SessionRow) : Option StoredRow :=
  if row.stationId.length ≤ 255 ∧ row.idToken.length ≤ 255 then
    (energyColumn row.energyDeliveredKwh).map fun energy =>
      { origin := row.origin
        stationId := row.stationId
        vehicleId := row.vehicleId
        idToken := some row.idToken
        startTime := row.startTime
        endTime := row.endTime
        energyDeliveredKwh := some energy
        siteId := some row.siteId
        source := "import"
        importBatchId := some row.importBatchId
        importRowHash := some row.importRowHash
        importUserFullName := row.importUserFullName
        importStationOwner := row.importStationOwner
        importStatus := row.importStatus }
  else none

def insertSessionChunk : List StoredRow → List SessionRow → Option (List StoredRow × ℕ)
  | table, [] => some (table, 0)
  | table, row :: rows =>
    match storedRow row with
    | none => none
    | some stored =>
      (insertSessionChunk (insert dedupKey table stored) rows).map fun result =>
        (result.1, (if Taken dedupKey table (dedupKey stored) then 0 else 1) + result.2)

def chunked {α : Type} (items : List α) (size : ℕ) : List (List α) :=
  (List.range ((items.length + size - 1) / size)).map fun i => (items.drop (i * size)).take size

/-! ### A run -/

/-- The tallies of `OnboardingCounts` that the backfill adds to. -/
structure OnboardingCounts where
  sessionsInserted : ℕ
  sessionsAlreadyPresent : ℕ
  sessionsSkipped : List String
  deriving DecidableEq, Repr

/-- The transaction of every run is one; each is read once. -/
def DistinctIds (fetched : List (String × List Transaction)) : Prop :=
  (∀ tx ∈ fetched.flatMap Prod.snd, tx.txId.isSome = true) ∧
    ((fetched.flatMap Prod.snd).map Transaction.txId).Nodup

instance (fetched : List (String × List Transaction)) : Decidable (DistinctIds fetched) :=
  inferInstanceAs (Decidable (_ ∧ _))

/-- A run, with the transactions that it reads from each station of `station_map`.  `stopped` says that it
ended after these, for a reason that is not in its transactions. -/
structure BackfillRun where
  depotId : String
  vehicleMap : List (String × String)
  batchId : String
  dryRun : Bool
  fetched : List (String × List Transaction)
  stopped : Bool
  distinctIds : DistinctIds fetched

section Run

variable (py : Library)

def ourVehicleId (vehicleMap : List (String × String)) (tx : Transaction) : Option String :=
  (truthy tx.evId).bind fun evId =>
    (truthy (vehicleMap.lookup evId)).filter fun mapped => !"<would-create".toList.isPrefixOf mapped.toList

def rowOf (r : BackfillRun) (stationId : String) (tx : Transaction) : Except MappingError SessionRow :=
  kempowerTransactionToSessionRow py tx r.depotId stationId (ourVehicleId r.vehicleMap tx) r.batchId

/-- `rows_to_insert` and the texts of the skipped transactions; `none` is an exception that is not a
`ValueError`. -/
def collectRows (r : BackfillRun) (stationId : String) :
    List Transaction → Option (List SessionRow × List String)
  | [] => some ([], [])
  | tx :: rest =>
    match rowOf py r stationId tx with
    | .error .overflowError => none
    | .error (.valueError message) =>
      (collectRows r stationId rest).map fun result => (result.1, (str tx.txId ++ ": " ++ message) :: result.2)
    | .ok row => (collectRows r stationId rest).map fun result => (row :: result.1, result.2)

def insertChunks : List StoredRow → OnboardingCounts → List (List SessionRow) →
    Option (List StoredRow × OnboardingCounts)
  | table, counts, [] => some (table, counts)
  | table, counts, chunk :: chunks =>
    match insertSessionChunk table chunk with
    | none => none
    | some (table', inserted) =>
      insertChunks table'
        { counts with
          sessionsInserted := counts.sessionsInserted + inserted
          sessionsAlreadyPresent := counts.sessionsAlreadyPresent + (chunk.length - inserted) } chunks

/-- One station.  `none` leaves the table as it is. -/
def backfillStation (r : BackfillRun) (stationId : String) (txs : List Transaction) (table : List StoredRow)
    (counts : OnboardingCounts) : Option (List StoredRow × OnboardingCounts) :=
  match collectRows py r stationId txs with
  | none => none
  | some (rowsToInsert, skipped) =>
    let counts := { counts with sessionsSkipped := counts.sessionsSkipped ++ skipped }
    if rowsToInsert = [] then some (table, counts)
    else if r.dryRun then
      some (table, { counts with sessionsInserted := counts.sessionsInserted + rowsToInsert.length })
    else insertChunks table counts (chunked rowsToInsert 500)

/-- The loop over the stations, with the table that it leaves and, where it comes to its end, the tallies. -/
def backfillStations (r : BackfillRun) : List (String × List Transaction) → List StoredRow → OnboardingCounts →
    List StoredRow × Option OnboardingCounts
  | [], table, counts => (table, some counts)
  | (stationId, txs) :: rest, table, counts =>
    match backfillStation py r stationId txs table counts with
    | none => (table, none)
    | some (table', counts') => backfillStations r rest table' counts'

def backfillSessions (r : BackfillRun) (table : List StoredRow) (counts : OnboardingCounts) :
    List StoredRow × Option OnboardingCounts :=
  let result := backfillStations py r r.fetched table counts
  (result.1, if r.stopped then none else result.2)

/-- The tallies of a new run. -/
def OnboardingCounts.start : OnboardingCounts := ⟨0, 0, []⟩

def backfillStep (table : List StoredRow) (r : BackfillRun) : List StoredRow :=
  (backfillSessions py r table .start).1

def Completed (table : List StoredRow) (r : BackfillRun) : Prop :=
  r.dryRun = false ∧ (backfillSessions py r table .start).2.isSome = true

def isOwn (origin : Option String) (row : StoredRow) : Bool := row.origin = origin

instance (table : List StoredRow) (r : BackfillRun) : Decidable (Completed py table r) :=
  inferInstanceAs (Decidable (_ ∧ _))

def ownRows (table : List StoredRow) (origin : Option String) : List StoredRow := table.filter (isOwn origin)

def Holds (row : SessionRow) (stored : StoredRow) : Prop :=
  stored.endTime = row.endTime ∧ stored.energyDeliveredKwh = some row.energyDeliveredKwh

instance (row : SessionRow) (stored : StoredRow) : Decidable (Holds row stored) :=
  inferInstanceAs (Decidable (_ ∧ _))

/-- **The promise** of a completed run: each transaction that could be mapped has one row of its own,
with the end and the energy of this run. -/
def Delivers (table : List StoredRow) (r : BackfillRun) : Prop :=
  Completed py table r → ∀ station ∈ r.fetched, ∀ tx ∈ station.2, ∀ row, rowOf py r station.1 tx = .ok row →
    ∃ stored, ownRows (backfillStep py table r) tx.txId = [stored] ∧ Holds row stored

/-! ### The condition -/

def mappedRows (r : BackfillRun) : List SessionRow :=
  r.fetched.flatMap fun station => station.2.filterMap fun tx => (rowOf py r station.1 tx).toOption

def Runs (r : BackfillRun) : Prop :=
  r.stopped = false ∧ (∀ station ∈ r.fetched, ∀ tx ∈ station.2, rowOf py r station.1 tx ≠ .error .overflowError) ∧
    ∀ row ∈ mappedRows py r, (storedRow row).isSome = true

def HashMet (table : List StoredRow) (r : BackfillRun) (earlier : List SessionRow) (row : SessionRow) : Prop :=
  Taken dedupKey table (some (r.depotId, row.importRowHash)) ∨
    ∃ row' ∈ earlier, row'.importRowHash = row.importRowHash

instance (table : List StoredRow) (r : BackfillRun) (earlier : List SessionRow) (row : SessionRow) :
    Decidable (HashMet table r earlier row) :=
  inferInstanceAs (Decidable (_ ∨ _))

/-- The condition on the row of one transaction.  A new hash needs a transaction without rows, and an energy
that the column does not round; a hash that is met needs the row to be there as it is read. -/
def RowLands (table : List StoredRow) (r : BackfillRun) (earlier : List SessionRow) (row : SessionRow) : Prop :=
  if HashMet table r earlier row then
    ∃ stored ∈ ownRows table row.origin, ownRows table row.origin = [stored] ∧ Holds row stored
  else ownRows table row.origin = [] ∧ energyColumn row.energyDeliveredKwh = some row.energyDeliveredKwh

instance (table : List StoredRow) (r : BackfillRun) (earlier : List SessionRow) (row : SessionRow) :
    Decidable (RowLands table r earlier row) :=
  inferInstanceAs (Decidable (if HashMet table r earlier row then
    ∃ stored ∈ ownRows table row.origin, ownRows table row.origin = [stored] ∧ Holds row stored
    else ownRows table row.origin = [] ∧ energyColumn row.energyDeliveredKwh = some row.energyDeliveredKwh))

/-- The condition on a run that writes and that nothing stops. -/
def Lands (table : List StoredRow) (r : BackfillRun) : Prop :=
  r.dryRun = false → Runs py r → ∀ earlier row later, mappedRows py r = earlier ++ row :: later →
    RowLands table r earlier row

/-! ### The chunks -/

theorem flatten_slices {α : Type} (items : List α) (size n : ℕ) :
    ((List.range n).map fun i => (items.drop (i * size)).take size).flatten = items.take (n * size) := by
  induction n with
  | zero => simp
  | succ n ih =>
    rw [List.range_succ, List.map_append, List.flatten_append, ih, Nat.succ_mul, List.take_add]
    simp

theorem flatten_chunked {α : Type} (items : List α) {size : ℕ} (h : 0 < size) :
    (chunked items size).flatten = items := by
  unfold chunked
  rw [flatten_slices, List.take_of_length_le]
  have hdiv := Nat.div_add_mod (items.length + size - 1) size
  have hmod := Nat.mod_lt (items.length + size - 1) h
  rw [Nat.mul_comm] at hdiv
  omega

def storedRows (rows : List SessionRow) : List StoredRow := rows.filterMap storedRow

theorem insertSessionChunk_spec (table : List StoredRow) (rows : List SessionRow) :
    match insertSessionChunk table rows with
    | none => ∃ row ∈ rows, storedRow row = none
    | some result => (∀ row ∈ rows, (storedRow row).isSome = true) ∧
        result.1 = insertAll dedupKey table (storedRows rows) := by
  induction rows generalizing table with
  | nil => exact ⟨fun _ h => absurd h List.not_mem_nil, rfl⟩
  | cons row rows ih =>
    unfold insertSessionChunk
    cases hstored : storedRow row with
    | none => exact ⟨row, List.mem_cons_self, hstored⟩
    | some stored =>
      have hrest := ih (insert dedupKey table stored)
      dsimp only
      cases hchunk : insertSessionChunk (insert dedupKey table stored) rows with
      | none =>
        rw [hchunk] at hrest
        obtain ⟨row', hrow', hnone⟩ := hrest
        exact ⟨row', List.mem_cons_of_mem row hrow', hnone⟩
      | some result =>
        rw [hchunk] at hrest
        refine ⟨List.forall_mem_cons.mpr ⟨by rw [hstored]; rfl, hrest.1⟩, ?_⟩
        unfold storedRows
        rw [List.filterMap_cons_some hstored]
        exact hrest.2

theorem insertChunks_spec (table : List StoredRow) (counts : OnboardingCounts) (chunks : List (List SessionRow)) :
    match insertChunks table counts chunks with
    | none => ∃ row ∈ chunks.flatten, storedRow row = none
    | some result => (∀ row ∈ chunks.flatten, (storedRow row).isSome = true) ∧
        result.1 = insertAll dedupKey table (storedRows chunks.flatten) := by
  induction chunks generalizing table counts with
  | nil => exact ⟨fun _ h => absurd h List.not_mem_nil, rfl⟩
  | cons chunk chunks ih =>
    unfold insertChunks
    have hchunk := insertSessionChunk_spec table chunk
    cases hresult : insertSessionChunk table chunk with
    | none =>
      rw [hresult] at hchunk
      obtain ⟨row, hrow, hnone⟩ := hchunk
      exact ⟨row, List.mem_append_left _ hrow, hnone⟩
    | some result =>
      rw [hresult] at hchunk
      obtain ⟨table', inserted⟩ := result
      have hrest := ih table'
        { counts with
          sessionsInserted := counts.sessionsInserted + inserted
          sessionsAlreadyPresent := counts.sessionsAlreadyPresent + (chunk.length - inserted) }
      dsimp only
      split
      · rename_i hnone
        rw [hnone] at hrest
        obtain ⟨row, hrow, hstored⟩ := hrest
        exact ⟨row, List.mem_append_right _ hrow, hstored⟩
      · rename_i result hsome
        rw [hsome] at hrest
        refine ⟨fun row hrow => ?_, ?_⟩
        · rcases List.mem_append.mp hrow with hrow | hrow
          · exact hchunk.1 row hrow
          · exact hrest.1 row hrow
        · obtain rfl := hchunk.2
          rw [hrest.2, ← insertAll_append]
          unfold storedRows
          rw [← List.filterMap_append, List.flatten_cons]

/-! ### The stations -/

theorem collectRows_spec (r : BackfillRun) (stationId : String) (txs : List Transaction) :
    match collectRows py r stationId txs with
    | none => ∃ tx ∈ txs, rowOf py r stationId tx = .error .overflowError
    | some result => (∀ tx ∈ txs, rowOf py r stationId tx ≠ .error .overflowError) ∧
        result.1 = txs.filterMap fun tx => (rowOf py r stationId tx).toOption := by
  induction txs with
  | nil => exact ⟨fun _ h => absurd h List.not_mem_nil, rfl⟩
  | cons tx txs ih =>
    unfold collectRows
    cases hrest : collectRows py r stationId txs with
    | none =>
      rw [hrest] at ih
      obtain ⟨tx', htx', herror⟩ := ih
      have hexists : ∃ tx' ∈ tx :: txs, rowOf py r stationId tx' = .error .overflowError :=
        ⟨tx', List.mem_cons_of_mem tx htx', herror⟩
      split
      · rename_i hnone
        exact hexists
      · rename_i result hsome
        revert hsome
        split <;> intro hsome <;> cases hsome
    | some result =>
      rw [hrest] at ih
      cases hrow : rowOf py r stationId tx with
      | error e =>
        cases e with
        | overflowError => exact ⟨tx, List.mem_cons_self, hrow⟩
        | valueError message =>
          refine ⟨List.forall_mem_cons.mpr ⟨by rw [hrow]; simp, ih.1⟩, ?_⟩
          rw [List.filterMap_cons_none (by rw [hrow]; rfl)]
          exact ih.2
      | ok row =>
        refine ⟨List.forall_mem_cons.mpr ⟨by rw [hrow]; simp, ih.1⟩, ?_⟩
        rw [List.filterMap_cons_some (by rw [hrow]; rfl), ← ih.2]

def stationRows (r : BackfillRun) (station : String × List Transaction) : List SessionRow :=
  station.2.filterMap fun tx => (rowOf py r station.1 tx).toOption

def StationRuns (r : BackfillRun) (station : String × List Transaction) : Prop :=
  (∀ tx ∈ station.2, rowOf py r station.1 tx ≠ .error .overflowError) ∧
    ∀ row ∈ stationRows py r station, (storedRow row).isSome = true

theorem backfillStation_spec {r : BackfillRun} (hwrites : r.dryRun = false) (station : String × List Transaction)
    (table : List StoredRow) (counts : OnboardingCounts) :
    match backfillStation py r station.1 station.2 table counts with
    | none => ¬StationRuns py r station
    | some result => StationRuns py r station ∧
        result.1 = insertAll dedupKey table (storedRows (stationRows py r station)) := by
  have hcollect := collectRows_spec py r station.1 station.2
  unfold backfillStation
  cases hresult : collectRows py r station.1 station.2 with
  | none =>
    rw [hresult] at hcollect
    obtain ⟨tx, htx, herror⟩ := hcollect
    exact fun hruns => hruns.1 tx htx herror
  | some result =>
    rw [hresult] at hcollect
    obtain ⟨rows, skipped⟩ := result
    obtain ⟨hmapped, hrows⟩ := hcollect
    change rows = stationRows py r station at hrows
    subst hrows
    dsimp only
    by_cases hempty : stationRows py r station = []
    · rw [if_pos hempty]
      refine ⟨⟨hmapped, ?_⟩, ?_⟩
      · rw [hempty]
        exact fun _ h => absurd h List.not_mem_nil
      · rw [hempty]
        rfl
    · rw [if_neg hempty, hwrites, if_neg Bool.false_ne_true]
      have hchunks := insertChunks_spec table { counts with sessionsSkipped := counts.sessionsSkipped ++ skipped }
        (chunked (stationRows py r station) 500)
      rw [flatten_chunked _ (by decide)] at hchunks
      split
      · rename_i hnone
        rw [hnone] at hchunks
        obtain ⟨row, hrow, hstored⟩ := hchunks
        intro hruns
        have hsome := hruns.2 row hrow
        rw [hstored] at hsome
        cases hsome
      · rename_i result hsome
        rw [hsome] at hchunks
        exact ⟨⟨hmapped, hchunks.1⟩, hchunks.2⟩

theorem backfillStations_spec {r : BackfillRun} (hwrites : r.dryRun = false)
    (stations : List (String × List Transaction)) (table : List StoredRow) (counts : OnboardingCounts) :
    ((backfillStations py r stations table counts).2.isSome = true ↔
      ∀ station ∈ stations, StationRuns py r station) ∧
    ((∀ station ∈ stations, StationRuns py r station) →
      (backfillStations py r stations table counts).1 =
        insertAll dedupKey table (storedRows (stations.flatMap (stationRows py r)))) := by
  induction stations generalizing table counts with
  | nil => exact ⟨⟨fun _ _ h => absurd h List.not_mem_nil, fun _ => rfl⟩, fun _ => rfl⟩
  | cons station rest ih =>
    unfold backfillStations
    have hstation := backfillStation_spec py hwrites station table counts
    cases hresult : backfillStation py r station.1 station.2 table counts with
    | none =>
      rw [hresult] at hstation
      dsimp only
      refine ⟨⟨fun h => absurd h Bool.false_ne_true, fun h => ?_⟩, fun h => ?_⟩
      · exact absurd (h station List.mem_cons_self) hstation
      · exact absurd (h station List.mem_cons_self) hstation
    | some result =>
      rw [hresult] at hstation
      obtain ⟨table', counts'⟩ := result
      obtain ⟨hruns, rfl⟩ := hstation
      obtain ⟨hiff, htable⟩ := ih (insertAll dedupKey table (storedRows (stationRows py r station))) counts'
      dsimp only
      refine ⟨?_, fun h => ?_⟩
      · rw [hiff, List.forall_mem_cons]
        exact ⟨fun h => ⟨hruns, h⟩, fun h => h.2⟩
      · rw [htable (List.forall_mem_cons.mp h).2, ← insertAll_append]
        unfold storedRows
        rw [← List.filterMap_append, List.flatMap_cons]

theorem runs_iff (r : BackfillRun) :
    Runs py r ↔ r.stopped = false ∧ ∀ station ∈ r.fetched, StationRuns py r station := by
  unfold Runs StationRuns mappedRows stationRows
  constructor
  · intro ⟨hstopped, hmapped, hstored⟩
    refine ⟨hstopped, fun station hstation => ⟨hmapped station hstation, fun row hrow => ?_⟩⟩
    exact hstored row (List.mem_flatMap.mpr ⟨station, hstation, hrow⟩)
  · intro ⟨hstopped, h⟩
    refine ⟨hstopped, fun station hstation => (h station hstation).1, fun row hrow => ?_⟩
    obtain ⟨station, hstation, hrow⟩ := List.mem_flatMap.mp hrow
    exact (h station hstation).2 row hrow

theorem completed_iff (table : List StoredRow) (r : BackfillRun) :
    Completed py table r ↔ r.dryRun = false ∧ Runs py r := by
  unfold Completed backfillSessions
  rw [runs_iff]
  refine and_congr_right fun hwrites => ?_
  rw [← (backfillStations_spec py hwrites r.fetched table .start).1]
  cases r.stopped with
  | false => simp
  | true => simp

theorem backfillStep_of_runs {table : List StoredRow} {r : BackfillRun} (hwrites : r.dryRun = false)
    (hruns : Runs py r) :
    backfillStep py table r = insertAll dedupKey table (storedRows (mappedRows py r)) :=
  (backfillStations_spec py hwrites r.fetched table .start).2 ((runs_iff py r).mp hruns).2

/-! ### The rows of a transaction -/

theorem rowOf_fields {r : BackfillRun} {stationId : String} {tx : Transaction} {row : SessionRow}
    (h : rowOf py r stationId tx = .ok row) : row.origin = tx.txId ∧ row.siteId = r.depotId := by
  unfold rowOf kempowerTransactionToSessionRow at h
  simp only [bind, Except.bind, pure, Except.pure] at h
  split at h
  · cases h
  · split at h
    · cases h
    · split at h
      · cases h
      · split at h
        · cases h
        · obtain rfl := Except.ok.inj h
          exact ⟨rfl, rfl⟩

theorem mem_mappedRows_iff {r : BackfillRun} {row : SessionRow} :
    row ∈ mappedRows py r ↔ ∃ station ∈ r.fetched, ∃ tx ∈ station.2, rowOf py r station.1 tx = .ok row := by
  unfold mappedRows
  simp only [List.mem_flatMap, List.mem_filterMap]
  refine exists_congr fun station => and_congr_right fun _ => exists_congr fun tx => and_congr_right fun _ => ?_
  cases rowOf py r station.1 tx with
  | error e => simp [Except.toOption]
  | ok row' => simp [Except.toOption]

theorem origins_sublist (r : BackfillRun) :
    ((mappedRows py r).map SessionRow.origin).Sublist ((r.fetched.flatMap Prod.snd).map Transaction.txId) := by
  unfold mappedRows
  induction r.fetched with
  | nil => exact List.Sublist.refl _
  | cons station rest ih =>
    rw [List.flatMap_cons, List.flatMap_cons, List.map_append, List.map_append]
    refine List.Sublist.append ?_ ih
    induction station.2 with
    | nil => exact List.Sublist.refl _
    | cons tx txs ihtx =>
      cases hrow : rowOf py r station.1 tx with
      | error e =>
        rw [List.filterMap_cons_none (by rw [hrow]; rfl), List.map_cons]
        exact ihtx.cons _
      | ok row =>
        rw [List.filterMap_cons_some (by rw [hrow]; rfl), List.map_cons, List.map_cons, (rowOf_fields py hrow).1]
        exact ihtx.cons_cons _

theorem origin_ne_of_split {r : BackfillRun} {earlier later : List SessionRow} {row : SessionRow}
    (h : mappedRows py r = earlier ++ row :: later) :
    ∀ row' ∈ earlier ++ later, row'.origin ≠ row.origin := by
  have hnodup := (origins_sublist py r).nodup r.distinctIds.2
  rw [h, List.map_append, List.map_cons, List.nodup_middle, List.nodup_cons, ← List.map_append] at hnodup
  intro row' hrow' heq
  exact hnodup.1 (List.mem_map.mpr ⟨row', hrow', heq⟩)

theorem storedRow_fields {row : SessionRow} {stored : StoredRow} (h : storedRow row = some stored) :
    stored.origin = row.origin ∧ dedupKey stored = some (row.siteId, row.importRowHash) ∧
      stored.endTime = row.endTime ∧ energyColumn row.energyDeliveredKwh = stored.energyDeliveredKwh := by
  unfold storedRow at h
  split at h
  · obtain ⟨energy, henergy, rfl⟩ := Option.map_eq_some_iff.mp h
    exact ⟨rfl, rfl, rfl, henergy⟩
  · cases h

theorem not_isOwn_of_storedRows {rows : List SessionRow} {origin : Option String}
    (h : ∀ row ∈ rows, row.origin ≠ origin) : ∀ stored ∈ storedRows rows, isOwn origin stored = false := by
  intro stored hstored
  obtain ⟨row, hrow, heq⟩ := List.mem_filterMap.mp hstored
  unfold isOwn
  rw [(storedRow_fields heq).1]
  exact decide_eq_false (h row hrow)

theorem taken_iff_hashMet {r : BackfillRun} (table : List StoredRow) {earlier later : List SessionRow}
    {row : SessionRow} {stored : StoredRow} (h : mappedRows py r = earlier ++ row :: later)
    (hall : ∀ row ∈ mappedRows py r, (storedRow row).isSome = true) (hstored : storedRow row = some stored) :
    Taken dedupKey (insertAll dedupKey table (storedRows earlier)) (dedupKey stored) ↔
      HashMet table r earlier row := by
  have hsite {row' : SessionRow} (hrow' : row' ∈ mappedRows py r) : row'.siteId = r.depotId := by
    obtain ⟨station, -, tx, -, heq⟩ := (mem_mappedRows_iff py).mp hrow'
    exact (rowOf_fields py heq).2
  have hkey : dedupKey stored = some (r.depotId, row.importRowHash) := by
    rw [(storedRow_fields hstored).2.1, hsite (by simp [h])]
  rw [taken_insertAll_iff, hkey]
  unfold HashMet
  refine or_congr_right ⟨?_, ?_⟩
  · intro ⟨_, stored', hstored', heq⟩
    obtain ⟨row', hrow', hsome⟩ := List.mem_filterMap.mp hstored'
    rw [(storedRow_fields hsome).2.1] at heq
    exact ⟨row', hrow', (Prod.mk.inj (Option.some.inj heq)).2⟩
  · intro ⟨row', hrow', heq⟩
    have hmem : row' ∈ mappedRows py r := by
      rw [h]
      exact List.mem_append_left _ hrow'
    obtain ⟨stored', hsome⟩ := Option.isSome_iff_exists.mp (hall row' hmem)
    refine ⟨rfl, stored', List.mem_filterMap.mpr ⟨row', hrow', hsome⟩, ?_⟩
    rw [(storedRow_fields hsome).2.1, hsite hmem, heq]

theorem ownRows_backfillStep {table : List StoredRow} {r : BackfillRun} (hwrites : r.dryRun = false)
    (hruns : Runs py r) {earlier later : List SessionRow} {row : SessionRow} {stored : StoredRow}
    (h : mappedRows py r = earlier ++ row :: later) (hstored : storedRow row = some stored) :
    ownRows (backfillStep py table r) row.origin =
      if HashMet table r earlier row then ownRows table row.origin else ownRows table row.origin ++ [stored] := by
  have hne := origin_ne_of_split py h
  have hsplit : storedRows (mappedRows py r) = storedRows earlier ++ stored :: storedRows later := by
    unfold storedRows
    rw [h, List.filterMap_append, List.filterMap_cons_some hstored]
  rw [backfillStep_of_runs py hwrites hruns, hsplit]
  unfold ownRows
  rw [filter_insertAll (isOwn row.origin) (decide_eq_true (storedRow_fields hstored).1)
    (not_isOwn_of_storedRows fun row' hrow' => hne row' (List.mem_append_left _ hrow'))
    (not_isOwn_of_storedRows fun row' hrow' => hne row' (List.mem_append_right _ hrow'))]
  exact if_congr (taken_iff_hashMet py table h hruns.2.2 hstored) rfl rfl

theorem own_iff_rowLands {table : List StoredRow} {r : BackfillRun} (hwrites : r.dryRun = false)
    (hruns : Runs py r) {earlier later : List SessionRow} {row : SessionRow}
    (h : mappedRows py r = earlier ++ row :: later) :
    (∃ stored, ownRows (backfillStep py table r) row.origin = [stored] ∧ Holds row stored) ↔
      RowLands table r earlier row := by
  obtain ⟨stored, hstored⟩ := Option.isSome_iff_exists.mp (hruns.2.2 row (by simp [h]))
  obtain ⟨-, -, hend, henergy⟩ := storedRow_fields hstored
  rw [ownRows_backfillStep py hwrites hruns h hstored]
  unfold RowLands
  by_cases hmet : HashMet table r earlier row
  · rw [if_pos hmet, if_pos hmet]
    constructor
    · intro ⟨stored', hown, hholds⟩
      exact ⟨stored', by simp [hown], hown, hholds⟩
    · intro ⟨stored', _, hown, hholds⟩
      exact ⟨stored', hown, hholds⟩
  · rw [if_neg hmet, if_neg hmet]
    constructor
    · intro ⟨stored', hown, _, henergy'⟩
      have hnil : ownRows table row.origin = [] := by
        have hlength := congrArg List.length hown
        rw [List.length_append, List.length_singleton, List.length_singleton] at hlength
        exact List.eq_nil_of_length_eq_zero (by omega)
      rw [hnil, List.nil_append] at hown
      obtain rfl := List.singleton_inj.mp hown
      exact ⟨hnil, henergy.trans henergy'⟩
    · intro ⟨hnil, hexact⟩
      rw [hnil, List.nil_append]
      exact ⟨stored, rfl, hend, henergy.symm.trans hexact⟩

/-- **One run.** -/
theorem delivers_iff_lands (table : List StoredRow) (r : BackfillRun) : Delivers py table r ↔ Lands py table r := by
  unfold Delivers Lands
  rw [completed_iff]
  constructor
  · intro hdelivers hwrites hruns earlier row later h
    obtain ⟨station, hstation, tx, htx, hrow⟩ := (mem_mappedRows_iff py).mp (show row ∈ mappedRows py r by simp [h])
    have hown := hdelivers ⟨hwrites, hruns⟩ station hstation tx htx row hrow
    rw [← (rowOf_fields py hrow).1] at hown
    exact (own_iff_rowLands py hwrites hruns h).mp hown
  · intro hlands ⟨hwrites, hruns⟩ station hstation tx htx row hrow
    obtain ⟨earlier, later, h⟩ :=
      List.append_of_mem ((mem_mappedRows_iff py).mpr ⟨station, hstation, tx, htx, hrow⟩)
    rw [← (rowOf_fields py hrow).1]
    exact (own_iff_rowLands py hwrites hruns h).mpr (hlands hwrites hruns earlier row later h)

theorem unique_backfillStep {table : List StoredRow} {r : BackfillRun} (hwrites : r.dryRun = false)
    (hruns : Runs py r) (h : Unique dedupKey table) : Unique dedupKey (backfillStep py table r) := by
  rw [backfillStep_of_runs py hwrites hruns]
  exact unique_insertAll h _

/-- **The same run again** changes nothing. -/
theorem backfillStep_again (table : List StoredRow) {r : BackfillRun} (hwrites : r.dryRun = false)
    (hruns : Runs py r) : backfillStep py (backfillStep py table r) r = backfillStep py table r := by
  rw [backfillStep_of_runs py hwrites hruns, backfillStep_of_runs py hwrites hruns]
  refine insertAll_again fun stored hstored => ?_
  obtain ⟨row, -, heq⟩ := List.mem_filterMap.mp hstored
  rw [(storedRow_fields heq).2.1]
  rfl

end Run

/-- **After every completed run each transaction has its row, exactly when every row lands.**  For every
table and every sequence of runs, whatever they read: after each run that writes and comes to its end,
each transaction that could be mapped has exactly one row of its own, with the end and the energy of that
run, if and only if in each of these runs every new hash belongs to a transaction without rows, and every
transaction whose hash is met already has its row as it is read now. -/
theorem backfill_delivers_iff (py : Library) (table : List StoredRow) (runs : List BackfillRun) :
    Along (backfillStep py) (Delivers py) table runs ↔ Along (backfillStep py) (Lands py) table runs := by
  have hiff (table : List StoredRow) (r : BackfillRun) (_ : True) : Delivers py table r ↔ Lands py table r :=
    delivers_iff_lands py table r
  exact along_iff_along hiff (fun _ _ _ _ => trivial) trivial

/-! ### Two transactions at one station -/

def morning : Library where
  fromisoformat text :=
    if text = "2026-05-01T08:00:00+00:00" then some ⟨⟨63913219200000000, by decide +kernel⟩, some 0⟩
    else if text = "2026-05-01T10:00:00+00:00" then some ⟨⟨63913226400000000, by decide +kernel⟩, some 0⟩
    else none
  isoError text := "Invalid isoformat string: '" ++ text ++ "'"
  repr text := "'" ++ str text ++ "'"
  sha256 text := text

def sinceEight (txId token : String) (endTime : Option String) (energy : ℚ) : Transaction where
  txId := some txId
  startTime := some "2026-05-01T08:00:00Z"
  endTime := endTime
  chargedEnergyKwh := some energy
  authorizationToken := some token
  status := none
  evId := none

-- One card that starts two stations at once: the second transaction has no row.
example : ownRows (backfillStep morning [] ⟨"depot", [], "batch", false,
    [("left", [sinceEight "t1" "card" none 3]), ("right", [sinceEight "t2" "card" none 5])], false, by decide +kernel⟩)
    (some "t2") = [] := by decide +kernel

def readOf (tx : Transaction) (h : tx.txId.isSome = true) : BackfillRun where
  depotId := "depot"
  vehicleMap := []
  batchId := "batch"
  dryRun := false
  fetched := [("station", [tx])]
  stopped := false
  distinctIds := ⟨by simpa using h, by simp⟩

/-- The transaction while it runs, and when it has ended. -/
def charging : BackfillRun := readOf (sinceEight "t1" "card" none 3) rfl

def charged : BackfillRun := readOf (sinceEight "t1" "card" (some "2026-05-01T10:00:00Z") 42) rfl

/-- **A transaction that ended stays open.**  It was first read with 3 kWh and no end; the run that reads
its end and 42 kWh comes to its end and leaves the table as it is. -/
theorem ended_transaction_stays_open :
    Completed morning (backfillStep morning [] charging) charged ∧
    (ownRows (backfillStep morning (backfillStep morning [] charging) charged) (some "t1")).map
        (fun row => (row.endTime, row.energyDeliveredKwh)) = [(none, some 3)] ∧
    ¬Along (backfillStep morning) (Delivers morning) [] [charging, charged] := by
  have hcompleted : Completed morning (backfillStep morning [] charging) charged := by decide +kernel
  have hrows : (ownRows (backfillStep morning (backfillStep morning [] charging) charged) (some "t1")).map
      (fun row => (row.endTime, row.energyDeliveredKwh)) = [(none, some 3)] := by decide +kernel
  have hread : (rowOf morning charged "station" (sinceEight "t1" "card" (some "2026-05-01T10:00:00Z") 42)).map
      SessionRow.energyDeliveredKwh = .ok 42 := by decide +kernel
  refine ⟨hcompleted, hrows, fun ⟨_, hsecond, _⟩ => ?_⟩
  cases hrow : rowOf morning charged "station" (sinceEight "t1" "card" (some "2026-05-01T10:00:00Z") 42) with
  | error e =>
    rw [hrow] at hread
    cases hread
  | ok row =>
    obtain ⟨stored, hown, _, henergy⟩ := hsecond hcompleted ("station", _) List.mem_cons_self _
      List.mem_cons_self row hrow
    rw [show ownRows _ (some "t1") = [stored] from hown, List.map_singleton, henergy] at hrows
    rw [hrow] at hread
    have hthree := Option.some.inj (Prod.mk.inj (List.singleton_inj.mp hrows)).2
    rw [Except.ok.inj hread] at hthree
    revert hthree
    decide +kernel

end FavoniusBackend.Kempower.Backfill
