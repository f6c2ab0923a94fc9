import FavoniusBackend.Lib.Dict
import FavoniusBackend.Lib.Run
import FavoniusBackend.Lib.Sql
import Mathlib.Data.String.Basic

/-!
# The vehicle-to-charger map

`get_vehicle_to_charger_map` resolves each vehicle of a depot to one `(charge_point_id, connector_id)`
by a `DISTINCT ON (v.id)` over the join of vehicles, access rows and charging stations, ordered by
`v.id, c.station_id`, and keeps the answer in a module-level cache keyed by depot.

`get?_vehicleToChargerQuery` says what the query computes: a vehicle is sent to connector `1` of the
least station id among those it can access.  `cached_of_run` says what the cache can hold: the answer
of the query on some database content the depot had when it was last looked up.
-/

namespace FavoniusBackend.Ocpp.Mapping

open Lib Lib.Sql

abbrev VehicleId := String
abbrev DepotId := String
abbrev StationId := String

/-- `charging_stations.id`, as distinct from the OCPP identity `station_id`. -/
abbrev StationKey := String

structure VehicleRow where
  id : VehicleId
  siteId : Option DepotId
  deriving DecidableEq, Repr

structure AccessRow where
  chargingStationId : StationKey
  vehicleId : VehicleId
  isAccessible : Option Bool
  deriving DecidableEq, Repr

structure StationRow where
  id : StationKey
  stationId : Option StationId
  deriving DecidableEq, Repr

/-- The static tables the mapping query reads. -/
structure AccessDb where
  vehicles : List VehicleRow
  chargerVehicleAccess : List AccessRow
  chargingStations : List StationRow
  deriving DecidableEq, Repr

/-- `vehicle_id → (charge_point_id, connector_id)`. -/
abbrev ChargerMap := Dict VehicleId (StationId × ℕ)

/-- The `FROM … JOIN … WHERE` part of the query: pairs of vehicle id and station id. -/
def accessJoin (db : AccessDb) (depot : DepotId) : List (VehicleId × StationId) :=
  db.vehicles.flatMap fun v =>
    db.chargerVehicleAccess.flatMap fun cva =>
      db.chargingStations.filterMap fun c =>
        if v.id = cva.vehicleId ∧ cva.chargingStationId = c.id ∧ v.siteId = some depot ∧
            cva.isAccessible = some true then
          c.stationId.map fun s => (v.id, s)
        else none

def accessibleStations (db : AccessDb) (depot : DepotId) : List StationId :=
  ((accessJoin db depot).map Prod.snd).dedup

/-- `ORDER BY v.id, c.station_id`. -/
def rowLe (a b : VehicleId × StationId) : Prop := a.1 < b.1 ∨ (a.1 = b.1 ∧ a.2 ≤ b.2)

instance : DecidableRel rowLe := fun a b =>
  inferInstanceAs (Decidable (a.1 < b.1 ∨ (a.1 = b.1 ∧ a.2 ≤ b.2)))

/-- The result set of the query. -/
def accessRows (db : AccessDb) (depot : DepotId) : List (VehicleId × StationId) :=
  distinctOn Prod.fst [] (orderBy rowLe (accessJoin db depot))

/-- The map built from the result set; the connector is the literal `1` of the query. -/
def vehicleToChargerQuery (db : AccessDb) (depot : DepotId) : ChargerMap :=
  Dict.ofList ((accessRows db depot).map fun r => (r.1, (r.2, 1)))

/-- The vehicle belongs to the depot and an accessible row joins it to a station with this id. -/
def Accessible (db : AccessDb) (depot : DepotId) (v : VehicleId) (s : StationId) : Prop :=
  ∃ vr ∈ db.vehicles, vr.id = v ∧ vr.siteId = some depot ∧
    ∃ cva ∈ db.chargerVehicleAccess, cva.vehicleId = v ∧ cva.isAccessible = some true ∧
      ∃ c ∈ db.chargingStations, c.id = cva.chargingStationId ∧ c.stationId = some s

/-! ### What the query computes -/

theorem mem_accessJoin {db : AccessDb} {depot : DepotId} {v : VehicleId} {s : StationId} :
    (v, s) ∈ accessJoin db depot ↔ Accessible db depot v s := by
  simp only [accessJoin, List.mem_flatMap, List.mem_filterMap]
  constructor
  · rintro ⟨vr, hvr, cva, hcva, c, hc, hrow⟩
    split at hrow
    · rename_i hcond
      obtain ⟨hid, hst, hsite, hacc⟩ := hcond
      obtain ⟨s', hs', heq⟩ := Option.map_eq_some_iff.mp hrow
      simp only [Prod.mk.injEq] at heq
      obtain ⟨rfl, rfl⟩ := heq
      exact ⟨vr, hvr, rfl, hsite, cva, hcva, hid.symm, hacc, c, hc, hst.symm, hs'⟩
    · exact absurd hrow (by simp)
  · rintro ⟨vr, hvr, rfl, hsite, cva, hcva, hid, hacc, c, hc, hst, hs⟩
    refine ⟨vr, hvr, cva, hcva, c, hc, ?_⟩
    rw [if_pos ⟨hid.symm, hst.symm, hsite, hacc⟩, hs]
    rfl

theorem rowLe_refl (a : VehicleId × StationId) : rowLe a a := Or.inr ⟨rfl, le_refl _⟩

instance : Std.Total rowLe where
  total a b := by
    rcases lt_trichotomy a.1 b.1 with h | h | h
    · exact Or.inl (Or.inl h)
    · rcases le_total a.2 b.2 with h' | h'
      · exact Or.inl (Or.inr ⟨h, h'⟩)
      · exact Or.inr (Or.inr ⟨h.symm, h'⟩)
    · exact Or.inr (Or.inl h)

instance : IsTrans (VehicleId × StationId) rowLe where
  trans a b c := by
    rintro (hab | ⟨hab, hab'⟩) (hbc | ⟨hbc, hbc'⟩)
    · exact Or.inl (lt_trans hab hbc)
    · exact Or.inl (hbc ▸ hab)
    · exact Or.inl (hab ▸ hbc)
    · exact Or.inr ⟨hab.trans hbc, le_trans hab' hbc'⟩

theorem mem_accessRows {db : AccessDb} {depot : DepotId} {v : VehicleId} {s : StationId} :
    (v, s) ∈ accessRows db depot ↔ IsLeast {s | Accessible db depot v s} s := by
  have hsorted := orderBy_pairwise rowLe (accessJoin db depot)
  have hle := distinctOn_le rowLe rowLe_refl Prod.fst _ [] hsorted
  constructor
  · intro h
    have hmem := (mem_distinctOn Prod.fst (v, s) _ [] h).1
    refine ⟨mem_accessJoin.mp (mem_orderBy.mp hmem), ?_⟩
    intro s' hs'
    have h' := hle (v, s) h (v, s') (mem_orderBy.mpr (mem_accessJoin.mpr hs')) rfl
    rcases h' with h' | h'
    · exact absurd h' (lt_irrefl _)
    · exact h'.2
  · rintro ⟨hacc, hlow⟩
    have hin : (v, s) ∈ orderBy rowLe (accessJoin db depot) :=
      mem_orderBy.mpr (mem_accessJoin.mpr hacc)
    obtain ⟨⟨v', s'⟩, hr, hv'⟩ := exists_mem_distinctOn Prod.fst (v, s) _ [] hin List.not_mem_nil
    have hv : v' = v := hv'
    subst hv
    -- the kept row is below `s`, and `s` is below everything accessible
    have hs' : Accessible db depot v' s' :=
      mem_accessJoin.mp (mem_orderBy.mp (mem_distinctOn Prod.fst (v', s') _ [] hr).1)
    have hback := hle (v', s') hr (v', s) hin rfl
    have hge : s' ≤ s := by
      rcases hback with h | h
      · exact absurd h (lt_irrefl _)
      · exact h.2
    have hs : s' = s := le_antisymm hge (hlow hs')
    subst hs
    exact hr

/-- **The mapping query.**  A vehicle is mapped to connector `1` of the least station id it can access,
and to nothing when it can access none. -/
theorem get?_vehicleToChargerQuery {db : AccessDb} {depot : DepotId} {v : VehicleId}
    {s : StationId} {n : ℕ} :
    (vehicleToChargerQuery db depot).get? v = some (s, n) ↔
      n = 1 ∧ IsLeast {s | Accessible db depot v s} s := by
  have hnodup : (((accessRows db depot).map fun r => (r.1, (r.2, 1))).map Prod.fst).Nodup := by
    rw [List.map_map]
    exact distinctOn_keys_nodup Prod.fst _ []
  rw [vehicleToChargerQuery, Dict.get?_ofList_of_nodup hnodup]
  constructor
  · intro h
    obtain ⟨⟨v', s'⟩, hr, heq⟩ := List.mem_map.mp h
    simp only [Prod.mk.injEq] at heq
    obtain ⟨rfl, rfl, rfl⟩ := heq
    exact ⟨rfl, mem_accessRows.mp hr⟩
  · rintro ⟨rfl, hs⟩
    exact List.mem_map.mpr ⟨(v, s), mem_accessRows.mpr hs, rfl⟩

/-! ### The cache -/

abbrev MappingCache := Dict DepotId ChargerMap

/-- A failure of the static pool (`asyncpg.PostgresError` or any other exception), re-raised. -/
inductive DbError
  | postgres
  deriving DecidableEq, Repr

def getVehicleToChargerMap (cache : MappingCache) (db : Except DbError AccessDb) (depot : DepotId)
    (useCache : Bool) : Except DbError ChargerMap × MappingCache :=
  match if useCache then cache.get? depot else none with
  | some mapping => (.ok mapping, cache)
  | none =>
    match db with
    | .error e => (.error e, cache)
    | .ok db =>
      let mapping := vehicleToChargerQuery db depot
      (.ok mapping, if useCache then cache.set depot mapping else cache)

/-- `clear_mapping_cache`; deleting an absent entry does nothing. -/
def clearMappingCache (cache : MappingCache) : Option DepotId → MappingCache
  | none => Dict.empty
  | some depot => Dict.ofList (cache.items.filter fun p => p.1 ≠ depot)

/-- The operations on the cache during the life of the process. -/
inductive CacheOp
  | lookup (db : Except DbError AccessDb) (depot : DepotId) (useCache : Bool)
  | clear (depot : Option DepotId)

def cacheStep (cache : MappingCache) : CacheOp → MappingCache
  | .lookup db depot useCache => (getVehicleToChargerMap cache db depot useCache).2
  | .clear depot => clearMappingCache cache depot

def CacheBuilt (cache : MappingCache) : Prop :=
  ∀ depot mapping, cache.get? depot = some mapping →
    ∃ db, mapping = vehicleToChargerQuery db depot

theorem cacheBuilt_lookup (cache : MappingCache) (db : Except DbError AccessDb) (depot : DepotId)
    (useCache : Bool) (h : CacheBuilt cache) :
    CacheBuilt (getVehicleToChargerMap cache db depot useCache).2 := by
  unfold getVehicleToChargerMap
  split
  · exact h
  · split
    · exact h
    · rename_i db'
      split
      · intro depot' mapping hget
        rw [Dict.get?_set] at hget
        split at hget
        · rename_i heq
          subst heq
          simp only [Option.some.injEq] at hget
          exact ⟨db', hget.symm⟩
        · exact h depot' mapping hget
      · exact h

theorem cacheBuilt_clear (cache : MappingCache) (depot : Option DepotId) (h : CacheBuilt cache) :
    CacheBuilt (clearMappingCache cache depot) := by
  cases depot with
  | none =>
    intro depot' mapping hget
    simp [clearMappingCache] at hget
  | some d =>
    intro depot' mapping hget
    rw [clearMappingCache, Dict.get?_ofList] at hget
    obtain ⟨p, hp, rfl⟩ := Option.map_eq_some_iff.mp hget
    have hmem := List.mem_of_getLast? hp
    rw [List.mem_filter, List.mem_filter] at hmem
    obtain ⟨⟨hitem, -⟩, hkey⟩ := hmem
    have hk : p.1 = depot' := by simpa using hkey
    subst hk
    exact h p.1 p.2 (Dict.mem_items_iff.mp hitem)

/-- **What the cache can hold.**  After any run of lookups and clears, in any order and over any
sequence of database contents, every cached map is the query's answer on some content. -/
theorem cached_of_run (ops : List CacheOp) (depot : DepotId) (mapping : ChargerMap)
    (h : (Run.run cacheStep Dict.empty ops).get? depot = some mapping) :
    ∃ db, mapping = vehicleToChargerQuery db depot := by
  have hinv : CacheBuilt (Run.run cacheStep Dict.empty ops) := by
    apply Run.run_invariant cacheStep CacheBuilt ops
    · intro cache op _ hcache
      cases op with
      | lookup db d useCache => exact cacheBuilt_lookup cache db d useCache hcache
      | clear d => exact cacheBuilt_clear cache d hcache
    · intro d m hget
      simp at hget
  exact hinv depot mapping h

end FavoniusBackend.Ocpp.Mapping
