import FavoniusBackend.Optimizer.Allocator

/-!
# Loading the depot configuration

`StateAssembler.load_depot_config` of `core/state/assembler.py`, from the tables of the static
database.

In explicit-matrix mode the access dict holds the accessible rows only, so a charger none of whose rows
is accessible has no entry.  The allocator takes a charger without an entry to be open to everyone; the
chargers of a depot are therefore given to entitled vehicles only exactly when each of them has an
accessible row (`access_respected_iff`).
-/

namespace FavoniusBackend.State.DepotConfigLoader

open Lib Lib.Guard Lib.Sql
open Optimizer.Models Optimizer.Allocator

/-! ### Tables -/

/-- The row of `sites`; a text or number is missing when its column is null or absent. -/
structure SiteConfigRow where
  id : String
  maxGridKw : Option ℚ
  buildingLoadAssumptionKw : Option ℚ
  chargerVehicleAccessDefault : Option String
  tariffType : Option TariffType
  energyCapKwh : Option ℚ
  underCapRatePerKwh : Option ℚ
  overCapPenaltyPerKwh : Option ℚ
  capBillingPeriod : Option String
  deriving DecidableEq, Repr

structure VehicleConfigRow where
  id : VehicleId
  siteId : String
  batteryCapacityKwh : Option ℚ
  maxChargeRateKw : Option ℚ
  idTag : Option String
  deriving DecidableEq, Repr

structure StationConfigRow where
  id : String
  siteId : String
  maxPowerKw : Option ℚ
  efficiency : Option ℚ
  deriving DecidableEq, Repr

structure BatteryRow where
  siteId : String
  capacityKwh : ℚ
  maxPowerKw : ℚ
  efficiency : Option ℚ
  socMin : Option ℚ
  socMax : Option ℚ
  deriving DecidableEq, Repr

/-- A row of `charger_vehicle_access`. -/
structure AccessRow where
  chargingStationId : String
  vehicleId : VehicleId
  isAccessible : Option Bool
  deriving DecidableEq, Repr

/-- The tables, and the place that the aggregation of the stations gives each group. -/
structure StaticTables where
  sites : List SiteConfigRow
  vehicles : List VehicleConfigRow
  chargingStations : List StationConfigRow
  batteryStorage : List BatteryRow
  chargerVehicleAccess : List AccessRow
  groupPlace : Option ℚ × Option ℚ → ℕ := fun _ => 0

inductive LoadError
  | depotNotFound (depotId : String)
  | nullMaxGridKw (depotId : String)
  | nullBatteryCapacityKwh (vid : VehicleId)
  | nullMaxPowerKw (depotId : String)
  /-- `float(None)`. -/
  | typeError
  deriving DecidableEq, Repr

/-- `value`, or the error when it is missing. -/
def orRaise {α : Type} (value : Option α) (e : LoadError) : Except LoadError α :=
  match value with
  | some a => .ok a
  | none => .error e

/-! ### Queries -/

/-- The `CASE` over `charger_vehicle_access_default`. -/
def accessDefault (text : Option String) : ChargerVehicleAccessDefault :=
  match text.getD "" with
  | "all_to_all" => .allToAll
  | "true" => .allToAll
  | "t" => .allToAll
  | "1" => .allToAll
  | _ => .explicitMatrix

section Depot

variable (tables : StaticTables) (depotId : String)

def vehicleRows : List VehicleConfigRow := tables.vehicles.filter fun v => v.siteId == depotId

def stationRows : List StationConfigRow := tables.chargingStations.filter fun c => c.siteId == depotId

/-- `GROUP BY max_power_kw, efficiency`. -/
structure StationGroup where
  ratedKw : Option ℚ
  efficiency : Option ℚ
  count : ℕ
  deriving DecidableEq, Repr

/-- `ORDER BY max_power_kw DESC`; nulls come first. -/
def StationGroup.le (a b : StationGroup) : Prop :=
  match a.ratedKw, b.ratedKw with
  | none, _ => True
  | some _, none => False
  | some x, some y => y ≤ x

instance : DecidableRel StationGroup.le := fun a b =>
  match ha : a.ratedKw, hb : b.ratedKw with
  | none, _ => .isTrue (by simp [StationGroup.le, ha])
  | some _, none => .isFalse (by simp [StationGroup.le, ha, hb])
  | some x, some y => decidable_of_iff (y ≤ x) (by simp [StationGroup.le, ha, hb])

def stationGroups : List StationGroup :=
  let rows := stationRows tables depotId
  let groups := (distinctOn (fun c => (c.maxPowerKw, c.efficiency)) [] rows).map fun c =>
    (⟨c.maxPowerKw, c.efficiency,
      rows.countP fun c' => decide ((c'.maxPowerKw, c'.efficiency) = (c.maxPowerKw, c.efficiency))⟩ : StationGroup)
  let place (g : StationGroup) : ℕ := tables.groupPlace (g.ratedKw, g.efficiency)
  orderBy StationGroup.le (orderBy (fun a b => place a ≤ place b) groups)

def accessRows : List AccessRow :=
  tables.chargerVehicleAccess.filter fun row =>
    decide (row.chargingStationId ∈ (stationRows tables depotId).map StationConfigRow.id) &&
      decide (row.isAccessible = some true)

/-! ### Parts of the configuration -/

def loadChargers : Except LoadError (Dict ℚ ℤ × ℚ) :=
  match stationGroups tables depotId with
  | [] => .ok (Dict.ofList [(80, 1)], 19 / 20)
  | first :: rest => do
    let groups ← collect (fun g => do
      let rated ← orRaise g.ratedKw (.nullMaxPowerKw depotId)
      return (rated, (g.count : ℤ))) (first :: rest)
    let efficiency ← orRaise first.efficiency .typeError
    return (Dict.ofList groups, efficiency)

structure BatterySettings where
  capacity : ℚ
  power : ℚ
  efficiency : ℚ
  socMin : ℚ
  socMax : ℚ
  deriving DecidableEq, Repr

def loadBattery : Except LoadError BatterySettings :=
  match tables.batteryStorage.find? fun b => b.siteId == depotId with
  | none => .ok ⟨0, 0, 23 / 25, 1 / 5, 4 / 5⟩
  | some b => do
    let efficiency ← orRaise b.efficiency .typeError
    let socMin ← orRaise b.socMin .typeError
    let socMax ← orRaise b.socMax .typeError
    return ⟨b.capacityKwh, b.maxPowerKw, efficiency, socMin, socMax⟩

/-- `s.add(v)`. -/
def addToSet (members : List VehicleId) (row : AccessRow) : List VehicleId :=
  if row.vehicleId ∈ members then members else members ++ [row.vehicleId]

def loadAccess (mode : ChargerVehicleAccessDefault) (vehicleIds : List VehicleId) :
    Dict String (List VehicleId) :=
  match mode with
  | .allToAll => Dict.ofList ((stationRows tables depotId).map fun c => (c.id, vehicleIds))
  | .explicitMatrix => (accessRows tables depotId).foldl (fun access row =>
    access.set row.chargingStationId (addToSet (access.getD row.chargingStationId []) row)) Dict.empty

/-- `load_depot_config`: the configuration and the id tags. -/
def loadDepotConfig : Except LoadError (DepotConfig × Dict VehicleId String) := do
  let site ← orRaise (tables.sites.find? fun s => s.id == depotId) (.depotNotFound depotId)
  let maxSitePower ← orRaise site.maxGridKw (.nullMaxGridKw depotId)
  let capacities ← collect (fun v => do
    let kwh ← orRaise v.batteryCapacityKwh (.nullBatteryCapacityKwh v.id)
    return (v.id, kwh)) (vehicleRows tables depotId)
  let vehicleCapacities := Dict.ofList capacities
  let chargers ← loadChargers tables depotId
  let battery ← loadBattery tables depotId
  let mode := accessDefault site.chargerVehicleAccessDefault
  let maxChargeKw ← collect (fun v => do
    let kw ← orRaise v.maxChargeRateKw .typeError
    return (v.id, kw)) (vehicleRows tables depotId)
  return ({
    vehicleCapacities := vehicleCapacities
    vehicleMaxChargeKw := Dict.ofList maxChargeKw
    chargerGroups := chargers.1
    chargerEfficiency := chargers.2
    chargerVehicleAccess := loadAccess tables depotId mode vehicleCapacities.keys
    batteryCapacity := battery.capacity
    batteryPower := battery.power
    batteryEfficiency := battery.efficiency
    batterySocMin := battery.socMin
    batterySocMax := battery.socMax
    maxSitePower := maxSitePower
    buildingLoadAssumptionKw := site.buildingLoadAssumptionKw.getD 0
    deltaT := 1 / 4
    nTimesteps := 96
    chargerVehicleAccessDefault := mode
    tariffType := site.tariffType.getD .simpleDemand
    energyCapKwh := site.energyCapKwh
    underCapRatePerKwh := site.underCapRatePerKwh
    overCapPenaltyPerKwh := site.overCapPenaltyPerKwh
    capBillingPeriod := site.capBillingPeriod.getD "monthly" },
    Dict.ofList ((vehicleRows tables depotId).filterMap fun v =>
      match v.idTag with
      | some tag => if tag = "" then none else some (v.id, tag)
      | none => none))

/-! ### Access -/

def HasAccessRow (cid : String) (vid : VehicleId) : Prop :=
  ∃ row ∈ tables.chargerVehicleAccess, row.chargingStationId = cid ∧ row.vehicleId = vid ∧
    row.isAccessible = some true ∧ cid ∈ (stationRows tables depotId).map StationConfigRow.id

theorem mem_foldl_addToSet (rows : List AccessRow) (vid : VehicleId) :
    ∀ members : List VehicleId, vid ∈ rows.foldl addToSet members ↔
      vid ∈ members ∨ ∃ row ∈ rows, row.vehicleId = vid := by
  induction rows with
  | nil =>
    intro members
    simp
  | cons row rest ih =>
    intro members
    rw [List.foldl_cons, ih, List.exists_mem_cons_iff]
    have hadd : vid ∈ addToSet members row ↔ vid ∈ members ∨ row.vehicleId = vid := by
      unfold addToSet
      split
      · rename_i hmem
        refine ⟨Or.inl, ?_⟩
        intro h
        rcases h with h | rfl
        · exact h
        · exact hmem
      · simp [eq_comm]
    rw [hadd, or_assoc]

theorem mem_loadAccess (vehicleIds : List VehicleId) (cid : String) (vid : VehicleId) :
    vid ∈ (loadAccess tables depotId .explicitMatrix vehicleIds).getD cid [] ↔
      HasAccessRow tables depotId cid vid := by
  have hgroup := Dict.getD_foldl_group AccessRow.chargingStationId addToSet []
    (accessRows tables depotId) Dict.empty cid
  rw [show (loadAccess tables depotId .explicitMatrix vehicleIds).getD cid [] = _ from hgroup,
    mem_foldl_addToSet]
  simp only [Dict.getD, Dict.get?_empty, Option.getD_none, List.not_mem_nil, false_or, List.mem_filter,
    accessRows, Bool.and_eq_true, decide_eq_true_eq]
  refine ⟨?_, ?_⟩
  · intro ⟨row, ⟨⟨hmem, hstation, hacc⟩, hcid⟩, hvid⟩
    exact ⟨row, hmem, hcid, hvid, hacc, hcid ▸ hstation⟩
  · intro ⟨row, hmem, hcid, hvid, hacc, hstation⟩
    exact ⟨row, ⟨⟨hmem, hcid.symm ▸ hstation, hacc⟩, hcid⟩, hvid⟩

variable {tables depotId}

theorem chargerVehicleAccess_of_load {config : DepotConfig} {tags : Dict VehicleId String}
    (h : loadDepotConfig tables depotId = .ok (config, tags)) :
    config.chargerVehicleAccess = loadAccess tables depotId config.chargerVehicleAccessDefault
      config.vehicleCapacities.keys := by
  unfold loadDepotConfig at h
  obtain ⟨site, _, h⟩ := (bind_eq_ok _ _ _).mp h
  obtain ⟨maxSitePower, _, h⟩ := (bind_eq_ok _ _ _).mp h
  obtain ⟨capacities, _, h⟩ := (bind_eq_ok _ _ _).mp h
  obtain ⟨chargers, _, h⟩ := (bind_eq_ok _ _ _).mp h
  obtain ⟨battery, _, h⟩ := (bind_eq_ok _ _ _).mp h
  obtain ⟨maxChargeKw, _, h⟩ := (bind_eq_ok _ _ _).mp h
  cases h
  rfl

end Depot

/-- **Who is assigned to the chargers of a depot.**  For every depot in explicit-matrix mode, every
access table, every listing of chargers and every vehicle: the allocator, run on the loaded
configuration with any result and any priorities, assigns the vehicle only to chargers with an
accessible row for it, if and only if every listed charger with a positive rating has an accessible row
for some vehicle. -/
theorem access_respected_iff (tables : StaticTables) (depotId : String) (config : DepotConfig)
    (tags : Dict VehicleId String) (hload : loadDepotConfig tables depotId = .ok (config, tags))
    (hmode : config.chargerVehicleAccessDefault = .explicitMatrix)
    (chargerIdsByRating : ChargerIdsByRating) (vid : VehicleId) :
    (∀ result priorities assignments,
      allocateChargers result config chargerIdsByRating priorities = .ok assignments →
      ∀ a ∈ assignments, a.vehicleId = vid → HasAccessRow tables depotId a.chargerId vid) ↔
    ∀ cid, 0 < (chargerCapacity chargerIdsByRating).getD cid 0 →
      ∃ other, HasAccessRow tables depotId cid other := by
  have hmem : ∀ cid v, v ∈ config.chargerVehicleAccess.getD cid [] ↔
      HasAccessRow tables depotId cid v := by
    intro cid v
    rw [chargerVehicleAccess_of_load hload, hmode]
    exact mem_loadAccess tables depotId _ cid v
  refine ⟨?_, ?_⟩
  · intro hrespected cid hcap
    by_contra hnone
    -- without a row the charger has no entry, so it is open to the vehicle
    have hempty : config.chargerVehicleAccess.getD cid [] = [] := by
      rw [List.eq_nil_iff_forall_not_mem]
      intro v hv
      exact hnone ⟨v, (hmem cid v).mp hv⟩
    obtain ⟨result, assignments, hok, a, ha, hcid, hvid⟩ :=
      exists_allocated config chargerIdsByRating vid cid (Or.inl hempty) hcap
    have hrow := hrespected result none assignments hok a ha hvid
    rw [hcid] at hrow
    exact hnone ⟨vid, hrow⟩
  · intro hall result priorities assignments hok a ha hvid
    obtain ⟨hacc, hcap⟩ := allocated_of_mem hok ha
    rcases hacc with hempty | hlisted
    · obtain ⟨other, hother⟩ := hall a.chargerId hcap
      have hentry := (hmem a.chargerId other).mpr hother
      rw [hempty] at hentry
      cases hentry
    · rw [hvid] at hlisted
      exact (hmem a.chargerId vid).mp hlisted

def twoChargerDepot (access : List AccessRow) : StaticTables where
  sites := [⟨"depot", some 1000, none, some "explicit_matrix", none, none, none, none, none⟩]
  vehicles := [⟨"bus_1", "depot", some 324, some 160, none⟩]
  chargingStations := [⟨"charger_1", "depot", some 80, some (19 / 20)⟩,
    ⟨"charger_2", "depot", some 80, some (19 / 20)⟩]
  batteryStorage := []
  chargerVehicleAccess := access

def twoChargers : ChargerIdsByRating := Dict.ofList [(80, ["charger_1", "charger_2"])]

theorem exists_of_loaded {α : Type} {outcome : Except LoadError (DepotConfig × Dict VehicleId String)}
    (f : DepotConfig → α) {a : α} (h : (outcome.toOption.map fun loaded => f loaded.1) = some a) :
    ∃ config tags, outcome = .ok (config, tags) ∧ f config = a := by
  cases outcome with
  | ok loaded => exact ⟨loaded.1, loaded.2, rfl, Option.some.inj h⟩
  | error e => cases h

theorem capacity_twoChargers {cid : String} (h : 0 < (chargerCapacity twoChargers).getD cid 0) :
    cid = "charger_1" ∨ cid = "charger_2" := by
  obtain ⟨group, hgroup, hcid⟩ := exists_group_of_capacity h
  obtain rfl := List.mem_singleton.mp (show group ∈ [((80 : ℚ), ["charger_1", "charger_2"])] from hgroup)
  simpa using hcid

def sharedDepot : StaticTables :=
  twoChargerDepot [⟨"charger_1", "bus_1", some true⟩, ⟨"charger_2", "bus_2", some true⟩]

def closedDepot : StaticTables :=
  twoChargerDepot [⟨"charger_1", "bus_1", some true⟩, ⟨"charger_2", "bus_1", some false⟩]

/-- With an accessible row for each charger the matrix is respected. -/
theorem access_respected_two_rows :
    ∃ config tags, loadDepotConfig sharedDepot "depot" = .ok (config, tags) ∧
      ∀ result priorities assignments,
        allocateChargers result config twoChargers priorities = .ok assignments →
        ∀ a ∈ assignments, a.vehicleId = "bus_1" →
          HasAccessRow sharedDepot "depot" a.chargerId "bus_1" := by
  obtain ⟨config, tags, hload, hmode⟩ := exists_of_loaded DepotConfig.chargerVehicleAccessDefault
    (show ((loadDepotConfig sharedDepot "depot").toOption.map fun loaded =>
      loaded.1.chargerVehicleAccessDefault) = some .explicitMatrix by decide +kernel)
  refine ⟨config, tags, hload, ?_⟩
  refine (access_respected_iff _ "depot" config tags hload hmode twoChargers "bus_1").mpr ?_
  intro cid hcap
  rcases capacity_twoChargers hcap with rfl | rfl
  · exact ⟨"bus_1", ⟨"charger_1", "bus_1", some true⟩, List.mem_cons_self, rfl, rfl, rfl, by decide⟩
  · exact ⟨"bus_2", ⟨"charger_2", "bus_2", some true⟩, List.mem_cons_of_mem _ List.mem_cons_self, rfl,
      rfl, rfl, by decide⟩

/-- The only row of the second charger says that the bus cannot use it; the bus is assigned to it. -/
theorem closed_charger_assigned :
    ∃ config tags, loadDepotConfig closedDepot "depot" = .ok (config, tags) ∧
      (config.chargerVehicleAccessDefault = .explicitMatrix ∧
        allocateChargers (singleDemand "bus_1" 120) config twoChargers none =
          .ok [⟨"charger_1", "bus_1", 0, 80⟩, ⟨"charger_2", "bus_1", 0, 40⟩]) ∧
      ¬ HasAccessRow closedDepot "depot" "charger_2" "bus_1" := by
  obtain ⟨config, tags, hload, hallocated⟩ := exists_of_loaded
    (fun config => (config.chargerVehicleAccessDefault,
      allocateChargers (singleDemand "bus_1" 120) config twoChargers none))
    (show ((loadDepotConfig closedDepot "depot").toOption.map fun loaded =>
        (loaded.1.chargerVehicleAccessDefault,
          allocateChargers (singleDemand "bus_1" 120) loaded.1 twoChargers none)) =
      some (.explicitMatrix, .ok [⟨"charger_1", "bus_1", 0, 80⟩, ⟨"charger_2", "bus_1", 0, 40⟩]) by
      decide +kernel)
  refine ⟨config, tags, hload, Prod.mk.inj hallocated, ?_⟩
  intro ⟨row, hrow, hcid, _, hacc, _⟩
  rcases List.mem_cons.mp hrow with rfl | hrow
  · exact absurd hcid (by decide)
  · obtain rfl := List.mem_singleton.mp hrow
    cases hacc

end FavoniusBackend.State.DepotConfigLoader
