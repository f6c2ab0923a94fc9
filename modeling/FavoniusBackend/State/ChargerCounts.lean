import FavoniusBackend.Lib.GroupSums
import FavoniusBackend.Optimizer.MilpModel
import FavoniusBackend.State.DepotConfigLoader

/-!
# The chargers the optimizer counts on

`load_depot_config` reads the stations of a depot grouped by rating and efficiency and files the counts under the rating
alone, so of two groups with one rating only the later count is kept.  A depot without stations gets a default charger.
The counts and the power limits of the optimizer are therefore those of the depot exactly when it has a station and no two
stations of one rating differ in efficiency (`accountsForStations_iff`).
-/

namespace FavoniusBackend.State.ChargerCounts

open Lib Lib.Guard Lib.Sql Lib.Milp
open Optimizer.Models Optimizer.MilpModel
open State.DepotConfigLoader

section Depot

variable (tables : StaticTables) (depotId : String)

def totalRatedPower : ℚ := ((stationRows tables depotId).map fun c => c.maxPowerKw.getD 0).sum

/-- The depot has a station, and its stations of one rating have one efficiency. -/
def OneEfficiencyPerRating : Prop :=
  stationRows tables depotId ≠ [] ∧
    ∀ c ∈ stationRows tables depotId, ∀ c' ∈ stationRows tables depotId,
      c.maxPowerKw = c'.maxPowerKw → c.efficiency = c'.efficiency

instance : Decidable (OneEfficiencyPerRating tables depotId) :=
  inferInstanceAs (Decidable (stationRows tables depotId ≠ [] ∧
    ∀ c ∈ stationRows tables depotId, ∀ c' ∈ stationRows tables depotId,
      c.maxPowerKw = c'.maxPowerKw → c.efficiency = c'.efficiency))

/-- The charger groups stand for every station of the depot, and so do the limits of the optimizer. -/
structure AccountsForStations (config : DepotConfig) : Prop where
  count : config.chargerGroups.values.sum = (stationRows tables depotId).length
  power : (config.chargerGroups.items.map fun e => e.1 * (e.2 : ℚ)).sum = totalRatedPower tables depotId
  countLimit : ∀ i : Inputs, i.config = config → ∀ t, i.chargerCountRule t =
    some ⟨.sum (i.vehicles.map fun b => (1, .yCharge b t)), .le,
      .constant ((stationRows tables depotId).length : ℚ)⟩
  powerLimit : ∀ i : Inputs, i.config = config → ∀ t, i.chargerPowerRule t =
    some ⟨.sum (i.vehicles.map fun b => (1, .pCharge b t)), .le, .constant (totalRatedPower tables depotId)⟩

theorem accountsForStations_of {config : DepotConfig}
    (hcount : config.chargerGroups.values.sum = (stationRows tables depotId).length)
    (hpower : (config.chargerGroups.items.map fun e => e.1 * (e.2 : ℚ)).sum = totalRatedPower tables depotId) :
    AccountsForStations tables depotId config := by
  refine ⟨hcount, hpower, ?_, ?_⟩
  · intro i hi t
    have htotal : (i.totalChargers : ℚ) = ((stationRows tables depotId).length : ℚ) := by
      rw [Inputs.totalChargers, hi]
      exact_mod_cast hcount
    rw [Inputs.chargerCountRule, htotal]
  · intro i hi t
    have htotal : i.totalChargerPower = totalRatedPower tables depotId := by
      rw [Inputs.totalChargerPower, hi]
      exact hpower
    rw [Inputs.chargerPowerRule, htotal]

/-! ### The groups that are read -/

def groupKey (c : StationConfigRow) : Option ℚ × Option ℚ := (c.maxPowerKw, c.efficiency)

def representatives : List StationConfigRow := distinctOn groupKey [] (stationRows tables depotId)

def groupOf (c : StationConfigRow) : StationGroup :=
  ⟨c.maxPowerKw, c.efficiency, (stationRows tables depotId).countP fun c' => groupKey c' = groupKey c⟩

theorem stationGroups_perm :
    (stationGroups tables depotId).Perm ((representatives tables depotId).map (groupOf tables depotId)) :=
  (List.perm_insertionSort _ _).trans (List.perm_insertionSort _ _)

theorem nodup_ratings_iff :
    ((stationGroups tables depotId).map StationGroup.ratedKw).Nodup ↔
      ∀ c ∈ stationRows tables depotId, ∀ c' ∈ stationRows tables depotId,
        c.maxPowerKw = c'.maxPowerKw → c.efficiency = c'.efficiency := by
  have hkeys : ((representatives tables depotId).map groupKey).Nodup := distinctOn_keys_nodup _ _ _
  have hmap : ((representatives tables depotId).map (groupOf tables depotId)).map StationGroup.ratedKw =
      (representatives tables depotId).map StationConfigRow.maxPowerKw := List.map_map
  rw [((stationGroups_perm tables depotId).map _).nodup_iff, hmap, List.nodup_map_iff_inj_on (List.Nodup.of_map _ hkeys)]
  constructor
  · intro hinj c hc c' hc' hrated
    obtain ⟨d, hd, hdkey⟩ := exists_mem_distinctOn groupKey c (stationRows tables depotId) [] hc List.not_mem_nil
    obtain ⟨d', hd', hdkey'⟩ := exists_mem_distinctOn groupKey c' (stationRows tables depotId) [] hc' List.not_mem_nil
    have hsame : d = d' := by
      apply hinj d hd d' hd'
      have h1 : d.maxPowerKw = c.maxPowerKw := congrArg Prod.fst hdkey
      have h2 : d'.maxPowerKw = c'.maxPowerKw := congrArg Prod.fst hdkey'
      rw [h1, h2, hrated]
    exact congrArg Prod.snd (hdkey.symm.trans ((congrArg groupKey hsame).trans hdkey'))
  · intro huniform d hd d' hd' hrated
    have hmem : ∀ e ∈ representatives tables depotId, e ∈ stationRows tables depotId :=
      fun e he => (mem_distinctOn groupKey e _ _ he).1
    have heff := huniform d (hmem d hd) d' (hmem d' hd') hrated
    exact List.inj_on_of_nodup_map hkeys hd hd' (Prod.ext hrated heff)

theorem sum_counts : ((stationGroups tables depotId).map fun g => (g.count : ℤ)).sum =
    (stationRows tables depotId).length := by
  have hsum := sum_distinctOn groupKey (fun _ => (1 : ℤ)) (stationRows tables depotId)
  rw [((stationGroups_perm tables depotId).map _).sum_eq, List.map_map]
  simpa [representatives, groupOf, Function.comp_def] using hsum

theorem sum_powers : ((stationGroups tables depotId).map fun g => g.ratedKw.getD 0 * (g.count : ℚ)).sum =
    totalRatedPower tables depotId := by
  have hsum := sum_distinctOn groupKey (fun key => key.1.getD (0 : ℚ)) (stationRows tables depotId)
  rw [((stationGroups_perm tables depotId).map _).sum_eq, List.map_map]
  exact hsum

theorem count_pos {g : StationGroup} (hg : g ∈ stationGroups tables depotId) : 0 < g.count := by
  obtain ⟨c, hc, rfl⟩ := List.mem_map.mp ((stationGroups_perm tables depotId).mem_iff.mp hg)
  apply List.countP_pos_iff.mpr
  exact ⟨c, (mem_distinctOn groupKey c _ _ hc).1, by simp⟩

theorem stationGroups_eq_nil_iff : stationGroups tables depotId = [] ↔ stationRows tables depotId = [] := by
  constructor
  · intro hnil
    have hcounts := sum_counts tables depotId
    rw [hnil, List.map_nil, List.sum_nil] at hcounts
    apply List.length_eq_zero_iff.mp
    omega
  · intro hnil
    have hperm := stationGroups_perm tables depotId
    rw [representatives, hnil] at hperm
    exact List.perm_nil.mp hperm

/-! ### The groups that are kept -/

variable {tables depotId}

theorem entries_of_collect {groups : List StationGroup} {entries : List (ℚ × ℤ)}
    (h : collect (fun g : StationGroup => do
      let rated ← orRaise g.ratedKw (.nullMaxPowerKw depotId)
      return (rated, (g.count : ℤ))) groups = .ok entries) :
    groups.map (fun g => (g.ratedKw, (g.count : ℤ))) = entries.map fun e => (some e.1, e.2) := by
  induction groups generalizing entries with
  | nil =>
    cases h
    rfl
  | cons g rest ih =>
    rw [collect, bind_eq_ok] at h
    obtain ⟨e, he, h⟩ := h
    rw [bind_eq_ok] at h
    obtain ⟨es, hes, h⟩ := h
    cases h
    rw [bind_eq_ok] at he
    obtain ⟨rated, hrated, he⟩ := he
    cases he
    rw [List.map_cons, List.map_cons, ih hes]
    cases hkw : g.ratedKw with
    | none =>
      rw [hkw] at hrated
      cases hrated
    | some kw =>
      rw [hkw] at hrated
      cases hrated
      rfl

theorem chargerGroups_of_load {config : DepotConfig} {tags : Dict VehicleId String}
    (h : loadDepotConfig tables depotId = .ok (config, tags)) :
    (stationRows tables depotId = [] ∧ config.chargerGroups = Dict.ofList [(80, 1)]) ∨
      (stationRows tables depotId ≠ [] ∧ ∃ entries, config.chargerGroups = Dict.ofList entries ∧
        (stationGroups tables depotId).map (fun g => (g.ratedKw, (g.count : ℤ))) =
          entries.map fun e => (some e.1, e.2)) := by
  unfold loadDepotConfig at h
  obtain ⟨site, _, h⟩ := (bind_eq_ok _ _ _).mp h
  obtain ⟨maxSitePower, _, h⟩ := (bind_eq_ok _ _ _).mp h
  obtain ⟨capacities, _, h⟩ := (bind_eq_ok _ _ _).mp h
  obtain ⟨chargers, hchargers, h⟩ := (bind_eq_ok _ _ _).mp h
  obtain ⟨battery, _, h⟩ := (bind_eq_ok _ _ _).mp h
  obtain ⟨maxChargeKw, _, h⟩ := (bind_eq_ok _ _ _).mp h
  cases h
  show (_ ∧ chargers.1 = _) ∨ (_ ∧ ∃ entries, chargers.1 = _ ∧ _)
  unfold loadChargers at hchargers
  split at hchargers
  next hnil =>
    cases hchargers
    exact Or.inl ⟨(stationGroups_eq_nil_iff tables depotId).mp hnil, rfl⟩
  next first rest hcons =>
    have hne : stationRows tables depotId ≠ [] := by
      intro hnil
      rw [(stationGroups_eq_nil_iff tables depotId).mpr hnil] at hcons
      cases hcons
    obtain ⟨entries, hentries, hchargers⟩ := (bind_eq_ok _ _ _).mp hchargers
    obtain ⟨efficiency, _, hchargers⟩ := (bind_eq_ok _ _ _).mp hchargers
    cases hchargers
    refine Or.inr ⟨hne, entries, rfl, ?_⟩
    rw [hcons]
    exact entries_of_collect hentries

/-- **The chargers the optimizer counts on** are those of the depot when the depot has a station and no rating has two
efficiencies, and only then. -/
theorem accountsForStations_iff {config : DepotConfig} {tags : Dict VehicleId String}
    (h : loadDepotConfig tables depotId = .ok (config, tags)) :
    AccountsForStations tables depotId config ↔ OneEfficiencyPerRating tables depotId := by
  rcases chargerGroups_of_load h with ⟨hnil, hgroups⟩ | ⟨hne, entries, hgroups, hentries⟩
  · refine ⟨?_, fun huniform => absurd hnil huniform.1⟩
    intro haccounts
    have hcount := haccounts.count
    rw [hgroups, hnil] at hcount
    exact absurd hcount (by decide)
  · have hratings : entries.map (fun e => some e.1) = (stationGroups tables depotId).map StationGroup.ratedKw := by
      have hfst := congrArg (List.map Prod.fst) hentries
      simpa [List.map_map, Function.comp_def] using hfst.symm
    have hcounts : entries.map Prod.snd = (stationGroups tables depotId).map fun g => (g.count : ℤ) := by
      have hsnd := congrArg (List.map Prod.snd) hentries
      simpa [List.map_map, Function.comp_def] using hsnd.symm
    have hnodup : (entries.map Prod.fst).Nodup ↔
        ∀ c ∈ stationRows tables depotId, ∀ c' ∈ stationRows tables depotId,
          c.maxPowerKw = c'.maxPowerKw → c.efficiency = c'.efficiency := by
      rw [← nodup_ratings_iff, ← hratings, ← List.nodup_map_iff (Option.some_injective ℚ), List.map_map]
      rfl
    have hpos : ∀ e ∈ entries, 0 < e.2 := by
      intro e he
      have hmem : e.2 ∈ (stationGroups tables depotId).map fun g => (g.count : ℤ) :=
        hcounts ▸ List.mem_map_of_mem he
      obtain ⟨g, hg, hcount⟩ := List.mem_map.mp hmem
      have hgpos := count_pos tables depotId hg
      omega
    have htotal : (entries.map Prod.snd).sum = (stationRows tables depotId).length := by
      rw [hcounts, sum_counts]
    constructor
    · intro haccounts
      refine ⟨hne, hnodup.mp ?_⟩
      rw [← Dict.sum_values_ofList_eq_iff hpos, ← hgroups, haccounts.count, htotal]
    · intro huniform
      have hkeys := hnodup.mpr huniform.2
      apply accountsForStations_of
      · rw [hgroups, (Dict.sum_values_ofList_eq_iff hpos).mpr hkeys, htotal]
      · rw [hgroups, Dict.items_ofList_of_nodup hkeys, ← sum_powers]
        have hproducts := congrArg (List.map fun e : Option ℚ × ℤ => e.1.getD 0 * (e.2 : ℚ)) hentries
        simp only [List.map_map, Function.comp_def, Option.getD_some] at hproducts
        rw [← hproducts]
        simp

end Depot

/-- Two chargers of 80 kW with different efficiencies. -/
def unevenDepot : StaticTables where
  sites := [⟨"depot", some 200, none, some "all_to_all", none, none, none, none, none⟩]
  vehicles := [⟨"bus_1", "depot", some 100, some 80, none⟩]
  chargingStations := [⟨"charger_1", "depot", some 80, some (19 / 20)⟩, ⟨"charger_2", "depot", some 80, some (9 / 10)⟩]
  batteryStorage := []
  chargerVehicleAccess := []

/-- The same with one efficiency. -/
def evenDepot : StaticTables :=
  { unevenDepot with
    chargingStations :=
      [⟨"charger_1", "depot", some 80, some (19 / 20)⟩, ⟨"charger_2", "depot", some 80, some (19 / 20)⟩] }

theorem accountsForStations_evenDepot :
    ∃ config tags, loadDepotConfig evenDepot "depot" = .ok (config, tags) ∧
      AccountsForStations evenDepot "depot" config := by
  obtain ⟨config, tags, hload, -⟩ := exists_of_loaded (fun config => config.maxSitePower)
    (show ((loadDepotConfig evenDepot "depot").toOption.map fun loaded => loaded.1.maxSitePower) = some 200 by
      decide +kernel)
  exact ⟨config, tags, hload, (accountsForStations_iff hload).mpr (by decide +kernel)⟩

/-- Of the two chargers the optimizer counts on one. -/
theorem charger_lost_unevenDepot :
    ∃ config tags, loadDepotConfig unevenDepot "depot" = .ok (config, tags) ∧
      config.chargerGroups.values.sum = 1 ∧ ¬ AccountsForStations unevenDepot "depot" config := by
  obtain ⟨config, tags, hload, hsum⟩ := exists_of_loaded (fun config => config.chargerGroups.values.sum)
    (show ((loadDepotConfig unevenDepot "depot").toOption.map fun loaded => loaded.1.chargerGroups.values.sum) =
      some 1 by decide +kernel)
  refine ⟨config, tags, hload, hsum, ?_⟩
  intro haccounts
  have hcount := haccounts.count
  rw [hsum] at hcount
  exact absurd hcount (by decide +kernel)

end FavoniusBackend.State.ChargerCounts
