import FavoniusBackend.Lib.Guard
import FavoniusBackend.Lib.Run
import FavoniusBackend.Lib.Sql
import FavoniusBackend.Optimizer.Models

/-!
# Allocation of charging power to chargers

`allocate_chargers` of `core/optimizer/allocator.py`: for every timestep the vehicles that charge are
served by priority, each from the chargers it may use, those with the highest rating first.

A charger is open to a vehicle when its access set names the vehicle, and also when the set is empty
(`Accessible`).  `allocated_of_mem` says that every assignment is to an open charger with a positive
rating, `exists_allocated` that an open charger with a positive rating is used when a vehicle asks for
enough power.
-/

namespace FavoniusBackend.Optimizer.Allocator

open Lib Lib.Guard Lib.Sql Lib.Run
open Optimizer.Models

/-- `OptimizationResult`: the charging power of each vehicle, if its entry has one, and the grid power. -/
structure OptimizationResult where
  schedule : Dict VehicleId (Option (List ℚ))
  gridPower : List ℚ

structure ChargerAssignment where
  chargerId : String
  vehicleId : VehicleId
  timestep : ℕ
  powerKw : ℚ
  deriving DecidableEq, Repr

inductive AllocationError
  | keyError (vid : VehicleId)
  | indexError (vid : VehicleId) (t : ℕ)
  deriving DecidableEq, Repr

/-- The threshold below which a vehicle does not charge and a charger is used up. -/
def threshold : ℚ := 1 / 10

/-! ### Vehicles -/

def firstChargeStep (nTimesteps : ℕ) (chargingPower : Option (List ℚ)) : ℚ :=
  match (chargingPower.getD []).findIdx? fun power => decide (threshold < power) with
  | some t => t
  | none => nTimesteps

def defaultPriorities (result : OptimizationResult) : Dict VehicleId ℚ :=
  Dict.ofList (result.schedule.items.map fun e =>
    (e.1, firstChargeStep result.gridPower.length e.2))

/-- `vehicle_priorities.get(vid, inf)`. -/
def priorityOf (priorities : Dict VehicleId ℚ) (vid : VehicleId) : WithTop ℚ :=
  match priorities.get? vid with
  | some priority => priority
  | none => ⊤

def powerAt (t : ℕ) (e : VehicleId × Option (List ℚ)) : Except AllocationError (VehicleId × ℚ) :=
  match e.2 with
  | none => .error (.keyError e.1)
  | some power =>
    match power[t]? with
    | none => .error (.indexError e.1 t)
    | some p => .ok (e.1, p)

def chargingVehicles (result : OptimizationResult) (priorities : Dict VehicleId ℚ) (t : ℕ) :
    Except AllocationError (List (VehicleId × ℚ)) := do
  let powers ← collect (powerAt t) result.schedule.items
  return orderBy (fun a b => priorityOf priorities a.1 ≤ priorityOf priorities b.1)
    (powers.filter fun e => decide (threshold < e.2))

/-! ### Chargers -/

abbrev ChargerIdsByRating := Dict ℚ (List String)

/-- `charger_capacity` at the start of a timestep: a charger listed twice has its last rating. -/
def chargerCapacity (chargerIdsByRating : ChargerIdsByRating) : Dict String ℚ :=
  Dict.ofList (chargerIdsByRating.items.flatMap fun group => group.2.map fun cid => (cid, group.1))

def sortedGroups (chargerIdsByRating : ChargerIdsByRating) : List (ℚ × List String) :=
  orderBy (fun a b => b.1 ≤ a.1) chargerIdsByRating.items

/-- The access check; an empty or missing set lets every vehicle pass. -/
def Accessible (config : DepotConfig) (vid : VehicleId) (cid : String) : Prop :=
  config.chargerVehicleAccess.getD cid [] = [] ∨ vid ∈ config.chargerVehicleAccess.getD cid []

instance (config : DepotConfig) (vid : VehicleId) (cid : String) : Decidable (Accessible config vid cid) :=
  inferInstanceAs (Decidable (_ ∨ _))

/-- The variables of one timestep, and the remaining power of the vehicle being served. -/
structure Progress where
  assignments : List ChargerAssignment
  used : List String
  capacity : Dict String ℚ
  remaining : ℚ

/-- One charger of the inner loop; nothing happens once no power remains. -/
def allocateCharger (vid : VehicleId) (t : ℕ) (s : Progress) (cid : String) : Progress :=
  if s.remaining ≤ 0 ∨ s.capacity.getD cid 0 ≤ 0 then s
  else
    let allocated := min s.remaining (s.capacity.getD cid 0)
    let left := s.capacity.getD cid 0 - allocated
    { assignments := s.assignments ++ [⟨cid, vid, t, allocated⟩]
      used := if left < threshold then cid :: s.used else s.used
      capacity := s.capacity.set cid left
      remaining := s.remaining - allocated }

def accessibleChargers (config : DepotConfig) (vid : VehicleId) (used chargerIds : List String) :
    List String :=
  chargerIds.filter fun cid => decide (cid ∉ used ∧ Accessible config vid cid)

def allocateGroup (config : DepotConfig) (vid : VehicleId) (t : ℕ) (s : Progress)
    (group : ℚ × List String) : Progress :=
  if s.remaining ≤ 0 then s
  else (accessibleChargers config vid s.used group.2).foldl (allocateCharger vid t) s

def allocateVehicle (config : DepotConfig) (chargerIdsByRating : ChargerIdsByRating) (t : ℕ)
    (s : Progress) (vehicle : VehicleId × ℚ) : Progress :=
  (sortedGroups chargerIdsByRating).foldl (allocateGroup config vehicle.1 t)
    { s with remaining := vehicle.2 }

def allocateTimestep (result : OptimizationResult) (config : DepotConfig)
    (chargerIdsByRating : ChargerIdsByRating) (priorities : Dict VehicleId ℚ) (t : ℕ) :
    Except AllocationError (List ChargerAssignment) := do
  let vehicles ← chargingVehicles result priorities t
  return (vehicles.foldl (allocateVehicle config chargerIdsByRating t)
    ⟨[], [], chargerCapacity chargerIdsByRating, 0⟩).assignments

def allocateChargers (result : OptimizationResult) (config : DepotConfig)
    (chargerIdsByRating : ChargerIdsByRating) (vehiclePriorities : Option (Dict VehicleId ℚ)) :
    Except AllocationError (List ChargerAssignment) := do
  let priorities := vehiclePriorities.getD (defaultPriorities result)
  let steps ← collect (allocateTimestep result config chargerIdsByRating priorities)
    (List.range result.gridPower.length)
  return steps.flatten

/-! ### What is allocated -/

section Sound

variable (config : DepotConfig) (chargerIdsByRating : ChargerIdsByRating)

def Allowed (a : ChargerAssignment) : Prop :=
  Accessible config a.vehicleId a.chargerId ∧
    0 < (chargerCapacity chargerIdsByRating).getD a.chargerId 0

/-- All assignments so far are allowed, and capacity is left only at chargers with a positive rating. -/
structure Sound (s : Progress) : Prop where
  allowed : ∀ a ∈ s.assignments, Allowed config chargerIdsByRating a
  capacity : ∀ cid, 0 < s.capacity.getD cid 0 → 0 < (chargerCapacity chargerIdsByRating).getD cid 0

variable {config chargerIdsByRating}

theorem getD_set (d : Dict String ℚ) (cid c : String) (q : ℚ) :
    (d.set cid q).getD c 0 = if c = cid then q else d.getD c 0 := by
  rw [Dict.getD, Dict.get?_set]
  split
  · rfl
  · rfl

theorem sound_allocateCharger {vid : VehicleId} {cid : String} (t : ℕ)
    (hacc : Accessible config vid cid) {s : Progress} (h : Sound config chargerIdsByRating s) :
    Sound config chargerIdsByRating (allocateCharger vid t s cid) := by
  unfold allocateCharger
  split
  · exact h
  · rename_i hopen
    rw [not_or, not_le, not_le] at hopen
    refine ⟨?_, ?_⟩
    · intro a ha
      rcases List.mem_append.mp ha with ha | ha
      · exact h.allowed a ha
      · obtain rfl := List.mem_singleton.mp ha
        exact ⟨hacc, h.capacity cid hopen.2⟩
    · intro c hc
      simp only [getD_set] at hc
      split at hc
      · rename_i hcid
        rw [hcid]
        exact h.capacity cid hopen.2
      · exact h.capacity c hc

theorem sound_allocateGroup (vid : VehicleId) (t : ℕ) (group : ℚ × List String) {s : Progress}
    (h : Sound config chargerIdsByRating s) :
    Sound config chargerIdsByRating (allocateGroup config vid t s group) := by
  unfold allocateGroup
  split
  · exact h
  · refine run_invariant (allocateCharger vid t) (Sound config chargerIdsByRating) _ ?_ s h
    intro s' cid hcid hs'
    have hacc : cid ∉ s.used ∧ Accessible config vid cid := by
      simpa [accessibleChargers] using (List.mem_filter.mp hcid).2
    exact sound_allocateCharger t hacc.2 hs'

theorem sound_allocateVehicle (t : ℕ) (vehicle : VehicleId × ℚ) {s : Progress}
    (h : Sound config chargerIdsByRating s) :
    Sound config chargerIdsByRating (allocateVehicle config chargerIdsByRating t s vehicle) := by
  refine run_invariant (allocateGroup config vehicle.1 t) (Sound config chargerIdsByRating) _ ?_ _
    ⟨h.allowed, h.capacity⟩
  intro s' group _ hs'
  exact sound_allocateGroup vehicle.1 t group hs'

theorem mem_of_collect {ε α β : Type} {f : α → Except ε (List β)} {l : List α} {bs : List (List β)}
    (h : collect f l = .ok bs) {b : β} (hb : b ∈ bs.flatten) :
    ∃ a ∈ l, ∃ b', f a = .ok b' ∧ b ∈ b' := by
  induction l generalizing bs with
  | nil =>
    cases h
    cases hb
  | cons a rest ih =>
    rw [collect, bind_eq_ok] at h
    obtain ⟨first, hfirst, h⟩ := h
    rw [bind_eq_ok] at h
    obtain ⟨others, hothers, h⟩ := h
    cases h
    rw [List.flatten_cons] at hb
    rcases List.mem_append.mp hb with hb | hb
    · exact ⟨a, List.mem_cons_self, first, hfirst, hb⟩
    · obtain ⟨c, hc, hrest⟩ := ih hothers hb
      exact ⟨c, List.mem_cons_of_mem a hc, hrest⟩

theorem sound_start :
    Sound config chargerIdsByRating ⟨[], [], chargerCapacity chargerIdsByRating, 0⟩ := by
  refine ⟨?_, fun _ hcid => hcid⟩
  intro b hb
  cases hb

/-- **Every assignment is allowed.** -/
theorem allocated_of_mem {result : OptimizationResult} {vehiclePriorities : Option (Dict VehicleId ℚ)}
    {assignments : List ChargerAssignment}
    (h : allocateChargers result config chargerIdsByRating vehiclePriorities = .ok assignments)
    {a : ChargerAssignment} (ha : a ∈ assignments) : Allowed config chargerIdsByRating a := by
  unfold allocateChargers at h
  rw [bind_eq_ok] at h
  obtain ⟨steps, hsteps, h⟩ := h
  cases h
  obtain ⟨t, _, step, hstep, hmem⟩ := mem_of_collect hsteps ha
  unfold allocateTimestep at hstep
  rw [bind_eq_ok] at hstep
  obtain ⟨vehicles, _, hstep⟩ := hstep
  cases hstep
  have hrun := run_invariant (allocateVehicle config chargerIdsByRating t)
    (Sound config chargerIdsByRating) vehicles
    (fun _ vehicle _ hs => sound_allocateVehicle t vehicle hs) _ sound_start
  exact hrun.allowed a hmem

end Sound

/-! ### What can be allocated -/

section Complete

variable {config : DepotConfig} {vid : VehicleId} {cid : String} {t : ℕ} {bound : ℚ}

def Assigned (vid : VehicleId) (cid : String) (s : Progress) : Prop :=
  ∃ a ∈ s.assignments, a.chargerId = cid ∧ a.vehicleId = vid

theorem assigned_allocateCharger {s : Progress} (h : Assigned vid cid s) (c : String) :
    Assigned vid cid (allocateCharger vid t s c) := by
  obtain ⟨a, ha, hids⟩ := h
  unfold allocateCharger
  split
  · exact ⟨a, ha, hids⟩
  · exact ⟨a, List.mem_append_left _ ha, hids⟩

theorem assigned_allocateGroup {s : Progress} (h : Assigned vid cid s) (group : ℚ × List String) :
    Assigned vid cid (allocateGroup config vid t s group) := by
  unfold allocateGroup
  split
  · exact h
  · exact run_invariant (allocateCharger vid t) (Assigned vid cid) _
      (fun s' c _ hs' => assigned_allocateCharger hs' c) s h

/-- Before `k` more chargers: they cannot take all the remaining power, and the charger has been
assigned or is still untouched. -/
structure Reserve (vid : VehicleId) (cid : String) (bound : ℚ) (k : ℕ) (s : Progress) : Prop where
  remaining : bound * k < s.remaining
  capacity_le : ∀ c, s.capacity.getD c 0 ≤ bound
  pending : Assigned vid cid s ∨ (cid ∉ s.used ∧ 0 < s.capacity.getD cid 0)

theorem Reserve.mono (hbound : 0 ≤ bound) {k k' : ℕ} (hk : k ≤ k') {s : Progress}
    (h : Reserve vid cid bound k' s) : Reserve vid cid bound k s := by
  refine ⟨?_, h.capacity_le, h.pending⟩
  have hle : (k : ℚ) ≤ k' := by exact_mod_cast hk
  exact lt_of_le_of_lt (mul_le_mul_of_nonneg_left hle hbound) h.remaining

theorem Reserve.remaining_pos (hbound : 0 ≤ bound) {k : ℕ} {s : Progress}
    (h : Reserve vid cid bound k s) : 0 < s.remaining := by
  refine lt_of_le_of_lt ?_ h.remaining
  exact mul_nonneg hbound (Nat.cast_nonneg k)

theorem reserve_allocateCharger (hbound : 0 ≤ bound) {k : ℕ} {s : Progress}
    (h : Reserve vid cid bound (k + 1) s) (c : String) :
    Reserve vid cid bound k (allocateCharger vid t s c) ∧
      (c = cid → Assigned vid cid (allocateCharger vid t s c)) := by
  have hpos := h.remaining_pos hbound
  by_cases hcap : s.capacity.getD c 0 ≤ 0
  · have hstay : allocateCharger vid t s c = s := if_pos (Or.inr hcap)
    rw [hstay]
    refine ⟨h.mono hbound (Nat.le_succ k), ?_⟩
    intro hc
    rcases h.pending with hassigned | ⟨_, hopen⟩
    · exact hassigned
    · rw [← hc] at hopen
      exact absurd hopen (not_lt.mpr hcap)
  · rw [not_le] at hcap
    have hstep : allocateCharger vid t s c = _ := if_neg (not_or.mpr ⟨not_le.mpr hpos, not_le.mpr hcap⟩)
    have hnew : c = cid → Assigned vid cid (allocateCharger vid t s c) := by
      intro hc
      rw [hstep, ← hc]
      exact ⟨_, List.mem_append_right _ (List.mem_singleton.mpr rfl), rfl, rfl⟩
    have hmin : min s.remaining (s.capacity.getD c 0) ≤ bound := (min_le_right _ _).trans (h.capacity_le c)
    have hmin0 : 0 ≤ min s.remaining (s.capacity.getD c 0) := le_min hpos.le hcap.le
    refine ⟨⟨?_, ?_, ?_⟩, hnew⟩
    · rw [hstep]
      have hrem := h.remaining
      push_cast at hrem
      show bound * k < s.remaining - min s.remaining (s.capacity.getD c 0)
      linarith
    · intro c'
      rw [hstep]
      show (s.capacity.set c _).getD c' 0 ≤ bound
      rw [getD_set]
      split
      · linarith [h.capacity_le c]
      · exact h.capacity_le c'
    · by_cases hc : c = cid
      · exact Or.inl (hnew hc)
      · rcases h.pending with hassigned | ⟨hunused, hopen⟩
        · exact Or.inl (assigned_allocateCharger hassigned c)
        · refine Or.inr ⟨?_, ?_⟩
          · rw [hstep]
            show cid ∉ if _ then c :: s.used else s.used
            split
            · rw [List.mem_cons, not_or]
              exact ⟨fun heq => hc heq.symm, hunused⟩
            · exact hunused
          · rw [hstep]
            show 0 < (s.capacity.set c _).getD cid 0
            rw [getD_set, if_neg fun heq => hc heq.symm]
            exact hopen

theorem reserve_foldl (hbound : 0 ≤ bound) (chargers : List String) :
    ∀ (k : ℕ) (s : Progress), Reserve vid cid bound (k + chargers.length) s →
      Reserve vid cid bound k (chargers.foldl (allocateCharger vid t) s) ∧
        (cid ∈ chargers → Assigned vid cid (chargers.foldl (allocateCharger vid t) s)) := by
  induction chargers with
  | nil =>
    intro k s h
    exact ⟨h, fun hmem => absurd hmem List.not_mem_nil⟩
  | cons c rest ih =>
    intro k s h
    obtain ⟨hstep, hnew⟩ := @reserve_allocateCharger vid cid t bound hbound (k + rest.length) s h c
    obtain ⟨hrest, hlater⟩ := ih k _ hstep
    refine ⟨hrest, ?_⟩
    intro hmem
    rcases List.mem_cons.mp hmem with hc | hmem
    · exact run_invariant (allocateCharger vid t) (Assigned vid cid) rest
        (fun s' c' _ hs' => assigned_allocateCharger hs' c') _ (hnew hc.symm)
    · exact hlater hmem

theorem reserve_allocateGroup (hbound : 0 ≤ bound) (hacc : Accessible config vid cid)
    (group : ℚ × List String) {k : ℕ} {s : Progress}
    (h : Reserve vid cid bound (k + group.2.length) s) :
    Reserve vid cid bound k (allocateGroup config vid t s group) ∧
      (cid ∈ group.2 → Assigned vid cid (allocateGroup config vid t s group)) := by
  have hpos := h.remaining_pos hbound
  have hstep : allocateGroup config vid t s group =
      (accessibleChargers config vid s.used group.2).foldl (allocateCharger vid t) s :=
    if_neg (not_le.mpr hpos)
  have hlen : (accessibleChargers config vid s.used group.2).length ≤ group.2.length :=
    List.length_filter_le _ _
  obtain ⟨hrest, hnew⟩ := @reserve_foldl vid cid t bound hbound
    (accessibleChargers config vid s.used group.2) k s (h.mono hbound (by omega))
  refine ⟨hstep ▸ hrest, ?_⟩
  intro hmem
  rcases h.pending with hassigned | ⟨hunused, _⟩
  · exact assigned_allocateGroup hassigned group
  · rw [hstep]
    apply hnew
    exact List.mem_filter.mpr ⟨hmem, by simpa using ⟨hunused, hacc⟩⟩

theorem assigned_of_groups (hbound : 0 ≤ bound) (hacc : Accessible config vid cid)
    (groups : List (ℚ × List String)) :
    ∀ (k : ℕ) (s : Progress),
      Reserve vid cid bound (k + (groups.map fun group => group.2.length).sum) s →
      (∃ group ∈ groups, cid ∈ group.2) →
      Assigned vid cid (groups.foldl (allocateGroup config vid t) s) := by
  induction groups with
  | nil =>
    intro k s _ hlisted
    obtain ⟨group, hgroup, _⟩ := hlisted
    cases hgroup
  | cons group rest ih =>
    intro k s h hlisted
    rw [List.map_cons, List.sum_cons, add_comm group.2.length, ← add_assoc] at h
    obtain ⟨hrest, hnew⟩ := @reserve_allocateGroup config vid cid t bound hbound hacc group _ s h
    by_cases hmem : cid ∈ group.2
    · exact run_invariant (allocateGroup config vid t) (Assigned vid cid) rest
        (fun s' g _ hs' => assigned_allocateGroup hs' g) _ (hnew hmem)
    · apply ih k _ hrest
      obtain ⟨g, hg, hcid⟩ := hlisted
      rcases List.mem_cons.mp hg with rfl | hg
      · exact absurd hcid hmem
      · exact ⟨g, hg, hcid⟩

end Complete

def singleDemand (vid : VehicleId) (power : ℚ) : OptimizationResult :=
  ⟨Dict.ofList [(vid, some [power])], [power]⟩

theorem allocateChargers_singleDemand (config : DepotConfig) (chargerIdsByRating : ChargerIdsByRating)
    (vid : VehicleId) {power : ℚ} (hpower : threshold < power)
    (priorities : Option (Dict VehicleId ℚ)) :
    allocateChargers (singleDemand vid power) config chargerIdsByRating priorities =
      .ok (allocateVehicle config chargerIdsByRating 0
        ⟨[], [], chargerCapacity chargerIdsByRating, 0⟩ (vid, power)).assignments := by
  have hfilter : [(vid, power)].filter (fun e => decide (threshold < e.2)) = [(vid, power)] := by
    simp [hpower]
  have hvehicles : ∀ p, chargingVehicles (singleDemand vid power) p 0 = .ok [(vid, power)] := by
    intro p
    show Except.ok (orderBy _ ([(vid, power)].filter _)) = _
    rw [hfilter]
    rfl
  have hstep : ∀ p, allocateTimestep (singleDemand vid power) config chargerIdsByRating p 0 =
      .ok (allocateVehicle config chargerIdsByRating 0
        ⟨[], [], chargerCapacity chargerIdsByRating, 0⟩ (vid, power)).assignments := by
    intro p
    rw [allocateTimestep, hvehicles]
    rfl
  show (collect (allocateTimestep (singleDemand vid power) config chargerIdsByRating _) [0] >>= fun steps =>
    pure steps.flatten) = _
  rw [collect, hstep]
  show Except.ok ([_].flatten) = _
  rw [List.flatten_cons, List.flatten_nil, List.append_nil]

theorem capacity_le_bound (chargerIdsByRating : ChargerIdsByRating) (c : String) :
    (chargerCapacity chargerIdsByRating).getD c 0 ≤
      (chargerIdsByRating.items.map fun group => |group.1|).sum := by
  have hnonneg : ∀ q ∈ chargerIdsByRating.items.map fun group => |group.1|, (0 : ℚ) ≤ q := by
    intro q hq
    obtain ⟨group, _, rfl⟩ := List.mem_map.mp hq
    exact abs_nonneg _
  rw [Dict.getD, chargerCapacity, Dict.get?_ofList]
  cases hlast : ((chargerIdsByRating.items.flatMap fun group => group.2.map fun cid =>
      (cid, group.1)).filter fun p => p.1 = c).getLast? with
  | none => exact List.sum_nonneg hnonneg
  | some entry =>
    obtain ⟨hmem, _⟩ := List.mem_filter.mp (List.mem_of_getLast? hlast)
    obtain ⟨group, hgroup, hentry⟩ := List.mem_flatMap.mp hmem
    obtain ⟨cid, _, rfl⟩ := List.mem_map.mp hentry
    show group.1 ≤ _
    exact (le_abs_self _).trans (List.single_le_sum hnonneg _ (List.mem_map_of_mem hgroup))

theorem exists_group_of_capacity {chargerIdsByRating : ChargerIdsByRating} {cid : String}
    (h : 0 < (chargerCapacity chargerIdsByRating).getD cid 0) :
    ∃ group ∈ chargerIdsByRating.items, cid ∈ group.2 := by
  rw [Dict.getD, chargerCapacity, Dict.get?_ofList] at h
  cases hlast : ((chargerIdsByRating.items.flatMap fun group => group.2.map fun cid =>
      (cid, group.1)).filter fun p => p.1 = cid).getLast? with
  | none =>
    rw [hlast] at h
    exact absurd h (lt_irrefl _)
  | some entry =>
    obtain ⟨hmem, hkey⟩ := List.mem_filter.mp (List.mem_of_getLast? hlast)
    obtain ⟨group, hgroup, hentry⟩ := List.mem_flatMap.mp hmem
    obtain ⟨c, hc, rfl⟩ := List.mem_map.mp hentry
    have hcid : c = cid := by simpa using hkey
    exact ⟨group, hgroup, hcid ▸ hc⟩

/-- **An open charger is used.**  For every charger with a positive rating and every vehicle it is open
to, some result makes the allocator assign the vehicle to it. -/
theorem exists_allocated (config : DepotConfig) (chargerIdsByRating : ChargerIdsByRating)
    (vid : VehicleId) (cid : String) (hacc : Accessible config vid cid)
    (hcap : 0 < (chargerCapacity chargerIdsByRating).getD cid 0) :
    ∃ result assignments, allocateChargers result config chargerIdsByRating none = .ok assignments ∧
      ∃ a ∈ assignments, a.chargerId = cid ∧ a.vehicleId = vid := by
  -- more power than all listed chargers can give
  set bound := (chargerIdsByRating.items.map fun group => |group.1|).sum with hbound
  set count := ((sortedGroups chargerIdsByRating).map fun group => group.2.length).sum with hcount
  have hbound0 : 0 ≤ bound := hcap.le.trans (capacity_le_bound chargerIdsByRating cid)
  have hpower : threshold < bound * count + 1 := by
    have hprod : 0 ≤ bound * (count : ℚ) := mul_nonneg hbound0 (Nat.cast_nonneg _)
    have hthreshold : threshold < 1 := by norm_num [threshold]
    linarith
  refine ⟨singleDemand vid (bound * count + 1), _,
    allocateChargers_singleDemand config chargerIdsByRating vid hpower none, ?_⟩
  apply assigned_of_groups hbound0 hacc (sortedGroups chargerIdsByRating) 0
  · refine ⟨?_, capacity_le_bound chargerIdsByRating, Or.inr ⟨List.not_mem_nil, hcap⟩⟩
    rw [zero_add]
    exact lt_add_one _
  · obtain ⟨group, hgroup, hcid⟩ := exists_group_of_capacity hcap
    exact ⟨group, mem_orderBy.mpr hgroup, hcid⟩

end FavoniusBackend.Optimizer.Allocator
