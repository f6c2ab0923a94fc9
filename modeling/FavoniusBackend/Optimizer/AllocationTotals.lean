import FavoniusBackend.Optimizer.Allocator

/-!
# What the allocator hands out

One charger of the inner loop either leaves everything as it is or gives the vehicle all the charger has left or all the
vehicle still asks for (`allocateCharger_cases`).  So the power given away and the capacity left of a charger add up to
its rating (`Ledger`), serving a vehicle gives nothing to another one and returns no capacity (`Serves`), and a vehicle
that is left with a demand has used up every charger it may use (`Drained`).

The totals of a timestep are those of its own run of the loops (`filter_timestep`).
-/

namespace FavoniusBackend.Optimizer.Allocator

open Lib Lib.Guard Lib.Sql Lib.Run
open Optimizer.Models

/-! ### Totals -/

def powerOf (selects : ChargerAssignment → Bool) (assignments : List ChargerAssignment) : ℚ :=
  ((assignments.filter selects).map ChargerAssignment.powerKw).sum

theorem powerOf_append (selects : ChargerAssignment → Bool) (assignments assignments' : List ChargerAssignment) :
    powerOf selects (assignments ++ assignments') = powerOf selects assignments + powerOf selects assignments' := by
  simp [powerOf]

theorem powerOf_singleton (selects : ChargerAssignment → Bool) (a : ChargerAssignment) :
    powerOf selects [a] = if selects a then a.powerKw else 0 := by
  by_cases ha : selects a <;> simp [powerOf, ha]

theorem powerOf_pos {selects : ChargerAssignment → Bool} {assignments : List ChargerAssignment}
    (hpositive : ∀ a ∈ assignments, 0 < a.powerKw) {a : ChargerAssignment} (ha : a ∈ assignments)
    (hselects : selects a = true) : 0 < powerOf selects assignments := by
  have hmem : a.powerKw ∈ (assignments.filter selects).map ChargerAssignment.powerKw :=
    List.mem_map_of_mem (List.mem_filter.mpr ⟨ha, hselects⟩)
  have hnonneg : ∀ q ∈ (assignments.filter selects).map ChargerAssignment.powerKw, 0 ≤ q := by
    intro q hq
    obtain ⟨b, hb, rfl⟩ := List.mem_map.mp hq
    exact (hpositive b (List.mem_of_mem_filter hb)).le
  exact lt_of_lt_of_le (hpositive a ha) (List.single_le_sum hnonneg _ hmem)

def onCharger (cid : String) (assignments : List ChargerAssignment) : ℚ :=
  powerOf (fun a => a.chargerId = cid) assignments

def onVehicle (vid : VehicleId) (assignments : List ChargerAssignment) : ℚ :=
  powerOf (fun a => a.vehicleId = vid) assignments

theorem onCharger_concat (cid : String) (assignments : List ChargerAssignment) (a : ChargerAssignment) :
    onCharger cid (assignments ++ [a]) = onCharger cid assignments + if a.chargerId = cid then a.powerKw else 0 := by
  simp [onCharger, powerOf_append, powerOf_singleton]

theorem onVehicle_concat (vid : VehicleId) (assignments : List ChargerAssignment) (a : ChargerAssignment) :
    onVehicle vid (assignments ++ [a]) = onVehicle vid assignments + if a.vehicleId = vid then a.powerKw else 0 := by
  simp [onVehicle, powerOf_append, powerOf_singleton]

/-! ### One charger -/

def Progress.left (s : Progress) (cid : String) : ℚ := s.capacity.getD cid 0

def Progress.assign (s : Progress) (vid : VehicleId) (t : ℕ) (cid : String) (power : ℚ) : Progress where
  assignments := s.assignments ++ [⟨cid, vid, t, power⟩]
  used := if s.left cid - power < threshold then cid :: s.used else s.used
  capacity := s.capacity.set cid (s.left cid - power)
  remaining := s.remaining - power

theorem left_assign (s : Progress) (vid : VehicleId) (t : ℕ) (cid c : String) (power : ℚ) :
    (s.assign vid t cid power).left c = if c = cid then s.left cid - power else s.left c :=
  getD_set s.capacity cid c _

/-- An assignment the inner loop makes: positive, and all the vehicle asks for or all the charger has. -/
structure Gives (s : Progress) (cid : String) (power : ℚ) : Prop where
  positive : 0 < power
  le_remaining : power ≤ s.remaining
  le_left : power ≤ s.left cid
  all : power = s.remaining ∨ power = s.left cid

/-- **One charger**: nothing happens, because no demand or no capacity is left, or the vehicle is given power. -/
theorem allocateCharger_cases (vid : VehicleId) (t : ℕ) (s : Progress) (cid : String) :
    (allocateCharger vid t s cid = s ∧ (s.remaining ≤ 0 ∨ s.left cid ≤ 0)) ∨
      ∃ power, Gives s cid power ∧ allocateCharger vid t s cid = s.assign vid t cid power := by
  by_cases hidle : s.remaining ≤ 0 ∨ s.capacity.getD cid 0 ≤ 0
  · exact Or.inl ⟨if_pos hidle, hidle⟩
  · have hstep : allocateCharger vid t s cid = s.assign vid t cid (min s.remaining (s.left cid)) := if_neg hidle
    rw [not_or, not_le, not_le] at hidle
    have hleft : 0 < s.left cid := hidle.2
    exact Or.inr ⟨_, ⟨lt_min hidle.1 hleft, min_le_left _ _, min_le_right _ _, min_choice _ _⟩, hstep⟩

/-! ### The ledger of a timestep -/

/-- Capacity and assignments of every charger add up to its rating, used chargers are below the threshold, and every
assignment is a positive one of the timestep. -/
structure Ledger (rating : String → ℚ) (t : ℕ) (s : Progress) : Prop where
  balance : ∀ c, onCharger c s.assignments + s.left c = rating c
  floor : ∀ c, min 0 (rating c) ≤ s.left c
  used : ∀ c ∈ s.used, s.left c < threshold
  entries : ∀ a ∈ s.assignments, 0 < a.powerKw ∧ a.timestep = t

theorem ledger_assign {rating : String → ℚ} {s : Progress} (vid : VehicleId) {t : ℕ} {cid : String} {power : ℚ}
    (h : Ledger rating t s) (hgives : Gives s cid power) : Ledger rating t (s.assign vid t cid power) := by
  have hpositive := hgives.positive
  have hle := hgives.le_left
  refine ⟨?_, ?_, ?_, ?_⟩
  · intro c
    rw [left_assign]
    show onCharger c (s.assignments ++ [⟨cid, vid, t, power⟩]) + _ = _
    rw [onCharger_concat]
    have hbalance := h.balance c
    by_cases hc : c = cid
    · subst hc
      simp only [if_true]
      linarith
    · rw [if_neg fun heq : cid = c => hc heq.symm, if_neg hc]
      linarith
  · intro c
    rw [left_assign]
    split
    · exact (min_le_left _ _).trans (by linarith)
    · exact h.floor c
  · intro c hc
    rw [left_assign]
    by_cases heq : c = cid
    · subst heq
      rw [if_pos rfl]
      by_cases hlow : s.left c - power < threshold
      · exact hlow
      · have hused : c ∈ s.used := by
          have hmem : c ∈ if s.left c - power < threshold then c :: s.used else s.used := hc
          rwa [if_neg hlow] at hmem
        linarith [h.used c hused]
    · rw [if_neg heq]
      apply h.used
      have hmem : c ∈ if s.left cid - power < threshold then cid :: s.used else s.used := hc
      split at hmem
      · exact (List.mem_cons.mp hmem).resolve_left heq
      · exact hmem
  · intro a ha
    rcases List.mem_append.mp ha with ha | ha
    · exact h.entries a ha
    · obtain rfl := List.mem_singleton.mp ha
      exact ⟨hpositive, rfl⟩

theorem Ledger.with_remaining {rating : String → ℚ} {t : ℕ} {s : Progress} (h : Ledger rating t s) (power : ℚ) :
    Ledger rating t { s with remaining := power } :=
  ⟨h.balance, h.floor, h.used, h.entries⟩

theorem ledger_start (chargerIdsByRating : ChargerIdsByRating) (t : ℕ) :
    Ledger (fun cid => (chargerCapacity chargerIdsByRating).getD cid 0) t
      ⟨[], [], chargerCapacity chargerIdsByRating, 0⟩ := by
  refine ⟨?_, fun _ => min_le_right _ _, ?_, ?_⟩
  · intro c
    show (0 : ℚ) + _ = _
    rw [zero_add]
    rfl
  · intro c hc
    cases hc
  · intro a ha
    cases ha

/-! ### Serving one vehicle -/

/-- Between the two states only this vehicle was served. -/
structure Serves (vid : VehicleId) (s s' : Progress) : Prop where
  left_le : ∀ c, s'.left c ≤ s.left c
  own : onVehicle vid s'.assignments + s'.remaining = onVehicle vid s.assignments + s.remaining
  others : ∀ v, v ≠ vid → onVehicle v s'.assignments = onVehicle v s.assignments
  remaining_le : s'.remaining ≤ s.remaining
  remaining_nonneg : 0 ≤ s.remaining → 0 ≤ s'.remaining

theorem Serves.refl (vid : VehicleId) (s : Progress) : Serves vid s s :=
  ⟨fun _ => le_refl _, rfl, fun _ _ => rfl, le_refl _, id⟩

theorem Serves.trans {vid : VehicleId} {s s' s'' : Progress} (h : Serves vid s s') (h' : Serves vid s' s'') :
    Serves vid s s'' :=
  ⟨fun c => (h'.left_le c).trans (h.left_le c), h'.own.trans h.own,
    fun v hv => (h'.others v hv).trans (h.others v hv), h'.remaining_le.trans h.remaining_le,
    fun hs => h'.remaining_nonneg (h.remaining_nonneg hs)⟩

theorem serves_assign {s : Progress} (vid : VehicleId) (t : ℕ) {cid : String} {power : ℚ} (hgives : Gives s cid power) :
    Serves vid s (s.assign vid t cid power) := by
  have hpositive := hgives.positive
  have hle := hgives.le_remaining
  refine ⟨?_, ?_, ?_, ?_, ?_⟩
  · intro c
    rw [left_assign]
    split
    next hc =>
      rw [hc]
      linarith
    next => exact le_refl _
  · show onVehicle vid (s.assignments ++ [⟨cid, vid, t, power⟩]) + (s.remaining - power) = _
    rw [onVehicle_concat, if_pos rfl]
    show onVehicle vid s.assignments + power + (s.remaining - power) = _
    linarith
  · intro v hv
    show onVehicle v (s.assignments ++ [⟨cid, vid, t, power⟩]) = _
    rw [onVehicle_concat, if_neg fun heq : vid = v => hv heq.symm, add_zero]
  · show s.remaining - power ≤ s.remaining
    linarith
  · intro _
    show 0 ≤ s.remaining - power
    linarith

section Vehicle

variable {rating : String → ℚ} {config : DepotConfig} {chargerIdsByRating : ChargerIdsByRating} {vid : VehicleId} {t : ℕ}

/-- Neither a demand nor a usable capacity of the charger is left together. -/
def Drained (s : Progress) (c : String) : Prop := s.remaining ≤ 0 ∨ s.left c < threshold

theorem Drained.of_serves {s s' : Progress} {c : String} (h : Drained s c) (hserves : Serves vid s s') : Drained s' c := by
  rcases h with h | h
  · exact Or.inl (hserves.remaining_le.trans h)
  · exact Or.inr (lt_of_le_of_lt (hserves.left_le c) h)

theorem allocateCharger_spec {s : Progress} (h : Ledger rating t s) (cid : String) :
    Ledger rating t (allocateCharger vid t s cid) ∧ Serves vid s (allocateCharger vid t s cid) ∧
      Drained (allocateCharger vid t s cid) cid := by
  have hthreshold : (0 : ℚ) < threshold := by norm_num [threshold]
  rcases allocateCharger_cases vid t s cid with ⟨hstay, hidle⟩ | ⟨power, hgives, hstep⟩
  · rw [hstay]
    exact ⟨h, Serves.refl vid s, hidle.imp_right fun hleft => lt_of_le_of_lt hleft hthreshold⟩
  · rw [hstep]
    refine ⟨ledger_assign vid h hgives, serves_assign vid t hgives, ?_⟩
    rcases hgives.all with hall | hall
    · have hdone : s.remaining - power ≤ 0 := by linarith
      exact Or.inl hdone
    · have hempty : (s.assign vid t cid power).left cid = 0 := by
        rw [left_assign, if_pos rfl, hall, sub_self]
      exact Or.inr (hempty ▸ hthreshold)

theorem chargers_spec (chargers : List String) :
    ∀ s : Progress, Ledger rating t s →
      Ledger rating t (chargers.foldl (allocateCharger vid t) s) ∧
        Serves vid s (chargers.foldl (allocateCharger vid t) s) ∧
        ∀ c ∈ chargers, Drained (chargers.foldl (allocateCharger vid t) s) c := by
  induction chargers with
  | nil =>
    intro s h
    exact ⟨h, Serves.refl vid s, fun c hc => absurd hc List.not_mem_nil⟩
  | cons cid rest ih =>
    intro s h
    obtain ⟨hledger, hserves, hdrained⟩ := @allocateCharger_spec rating vid t s h cid
    obtain ⟨hledger', hserves', hdrained'⟩ := ih _ hledger
    refine ⟨hledger', hserves.trans hserves', ?_⟩
    intro c hc
    rcases List.mem_cons.mp hc with rfl | hc
    · exact hdrained.of_serves hserves'
    · exact hdrained' c hc

theorem allocateGroup_spec {s : Progress} (h : Ledger rating t s) (group : ℚ × List String) :
    Ledger rating t (allocateGroup config vid t s group) ∧ Serves vid s (allocateGroup config vid t s group) ∧
      ∀ c ∈ group.2, Accessible config vid c → Drained (allocateGroup config vid t s group) c := by
  unfold allocateGroup
  split
  next hdone => exact ⟨h, Serves.refl vid s, fun _ _ _ => Or.inl hdone⟩
  next =>
    obtain ⟨hledger, hserves, hdrained⟩ :=
      @chargers_spec rating vid t (accessibleChargers config vid s.used group.2) s h
    refine ⟨hledger, hserves, ?_⟩
    intro c hc hacc
    by_cases hused : c ∈ s.used
    · exact Drained.of_serves (Or.inr (h.used c hused)) hserves
    · apply hdrained
      exact List.mem_filter.mpr ⟨hc, by simpa using ⟨hused, hacc⟩⟩

theorem groups_spec (groups : List (ℚ × List String)) :
    ∀ s : Progress, Ledger rating t s →
      Ledger rating t (groups.foldl (allocateGroup config vid t) s) ∧
        Serves vid s (groups.foldl (allocateGroup config vid t) s) ∧
        ∀ group ∈ groups, ∀ c ∈ group.2, Accessible config vid c →
          Drained (groups.foldl (allocateGroup config vid t) s) c := by
  induction groups with
  | nil =>
    intro s h
    exact ⟨h, Serves.refl vid s, fun group hgroup => absurd hgroup List.not_mem_nil⟩
  | cons group rest ih =>
    intro s h
    obtain ⟨hledger, hserves, hdrained⟩ := @allocateGroup_spec rating config vid t s h group
    obtain ⟨hledger', hserves', hdrained'⟩ := ih _ hledger
    refine ⟨hledger', hserves.trans hserves', ?_⟩
    intro g hg c hc hacc
    rcases List.mem_cons.mp hg with rfl | hg
    · exact (hdrained c hc hacc).of_serves hserves'
    · exact hdrained' g hg c hc hacc

/-- **One vehicle.** -/
theorem allocateVehicle_spec {s : Progress} (h : Ledger rating t s) (vehicle : VehicleId × ℚ) :
    Ledger rating t (allocateVehicle config chargerIdsByRating t s vehicle) ∧
      Serves vehicle.1 { s with remaining := vehicle.2 } (allocateVehicle config chargerIdsByRating t s vehicle) ∧
      ∀ group ∈ chargerIdsByRating.items, ∀ c ∈ group.2, Accessible config vehicle.1 c →
        Drained (allocateVehicle config chargerIdsByRating t s vehicle) c := by
  obtain ⟨hledger, hserves, hdrained⟩ := @groups_spec rating config vehicle.1 t (sortedGroups chargerIdsByRating) _
    (h.with_remaining vehicle.2)
  exact ⟨hledger, hserves, fun group hgroup => hdrained group (mem_orderBy.mpr hgroup)⟩

/-- A vehicle has at most its power, and one that has less leaves no capacity where it may charge. -/
structure Served (config : DepotConfig) (chargerIdsByRating : ChargerIdsByRating) (v : VehicleId × ℚ) (s : Progress) :
    Prop where
  le : onVehicle v.1 s.assignments ≤ v.2
  saturated : onVehicle v.1 s.assignments < v.2 → ∀ group ∈ chargerIdsByRating.items, ∀ c ∈ group.2,
    Accessible config v.1 c → s.left c < threshold

/-- What is done for other vehicles takes nothing back. -/
theorem Served.later {v : VehicleId × ℚ} {s s' : Progress} (h : Served config chargerIdsByRating v s)
    (hleft : ∀ c, s'.left c ≤ s.left c) (hown : onVehicle v.1 s'.assignments = onVehicle v.1 s.assignments) :
    Served config chargerIdsByRating v s' := by
  refine ⟨?_, ?_⟩
  · rw [hown]
    exact h.le
  · intro hless group hgroup c hc hacc
    rw [hown] at hless
    exact lt_of_le_of_lt (hleft c) (h.saturated hless group hgroup c hc hacc)

theorem served_allocateVehicle {s : Progress} (h : Ledger rating t s) {v : VehicleId × ℚ} (hpower : 0 ≤ v.2)
    (hfresh : onVehicle v.1 s.assignments = 0) :
    Served config chargerIdsByRating v (allocateVehicle config chargerIdsByRating t s v) := by
  obtain ⟨_, hserves, hdrained⟩ := @allocateVehicle_spec rating config chargerIdsByRating t s h v
  have hremaining : 0 ≤ (allocateVehicle config chargerIdsByRating t s v).remaining := hserves.remaining_nonneg hpower
  have htotal : onVehicle v.1 (allocateVehicle config chargerIdsByRating t s v).assignments +
      (allocateVehicle config chargerIdsByRating t s v).remaining = v.2 := by
    rw [hserves.own]
    show onVehicle v.1 s.assignments + v.2 = v.2
    rw [hfresh, zero_add]
  refine ⟨by linarith, ?_⟩
  intro hless group hgroup c hc hacc
  have hopen : ¬ (allocateVehicle config chargerIdsByRating t s v).remaining ≤ 0 := by
    rw [not_le]
    linarith
  exact (hdrained group hgroup c hc hacc).resolve_left hopen

/-- **All vehicles of a timestep** are served. -/
theorem vehicles_spec (vehicles : List (VehicleId × ℚ)) :
    ∀ s : Progress, Ledger rating t s → (vehicles.map Prod.fst).Nodup → (∀ v ∈ vehicles, 0 ≤ v.2) →
      (∀ v ∈ vehicles, onVehicle v.1 s.assignments = 0) →
      Ledger rating t (vehicles.foldl (allocateVehicle config chargerIdsByRating t) s) ∧
        (∀ c, (vehicles.foldl (allocateVehicle config chargerIdsByRating t) s).left c ≤ s.left c) ∧
        (∀ v, v ∉ vehicles.map Prod.fst →
          onVehicle v (vehicles.foldl (allocateVehicle config chargerIdsByRating t) s).assignments =
            onVehicle v s.assignments) ∧
        ∀ v ∈ vehicles, Served config chargerIdsByRating v
          (vehicles.foldl (allocateVehicle config chargerIdsByRating t) s) := by
  induction vehicles with
  | nil =>
    intro s h _ _ _
    exact ⟨h, fun _ => le_refl _, fun _ _ => rfl, fun v hv => absurd hv List.not_mem_nil⟩
  | cons vehicle rest ih =>
    intro s h hnodup hpower hfresh
    rw [List.map_cons, List.nodup_cons] at hnodup
    obtain ⟨hnew, hrest⟩ := hnodup
    obtain ⟨hledger, hserves, _⟩ := @allocateVehicle_spec rating config chargerIdsByRating t s h vehicle
    -- the vehicles still to come have been given nothing
    have hfresh' : ∀ v ∈ rest,
        onVehicle v.1 (allocateVehicle config chargerIdsByRating t s vehicle).assignments = 0 := by
      intro v hv
      have hne : v.1 ≠ vehicle.1 := fun heq => hnew (heq ▸ List.mem_map_of_mem hv)
      exact (hserves.others v.1 hne).trans (hfresh v (List.mem_cons_of_mem _ hv))
    obtain ⟨hledger', hleft, hothers, hserved⟩ := ih _ hledger hrest
      (fun v hv => hpower v (List.mem_cons_of_mem _ hv)) hfresh'
    refine ⟨hledger', fun c => (hleft c).trans (hserves.left_le c), ?_, ?_⟩
    · intro v hv
      rw [List.map_cons, List.mem_cons, not_or] at hv
      exact (hothers v hv.2).trans (hserves.others v hv.1)
    · intro v hv
      rcases List.mem_cons.mp hv with rfl | hv
      · have hfirst : Served config chargerIdsByRating v (allocateVehicle config chargerIdsByRating t s v) :=
          served_allocateVehicle h (hpower v List.mem_cons_self) (hfresh v List.mem_cons_self)
        exact hfirst.later hleft (hothers v.1 hnew)
      · exact hserved v hv

end Vehicle

/-! ### One timestep -/

def scheduledPower (result : OptimizationResult) (t : ℕ) (vid : VehicleId) : Option ℚ :=
  (result.schedule.get? vid).bind fun chargingPower => chargingPower.bind fun power => power[t]?

theorem powerAt_eq_ok (t : ℕ) (e : VehicleId × Option (List ℚ)) (p : VehicleId × ℚ) :
    powerAt t e = .ok p ↔ e.1 = p.1 ∧ (e.2.bind fun power => power[t]?) = some p.2 := by
  obtain ⟨vid, chargingPower⟩ := e
  obtain ⟨v, q⟩ := p
  unfold powerAt
  cases chargingPower with
  | none => simp
  | some power => cases hget : power[t]? <;> simp [hget]

theorem powers_fst {t : ℕ} {entries : List (VehicleId × Option (List ℚ))} {powers : List (VehicleId × ℚ)}
    (h : collect (powerAt t) entries = .ok powers) : powers.map Prod.fst = entries.map Prod.fst := by
  induction entries generalizing powers with
  | nil =>
    cases h
    rfl
  | cons e rest ih =>
    rw [collect, bind_eq_ok] at h
    obtain ⟨p, hp, h⟩ := h
    rw [bind_eq_ok] at h
    obtain ⟨ps, hps, h⟩ := h
    cases h
    rw [List.map_cons, List.map_cons, ih hps, ((powerAt_eq_ok t e p).mp hp).1]

theorem chargingVehicles_spec {result : OptimizationResult} {priorities : Dict VehicleId ℚ} {t : ℕ}
    {vehicles : List (VehicleId × ℚ)} (h : chargingVehicles result priorities t = .ok vehicles) :
    (vehicles.map Prod.fst).Nodup ∧
      ∀ v, v ∈ vehicles ↔ scheduledPower result t v.1 = some v.2 ∧ threshold < v.2 := by
  unfold chargingVehicles at h
  rw [bind_eq_ok] at h
  obtain ⟨powers, hpowers, h⟩ := h
  cases h
  have hnodup : (powers.map Prod.fst).Nodup := by
    rw [powers_fst hpowers]
    exact result.schedule.nodup_keys
  have hmem : ∀ v, v ∈ powers ↔ scheduledPower result t v.1 = some v.2 := by
    intro v
    constructor
    · intro hv
      obtain ⟨e, he, hpower⟩ := Guard.mem_of_collect hpowers v hv
      obtain ⟨hvid, hpower⟩ := (powerAt_eq_ok t e v).mp hpower
      have hget : result.schedule.get? v.1 = some e.2 := Dict.mem_items_iff.mp (hvid ▸ he)
      rw [scheduledPower, hget]
      exact hpower
    · intro hv
      cases hget : result.schedule.get? v.1 with
      | none => simp [scheduledPower, hget] at hv
      | some chargingPower =>
        rw [scheduledPower, hget] at hv
        obtain ⟨p, hp, hpower⟩ := ok_of_collect hpowers (v.1, chargingPower) (Dict.mem_items_iff.mpr hget)
        have hv' : powerAt t (v.1, chargingPower) = .ok v := (powerAt_eq_ok t _ v).mpr ⟨rfl, hv⟩
        obtain rfl : v = p := Except.ok.inj (hv'.symm.trans hpower)
        exact hp
  refine ⟨?_, ?_⟩
  · have hsub : ((powers.filter fun e => decide (threshold < e.2)).map Prod.fst).Nodup :=
      hnodup.sublist (List.filter_sublist.map Prod.fst)
    exact (((List.perm_insertionSort _ _).map Prod.fst).nodup_iff).mpr hsub
  · intro v
    rw [mem_orderBy, List.mem_filter, hmem, decide_eq_true_eq]

def startRating (chargerIdsByRating : ChargerIdsByRating) (cid : String) : ℚ :=
  (chargerCapacity chargerIdsByRating).getD cid 0

def DisjointLists (chargerIdsByRating : ChargerIdsByRating) : Prop :=
  chargerIdsByRating.items.Pairwise fun group group' => ∀ cid ∈ group.2, cid ∉ group'.2

instance (chargerIdsByRating : ChargerIdsByRating) : Decidable (DisjointLists chargerIdsByRating) :=
  inferInstanceAs (Decidable (List.Pairwise _ _))

theorem startRating_of_mem {chargerIdsByRating : ChargerIdsByRating} (h : DisjointLists chargerIdsByRating)
    {group : ℚ × List String} (hgroup : group ∈ chargerIdsByRating.items) {cid : String} (hcid : cid ∈ group.2) :
    startRating chargerIdsByRating cid = group.1 := by
  have hsymm : Std.Symm fun group group' : ℚ × List String => ∀ cid ∈ group.2, cid ∉ group'.2 :=
    ⟨fun _ _ hdisjoint c hc hc' => hdisjoint c hc' hc⟩
  rw [startRating, Dict.getD, chargerCapacity, Dict.get?_ofList]
  set entries := (chargerIdsByRating.items.flatMap fun group => group.2.map fun cid =>
    (cid, group.1)).filter fun p => p.1 = cid with hentries
  have hall : ∀ p ∈ entries, p.2 = group.1 := by
    intro p hp
    obtain ⟨hp, hkey⟩ := List.mem_filter.mp hp
    obtain ⟨group', hgroup', hp⟩ := List.mem_flatMap.mp hp
    obtain ⟨c, hc, rfl⟩ := List.mem_map.mp hp
    obtain rfl : c = cid := by simpa using hkey
    by_contra hne
    have hne' : group' ≠ group := fun heq => hne (congrArg Prod.fst heq)
    exact h.forall hgroup' hgroup hne' c hc hcid
  have hmem : (cid, group.1) ∈ entries := by
    apply List.mem_filter.mpr
    exact ⟨List.mem_flatMap.mpr ⟨group, hgroup, List.mem_map_of_mem hcid⟩, by simp⟩
  cases hlast : entries.getLast? with
  | none =>
    rw [List.getLast?_eq_none_iff] at hlast
    rw [hlast] at hmem
    cases hmem
  | some entry => exact hall entry (List.mem_of_getLast? hlast)

def endOfTimestep (config : DepotConfig) (chargerIdsByRating : ChargerIdsByRating) (t : ℕ)
    (vehicles : List (VehicleId × ℚ)) : Progress :=
  vehicles.foldl (allocateVehicle config chargerIdsByRating t) ⟨[], [], chargerCapacity chargerIdsByRating, 0⟩

theorem allocateTimestep_eq_ok {result : OptimizationResult} {config : DepotConfig}
    {chargerIdsByRating : ChargerIdsByRating} {priorities : Dict VehicleId ℚ} {t : ℕ} {step : List ChargerAssignment}
    (h : allocateTimestep result config chargerIdsByRating priorities t = .ok step) :
    ∃ vehicles, chargingVehicles result priorities t = .ok vehicles ∧
      step = (endOfTimestep config chargerIdsByRating t vehicles).assignments := by
  unfold allocateTimestep at h
  rw [bind_eq_ok] at h
  obtain ⟨vehicles, hvehicles, h⟩ := h
  exact ⟨vehicles, hvehicles, (Except.ok.inj h).symm⟩

/-- **The end of a timestep.** -/
theorem endOfTimestep_spec {result : OptimizationResult} {config : DepotConfig} {chargerIdsByRating : ChargerIdsByRating}
    {priorities : Dict VehicleId ℚ} {t : ℕ} {vehicles : List (VehicleId × ℚ)}
    (h : chargingVehicles result priorities t = .ok vehicles) :
    Ledger (startRating chargerIdsByRating) t (endOfTimestep config chargerIdsByRating t vehicles) ∧
      (∀ vid, vid ∉ vehicles.map Prod.fst →
        onVehicle vid (endOfTimestep config chargerIdsByRating t vehicles).assignments = 0) ∧
      ∀ v ∈ vehicles, Served config chargerIdsByRating v (endOfTimestep config chargerIdsByRating t vehicles) := by
  obtain ⟨hnodup, hmem⟩ := chargingVehicles_spec h
  have hthreshold : (0 : ℚ) < threshold := by norm_num [threshold]
  have hpower : ∀ v ∈ vehicles, 0 ≤ v.2 := fun v hv => (hthreshold.trans ((hmem v).mp hv).2).le
  obtain ⟨hledger, _, hothers, hserved⟩ := @vehicles_spec (startRating chargerIdsByRating) config chargerIdsByRating t
    vehicles _ (ledger_start chargerIdsByRating t) hnodup hpower fun _ _ => rfl
  exact ⟨hledger, hothers, hserved⟩

/-! ### All timesteps -/

def atTimestep (t : ℕ) (assignments : List ChargerAssignment) : List ChargerAssignment :=
  assignments.filter fun a => a.timestep = t

theorem filter_timestep {f : ℕ → Except AllocationError (List ChargerAssignment)} {ts : List ℕ}
    {steps : List (List ChargerAssignment)} (h : collect f ts = .ok steps) (hnodup : ts.Nodup)
    (hkey : ∀ t step, f t = .ok step → ∀ a ∈ step, a.timestep = t) {t : ℕ} (ht : t ∈ ts) :
    f t = .ok (atTimestep t steps.flatten) := by
  have hself : ∀ t step, f t = .ok step → atTimestep t step = step := by
    intro t step hstep
    apply List.filter_eq_self.mpr
    intro a ha
    simp [hkey t step hstep a ha]
  have hother : ∀ t t' step, f t' = .ok step → t ≠ t' → atTimestep t step = [] := by
    intro t t' step hstep hne
    apply List.filter_eq_nil_iff.mpr
    intro a ha
    simp [hkey t' step hstep a ha, hne.symm]
  have happend : ∀ t (l l' : List ChargerAssignment), atTimestep t (l ++ l') = atTimestep t l ++ atTimestep t l' :=
    fun _ l l' => List.filter_append l l'
  induction ts generalizing steps with
  | nil => cases ht
  | cons t' rest ih =>
    rw [collect, bind_eq_ok] at h
    obtain ⟨step, hstep, h⟩ := h
    rw [bind_eq_ok] at h
    obtain ⟨others, hothers, h⟩ := h
    cases h
    rw [List.nodup_cons] at hnodup
    rw [List.flatten_cons, happend]
    rcases List.mem_cons.mp ht with rfl | ht
    · have hnone : atTimestep t others.flatten = [] := by
        apply List.filter_eq_nil_iff.mpr
        intro a ha
        obtain ⟨t'', ht'', step'', hstep'', ha⟩ := mem_of_collect hothers ha
        have hne : t'' ≠ t := fun heq => hnodup.1 (heq ▸ ht'')
        simp [hkey t'' step'' hstep'' a ha, hne]
      rw [hself t step hstep, hnone, List.append_nil, hstep]
    · have hne : t ≠ t' := fun heq => hnodup.1 (heq ▸ ht)
      rw [hother t t' step hstep hne, List.nil_append]
      exact ih hothers hnodup.2 ht

/-- **The run of a timestep** behind the assignments of that timestep. -/
theorem atTimestep_eq {result : OptimizationResult} {config : DepotConfig} {chargerIdsByRating : ChargerIdsByRating}
    {vehiclePriorities : Option (Dict VehicleId ℚ)} {assignments : List ChargerAssignment}
    (h : allocateChargers result config chargerIdsByRating vehiclePriorities = .ok assignments) {t : ℕ}
    (ht : t < result.gridPower.length) :
    ∃ priorities vehicles, chargingVehicles result priorities t = .ok vehicles ∧
      atTimestep t assignments = (endOfTimestep config chargerIdsByRating t vehicles).assignments := by
  unfold allocateChargers at h
  rw [bind_eq_ok] at h
  obtain ⟨steps, hsteps, h⟩ := h
  cases h
  have hkey : ∀ t step, allocateTimestep result config chargerIdsByRating
      (vehiclePriorities.getD (defaultPriorities result)) t = .ok step → ∀ a ∈ step, a.timestep = t := by
    intro t step hstep a ha
    obtain ⟨vehicles, hvehicles, rfl⟩ := allocateTimestep_eq_ok hstep
    exact ((endOfTimestep_spec hvehicles).1.entries a ha).2
  have hstep := filter_timestep hsteps List.nodup_range hkey (List.mem_range.mpr ht)
  obtain ⟨vehicles, hvehicles, heq⟩ := allocateTimestep_eq_ok hstep
  exact ⟨_, vehicles, hvehicles, heq⟩

theorem timestep_lt {result : OptimizationResult} {config : DepotConfig} {chargerIdsByRating : ChargerIdsByRating}
    {vehiclePriorities : Option (Dict VehicleId ℚ)} {assignments : List ChargerAssignment}
    (h : allocateChargers result config chargerIdsByRating vehiclePriorities = .ok assignments) {a : ChargerAssignment}
    (ha : a ∈ assignments) : a.timestep < result.gridPower.length := by
  unfold allocateChargers at h
  rw [bind_eq_ok] at h
  obtain ⟨steps, hsteps, h⟩ := h
  cases h
  obtain ⟨t, ht, step, hstep, hmem⟩ := mem_of_collect hsteps ha
  obtain ⟨vehicles, hvehicles, rfl⟩ := allocateTimestep_eq_ok hstep
  rw [((endOfTimestep_spec hvehicles).1.entries a hmem).2]
  exact List.mem_range.mp ht

theorem charges_of_mem {result : OptimizationResult} {config : DepotConfig} {chargerIdsByRating : ChargerIdsByRating}
    {priorities : Dict VehicleId ℚ} {t : ℕ} {vehicles : List (VehicleId × ℚ)}
    (h : chargingVehicles result priorities t = .ok vehicles) {a : ChargerAssignment}
    (ha : a ∈ (endOfTimestep config chargerIdsByRating t vehicles).assignments) :
    a.vehicleId ∈ vehicles.map Prod.fst := by
  obtain ⟨hledger, hothers, _⟩ := @endOfTimestep_spec result config chargerIdsByRating priorities t vehicles h
  by_contra hout
  have htotal : 0 < onVehicle a.vehicleId (endOfTimestep config chargerIdsByRating t vehicles).assignments :=
    powerOf_pos (fun b hb => (hledger.entries b hb).1) ha (by simp)
  exact absurd (hothers _ hout) htotal.ne'

def openDepot : DepotConfig where
  vehicleCapacities := Dict.ofList [("bus_1", 100), ("bus_2", 100)]
  vehicleMaxChargeKw := Dict.ofList [("bus_1", 60), ("bus_2", 60)]
  chargerGroups := Dict.ofList [(50, 2)]
  chargerEfficiency := 1
  chargerVehicleAccess := Dict.empty
  batteryCapacity := 0
  batteryPower := 0

def openChargers : ChargerIdsByRating := Dict.ofList [(50, ["charger_1", "charger_2"])]

def twoBusResult (power power' : ℚ) : OptimizationResult :=
  ⟨Dict.ofList [("bus_1", some [power]), ("bus_2", some [power'])], [power + power']⟩

end FavoniusBackend.Optimizer.Allocator
