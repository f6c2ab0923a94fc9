import FavoniusBackend.Optimizer.AllocationTotals

/-!
# Shared chargers and split vehicles

The allocator serves a vehicle from what the chargers have left, so the power of one vehicle can be split over several
chargers, and a charger that keeps at least the threshold is offered to the next vehicle.  The assignments of a timestep
are therefore no plugging of vehicles into chargers (`sharing_twoBus`).

What does hold is an order in which chargers fill up: a vehicle moves on to a further charger only from chargers that it
has left with nothing, and a charger goes on to a further vehicle only from vehicles that have got all they asked for
(`InTurn`).  The invariant behind it is that an assignment has filled its vehicle's demand or emptied its charger
(`Plugging.met`).
-/

namespace FavoniusBackend.Optimizer.Allocator

open Lib Lib.Guard Lib.Sql Lib.Run
open Optimizer.Models

/-! ### Histories -/

section History

variable {α : Type} {P : List α → α → Prop}

/-- Every entry stands to the entries before it as stated. -/
def EachAfter (P : List α → α → Prop) (l : List α) : Prop := ∀ before b after, l = before ++ b :: after → P before b

theorem eachAfter_nil : EachAfter P [] := by
  intro before b after h
  simp at h

theorem eachAfter_concat {l : List α} {a : α} (h : EachAfter P l) (ha : P l a) : EachAfter P (l ++ [a]) := by
  intro before b after heq
  rcases List.eq_nil_or_concat' after with rfl | ⟨after', last, rfl⟩
  · obtain ⟨rfl, hlast⟩ := List.append_inj' heq rfl
    obtain rfl : a = b := by simpa using hlast
    exact ha
  · rw [← List.cons_append, ← List.append_assoc] at heq
    obtain ⟨rfl, _⟩ := List.append_inj' heq rfl
    exact h before b after' rfl

end History

/-! ### The order in which chargers and vehicles are used -/

/-- An assignment after those before it.  If its charger is in use, then by other vehicles that have got all their power, and
with at least the threshold left; if its vehicle has chargers already, then these give all they have. -/
def InTurn (rating : String → ℚ) (power : VehicleId → Option ℚ) (before : List ChargerAssignment) (b : ChargerAssignment) :
    Prop :=
  ∀ a ∈ before,
    (a.chargerId = b.chargerId →
      a.vehicleId ≠ b.vehicleId ∧ power a.vehicleId = some (onVehicle a.vehicleId before) ∧
        onCharger b.chargerId before + threshold ≤ rating b.chargerId) ∧
      (a.vehicleId = b.vehicleId → onCharger a.chargerId before = rating a.chargerId)

/-- The ledger of a timestep with the order of its assignments: each has met its vehicle's demand or emptied its charger, and
a charger in use that is not used up keeps the threshold. -/
structure Plugging (rating : String → ℚ) (power : VehicleId → Option ℚ) (t : ℕ) (s : Progress) : Prop
    extends Ledger rating t s where
  met : ∀ a ∈ s.assignments, power a.vehicleId = some (onVehicle a.vehicleId s.assignments) ∨ s.left a.chargerId = 0
  spare : ∀ a ∈ s.assignments, a.chargerId ∉ s.used → threshold ≤ s.left a.chargerId
  history : EachAfter (InTurn rating power) s.assignments

section Serving

variable {rating : String → ℚ} {power : VehicleId → Option ℚ} {t : ℕ} {vid : VehicleId}

def Asks (power : VehicleId → Option ℚ) (vid : VehicleId) (s : Progress) : Prop :=
  power vid = some (onVehicle vid s.assignments + s.remaining)

theorem Asks.of_serves {s s' : Progress} (h : Asks power vid s) (hserves : Serves vid s s') : Asks power vid s' := by
  rw [Asks, hserves.own]
  exact h

theorem Plugging.left_eq_zero {s : Progress} (h : Plugging rating power t s) (hasks : Asks power vid s)
    (hremaining : 0 < s.remaining) {a : ChargerAssignment} (ha : a ∈ s.assignments) (hvid : a.vehicleId = vid) :
    s.left a.chargerId = 0 := by
  apply (h.met a ha).resolve_left
  intro hmet
  rw [hvid, hasks] at hmet
  have hzero : onVehicle vid s.assignments + s.remaining = onVehicle vid s.assignments := Option.some.inj hmet
  linarith

theorem inTurn_assign {s : Progress} {cid : String} {p : ℚ} (h : Plugging rating power t s) (hasks : Asks power vid s)
    (hgives : Gives s cid p) (hunused : cid ∉ s.used) : InTurn rating power s.assignments ⟨cid, vid, t, p⟩ := by
  have hremaining : 0 < s.remaining := lt_of_lt_of_le hgives.positive hgives.le_remaining
  have hleft : 0 < s.left cid := lt_of_lt_of_le hgives.positive hgives.le_left
  intro a ha
  refine ⟨?_, ?_⟩
  · intro hcid
    have hne : a.vehicleId ≠ vid := by
      intro hvid
      have hzero := h.left_eq_zero hasks hremaining ha hvid
      rw [hcid] at hzero
      exact hleft.ne' hzero
    have hmet : power a.vehicleId = some (onVehicle a.vehicleId s.assignments) := by
      apply (h.met a ha).resolve_right
      rw [hcid]
      exact hleft.ne'
    have hspare := h.spare a ha (hcid ▸ hunused)
    rw [hcid] at hspare
    refine ⟨hne, hmet, ?_⟩
    show onCharger cid s.assignments + threshold ≤ rating cid
    linarith [h.balance cid]
  · intro hvid
    have hzero := h.left_eq_zero hasks hremaining ha hvid
    linarith [h.balance a.chargerId]

/-- **One assignment.** -/
theorem plugging_assign {s : Progress} {cid : String} {p : ℚ} (h : Plugging rating power t s) (hasks : Asks power vid s)
    (hgives : Gives s cid p) (hunused : cid ∉ s.used) : Plugging rating power t (s.assign vid t cid p) := by
  have hremaining : 0 < s.remaining := lt_of_lt_of_le hgives.positive hgives.le_remaining
  have hleft : 0 < s.left cid := lt_of_lt_of_le hgives.positive hgives.le_left
  have hserves := serves_assign vid t hgives
  have hstill : ∀ c, s.left c = 0 → (s.assign vid t cid p).left c = 0 := by
    intro c hc
    have hne : c ≠ cid := by
      intro heq
      rw [heq] at hc
      exact hleft.ne' hc
    rw [left_assign, if_neg hne, hc]
  refine ⟨ledger_assign vid h.toLedger hgives, ?_, ?_, eachAfter_concat h.history (inTurn_assign h hasks hgives hunused)⟩
  · intro a ha
    rcases List.mem_append.mp ha with ha | ha
    · by_cases hvid : a.vehicleId = vid
      · exact Or.inr (hstill _ (h.left_eq_zero hasks hremaining ha hvid))
      · rw [hserves.others _ hvid]
        exact (h.met a ha).imp_right (hstill _)
    · obtain rfl := List.mem_singleton.mp ha
      rcases hgives.all with hall | hall
      · left
        have hdone : (s.assign vid t cid p).remaining = 0 := sub_eq_zero.mpr hall.symm
        have hasks' := hasks.of_serves hserves
        rwa [Asks, hdone, add_zero] at hasks'
      · right
        show (s.assign vid t cid p).left cid = 0
        rw [left_assign, if_pos rfl, hall, sub_self]
  · intro a ha hout
    have hout' : a.chargerId ∉ if s.left cid - p < threshold then cid :: s.used else s.used := hout
    rw [left_assign]
    by_cases hcid : a.chargerId = cid
    · rw [if_pos hcid]
      by_contra hlow
      rw [if_pos (not_le.mp hlow), hcid] at hout'
      exact hout' List.mem_cons_self
    · rw [if_neg hcid]
      rcases List.mem_append.mp ha with ha | ha
      · apply h.spare a ha
        intro hused
        apply hout'
        split
        · exact List.mem_cons_of_mem _ hused
        · exact hused
      · obtain rfl := List.mem_singleton.mp ha
        exact absurd rfl hcid

/-- The charger is not used up, or the inner loop passes it over. -/
def Offered (s : Progress) (c : String) : Prop := c ∉ s.used ∨ s.remaining ≤ 0 ∨ s.left c ≤ 0

theorem offered_assign {s : Progress} {cid : String} {p : ℚ} (hgives : Gives s cid p) {c : String} (h : Offered s c) :
    Offered (s.assign vid t cid p) c := by
  by_cases hcid : c = cid
  · right
    rcases hgives.all with hall | hall
    · exact Or.inl (sub_nonpos.mpr hall.ge)
    · right
      rw [left_assign, if_pos hcid, hall, sub_self]
  · rcases h with hunused | hidle | hidle
    · left
      show c ∉ if s.left cid - p < threshold then cid :: s.used else s.used
      split
      · exact fun hmem => hunused ((List.mem_cons.mp hmem).resolve_left hcid)
      · exact hunused
    · exact Or.inr (Or.inl ((serves_assign vid t hgives).remaining_le.trans hidle))
    · exact Or.inr (Or.inr (((serves_assign vid t hgives).left_le c).trans hidle))

theorem plugging_chargers (chargers : List String) :
    ∀ s : Progress, Plugging rating power t s → Asks power vid s → (∀ c ∈ chargers, Offered s c) →
      Plugging rating power t (chargers.foldl (allocateCharger vid t) s) ∧
        Asks power vid (chargers.foldl (allocateCharger vid t) s) := by
  induction chargers with
  | nil =>
    intro s h hasks _
    exact ⟨h, hasks⟩
  | cons cid rest ih =>
    intro s h hasks hoffered
    have hrest : ∀ c ∈ rest, Offered s c := fun c hc => hoffered c (List.mem_cons_of_mem _ hc)
    rw [List.foldl_cons]
    rcases allocateCharger_cases vid t s cid with ⟨hstay, _⟩ | ⟨p, hgives, hstep⟩
    · rw [hstay]
      exact ih s h hasks hrest
    · rw [hstep]
      have hunused : cid ∉ s.used := by
        rcases hoffered cid List.mem_cons_self with hunused | hidle | hidle
        · exact hunused
        · linarith [hgives.positive, hgives.le_remaining]
        · linarith [hgives.positive, hgives.le_left]
      exact ih _ (plugging_assign h hasks hgives hunused) (hasks.of_serves (serves_assign vid t hgives))
        fun c hc => offered_assign hgives (hrest c hc)

theorem plugging_allocateGroup {config : DepotConfig} {s : Progress} (h : Plugging rating power t s)
    (hasks : Asks power vid s) (group : ℚ × List String) :
    Plugging rating power t (allocateGroup config vid t s group) ∧ Asks power vid (allocateGroup config vid t s group) := by
  unfold allocateGroup
  split
  · exact ⟨h, hasks⟩
  · apply plugging_chargers _ s h hasks
    intro c hc
    have hopen : c ∉ s.used ∧ Accessible config vid c := by simpa [accessibleChargers] using (List.mem_filter.mp hc).2
    exact Or.inl hopen.1

/-- **One vehicle** that has not been given anything. -/
theorem plugging_allocateVehicle {config : DepotConfig} {chargerIdsByRating : ChargerIdsByRating} {s : Progress}
    (h : Plugging rating power t s) {vehicle : VehicleId × ℚ} (hpower : power vehicle.1 = some vehicle.2)
    (hfresh : onVehicle vehicle.1 s.assignments = 0) :
    Plugging rating power t (allocateVehicle config chargerIdsByRating t s vehicle) := by
  have hstart : Plugging rating power t { s with remaining := vehicle.2 } ∧
      Asks power vehicle.1 { s with remaining := vehicle.2 } := by
    refine ⟨⟨h.toLedger.with_remaining vehicle.2, h.met, h.spare, h.history⟩, ?_⟩
    show power vehicle.1 = some (onVehicle vehicle.1 s.assignments + vehicle.2)
    rw [hfresh, zero_add]
    exact hpower
  exact (run_invariant (allocateGroup config vehicle.1 t)
    (fun s => Plugging rating power t s ∧ Asks power vehicle.1 s) _
    (fun _ group _ hs => plugging_allocateGroup hs.1 hs.2 group) _ hstart).1

theorem plugging_vehicles {config : DepotConfig} {chargerIdsByRating : ChargerIdsByRating}
    (vehicles : List (VehicleId × ℚ)) :
    ∀ s : Progress, Plugging rating power t s → (vehicles.map Prod.fst).Nodup →
      (∀ v ∈ vehicles, power v.1 = some v.2) → (∀ v ∈ vehicles, onVehicle v.1 s.assignments = 0) →
      Plugging rating power t (vehicles.foldl (allocateVehicle config chargerIdsByRating t) s) := by
  induction vehicles with
  | nil =>
    intro s h _ _ _
    exact h
  | cons vehicle rest ih =>
    intro s h hnodup hpower hfresh
    rw [List.map_cons, List.nodup_cons] at hnodup
    apply ih _ _ hnodup.2 fun v hv => hpower v (List.mem_cons_of_mem _ hv)
    · intro v hv
      have hne : v.1 ≠ vehicle.1 := fun heq => hnodup.1 (heq ▸ List.mem_map_of_mem hv)
      have hserves := (@allocateVehicle_spec rating config chargerIdsByRating t s h.toLedger vehicle).2.1
      exact (hserves.others v.1 hne).trans (hfresh v (List.mem_cons_of_mem _ hv))
    · exact plugging_allocateVehicle h (hpower vehicle List.mem_cons_self) (hfresh vehicle List.mem_cons_self)

end Serving

/-! ### The assignments of a run -/

def NoChargerShared (assignments : List ChargerAssignment) : Prop :=
  ∀ a ∈ assignments, ∀ b ∈ assignments, a.timestep = b.timestep → a.chargerId = b.chargerId → a.vehicleId = b.vehicleId

def NoVehicleSplit (assignments : List ChargerAssignment) : Prop :=
  ∀ a ∈ assignments, ∀ b ∈ assignments, a.timestep = b.timestep → a.vehicleId = b.vehicleId → a.chargerId = b.chargerId

/-- **Every assignment is in turn** among those of its timestep. -/
theorem assignments_in_turn {result : OptimizationResult} {config : DepotConfig} {chargerIdsByRating : ChargerIdsByRating}
    {vehiclePriorities : Option (Dict VehicleId ℚ)} {assignments : List ChargerAssignment}
    (h : allocateChargers result config chargerIdsByRating vehiclePriorities = .ok assignments) :
    EachAfter (fun before b => InTurn (startRating chargerIdsByRating) (scheduledPower result b.timestep)
      (atTimestep b.timestep before) b) assignments := by
  intro before b after heq
  have ht : b.timestep < result.gridPower.length := by
    apply timestep_lt h
    simp [heq]
  obtain ⟨priorities, vehicles, hvehicles, hstep⟩ := atTimestep_eq h ht
  obtain ⟨hnodup, hmem⟩ := chargingVehicles_spec hvehicles
  have hstart : Plugging (startRating chargerIdsByRating) (scheduledPower result b.timestep) b.timestep
      ⟨[], [], chargerCapacity chargerIdsByRating, 0⟩ :=
    ⟨ledger_start chargerIdsByRating b.timestep, fun a ha => absurd ha List.not_mem_nil,
      fun a ha => absurd ha List.not_mem_nil, eachAfter_nil⟩
  have hplugging := @plugging_vehicles _ _ _ config chargerIdsByRating vehicles _ hstart hnodup
    (fun v hv => ((hmem v).mp hv).1) fun _ _ => rfl
  have hsplit : atTimestep b.timestep assignments =
      atTimestep b.timestep before ++ b :: atTimestep b.timestep after := by
    rw [heq, atTimestep, List.filter_append, List.filter_cons_of_pos (by simp)]
    rfl
  exact hplugging.history _ b _ (hstep ▸ hsplit)

/-- The second bus shares a charger once the first has its 60 kW. -/
theorem assignments_in_turn_twoBus :
    ∃ assignments, allocateChargers (twoBusResult 60 30) openDepot openChargers none = .ok assignments ∧
      EachAfter (fun before b => InTurn (startRating openChargers) (scheduledPower (twoBusResult 60 30) b.timestep)
        (atTimestep b.timestep before) b) assignments := by
  have hrun : allocateChargers (twoBusResult 60 30) openDepot openChargers none =
      .ok [⟨"charger_1", "bus_1", 0, 50⟩, ⟨"charger_2", "bus_1", 0, 10⟩, ⟨"charger_2", "bus_2", 0, 30⟩] := by
    decide +kernel
  exact ⟨_, hrun, assignments_in_turn hrun⟩

/-- With 60 kW and 30 kW asked of two chargers of 50 kW, the first bus is split and the second one shares its charger. -/
theorem sharing_twoBus :
    ∃ assignments, allocateChargers (twoBusResult 60 30) openDepot openChargers none = .ok assignments ∧
      ¬ NoChargerShared assignments ∧ ¬ NoVehicleSplit assignments := by
  have hrun : allocateChargers (twoBusResult 60 30) openDepot openChargers none =
      .ok [⟨"charger_1", "bus_1", 0, 50⟩, ⟨"charger_2", "bus_1", 0, 10⟩, ⟨"charger_2", "bus_2", 0, 30⟩] := by
    decide +kernel
  refine ⟨_, hrun, ?_, ?_⟩
  · intro hshared
    have heq := hshared ⟨"charger_2", "bus_1", 0, 10⟩ (by simp) ⟨"charger_2", "bus_2", 0, 30⟩ (by simp) rfl rfl
    exact absurd heq (by decide)
  · intro hsplit
    have heq := hsplit ⟨"charger_1", "bus_1", 0, 50⟩ (by simp) ⟨"charger_2", "bus_1", 0, 10⟩ (by simp) rfl rfl
    exact absurd heq (by decide)

end FavoniusBackend.Optimizer.Allocator
