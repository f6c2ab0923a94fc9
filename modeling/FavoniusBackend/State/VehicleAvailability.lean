import FavoniusBackend.State.AssembledInputs

/-!
# Availability and departures from the merged schedules

`_merge_vdv463_into_schedules` keys the trips by vehicle, so of several trips of a vehicle only the last
one listed is left, and a VDV 463 request replaces it.  `_compute_availability` and
`_compute_departure_times` loop over trips and would handle any number of them; they are given one.

A vehicle without a request is therefore treated as its trips ask for exactly when all its trips have
the same times (`trips_kept_iff`).  A request is turned into an on-route interval that runs from its
departure to its arrival, which is empty when they are in order, so its vehicle is available throughout;
this is the window it asked for exactly when the whole horizon lies inside that window.  Of several
requests of a vehicle the last one decides, and its times may be in the wrong order
(`request_window_iff`).
-/

namespace FavoniusBackend.State.VehicleAvailability

open Lib Lib.Numeric Lib.Guard
open Optimizer.Models Scheduling.Recurring
open State.Database State.Assembler
open State.AssembledInputs

/-! ### The availability loop -/

def sendsAway (vid : VehicleId) (time : ℚ) (sched : MergedTrip) : Bool :=
  decide (sched.vehicleId = vid) && onRoute sched time

theorem mapIdx_keep (steps : List Bool) : steps.mapIdx (fun _ free => free) = steps := by
  apply List.ext_getElem
  · simp
  · intro t h1 h2
    simp

section Availability

variable (config : DepotConfig) (start : ℚ) (vid : VehicleId)

theorem get?_markTrip (d : Dict VehicleId (List Bool)) (sched : MergedTrip) :
    (markTrip config start d sched).get? vid = (d.get? vid).map fun steps =>
      steps.mapIdx fun t free => free && !sendsAway vid (stepTime config start t) sched := by
  unfold markTrip
  by_cases hv : sched.vehicleId = vid
  · subst hv
    cases hsteps : d.get? sched.vehicleId with
    | none => simp [hsteps]
    | some steps => simp [sendsAway]
  · have hkeep : (d.get? vid).map (fun steps => steps.mapIdx fun t free =>
        free && !sendsAway vid (stepTime config start t) sched) = d.get? vid := by
      simp [sendsAway, hv, mapIdx_keep]
    rw [hkeep]
    split
    · rfl
    · exact Dict.get?_set_ne d _ (Ne.symm hv)

theorem get?_foldl_markTrip (schedules : List MergedTrip) (d : Dict VehicleId (List Bool)) :
    (schedules.foldl (markTrip config start) d).get? vid = (d.get? vid).map fun steps =>
      steps.mapIdx fun t free => free && !schedules.any (sendsAway vid (stepTime config start t)) := by
  induction schedules generalizing d with
  | nil => simp [mapIdx_keep]
  | cons sched rest ih =>
    rw [List.foldl_cons, ih, get?_markTrip, Option.map_map]
    congr 1
    funext steps
    simp only [Function.comp_apply, List.mapIdx_mapIdx, Function.comp_def, List.any_cons,
      Bool.not_or, Bool.and_assoc]

/-- **Availability.**  A configured vehicle has one entry for each step, and is available at a step
exactly when no schedule sends it away. -/
theorem get?_computeAvailability (schedules : List MergedTrip) (nSteps : ℤ)
    (hvid : vid ∈ config.vehicleCapacities) :
    (computeAvailability config schedules start nSteps).get? vid =
      some ((List.range nSteps.toNat).map fun t =>
        !schedules.any (sendsAway vid (stepTime config start t))) := by
  have hinit : (Dict.ofList (config.vehicleCapacities.keys.map fun vid =>
      (vid, List.replicate nSteps.toNat true))).get? vid = some (List.replicate nSteps.toNat true) := by
    rw [Dict.get?_ofList_of_nodup]
    · exact List.mem_map.mpr ⟨vid, hvid, rfl⟩
    · rw [List.map_map]
      simpa [Function.comp_def, Dict.keys] using config.vehicleCapacities.nodup_keys
  rw [computeAvailability, get?_foldl_markTrip, hinit, Option.map_some]
  congr 1
  apply List.ext_getElem
  · simp
  · intro t h1 h2
    simp

end Availability

/-! ### The departure loop -/

section Departures

variable (config : DepotConfig) (start : ℚ) (vid : VehicleId)

def departureIndex (sched : MergedTrip) : ℤ := pyInt ((sched.departureTime - start) / stepLength config)

theorem get?_noteDeparture (d : Dict VehicleId ℤ) (sched : MergedTrip) :
    (noteDeparture config start d sched).get? vid =
      if sched.vehicleId = vid then
        some ((d.get? vid).elim (departureIndex config start sched)
          (min (departureIndex config start sched)))
      else d.get? vid := by
  have hnote : noteDeparture config start d sched = (d.get? sched.vehicleId).elim
      (d.set sched.vehicleId (departureIndex config start sched)) fun earliest =>
        if departureIndex config start sched < earliest then
          d.set sched.vehicleId (departureIndex config start sched) else d := by
    unfold noteDeparture departureIndex
    cases d.get? sched.vehicleId <;> rfl
  rw [hnote]
  by_cases hv : sched.vehicleId = vid
  · subst hv
    rw [if_pos rfl]
    cases hd : d.get? sched.vehicleId with
    | none => simp
    | some earliest =>
      by_cases hlt : departureIndex config start sched < earliest
      · simp [hlt, min_eq_left hlt.le]
      · simp [hlt, hd, min_eq_right (not_lt.mp hlt)]
  · rw [if_neg hv]
    cases d.get? sched.vehicleId with
    | none => exact Dict.get?_set_ne d _ (Ne.symm hv)
    | some earliest =>
      rw [Option.elim_some]
      split
      · exact Dict.get?_set_ne d _ (Ne.symm hv)
      · rfl

theorem get?_foldl_noteDeparture (schedules : List MergedTrip) (d : Dict VehicleId ℤ) :
    (schedules.foldl (noteDeparture config start) d).get? vid =
      ((schedules.filter fun s => s.vehicleId = vid).map (departureIndex config start)).foldl
        (fun earliest tIdx => some (earliest.elim tIdx (min tIdx))) (d.get? vid) := by
  induction schedules generalizing d with
  | nil => rfl
  | cons sched rest ih =>
    rw [List.foldl_cons, ih, get?_noteDeparture]
    by_cases hv : sched.vehicleId = vid
    · rw [List.filter_cons_of_pos (by simpa using hv), List.map_cons, List.foldl_cons, if_pos hv]
    · rw [List.filter_cons_of_neg (by simpa using hv), if_neg hv]

end Departures

/-! ### The merge -/

def requestEntry (r : Vdv463Row) : Option (VehicleId × MergedTrip) :=
  match r.expectedArrival, r.requestedDeparture with
  | some arrival, some departure => some (r.vehicleId, ⟨r.vehicleId, arrival, departure, 100⟩)
  | _, _ => none

theorem scheduleByVehicle_mergeRequest (m : Merged) (r : Vdv463Row) :
    (mergeRequest m r).scheduleByVehicle =
      (requestEntry r).elim m.scheduleByVehicle fun p => m.scheduleByVehicle.set p.1 p.2 := by
  unfold mergeRequest requestEntry
  cases r.expectedArrival with
  | none => rfl
  | some arrival =>
    cases r.requestedDeparture with
    | none => rfl
    | some departure => rfl

theorem scheduleByVehicle_foldl (requests : List Vdv463Row) (m : Merged) :
    (requests.foldl mergeRequest m).scheduleByVehicle =
      (requests.filterMap requestEntry).foldl (fun d p => d.set p.1 p.2) m.scheduleByVehicle := by
  induction requests generalizing m with
  | nil => rfl
  | cons r rest ih =>
    rw [List.foldl_cons, ih, scheduleByVehicle_mergeRequest, List.filterMap_cons]
    cases requestEntry r with
    | none => rfl
    | some p => rfl

section Merge

variable (schedules : List Trip) (requests : List Vdv463Row)

def assignedEntries : List (VehicleId × MergedTrip) :=
  schedules.map scheduleEntry ++ requests.filterMap requestEntry

theorem scheduleByVehicle_eq :
    (mergeVdv463IntoSchedules schedules requests).scheduleByVehicle =
      Dict.ofList (assignedEntries schedules requests) := by
  rw [mergeVdv463IntoSchedules, scheduleByVehicle_foldl, assignedEntries, Dict.ofList, Dict.ofList,
    List.foldl_append]

theorem vehicleId_of_assigned {p : VehicleId × MergedTrip} (hp : p ∈ assignedEntries schedules requests) :
    p.2.vehicleId = p.1 := by
  rcases List.mem_append.mp hp with h | h
  · obtain ⟨trip, _, rfl⟩ := List.mem_map.mp h
    rfl
  · obtain ⟨r, _, hr⟩ := List.mem_filterMap.mp h
    unfold requestEntry at hr
    split at hr
    · cases hr
      rfl
    · cases hr

theorem vehicleId_of_merged {vid : VehicleId} {sched : MergedTrip}
    (h : (mergeVdv463IntoSchedules schedules requests).scheduleByVehicle.get? vid = some sched) :
    sched.vehicleId = vid := by
  rw [scheduleByVehicle_eq, Dict.get?_ofList, Option.map_eq_some_iff] at h
  obtain ⟨p, hp, rfl⟩ := h
  obtain ⟨hmem, hkey⟩ := List.mem_filter.mp (List.mem_of_getLast? hp)
  rw [vehicleId_of_assigned schedules requests hmem]
  simpa using hkey

theorem filter_merged (vid : VehicleId) :
    ((mergeVdv463IntoSchedules schedules requests).schedules.filter fun s => s.vehicleId = vid) =
      ((mergeVdv463IntoSchedules schedules requests).scheduleByVehicle.get? vid).toList := by
  have hkey : ∀ p ∈ (mergeVdv463IntoSchedules schedules requests).scheduleByVehicle.items,
      p.2.vehicleId = p.1 := by
    intro p hp
    exact vehicleId_of_merged schedules requests (Dict.mem_items_iff.mp hp)
  have hsame : ((mergeVdv463IntoSchedules schedules requests).scheduleByVehicle.items.filter
        fun p => p.2.vehicleId = vid) =
      (mergeVdv463IntoSchedules schedules requests).scheduleByVehicle.items.filter
        fun p => p.1 = vid := by
    apply List.filter_congr
    intro p hp
    rw [hkey p hp]
  rw [Merged.schedules, Dict.values, List.filter_map, Function.comp_def, hsame, Dict.filter_items]
  cases (mergeVdv463IntoSchedules schedules requests).scheduleByVehicle.get? vid with
  | none => rfl
  | some sched => rfl

theorem mem_merged_iff (vid : VehicleId) (sched : MergedTrip) :
    (sched ∈ (mergeVdv463IntoSchedules schedules requests).schedules ∧ sched.vehicleId = vid) ↔
      (mergeVdv463IntoSchedules schedules requests).scheduleByVehicle.get? vid = some sched := by
  have hfilter : (sched ∈ (mergeVdv463IntoSchedules schedules requests).schedules ∧
        sched.vehicleId = vid) ↔
      sched ∈ (mergeVdv463IntoSchedules schedules requests).schedules.filter
        fun s => s.vehicleId = vid := by
    rw [List.mem_filter, decide_eq_true_eq]
  rw [hfilter, filter_merged, Option.mem_toList]

theorem any_sendsAway (vid : VehicleId) (time : ℚ) :
    (mergeVdv463IntoSchedules schedules requests).schedules.any (sendsAway vid time) =
      ((mergeVdv463IntoSchedules schedules requests).scheduleByVehicle.get? vid).any
        (fun sched => onRoute sched time) := by
  have hfilter : (mergeVdv463IntoSchedules schedules requests).schedules.any (sendsAway vid time) =
      ((mergeVdv463IntoSchedules schedules requests).schedules.filter
        fun s => s.vehicleId = vid).any (fun sched => onRoute sched time) := by
    rw [List.any_filter]
    rfl
  rw [hfilter, filter_merged]
  cases (mergeVdv463IntoSchedules schedules requests).scheduleByVehicle.get? vid with
  | none => rfl
  | some sched => simp

theorem get?_computeDepartureTimes (config : DepotConfig) (start : ℚ)
    (hstep : stepLength config ≠ 0) (vid : VehicleId) :
    ∃ departures, computeDepartureTimes config (mergeVdv463IntoSchedules schedules requests).schedules
        start = .ok departures ∧
      departures.get? vid =
        ((mergeVdv463IntoSchedules schedules requests).scheduleByVehicle.get? vid).map
          (departureIndex config start) := by
  refine ⟨_, (seq_eq_ok _ _ _).mpr ⟨(require_eq_ok _ _).mpr (Or.inr hstep), rfl⟩, ?_⟩
  rw [get?_foldl_noteDeparture, filter_merged, Dict.get?_empty]
  cases (mergeVdv463IntoSchedules schedules requests).scheduleByVehicle.get? vid with
  | none => rfl
  | some sched => rfl

end Merge

/-! ### Vehicles with trips -/

def Covers (trip : Trip) (time : ℚ) : Prop := trip.departureTime ≤ time ∧ time < trip.returnTime

def tripsOf (schedules : List Trip) (vid : VehicleId) : List Trip :=
  schedules.filter fun trip => trip.vehicleId = vid

/-- The availability of a vehicle at a step after the merge; `none` for one without an entry. -/
def availableAt (config : DepotConfig) (schedules : List Trip) (requests : List Vdv463Row) (start : ℚ)
    (nSteps : ℤ) (vid : VehicleId) (t : ℕ) : Option Bool :=
  ((computeAvailability config (mergeVdv463IntoSchedules schedules requests).schedules start
    nSteps).get? vid).bind fun steps => steps[t]?

/-- What the trips of a vehicle ask for: all of them are kept, a configured vehicle is unavailable at
exactly the steps inside one of them, and its departure is the step of the earliest one. -/
structure TripsKept (config : DepotConfig) (schedules : List Trip) (requests : List Vdv463Row)
    (start : ℚ) (nSteps : ℤ) (vid : VehicleId) : Prop where
  kept : ∀ trip ∈ tripsOf schedules vid,
    ∃ sched ∈ (mergeVdv463IntoSchedules schedules requests).schedules, sched.vehicleId = vid ∧
      sched.departureTime = trip.departureTime ∧ sched.returnTime = trip.returnTime
  unavailable : vid ∈ config.vehicleCapacities → ∀ t < nSteps.toNat,
    availableAt config schedules requests start nSteps vid t = some false ↔
      ∃ trip ∈ tripsOf schedules vid, Covers trip (stepTime config start t)
  departs : ∃ departures, computeDepartureTimes config
      (mergeVdv463IntoSchedules schedules requests).schedules start = .ok departures ∧
    departures.get? vid = ((tripsOf schedules vid).map Trip.departureTime).min?.map fun departure =>
      pyInt ((departure - start) / stepLength config)

def SameTimes (schedules : List Trip) (vid : VehicleId) : Prop :=
  ∀ a ∈ tripsOf schedules vid, ∀ b ∈ tripsOf schedules vid,
    a.departureTime = b.departureTime ∧ a.returnTime = b.returnTime

section Trips

variable {schedules : List Trip} {requests : List Vdv463Row} {vid : VehicleId}

theorem get?_merged_of_no_request (hreq : ∀ r ∈ requests, r.vehicleId ≠ vid) :
    (mergeVdv463IntoSchedules schedules requests).scheduleByVehicle.get? vid =
      (tripsOf schedules vid).getLast?.map fun trip => (scheduleEntry trip).2 := by
  have hnone : ((requests.filterMap requestEntry).filter fun p => p.1 = vid) = [] := by
    rw [List.filter_eq_nil_iff]
    intro p hp
    obtain ⟨r, hr, hentry⟩ := List.mem_filterMap.mp hp
    have hkey : p.1 = r.vehicleId := by
      unfold requestEntry at hentry
      split at hentry
      · cases hentry
        rfl
      · cases hentry
    rw [hkey]
    simpa using hreq r hr
  rw [scheduleByVehicle_eq, Dict.get?_ofList, assignedEntries, List.filter_append, hnone,
    List.append_nil, List.filter_map, List.getLast?_map, Option.map_map, tripsOf]
  rfl

theorem covers_last_iff (hsame : SameTimes schedules vid) {last : Trip}
    (hlast : (tripsOf schedules vid).getLast? = some last) (time : ℚ) :
    Covers last time ↔ ∃ trip ∈ tripsOf schedules vid, Covers trip time := by
  have hmem := List.mem_of_getLast? hlast
  refine ⟨fun h => ⟨last, hmem, h⟩, ?_⟩
  rintro ⟨trip, htrip, hcovers⟩
  obtain ⟨hdep, hret⟩ := hsame trip htrip last hmem
  exact ⟨hdep ▸ hcovers.1, hret ▸ hcovers.2⟩

theorem min?_departure (hsame : SameTimes schedules vid) :
    ((tripsOf schedules vid).map Trip.departureTime).min? =
      (tripsOf schedules vid).getLast?.map Trip.departureTime := by
  cases hlast : (tripsOf schedules vid).getLast? with
  | none =>
    rw [List.getLast?_eq_none_iff] at hlast
    rw [hlast]
    rfl
  | some last =>
    have hmem := List.mem_of_getLast? hlast
    rw [Option.map_some, List.min?_eq_some_iff]
    refine ⟨List.mem_map_of_mem hmem, ?_⟩
    intro departure hdeparture
    obtain ⟨trip, htrip, rfl⟩ := List.mem_map.mp hdeparture
    exact le_of_eq (hsame last hmem trip htrip).1

variable {config : DepotConfig} {start : ℚ} {nSteps : ℤ}

theorem availableAt_eq (hvid : vid ∈ config.vehicleCapacities) {t : ℕ} (ht : t < nSteps.toNat) :
    availableAt config schedules requests start nSteps vid t =
      some (!((mergeVdv463IntoSchedules schedules requests).scheduleByVehicle.get? vid).any
        fun sched => onRoute sched (stepTime config start t)) := by
  rw [availableAt, get?_computeAvailability config start vid _ nSteps hvid, Option.bind_some,
    List.getElem?_map, List.getElem?_range ht, Option.map_some, any_sendsAway]

theorem onRoute_scheduleEntry (trip : Trip) (time : ℚ) :
    onRoute (scheduleEntry trip).2 time = true ↔ Covers trip time := by
  rw [onRoute, Bool.and_eq_true, decide_eq_true_eq, decide_eq_true_eq]
  rfl

theorem sameTimes_of_kept (h : TripsKept config schedules requests start nSteps vid) :
    SameTimes schedules vid := by
  intro a ha b hb
  obtain ⟨schedA, hmemA, hvA, hdepA, hretA⟩ := h.kept a ha
  obtain ⟨schedB, hmemB, hvB, hdepB, hretB⟩ := h.kept b hb
  have hgetA := (mem_merged_iff schedules requests vid schedA).mp ⟨hmemA, hvA⟩
  have hgetB := (mem_merged_iff schedules requests vid schedB).mp ⟨hmemB, hvB⟩
  obtain rfl := Option.some.inj (hgetA.symm.trans hgetB)
  exact ⟨hdepA.symm.trans hdepB, hretA.symm.trans hretB⟩

section NoRequest

variable (hreq : ∀ r ∈ requests, r.vehicleId ≠ vid) (hsame : SameTimes schedules vid)

include hreq hsame

theorem kept_of_sameTimes {trip : Trip} (htrip : trip ∈ tripsOf schedules vid) :
    ∃ sched ∈ (mergeVdv463IntoSchedules schedules requests).schedules, sched.vehicleId = vid ∧
      sched.departureTime = trip.departureTime ∧ sched.returnTime = trip.returnTime := by
  have hentry := @get?_merged_of_no_request schedules requests vid hreq
  obtain ⟨last, hlast⟩ : ∃ last, (tripsOf schedules vid).getLast? = some last :=
    ⟨_, List.getLast?_eq_some_getLast (List.ne_nil_of_mem htrip)⟩
  rw [hlast, Option.map_some] at hentry
  obtain ⟨hmem, hv⟩ := (mem_merged_iff schedules requests vid _).mpr hentry
  obtain ⟨hdep, hret⟩ := hsame last (List.mem_of_getLast? hlast) trip htrip
  exact ⟨_, hmem, hv, hdep, hret⟩

theorem unavailable_of_sameTimes (hvid : vid ∈ config.vehicleCapacities) {t : ℕ}
    (ht : t < nSteps.toNat) :
    availableAt config schedules requests start nSteps vid t = some false ↔
      ∃ trip ∈ tripsOf schedules vid, Covers trip (stepTime config start t) := by
  rw [availableAt_eq hvid ht, get?_merged_of_no_request hreq]
  cases hlast : (tripsOf schedules vid).getLast? with
  | none =>
    rw [List.getLast?_eq_none_iff] at hlast
    rw [hlast]
    simp
  | some last =>
    rw [← covers_last_iff hsame hlast, ← onRoute_scheduleEntry]
    simp

theorem departs_of_sameTimes (hstep : stepLength config ≠ 0) :
    ∃ departures, computeDepartureTimes config
        (mergeVdv463IntoSchedules schedules requests).schedules start = .ok departures ∧
      departures.get? vid = ((tripsOf schedules vid).map Trip.departureTime).min?.map
        fun departure => pyInt ((departure - start) / stepLength config) := by
  obtain ⟨departures, hok, hget⟩ :=
    get?_computeDepartureTimes schedules requests config start hstep vid
  refine ⟨departures, hok, ?_⟩
  rw [hget, get?_merged_of_no_request hreq, min?_departure hsame, Option.map_map, Option.map_map]
  rfl

end NoRequest

end Trips

/-- **Which vehicles keep their trips.**  For every list of trips and of requests and every vehicle
without a request: all its trips are kept, it is unavailable at exactly the steps inside one of them and
departs with the earliest, if and only if its trips have the same times, that is, if it has one trip. -/
theorem trips_kept_iff (config : DepotConfig) (schedules : List Trip) (requests : List Vdv463Row)
    (start : ℚ) (nSteps : ℤ) (vid : VehicleId) (hstep : stepLength config ≠ 0)
    (hreq : ∀ r ∈ requests, r.vehicleId ≠ vid) :
    TripsKept config schedules requests start nSteps vid ↔ SameTimes schedules vid := by
  refine ⟨sameTimes_of_kept, ?_⟩
  intro hsame
  refine ⟨?_, ?_, departs_of_sameTimes hreq hsame hstep⟩
  · intro trip htrip
    exact kept_of_sameTimes hreq hsame htrip
  · intro hvid t ht
    exact unavailable_of_sameTimes hreq hsame hvid ht

def busTrip (departureHour returnHour : ℚ) : Trip :=
  ⟨"bus_1", departureHour * 3600, returnHour * 3600, none, none⟩

/-- One trip from 8 to 12 is kept. -/
theorem trips_kept_single_trip :
    TripsKept loadedConfig [busTrip 8 12] [] 0 96 "bus_1" ∧ SameTimes [busTrip 8 12] "bus_1" := by
  have hsame : SameTimes [busTrip 8 12] "bus_1" := by
    intro a ha b hb
    obtain rfl := List.mem_singleton.mp (List.mem_filter.mp ha).1
    obtain rfl := List.mem_singleton.mp (List.mem_filter.mp hb).1
    exact ⟨rfl, rfl⟩
  refine ⟨(trips_kept_iff _ _ _ _ _ _ (by decide +kernel) ?_).mpr hsame, hsame⟩
  intro r hr
  cases hr

/-- Of a trip from 6 to 8 and one from 14 to 16 the first is lost: the bus is available at 6 o'clock,
and its departure is step 56, not step 24. -/
theorem morning_trip_lost :
    availableAt loadedConfig [busTrip 6 8, busTrip 14 16] [] 0 96 "bus_1" 24 = some true ∧
    Covers (busTrip 6 8) (stepTime loadedConfig 0 24) ∧
    ((computeDepartureTimes loadedConfig (mergeVdv463IntoSchedules [busTrip 6 8, busTrip 14 16]
      []).schedules 0).toOption.bind fun departures => departures.get? "bus_1") = some 56 ∧
    ¬ TripsKept loadedConfig [busTrip 6 8, busTrip 14 16] [] 0 96 "bus_1" := by
  refine ⟨by decide +kernel, ?_, by decide +kernel, ?_⟩
  · exact ⟨by decide +kernel, by decide +kernel⟩
  · intro hkept
    have hsame := sameTimes_of_kept hkept (busTrip 6 8) (by decide +kernel) (busTrip 14 16)
      (by decide +kernel)
    exact absurd hsame.1 (by decide +kernel)

/-! ### Vehicles with a request -/

/-- The vehicle is available at exactly the steps of the window its request asks for. -/
def WindowKept (config : DepotConfig) (schedules : List Trip) (requests : List Vdv463Row) (start : ℚ)
    (nSteps : ℤ) (vid : VehicleId) (arrival departure : ℚ) : Prop :=
  ∀ t < nSteps.toNat, availableAt config schedules requests start nSteps vid t = some true ↔
    arrival ≤ stepTime config start t ∧ stepTime config start t < departure

structure ProperWindow (r : Vdv463Row) (arrival departure : ℚ) : Prop where
  arrival_eq : r.expectedArrival = some arrival
  departure_eq : r.requestedDeparture = some departure
  lt : arrival < departure

section Requests

variable {schedules : List Trip} {requests : List Vdv463Row} {vid : VehicleId}

def lastRequest (requests : List Vdv463Row) (vid : VehicleId) : Option MergedTrip :=
  ((requests.filterMap requestEntry).filter fun p => p.1 = vid).getLast?.map Prod.snd

theorem get?_merged_of_lastRequest {sched : MergedTrip} (h : lastRequest requests vid = some sched) :
    (mergeVdv463IntoSchedules schedules requests).scheduleByVehicle.get? vid = some sched := by
  obtain ⟨p, hp, rfl⟩ := Option.map_eq_some_iff.mp h
  rw [scheduleByVehicle_eq, Dict.get?_ofList, assignedEntries, List.filter_append, List.getLast?_append, hp]
  rfl

theorem lastRequest_isSome {r : Vdv463Row} (hr : r ∈ requests) {arrival departure : ℚ}
    (harrival : r.expectedArrival = some arrival) (hdeparture : r.requestedDeparture = some departure) :
    ∃ sched, lastRequest requests r.vehicleId = some sched := by
  have hentry : requestEntry r = some (r.vehicleId, ⟨r.vehicleId, arrival, departure, 100⟩) := by
    rw [requestEntry, harrival, hdeparture]
  have hmem : (r.vehicleId, (⟨r.vehicleId, arrival, departure, 100⟩ : MergedTrip)) ∈
      (requests.filterMap requestEntry).filter fun p => p.1 = r.vehicleId :=
    List.mem_filter.mpr ⟨List.mem_filterMap.mpr ⟨r, hr, hentry⟩, by simp⟩
  exact ⟨_, by rw [lastRequest, List.getLast?_eq_some_getLast (List.ne_nil_of_mem hmem), Option.map_some]⟩

theorem lastRequest_eq_none (hreq : ∀ r ∈ requests, r.vehicleId ≠ vid) : lastRequest requests vid = none := by
  rw [lastRequest, List.filter_eq_nil_iff.mpr ?_]
  · rfl
  · intro p hp
    obtain ⟨r, hr, hentry⟩ := List.mem_filterMap.mp hp
    unfold requestEntry at hentry
    split at hentry
    · cases hentry
      simpa using hreq r hr
    · cases hentry

theorem available_of_lastRequest {config : DepotConfig} {start : ℚ} {nSteps : ℤ}
    (hvid : vid ∈ config.vehicleCapacities) {sched : MergedTrip} (h : lastRequest requests vid = some sched)
    {t : ℕ} (ht : t < nSteps.toNat) :
    availableAt config schedules requests start nSteps vid t =
      some (!onRoute sched (stepTime config start t)) := by
  rw [availableAt_eq hvid ht, get?_merged_of_lastRequest h, Option.any_some]

end Requests

/-- **Which request windows are kept.**  For every list of trips, every list of requests and every request
of a configured vehicle whose times are in order: the vehicle is available at exactly the steps between its
arrival and its departure, if and only if the steps outside that window are those from the departure to the
arrival of the vehicle's last request.  There are none of the latter when its times are in order. -/
theorem request_window_iff (config : DepotConfig) (schedules : List Trip) (requests : List Vdv463Row)
    (start : ℚ) (nSteps : ℤ) (r : Vdv463Row) (hr : r ∈ requests)
    (hvid : r.vehicleId ∈ config.vehicleCapacities) (arrival departure : ℚ)
    (hwindow : ProperWindow r arrival departure) :
    WindowKept config schedules requests start nSteps r.vehicleId arrival departure ↔
      ∃ last, lastRequest requests r.vehicleId = some last ∧ ∀ t < nSteps.toNat,
        (last.departureTime ≤ stepTime config start t ∧ stepTime config start t < last.returnTime ↔
          ¬ (arrival ≤ stepTime config start t ∧ stepTime config start t < departure)) := by
  obtain ⟨last, hlast⟩ := lastRequest_isSome hr hwindow.arrival_eq hwindow.departure_eq
  have hstep : ∀ t < nSteps.toNat,
      (availableAt config schedules requests start nSteps r.vehicleId t = some true ↔
        ¬ (last.departureTime ≤ stepTime config start t ∧ stepTime config start t < last.returnTime)) := by
    intro t ht
    rw [available_of_lastRequest hvid hlast ht, onRoute]
    simp [imp_iff_not_or]
  constructor
  · intro hkept
    refine ⟨last, hlast, ?_⟩
    intro t ht
    rw [← hkept t ht, hstep t ht, not_not]
  · rintro ⟨last', hlast', hall⟩ t ht
    obtain rfl := Option.some.inj (hlast.symm.trans hlast')
    rw [hstep t ht, hall t ht, not_not]

def busRequest (arrivalHour departureHour : ℚ) : Vdv463Row where
  depotId := "depot"
  vehicleId := "bus_1"
  status := .active
  expectedArrival := some (arrivalHour * 3600)
  requestedDeparture := some (departureHour * 3600)
  minTargetSoc := some 80
  maxTargetSoc := some 100
  priority := some 1
  preconditioningType := none
  preconditioningStart := none
  ambientTemperature := none
  requestedFinishTime := none
  hvacAuxPower := none

theorem properWindow_busRequest {arrivalHour departureHour : ℚ} (h : arrivalHour < departureHour) :
    ProperWindow (busRequest arrivalHour departureHour) (arrivalHour * 3600) (departureHour * 3600) :=
  ⟨rfl, rfl, by linarith⟩

/-- A bus that has arrived and departs a day and an hour later keeps its window. -/
theorem request_window_whole_day :
    WindowKept loadedConfig [] [busRequest (-1) 25] 0 96 "bus_1" (-1 * 3600) (25 * 3600) := by
  apply (request_window_iff loadedConfig [] [busRequest (-1) 25] 0 96 (busRequest (-1) 25)
    (List.mem_singleton.mpr rfl) (by decide +kernel) _ _ (properWindow_busRequest (by norm_num))).mpr
  exact ⟨⟨"bus_1", -1 * 3600, 25 * 3600, 100⟩, by decide +kernel, by decide +kernel⟩

/-- A bus that arrives at 10 and departs at 14 is available at midnight and at 20 o'clock. -/
theorem request_window_ignored :
    availableAt loadedConfig [] [busRequest 10 14] 0 96 "bus_1" 0 = some true ∧
    availableAt loadedConfig [] [busRequest 10 14] 0 96 "bus_1" 80 = some true ∧
    ¬ WindowKept loadedConfig [] [busRequest 10 14] 0 96 "bus_1" (10 * 3600) (14 * 3600) := by
  have hfirst : availableAt loadedConfig [] [busRequest 10 14] 0 96 "bus_1" 0 = some true := by
    decide +kernel
  refine ⟨hfirst, by decide +kernel, ?_⟩
  intro hkept
  have harrived := ((hkept 0 (by decide)).mp hfirst).1
  exact absurd harrived (by decide +kernel)

end FavoniusBackend.State.VehicleAvailability
