import FavoniusBackend.State.ScheduleSelection

/-!
# Trips under way

A vehicle is unavailable at the steps inside its trip, when the assembly sees the trip.  It sees the
trips that depart in its horizon, so a trip that departed before the assembly is not seen although the
vehicle is still on route.

Two other things decide before the trips do: a handoff of the vehicle replaces its availability, and a
VDV 463 request replaces its trips.  `on_route_iff` says for every step inside a stored trip which of
the three decides.
-/

namespace FavoniusBackend.State.TripsUnderWay

open Lib Lib.Sql Lib.Stateful Lib.Numeric
open Optimizer.Models Scheduling.Recurring
open Scheduling.Tiebreak State.Database
open State.Assembler State.AssembledInputs
open State.VehicleAvailability State.ScheduleSelection

/-! ### Stored trips -/

/-- A stored trip of the vehicle: a manual row, or an uncancelled occurrence of a template of the depot
that no manual row of its day overrides. -/
inductive StoredTrip (env : Environment) (depotId : String) (tz : ZoneInfo) (vid : VehicleId) :
    Trip → Prop
  | manual (m : ManualRow) (stored : m ∈ env.schedules) (vehicle : m.trip.vehicleId = vid)
      (depot : vid ∈ env.vehicleIds depotId) : StoredTrip env depotId tz vid m.trip
  | recurring (tpl : RecurringTemplate) (date : ℤ) (stored : tpl ∈ env.templates)
      (depot : tpl.depotId = depotId) (vehicle : tpl.vehicleId = vid)
      (occurs : tpl.occursOn env.cancellations date = true)
      (kept : ∀ m ∈ env.schedules, m.trip.vehicleId = vid → vid ∈ env.vehicleIds depotId →
        tz.localDate m.trip.departureTime = date → m.createdAt < tpl.createdAt) :
      StoredTrip env depotId tz vid (tpl.occurrence tz date).trip

def DepartsIn (start stop : ℚ) (trip : Trip) : Prop :=
  start ≤ trip.departureTime ∧ trip.departureTime < stop

/-- The vehicle has one trip in the horizon: its manual rows, and its occurrences that the rows of the
horizon do not override, have the times of the trip when they depart in the horizon. -/
structure SingleTrip (env : Environment) (depotId : String) (tz : ZoneInfo) (start stop : ℚ)
    (vid : VehicleId) (trip : Trip) : Prop where
  manual : ∀ m ∈ env.schedules, m.trip.vehicleId = vid → DepartsIn start stop m.trip →
    m.trip.departureTime = trip.departureTime ∧ m.trip.returnTime = trip.returnTime
  recurring : ∀ tpl date, Departs env depotId tz start stop tpl date → tpl.vehicleId = vid →
    ¬ OverriddenIn env depotId tz start stop vid date →
    (tpl.occurrence tz date).trip.departureTime = trip.departureTime ∧
      (tpl.occurrence tz date).trip.returnTime = trip.returnTime

/-- The state marks the vehicle unavailable at every step inside the trip. -/
def MarkedOnRoute (config : DepotConfig) (start : ℚ) (nSteps : ℤ) (state : DepotState) (vid : VehicleId)
    (trip : Trip) : Prop :=
  ∀ t < nSteps.toNat, Covers trip (stepTime config start t) →
    ((state.vehicleAvailability.get? vid).bind fun steps => steps[t]?) = some false

section Returned

variable {env : Environment} {depotId : String} {tz : ZoneInfo} {start stop : ℚ} {vid : VehicleId}
  {trip : Trip}

theorem times_of_returned (hclock : RegularClock tz start stop) (htimes : TimesOfDay env)
    (hsingle : SingleTrip env depotId tz start stop vid trip) {a : Trip}
    (ha : a ∈ tripsOf ((scheduleRows env depotId tz start stop).map MergedRow.trip) vid) :
    DepartsIn start stop a ∧ a.departureTime = trip.departureTime ∧ a.returnTime = trip.returnTime := by
  obtain ⟨hmem, hv⟩ := List.mem_filter.mp ha
  have hvid : a.vehicleId = vid := by simpa using hv
  obtain ⟨row, hrow, rfl⟩ := List.mem_map.mp hmem
  cases row with
  | manual m =>
    obtain ⟨⟨hstored, _, hlo, hhi⟩, _⟩ := (manual_mem_scheduleRows hclock htimes m).mp hrow
    exact ⟨⟨hlo, hhi⟩, hsingle.manual m hstored hvid ⟨hlo, hhi⟩⟩
  | recurring r =>
    obtain ⟨⟨tpl, date, hdep, rfl⟩, hnot⟩ := (recurring_mem_scheduleRows hclock htimes r).mp hrow
    have hveh : tpl.vehicleId = vid := hvid
    refine ⟨⟨hdep.start_le, hdep.lt_stop⟩, hsingle.recurring tpl date hdep hveh ?_⟩
    rw [← hveh]
    exact hnot

theorem sameTimes_of_single (hclock : RegularClock tz start stop) (htimes : TimesOfDay env)
    (hsingle : SingleTrip env depotId tz start stop vid trip) :
    SameTimes ((scheduleRows env depotId tz start stop).map MergedRow.trip) vid := by
  intro a ha b hb
  obtain ⟨_, hdepA, hretA⟩ := times_of_returned hclock htimes hsingle ha
  obtain ⟨_, hdepB, hretB⟩ := times_of_returned hclock htimes hsingle hb
  exact ⟨hdepA.trans hdepB.symm, hretA.trans hretB.symm⟩

/-- A stored trip that departs in the horizon brings a trip of its vehicle into the result: itself, or
the occurrence that its own row lost against. -/
theorem returned_of_departs (hclock : RegularClock tz start stop) (htimes : TimesOfDay env)
    (hstored : StoredTrip env depotId tz vid trip) (hdep : DepartsIn start stop trip) :
    tripsOf ((scheduleRows env depotId tz start stop).map MergedRow.trip) vid ≠ [] := by
  suffices hrow : ∃ row ∈ scheduleRows env depotId tz start stop, row.trip.vehicleId = vid by
    obtain ⟨row, hrow, hv⟩ := hrow
    apply List.ne_nil_of_mem (a := row.trip)
    exact List.mem_filter.mpr ⟨List.mem_map_of_mem hrow, by simpa using hv⟩
  cases hstored with
  | manual m hmem hv hdepot =>
    by_cases hover : OverriddenIn env depotId tz start stop vid (tz.localDate m.trip.departureTime)
    · subst hv
      exact ⟨.manual m, (manual_mem_scheduleRows hclock htimes m).mpr
        ⟨⟨hmem, hdepot, hdep.1, hdep.2⟩, hover⟩, rfl⟩
    · -- some occurrence of the day is newer than this row
      have hnewer : ∃ tpl, Departs env depotId tz start stop tpl (tz.localDate m.trip.departureTime) ∧
          tpl.vehicleId = vid := by
        by_contra hnone
        apply hover
        refine ⟨m, hmem, hv, hdepot, rfl, hdep.1, hdep.2, ?_⟩
        intro tpl htpl hveh
        exact absurd ⟨tpl, htpl, hveh⟩ hnone
      obtain ⟨tpl, htpl, hveh⟩ := hnewer
      subst hveh
      exact ⟨.recurring (tpl.occurrence tz (tz.localDate m.trip.departureTime)),
        (recurring_mem_scheduleRows hclock htimes _).mpr ⟨⟨tpl, _, htpl, rfl⟩, hover⟩, rfl⟩
  | recurring tpl date hmem hdepot hv hocc hkept =>
    have htpl : Departs env depotId tz start stop tpl date := ⟨hmem, hdepot, hocc, hdep.1, hdep.2⟩
    subst hv
    refine ⟨.recurring (tpl.occurrence tz date),
      (recurring_mem_scheduleRows hclock htimes _).mpr ⟨⟨tpl, date, htpl, rfl⟩, ?_⟩, rfl⟩
    intro ⟨m, hm, hmv, hveh, hdate, _, _, hnewest⟩
    exact absurd (hnewest tpl htpl rfl) (not_le.mpr (hkept m hm hmv hveh hdate))

end Returned

/-! ### Handoffs and requests of the vehicle -/

instance (now : ℚ) (nSteps : ℤ) (config : DepotConfig) (row : HandoffRow) :
    Decidable (ArrivesAtStep now nSteps config row) := inferInstanceAs (Decidable (_ ∧ _))

def arrivals (now : ℚ) (nSteps : ℤ) (config : DepotConfig) (rows : List HandoffRow) (vid : VehicleId) :
    List HandoffRow :=
  rows.filter fun row => decide (row.vehicleId = vid ∧ ArrivesAtStep now nSteps config row)

/-- **Availability after the integration loop**: the last arrival of the vehicle replaces its list. -/
theorem get?_integrated_availability (now : ℚ) (nSteps : ℤ) (rows : List HandoffRow) (vid : VehicleId) :
    ∀ (s : Integration) (steps : List Bool), s.availability.get? vid = some steps →
      (rows.foldl (integrateIncoming now nSteps) s).availability.get? vid =
        some (match (arrivals now nSteps s.config rows vid).getLast? with
          | some row => steps.mapIdx fun t _ => decide (arrivalTimestep s.config now row ≤ (t : ℤ))
          | none => steps) := by
  induction rows with
  | nil =>
    intro s steps hsteps
    exact hsteps
  | cons row rows ih =>
    intro s steps hsteps
    -- the step length is not touched, so a row arrives at the same step in every pass
    have harrivals : arrivals now nSteps (integrateIncoming now nSteps s row).config rows vid =
        arrivals now nSteps s.config rows vid := rfl
    have hcons : arrivals now nSteps s.config (row :: rows) vid =
        if row.vehicleId = vid ∧ ArrivesAtStep now nSteps s.config row then
          row :: arrivals now nSteps s.config rows vid
        else arrivals now nSteps s.config rows vid := by
      simp only [arrivals, List.filter_cons, decide_eq_true_eq]
    have havail : (integrateIncoming now nSteps s row).availability =
        if ArrivesAtStep now nSteps s.config row then
          s.availability.set row.vehicleId
            ((s.availability.getD row.vehicleId (List.replicate nSteps.toNat false)).mapIdx
              fun t _ => decide (arrivalTimestep s.config now row ≤ (t : ℤ)))
        else s.availability := rfl
    rw [List.foldl_cons, hcons]
    by_cases hrow : row.vehicleId = vid ∧ ArrivesAtStep now nSteps s.config row
    · obtain ⟨hv, harr⟩ := hrow
      have hget : (integrateIncoming now nSteps s row).availability.get? vid =
          some (steps.mapIdx fun t _ => decide (arrivalTimestep s.config now row ≤ (t : ℤ))) := by
        rw [havail, if_pos harr, hv, Dict.get?_set_self, Dict.getD, hsteps, Option.getD_some]
      rw [ih _ _ hget, harrivals, if_pos ⟨hv, harr⟩, List.getLast?_cons]
      cases (arrivals now nSteps s.config rows vid).getLast? with
      | none => rfl
      | some last =>
        simp only [Option.getD_some, List.mapIdx_mapIdx]
        rfl
    · have hget : (integrateIncoming now nSteps s row).availability.get? vid = some steps := by
        rw [havail, ← hsteps]
        split
        · rename_i harr
          exact Dict.get?_set_ne _ _ fun h => hrow ⟨h.symm, harr⟩
        · rfl
      rw [ih _ _ hget, harrivals, if_neg hrow]
      rfl

/-- What an assembly makes of a stored trip at step `t`: a handoff of the vehicle counts before its
request, a request before its trips, and a trip only when it departs in the horizon.  A request keeps the vehicle away
from its departure to its arrival, so only when its times are in the wrong order. -/
def OnRouteAt (env : Environment) (horizonHours : ℚ) (assembler : StateAssembler) (vid : VehicleId)
    (trip : Trip) (t : ℕ) : Prop :=
  match (arrivals env.now (horizonSteps assembler.config horizonHours) assembler.config
      (incomingRows env assembler.depotId env.now (horizonEnd env.now horizonHours)) vid).getLast? with
  | some row => (t : ℤ) < arrivalTimestep assembler.config env.now row
  | none =>
    ∀ requests, getVdv463ChargingRequests env assembler.depotId env.now (horizonEnd env.now horizonHours) =
        .ok requests →
      match lastRequest requests vid with
      | some last => onRoute last (stepTime assembler.config env.now t) = true
      | none => DepartsIn env.now (horizonEnd env.now horizonHours) trip

theorem mem_requests {env : Environment} {depotId : String} {start stop : ℚ} {requests : List Vdv463Row}
    (hok : getVdv463ChargingRequests env depotId start stop = .ok requests) {r : Vdv463Row}
    (hr : r ∈ requests) :
    (∃ rows, env.vdv463Requests = some rows ∧ r ∈ rows) ∧
      ∃ a d, r.expectedArrival = some a ∧ r.requestedDeparture = some d := by
  unfold getVdv463ChargingRequests at hok
  split at hok
  · cases hok
    cases hr
  · rename_i rows hrows
    have hrows' := query_eq_ok hok
    rw [← hrows'] at hr
    obtain ⟨hmem, hwhere⟩ := List.mem_filter.mp (mem_orderBy.mp hr)
    simp only [Bool.and_eq_true, Option.any_eq_true] at hwhere
    obtain ⟨⟨_, d, hd, _⟩, a, ha, _⟩ := hwhere
    exact ⟨⟨rows, hrows, hmem⟩, a, d, ha, hd⟩

section Marked

variable {env : Environment} {horizonHours : ℚ} {self : StateAssembler} {state : DepotState}
  {config : DepotConfig} {telemetrySocs : Dict VehicleId ℚ} {trips : List Trip}
  {requests : List Vdv463Row} {vid : VehicleId} {trip : Trip}

/-- Before the handoffs: a step inside the trip is marked exactly when the last request of the vehicle keeps
it away or, without a request, when the trip departs in the horizon. -/
theorem marked_before_handoffs
    (hfrom : AssembledFrom env horizonHours self state config telemetrySocs trips requests)
    (hclock : RegularClock (workingTimezone env self) env.now (horizonEnd env.now horizonHours))
    (htimes : TimesOfDay env)
    (hvid : vid ∈ self.config.vehicleCapacities)
    (hstored : StoredTrip env self.depotId (workingTimezone env self) vid trip)
    (hsingle : SingleTrip env self.depotId (workingTimezone env self) env.now
      (horizonEnd env.now horizonHours) vid trip) {t : ℕ}
    (ht : t < (horizonSteps self.config horizonHours).toNat)
    (hcovers : Covers trip (stepTime self.config env.now t)) :
    availableAt self.config trips requests env.now (horizonSteps self.config horizonHours) vid t =
        some false ↔
      match lastRequest requests vid with
      | some last => onRoute last (stepTime self.config env.now t) = true
      | none => DepartsIn env.now (horizonEnd env.now horizonHours) trip := by
  obtain ⟨zone, after, hschedules⟩ := hfrom.schedules_ok
  have htrips : trips = (scheduleRows env self.depotId (workingTimezone env self) env.now
    (horizonEnd env.now horizonHours)).map MergedRow.trip := (getSchedules_eq_ok hschedules).2
  by_cases hreq : ∀ r ∈ requests, r.vehicleId ≠ vid
  · have hsame : SameTimes trips vid := by
      rw [htrips]
      exact sameTimes_of_single hclock htimes hsingle
    rw [unavailable_of_sameTimes hreq hsame hvid ht, lastRequest_eq_none hreq, htrips]
    refine ⟨?_, ?_⟩
    · rintro ⟨a, ha, _⟩
      obtain ⟨hin, hdepA, _⟩ := times_of_returned hclock htimes hsingle ha
      rw [DepartsIn, hdepA] at hin
      exact hin
    · intro hdep
      obtain ⟨a, ha⟩ := List.exists_mem_of_ne_nil _ (returned_of_departs hclock htimes hstored hdep)
      obtain ⟨_, hdepA, hretA⟩ := times_of_returned hclock htimes hsingle ha
      refine ⟨a, ha, ?_, ?_⟩
      · rw [hdepA]
        exact hcovers.1
      · rw [hretA]
        exact hcovers.2
  · push Not at hreq
    obtain ⟨r, hr, hv⟩ := hreq
    obtain ⟨_, a, d, ha, hd⟩ := mem_requests hfrom.requests_ok hr
    obtain ⟨last, hlast⟩ := lastRequest_isSome hr ha hd
    rw [hv] at hlast
    rw [available_of_lastRequest hvid hlast ht, hlast]
    simp

theorem marked_iff
    (hfrom : AssembledFrom env horizonHours self state config telemetrySocs trips requests)
    (hclock : RegularClock (workingTimezone env self) env.now (horizonEnd env.now horizonHours))
    (htimes : TimesOfDay env)
    (hvid : vid ∈ self.config.vehicleCapacities)
    (hstored : StoredTrip env self.depotId (workingTimezone env self) vid trip)
    (hsingle : SingleTrip env self.depotId (workingTimezone env self) env.now
      (horizonEnd env.now horizonHours) vid trip) {t : ℕ}
    (ht : t < (horizonSteps self.config horizonHours).toNat)
    (hcovers : Covers trip (stepTime self.config env.now t)) :
    ((state.vehicleAvailability.get? vid).bind fun steps => steps[t]?) = some false ↔
      OnRouteAt env horizonHours self vid trip t := by
  obtain ⟨steps, hsteps⟩ : ∃ steps, (computeAvailability self.config
      (mergeVdv463IntoSchedules trips requests).schedules env.now
      (horizonSteps self.config horizonHours)).get? vid = some steps :=
    Option.isSome_iff_exists.mp (Dict.mem_iff_isSome.mp
      (((stepLists_computeAvailability _ _ _ _).mem_iff vid).mpr hvid))
  have hlength : steps.length = (horizonSteps self.config horizonHours).toNat :=
    (stepLists_computeAvailability _ _ _ _).length_eq vid steps hsteps
  have hbefore := marked_before_handoffs hfrom hclock htimes hvid hstored hsingle ht hcovers
  have hsame : availableAt self.config trips requests env.now
      (horizonSteps self.config horizonHours) vid t = steps[t]? := by
    rw [availableAt, hsteps]
    rfl
  rw [hsame] at hbefore
  rw [hfrom.availability, integrated, get?_integrated_availability _ _ _ _ _ steps hsteps,
    Option.bind_some, OnRouteAt]
  cases (arrivals env.now (horizonSteps self.config horizonHours) self.config
      (incomingRows env self.depotId env.now (horizonEnd env.now horizonHours)) vid).getLast? with
  | some row =>
    simp only [List.getElem?_mapIdx, List.getElem?_eq_getElem (hlength.symm ▸ ht : t < steps.length),
      Option.map_some, Option.some.injEq, decide_eq_false_iff_not, not_le]
  | none =>
    simp only
    rw [hbefore]
    refine ⟨?_, fun h => h requests hfrom.requests_ok⟩
    intro h requests' hok
    rw [hfrom.requests_ok] at hok
    cases hok
    exact h

end Marked

/-- **Which trips are seen.**  For every assembly that returns a state, every configured vehicle with a
single trip in the horizon and every stored trip of it: the vehicle is marked unavailable at every step
inside the trip if and only if, at each of these steps, a handoff of the vehicle is still to arrive, or
without a handoff the last request of the vehicle departs before the step and arrives after it, or the
vehicle has neither handoff nor request and the trip departs in the horizon. -/
theorem on_route_iff (env : Environment) (horizonHours : ℚ) (self self' : StateAssembler)
    (state : DepotState) (vid : VehicleId) (trip : Trip)
    (hcall : exec (getCurrentState env horizonHours) self = (.ok state, self'))
    (hclock : RegularClock (workingTimezone env self) env.now (horizonEnd env.now horizonHours))
    (htimes : TimesOfDay env)
    (hvid : vid ∈ self.config.vehicleCapacities)
    (hstored : StoredTrip env self.depotId (workingTimezone env self) vid trip)
    (hsingle : SingleTrip env self.depotId (workingTimezone env self) env.now
      (horizonEnd env.now horizonHours) vid trip) :
    MarkedOnRoute self.config env.now (horizonSteps self.config horizonHours) state vid trip ↔
      ∀ t < (horizonSteps self.config horizonHours).toNat,
        Covers trip (stepTime self.config env.now t) → OnRouteAt env horizonHours self vid trip t := by
  obtain ⟨telemetrySocs, trips, requests, hfrom⟩ := assembled_of_ok hcall
  refine ⟨?_, ?_⟩
  · intro hroute t ht hcovers
    exact (marked_iff hfrom hclock htimes hvid hstored hsingle ht hcovers).mp
      (hroute t ht hcovers)
  · intro hall t ht hcovers
    exact (marked_iff hfrom hclock htimes hvid hstored hsingle ht hcovers).mpr
      (hall t ht hcovers)

/-- The manual row of the bus from 8 to 12 o'clock, at an assembly at the given hour. -/
def morningEnvironment (hour : ℚ) : Environment :=
  { idleEnvironment with now := hour * 3600, schedules := [⟨busTrip 8 12, -500⟩] }

/-- A template of the bus over midnight, from 22 to 2 o'clock. -/
def nightTemplate : RecurringTemplate :=
  { eveningTemplate with
    templateId := "night", departureTimeOfDay := 22 * 3600, returnTimeOfDay := 2 * 3600 }

/-- The night trip of day 0, half an hour after midnight. -/
def nightEnvironment : Environment :=
  { idleEnvironment with now := 24 * 3600 + 1800, templates := [{ nightTemplate with endDate := some 0 }] }

def busAvailable (outcome : Except AssemblyError DepotState × StateAssembler) (t : ℕ) :
    Option (Option Bool) :=
  match outcome with
  | (.ok state, _) => some ((state.vehicleAvailability.get? "bus_1").bind fun steps => steps[t]?)
  | (.error _, _) => none

theorem exists_of_busAvailable {outcome : Except AssemblyError DepotState × StateAssembler} {t : ℕ}
    {answer : Option Bool} (h : busAvailable outcome t = some answer) :
    ∃ state self', outcome = (.ok state, self') ∧
      ((state.vehicleAvailability.get? "bus_1").bind fun steps => steps[t]?) = answer := by
  obtain ⟨result, self'⟩ := outcome
  cases result with
  | ok state => exact ⟨state, self', rfl, Option.some.inj h⟩
  | error e => cases h

theorem storedTrip_morning (hour : ℚ) :
    StoredTrip (morningEnvironment hour) "depot" .utc "bus_1" (busTrip 8 12) :=
  .manual ⟨busTrip 8 12, -500⟩ (List.mem_singleton.mpr rfl) rfl
    (show "bus_1" ∈ idleEnvironment.vehicleIds "depot" by decide)

theorem singleTrip_morning (hour start stop : ℚ) :
    SingleTrip (morningEnvironment hour) "depot" .utc start stop "bus_1" (busTrip 8 12) := by
  refine ⟨?_, ?_⟩
  · intro m hm _ _
    obtain rfl := List.mem_singleton.mp hm
    exact ⟨rfl, rfl⟩
  · intro tpl date hdep _ _
    cases hdep.stored

theorem timesOfDay_morning (hour : ℚ) : TimesOfDay (morningEnvironment hour) := by
  intro tpl htpl
  cases htpl

/-- Assembled at midnight, the bus is on route from 8 to 12 o'clock. -/
theorem on_route_at_midnight :
    ∃ state self', exec (getCurrentState (morningEnvironment 0) 24) (.init "depot" loadedConfig) =
        (.ok state, self') ∧
      MarkedOnRoute loadedConfig (0 * 3600) (horizonSteps loadedConfig 24) state "bus_1"
        (busTrip 8 12) := by
  obtain ⟨state, self', hcall, _⟩ := exists_of_busAvailable
    (show busAvailable (exec (getCurrentState (morningEnvironment 0) 24)
      (.init "depot" loadedConfig)) 32 = some (some false) by decide +kernel)
  refine ⟨state, self', hcall, ?_⟩
  refine (on_route_iff _ _ _ _ _ "bus_1" (busTrip 8 12) hcall (regularClock_utc _ _) (timesOfDay_morning 0)
    (by decide +kernel) (storedTrip_morning 0) (singleTrip_morning 0 _ _)).mpr ?_
  intro t _ _ requests hok
  cases hok
  exact ⟨by decide +kernel, by decide +kernel⟩

/-- Assembled at 10 o'clock, the bus that left at 8 is available, and so is, half an hour after
midnight, the one that left at 22 o'clock for its night trip. -/
theorem trip_under_way_missed :
    (∃ state self', exec (getCurrentState (morningEnvironment 10) 24) (.init "depot" loadedConfig) =
        (.ok state, self') ∧
      StoredTrip (morningEnvironment 10) "depot" .utc "bus_1" (busTrip 8 12) ∧
      SingleTrip (morningEnvironment 10) "depot" .utc (10 * 3600) (34 * 3600) "bus_1" (busTrip 8 12) ∧
      ¬ MarkedOnRoute loadedConfig (10 * 3600) (horizonSteps loadedConfig 24) state "bus_1"
        (busTrip 8 12)) ∧
    ∃ state self', exec (getCurrentState nightEnvironment 24) (.init "depot" loadedConfig) =
        (.ok state, self') ∧
      ¬ MarkedOnRoute loadedConfig (24 * 3600 + 1800) (horizonSteps loadedConfig 24) state "bus_1"
        (nightTemplate.occurrence .utc 0).trip := by
  refine ⟨?_, ?_⟩
  · obtain ⟨state, self', hcall, havail⟩ := exists_of_busAvailable
      (show busAvailable (exec (getCurrentState (morningEnvironment 10) 24)
        (.init "depot" loadedConfig)) 0 = some (some true) by decide +kernel)
    refine ⟨state, self', hcall, storedTrip_morning 10, singleTrip_morning 10 _ _, ?_⟩
    intro hroute
    have hfalse := hroute 0 (by decide +kernel) ⟨by decide +kernel, by decide +kernel⟩
    rw [havail] at hfalse
    cases hfalse
  · obtain ⟨state, self', hcall, havail⟩ := exists_of_busAvailable
      (show busAvailable (exec (getCurrentState nightEnvironment 24)
        (.init "depot" loadedConfig)) 0 = some (some true) by decide +kernel)
    refine ⟨state, self', hcall, ?_⟩
    intro hroute
    have hfalse := hroute 0 (by decide +kernel) ⟨by decide +kernel, by decide +kernel⟩
    rw [havail] at hfalse
    cases hfalse

end FavoniusBackend.State.TripsUnderWay
