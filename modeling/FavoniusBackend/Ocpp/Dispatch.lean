import FavoniusBackend.Ocpp.ChargePoint
import FavoniusBackend.Ocpp.Mapping

/-!
# Dispatch of an optimization result

`dispatch_charging_profiles` turns each entry of `OptimizationResult.schedule` into at most one
`charging_command_queue` row.  Per vehicle it looks up the charger, keeps the timesteps with positive
power, converts them to a `TxDefaultProfile` in ampere and inserts the row; a vehicle without a
charger, without a positive timestep or whose insert fails is reported as `False` and skipped.

The database is represented by what it answers: which inserts raise is part of the environment.
`queueRow` is the row one schedule entry produces, and `dispatch_queue` says that the queue grows by
exactly those rows, in schedule order.

Two questions are settled here.  Read as a step function the enqueued periods denote the plan exactly
when no timestep of the plan is idle and no rounding moves the start of a period
(`dispatched_periods_denote_plan_iff`), and two vehicles are sent
to different chargers exactly when no station is the least one of both
(`dispatch_targets_distinct_iff`).
-/

namespace FavoniusBackend.Ocpp.Dispatch

open Lib Lib.Numeric Lib.StepFunction
open Ocpp.ChargePoint Ocpp.Mapping

/-- The entry of one vehicle in `OptimizationResult.schedule`; the key may be missing or `None`. -/
structure ScheduleData where
  chargingPower : Option (List (Option ℚ))
  deriving DecidableEq, Repr

inductive ChargingProfilePurpose
  | chargePointMaxProfile
  | txDefaultProfile
  | txProfile
  deriving DecidableEq, Repr

inductive ChargingProfileKind
  | absolute
  | recurring
  | relative
  deriving DecidableEq, Repr

/-- The payload dict of a `set_charging_profile` command. -/
structure ChargingProfile where
  chargingProfilePurpose : ChargingProfilePurpose
  chargingProfileKind : ChargingProfileKind
  stackLevel : ℕ
  chargingRateUnit : ChargingRateUnit
  chargingSchedulePeriod : List ChargingSchedulePeriod
  deriving DecidableEq, Repr

/-- A row inserted into `charging_command_queue`; its `command_type` is `set_charging_profile`. -/
structure QueueRow where
  chargePointId : StationId
  connectorId : ℕ
  payload : ChargingProfile
  expiresAt : ℚ
  deriving DecidableEq, Repr

/-- A row of the audit table `charging_commands`, with status `queued`. -/
structure CommandRow where
  chargerId : StationId
  vehicleId : VehicleId
  issuedAt : ℚ
  connectorId : ℕ
  profile : ChargingProfile
  runId : String
  deriving DecidableEq, Repr

/-- What one call of dispatch is given: the resolved map, the scheduling parameters, the clock, and
which of its inserts the database refuses. -/
structure DispatchEnv where
  vehicleToChargerMap : ChargerMap
  deltaT : ℚ
  expiresInMin : ℕ
  runId : String
  now : ℚ
  enqueueFails : VehicleId → Bool
  auditFails : VehicleId → Bool

structure DispatchState where
  results : Dict VehicleId Bool
  queue : List QueueRow
  commands : List CommandRow

/-- The `(t, power)` pairs of the comprehension: `power is not None and power > 0`. -/
def plannedSteps (chargingPower : List (Option ℚ)) : List (ℕ × ℚ) :=
  chargingPower.zipIdx.filterMap fun p =>
    match p.1 with
    | some power => if 0 < power then some (p.2, power) else none
    | none => none

def wrapPeriods (periods : List ChargingSchedulePeriod) : ChargingProfile :=
  ⟨.txDefaultProfile, .absolute, 0, .A, periods⟩

def dispatchVehicle (env : DispatchEnv) (st : DispatchState) (entry : VehicleId × ScheduleData) :
    DispatchState :=
  match env.vehicleToChargerMap.get? entry.1 with
  | none => { st with results := st.results.set entry.1 false }
  | some (chargePointId, connectorId) =>
    let schedule := plannedSteps (entry.2.chargingPower.getD [])
    if schedule = [] then { st with results := st.results.set entry.1 false }
    else
      match convertScheduleToOcppProfile schedule env.deltaT 3 .A with
      | .error _ => { st with results := st.results.set entry.1 false }
      | .ok periods =>
        let payload := wrapPeriods periods
        if env.enqueueFails entry.1 then { st with results := st.results.set entry.1 false }
        else
          { results := st.results.set entry.1 true
            queue := st.queue ++
              [⟨chargePointId, connectorId, payload, env.now + env.expiresInMin * 60⟩]
            commands :=
              if env.auditFails entry.1 then st.commands
              else st.commands ++
                [⟨chargePointId, entry.1, env.now, connectorId, payload, env.runId⟩] }

/-- The loop, with the map already resolved. -/
def dispatchAll (env : DispatchEnv) (schedule : Dict VehicleId ScheduleData)
    (st : DispatchState) : DispatchState :=
  schedule.items.foldl (dispatchVehicle env) st

/-- `dispatch_charging_profiles`: resolve the map unless one is given, then run the loop.  A failure
to resolve it is re-raised before anything is enqueued. -/
def dispatchChargingProfiles (schedule : Dict VehicleId ScheduleData) (cache : MappingCache)
    (db : Except DbError AccessDb) (depot : DepotId) (givenMap : Option ChargerMap)
    (env : ChargerMap → DispatchEnv) (queue : List QueueRow) (commands : List CommandRow) :
    Except DbError DispatchState × MappingCache :=
  match givenMap with
  | some mapping => (.ok (dispatchAll (env mapping) schedule ⟨Dict.empty, queue, commands⟩), cache)
  | none =>
    match getVehicleToChargerMap cache db depot true with
    | (.error e, cache') => (.error e, cache')
    | (.ok mapping, cache') =>
      (.ok (dispatchAll (env mapping) schedule ⟨Dict.empty, queue, commands⟩), cache')

/-! ### The rows of one dispatch -/

def queueRow (env : DispatchEnv) (entry : VehicleId × ScheduleData) : Option QueueRow :=
  match env.vehicleToChargerMap.get? entry.1 with
  | none => none
  | some (chargePointId, connectorId) =>
    let schedule := plannedSteps (entry.2.chargingPower.getD [])
    if schedule = [] ∨ env.enqueueFails entry.1 = true then none
    else some ⟨chargePointId, connectorId,
      wrapPeriods (schedule.map (amperePeriod env.deltaT)), env.now + env.expiresInMin * 60⟩

theorem dispatchVehicle_queue (env : DispatchEnv) (st : DispatchState)
    (entry : VehicleId × ScheduleData) :
    (dispatchVehicle env st entry).queue = st.queue ++ (queueRow env entry).toList := by
  unfold dispatchVehicle queueRow
  cases hmap : env.vehicleToChargerMap.get? entry.1 with
  | none => simp
  | some target =>
    obtain ⟨cp, conn⟩ := target
    simp only [convert_ampere]
    by_cases hsched : plannedSteps (entry.2.chargingPower.getD []) = []
    · simp [hsched]
    · by_cases hfail : env.enqueueFails entry.1 = true
      · simp [hsched, hfail]
      · simp [hsched, hfail]

/-- **The queue grows by the rows of the schedule's entries, in order.** -/
theorem dispatch_queue (env : DispatchEnv) (schedule : Dict VehicleId ScheduleData)
    (st : DispatchState) :
    (dispatchAll env schedule st).queue = st.queue ++ schedule.items.filterMap (queueRow env) := by
  have hloop : ∀ (entries : List (VehicleId × ScheduleData)) (st : DispatchState),
      (entries.foldl (dispatchVehicle env) st).queue =
        st.queue ++ entries.filterMap (queueRow env) := by
    intro entries
    induction entries with
    | nil => intro st; simp
    | cons entry rest ih =>
      intro st
      rw [List.foldl_cons, ih, dispatchVehicle_queue, List.append_assoc]
      cases hrow : queueRow env entry with
      | none => simp [hrow]
      | some row => simp [hrow]
  exact hloop schedule.items st

/-- **One whole dispatch** that returns has added the rows of its schedule under the map it was given
or has resolved. -/
theorem dispatchChargingProfiles_queue {schedule : Dict VehicleId ScheduleData} {cache : MappingCache}
    {db : Except DbError AccessDb} {depot : DepotId} {givenMap : Option ChargerMap}
    {env : ChargerMap → DispatchEnv} {queue : List QueueRow} {commands : List CommandRow}
    {st : DispatchState}
    (h : (dispatchChargingProfiles schedule cache db depot givenMap env queue commands).1 = .ok st) :
    ∃ mapping, (givenMap = some mapping ∨
        givenMap = none ∧ (getVehicleToChargerMap cache db depot true).1 = .ok mapping) ∧
      st.queue = queue ++ schedule.items.filterMap (queueRow (env mapping)) := by
  unfold dispatchChargingProfiles at h
  cases givenMap with
  | some mapping =>
    obtain rfl := Except.ok.inj h
    exact ⟨mapping, Or.inl rfl, dispatch_queue (env mapping) schedule _⟩
  | none =>
    rcases hmap : getVehicleToChargerMap cache db depot true with ⟨r, cache'⟩
    rw [hmap] at h
    cases r with
    | error e => cases h
    | ok mapping =>
      obtain rfl := Except.ok.inj h
      exact ⟨mapping, Or.inr ⟨rfl, rfl⟩, dispatch_queue (env mapping) schedule _⟩

/-! ### What the enqueued periods denote -/

theorem plannedSteps_pos (chargingPower : List (Option ℚ)) :
    ∀ step ∈ plannedSteps chargingPower, 0 < step.2 := by
  intro step hstep
  obtain ⟨⟨power, t⟩, -, hsome⟩ := List.mem_filterMap.mp hstep
  cases power with
  | none => simp at hsome
  | some p =>
    simp only at hsome
    split at hsome
    · rename_i hp
      simp only [Option.some.injEq] at hsome
      rw [← hsome]
      exact hp
    · exact absurd hsome (by simp)

theorem filterMap_planned_of_pos (plan : List ℚ) (i : ℕ) (hpos : ∀ p ∈ plan, 0 < p) :
    ((plan.map some).zipIdx i).filterMap (fun p : Option ℚ × ℕ =>
      match p.1 with
      | some power => if 0 < power then some (p.2, power) else none
      | none => none) = (plan.zipIdx i).map fun q => (q.2, q.1) := by
  induction plan generalizing i with
  | nil => rfl
  | cons p plan ih =>
    have hp : 0 < p := hpos p List.mem_cons_self
    have hrest := ih (i + 1) (fun q hq => hpos q (List.mem_cons_of_mem _ hq))
    rw [List.map_cons, List.zipIdx_cons, List.zipIdx_cons, List.map_cons, List.filterMap_cons]
    simp only [hp, if_true, hrest]

theorem plannedSteps_of_pos (plan : List ℚ) (hpos : ∀ p ∈ plan, 0 < p) :
    plannedSteps (plan.map some) = plan.zipIdx.map fun q => (q.2, q.1) :=
  filterMap_planned_of_pos plan 0 hpos

theorem plannedSteps_ne_nil (plan : List ℚ) (hpos : ∃ p ∈ plan, 0 < p) :
    plannedSteps (plan.map some) ≠ [] := by
  obtain ⟨p, hp, hp0⟩ := hpos
  obtain ⟨i, hi, hget⟩ := List.mem_iff_getElem.mp hp
  intro hnil
  have hmem : (i, p) ∈ plannedSteps (plan.map some) := by
    refine List.mem_filterMap.mpr ⟨(some p, i), ?_, by simp [hp0]⟩
    rw [List.mem_zipIdx_iff_getElem?]
    simp [hi, hget]
  rw [hnil] at hmem
  exact absurd hmem List.not_mem_nil

/-- An idle timestep is left out of the list, and the reading of a list never yields an idle value. -/
theorem pos_of_denotes {deltaT : ℚ} {k : ℕ} (hk : 0 < k) {plan : List ℚ} (hnn : ∀ p ∈ plan, 0 ≤ p)
    (h : DenotesPlan ((plannedSteps (plan.map some)).map (amperePeriod deltaT)) k plan) : ∀ p ∈ plan, 0 < p := by
  have hkq : (0 : ℚ) < k := by exact_mod_cast hk
  obtain ⟨-, hread⟩ := h
  intro p hp
  refine lt_of_le_of_ne (hnn p hp) ?_
  intro hzero
  obtain ⟨j, hj, hget⟩ := List.mem_iff_getElem.mp hp
  have hforce := hread j hj ((j : ℚ) * k) le_rfl (by push_cast; linarith)
  have hmem := inForce_mem _ _ _ hforce
  simp only [breakpoints, List.map_map, List.mem_map, Function.comp_apply] at hmem
  obtain ⟨step, hstep, hval⟩ := hmem
  rw [denotedKw_amperePeriod] at hval
  have hpos := plannedSteps_pos _ step hstep
  rw [hval] at hpos
  have hget' : plan.get ⟨j, hj⟩ = p := hget
  rw [hget', ← hzero] at hpos
  exact absurd hpos (lt_irrefl _)

theorem denotesPlan_of_pos {deltaT : ℚ} {k : ℕ} {plan : List ℚ} (hne : plan ≠ []) (hpos : ∀ p ∈ plan, 0 < p) :
    DenotesPlan ((plannedSteps (plan.map some)).map (amperePeriod deltaT)) k plan ↔
      ∀ (j : ℕ) (hj : j < plan.length) (t : ℚ), (j : ℚ) * k ≤ t → t < ((j + 1 : ℕ) : ℚ) * k →
        inForce (starting (fun n => (pyInt (startSeconds deltaT n) : ℚ)) 0 plan) t = some (plan.get ⟨j, hj⟩) := by
  have hcomp : (amperePeriod deltaT ∘ fun q : ℚ × ℕ => (q.2, q.1)) =
      fun q : ℚ × ℕ => amperePeriod deltaT (q.2, q.1) := rfl
  rw [plannedSteps_of_pos plan hpos, List.map_map, hcomp, DenotesPlan, breakpoints_full]
  refine and_iff_right ?_
  cases plan with
  | nil => exact absurd rfl hne
  | cons p plan =>
    rw [List.zipIdx_cons, List.map_cons, List.head?_cons, Option.map_some]
    show some (pyInt (startSeconds deltaT 0)) = some 0
    rw [startSeconds_zero]
    rfl

/-- The starts that are not on time separate timesteps of equal power. -/
def StartsKept (deltaT : ℚ) (k : ℕ) (plan : List ℚ) : Prop :=
  ∀ (i : ℕ) (hi : i + 1 < plan.length), OnTime deltaT k (i + 1) ∨ plan.get ⟨i, by omega⟩ = plan.get ⟨i + 1, hi⟩

theorem denotes_iff_startsKept {deltaT : ℚ} {k : ℕ} (hk : 0 < k) (hdt : deltaT = roundDouble (k / 3600))
    {plan : List ℚ} (hn : plan.length ≤ 2 ^ 46) (hne : plan ≠ []) (hpos : ∀ p ∈ plan, 0 < p) :
    DenotesPlan ((plannedSteps (plan.map some)).map (amperePeriod deltaT)) k plan ↔ StartsKept deltaT k plan := by
  rw [denotesPlan_of_pos hne hpos, inForce_displaced_iff (displaced_starts hk hdt hn)]
  refine forall₂_congr fun i hi => or_congr_left (pyInt_eq_iff_onTime ?_)
  have hprod : (0 : ℚ) ≤ ((i + 1 : ℕ) : ℚ) * k := by positivity
  have hnear := (abs_le.mp (startSeconds_near hk hdt (Nat.succ_pos i))).1
  linarith

theorem denotes_of_onTime {deltaT : ℚ} {k : ℕ} (hk : 0 < k) {plan : List ℚ} (hne : plan ≠ [])
    (hpos : ∀ p ∈ plan, 0 < p) (htime : ∀ i < plan.length, OnTime deltaT k i) :
    DenotesPlan ((plannedSteps (plan.map some)).map (amperePeriod deltaT)) k plan := by
  have hkq : (0 : ℚ) < k := by exact_mod_cast hk
  have hstarts : ∀ i < plan.length, (pyInt (startSeconds deltaT i) : ℚ) = (i : ℚ) * k :=
    fun i hi => (htime i hi).pyInt_eq
  rw [denotesPlan_of_pos hne hpos,
    inForce_displaced_iff (displaced_of_exact hkq hstarts (List.length_pos_of_ne_nil hne))]
  exact fun i hi => .inl (hstarts (i + 1) hi)

/-- **The enqueued profile denotes the plan exactly when the plan has no idle timestep and its periods start
on time.**  For a vehicle with a charger and a plan that is not all zero, whose insert succeeds, the row is in
the queue.  With up to `2 ^ 46` steps its period list read by a charger gives the planned power throughout
every timestep if and only if every planned power is positive and every start is on time, but for one between
timesteps of equal power.  With any number of steps positive powers and starts on time are enough. -/
theorem dispatched_periods_denote_plan_iff (env : DispatchEnv)
    (schedule : Dict VehicleId ScheduleData) (st : DispatchState) (v : VehicleId)
    (target : StationId × ℕ) (plan : List ℚ) (k : ℕ) (hk : 0 < k)
    (hdt : env.deltaT = roundDouble (k / 3600))
    (hv : schedule.get? v = some ⟨some (plan.map some)⟩)
    (hmap : env.vehicleToChargerMap.get? v = some target) (hins : env.enqueueFails v = false)
    (hnn : ∀ p ∈ plan, 0 ≤ p) (hpos : ∃ p ∈ plan, 0 < p) :
    ∃ row, queueRow env (v, ⟨some (plan.map some)⟩) = some row ∧
      row ∈ (dispatchAll env schedule st).queue ∧
      (row.chargePointId, row.connectorId) = target ∧
      (plan.length ≤ 2 ^ 46 → (DenotesPlan row.payload.chargingSchedulePeriod k plan ↔
        (∀ p ∈ plan, 0 < p) ∧ StartsKept env.deltaT k plan)) ∧
      ((∀ p ∈ plan, 0 < p) → (∀ i < plan.length, OnTime env.deltaT k i) →
        DenotesPlan row.payload.chargingSchedulePeriod k plan) := by
  have hne : plan ≠ [] := by
    obtain ⟨p, hp, -⟩ := hpos
    exact List.ne_nil_of_mem hp
  have hrow : queueRow env (v, ⟨some (plan.map some)⟩) = some ⟨target.1, target.2,
      wrapPeriods ((plannedSteps (plan.map some)).map (amperePeriod env.deltaT)),
      env.now + env.expiresInMin * 60⟩ := by
    simp [queueRow, hmap, hins, plannedSteps_ne_nil plan hpos]
  refine ⟨_, hrow, ?_, rfl, ?_, denotes_of_onTime hk hne⟩
  · rw [dispatch_queue, List.mem_append]
    exact Or.inr (List.mem_filterMap.mpr ⟨_, Dict.mem_items_iff.mpr hv, hrow⟩)
  · intro hn
    constructor
    · intro hdenotes
      have hall := pos_of_denotes hk hnn hdenotes
      exact ⟨hall, (denotes_iff_startsKept hk hdt hn hne hall).mp hdenotes⟩
    · rintro ⟨hall, hstarts⟩
      exact (denotes_iff_startsKept hk hdt hn hne hall).mpr hstarts

/-- A depot call with quarter-hour timesteps and a database that accepts every insert. -/
def quarterHourEnv (mapping : ChargerMap) : DispatchEnv where
  vehicleToChargerMap := mapping
  deltaT := 1 / 4
  expiresInMin := 60
  runId := "run"
  now := 0
  enqueueFails := fun _ => false
  auditFails := fun _ => false

/-- The schedule `{"bus_1": {"charging_power": plan}}`. -/
def oneBusSchedule (plan : List ℚ) : Dict VehicleId ScheduleData :=
  Dict.ofList [("bus_1", ⟨some (plan.map some)⟩)]

theorem dispatched_periods_denote_two_steps :
    ∃ row, queueRow (quarterHourEnv (Dict.ofList [("bus_1", ("CP_1", 1))]))
        ("bus_1", ⟨some (([10, 20] : List ℚ).map some)⟩) = some row ∧
      row ∈ (dispatchAll (quarterHourEnv (Dict.ofList [("bus_1", ("CP_1", 1))]))
        (oneBusSchedule [10, 20]) ⟨Dict.empty, [], []⟩).queue ∧
      (row.chargePointId, row.connectorId) = ("CP_1", 1) ∧
      DenotesPlan row.payload.chargingSchedulePeriod (900 : ℕ) [10, 20] := by
  obtain ⟨row, hrow, hmem, htarget, -, hdenotes⟩ := dispatched_periods_denote_plan_iff
    (quarterHourEnv (Dict.ofList [("bus_1", ("CP_1", 1))])) (oneBusSchedule [10, 20]) ⟨Dict.empty, [], []⟩ "bus_1"
    ("CP_1", 1) [10, 20] 900 (by decide) (by decide +kernel) rfl rfl rfl (by norm_num) ⟨10, by norm_num, by norm_num⟩
  exact ⟨row, hrow, hmem, htarget, hdenotes (by norm_num) (by decide +kernel)⟩

/-- Ten kilowatt and then a pause: the pause is dropped, and the charger keeps drawing ten. -/
theorem pause_after_charging_not_denoted :
    (dispatchAll (quarterHourEnv (Dict.ofList [("bus_1", ("CP_1", 1))]))
        (oneBusSchedule [10, 0]) ⟨Dict.empty, [], []⟩).queue =
      [⟨"CP_1", 1, wrapPeriods [⟨0, 1000 / 69, 3⟩], 3600⟩] ∧
    inForce (breakpoints [⟨0, 1000 / 69, 3⟩]) 900 = some 10 ∧
    ¬ DenotesPlan [⟨0, 1000 / 69, 3⟩] 900 [10, 0] := by
  have hten : inForce (breakpoints [⟨0, 1000 / 69, 3⟩]) 900 = some 10 := by decide +kernel
  refine ⟨by decide +kernel, hten, ?_⟩
  rintro ⟨-, hread⟩
  have hzero := hread 1 (by decide) 900 (by norm_num) (by norm_num)
  rw [hten] at hzero
  norm_num at hzero

/-! ### Where the profiles are sent -/

/-- The vehicle's entry produces a queue row as soon as the map knows the vehicle. -/
def Enqueued (env : DispatchEnv) (schedule : Dict VehicleId ScheduleData) (v : VehicleId) : Prop :=
  ∃ data, schedule.get? v = some data ∧ plannedSteps (data.chargingPower.getD []) ≠ [] ∧
    env.enqueueFails v = false

/-- No two vehicles of the schedule are sent to the same charge point and connector. -/
def TargetsDistinct (env : DispatchEnv) (schedule : Dict VehicleId ScheduleData) : Prop :=
  ∀ v w data data' row row', v ≠ w → schedule.get? v = some data → schedule.get? w = some data' →
    queueRow env (v, data) = some row → queueRow env (w, data') = some row' →
    (row.chargePointId, row.connectorId) ≠ (row'.chargePointId, row'.connectorId)

theorem queueRow_eq_some {env : DispatchEnv} {v : VehicleId} {data : ScheduleData} {row : QueueRow}
    (h : queueRow env (v, data) = some row) :
    env.vehicleToChargerMap.get? v = some (row.chargePointId, row.connectorId) ∧
      plannedSteps (data.chargingPower.getD []) ≠ [] ∧ env.enqueueFails v = false := by
  unfold queueRow at h
  cases hmap : env.vehicleToChargerMap.get? v with
  | none => simp [hmap] at h
  | some target =>
    simp only [hmap] at h
    split at h
    · exact absurd h (by simp)
    · rename_i hcond
      push Not at hcond
      simp only [Option.some.injEq] at h
      subst h
      exact ⟨rfl, hcond.1, by simpa using hcond.2⟩

theorem exists_queueRow (env : DispatchEnv) (v : VehicleId) (data : ScheduleData)
    {target : StationId × ℕ} (hmap : env.vehicleToChargerMap.get? v = some target)
    (hsteps : plannedSteps (data.chargingPower.getD []) ≠ []) (hins : env.enqueueFails v = false) :
    ∃ row, queueRow env (v, data) = some row ∧ (row.chargePointId, row.connectorId) = target := by
  refine ⟨⟨target.1, target.2,
    wrapPeriods ((plannedSteps (data.chargingPower.getD [])).map (amperePeriod env.deltaT)),
    env.now + env.expiresInMin * 60⟩, ?_, rfl⟩
  simp [queueRow, hmap, hsteps, hins]

/-- No station accessible to both of two enqueued vehicles comes before everything either can
access. -/
def NoSharedFirstStation (db : AccessDb) (depot : DepotId) (env : DispatchEnv)
    (schedule : Dict VehicleId ScheduleData) : Prop :=
  ∀ v w s, v ≠ w → Enqueued env schedule v → Enqueued env schedule w →
    Accessible db depot v s → Accessible db depot w s →
    ∃ s' < s, Accessible db depot v s' ∨ Accessible db depot w s'

theorem targetsDistinct_iff (db : AccessDb) (depot : DepotId) (env : DispatchEnv)
    (schedule : Dict VehicleId ScheduleData)
    (hmap : env.vehicleToChargerMap = vehicleToChargerQuery db depot) :
    TargetsDistinct env schedule ↔ NoSharedFirstStation db depot env schedule := by
  constructor
  · intro hdist v w s hvw hv hw hsv hsw
    by_contra hnone
    push Not at hnone
    -- nothing is below `s`, so `s` is the least station of both and both rows go there
    have hleast : ∀ u, u = v ∨ u = w → Accessible db depot u s →
        IsLeast {s | Accessible db depot u s} s := by
      intro u hu hacc
      refine ⟨hacc, fun s' hs' => not_lt.mp fun hlt => ?_⟩
      rcases hu with rfl | rfl
      · exact (hnone s' hlt).1 hs'
      · exact (hnone s' hlt).2 hs'
    obtain ⟨data, hdata, hsteps, hins⟩ := hv
    obtain ⟨data', hdata', hsteps', hins'⟩ := hw
    have hgv : env.vehicleToChargerMap.get? v = some (s, 1) := by
      rw [hmap, get?_vehicleToChargerQuery]
      exact ⟨rfl, hleast v (Or.inl rfl) hsv⟩
    have hgw : env.vehicleToChargerMap.get? w = some (s, 1) := by
      rw [hmap, get?_vehicleToChargerQuery]
      exact ⟨rfl, hleast w (Or.inr rfl) hsw⟩
    obtain ⟨row, hrow, ht⟩ := exists_queueRow env v data hgv hsteps hins
    obtain ⟨row', hrow', ht'⟩ := exists_queueRow env w data' hgw hsteps' hins'
    exact hdist v w data data' row row' hvw hdata hdata' hrow hrow' (ht.trans ht'.symm)
  · intro hcond v w data data' row row' hvw hdata hdata' hrow hrow' htarget
    obtain ⟨hgv, hsteps, hins⟩ := queueRow_eq_some hrow
    obtain ⟨hgw, hsteps', hins'⟩ := queueRow_eq_some hrow'
    rw [← htarget] at hgw
    rw [hmap, get?_vehicleToChargerQuery] at hgv hgw
    obtain ⟨-, haccv, hlowv⟩ := hgv
    obtain ⟨-, haccw, hloww⟩ := hgw
    obtain ⟨s', hlt, hs'⟩ := hcond v w row.chargePointId hvw ⟨data, hdata, hsteps, hins⟩
      ⟨data', hdata', hsteps', hins'⟩ haccv haccw
    rcases hs' with hs' | hs'
    · exact absurd (hlowv hs') (not_le.mpr hlt)
    · exact absurd (hloww hs') (not_le.mpr hlt)

/-- **Two vehicles share a charger exactly when a station comes first for both.**  The map that dispatch
uses was built from some database content: the current one, or, with a warm cache, the one it was
cached from.  The targets of one optimization result are pairwise different if and only if, in that
content, no station accessible to two enqueued vehicles precedes every other station either of them
can access. -/
theorem dispatch_targets_distinct_iff (schedule : Dict VehicleId ScheduleData)
    (cache cache' : MappingCache) (db built : AccessDb) (depot : DepotId)
    (env : ChargerMap → DispatchEnv) (henv : ∀ m, (env m).vehicleToChargerMap = m)
    (hbuilt : cache.get? depot = some (vehicleToChargerQuery built depot) ∨
      (cache.get? depot = none ∧ built = db))
    (mapping : ChargerMap)
    (hmap : getVehicleToChargerMap cache (.ok db) depot true = (.ok mapping, cache')) :
    TargetsDistinct (env mapping) schedule ↔
      NoSharedFirstStation built depot (env mapping) schedule := by
  have hmapping : mapping = vehicleToChargerQuery built depot := by
    rcases hbuilt with hwarm | ⟨hcold, rfl⟩
    · simp only [getVehicleToChargerMap, hwarm, if_true] at hmap
      simp only [Prod.mk.injEq, Except.ok.injEq] at hmap
      exact hmap.1.symm
    · simp only [getVehicleToChargerMap, hcold, if_true] at hmap
      simp only [Prod.mk.injEq, Except.ok.injEq] at hmap
      exact hmap.1.symm
  exact targetsDistinct_iff built depot (env mapping) schedule ((henv mapping).trans hmapping)

def sharedBayDb : AccessDb where
  vehicles := [⟨"bus_1", some "depot"⟩, ⟨"bus_2", some "depot"⟩]
  chargerVehicleAccess := [⟨"c1", "bus_1", some true⟩, ⟨"c2", "bus_1", some true⟩,
    ⟨"c1", "bus_2", some true⟩, ⟨"c2", "bus_2", some true⟩]
  chargingStations := [⟨"c1", some "CP_1"⟩, ⟨"c2", some "CP_2"⟩]

def ownBayDb : AccessDb where
  vehicles := [⟨"bus_1", some "depot"⟩, ⟨"bus_2", some "depot"⟩]
  chargerVehicleAccess := [⟨"c1", "bus_1", some true⟩, ⟨"c2", "bus_2", some true⟩]
  chargingStations := [⟨"c1", some "CP_1"⟩, ⟨"c2", some "CP_2"⟩]

def twoBusSchedule : Dict VehicleId ScheduleData :=
  Dict.ofList [("bus_1", ⟨some [some 10]⟩), ("bus_2", ⟨some [some 10]⟩)]

theorem dispatch_targets_distinct_own_bay :
    TargetsDistinct (quarterHourEnv (vehicleToChargerQuery ownBayDb "depot")) twoBusSchedule ↔
      NoSharedFirstStation ownBayDb "depot"
        (quarterHourEnv (vehicleToChargerQuery ownBayDb "depot")) twoBusSchedule :=
  dispatch_targets_distinct_iff twoBusSchedule Dict.empty
    (Dict.empty.set "depot" (vehicleToChargerQuery ownBayDb "depot")) ownBayDb ownBayDb "depot"
    quarterHourEnv (fun _ => rfl) (Or.inr ⟨rfl, rfl⟩) _ rfl

/-- Two buses that may use two chargers are both sent to the first one. -/
theorem shared_bay_targets_collide :
    twoBusSchedule.items.length ≤ (accessibleStations sharedBayDb "depot").length ∧
    (vehicleToChargerQuery sharedBayDb "depot").get? "bus_1" = some ("CP_1", 1) ∧
    (vehicleToChargerQuery sharedBayDb "depot").get? "bus_2" = some ("CP_1", 1) ∧
    ((dispatchAll (quarterHourEnv (vehicleToChargerQuery sharedBayDb "depot")) twoBusSchedule
      ⟨Dict.empty, [], []⟩).queue.map fun row => (row.chargePointId, row.connectorId)) =
      [("CP_1", 1), ("CP_1", 1)] ∧
    ¬ TargetsDistinct (quarterHourEnv (vehicleToChargerQuery sharedBayDb "depot"))
      twoBusSchedule := by
  have h1 : (vehicleToChargerQuery sharedBayDb "depot").get? "bus_1" = some ("CP_1", 1) := by
    decide +kernel
  have h2 : (vehicleToChargerQuery sharedBayDb "depot").get? "bus_2" = some ("CP_1", 1) := by
    decide +kernel
  refine ⟨by decide +kernel, h1, h2, by decide +kernel, ?_⟩
  intro hdist
  let env := quarterHourEnv (vehicleToChargerQuery sharedBayDb "depot")
  obtain ⟨row, hrow, ht⟩ :=
    exists_queueRow env "bus_1" ⟨some [some 10]⟩ h1 (by decide +kernel) rfl
  obtain ⟨row', hrow', ht'⟩ :=
    exists_queueRow env "bus_2" ⟨some [some 10]⟩ h2 (by decide +kernel) rfl
  exact hdist "bus_1" "bus_2" _ _ row row' (by decide) rfl rfl hrow hrow' (ht.trans ht'.symm)

end FavoniusBackend.Ocpp.Dispatch
