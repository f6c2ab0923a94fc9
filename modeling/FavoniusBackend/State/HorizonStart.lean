import FavoniusBackend.State.AssembledInputs

/-!
# The start of the horizon

`optimize` takes the start of the horizon as an argument; the controller does not give one, and
`optimize` then takes `datetime.utcnow()`, which is naive.  The model builder subtracts it from the
arrival of every incoming vehicle and from both times of every preconditioning request.  In an assembled
state these come from `timestamptz` columns and are aware, so the first subtraction raises a
`TypeError`.

A model is therefore built without that error exactly when no subtraction is reached
(`no_type_error_iff`).
-/

namespace FavoniusBackend.State.HorizonStart

open Lib Lib.Guard Lib.Stateful
open Optimizer.Models Optimizer.MilpModel
open State.Database State.Assembler
open State.AssembledInputs

/-- The model `optimize` builds; without a horizon start it takes the naive current time. -/
def optimizeModel (state : DepotState) (config : DepotConfig) (horizonStart : Option Stamp)
    (utcNow : ℚ) : Except ModelError ChargingModel :=
  buildOptimizationModel state config (some (horizonStart.getD (.naive utcNow))) utcNow

/-! ### Aware states -/

def IsAware : Stamp → Prop
  | .aware _ => True
  | .naive _ => False

structure AwareState (state : DepotState) : Prop where
  incoming : ∀ iv ∈ state.incomingVehicles, IsAware iv.arrivalTime
  preconditioning : ∀ req ∈ state.preconditioningRequests, ∃ startTime endTime,
    req.startTime = some startTime ∧ req.endTime = some endTime ∧
      IsAware startTime ∧ IsAware endTime

theorem aware_preconditioningOf {r : Vdv463Row} {departure : ℚ} {req : PreconditioningRequest}
    (h : preconditioningOf r departure = some req) : ∃ startTime endTime,
      req.startTime = some startTime ∧ req.endTime = some endTime ∧
        IsAware startTime ∧ IsAware endTime := by
  unfold preconditioningOf at h
  split at h
  · split at h
    · cases h
      exact ⟨_, _, rfl, rfl, trivial, trivial⟩
    · cases h
  · split at h
    · cases h
      exact ⟨_, _, rfl, rfl, trivial, trivial⟩
    · cases h
  · cases h

theorem mem_preconditioning (requests : List Vdv463Row) :
    ∀ (m : Merged) (req : PreconditioningRequest),
      req ∈ (requests.foldl mergeRequest m).preconditioningRequests →
      req ∈ m.preconditioningRequests ∨
        ∃ r ∈ requests, ∃ departure, preconditioningOf r departure = some req := by
  induction requests with
  | nil =>
    intro m req h
    exact Or.inl h
  | cons r rest ih =>
    intro m req h
    rcases ih (mergeRequest m r) req h with h | ⟨r', hr', hreq⟩
    · unfold mergeRequest at h
      split at h
      · rcases List.mem_append.mp h with h | h
        · exact Or.inl h
        · exact Or.inr ⟨r, List.mem_cons_self, _, Option.mem_toList.mp h⟩
      · exact Or.inl h
    · exact Or.inr ⟨r', List.mem_cons_of_mem r hr', hreq⟩

/-- **Assembled states are aware.** -/
theorem awareState_of_ok {env : Environment} {horizonHours : ℚ} {self self' : StateAssembler}
    {state : DepotState} (h : exec (getCurrentState env horizonHours) self = (.ok state, self')) :
    AwareState state := by
  obtain ⟨telemetrySocs, trips, requests, hfrom⟩ := assembled_of_ok h
  refine ⟨?_, ?_⟩
  · intro iv hiv
    rw [hfrom.incoming] at hiv
    obtain ⟨row, _, rfl⟩ := List.mem_map.mp hiv
    trivial
  · intro req hreq
    rw [hfrom.preconditioning] at hreq
    rcases mem_preconditioning requests _ req hreq with hnil | ⟨r, _, departure, hof⟩
    · cases hnil
    · exact aware_preconditioningOf hof

/-! ### What is reached -/

def ReachesArrivals (state : DepotState) (config : DepotConfig) : Prop :=
  validateInputs state config = .ok () ∧
    (0 < config.nTimesteps ∨ ∀ b ∈ state.vehicleSocs.keys,
      state.incomingVehicles.any (fun iv => iv.vehicleId == b) = true)

def ReachesPreconditioning (state : DepotState) (config : DepotConfig) : Prop :=
  validateInputs state config = .ok () ∧ 0 < config.nTimesteps ∧
    (config.nTimesteps ≤ 1 ∨ ∀ b ∈ state.vehicleSocs.keys, config.vehicleCapacities.getD b 0 ≠ 0) ∧
    ∀ b ∈ state.vehicleSocs.keys, ∀ t, state.departureTimes.get? b = some t →
      t < config.nTimesteps → 0 ≤ t

theorem timestepOf_aware (config : DepotConfig) (now : ℚ) {time : Stamp} (h : IsAware time) :
    timestepOf config (.naive now) time = .error .typeError := by
  cases time with
  | naive wall => cases h
  | aware instant => rfl

theorem incomingArrivals_aware {state : DepotState} (haware : AwareState state) (config : DepotConfig)
    (now : ℚ) (hne : state.incomingVehicles ≠ []) :
    incomingArrivals state config (.naive now) = .error .typeError := by
  unfold incomingArrivals
  cases hlist : state.incomingVehicles with
  | nil => exact absurd hlist hne
  | cons iv rest =>
    have hiv : IsAware iv.arrivalTime :=
      haware.incoming iv (by rw [hlist]; exact List.mem_cons_self)
    rw [collect, timestepOf_aware config now hiv]
    rfl

theorem precondWindows_aware {state : DepotState} (haware : AwareState state) (config : DepotConfig)
    (now : ℚ) (hne : state.preconditioningRequests ≠ []) :
    collect (precondWindow config (.naive now)) state.preconditioningRequests = .error .typeError := by
  cases hlist : state.preconditioningRequests with
  | nil => exact absurd hlist hne
  | cons req rest =>
    obtain ⟨startTime, endTime, hs, he, hstart, _⟩ :=
      haware.preconditioning req (by rw [hlist]; exact List.mem_cons_self)
    have hwindow : precondWindow config (.naive now) req = .error .typeError := by
      rw [precondWindow, hs, he]
      simp only [timestepOf_aware config now hstart]
      rfl
    rw [collect, hwindow]
    rfl

theorem departureStep_nonneg_iff (state : DepotState) (config : DepotConfig) (b : VehicleId) :
    (Inputs.departureStep ⟨state, config, Dict.empty, fun _ => 0⟩ b).all (0 ≤ ·) = true ↔
      ∀ t, state.departureTimes.get? b = some t → t < config.nTimesteps → 0 ≤ t := by
  unfold Inputs.departureStep
  cases hget : state.departureTimes.get? b with
  | none => simp
  | some t =>
    by_cases ht : t < config.nTimesteps
    · simp [ht]
    · simp [ht]

theorem reaches_of_typeError {state : DepotState} {config : DepotConfig} {now utcNow : ℚ}
    (h : buildOptimizationModel state config (some (.naive now)) utcNow = .error .typeError) :
    (ReachesArrivals state config ∧ state.incomingVehicles ≠ []) ∨
      (ReachesPreconditioning state config ∧ state.preconditioningRequests ≠ []) := by
  have hstart : (some (Stamp.naive now)).getD (.naive utcNow) = .naive now := rfl
  unfold buildOptimizationModel at h
  simp only [hstart] at h
  rcases (bind_eq_error _ _ _).mp h with h | ⟨_, hvalid, h⟩
  · cases hok : validateInputs state config with
    | ok _ =>
      rw [hok] at h
      cases h
    | error e =>
      rw [hok] at h
      cases h
  rw [liftValidation_eq_ok] at hvalid
  rcases (bind_eq_error _ _ _).mp h with h | ⟨_, hkey, h⟩
  · cases ((require_eq_error _ _ _).mp h).2
  rw [require_eq_ok] at hkey
  by_cases hincoming : state.incomingVehicles = []
  · rcases (bind_eq_error _ _ _).mp h with h | ⟨arrivals, _, h⟩
    · rw [incomingArrivals, hincoming] at h
      cases h
    rcases (bind_eq_error _ _ _).mp h with h | ⟨_, hcap, h⟩
    · cases ((require_eq_error _ _ _).mp h).2
    rcases (bind_eq_error _ _ _).mp h with h | ⟨_, hpos, h⟩
    · cases ((require_eq_error _ _ _).mp h).2
    rcases (bind_eq_error _ _ _).mp h with h | ⟨_, hdep, h⟩
    · cases ((require_eq_error _ _ _).mp h).2
    rw [require_eq_ok] at hcap hpos hdep
    have hreach : ReachesPreconditioning state config :=
      ⟨hvalid, hpos, hcap, fun b hb => (departureStep_nonneg_iff state config b).mp (hdep b hb)⟩
    refine Or.inr ⟨hreach, ?_⟩
    intro hnone
    rcases (bind_eq_error _ _ _).mp h with h | ⟨windows, _, h⟩
    · rw [hnone] at h
      cases h
    rcases (bind_eq_error _ _ _).mp h with h | ⟨_, _, h⟩
    · cases ((require_eq_error _ _ _).mp h).2
    rcases (bind_eq_error _ _ _).mp h with h | ⟨_, _, h⟩
    · cases ((require_eq_error _ _ _).mp h).2
    cases h
  · exact Or.inl ⟨⟨hvalid, hkey⟩, hincoming⟩

theorem typeError_of_reaches {state : DepotState} (haware : AwareState state) {config : DepotConfig} {now utcNow : ℚ}
    (h : (ReachesArrivals state config ∧ state.incomingVehicles ≠ []) ∨
      (ReachesPreconditioning state config ∧ state.preconditioningRequests ≠ [])) :
    buildOptimizationModel state config (some (.naive now)) utcNow = .error .typeError := by
  have hstart : (some (Stamp.naive now)).getD (.naive utcNow) = .naive now := rfl
  unfold buildOptimizationModel
  simp only [hstart]
  -- both cases pass validation; whether there is an incoming vehicle decides which one raises
  have hvalid : validateInputs state config = .ok () := by
    rcases h with h | h
    · exact h.1.1
    · exact h.1.1
  refine (bind_eq_error _ _ _).mpr (Or.inr ⟨(), (liftValidation_eq_ok _).mpr hvalid, ?_⟩)
  have hkey : 0 < config.nTimesteps ∨ ∀ b ∈ state.vehicleSocs.keys,
      state.incomingVehicles.any (fun iv => iv.vehicleId == b) = true := by
    rcases h with h | h
    · exact h.1.2
    · exact Or.inl h.1.2.1
  refine (bind_eq_error _ _ _).mpr (Or.inr ⟨(), (require_eq_ok _ _).mpr hkey, ?_⟩)
  by_cases hincoming : state.incomingVehicles = []
  · rcases h with h | ⟨⟨_, hpos, hcap, hdep⟩, hne⟩
    · exact absurd hincoming h.2
    have harrivals : ∃ arrivals, incomingArrivals state config (.naive now) = .ok arrivals := by
      rw [incomingArrivals, hincoming]
      exact ⟨_, rfl⟩
    obtain ⟨arrivals, harrivals⟩ := harrivals
    refine (bind_eq_error _ _ _).mpr (Or.inr ⟨arrivals, harrivals, ?_⟩)
    refine (bind_eq_error _ _ _).mpr (Or.inr ⟨(), (require_eq_ok _ _).mpr hcap, ?_⟩)
    refine (bind_eq_error _ _ _).mpr (Or.inr ⟨(), (require_eq_ok _ _).mpr hpos, ?_⟩)
    refine (bind_eq_error _ _ _).mpr (Or.inr ⟨(), (require_eq_ok _ _).mpr ?_, ?_⟩)
    · intro b hb
      exact (departureStep_nonneg_iff state config b).mpr (hdep b hb)
    · exact (bind_eq_error _ _ _).mpr (Or.inl (precondWindows_aware haware config now hne))
  · exact (bind_eq_error _ _ _).mpr (Or.inl (incomingArrivals_aware haware config now hincoming))

/-- **The error.**  With a naive start, the builder raises the `TypeError` for an aware state exactly
when it reaches an incoming vehicle or a preconditioning request. -/
theorem build_eq_typeError_iff {state : DepotState} (haware : AwareState state) (config : DepotConfig)
    (now utcNow : ℚ) :
    buildOptimizationModel state config (some (.naive now)) utcNow = .error .typeError ↔
      (ReachesArrivals state config ∧ state.incomingVehicles ≠ []) ∨
        (ReachesPreconditioning state config ∧ state.preconditioningRequests ≠ []) :=
  ⟨reaches_of_typeError, typeError_of_reaches haware⟩

/-- **When an assembled state is built without the error.**  For every assembled state, the model that
`optimize` builds without a horizon start raises no naive/aware `TypeError` if and only if the builder
reaches no incoming vehicle and no preconditioning request: the state has none, or another check refuses
the inputs first. -/
theorem no_type_error_iff (env : Environment) (horizonHours : ℚ) (self self' : StateAssembler)
    (state : DepotState)
    (hcall : exec (getCurrentState env horizonHours) self = (.ok state, self')) (utcNow : ℚ) :
    optimizeModel state self'.config none utcNow ≠ .error .typeError ↔
      (ReachesArrivals state self'.config → state.incomingVehicles = []) ∧
        (ReachesPreconditioning state self'.config → state.preconditioningRequests = []) := by
  have hiff := build_eq_typeError_iff (awareState_of_ok hcall) self'.config utcNow utcNow
  rw [optimizeModel, Option.getD_none, ne_eq, hiff, not_or, not_and_not_right, not_and_not_right]

/-- What the builder says about the outcome of a call. -/
def buildError (outcome : Except AssemblyError DepotState × StateAssembler) (utcNow : ℚ) :
    Option (Option ModelError) :=
  match outcome with
  | (.ok state, self) =>
    match optimizeModel state self.config none utcNow with
    | .ok _ => some none
    | .error e => some (some e)
  | (.error _, _) => none

theorem exists_of_buildError {outcome : Except AssemblyError DepotState × StateAssembler} {utcNow : ℚ}
    {e : ModelError} (h : buildError outcome utcNow = some (some e)) :
    ∃ state self, outcome = (.ok state, self) ∧ optimizeModel state self.config none utcNow = .error e := by
  obtain ⟨result, self⟩ := outcome
  cases result with
  | error _ => cases h
  | ok state =>
    refine ⟨state, self, rfl, ?_⟩
    cases hbuild : optimizeModel state self.config none utcNow with
    | ok m =>
      simp only [buildError, hbuild] at h
      cases h
    | error e' =>
      simp only [buildError, hbuild] at h
      cases h
      rfl

def preconditioningRow : Vdv463Row where
  depotId := "depot"
  vehicleId := "bus_1"
  status := .active
  expectedArrival := some 0
  requestedDeparture := some (6 * 3600)
  minTargetSoc := none
  maxTargetSoc := none
  priority := none
  preconditioningType := some .manual
  preconditioningStart := some (5 * 3600)
  ambientTemperature := none
  requestedFinishTime := none
  hvacAuxPower := some 8000

def preconditioningEnvironment : Environment :=
  { idleEnvironment with vdv463Requests := some [preconditioningRow] }

/-- An assembly without handoffs and requests raises no such error. -/
theorem no_type_error_idle :
    ∃ state self', exec (getCurrentState idleEnvironment 24) (.init "depot" loadedConfig) =
        (.ok state, self') ∧
      optimizeModel state self'.config none 0 ≠ .error .typeError := by
  obtain ⟨state, self', hcall, _⟩ := exists_of_validation
    (show validation (exec (getCurrentState idleEnvironment 24)
      (StateAssembler.init "depot" loadedConfig)) = some (.ok ()) by decide +kernel)
  refine ⟨state, self', hcall, (no_type_error_iff _ _ _ _ state hcall 0).mpr ⟨?_, ?_⟩⟩
  · intro _
    obtain ⟨_, _, _, hfrom⟩ := assembled_of_ok hcall
    rw [hfrom.incoming]
    rfl
  · intro _
    obtain ⟨_, _, _, hfrom⟩ := assembled_of_ok hcall
    rw [hfrom.preconditioning]
    have hrequests := hfrom.requests_ok
    cases hrequests
    rfl

/-- A handoff in the horizon, and a request with preconditioning, each raise the `TypeError`. -/
theorem naive_start_fails :
    (∃ state self', exec (getCurrentState handoffEnvironment 24) (.init "depot" loadedConfig) =
        (.ok state, self') ∧
      optimizeModel state self'.config none 0 = .error .typeError) ∧
    ∃ state self', exec (getCurrentState preconditioningEnvironment 24) (.init "depot" loadedConfig) =
        (.ok state, self') ∧
      optimizeModel state self'.config none 0 = .error .typeError := by
  refine ⟨?_, ?_⟩
  · exact exists_of_buildError (by decide +kernel)
  · exact exists_of_buildError (by decide +kernel)

end FavoniusBackend.State.HorizonStart
