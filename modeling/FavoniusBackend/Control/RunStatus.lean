import FavoniusBackend.Control.Controller
import FavoniusBackend.State.Readiness

/-!
# The status of an optimization run

Three modules have a say in the status stored in `optimization_runs`.  `evaluate_readiness` says whether the inputs are
degraded, `optimize` gives the result its status, and `run_optimization` replaces that status by `degraded` when the inputs
are and the result says `optimal` or `feasible`.

Every result of `optimize` says `completed` (`status_of_optimize`), through the pool as well as in a thread, so the last
step never applies and no row is stored as degraded (`status_of_stored`).
-/

namespace FavoniusBackend.Control.RunStatus

open Lib Lib.Guard Optimizer.Models
open State.Assembler State.Readiness
open Control.Controller (maxRetries)

/-! ### The solve -/

/-- The values of `OptimizationResult.status`. -/
inductive Status
  | optimal
  | feasible
  | completed
  | degraded
  | infeasible
  | timeout
  deriving DecidableEq, Repr

inductive SolveError
  | invalidState
  | invalidConfig
  | optimization
  | poolNotStarted
  | solverTimeout
  | poolBroken
  deriving DecidableEq, Repr

/-- A result: its status and, as `Plan`, everything else. -/
structure OptimizationResult (Plan : Type) where
  plan : Plan
  status : Status
  deriving DecidableEq

variable {Plan : Type}

/-- How the parts of a solve end: `build_optimization_model`, `solve_model` and `_validate_solution`. -/
structure SolveParts (Plan : Type) where
  built : Except SolveError Unit
  solved : Except SolveError Plan
  validated : Except SolveError Unit

def optimize (parts : SolveParts Plan) : Except SolveError (OptimizationResult Plan) := do
  parts.built
  let plan ← parts.solved
  parts.validated
  return ⟨plan, .completed⟩

/-- What comes back from an attempt of the pool. -/
inductive WorkerReply (Plan : Type)
  | finished (parts : SolveParts Plan)
  | brokenPool
  | timeout

/-- `SolverPool.solve`: a broken pool and a timeout are tried once more. -/
def poolSolve (first second : WorkerReply Plan) : Except SolveError (OptimizationResult Plan) :=
  match first with
  | .finished parts => optimize parts
  | .brokenPool | .timeout =>
    match second with
    | .finished parts => optimize parts
    | .brokenPool => .error .poolBroken
    | .timeout => .error .solverTimeout

inductive SolverCall (Plan : Type)
  | toThread (parts : SolveParts Plan)
  | notStarted
  | pool (first second : WorkerReply Plan)

def SolverCall.result : SolverCall Plan → Except SolveError (OptimizationResult Plan)
  | .toThread parts => optimize parts
  | .notStarted => .error .poolNotStarted
  | .pool first second => poolSolve first second

theorem status_of_optimize {parts : SolveParts Plan} {result : OptimizationResult Plan}
    (h : optimize parts = .ok result) : result.status = .completed := by
  unfold optimize at h
  obtain ⟨_, _, h⟩ := (bind_eq_ok _ _ _).mp h
  obtain ⟨plan, _, h⟩ := (bind_eq_ok _ _ _).mp h
  obtain ⟨_, _, h⟩ := (bind_eq_ok _ _ _).mp h
  cases h
  rfl

/-- **Every result says completed.** -/
theorem status_of_result {call : SolverCall Plan} {result : OptimizationResult Plan} (h : call.result = .ok result) :
    result.status = .completed := by
  cases call with
  | toThread parts => exact status_of_optimize h
  | notStarted => cases h
  | pool first second =>
    cases first with
    | finished parts => exact status_of_optimize h
    | brokenPool =>
      cases second with
      | finished parts => exact status_of_optimize h
      | brokenPool => cases h
      | timeout => cases h
    | timeout =>
      cases second with
      | finished parts => exact status_of_optimize h
      | brokenPool => cases h
      | timeout => cases h

/-! ### The readiness of a run -/

/-- What raises while the snapshot is taken. -/
inductive CaptureFailure
  | evaluating
  | building
  deriving DecidableEq, Repr

section Readiness

variable (config : DepotConfig) (state : DepotState) (buildingLoadSource : BuildingLoadSource) (schedulesPresent : Bool)

/-- The readiness of the snapshot of `_capture_snapshot`, with the stub of `_stub_snapshot` where it fails. -/
def capturedReadiness : Option CaptureFailure → ReadinessStatus
  | none => (evaluateReadiness config state buildingLoadSource schedulesPresent).status
  | some .evaluating => .degraded
  | some .building =>
    match (evaluateReadiness config state buildingLoadSource schedulesPresent).status with
    | .notReady => .notReady
    | _ => .degraded

/-- An input is replaced by an assumption: the building load comes from anywhere but the meter, or every SoC is the default
one. -/
def Assumes : Prop := buildingLoadSource ≠ .meter ∨ (defaultedTelemetry state).isSome

/-- The run goes on with degraded inputs: nothing is missing and something is assumed, or the snapshot failed. -/
def RunsDegraded : Option CaptureFailure → Prop
  | none => missingInputs config state schedulesPresent = [] ∧ Assumes state buildingLoadSource
  | some .evaluating => True
  | some .building => missingInputs config state schedulesPresent = []

theorem status_eq_degraded_iff :
    (evaluateReadiness config state buildingLoadSource schedulesPresent).status = .degraded ↔
      missingInputs config state schedulesPresent = [] ∧ Assumes state buildingLoadSource := by
  have hassumes : ((buildingLoadDegradation config buildingLoadSource).map Prod.fst).toList ++
      ((defaultedTelemetry state).map fun _ => DegradedReason.telemetryAllDefaulted).toList ≠ [] ↔
        Assumes state buildingLoadSource := by
    cases buildingLoadSource <;> cases htelemetry : defaultedTelemetry state <;>
      simp [buildingLoadDegradation, Assumes, htelemetry]
  rw [← hassumes]
  simp only [evaluateReadiness]
  by_cases hmissing : missingInputs config state schedulesPresent = []
  · rw [if_neg (not_not.mpr hmissing)]
    split
    next hdegraded => exact ⟨fun _ => ⟨hmissing, hdegraded⟩, fun _ => rfl⟩
    next hready => exact ⟨fun h => (nomatch h), fun h => absurd h.2 hready⟩
  · rw [if_pos hmissing]
    exact ⟨fun h => (nomatch h), fun h => absurd h.1 hmissing⟩

theorem status_eq_notReady_iff :
    (evaluateReadiness config state buildingLoadSource schedulesPresent).status = .notReady ↔
      missingInputs config state schedulesPresent ≠ [] := by
  simp only [evaluateReadiness]
  split
  next hmissing => exact ⟨fun _ => hmissing, fun _ => rfl⟩
  next hnone =>
    refine ⟨fun h => ?_, fun h => absurd h hnone⟩
    split at h
    · cases h
    · cases h

/-- **When the inputs of a run are degraded.** -/
theorem capturedReadiness_eq_degraded_iff (failure : Option CaptureFailure) :
    capturedReadiness config state buildingLoadSource schedulesPresent failure = .degraded ↔
      RunsDegraded config state buildingLoadSource schedulesPresent failure := by
  match failure with
  | none => exact status_eq_degraded_iff config state buildingLoadSource schedulesPresent
  | some .evaluating => exact ⟨fun _ => trivial, fun _ => rfl⟩
  | some .building =>
    have hnot := status_eq_notReady_iff config state buildingLoadSource schedulesPresent
    show (match (evaluateReadiness config state buildingLoadSource schedulesPresent).status with
      | .notReady => ReadinessStatus.notReady
      | _ => .degraded) = .degraded ↔ missingInputs config state schedulesPresent = []
    cases hstatus : (evaluateReadiness config state buildingLoadSource schedulesPresent).status with
    | notReady => exact ⟨fun h => (nomatch h), fun h => absurd h (hnot.mp hstatus)⟩
    | ready =>
      rw [hstatus] at hnot
      exact ⟨fun _ => not_not.mp fun hne => (nomatch hnot.mpr hne), fun _ => rfl⟩
    | degraded =>
      rw [hstatus] at hnot
      exact ⟨fun _ => not_not.mp fun hne => (nomatch hnot.mpr hne), fun _ => rfl⟩

end Readiness

/-! ### The run -/

/-- One round of the retry loop: the solver, whether storing the result raises, and whether anything behind it does. -/
structure Attempt (Plan : Type) where
  call : SolverCall Plan
  storeRaises : Bool
  laterRaises : Bool

def label (readiness : ReadinessStatus) (result : OptimizationResult Plan) : OptimizationResult Plan :=
  if readiness = .degraded ∧ (result.status = .optimal ∨ result.status = .feasible) then
    { result with status := .degraded }
  else result

/-- The rows written to `optimization_runs`, and the result returned if any. -/
structure RunOutcome (Plan : Type) where
  stored : List (OptimizationResult Plan)
  returned : Option (OptimizationResult Plan)

/-- The retry loop.  A result that could not be stored is used all the same; what raises behind it starts the next
attempt. -/
def runAttempts (readiness : ReadinessStatus) : List (Attempt Plan) → RunOutcome Plan
  | [] => ⟨[], none⟩
  | attempt :: rest =>
    match attempt.call.result with
    | .error _ => runAttempts readiness rest
    | .ok result =>
      let labelled := label readiness result
      let rows := if attempt.storeRaises then [] else [labelled]
      if attempt.laterRaises then
        let later := runAttempts readiness rest
        ⟨rows ++ later.stored, later.returned⟩
      else ⟨rows, some labelled⟩

/-- `run_optimization` on an assembled state. -/
def runOptimization (config : DepotConfig) (state : DepotState) (buildingLoadSource : BuildingLoadSource)
    (schedulesPresent : Bool) (failure : Option CaptureFailure) (attempts : ℕ → Attempt Plan) : RunOutcome Plan :=
  let readiness := capturedReadiness config state buildingLoadSource schedulesPresent failure
  if readiness = .notReady then ⟨[], none⟩
  else runAttempts readiness ((List.range (maxRetries + 1)).map attempts)

theorem label_eq_self {readiness : ReadinessStatus} {result : OptimizationResult Plan}
    (h : result.status = .completed) : label readiness result = result := by
  apply if_neg
  rintro ⟨_, hstatus⟩
  rw [h] at hstatus
  cases hstatus with
  | inl hoptimal => cases hoptimal
  | inr hfeasible => cases hfeasible

theorem status_of_runAttempts (readiness : ReadinessStatus) (attempts : List (Attempt Plan)) :
    ∀ row ∈ (runAttempts readiness attempts).stored, row.status = .completed := by
  induction attempts with
  | nil =>
    intro row hrow
    cases hrow
  | cons attempt rest ih =>
    intro row hrow
    unfold runAttempts at hrow
    cases hcall : attempt.call.result with
    | error e =>
      simp only [hcall] at hrow
      exact ih row hrow
    | ok result =>
      have hstatus := status_of_result hcall
      have hown : ∀ row ∈ (if attempt.storeRaises then [] else [label readiness result]),
          row.status = .completed := by
        intro row hmem
        split at hmem
        · cases hmem
        · obtain rfl := List.mem_singleton.mp hmem
          rw [label_eq_self hstatus]
          exact hstatus
      simp only [hcall] at hrow
      split at hrow
      · rcases List.mem_append.mp hrow with hrow | hrow
        · exact hown row hrow
        · exact ih row hrow
      · exact hown row hrow

section Run

variable (config : DepotConfig) (state : DepotState) (buildingLoadSource : BuildingLoadSource) (schedulesPresent : Bool)
  (failure : Option CaptureFailure) (attempts : ℕ → Attempt Plan)

/-- **What is stored**: every row says completed. -/
theorem status_of_stored :
    ∀ row ∈ (runOptimization config state buildingLoadSource schedulesPresent failure attempts).stored,
      row.status = .completed := by
  intro row hrow
  simp only [runOptimization] at hrow
  split at hrow
  · cases hrow
  · exact status_of_runAttempts _ _ row hrow

/-- **The label of a stored run** says whether its inputs were degraded exactly when they were not. -/
theorem stored_degraded_iff :
    ∀ row ∈ (runOptimization config state buildingLoadSource schedulesPresent failure attempts).stored,
      ((row.status = .degraded ↔
          capturedReadiness config state buildingLoadSource schedulesPresent failure = .degraded) ↔
        ¬ RunsDegraded config state buildingLoadSource schedulesPresent failure) := by
  intro row hrow
  have hstatus := status_of_stored config state buildingLoadSource schedulesPresent failure attempts row hrow
  have hnot : row.status ≠ .degraded := by
    rw [hstatus]
    exact nofun
  rw [capturedReadiness_eq_degraded_iff]
  exact ⟨fun hiff hruns => hnot (hiff.mpr hruns), fun hready => ⟨fun h => absurd h hnot, fun h => absurd h hready⟩⟩

end Run

def meteredConfig : DepotConfig where
  vehicleCapacities := Dict.ofList [("bus_1", 324)]
  vehicleMaxChargeKw := Dict.ofList [("bus_1", 80)]
  chargerGroups := Dict.ofList [(80, 1)]
  chargerEfficiency := 19 / 20
  chargerVehicleAccess := Dict.empty
  batteryCapacity := 0
  batteryPower := 0
  chargerVehicleAccessDefault := .allToAll

def meteredState : DepotState where
  vehicleSocs := Dict.ofList [("bus_1", 7 / 10)]
  batterySoc := 1 / 2
  prices := [0]
  demandChargeRate := 0
  currentMonthPeak := 0
  vehicleAvailability := Dict.ofList [("bus_1", [true])]
  energyRequirements := Dict.empty
  departureTimes := Dict.empty
  buildingPower := [0]

def solvedAtOnce : ℕ → Attempt Unit := fun _ => ⟨.toThread ⟨.ok (), .ok (), .ok ()⟩, false, false⟩

/-- With the meter's building load the run is neither degraded nor labelled so. -/
theorem stored_degraded_iff_metered :
    (runOptimization meteredConfig meteredState .meter true none solvedAtOnce).stored = [⟨(), .completed⟩] ∧
      ((Status.completed = .degraded ↔ capturedReadiness meteredConfig meteredState .meter true none = .degraded) ↔
        ¬ RunsDegraded meteredConfig meteredState .meter true none) := by
  have hstored : (runOptimization meteredConfig meteredState .meter true none solvedAtOnce).stored =
      [⟨(), .completed⟩] := by decide +kernel
  refine ⟨hstored, ?_⟩
  exact stored_degraded_iff meteredConfig meteredState .meter true none solvedAtOnce ⟨(), .completed⟩
    (by rw [hstored]; exact List.mem_singleton.mpr rfl)

/-- With a forecast in place of the meter the run is degraded and stored as completed. -/
theorem stored_completed_forecast :
    capturedReadiness meteredConfig meteredState .forecastFallback true none = .degraded ∧
      ∃ row ∈ (runOptimization meteredConfig meteredState .forecastFallback true none solvedAtOnce).stored,
        ¬ (row.status = .degraded ↔
          capturedReadiness meteredConfig meteredState .forecastFallback true none = .degraded) := by
  have hdegraded : capturedReadiness meteredConfig meteredState .forecastFallback true none = .degraded := by
    decide +kernel
  have hstored : (runOptimization meteredConfig meteredState .forecastFallback true none solvedAtOnce).stored =
      [⟨(), .completed⟩] := by decide +kernel
  refine ⟨hdegraded, ⟨(), .completed⟩, ?_, ?_⟩
  · rw [hstored]
    exact List.mem_singleton.mpr rfl
  · intro hiff
    cases hiff.mpr hdegraded

end FavoniusBackend.Control.RunStatus
