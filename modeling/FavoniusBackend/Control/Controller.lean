import Mathlib.Tactic.Linarith
import FavoniusBackend.Lib.Run

/-!
# The depot controller

`DepotController` starts optimization runs from two sides: `_handle_trigger`, which any number of
callers may await at once, and the control loop `run`, which looks once a minute whether an hourly run
is due.  Both await `run_optimization`.  Coroutines interleave at their awaits only, so one step of the
model is what one coroutine does between two awaits, and the order of the steps is arbitrary.

A run of `run_optimization` assembles the state and captures the snapshot, then tries to solve up to
three times.  A solve that raises is retried without being counted until the last attempt; whatever
raises after the solve is counted at every attempt.
-/

namespace FavoniusBackend.Control.Controller

/-! Instants and durations are in microseconds, the resolution of a `datetime`. -/

def second : ℤ := 1000000

def minute : ℤ := 60 * second

def hour : ℤ := 60 * minute

/-- `now.hour`, of an instant counted from a midnight. -/
def hourOf (now : ℤ) : ℤ := now / hour % 24

/-- The settings the controller itself reads. -/
structure ControllerConfig where
  hourlyOptimizationStart : ℤ := 7
  hourlyOptimizationEnd : ℤ := 23
  triggerCooldownMinutes : ℤ := 5
  maxOptimizationFailures : ℤ := 3

def maxRetries : ℕ := 2

/-- `retry_delay * (2**attempt)`, with `retry_delay` one second. -/
def retryDelay (attempt : ℕ) : ℤ := second * 2 ^ attempt

/-- What a run of `run_optimization` is waiting for. -/
inductive Phase where
  | assembling (attempt : ℕ)
  | assemblyBackoff (attempt : ℕ) (wakeAt : ℤ)
  | capturing
  | alerting
  | solving (attempt : ℕ)
  | backoff (attempt : ℕ) (wakeAt : ℤ)
  -- Storing the result, reconciling the alerts, linking the snapshot, dispatching the commands.
  | finishing (attempt : ℕ)
  deriving DecidableEq, Repr

inductive Caller where
  | trigger
  | controlLoop
  deriving DecidableEq, Repr

/-- A run of `run_optimization` under way. -/
structure OptimizationRun where
  caller : Caller
  phase : Phase
  deriving DecidableEq, Repr

inductive LoopPhase where
  | off
  -- Awaiting `_depot_exists_in_supabase`; `now` was read before.
  | checking (now : ℤ)
  | optimizing
  | sleeping (wakeAt : ℤ)
  deriving DecidableEq, Repr

/-- `_optimization_failures`, `_circuit_breaker_open` and `_circuit_breaker_reset_time`. -/
structure CircuitBreaker where
  failures : ℕ := 0
  isOpen : Bool := false
  resetTime : Option ℤ := none
  deriving DecidableEq, Repr

def CircuitBreaker.holds (b : CircuitBreaker) (now : ℤ) : Bool :=
  b.isOpen && b.resetTime.any fun t => decide (now < t)

/-- What a run did, as far as the circuit breaker is concerned. -/
inductive Mark where
  | solveStarted (breaker : CircuitBreaker) (time : ℤ)
  | failure
  | success
  | reset
  deriving DecidableEq, Repr

/-- The controller, its coroutines and, newest first, what it has done so far. -/
structure DepotController where
  now : ℤ
  breaker : CircuitBreaker := {}
  lastTriggerTime : Option ℤ := none
  lastRunTime : Option ℤ := none
  loop : LoopPhase := .off
  runs : List OptimizationRun := []
  log : List Mark := []
  deriving DecidableEq, Repr

def DepotController.init (now : ℤ) : DepotController := { now := now }

/-! ### The shared operations -/

/-- The run at position `i` goes on to wait for something else. -/
def DepotController.goOn (s : DepotController) (i : ℕ) (phase : Phase) : DepotController :=
  { s with runs := s.runs.modify i fun r => { r with phase := phase } }

/-- The run at position `i` returns or raises.  After an hourly run, and after any exception of it, the
control loop sleeps for a minute. -/
def DepotController.finish (s : DepotController) (i : ℕ) (caller : Caller) : DepotController :=
  { s with
    runs := s.runs.eraseIdx i
    loop := match caller with
      | .trigger => s.loop
      | .controlLoop => .sleeping (s.now + minute) }

/-- `run_optimization` up to its first await. -/
def DepotController.begin (s : DepotController) (caller : Caller) : DepotController :=
  { s with runs := s.runs ++ [{ caller := caller, phase := .assembling 0 }] }

/-- The run at position `i` hands the problem to the solver. -/
def DepotController.startSolve (s : DepotController) (i attempt : ℕ) : DepotController :=
  { s.goOn i (.solving attempt) with log := .solveStarted s.breaker s.now :: s.log }

/-- The failure counter and the circuit breaker of the outer `except Exception`. -/
def CircuitBreaker.count (cfg : ControllerConfig) (now : ℤ) (b : CircuitBreaker) : CircuitBreaker :=
  if cfg.maxOptimizationFailures ≤ (b.failures + 1 : ℕ) then
    { failures := b.failures + 1, isOpen := true, resetTime := some (now + 30 * minute) }
  else { b with failures := b.failures + 1 }

/-- The outer `except Exception`: the failure is counted, and the run waits for its next attempt or
raises. -/
def DepotController.fail (cfg : ControllerConfig) (s : DepotController) (i : ℕ) (caller : Caller)
    (attempt : ℕ) : DepotController :=
  let counted := { s with breaker := s.breaker.count cfg s.now, log := .failure :: s.log }
  if attempt < maxRetries then counted.goOn i (.backoff attempt (s.now + retryDelay attempt))
  else counted.finish i caller

def DepotController.clear (s : DepotController) (mark : Mark) : DepotController :=
  { s with breaker := {}, log := mark :: s.log }

/-! ### The coroutines -/

/-- `time_since_trigger < cooldown`. -/
def DepotController.coolingDown (cfg : ControllerConfig) (s : DepotController) : Bool :=
  s.lastTriggerTime.any fun t => decide (s.now - t < cfg.triggerCooldownMinutes * minute)

def DepotController.handleTrigger (cfg : ControllerConfig) (s : DepotController) : DepotController :=
  if s.coolingDown cfg then s
  else if s.breaker.holds s.now then s
  else
    let ready := if s.breaker.isOpen then s.clear .reset else s
    { ready with lastTriggerTime := some s.now }.begin .trigger

def DepotController.hourlyDue (cfg : ControllerConfig) (s : DepotController) (now : ℤ) : Bool :=
  decide (cfg.hourlyOptimizationStart ≤ hourOf now ∧ hourOf now ≤ cfg.hourlyOptimizationEnd) &&
    s.lastRunTime.all fun t => decide (hour < now - t)

def DepotController.depotChecked (cfg : ControllerConfig) (s : DepotController) (found : Bool) :
    DepotController :=
  match s.loop with
  | .checking now =>
    if !found then { s with loop := .off }
    else if s.hourlyDue cfg now then { s with loop := .optimizing }.begin .controlLoop
    else { s with loop := .sleeping (s.now + minute) }
  | _ => s

/-- How an await of a run ends. -/
inductive Reply where
  | returned
  -- The snapshot's readiness blocks the run.
  | notReady
  | raised
  -- Raised by a statement behind the one that resets the failure counter.
  | raisedAfterReset
  deriving DecidableEq, Repr

/-- A run of `run_optimization` from one await to the next.  A reply that the awaited call cannot give
changes nothing, nor does a sleep that is not over. -/
def DepotController.stepRun (cfg : ControllerConfig) (s : DepotController) (i : ℕ)
    (run : OptimizationRun) (reply : Reply) : DepotController :=
  match run.phase, reply with
  | .assembling _, .returned => { s.goOn i .capturing with lastRunTime := some s.now }
  | .assembling attempt, .raised =>
    if attempt < maxRetries then s.goOn i (.assemblyBackoff attempt (s.now + retryDelay attempt))
    else s.finish i run.caller
  | .assemblyBackoff attempt wakeAt, .returned =>
    if wakeAt ≤ s.now then s.goOn i (.assembling (attempt + 1)) else s
  | .capturing, .returned => s.startSolve i 0
  | .capturing, .notReady => s.goOn i .alerting
  | .capturing, .raised => s.finish i run.caller
  -- `_ReadinessBlockedError`, or whatever the alerts raise: neither is counted.
  | .alerting, .returned => s.finish i run.caller
  | .alerting, .raised => s.finish i run.caller
  | .solving attempt, .returned => { s.goOn i (.finishing attempt) with lastRunTime := some s.now }
  -- The inner `except` sleeps and continues; only at the last attempt does the outer one see it.
  | .solving attempt, .raised =>
    if attempt < maxRetries then s.goOn i (.backoff attempt (s.now + retryDelay attempt))
    else s.fail cfg i run.caller attempt
  | .backoff attempt wakeAt, .returned =>
    if wakeAt ≤ s.now then s.startSolve i (attempt + 1) else s
  | .finishing _, .returned => (s.clear .success).finish i run.caller
  | .finishing attempt, .raised => s.fail cfg i run.caller attempt
  | .finishing attempt, .raisedAfterReset => (s.clear .success).fail cfg i run.caller attempt
  | _, _ => s

/-! ### Runs of the controller -/

inductive Event where
  | advance (elapsed : ℕ)
  -- `_handle_trigger` is called.
  | trigger
  -- `run` is called.
  | startLoop
  -- The minute's sleep of the control loop is over.
  | wakeLoop
  | depotChecked (found : Bool)
  -- An await of the run at position `i` ends.
  | reply (i : ℕ) (reply : Reply)
  -- The caller of the run at position `i` is cancelled.
  | cancel (i : ℕ)
  -- `stop` or `stop_async`: the control loop is cancelled with the run it awaits.
  | stop
  deriving DecidableEq, Repr

def step (cfg : ControllerConfig) (s : DepotController) : Event → DepotController
  | .advance elapsed => { s with now := s.now + elapsed }
  | .trigger => s.handleTrigger cfg
  | .startLoop => if s.loop = .off then { s with loop := .checking s.now } else s
  | .wakeLoop =>
    match s.loop with
    | .sleeping wakeAt => if wakeAt ≤ s.now then { s with loop := .checking s.now } else s
    | _ => s
  | .depotChecked found => s.depotChecked cfg found
  | .reply i reply =>
    match s.runs[i]? with
    | some run => s.stepRun cfg i run reply
    | none => s
  | .cancel i =>
    match s.runs[i]? with
    | some { caller := .trigger, .. } => { s with runs := s.runs.eraseIdx i }
    | _ => s
  | .stop =>
    { s with loop := .off, runs := s.runs.filter fun r => decide (r.caller ≠ .controlLoop) }

def run (cfg : ControllerConfig) (s : DepotController) (events : List Event) : DepotController :=
  Lib.Run.run (step cfg) s events

end FavoniusBackend.Control.Controller
