import Mathlib.Tactic.Linarith
import Mathlib.Tactic.Positivity
import FavoniusBackend.Lib.Run

/-!
# The breaker of the message handlers under overlapping calls

`EnhancedCircuitBreaker` of `websocket_handler/enhanced_error_handler.py`.  A call runs without a pause until it awaits the
protected function, and again from the function's end on, so a run is a list of `Event`s: a call arrives, or the function
of a call ends.  Times are in microseconds; each event says how long it was waited for.

The breaker opens by its count of failures, in the half-open state too, and a success resets the count while the breaker is
open.  A probe that fails after such a success leaves the breaker half open, and a probe that succeeds after another one
has failed leaves it open.  `along_sound_iff` says that nothing else goes wrong.
-/

namespace FavoniusBackend.Resilience

open Lib.Run

/-! ## The breaker -/

structure CircuitBreakerConfig where
  failureThreshold : ℤ
  recoveryTimeout : ℚ
  halfOpenMaxCalls : ℤ

def CircuitBreakerConfig.default : CircuitBreakerConfig := ⟨5, 60, 3⟩

inductive CircuitBreakerState where
  | closed
  | opened
  | halfOpen
  deriving DecidableEq, Repr

structure EnhancedCircuitBreaker where
  state : CircuitBreakerState
  failureCount : ℕ
  successCount : ℕ
  lastFailureTime : Option ℤ
  halfOpenCalls : ℕ
  deriving DecidableEq, Repr

def EnhancedCircuitBreaker.init : EnhancedCircuitBreaker := ⟨.closed, 0, 0, none, 0⟩

def totalSeconds (later earlier : ℤ) : ℚ := ((later - earlier : ℤ) : ℚ) / 1000000

/-- How the protected function ends; `expected` says whether the exception is one of `expected_exceptions`. -/
inductive Outcome where
  | returned
  | raised (expected : Bool)
  deriving DecidableEq, Repr

section Breaker

variable (cfg : CircuitBreakerConfig) (b : EnhancedCircuitBreaker)

def shouldAttemptReset (now : ℤ) : Bool :=
  match b.lastFailureTime with
  | none => true
  | some last => decide (cfg.recoveryTimeout ≤ totalSeconds now last)

/-- The second check of `call`; the other component says whether the protected function is started. -/
def checkHalfOpen (now' : ℤ) : EnhancedCircuitBreaker × Bool :=
  if b.state = .halfOpen then
    if cfg.halfOpenMaxCalls ≤ b.halfOpenCalls then ({ b with state := .opened, lastFailureTime := some now' }, false)
    else ({ b with halfOpenCalls := b.halfOpenCalls + 1 }, true)
  else (b, true)

/-- `call` up to the protected function, with the two times that it may read. -/
def callStart (now now' : ℤ) : EnhancedCircuitBreaker × Bool :=
  if b.state = .opened then
    if shouldAttemptReset cfg b now then checkHalfOpen cfg { b with state := .halfOpen, halfOpenCalls := 0 } now'
    else (b, false)
  else checkHalfOpen cfg b now'

def onSuccess : EnhancedCircuitBreaker :=
  let b := { b with failureCount := 0, successCount := b.successCount + 1 }
  if b.state = .halfOpen then { b with state := .closed, halfOpenCalls := 0 } else b

def onFailure (now : ℤ) : EnhancedCircuitBreaker :=
  let b := { b with failureCount := b.failureCount + 1, successCount := 0, lastFailureTime := some now }
  if cfg.failureThreshold ≤ b.failureCount then { b with state := .opened } else b

/-- `call` from the end of the protected function on. -/
def callEnd (outcome : Outcome) (now : ℤ) : EnhancedCircuitBreaker :=
  match outcome with
  | .returned => onSuccess b
  | .raised true => onFailure cfg b now
  | .raised false => b

end Breaker

/-! ## Overlapping calls -/

/-- The breaker with the calls whose function runs, by whether they were started as probes, and with what happened:
how functions ended, the latest first, the time of the last expected failure, and the functions started in the
half-open phase. -/
structure World where
  breaker : EnhancedCircuitBreaker
  now : ℤ
  calls : ℕ → Option Bool
  outcomes : List Outcome
  lastFailure : Option ℤ
  phaseCalls : ℕ

def World.start (now : ℤ) : World := ⟨.init, now, fun _ => none, [], none, 0⟩

/-- A call that arrives may wait before each of the two times it reads. -/
inductive Event where
  | call (id : ℕ) (wait wait' : ℕ)
  | finish (id : ℕ) (outcome : Outcome) (wait : ℕ)
  deriving Repr

def countProbe (before after : CircuitBreakerState) (probes : ℕ) : ℕ :=
  if after = .halfOpen then (if before = .halfOpen then probes + 1 else 1) else probes

/-- One event; a call that is under way does not arrive again, and one that is not does not end. -/
def step (cfg : CircuitBreakerConfig) (w : World) : Event → World
  | .call id wait wait' =>
    if (w.calls id).isSome then w
    else
      let entered := callStart cfg w.breaker (w.now + wait) (w.now + wait + wait')
      let w' := { w with breaker := entered.1, now := w.now + wait + wait' }
      if entered.2 then
        { w' with
          calls := Function.update w.calls id (some (entered.1.state = .halfOpen))
          phaseCalls := countProbe w.breaker.state entered.1.state w.phaseCalls }
      else w'
  | .finish id outcome wait =>
    if (w.calls id).isSome then
      { w with
        breaker := callEnd cfg w.breaker outcome (w.now + wait)
        now := w.now + wait
        calls := Function.update w.calls id none
        outcomes := outcome :: w.outcomes
        lastFailure := if outcome = .raised true then some (w.now + wait) else w.lastFailure }
    else w

/-- The functions that ended with an expected failure since the last one that succeeded. -/
def consecutiveFailures : List Outcome → ℕ
  | [] => 0
  | .returned :: _ => 0
  | .raised true :: outcomes => consecutiveFailures outcomes + 1
  | .raised false :: outcomes => consecutiveFailures outcomes

/-! ## What is meant -/

def Starts (cfg : CircuitBreakerConfig) (w : World) : Event → ℤ → Prop
  | .call id wait wait', time => w.calls id = none ∧ time = w.now + wait ∧
      (callStart cfg w.breaker (w.now + wait) (w.now + wait + wait')).2 = true
  | .finish _ _ _, _ => False

def ProbeEnds (w : World) (outcome : Outcome) : Event → Prop
  | .call _ _ _ => False
  | .finish id outcome' _ => w.calls id = some true ∧ outcome' = outcome

structure Sound (cfg : CircuitBreakerConfig) (w : World) (e : Event) : Prop where
  notWhileOpen : ∀ time, Starts cfg w e time → w.breaker.state = .opened → ∀ last ∈ w.lastFailure,
    cfg.recoveryTimeout ≤ totalSeconds time last
  startedOutside : ∀ time, Starts cfg w e time → (step cfg w e).breaker.state ≠ .opened
  probes : ∀ time, Starts cfg w e time → (step cfg w e).breaker.state = .halfOpen →
    (step cfg w e).phaseCalls ≤ cfg.halfOpenMaxCalls
  failedProbe : ProbeEnds w (.raised true) e → (step cfg w e).breaker.state = .opened
  successfulProbe : ProbeEnds w .returned e → (step cfg w e).breaker.state = .closed
  leavesClosed : w.breaker.state = .closed → (step cfg w e).breaker.state ≠ .closed →
    cfg.failureThreshold ≤ consecutiveFailures (step cfg w e).outcomes

/-- No probe succeeds while the breaker is open, and one that fails does so while the breaker is open, or as the last of
enough expected failures without a success in between. -/
def ProbeInTime (cfg : CircuitBreakerConfig) (w : World) (e : Event) : Prop :=
  (ProbeEnds w .returned e → w.breaker.state ≠ .opened) ∧
    (ProbeEnds w (.raised true) e →
      w.breaker.state = .opened ∨ cfg.failureThreshold ≤ consecutiveFailures w.outcomes + 1)

/-! ## The invariant -/

/-- The code's counters count what they are meant to, and its time of a failure is not before the last one. -/
structure Counted (w : World) : Prop where
  failures : w.breaker.failureCount = consecutiveFailures w.outcomes
  probes : w.breaker.state = .halfOpen → w.breaker.halfOpenCalls = w.phaseCalls
  last : ∀ last ∈ w.lastFailure, ∃ time ∈ w.breaker.lastFailureTime, last ≤ time
  past : ∀ time ∈ w.breaker.lastFailureTime, time ≤ w.now

theorem counted_start (now : ℤ) : Counted (.start now) where
  failures := rfl
  probes := nofun
  last := nofun
  past := nofun

/-- What a call that arrives may do to the breaker. -/
inductive Entered (cfg : CircuitBreakerConfig) (b : EnhancedCircuitBreaker) (now now' : ℤ) :
    EnhancedCircuitBreaker × Bool → Prop where
  | refused (hstate : b.state = .opened) : Entered cfg b now now' (b, false)
  | overflow (hstate : b.state ≠ .closed) (calls : ℕ) : Entered cfg b now now'
      ({ b with state := .opened, lastFailureTime := some now', halfOpenCalls := calls }, false)
  | first (hstate : b.state = .opened) (hreset : shouldAttemptReset cfg b now = true) (hroom : 1 ≤ cfg.halfOpenMaxCalls) :
      Entered cfg b now now' ({ b with state := .halfOpen, halfOpenCalls := 1 }, true)
  | probe (hstate : b.state = .halfOpen) (hroom : (b.halfOpenCalls + 1 : ℕ) ≤ cfg.halfOpenMaxCalls) :
      Entered cfg b now now' ({ b with halfOpenCalls := b.halfOpenCalls + 1 }, true)
  | through (hstate : b.state = .closed) : Entered cfg b now now' (b, true)

theorem callStart_entered (cfg : CircuitBreakerConfig) (b : EnhancedCircuitBreaker) (now now' : ℤ) :
    Entered cfg b now now' (callStart cfg b now now') := by
  unfold callStart
  cases hstate : b.state with
  | closed =>
    rw [if_neg (by decide), checkHalfOpen, if_neg (by rw [hstate]; decide)]
    exact .through hstate
  | opened =>
    rw [if_pos rfl]
    cases hreset : shouldAttemptReset cfg b now with
    | false => exact .refused hstate
    | true =>
      rw [if_pos rfl, checkHalfOpen, if_pos rfl]
      split
      · exact .overflow (by rw [hstate]; decide) 0
      · rename_i hroom
        exact .first hstate hreset (Int.not_le.mp hroom)
  | halfOpen =>
    rw [if_neg (by decide), checkHalfOpen, if_pos hstate]
    split
    · exact .overflow (by rw [hstate]; decide) b.halfOpenCalls
    · rename_i hroom
      exact .probe hstate (Int.not_le.mp hroom)

/-! ## One event -/

section Step

variable {cfg : CircuitBreakerConfig} {w : World}

theorem step_call {id wait wait' : ℕ} (hnew : w.calls id = none) :
    step cfg w (.call id wait wait') =
      let entered := callStart cfg w.breaker (w.now + wait) (w.now + wait + wait')
      let w' := { w with breaker := entered.1, now := w.now + wait + wait' }
      if entered.2 then
        { w' with
          calls := Function.update w.calls id (some (entered.1.state = .halfOpen))
          phaseCalls := countProbe w.breaker.state entered.1.state w.phaseCalls }
      else w' := by
  rw [step, hnew]
  rfl

theorem step_call_of_some {id wait wait' : ℕ} {probe : Bool} (h : w.calls id = some probe) :
    step cfg w (.call id wait wait') = w := by
  rw [step, h]
  rfl

theorem step_finish {id wait : ℕ} {outcome : Outcome} {probe : Bool} (h : w.calls id = some probe) :
    step cfg w (.finish id outcome wait) =
      { w with
        breaker := callEnd cfg w.breaker outcome (w.now + wait)
        now := w.now + wait
        calls := Function.update w.calls id none
        outcomes := outcome :: w.outcomes
        lastFailure := if outcome = .raised true then some (w.now + wait) else w.lastFailure } := by
  rw [step, h]
  rfl

theorem step_finish_of_none {id wait : ℕ} {outcome : Outcome} (h : w.calls id = none) :
    step cfg w (.finish id outcome wait) = w := by
  rw [step, h]
  rfl

theorem Entered.lastFailureTime {b : EnhancedCircuitBreaker} {now now' : ℤ} {entered : EnhancedCircuitBreaker × Bool}
    (h : Entered cfg b now now' entered) :
    entered.1.lastFailureTime = b.lastFailureTime ∨ entered.1.lastFailureTime = some now' := by
  cases h with
  | overflow => exact .inr rfl
  | refused => exact .inl rfl
  | first => exact .inl rfl
  | probe => exact .inl rfl
  | through => exact .inl rfl

theorem Entered.failureCount {b : EnhancedCircuitBreaker} {now now' : ℤ} {entered : EnhancedCircuitBreaker × Bool}
    (h : Entered cfg b now now' entered) : entered.1.failureCount = b.failureCount := by
  cases h with
  | overflow => rfl
  | refused => rfl
  | first => rfl
  | probe => rfl
  | through => rfl

theorem onSuccess_eq (b : EnhancedCircuitBreaker) :
    onSuccess b = { b with
      state := if b.state = .halfOpen then .closed else b.state
      failureCount := 0
      successCount := b.successCount + 1
      halfOpenCalls := if b.state = .halfOpen then 0 else b.halfOpenCalls } := by
  unfold onSuccess
  by_cases h : b.state = .halfOpen
  · simp only [if_pos h]
  · simp only [if_neg h]

theorem onFailure_eq (b : EnhancedCircuitBreaker) (now : ℤ) :
    onFailure cfg b now = { b with
      state := if cfg.failureThreshold ≤ b.failureCount + 1 then .opened else b.state
      failureCount := b.failureCount + 1
      successCount := 0
      lastFailureTime := some now } := by
  unfold onFailure
  push_cast
  by_cases h : cfg.failureThreshold ≤ b.failureCount + 1
  · simp only [if_pos h]
  · simp only [if_neg h]

theorem Counted.times {b : EnhancedCircuitBreaker} {now : ℤ} (hinv : Counted w) (hnow : w.now ≤ now)
    (h : b.lastFailureTime = w.breaker.lastFailureTime ∨ b.lastFailureTime = some now) :
    (∀ last ∈ w.lastFailure, ∃ time ∈ b.lastFailureTime, last ≤ time) ∧ ∀ time ∈ b.lastFailureTime, time ≤ now := by
  rcases h with hsame | hnew
  · rw [hsame]
    exact ⟨hinv.last, fun time htime => (hinv.past time htime).trans hnow⟩
  · rw [hnew]
    refine ⟨fun last hlast => ?_, fun time htime => (Option.mem_some_iff.mp htime).ge⟩
    obtain ⟨time, htime, hle⟩ := hinv.last last hlast
    exact ⟨now, rfl, hle.trans ((hinv.past time htime).trans hnow)⟩

theorem counted_call (hinv : Counted w) (id wait wait' : ℕ) : Counted (step cfg w (.call id wait wait')) := by
  cases hnew : w.calls id with
  | some probe =>
    rw [step_call_of_some hnew]
    exact hinv
  | none =>
    rw [step_call hnew]
    have hentered := callStart_entered cfg w.breaker (w.now + wait) (w.now + wait + wait')
    have htimes := hinv.times (by omega : w.now ≤ w.now + wait + wait') hentered.lastFailureTime
    have hfailures := hentered.failureCount.trans hinv.failures
    generalize callStart cfg w.breaker (w.now + wait) (w.now + wait + wait') = entered at *
    cases hentered with
    | refused hstate =>
      exact ⟨hfailures, fun h => (nomatch h.symm.trans hstate), htimes.1, htimes.2⟩
    | overflow hstate calls => exact ⟨hfailures, nofun, htimes.1, htimes.2⟩
    | first hstate hreset hroom =>
      refine ⟨hfailures, fun _ => ?_, htimes.1, htimes.2⟩
      show 1 = countProbe w.breaker.state .halfOpen w.phaseCalls
      rw [hstate]
      rfl
    | probe hstate hroom =>
      refine ⟨hfailures, fun _ => ?_, htimes.1, htimes.2⟩
      show w.breaker.halfOpenCalls + 1 = countProbe w.breaker.state w.breaker.state w.phaseCalls
      rw [countProbe, if_pos hstate, if_pos hstate, hinv.probes hstate]
    | through hstate =>
      exact ⟨hfailures, fun h => (nomatch h.symm.trans hstate), htimes.1, htimes.2⟩

theorem counted_finish (hinv : Counted w) (id : ℕ) (outcome : Outcome) (wait : ℕ) :
    Counted (step cfg w (.finish id outcome wait)) := by
  cases hcall : w.calls id with
  | none =>
    rw [step_finish_of_none hcall]
    exact hinv
  | some probe =>
    rw [step_finish hcall]
    have hnow : w.now ≤ w.now + wait := by omega
    match outcome with
    | .returned =>
      obtain ⟨hlast, hpast⟩ := @Counted.times w w.breaker (w.now + wait) hinv hnow (.inl rfl)
      rw [callEnd, onSuccess_eq]
      refine ⟨rfl, fun h => ?_, hlast, hpast⟩
      dsimp only at h
      split at h
      · exact nomatch h
      · rename_i hstate
        exact absurd h hstate
    | .raised true =>
      rw [callEnd, onFailure_eq]
      refine ⟨congrArg (· + 1) hinv.failures, fun h => ?_, fun last hlast => ?_, fun time htime => ?_⟩
      · dsimp only at h
        split at h
        · exact nomatch h
        · exact hinv.probes h
      · exact ⟨w.now + wait, rfl, (Option.mem_some_iff.mp hlast).ge⟩
      · exact (Option.mem_some_iff.mp htime).ge
    | .raised false =>
      obtain ⟨hlast, hpast⟩ := @Counted.times w w.breaker (w.now + wait) hinv hnow (.inl rfl)
      exact ⟨hinv.failures, hinv.probes, hlast, hpast⟩

theorem counted_step (hinv : Counted w) (e : Event) : Counted (step cfg w e) := by
  cases e with
  | call id wait wait' => exact counted_call hinv id wait wait'
  | finish id outcome wait => exact counted_finish hinv id outcome wait

theorem Counted.waited (hinv : Counted w) {now last : ℤ} (hlast : last ∈ w.lastFailure)
    (hreset : shouldAttemptReset cfg w.breaker now = true) : cfg.recoveryTimeout ≤ totalSeconds now last := by
  obtain ⟨time, htime, hle⟩ := hinv.last last hlast
  rw [shouldAttemptReset, Option.mem_def.mp htime] at hreset
  refine (of_decide_eq_true hreset).trans ?_
  unfold totalSeconds
  have hsub : ((now - time : ℤ) : ℚ) ≤ ((now - last : ℤ) : ℚ) := Int.cast_le.mpr (by omega)
  linarith

theorem Entered.reset {b : EnhancedCircuitBreaker} {now now' : ℤ} {entered : EnhancedCircuitBreaker × Bool}
    (h : Entered cfg b now now' entered) (hstarted : entered.2 = true) (hopened : b.state = .opened) :
    shouldAttemptReset cfg b now = true := by
  cases h with
  | refused => exact nomatch hstarted
  | overflow => exact nomatch hstarted
  | first _ hreset => exact hreset
  | probe hstate => exact nomatch hopened.symm.trans hstate
  | through hstate => exact nomatch hopened.symm.trans hstate

theorem Entered.started {b : EnhancedCircuitBreaker} {now now' : ℤ} {entered : EnhancedCircuitBreaker × Bool}
    (h : Entered cfg b now now' entered) (hstarted : entered.2 = true) :
    entered.1.state = .closed ∨
      entered.1.state = .halfOpen ∧ (entered.1.halfOpenCalls : ℤ) ≤ cfg.halfOpenMaxCalls := by
  cases h with
  | refused => exact nomatch hstarted
  | overflow => exact nomatch hstarted
  | first _ _ hroom => exact .inr ⟨rfl, hroom⟩
  | probe hstate hroom => exact .inr ⟨hstate, hroom⟩
  | through hstate => exact .inl hstate

theorem Entered.closed {b : EnhancedCircuitBreaker} {now now' : ℤ} {entered : EnhancedCircuitBreaker × Bool}
    (h : Entered cfg b now now' entered) (hclosed : b.state = .closed) : entered.1.state = .closed := by
  cases h with
  | refused hstate => exact nomatch hclosed.symm.trans hstate
  | overflow hstate => exact absurd hclosed hstate
  | first hstate => exact nomatch hclosed.symm.trans hstate
  | probe hstate => exact nomatch hclosed.symm.trans hstate
  | through => exact hclosed

theorem breaker_step_call {id wait wait' : ℕ} (hnew : w.calls id = none) :
    (step cfg w (.call id wait wait')).breaker =
      (callStart cfg w.breaker (w.now + wait) (w.now + wait + wait')).1 := by
  rw [step_call hnew]
  dsimp only
  split
  · rfl
  · rfl

theorem sound_call (hinv : Counted w) (id wait wait' : ℕ) : Sound cfg w (.call id wait wait') := by
  cases hnew : w.calls id with
  | some probe =>
    have hnot : ∀ time, ¬ Starts cfg w (.call id wait wait') time := fun time h => nomatch hnew.symm.trans h.1
    refine ⟨fun time h => absurd h (hnot time), fun time h => absurd h (hnot time), fun time h => absurd h (hnot time),
      nofun, nofun, fun hclosed hleft => ?_⟩
    rw [step_call_of_some hnew] at hleft
    exact absurd hclosed hleft
  | none =>
    have hentered := callStart_entered cfg w.breaker (w.now + wait) (w.now + wait + wait')
    have hbreaker := @breaker_step_call cfg w id wait wait' hnew
    refine ⟨?_, ?_, ?_, nofun, nofun, ?_⟩
    · rintro time ⟨-, rfl, hstarted⟩ hopened last hlast
      exact hinv.waited hlast (hentered.reset hstarted hopened)
    · rintro time ⟨-, -, hstarted⟩
      rw [hbreaker]
      rcases hentered.started hstarted with hstate | ⟨hstate, -⟩
      · rw [hstate]
        exact nofun
      · rw [hstate]
        exact nofun
    · rintro time ⟨-, -, hstarted⟩ hhalf
      -- the counter of the code is the number of probes
      have hprobes := (counted_call hinv id wait wait').probes hhalf
      rw [hbreaker] at hhalf hprobes
      rcases hentered.started hstarted with hstate | ⟨-, hroom⟩
      · exact nomatch hstate.symm.trans hhalf
      · exact hprobes ▸ hroom
    · intro hclosed hleft
      rw [hbreaker] at hleft
      exact absurd (hentered.closed hclosed) hleft

theorem state_step_finish (hinv : Counted w) {id wait : ℕ} {outcome : Outcome} {probe : Bool}
    (hcall : w.calls id = some probe) :
    (step cfg w (.finish id outcome wait)).breaker.state =
      match outcome with
      | .returned => if w.breaker.state = .halfOpen then .closed else w.breaker.state
      | .raised true =>
        if cfg.failureThreshold ≤ consecutiveFailures w.outcomes + 1 then .opened else w.breaker.state
      | .raised false => w.breaker.state := by
  rw [step_finish hcall]
  match outcome with
  | .returned =>
    show (onSuccess w.breaker).state = _
    rw [onSuccess_eq]
  | .raised true =>
    show (onFailure cfg w.breaker (w.now + wait)).state = _
    rw [onFailure_eq, hinv.failures]
  | .raised false => rfl

theorem leavesClosed_finish (hinv : Counted w) {id wait : ℕ} {outcome : Outcome} (hclosed : w.breaker.state = .closed)
    (hleft : (step cfg w (.finish id outcome wait)).breaker.state ≠ .closed) :
    cfg.failureThreshold ≤ consecutiveFailures (step cfg w (.finish id outcome wait)).outcomes := by
  cases hcall : w.calls id with
  | none =>
    rw [step_finish_of_none hcall] at hleft
    exact absurd hclosed hleft
  | some probe =>
    rw [state_step_finish hinv hcall, hclosed] at hleft
    rw [step_finish hcall]
    match outcome with
    | .returned => exact absurd rfl hleft
    | .raised true =>
      by_contra hfew
      rw [show consecutiveFailures (Outcome.raised true :: w.outcomes) = consecutiveFailures w.outcomes + 1 from rfl] at hfew
      push_cast at hfew
      exact hleft (if_neg hfew)
    | .raised false => exact absurd rfl hleft

/-- **An event is met as by a circuit breaker exactly where its probe ends in time.** -/
theorem sound_iff (hinv : Counted w) (e : Event) : Sound cfg w e ↔ ProbeInTime cfg w e := by
  cases e with
  | call id wait wait' => exact ⟨fun _ => ⟨nofun, nofun⟩, fun _ => sound_call hinv id wait wait'⟩
  | finish id outcome wait =>
    refine ⟨fun h => ⟨?_, ?_⟩, fun h => ⟨nofun, nofun, nofun, ?_, ?_, leavesClosed_finish hinv⟩⟩
    · rintro ⟨hcall, rfl⟩ hopened
      have hclosed := h.successfulProbe ⟨hcall, rfl⟩
      rw [state_step_finish hinv hcall, hopened] at hclosed
      exact nomatch hclosed
    · rintro ⟨hcall, rfl⟩
      have hopened := h.failedProbe ⟨hcall, rfl⟩
      rw [state_step_finish hinv hcall] at hopened
      dsimp only at hopened
      split at hopened
      · rename_i hmany
        exact .inr hmany
      · exact .inl hopened
    · rintro ⟨hcall, rfl⟩
      rw [state_step_finish hinv hcall]
      dsimp only
      split
      · rfl
      · rename_i hfew
        exact (h.2 ⟨hcall, rfl⟩).resolve_right hfew
    · rintro ⟨hcall, rfl⟩
      rw [state_step_finish hinv hcall]
      dsimp only
      split
      · rfl
      · rename_i hhalf
        have hopened := h.1 ⟨hcall, rfl⟩
        cases hstate : w.breaker.state with
        | closed => rfl
        | opened => exact absurd hstate hopened
        | halfOpen => exact absurd hstate hhalf

end Step

/-! ## Runs -/

/-- **The breaker under overlapping calls**: along every run of calls that overlap in any way, each event is met as by a
circuit breaker if and only if every probe ends in time. -/
theorem along_sound_iff (cfg : CircuitBreakerConfig) (now : ℤ) (events : List Event) :
    Along (step cfg) (Sound cfg) (.start now) events ↔ Along (step cfg) (ProbeInTime cfg) (.start now) events :=
  along_iff_along (fun _ e hinv => sound_iff hinv e) (fun _ e _ hinv => counted_step hinv e) (counted_start now)

/-- Six calls overlap; five fail and open the breaker, the sixth succeeds.  A minute later a probe starts. -/
def lateSuccess : List Event :=
  (List.range 6).map (fun id => .call id 0 0) ++ (List.range 5).map (fun id => .finish id (.raised true) 0) ++
    [.finish 5 .returned 0, .call 6 60000000 0]

example : (run (step .default) (.start 0) lateSuccess).breaker.state = .halfOpen := by decide +kernel

/-- A probe that fails after a late success leaves the breaker half open. -/
theorem failed_probe_stays_half_open : ¬ ∀ cfg now events, Along (step cfg) (Sound cfg) (.start now) events := by
  intro h
  have hlast := Along.last (h .default 0 (lateSuccess ++ [.finish 6 (.raised true) 0]))
  have hprobe : (run (step .default) (.start 0) lateSuccess).calls 6 = some true := by decide +kernel
  have hstate : (run (step .default) (.start 0) (lateSuccess ++ [.finish 6 (.raised true) 0])).breaker.state =
      .halfOpen := by decide +kernel
  have hopened := hlast.failedProbe ⟨hprobe, rfl⟩
  rw [run_append] at hstate
  exact nomatch hstate.symm.trans hopened

end FavoniusBackend.Resilience
