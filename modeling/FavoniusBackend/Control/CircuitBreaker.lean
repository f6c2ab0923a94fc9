import FavoniusBackend.Control.Controller

/-!
# The circuit breaker

Failures of optimization runs are counted, and enough of them in a row open the circuit breaker for half
an hour.  The counter, the breaker and its reset time agree with each other in every run of the
controller (`accounted_run`).

Only `_handle_trigger` looks at the breaker.  A run that is already under way goes on to its next solve
when the breaker opens, and the control loop starts its hourly run whether the breaker is open or not.
`RespectsBreaker` excludes these two, and along a run that meets it no solve is started while the
breaker holds.
-/

namespace FavoniusBackend.Control.CircuitBreaker

open Lib Control.Controller

/-! ### What is asked of the controller -/

def failuresSince : List Mark → ℕ
  | [] => 0
  | .failure :: log => failuresSince log + 1
  | .success :: _ => 0
  | .reset :: _ => 0
  | .solveStarted _ _ :: log => failuresSince log

def Allowed : Mark → Prop
  | .solveStarted breaker time => breaker.holds time = false
  | _ => True

instance : DecidablePred Allowed
  | .solveStarted _ _ => inferInstanceAs (Decidable (_ = _))
  | .failure => inferInstanceAs (Decidable True)
  | .success => inferInstanceAs (Decidable True)
  | .reset => inferInstanceAs (Decidable True)

structure BreakerSafe (cfg : ControllerConfig) (s : DepotController) : Prop where
  solves : ∀ mark ∈ s.log, Allowed mark
  counted : s.breaker.isOpen = true → cfg.maxOptimizationFailures ≤ failuresSince s.log
  resetTime : s.breaker.resetTime.isSome = true ↔ s.breaker.isOpen = true

/-! ### The condition on the steps -/

/-- The run may still start a solve without being let in again. -/
def solveAheadOf : Phase → Bool
  | .assembling _ => true
  | .assemblyBackoff _ _ => true
  | .capturing => true
  | .alerting => false
  | .solving attempt => decide (attempt < maxRetries)
  | .backoff _ _ => true
  | .finishing attempt => decide (attempt < maxRetries)

def solveAhead (s : DepotController) : Bool := s.runs.any fun r => solveAheadOf r.phase

def beginsHourly (cfg : ControllerConfig) (s : DepotController) (found : Bool) : Bool :=
  match s.loop with
  | .checking now => found && s.hourlyDue cfg now
  | _ => false

def AtThreshold (cfg : ControllerConfig) (failures : ℕ) : Prop :=
  cfg.maxOptimizationFailures ≤ (failures + 1 : ℕ)

instance (cfg : ControllerConfig) (failures : ℕ) : Decidable (AtThreshold cfg failures) :=
  inferInstanceAs (Decidable (_ ≤ _))

def opensBreaker (cfg : ControllerConfig) (s : DepotController) (i : ℕ) (reply : Reply) : Bool :=
  match (s.runs[i]?).map OptimizationRun.phase, reply with
  | some (.solving attempt), .raised =>
    decide (¬ attempt < maxRetries) && decide (AtThreshold cfg s.breaker.failures)
  | some (.finishing _), .raised => decide (AtThreshold cfg s.breaker.failures)
  | some (.finishing _), .raisedAfterReset => decide (AtThreshold cfg 0)
  | _, _ => false

/-- An hourly run begins only while the circuit breaker does not hold, and the breaker opens only when no
run under way has a solve ahead of it. -/
def RespectsBreaker (cfg : ControllerConfig) (s : DepotController) : Event → Prop
  | .depotChecked found => beginsHourly cfg s found = true → s.breaker.holds s.now = false
  | .reply i reply => opensBreaker cfg s i reply = true → solveAhead s = false
  | _ => True

instance (cfg : ControllerConfig) (s : DepotController) (e : Event) :
    Decidable (RespectsBreaker cfg s e) :=
  match e with
  | .depotChecked _ => inferInstanceAs (Decidable (_ → _))
  | .reply _ _ => inferInstanceAs (Decidable (_ → _))
  | .advance _ => inferInstanceAs (Decidable True)
  | .trigger => inferInstanceAs (Decidable True)
  | .startLoop => inferInstanceAs (Decidable True)
  | .wakeLoop => inferInstanceAs (Decidable True)
  | .cancel _ => inferInstanceAs (Decidable True)
  | .stop => inferInstanceAs (Decidable True)

/-! ### What one step does to the breaker -/

/-- Everything a step can do to the breaker, the log and the solves ahead. -/
inductive Effect (cfg : ControllerConfig) (s : DepotController) (e : Event) (s' : DepotController) :
    Prop where
  | quiet (breaker : s'.breaker = s.breaker) (log : s'.log = s.log) (now : s.now ≤ s'.now)
      (ahead : solveAhead s' = true → solveAhead s = true)
  | begun (breaker : s'.breaker = s.breaker) (log : s'.log = s.log) (now : s'.now = s.now)
      (letIn : s.breaker.holds s.now = false ∨
        ∃ found, e = .depotChecked found ∧ beginsHourly cfg s found = true)
  | solving (breaker : s'.breaker = s.breaker) (now : s'.now = s.now)
      (log : s'.log = .solveStarted s.breaker s.now :: s.log) (ahead : solveAhead s = true)
  | cleared (mark : Mark) (kind : mark = .success ∨ mark = .reset) (breaker : s'.breaker = {})
      (log : s'.log = mark :: s.log)
  | failed (base : DepotController) (from_ : base = s ∨ base = s.clear .success)
      (breaker : s'.breaker = base.breaker.count cfg s.now) (log : s'.log = .failure :: base.log)
      (opens : AtThreshold cfg base.breaker.failures →
        ∃ i reply, e = .reply i reply ∧ opensBreaker cfg s i reply = true)
      (ahead : solveAhead s' = true → solveAhead s = true) (now : s'.now = s.now)

theorem solveAhead_iff {s : DepotController} :
    solveAhead s = true ↔
      ∃ (i : ℕ) (r : OptimizationRun), s.runs[i]? = some r ∧ solveAheadOf r.phase = true := by
  constructor
  · intro h
    obtain ⟨r, hr, hahead⟩ := List.any_eq_true.1 h
    obtain ⟨i, hi⟩ := List.mem_iff_getElem?.1 hr
    exact ⟨i, r, hi, hahead⟩
  · rintro ⟨i, r, hi, hahead⟩
    exact List.any_eq_true.2 ⟨r, List.mem_of_getElem? hi, hahead⟩

theorem solveAhead_goOn {s : DepotController} {i : ℕ} {run : OptimizationRun} {phase : Phase}
    (hrun : s.runs[i]? = some run)
    (hphase : solveAheadOf phase = true → solveAheadOf run.phase = true)
    (h : solveAhead (s.goOn i phase) = true) : solveAhead s = true := by
  obtain ⟨j, r, hj, hahead⟩ := solveAhead_iff.1 h
  have hget : (s.runs.modify i fun r => { r with phase := phase })[j]? = some r := hj
  rw [List.getElem?_modify] at hget
  by_cases hij : i = j
  · subst hij
    simp only [hrun, if_true, Option.map_eq_map, Option.map_some, Option.some.injEq] at hget
    subst hget
    exact solveAhead_iff.2 ⟨i, run, hrun, hphase hahead⟩
  · simp only [hij, if_false, Option.map_eq_map, Option.map_id'] at hget
    exact solveAhead_iff.2 ⟨j, r, hget, hahead⟩

theorem solveAhead_of_subset {s s' : DepotController} (h : ∀ r ∈ s'.runs, r ∈ s.runs)
    (hahead : solveAhead s' = true) : solveAhead s = true := by
  obtain ⟨r, hr, hr'⟩ := List.any_eq_true.1 hahead
  exact List.any_eq_true.2 ⟨r, h r hr, hr'⟩

theorem solveAhead_eq_false {s s' : DepotController}
    (hahead : solveAhead s' = true → solveAhead s = true) (h : solveAhead s = false) :
    solveAhead s' = false := by
  apply Bool.eq_false_of_not_eq_true
  intro hafter
  rw [hahead hafter] at h
  cases h

section Effects

variable {cfg : ControllerConfig} {s : DepotController} {e : Event}

theorem effect_refl : Effect cfg s e s := .quiet rfl rfl le_rfl id

theorem effect_goOn {i : ℕ} {run : OptimizationRun} {phase : Phase} (hrun : s.runs[i]? = some run)
    (hphase : solveAheadOf phase = true → solveAheadOf run.phase = true) :
    Effect cfg s e (s.goOn i phase) :=
  .quiet rfl rfl le_rfl (solveAhead_goOn hrun hphase)

theorem effect_finish (i : ℕ) (caller : Caller) : Effect cfg s e (s.finish i caller) :=
  .quiet rfl rfl le_rfl (solveAhead_of_subset fun _ hr => List.mem_of_mem_eraseIdx hr)

theorem effect_startSolve {i attempt : ℕ} {run : OptimizationRun} (hrun : s.runs[i]? = some run)
    (hahead : solveAheadOf run.phase = true) : Effect cfg s e (s.startSolve i attempt) :=
  .solving rfl rfl rfl (solveAhead_iff.2 ⟨i, run, hrun, hahead⟩)

/-- A counted failure leaves no run with a solve ahead that had none before: the run goes on only where
the attempt was not its last. -/
theorem solveAhead_fail {base : DepotController} {i attempt : ℕ} {run : OptimizationRun}
    (hruns : base.runs = s.runs) (hrun : s.runs[i]? = some run)
    (hphase : attempt < maxRetries → solveAheadOf run.phase = true)
    (h : solveAhead (base.fail cfg i run.caller attempt) = true) : solveAhead s = true := by
  unfold DepotController.fail at h
  by_cases hlast : attempt < maxRetries
  · exact solveAhead_iff.2 ⟨i, run, hrun, hphase hlast⟩
  · simp only [hlast, if_false] at h
    refine solveAhead_of_subset (fun r hr => ?_) h
    rw [← hruns]
    exact List.mem_of_mem_eraseIdx hr

theorem effect_fail {base : DepotController} {i attempt : ℕ} {run : OptimizationRun}
    (hbase : base = s ∨ base = s.clear .success) (hrun : s.runs[i]? = some run)
    (hphase : attempt < maxRetries → solveAheadOf run.phase = true)
    (hopens : AtThreshold cfg base.breaker.failures →
      ∃ i reply, e = .reply i reply ∧ opensBreaker cfg s i reply = true) :
    Effect cfg s e (base.fail cfg i run.caller attempt) := by
  have hnow : base.now = s.now := by rcases hbase with rfl | rfl <;> rfl
  have hruns : base.runs = s.runs := by rcases hbase with rfl | rfl <;> rfl
  refine .failed base hbase ?_ ?_ hopens (solveAhead_fail hruns hrun hphase) ?_
  · rw [← hnow]
    unfold DepotController.fail
    split <;> rfl
  · unfold DepotController.fail
    split <;> rfl
  · rw [← hnow]
    unfold DepotController.fail
    split <;> rfl

theorem effect_solving {i attempt : ℕ} {run : OptimizationRun} (reply : Reply) (hrun : s.runs[i]? = some run)
    (h : run.phase = .solving attempt) : Effect cfg s (.reply i reply) (s.stepRun cfg i run reply) := by
  have hphase : (s.runs[i]?).map OptimizationRun.phase = some run.phase := by rw [hrun]; rfl
  unfold DepotController.stepRun
  rw [h]
  cases reply with
  | returned =>
    exact .quiet rfl rfl le_rfl (solveAhead_goOn hrun fun hahead => by rw [h]; exact hahead)
  | raised =>
    dsimp only
    split
    · rename_i hretry
      exact effect_goOn hrun fun _ => by rw [h]; exact decide_eq_true hretry
    · rename_i hlast
      refine effect_fail (.inl rfl) hrun (fun hretry => absurd hretry hlast) fun hopens => ⟨i, .raised, rfl, ?_⟩
      simp only [opensBreaker, hphase, h]
      simp only [hlast, hopens, not_false_eq_true, decide_true, Bool.and_self]
  | notReady => exact effect_refl
  | raisedAfterReset => exact effect_refl

theorem effect_finishing {i attempt : ℕ} {run : OptimizationRun} (reply : Reply) (hrun : s.runs[i]? = some run)
    (h : run.phase = .finishing attempt) : Effect cfg s (.reply i reply) (s.stepRun cfg i run reply) := by
  have hphase : (s.runs[i]?).map OptimizationRun.phase = some run.phase := by rw [hrun]; rfl
  have hretry : attempt < maxRetries → solveAheadOf run.phase = true := by
    intro hlt
    rw [h]
    exact decide_eq_true hlt
  unfold DepotController.stepRun
  rw [h]
  cases reply with
  | returned => exact .cleared .success (.inl rfl) rfl rfl
  | raised =>
    refine effect_fail (.inl rfl) hrun hretry fun hopens => ⟨i, .raised, rfl, ?_⟩
    simp only [opensBreaker, hphase, h, hopens, decide_true]
  | raisedAfterReset =>
    refine effect_fail (.inr rfl) hrun hretry fun hopens => ⟨i, .raisedAfterReset, rfl, ?_⟩
    simp only [opensBreaker, hphase, h]
    exact decide_eq_true hopens
  | notReady => exact effect_refl

theorem effect_stepRun {i : ℕ} {run : OptimizationRun} (reply : Reply)
    (hrun : s.runs[i]? = some run) :
    Effect cfg s (.reply i reply) (s.stepRun cfg i run reply) := by
  cases h : run.phase with
  | assembling attempt =>
    unfold DepotController.stepRun
    rw [h]
    cases reply with
    | returned => exact .quiet rfl rfl le_rfl (solveAhead_goOn hrun fun _ => by rw [h]; rfl)
    | raised =>
      dsimp only
      split
      · exact effect_goOn hrun fun _ => by rw [h]; rfl
      · exact effect_finish i run.caller
    | notReady => exact effect_refl
    | raisedAfterReset => exact effect_refl
  | assemblyBackoff attempt wakeAt =>
    unfold DepotController.stepRun
    rw [h]
    cases reply with
    | returned =>
      dsimp only
      split
      · exact effect_goOn hrun fun _ => by rw [h]; rfl
      · exact effect_refl
    | raised => exact effect_refl
    | notReady => exact effect_refl
    | raisedAfterReset => exact effect_refl
  | capturing =>
    unfold DepotController.stepRun
    rw [h]
    cases reply with
    | returned => exact effect_startSolve hrun (by rw [h]; rfl)
    | notReady => exact effect_goOn hrun fun _ => by rw [h]; rfl
    | raised => exact effect_finish i run.caller
    | raisedAfterReset => exact effect_refl
  | alerting =>
    unfold DepotController.stepRun
    rw [h]
    cases reply with
    | returned => exact effect_finish i run.caller
    | raised => exact effect_finish i run.caller
    | notReady => exact effect_refl
    | raisedAfterReset => exact effect_refl
  | solving attempt => exact effect_solving reply hrun h
  | backoff attempt wakeAt =>
    unfold DepotController.stepRun
    rw [h]
    cases reply with
    | returned =>
      dsimp only
      split
      · exact effect_startSolve hrun (by rw [h]; rfl)
      · exact effect_refl
    | raised => exact effect_refl
    | notReady => exact effect_refl
    | raisedAfterReset => exact effect_refl
  | finishing attempt => exact effect_finishing reply hrun h

theorem effect_handleTrigger : Effect cfg s .trigger (s.handleTrigger cfg) := by
  unfold DepotController.handleTrigger
  by_cases hcooling : s.coolingDown cfg = true
  · simp only [hcooling, if_true]
    exact effect_refl
  · by_cases hholds : s.breaker.holds s.now = true
    · simp only [hcooling, hholds, if_true]
      exact effect_refl
    · have hlet : s.breaker.holds s.now = false := Bool.eq_false_of_not_eq_true hholds
      simp only [hcooling, hholds]
      by_cases hopen : s.breaker.isOpen = true
      · simp only [hopen, if_true]
        exact .cleared .reset (.inr rfl) rfl rfl
      · simp only [hopen]
        exact .begun rfl rfl rfl (.inl hlet)

theorem effect_depotChecked (found : Bool) :
    Effect cfg s (.depotChecked found) (s.depotChecked cfg found) := by
  unfold DepotController.depotChecked
  cases hloop : s.loop with
  | checking now =>
    cases found with
    | false => exact .quiet rfl rfl le_rfl id
    | true =>
      by_cases hdue : s.hourlyDue cfg now = true
      · simp only [hdue, if_true]
        refine .begun rfl rfl rfl (.inr ⟨true, rfl, ?_⟩)
        simp only [beginsHourly, hloop, hdue, Bool.and_self]
      · simp only [hdue]
        exact .quiet rfl rfl le_rfl id
  | off => exact effect_refl
  | optimizing => exact effect_refl
  | sleeping wakeAt => exact effect_refl

/-- **The step lemma.** -/
theorem effect_step (cfg : ControllerConfig) (s : DepotController) (e : Event) :
    Effect cfg s e (step cfg s e) := by
  cases e with
  | advance elapsed =>
    refine .quiet rfl rfl ?_ id
    show s.now ≤ s.now + elapsed
    omega
  | trigger => exact effect_handleTrigger
  | startLoop =>
    simp only [step]
    split
    · exact .quiet rfl rfl le_rfl id
    · exact effect_refl
  | wakeLoop =>
    simp only [step]
    split
    · split
      · exact .quiet rfl rfl le_rfl id
      · exact effect_refl
    · exact effect_refl
  | depotChecked found => exact effect_depotChecked found
  | reply i reply =>
    simp only [step]
    split
    · rename_i run hrun
      exact effect_stepRun reply hrun
    · exact effect_refl
  | cancel i =>
    simp only [step]
    split
    · exact .quiet rfl rfl le_rfl (solveAhead_of_subset fun _ hr => List.mem_of_mem_eraseIdx hr)
    · exact effect_refl
  | stop => exact .quiet rfl rfl le_rfl (solveAhead_of_subset fun _ hr => (List.mem_filter.1 hr).1)

end Effects

/-! ### The counter, the breaker and the reset time -/

/-- The counter counts the failures since the last success or reset, the breaker is open only where they
are enough, and the reset time is set where it is open. -/
structure Accounted (cfg : ControllerConfig) (s : DepotController) : Prop where
  failures : s.breaker.failures = failuresSince s.log
  threshold : s.breaker.isOpen = true → cfg.maxOptimizationFailures ≤ s.breaker.failures
  resetTime : s.breaker.resetTime.isSome = true ↔ s.breaker.isOpen = true

theorem accounted_of_eq {cfg : ControllerConfig} {s s' : DepotController} (h : Accounted cfg s)
    (hbreaker : s'.breaker = s.breaker) (hlog : failuresSince s'.log = failuresSince s.log) :
    Accounted cfg s' := by
  refine ⟨?_, ?_, ?_⟩
  · rw [hbreaker, hlog]
    exact h.failures
  · rw [hbreaker]
    exact h.threshold
  · rw [hbreaker]
    exact h.resetTime

theorem accounted_cleared (cfg : ControllerConfig) {s' : DepotController} (hbreaker : s'.breaker = {})
    (hlog : failuresSince s'.log = 0) : Accounted cfg s' := by
  refine ⟨?_, ?_, ?_⟩
  · rw [hbreaker, hlog]
  · intro hopen
    rw [hbreaker] at hopen
    cases hopen
  · rw [hbreaker]
    decide

theorem accounted_failed {cfg : ControllerConfig} {base s' : DepotController} {now : ℤ}
    (h : Accounted cfg base) (hbreaker : s'.breaker = base.breaker.count cfg now)
    (hlog : s'.log = .failure :: base.log) : Accounted cfg s' := by
  have hfailures : s'.breaker.failures = base.breaker.failures + 1 := by
    rw [hbreaker]
    unfold CircuitBreaker.count
    split <;> rfl
  refine ⟨?_, ?_, ?_⟩
  · rw [hfailures, hlog, h.failures]
    rfl
  · intro hopen
    rw [hfailures]
    by_cases hreached : cfg.maxOptimizationFailures ≤ (base.breaker.failures + 1 : ℕ)
    · exact hreached
    · rw [hbreaker] at hopen
      simp only [CircuitBreaker.count, hreached, if_false] at hopen
      have hthreshold := h.threshold hopen
      omega
  · rw [hbreaker]
    unfold CircuitBreaker.count
    split
    · exact ⟨fun _ => rfl, fun _ => rfl⟩
    · exact h.resetTime

theorem accounted_step (cfg : ControllerConfig) (s : DepotController) (e : Event)
    (h : Accounted cfg s) : Accounted cfg (step cfg s e) := by
  cases effect_step cfg s e with
  | quiet hbreaker hlog => exact accounted_of_eq h hbreaker (by rw [hlog])
  | begun hbreaker hlog => exact accounted_of_eq h hbreaker (by rw [hlog])
  | solving hbreaker _ hlog => exact accounted_of_eq h hbreaker (by rw [hlog]; rfl)
  | cleared mark hkind hbreaker hlog =>
    refine accounted_cleared cfg hbreaker ?_
    rw [hlog]
    rcases hkind with rfl | rfl <;> rfl
  | failed base hfrom hbreaker hlog =>
    rcases hfrom with rfl | rfl
    · exact accounted_failed h hbreaker hlog
    · exact accounted_failed (accounted_cleared cfg rfl rfl) hbreaker hlog

/-- In every run the breaker is open only after enough counted failures, and its reset time is set
exactly where it is open. -/
theorem accounted_run (cfg : ControllerConfig) (now : ℤ) (events : List Event) :
    Accounted cfg (run cfg (.init now) events) :=
  Run.run_invariant (step cfg) (Accounted cfg) events
    (fun s e _ h => accounted_step cfg s e h) _ (accounted_cleared cfg rfl rfl)

/-! ### Solves while the breaker holds -/

/-- While the breaker holds, no run has a solve ahead of it; and none was started while it held. -/
structure Guarded (s : DepotController) : Prop where
  ahead : s.breaker.holds s.now = true → solveAhead s = false
  solves : ∀ mark ∈ s.log, Allowed mark

theorem holds_mono {b : CircuitBreaker} {now now' : ℤ} (hle : now ≤ now')
    (h : b.holds now' = true) : b.holds now = true := by
  unfold CircuitBreaker.holds at h ⊢
  cases hreset : b.resetTime with
  | none => simp [hreset] at h
  | some t =>
    simp only [hreset, Option.any_some, Bool.and_eq_true, decide_eq_true_eq] at h ⊢
    exact ⟨h.1, by omega⟩

theorem holds_count_below {cfg : ControllerConfig} {b : CircuitBreaker} {now now' : ℤ}
    (h : ¬ AtThreshold cfg b.failures) : (b.count cfg now).holds now' = b.holds now' := by
  unfold AtThreshold at h
  simp only [CircuitBreaker.count, h, if_false, CircuitBreaker.holds]

theorem allowed_cons {s s' : DepotController} {mark : Mark} (h : ∀ m ∈ s.log, Allowed m)
    (hlog : s'.log = mark :: s.log) (hmark : Allowed mark) : ∀ m ∈ s'.log, Allowed m := by
  intro m hm
  rw [hlog] at hm
  rcases List.mem_cons.1 hm with rfl | hm
  · exact hmark
  · exact h m hm

theorem guarded_step (cfg : ControllerConfig) (s : DepotController) (e : Event)
    (hrespects : RespectsBreaker cfg s e) (h : Guarded s) : Guarded (step cfg s e) := by
  cases effect_step cfg s e with
  | quiet hbreaker hlog hnow hahead =>
    refine ⟨fun hholds => ?_, by rw [hlog]; exact h.solves⟩
    rw [hbreaker] at hholds
    exact solveAhead_eq_false hahead (h.ahead (holds_mono hnow hholds))
  | begun hbreaker hlog hnow hlet =>
    have hfree : s.breaker.holds s.now = false := by
      rcases hlet with hfree | ⟨found, rfl, hbegins⟩
      · exact hfree
      · exact hrespects hbegins
    refine ⟨fun hholds => ?_, by rw [hlog]; exact h.solves⟩
    rw [hbreaker, hnow, hfree] at hholds
    cases hholds
  | solving hbreaker hnow hlog hahead =>
    -- The run was under way before the step, so the breaker did not hold.
    have hfree : s.breaker.holds s.now = false :=
      Bool.eq_false_of_not_eq_true fun hholds => by simp [h.ahead hholds] at hahead
    refine ⟨fun hholds => ?_, allowed_cons h.solves hlog hfree⟩
    rw [hbreaker, hnow, hfree] at hholds
    cases hholds
  | cleared mark hkind hbreaker hlog =>
    refine ⟨fun hholds => ?_, allowed_cons h.solves hlog ?_⟩
    · rw [hbreaker] at hholds
      cases hholds
    · rcases hkind with rfl | rfl <;> trivial
  | failed base hfrom hbreaker hlog hopens hahead hnow =>
    have hbefore : base.breaker.holds s.now = true → solveAhead s = false := by
      intro hholds
      rcases hfrom with rfl | rfl
      · exact h.ahead hholds
      · cases hholds
    have hsolves : ∀ mark ∈ base.log, Allowed mark := by
      rcases hfrom with rfl | rfl
      · exact h.solves
      · exact allowed_cons h.solves rfl trivial
    have hnone : (step cfg s e).breaker.holds s.now = true → solveAhead s = false := by
      intro hholds
      rw [hbreaker] at hholds
      by_cases hreached : AtThreshold cfg base.breaker.failures
      · obtain ⟨i, reply, rfl, hopen⟩ := hopens hreached
        exact hrespects hopen
      · rw [holds_count_below hreached] at hholds
        exact hbefore hholds
    refine ⟨fun hholds => ?_, allowed_cons hsolves hlog trivial⟩
    rw [hnow] at hholds
    exact solveAhead_eq_false hahead (hnone hholds)

/-- **The circuit breaker, over whole runs.**  In every run whose steps respect the breaker, no solve is
started while the breaker is open and its reset time has not passed; in every state reached the breaker
is open only after enough counted failures, and its reset time is set exactly where it is open. -/
theorem breakerSafe_of_respectsBreaker (cfg : ControllerConfig) (now : ℤ) (events : List Event)
    (h : Run.Along (step cfg) (RespectsBreaker cfg) (.init now) events) (reached : List Event)
    (hreached : reached <+: events) : BreakerSafe cfg (run cfg (.init now) reached) := by
  obtain ⟨rest, rfl⟩ := hreached
  have hguarded : Guarded (run cfg (.init now) reached) :=
    Run.run_invariant_along (guarded_step cfg) ⟨fun _ => rfl, by simp [DepotController.init]⟩
      h.of_append
  have haccounted := accounted_run cfg now reached
  refine ⟨hguarded.solves, fun hopen => ?_, haccounted.resetTime⟩
  rw [← haccounted.failures]
  exact haccounted.threshold hopen

/-- Three attempts of the run at position `i`, each of whose solves raises. -/
def failingSolves (i : ℕ) : List Event :=
  [.reply i .returned, .reply i .returned, .reply i .raised,
    .advance 1000000, .reply i .returned, .reply i .raised,
    .advance 2000000, .reply i .returned, .reply i .raised]

def eight : ℤ := 8 * hour

def threeFailures : List Event :=
  Event.trigger :: failingSolves 0 ++ Event.advance 360000000 :: Event.trigger :: failingSolves 0 ++
    Event.advance 360000000 :: Event.trigger :: failingSolves 0

/-- The breaker opens, turns a trigger away, and lets one in after its reset time. -/
theorem breakerSafe_threeFailures :
    (run {} (.init eight) threeFailures).breaker.isOpen = true ∧
      BreakerSafe {} (run {} (.init eight) (threeFailures ++
        [.advance 360000000, .trigger, .advance 1800000000, .trigger, .reply 0 .returned,
          .reply 0 .returned])) :=
  ⟨by decide, breakerSafe_of_respectsBreaker {} eight _ (by decide) _ (List.prefix_refl _)⟩

/-- An hourly run and a triggered run have failed.  An hour later a trigger comes just before the control
loop's look at the clock, and two runs are under way.  The failure of the first is the third one and
opens the breaker; a second later the other run starts its next solve. -/
def overlappingRuns : List Event :=
  Event.startLoop :: Event.depotChecked true :: failingSolves 0 ++ Event.trigger :: failingSolves 0 ++
    ([.advance 3601000000, .trigger, .wakeLoop, .depotChecked true,
      .reply 0 .returned, .reply 0 .returned, .reply 1 .returned, .reply 1 .returned,
      .reply 0 .raised, .advance 1000000, .reply 0 .returned,
      .reply 0 .raised, .advance 2000000, .reply 0 .returned,
      .reply 1 .raised, .reply 0 .raised, .advance 1000000, .reply 0 .returned] : List Event)

example : (run {} (.init eight) overlappingRuns).breaker.isOpen = true := by decide +kernel

theorem not_breakerSafe_overlappingRuns :
    ¬ ∀ (cfg : ControllerConfig) (now : ℤ) (events : List Event),
      BreakerSafe cfg (run cfg (.init now) events) := by
  intro h
  have hsolves := (h {} eight overlappingRuns).solves
  revert hsolves
  decide

end FavoniusBackend.Control.CircuitBreaker
