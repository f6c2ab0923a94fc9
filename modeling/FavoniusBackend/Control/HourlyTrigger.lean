import FavoniusBackend.Control.Controller
import FavoniusBackend.Control.ChargingRequestUpdates

/-!
# The hourly trigger

A depot controller owns a trigger monitor and is its `on_trigger`.  The first iteration of the monitor in
an hour triggers whatever it has found and past the monitor's own cooldown; the hour is noted as done when
the iteration begins.  `_handle_trigger` has a cooldown of its own, with a time of its own, and it does not
distinguish the reasons: behind an event that was accepted a few minutes before, the hourly trigger is
dropped, and the monitor does not repeat it.

`hourServed_iff_unhindered` says at which iterations that happens, over whole runs of the two together.
-/

namespace FavoniusBackend.Control.HourlyTrigger

open Lib Optimizer.Models
open Control.Controller Control.Triggers
open Control.ChargingRequestUpdates

def clockHour (now : ℤ) : ℤ := now / hour

/-- The controller with its monitor, and the hours as far as runs have been called in them. -/
structure Depot where
  controller : DepotController
  monitor : TriggerMonitor
  /-- The instant that the iteration under way has read. -/
  tick : Option ℤ := none
  /-- The hours in which an iteration began that is over. -/
  tickedHours : List ℤ := []
  /-- Those of them whose first iteration found the circuit breaker not holding. -/
  closedHours : List ℤ := []
  /-- The hours in which `run_optimization` was called, or for whose iteration it was. -/
  calledHours : List ℤ := []

/-- The monitor as the controller constructs it: without a pool, and with the controller's cooldown. -/
def monitorOf (cfg : ControllerConfig) : TriggerMonitor :=
  TriggerMonitor.init { triggerCooldownMinutes := cfg.triggerCooldownMinutes } false

def Depot.init (cfg : ControllerConfig) (now : ℤ) : Depot where
  controller := DepotController.init now
  monitor := monitorOf cfg

inductive Event
  -- Anything that happens to the controller beside its monitor, other triggers included.
  | control (e : Controller.Event)
  -- An iteration of the monitor reads the clock.
  | startTick
  -- It has read the states of charge, the prices and the return times.
  | endTick (o : Observation)
  -- An optimization run leaves its expectations; it expects no return times.
  | expectations (expectedSocs : Dict VehicleId ℚ) (prices : Dict Stamp ℚ)

/-- The transition of the controller calls `run_optimization`. -/
def callsRun (before after : DepotController) : Bool := decide (before.runs.length < after.runs.length)

/-- What the iteration that read `t` observes; `_handle_trigger` catches whatever a run raises. -/
def observed (t : ℤ) (o : Observation) : Observation :=
  { o with now := (t : ℚ) / (second : ℤ), callbackRaises := false }

def triggered (cfg : ControllerConfig) (s : DepotController) (reason : Option TriggerReason) :
    DepotController :=
  if reason.isSome then s.handleTrigger cfg else s

def step (cfg : ControllerConfig) (s : Depot) : Event → Depot
  | .control e =>
    let after := Controller.step cfg s.controller e
    { s with
      controller := after
      calledHours :=
        if callsRun s.controller after then clockHour s.controller.now :: s.calledHours
        else s.calledHours }
  | .startTick => if s.tick.isNone then { s with tick := some s.controller.now } else s
  | .endTick o =>
    match s.tick with
    | none => s
    | some t =>
      let result := s.monitor.iterate (observed t o)
      let after := triggered cfg s.controller result.2
      { controller := after
        monitor := result.1
        tick := none
        tickedHours := clockHour t :: s.tickedHours
        closedHours :=
          if clockHour t ∉ s.tickedHours ∧ s.controller.breaker.holds s.controller.now = false then
            clockHour t :: s.closedHours
          else s.closedHours
        calledHours :=
          if callsRun s.controller after then
            clockHour t :: clockHour s.controller.now :: s.calledHours
          else s.calledHours }
  | .expectations expectedSocs prices =>
    { s with monitor := (s.monitor.updateExpectedState expectedSocs .empty).updatePrices prices }

/-! ### What is asked of the two -/

/-- Every hour whose first iteration found the circuit breaker not holding has had its call. -/
def EveryHourCalled (s : Depot) : Prop := ∀ h ∈ s.closedHours, h ∈ s.calledHours

instance decidableEveryHourCalled (s : Depot) : Decidable (EveryHourCalled s) :=
  inferInstanceAs (Decidable (∀ h ∈ s.closedHours, h ∈ s.calledHours))

/-- Unless the circuit breaker holds, the hourly trigger of the iteration calls `run_optimization`. -/
def ScheduledHandled (cfg : ControllerConfig) (s : Depot) : Event → Prop
  | .endTick o => ∀ t, s.tick = some t →
      (s.monitor.iterate (observed t o)).2 = some .scheduled →
      s.controller.breaker.holds s.controller.now = false →
      callsRun s.controller (step cfg s (.endTick o)).controller = true
  | _ => True

/-- The hourly trigger is not dropped, and afterwards every hour has had its call. -/
def HourServed (cfg : ControllerConfig) (s : Depot) (e : Event) : Prop :=
  ScheduledHandled cfg s e ∧ EveryHourCalled (step cfg s e)

/-! ### The condition on the iterations -/

def reports (monitor : TriggerMonitor) (o : Observation) : Bool :=
  (monitor.checkSocDeviation o.currentSocs).isSome || (monitor.checkPriceChange o.currentPrices).isSome

/-- Where an iteration of the monitor is over and the circuit breaker does not hold: if its hour of the day
is not that of the iteration before, the controller is not in its cooldown.  If it is, and the iteration
is still the first one in its hour, then the hour has had a call, or both cooldowns are over and the states
of charge or the prices are reported. -/
def Unhindered (cfg : ControllerConfig) (s : Depot) : Event → Prop
  | .endTick o => ∀ t, s.tick = some t → s.controller.breaker.holds s.controller.now = false →
      if s.monitor.lastScheduledHour ≠ some (Controller.hourOf t) then
        s.controller.coolingDown cfg = false
      else clockHour t ∉ s.tickedHours →
        clockHour t ∈ s.calledHours ∨
          s.controller.coolingDown cfg = false ∧
            s.monitor.cooledDown ((t : ℚ) / (second : ℤ)) = true ∧ reports s.monitor o = true
  | _ => True

/-! ### One iteration of the monitor, as the controller sees it -/

/-- What the controller makes of its monitor stays so: no pool, and no return times to expect. -/
def Bare (monitor : TriggerMonitor) : Prop :=
  monitor.hasPool = false ∧ monitor.expectedReturnTimes = .empty

theorem hourOf_observed (t : ℤ) (o : Observation) :
    Triggers.hourOf (observed t o).now = Controller.hourOf t := by
  show ⌊(t : ℚ) / ((second : ℤ) : ℚ) / 3600⌋ % 24 = t / hour % 24
  have hhour : (t : ℚ) / ((second : ℤ) : ℚ) / 3600 = (t : ℚ) / ((3600000000 : ℕ) : ℚ) := by
    rw [div_div]
    norm_num [second]
  rw [hhour, Rat.floor_intCast_div_natCast]
  rfl

theorem newHour_observed (monitor : TriggerMonitor) (t : ℤ) (o : Observation) :
    newHour monitor (observed t o) = true ↔
      monitor.lastScheduledHour ≠ some (Controller.hourOf t) := by
  rw [newHour, hourOf_observed, decide_eq_true_eq]

theorem returnDelayIn_empty (threshold : ℚ) (returns : List (VehicleId × Stamp)) :
    returnDelayIn threshold .empty returns = some none := by
  induction returns with
  | nil => rfl
  | cons entry rest ih => exact ih

theorem checkReturnTimeDeviation_bare {monitor : TriggerMonitor} (h : Bare monitor)
    (returns : Dict VehicleId Stamp) : monitor.checkReturnTimeDeviation returns = some none := by
  rw [TriggerMonitor.checkReturnTimeDeviation, h.2]
  exact returnDelayIn_empty _ _

theorem reportOf_bare {monitor : TriggerMonitor} (h : Bare monitor) (o : Observation) :
    reportOf monitor o = none := by
  simp [reportOf, h.1]

theorem iterate_bare_calls {monitor : TriggerMonitor} (h : Bare monitor) (t : ℤ) (o : Observation) :
    (monitor.iterate (observed t o)).2.isSome = true ↔
      monitor.lastScheduledHour ≠ some (Controller.hourOf t) ∨
        monitor.cooledDown ((t : ℚ) / (second : ℤ)) = true ∧ reports monitor o = true := by
  have hreturns := checkReturnTimeDeviation_bare h (observed t o).actualReturns
  have hcomparable : comparable monitor (observed t o) = true := by
    rw [comparable, hreturns]
    rfl
  have hother : otherTrigger monitor (observed t o) = reports monitor o := by
    rw [otherTrigger, hreturns]
    exact Bool.or_false _
  rw [iterate_calls, newHour_observed, reportOf_bare h, hother, hcomparable]
  simp only [Option.isSome_none, Bool.false_eq_true, or_false, true_and]
  rfl

theorem checkSocDeviation_ne_scheduled (monitor : TriggerMonitor) (socs : Dict VehicleId ℚ) :
    monitor.checkSocDeviation socs ≠ some .scheduled := by
  intro h
  obtain ⟨entry, _, hentry⟩ := List.exists_of_findSome?_eq_some h
  revert hentry
  unfold socDeviationOf
  split
  · split <;> simp
  · simp

theorem checkPriceChange_ne_scheduled (monitor : TriggerMonitor) (prices : Dict Stamp ℚ) :
    monitor.checkPriceChange prices ≠ some .scheduled := by
  intro h
  obtain ⟨entry, _, hentry⟩ := List.exists_of_findSome?_eq_some h
  revert hentry
  unfold priceChangeOf
  split
  · dsimp only
    split
    · split <;> simp
    · simp
  · simp

theorem iterate_scheduled {monitor : TriggerMonitor} (h : Bare monitor) (t : ℤ) (o : Observation) :
    (monitor.iterate (observed t o)).2 = some .scheduled ↔
      monitor.lastScheduledHour ≠ some (Controller.hourOf t) := by
  rw [iterate_of_some (checkReturnTimeDeviation_bare h _), ← newHour_observed monitor t o]
  dsimp only
  by_cases hnew : newHour monitor (observed t o) = true
  · simp [hnew, TriggerMonitor.fire]
  · rw [if_neg hnew]
    refine iff_of_false ?_ hnew
    cases hreason : reasonOf monitor (observed t o) none with
    | none => simp
    | some reason =>
      have hne : reason ≠ .scheduled := by
        rintro rfl
        rw [reasonOf, reportOf_bare h] at hreason
        simp only [Option.orElse_eq_orElse, Option.orElse_eq_or, Option.or_none,
          Option.or_eq_some_iff] at hreason
        rcases hreason with hsoc | ⟨_, hprice⟩
        · exact checkSocDeviation_ne_scheduled _ _ hsoc
        · exact checkPriceChange_ne_scheduled _ _ hprice
      dsimp only
      split
      · simpa [TriggerMonitor.fire] using hne
      · simp

theorem iterate_bare {monitor : TriggerMonitor} (h : Bare monitor) (o : Observation) :
    Bare (monitor.iterate o).1 := by
  rw [iterate_of_some (checkReturnTimeDeviation_bare h _)]
  dsimp only
  split
  · exact h
  · split
    · exact h
    · split
      · exact h
      · exact h

/-! ### One trigger of the controller -/

theorem callsRun_handleTrigger (cfg : ControllerConfig) (s : DepotController) :
    callsRun s (s.handleTrigger cfg) = true ↔
      s.coolingDown cfg = false ∧ s.breaker.holds s.now = false := by
  unfold callsRun DepotController.handleTrigger
  by_cases hcooling : s.coolingDown cfg = true
  · simp [hcooling]
  · by_cases hholds : s.breaker.holds s.now = true
    · simp [hcooling, hholds]
    · by_cases hopen : s.breaker.isOpen = true <;>
        simp [hcooling, hholds, hopen, DepotController.begin, DepotController.clear]

theorem callsRun_triggered (cfg : ControllerConfig) (s : DepotController) (reason : Option TriggerReason) :
    callsRun s (triggered cfg s reason) = true ↔
      reason.isSome = true ∧ s.coolingDown cfg = false ∧ s.breaker.holds s.now = false := by
  unfold triggered
  by_cases hreason : reason.isSome = true
  · rw [if_pos hreason, callsRun_handleTrigger]
    exact (and_iff_right hreason).symm
  · rw [if_neg hreason]
    simp [callsRun, hreason]

/-! ### Over whole runs -/

def Served (s : Depot) : Prop := Bare s.monitor ∧ EveryHourCalled s

theorem served_init (cfg : ControllerConfig) (now : ℤ) : Served (.init cfg now) := by
  refine ⟨⟨rfl, rfl⟩, ?_⟩
  intro h hh
  cases hh

theorem bare_step (cfg : ControllerConfig) (s : Depot) (e : Event) (h : Bare s.monitor) :
    Bare (step cfg s e).monitor := by
  cases e with
  | control e => exact h
  | startTick =>
    simp only [step]
    split
    · exact h
    · exact h
  | endTick o =>
    cases ht : s.tick with
    | none => simpa [step, ht] using h
    | some t => simpa [step, ht] using iterate_bare h (observed t o)
  | expectations expectedSocs prices => exact ⟨h.1, rfl⟩

theorem everyHourCalled_endTick_iff {cfg : ControllerConfig} {s : Depot} {o : Observation} {t : ℤ}
    (ht : s.tick = some t) (h : EveryHourCalled s) :
    EveryHourCalled (step cfg s (.endTick o)) ↔
      (clockHour t ∉ s.tickedHours → s.controller.breaker.holds s.controller.now = false →
        clockHour t ∈ s.calledHours ∨
          callsRun s.controller (step cfg s (.endTick o)).controller = true) := by
  have hcalled : ∀ h' ∈ s.calledHours, h' ∈ (step cfg s (.endTick o)).calledHours := by
    intro h' hh'
    simp only [step, ht]
    split
    · exact List.mem_cons_of_mem _ (List.mem_cons_of_mem _ hh')
    · exact hh'
  constructor
  · intro hafter hfirst hholds
    have hmem : clockHour t ∈ (step cfg s (.endTick o)).closedHours := by
      simp [step, ht, hfirst, hholds]
    have hcall := hafter _ hmem
    by_cases hcalls : callsRun s.controller (step cfg s (.endTick o)).controller = true
    · exact Or.inr hcalls
    · simp only [step, ht] at hcall hcalls
      rw [if_neg hcalls] at hcall
      exact Or.inl hcall
  · intro hcond h' hh'
    by_cases hnew : clockHour t ∉ s.tickedHours ∧
        s.controller.breaker.holds s.controller.now = false
    · simp only [step, ht, if_pos hnew, List.mem_cons] at hh'
      rcases hh' with rfl | hold
      · rcases hcond hnew.1 hnew.2 with hbefore | hcalls
        · exact hcalled _ hbefore
        · simp only [step, ht] at hcalls ⊢
          rw [if_pos hcalls]
          exact List.mem_cons_self
      · exact hcalled _ (h _ hold)
    · simp only [step, ht, if_neg hnew] at hh'
      exact hcalled _ (h _ hh')

theorem callsRun_endTick {cfg : ControllerConfig} {s : Depot} {o : Observation} {t : ℤ} (ht : s.tick = some t) :
    callsRun s.controller (step cfg s (.endTick o)).controller = true ↔
      (s.monitor.iterate (observed t o)).2.isSome = true ∧ s.controller.coolingDown cfg = false ∧
        s.controller.breaker.holds s.controller.now = false := by
  rw [← callsRun_triggered]
  simp only [step, ht]

theorem hourServed_endTick_iff {cfg : ControllerConfig} {s : Depot} {o : Observation} {t : ℤ}
    (ht : s.tick = some t) (h : Served s) :
    HourServed cfg s (.endTick o) ↔ Unhindered cfg s (.endTick o) := by
  rw [HourServed, ScheduledHandled, Unhindered, everyHourCalled_endTick_iff ht h.2, callsRun_endTick ht,
    iterate_bare_calls h.1]
  simp only [ht, Option.some.injEq, forall_eq', iterate_scheduled h.1]
  by_cases hnew : s.monitor.lastScheduledHour ≠ some (Controller.hourOf t)
  · simp only [hnew, ne_eq, not_false_eq_true, if_true, true_or, true_and]
    constructor
    · intro hserved hholds
      exact (hserved.1 trivial hholds).1
    · intro hcond
      exact ⟨fun _ hholds => ⟨hcond hholds, hholds⟩, fun _ hholds => Or.inr ⟨hcond hholds, hholds⟩⟩
  · simp only [hnew, if_false, false_or, false_imp_iff, true_and]
    constructor
    · intro hserved hholds hfirst
      rcases hserved hfirst hholds with hbefore | ⟨hfound, hcool, _⟩
      · exact Or.inl hbefore
      · exact Or.inr ⟨hcool, hfound⟩
    · intro hcond hfirst hholds
      rcases hcond hholds hfirst with hbefore | ⟨hcool, hfound⟩
      · exact Or.inl hbefore
      · exact Or.inr ⟨hfound, hcool, hholds⟩

theorem hourServed_iff_of_served (cfg : ControllerConfig) (s : Depot) (e : Event) (h : Served s) :
    HourServed cfg s e ↔ Unhindered cfg s e := by
  cases e with
  | control e =>
    refine iff_of_true ⟨trivial, ?_⟩ trivial
    intro h' hh'
    have hcalled := h.2 h' hh'
    simp only [step]
    split
    · exact List.mem_cons_of_mem _ hcalled
    · exact hcalled
  | startTick =>
    refine iff_of_true ⟨trivial, ?_⟩ trivial
    simp only [step]
    split
    · exact h.2
    · exact h.2
  | expectations expectedSocs prices => exact iff_of_true ⟨trivial, h.2⟩ trivial
  | endTick o =>
    cases ht : s.tick with
    | none =>
      have hstep : step cfg s (.endTick o) = s := by simp [step, ht]
      refine iff_of_true ⟨?_, ?_⟩ ?_
      · intro t ht'
        cases ht.symm.trans ht'
      · rw [hstep]
        exact h.2
      · intro t ht'
        cases ht.symm.trans ht'
    | some t => exact hourServed_endTick_iff ht h

/-- **Every hour gets its run**, and no hourly trigger is dropped, along a run of the controller and its
monitor if and only if no iteration of the run is hindered. -/
theorem hourServed_iff_unhindered (cfg : ControllerConfig) (start : ℤ) (events : List Event) :
    Run.Along (step cfg) (HourServed cfg) (.init cfg start) events ↔
      Run.Along (step cfg) (Unhindered cfg) (.init cfg start) events := by
  refine Run.along_iff_along (hourServed_iff_of_served cfg) ?_ (served_init cfg start)
  intro s e hserved h
  exact ⟨bare_step cfg s e h.1, hserved.2⟩

/-- A minute of the service: the control loop looks up the depot, and the monitor looks at a depot where
nothing has changed. -/
def quietMinute : List Event :=
  [.control (.advance 60000000), .control .wakeLoop, .control (.depotChecked true), .startTick,
    .endTick { now := 0 }]

/-- The service starts at 02:57.  The first iteration of the monitor triggers a run, which returns within
the minute, and an hour and five quiet minutes follow. -/
def startedBeforeTheHour : List Event :=
  ([.control .startLoop, .control (.depotChecked true), .startTick, .endTick { now := 0 }] : List Event) ++
    List.replicate 4 (Event.control (.reply 0 .returned)) ++ (List.replicate 65 quietMinute).flatten

/-- The trigger of 03:00 is dropped: the hour from three to four passes without a run, with the circuit
breaker closed and sixty iterations of the monitor. -/
theorem hourly_trigger_dropped :
    (¬ ∀ (cfg : ControllerConfig) (start : ℤ) (events : List Event),
      Run.Along (step cfg) (HourServed cfg) (.init cfg start) events) ∧
    ∃ (cfg : ControllerConfig) (start : ℤ) (events : List Event) (h : ℤ),
      let s := Run.run (step cfg) (.init cfg start) events
      h ∈ s.closedHours ∧ h < clockHour s.controller.now ∧ h ∉ s.calledHours := by
  have hmissed : 3 ∈ (Run.run (step {}) (.init {} (177 * minute)) startedBeforeTheHour).closedHours ∧
      3 < clockHour (Run.run (step {}) (.init {} (177 * minute)) startedBeforeTheHour).controller.now ∧
      3 ∉ (Run.run (step {}) (.init {} (177 * minute)) startedBeforeTheHour).calledHours := by
    decide +kernel
  refine ⟨?_, {}, 177 * minute, startedBeforeTheHour, 3, hmissed⟩
  intro h
  have hserved : EveryHourCalled (Run.run (step {}) (.init {} (177 * minute)) startedBeforeTheHour) :=
    Run.run_invariant_along (fun s e hserved _ => hserved.2) (served_init {} (177 * minute)).2
      (h {} (177 * minute) startedBeforeTheHour)
  exact hmissed.2.2 (hserved 3 hmissed.1)

end FavoniusBackend.Control.HourlyTrigger
