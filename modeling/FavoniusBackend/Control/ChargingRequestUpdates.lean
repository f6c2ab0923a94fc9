import FavoniusBackend.Control.Triggers

/-!
# Updates of the charging requests

The VDV 463 interface notes in `vdv463_depot_updates` when a depot's charging requests were last updated.
The trigger monitor reads the note at every iteration and compares it with its last reading.  It takes
the new reading before it is known whether `on_trigger` will be called, so an update whose reading is the
first one, or whose trigger the cooldown suppresses, is taken for handled.

`notSwallowed_iff_attended` says at which iterations that happens, over whole runs.
-/

namespace FavoniusBackend.Control.ChargingRequestUpdates

open Lib Optimizer.Models Control.Triggers

/-! ### Runs of the monitor -/

/-- The monitor, and the newest update that a call of `on_trigger` has covered. -/
structure Watch where
  monitor : TriggerMonitor
  covered : Option ℚ := none

inductive Event
  | tick (o : Observation)
  -- An optimization run leaves its expectations and its prices.
  | expectedState (expectedSocs : Dict VehicleId ℚ) (expectedReturnTimes : Dict VehicleId Stamp)
  | prices (prices : Dict Stamp ℚ)

def coveredBy (covered : Option ℚ) (call : Option TriggerReason) (lastUpdateAt : Option ℚ) : Option ℚ :=
  match call, lastUpdateAt with
  | some _, some u => some (covered.elim u (max u))
  | _, _ => covered

def step (w : Watch) : Event → Watch
  | .tick o =>
    { monitor := (w.monitor.iterate o).1
      covered := coveredBy w.covered (w.monitor.iterate o).2 o.lastUpdateAt }
  | .expectedState expectedSocs expectedReturnTimes =>
    { w with monitor := w.monitor.updateExpectedState expectedSocs expectedReturnTimes }
  | .prices prices => { w with monitor := w.monitor.updatePrices prices }

def Watch.init (config : TriggerConfig) (hasPool : Bool) : Watch where
  monitor := TriggerMonitor.init config hasPool

/-! ### What is asked of the monitor -/

def IsNewer (covered : Option ℚ) (u : ℚ) : Prop := ∀ c, covered = some c → c < u

def StillReports (monitor : TriggerMonitor) (u : ℚ) : Prop :=
  ∀ (o : Observation) (u' : ℚ), o.lastUpdateAt = some u' → u ≤ u' → o.updateQueryFails = false →
    (monitor.checkVdv463ChargingRequestChange o).2 = some .vdv463ChargingRequestChange

/-- Where the noted update is newer than what has been covered, `on_trigger` is called or the monitor will
report it at the next iteration. -/
def NotSwallowed (w : Watch) : Event → Prop
  | .tick o => ∀ u, o.lastUpdateAt = some u → IsNewer w.covered u →
      (w.monitor.iterate o).2.isSome = true ∨ StillReports (w.monitor.iterate o).1 u
  | _ => True

/-! ### The condition on the iterations -/

def newHour (monitor : TriggerMonitor) (o : Observation) : Bool :=
  decide (monitor.lastScheduledHour ≠ some (hourOf o.now))

/-- The return times can be compared with the expected ones. -/
def comparable (monitor : TriggerMonitor) (o : Observation) : Bool :=
  (monitor.checkReturnTimeDeviation o.actualReturns).isSome

def otherTrigger (monitor : TriggerMonitor) (o : Observation) : Bool :=
  (monitor.checkSocDeviation o.currentSocs).isSome ||
    (monitor.checkPriceChange o.currentPrices).isSome ||
    ((monitor.checkReturnTimeDeviation o.actualReturns).getD none).isSome

def readsNote (monitor : TriggerMonitor) (o : Observation) : Bool :=
  comparable monitor o && monitor.hasPool && !o.updateQueryFails

/-- Where the noted update is newer than what has been covered: it is the first iteration in a clock hour,
or the cooldown is over and another check reports or the note has been read before; or the note has been
read before and cannot be read now. -/
def Attended (w : Watch) : Event → Prop
  | .tick o => ∀ u, o.lastUpdateAt = some u → IsNewer w.covered u →
      (comparable w.monitor o = true ∧
        (newHour w.monitor o = true ∨
          w.monitor.cooledDown o.now = true ∧
            (otherTrigger w.monitor o = true ∨
              readsNote w.monitor o = true ∧ w.monitor.lastVdv463UpdateAt.isSome = true))) ∨
      readsNote w.monitor o = false ∧ w.monitor.hasPool = true ∧
        w.monitor.lastVdv463UpdateAt.isSome = true
  | _ => True

/-! ### The check and the iteration -/

def readingOf (monitor : TriggerMonitor) (o : Observation) : Option ℚ :=
  if monitor.hasPool && !o.updateQueryFails then o.lastUpdateAt.or monitor.lastVdv463UpdateAt
  else monitor.lastVdv463UpdateAt

def reportOf (monitor : TriggerMonitor) (o : Observation) : Option TriggerReason :=
  if (monitor.hasPool && !o.updateQueryFails) && o.lastUpdateAt.any fun u =>
      monitor.lastVdv463UpdateAt.any fun t => decide (t < u) then
    some .vdv463ChargingRequestChange
  else none

theorem check_eq (monitor : TriggerMonitor) (o : Observation) :
    monitor.checkVdv463ChargingRequestChange o =
      ({ monitor with lastVdv463UpdateAt := readingOf monitor o }, reportOf monitor o) := by
  unfold TriggerMonitor.checkVdv463ChargingRequestChange readingOf reportOf
  by_cases hread : (monitor.hasPool && !o.updateQueryFails) = true
  · simp only [hread, if_true, Bool.true_and]
    cases o.lastUpdateAt <;> rfl
  · simp only [hread]
    rfl

theorem reportOf_iff {monitor : TriggerMonitor} {o : Observation} {u : ℚ}
    (hu : o.lastUpdateAt = some u) :
    reportOf monitor o = some .vdv463ChargingRequestChange ↔
      (monitor.hasPool = true ∧ o.updateQueryFails = false) ∧
        ∃ t, monitor.lastVdv463UpdateAt = some t ∧ t < u := by
  simp [reportOf, hu, Option.any_eq_true, and_assoc]

theorem reportOf_isSome_iff {monitor : TriggerMonitor} {o : Observation} {u : ℚ}
    (hu : o.lastUpdateAt = some u) (hcomparable : comparable monitor o = true) :
    (reportOf monitor o).isSome = true ↔
      readsNote monitor o = true ∧ ∃ t, monitor.lastVdv463UpdateAt = some t ∧ t < u := by
  simp [reportOf, hu, readsNote, hcomparable, Option.any_eq_true, and_assoc]

theorem stillReports_iff (monitor : TriggerMonitor) (u : ℚ) :
    StillReports monitor u ↔
      monitor.hasPool = true ∧ ∃ t, monitor.lastVdv463UpdateAt = some t ∧ t < u := by
  constructor
  · intro h
    have hreport := h { now := 0, lastUpdateAt := some u } u rfl le_rfl rfl
    rw [check_eq] at hreport
    have hcheck := (reportOf_iff rfl).1 hreport
    exact ⟨hcheck.1.1, hcheck.2⟩
  · intro h o u' hu' hle hfails
    obtain ⟨hpool, t, ht, hlt⟩ := h
    rw [check_eq]
    exact (reportOf_iff hu').2 ⟨⟨hpool, hfails⟩, t, ht, lt_of_lt_of_le hlt hle⟩

def reasonOf (monitor : TriggerMonitor) (o : Observation) (returnTrigger : Option TriggerReason) :
    Option TriggerReason :=
  monitor.checkSocDeviation o.currentSocs <|> monitor.checkPriceChange o.currentPrices <|>
    returnTrigger <|> reportOf monitor o

theorem iterate_of_none {monitor : TriggerMonitor} {o : Observation}
    (h : monitor.checkReturnTimeDeviation o.actualReturns = none) :
    monitor.iterate o = ({ monitor with lastScheduledHour := some (hourOf o.now) }, none) := by
  have hnoted : { monitor with
      lastScheduledHour := some (hourOf o.now) }.checkReturnTimeDeviation o.actualReturns = none := h
  simp only [TriggerMonitor.iterate, hnoted]

theorem iterate_of_some {monitor : TriggerMonitor} {o : Observation}
    {returnTrigger : Option TriggerReason}
    (h : monitor.checkReturnTimeDeviation o.actualReturns = some returnTrigger) :
    monitor.iterate o =
      let read := { monitor with
        lastScheduledHour := some (hourOf o.now), lastVdv463UpdateAt := readingOf monitor o }
      if newHour monitor o then read.fire o .scheduled
      else
        match reasonOf monitor o returnTrigger with
        | none => (read, none)
        | some reason => if monitor.cooledDown o.now then read.fire o reason else (read, none) := by
  have hnoted : { monitor with
      lastScheduledHour := some (hourOf o.now) }.checkReturnTimeDeviation o.actualReturns =
        some returnTrigger := h
  simp only [TriggerMonitor.iterate, hnoted, check_eq]
  rfl

theorem reasonOf_isSome {monitor : TriggerMonitor} {o : Observation}
    {returnTrigger : Option TriggerReason}
    (h : monitor.checkReturnTimeDeviation o.actualReturns = some returnTrigger) :
    (reasonOf monitor o returnTrigger).isSome = true ↔
      otherTrigger monitor o = true ∨ (reportOf monitor o).isSome = true := by
  simp only [reasonOf, otherTrigger, h, Option.getD_some, Option.orElse_eq_orElse, Option.orElse_eq_or,
    Option.isSome_or, Bool.or_eq_true, or_assoc]

theorem iterate_calls (monitor : TriggerMonitor) (o : Observation) :
    (monitor.iterate o).2.isSome = true ↔
      comparable monitor o = true ∧ (newHour monitor o = true ∨
        monitor.cooledDown o.now = true ∧
          (otherTrigger monitor o = true ∨ (reportOf monitor o).isSome = true)) := by
  unfold comparable
  cases h : monitor.checkReturnTimeDeviation o.actualReturns with
  | none =>
    rw [iterate_of_none h]
    simp
  | some returnTrigger =>
    rw [iterate_of_some h, ← reasonOf_isSome h]
    by_cases hnew : newHour monitor o = true
    · simp [hnew, TriggerMonitor.fire]
    · cases hreason : reasonOf monitor o returnTrigger with
      | none => simp [hnew]
      | some reason =>
        by_cases hcool : monitor.cooledDown o.now = true <;>
          simp [hnew, hcool, TriggerMonitor.fire]

theorem iterate_frame (monitor : TriggerMonitor) (o : Observation) :
    (monitor.iterate o).1.hasPool = monitor.hasPool ∧
      (monitor.iterate o).1.lastVdv463UpdateAt =
        if readsNote monitor o then o.lastUpdateAt.or monitor.lastVdv463UpdateAt
        else monitor.lastVdv463UpdateAt := by
  cases h : monitor.checkReturnTimeDeviation o.actualReturns with
  | none =>
    rw [iterate_of_none h]
    simp [readsNote, comparable, h]
  | some returnTrigger =>
    have hread : readsNote monitor o = (monitor.hasPool && !o.updateQueryFails) := by
      simp [readsNote, comparable, h]
    rw [iterate_of_some h, hread]
    dsimp only
    split
    · exact ⟨rfl, rfl⟩
    · split
      · exact ⟨rfl, rfl⟩
      · split
        · exact ⟨rfl, rfl⟩
        · exact ⟨rfl, rfl⟩

/-! ### Over whole runs -/

def ReadingsCovered (w : Watch) : Prop :=
  ∀ t, w.monitor.lastVdv463UpdateAt = some t → ∃ c, w.covered = some c ∧ t ≤ c

theorem newer_than_reading {w : Watch} {u : ℚ} (h : ReadingsCovered w) (hnewer : IsNewer w.covered u) :
    (∃ t, w.monitor.lastVdv463UpdateAt = some t ∧ t < u) ↔
      w.monitor.lastVdv463UpdateAt.isSome = true := by
  rw [Option.isSome_iff_exists]
  constructor
  · intro ⟨t, ht, _⟩
    exact ⟨t, ht⟩
  · intro ⟨t, ht⟩
    obtain ⟨c, hc, hle⟩ := h t ht
    exact ⟨t, ht, lt_of_le_of_lt hle (hnewer c hc)⟩

theorem notSwallowed_iff_of_covered (w : Watch) (e : Event) (h : ReadingsCovered w) :
    NotSwallowed w e ↔ Attended w e := by
  cases e with
  | expectedState expectedSocs expectedReturnTimes => exact Iff.rfl
  | prices prices => exact Iff.rfl
  | tick o =>
    refine forall_congr' fun u => forall_congr' fun hu => forall_congr' fun hnewer => ?_
    have hlast := newer_than_reading h hnewer
    obtain ⟨hpool, hreading⟩ := iterate_frame w.monitor o
    rw [iterate_calls, stillReports_iff, hpool, hreading, hu]
    refine or_congr (and_congr_right fun hcomparable => ?_) ?_
    · rw [reportOf_isSome_iff hu hcomparable, hlast]
    · by_cases hread : readsNote w.monitor o = true
      · -- The reading is the update itself, which is not newer than itself.
        simp [hread]
      · simp only [hread, hlast, if_false, Bool.false_eq_true, true_and]

theorem covered_of_call (covered : Option ℚ) (reason : TriggerReason) (u : ℚ) :
    ∃ c, coveredBy covered (some reason) (some u) = some c ∧ u ≤ c ∧
      ∀ c', covered = some c' → c' ≤ c := by
  cases covered with
  | none => exact ⟨u, rfl, le_rfl, fun c' hc' => by cases hc'⟩
  | some c =>
    refine ⟨max u c, rfl, le_max_left u c, ?_⟩
    intro c' hc'
    cases hc'
    exact le_max_right u c

theorem covered_mono {covered : Option ℚ} {call : Option TriggerReason} {lastUpdateAt : Option ℚ} {c : ℚ}
    (hc : covered = some c) : ∃ c', coveredBy covered call lastUpdateAt = some c' ∧ c ≤ c' := by
  cases call with
  | none => exact ⟨c, by rw [← hc]; rfl, le_rfl⟩
  | some reason =>
    cases lastUpdateAt with
    | none => exact ⟨c, by rw [← hc]; rfl, le_rfl⟩
    | some u =>
      obtain ⟨c', hc', _, hle⟩ := covered_of_call covered reason u
      exact ⟨c', hc', hle c hc⟩

/-- An update that is read and not swallowed is covered afterwards: it was before, or the iteration calls,
since a reading is not newer than itself. -/
theorem covered_of_kept {w : Watch} {o : Observation} {u : ℚ} (hread : readsNote w.monitor o = true)
    (hu : o.lastUpdateAt = some u)
    (hkept : IsNewer w.covered u →
      (w.monitor.iterate o).2.isSome = true ∨ StillReports (w.monitor.iterate o).1 u) :
    ∃ c, (step w (.tick o)).covered = some c ∧ u ≤ c := by
  show ∃ c, coveredBy w.covered (w.monitor.iterate o).2 o.lastUpdateAt = some c ∧ u ≤ c
  by_cases hnewer : IsNewer w.covered u
  · rcases hkept hnewer with hcall | hstill
    · obtain ⟨reason, hreason⟩ := Option.isSome_iff_exists.1 hcall
      rw [hreason, hu]
      obtain ⟨c, hc, hle, _⟩ := covered_of_call w.covered reason u
      exact ⟨c, hc, hle⟩
    · obtain ⟨_, t, ht, hlt⟩ := (stillReports_iff _ u).1 hstill
      rw [(iterate_frame w.monitor o).2, if_pos hread, hu] at ht
      obtain rfl : u = t := Option.some.inj ht
      exact absurd hlt (lt_irrefl u)
  · unfold IsNewer at hnewer
    push Not at hnewer
    obtain ⟨c, hc, hle⟩ := hnewer
    obtain ⟨c', hc', hle'⟩ := covered_mono hc
    exact ⟨c', hc', hle.trans hle'⟩

/-- An iteration that does not swallow its update leaves every reading covered: a new reading is either
not newer than what has been covered, or the iteration called. -/
theorem readingsCovered_step (w : Watch) (e : Event) (hkept : NotSwallowed w e)
    (h : ReadingsCovered w) : ReadingsCovered (step w e) := by
  cases e with
  | expectedState expectedSocs expectedReturnTimes => exact h
  | prices prices => exact h
  | tick o =>
    intro t ht
    have hold : w.monitor.lastVdv463UpdateAt = some t →
        ∃ c, (step w (.tick o)).covered = some c ∧ t ≤ c := by
      intro hlast
      obtain ⟨c, hc, hle⟩ := h t hlast
      obtain ⟨c', hc', hle'⟩ := covered_mono hc
      exact ⟨c', hc', hle.trans hle'⟩
    have hreading : (w.monitor.iterate o).1.lastVdv463UpdateAt = some t := ht
    rw [(iterate_frame w.monitor o).2] at hreading
    by_cases hread : readsNote w.monitor o = true
    · cases hu : o.lastUpdateAt with
      | none =>
        rw [if_pos hread, hu] at hreading
        exact hold hreading
      | some u =>
        rw [if_pos hread, hu] at hreading
        obtain rfl : u = t := Option.some.inj hreading
        exact covered_of_kept hread hu (hkept u hu)
    · rw [if_neg hread] at hreading
      exact hold hreading

/-- **No update is swallowed**, at any iteration of a run, if and only if every iteration of the run
attends to the update that is noted. -/
theorem notSwallowed_iff_attended (config : TriggerConfig) (hasPool : Bool) (events : List Event) :
    Run.Along step NotSwallowed (.init config hasPool) events ↔
      Run.Along step Attended (.init config hasPool) events := by
  have hinit : ReadingsCovered (.init config hasPool) := by
    intro t ht
    cases ht
  exact Run.along_iff_along notSwallowed_iff_of_covered readingsCovered_step hinit

/-- The first iteration of a monitor with a pool, at midnight; the requests are updated half a minute
later, and the iteration after a minute finds the cooldown running. -/
def suppressedUpdate : List Event :=
  [.tick { now := 0, lastUpdateAt := some 0 }, .tick { now := 60, lastUpdateAt := some 30 }]

/-- The update is reported once, the cooldown suppresses the trigger, and no later iteration reports it
again. -/
theorem suppressed_update_swallowed :
    ¬ ∀ (config : TriggerConfig) (hasPool : Bool) (events : List Event),
      Run.Along step NotSwallowed (.init config hasPool) events := by
  intro h
  obtain ⟨_, hsecond, _⟩ := h {} true suppressedUpdate
  have hnewer : IsNewer (step (.init {} true) (.tick { now := 0, lastUpdateAt := some 0 })).covered 30 := by
    intro c hc
    rw [show (step (.init {} true) (.tick { now := 0, lastUpdateAt := some 0 })).covered = some 0 by
      decide +kernel] at hc
    cases hc
    decide +kernel
  rcases hsecond 30 rfl hnewer with hcall | hstill
  · revert hcall
    decide +kernel
  · have hreport := hstill { now := 120, lastUpdateAt := some 30 } 30 rfl le_rfl rfl
    revert hreport
    decide +kernel

end FavoniusBackend.Control.ChargingRequestUpdates
