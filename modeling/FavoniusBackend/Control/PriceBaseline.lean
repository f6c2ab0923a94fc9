import FavoniusBackend.Control.Triggers
import FavoniusBackend.Lib.DictViews
import FavoniusBackend.State.AssemblyRuns

/-!
# The price baseline

A successful optimization run leaves the prices it used with the trigger monitor, each under a timestamp
that is read from the clock when the baseline is built.  At an iteration the monitor stamps the current
prices by the clock of that moment, and compares the two where a timestamp occurs in both and the old
price is positive.

Whatever the history, the baseline is the one of the last run that succeeded (`baseline_run`).  A price is to be
reported where it moved too far for some quarter-hour slot, whatever the two clocks read; it is if and only if then
some timestamp is one of the baseline and one of the current prices at once, the price there was positive, and it is
this pair that moved too far (`slot_change_reported_iff`).  A price that was zero or negative is not compared, however
far it moves, and two readings of the clock seldom give one timestamp.
-/

namespace FavoniusBackend.Control.PriceBaseline

open Lib Optimizer.Models Control.Triggers
open State.Database State.Assembler State.AssemblyRuns
open State.AssembledInputs

/-! ### Stamped prices -/

/-- The first 24 prices, the one at `i` under `clock i + timedelta(hours=i * delta_t)`. -/
def stampPrices (clock : ℕ → ℚ) (deltaT : ℚ) (prices : List ℚ) : Dict Stamp ℚ :=
  Dict.ofList ((prices.take 24).zipIdx.map fun p =>
    (Stamp.naive (clock p.2 + timedelta (p.2 * deltaT * 3600)), p.1))

/-- Where `_get_current_prices` takes the prices from. -/
inductive PriceFetch
  -- `datetime.utcnow()` is read once, after the state has been assembled.
  | assembler (env : Environment) (now : ℚ)
  -- Times and prices of the query without an assembler; `none` where it fails or cannot be made.
  | pool (rows : Option (List (ℚ × ℚ)))

def getCurrentPrices (assembler : StateAssembler) : PriceFetch → Dict Stamp ℚ
  | .assembler env now =>
    match result assembler ⟨env, 24⟩ with
    | .ok state => stampPrices (fun _ => now) (assemble assembler ⟨env, 24⟩).config.deltaT state.prices
    | .error _ => .empty
  | .pool (some rows) => Dict.ofList (rows.map fun r => (Stamp.aware r.1, r.2))
  | .pool none => .empty

/-! ### Histories -/

structure PricedRun where
  start : ℚ
  prices : List ℚ

/-- A run that succeeded, with the readings of `datetime.utcnow()` for its baseline. -/
structure PricedSuccess extends PricedRun where
  clock : ℕ → ℚ

/-- The controller as far as prices are concerned; `lastSuccess` is kept for the statements only. -/
structure PriceWatch where
  config : DepotConfig
  assembler : StateAssembler
  monitor : TriggerMonitor
  underWay : List PricedRun := []
  lastSuccess : Option PricedSuccess := none

/-- A controller that has just been constructed; its monitor uses the assembler and has no pool. -/
def PriceWatch.init (trigger : TriggerConfig) (depotId : String) (config : DepotConfig) : PriceWatch where
  config := config
  assembler := StateAssembler.init depotId config
  monitor := TriggerMonitor.init trigger false

inductive Event
  -- A run assembles its state; the database is the one of that moment.
  | assembled (call : Assembly)
  -- The run at position `i` of those under way succeeds.
  | succeeded (i : ℕ) (clock : ℕ → ℚ)
  -- It fails or is cancelled.
  | abandoned (i : ℕ)
  -- The monitor fetches the current prices.
  | looked (env : Environment)

def step (s : PriceWatch) : Event → PriceWatch
  | .assembled call =>
    { s with
      assembler := assemble s.assembler call
      underWay := match result s.assembler call with
        | .ok state => s.underWay ++ [⟨call.env.now, state.prices⟩]
        | .error _ => s.underWay }
  | .succeeded i clock =>
    match s.underWay[i]? with
    | some r =>
      { s with
        monitor := s.monitor.updatePrices (stampPrices clock s.config.deltaT r.prices)
        underWay := s.underWay.eraseIdx i
        lastSuccess := some { r with clock := clock } }
    | none => s
  | .abandoned i => { s with underWay := s.underWay.eraseIdx i }
  | .looked env => { s with assembler := assemble s.assembler ⟨env, 24⟩ }

def history (trigger : TriggerConfig) (depotId : String) (config : DepotConfig) (events : List Event) :
    PriceWatch :=
  Run.run step (.init trigger depotId config) events

def baselineOf (config : DepotConfig) : Option PricedSuccess → Dict Stamp ℚ
  | some r => stampPrices r.clock config.deltaT r.prices
  | none => .empty

/-- What stays what it was, and the baseline of the last run that succeeded. -/
structure Baseline (trigger : TriggerConfig) (config : DepotConfig) (s : PriceWatch) : Prop where
  trigger_eq : s.monitor.config = trigger
  config_eq : s.config = config
  prices : s.monitor.lastPrices = baselineOf config s.lastSuccess

theorem baseline_step {trigger : TriggerConfig} {config : DepotConfig} (s : PriceWatch) (e : Event)
    (h : Baseline trigger config s) : Baseline trigger config (step s e) := by
  cases e with
  | assembled call => exact ⟨h.trigger_eq, h.config_eq, h.prices⟩
  | succeeded i clock =>
    simp only [step]
    split
    · refine ⟨h.trigger_eq, h.config_eq, ?_⟩
      rw [← h.config_eq]
      rfl
    · exact h
  | abandoned i => exact ⟨h.trigger_eq, h.config_eq, h.prices⟩
  | looked env => exact ⟨h.trigger_eq, h.config_eq, h.prices⟩

theorem baseline_run (trigger : TriggerConfig) (depotId : String) (config : DepotConfig)
    (events : List Event) : Baseline trigger config (history trigger depotId config events) :=
  Run.run_invariant step (Baseline trigger config) events (fun s e _ h => baseline_step s e h) _
    ⟨rfl, rfl, rfl⟩

/-! ### The comparison -/

/-- The price of a timestamp: that of the last step, among the first 24, that is stamped so. -/
def StampedAt (clock : ℕ → ℚ) (deltaT : ℚ) (prices : List ℚ) (ts : Stamp) (price : ℚ) : Prop :=
  ∃ i : ℕ, i < 24 ∧ prices[i]? = some price ∧ Stamp.naive (clock i + timedelta (i * deltaT * 3600)) = ts ∧
    ∀ j : ℕ, i < j → j < 24 → j < prices.length → Stamp.naive (clock j + timedelta (j * deltaT * 3600)) ≠ ts

theorem get?_stampPrices {clock : ℕ → ℚ} {deltaT : ℚ} {prices : List ℚ} {ts : Stamp} {price : ℚ} :
    (stampPrices clock deltaT prices).get? ts = some price ↔ StampedAt clock deltaT prices ts price := by
  have hentry (i : ℕ) (p : ℚ) : ((prices.take 24).zipIdx.map fun p =>
      (Stamp.naive (clock p.2 + timedelta (p.2 * deltaT * 3600)), p.1))[i]? = some (ts, p) ↔
        i < 24 ∧ prices[i]? = some p ∧ Stamp.naive (clock i + timedelta (i * deltaT * 3600)) = ts := by
    rw [List.getElem?_map, List.getElem?_zipIdx, List.getElem?_take]
    split
    · rename_i hi
      cases prices[i]? with
      | none => simp
      | some q => simp [hi, and_comm]
    · rename_i hi
      simp [hi]
  rw [stampPrices, Dict.get?_ofList_eq_some_iff, StampedAt]
  refine exists_congr fun i => ?_
  rw [hentry, and_assoc, and_assoc]
  refine and_congr_right fun _ => and_congr_right fun _ => and_congr_right fun _ => ?_
  constructor
  · intro h j hij hj hlength hts
    exact h j prices[j] hij ((hentry j _).2 ⟨hj, List.getElem?_eq_getElem hlength, hts⟩)
  · intro h j w hij hget
    obtain ⟨hj, hprice, hts⟩ := (hentry j w).1 hget
    exact h j hij hj (List.getElem?_eq_some_iff.1 hprice).1 hts

/-- The price moved by more than one of the thresholds: the absolute one per MWh, or the percentage of
the old price's absolute value. -/
def MovedTooFar (trigger : TriggerConfig) (last current : ℚ) : Prop :=
  trigger.priceChangeAbsolute < |current - last| * 1000 ∨
    trigger.priceChangePercent * |last| < |current - last|

instance (trigger : TriggerConfig) (last current : ℚ) :
    Decidable (MovedTooFar trigger last current) :=
  inferInstanceAs (Decidable (_ ∨ _))

theorem priceChangeOf_isSome {monitor : TriggerMonitor} {ts : Stamp} {current : ℚ} :
    (priceChangeOf monitor (ts, current)).isSome = true ↔
      ∃ last, monitor.lastPrices.get? ts = some last ∧ 0 < last ∧ MovedTooFar monitor.config last current := by
  unfold priceChangeOf
  cases hlast : monitor.lastPrices.get? ts with
  | none => simp
  | some last =>
    by_cases hpos : 0 < last
    · have hthreshold : (monitor.config.priceChangePercent < |current - last| / last ∨
          monitor.config.priceChangeAbsolute < |current - last| * 1000) ↔
            MovedTooFar monitor.config last current := by
        rw [MovedTooFar, abs_of_pos hpos, lt_div_iff₀ hpos]
        exact or_comm
      simp [hpos, hthreshold]
    · simp [hpos]

/-- A reason is returned exactly where some timestamp of both dictionaries has a positive old price that moved too
far. -/
theorem checkPriceChange_iff {monitor : TriggerMonitor} {prices : Dict Stamp ℚ} :
    (∃ reason, monitor.checkPriceChange prices = some reason) ↔
      ∃ ts last current, monitor.lastPrices.get? ts = some last ∧ prices.get? ts = some current ∧ 0 < last ∧
        MovedTooFar monitor.config last current := by
  rw [← Option.isSome_iff_exists, TriggerMonitor.checkPriceChange, List.findSome?_isSome_iff]
  constructor
  · rintro ⟨⟨ts, current⟩, hmem, hsome⟩
    obtain ⟨last, hlast, hpos, hmoved⟩ := priceChangeOf_isSome.1 hsome
    exact ⟨ts, last, current, hlast, Dict.mem_items_iff.1 hmem, hpos, hmoved⟩
  · rintro ⟨ts, last, current, hlast, hcurrent, hpos, hmoved⟩
    exact ⟨(ts, current), Dict.mem_items_iff.2 hcurrent, priceChangeOf_isSome.2 ⟨last, hlast, hpos, hmoved⟩⟩

/-! ### The prices of the slots -/

/-- The price that a list of prices from `start` on gives a quarter-hour slot. -/
def PriceOfSlot (config : DepotConfig) (start : ℚ) (prices : List ℚ) (slot : ℤ) (price : ℚ) : Prop :=
  ∃ i : ℕ, prices[i]? = some price ∧ ⌊stepTime config start i / 900⌋ = slot

/-- Some slot's price moved too far between the run and the tick. -/
def SlotMoved (trigger : TriggerConfig) (config : DepotConfig) (r : PricedRun) (start : ℚ) (prices : List ℚ) : Prop :=
  ∃ slot last current, PriceOfSlot config r.start r.prices slot last ∧ PriceOfSlot config start prices slot current ∧
    MovedTooFar trigger last current

/-- Some timestamp, by the clock of the run and by the one of the tick, has a positive price that moved too far. -/
def StampMoved (trigger : TriggerConfig) (deltaT : ℚ) (r : PricedSuccess) (now deltaT' : ℚ) (prices : List ℚ) : Prop :=
  ∃ ts last current, StampedAt r.clock deltaT r.prices ts last ∧ StampedAt (fun _ => now) deltaT' prices ts current ∧
    0 < last ∧ MovedTooFar trigger last current

/-- **Which changes are reported.**  After every history, at a tick whose prices are assembled at `env.now` and stamped
at `now`: a trigger reason is returned where some slot's price moved too far if and only if a positive price moved too
far, where one does, under a timestamp of both. -/
theorem slot_change_reported_iff (trigger : TriggerConfig) (depotId : String) (config : DepotConfig)
    (events : List Event) (env : Environment) (now : ℚ) (r : PricedSuccess) (state : DepotState)
    (hrun : (history trigger depotId config events).lastSuccess = some r)
    (hstate : result (history trigger depotId config events).assembler ⟨env, 24⟩ = .ok state) :
    (SlotMoved trigger config r.toPricedRun env.now state.prices →
        ∃ reason, (history trigger depotId config events).monitor.checkPriceChange
          (getCurrentPrices (history trigger depotId config events).assembler (.assembler env now)) = some reason) ↔
      (SlotMoved trigger config r.toPricedRun env.now state.prices →
        StampMoved trigger config.deltaT r now
          (assemble (history trigger depotId config events).assembler ⟨env, 24⟩).config.deltaT state.prices) := by
  have hbase := baseline_run trigger depotId config events
  refine imp_congr_right fun _ => ?_
  rw [checkPriceChange_iff, hbase.prices, hbase.trigger_eq, hrun, getCurrentPrices, hstate]
  simp only [baselineOf, get?_stampPrices]
  exact Iff.rfl

/-- A database at `now` in which every hour has the same price. -/
def flatPrices (now price : ℚ) : Environment :=
  { idleEnvironment with
    now := now
    site := some ⟨none, some "zone", none⟩
    priceMap := fun _ _ _ => Dict.ofList ((List.range 26).map fun h => (3600 * (h : ℚ), price)) }

def midnightRun (price : ℚ) : List Event :=
  [.assembled ⟨flatPrices 0 price, 24⟩, .succeeded 0 fun _ => 0]

theorem exists_ok_of_toOption_map {α : Type} {r : Except AssemblyError DepotState} {f : DepotState → α}
    {a : α} (h : r.toOption.map f = some a) : ∃ state, r = .ok state ∧ f state = a := by
  cases r with
  | ok state => exact ⟨state, rfl, Option.some.inj h⟩
  | error e => cases h

/-- A quarter of an hour after the run the price has tripled. -/
theorem tripled_price_reported :
    ∃ reason, (history {} "depot" loadedConfig (midnightRun (1 / 10))).monitor.checkPriceChange
      (getCurrentPrices (history {} "depot" loadedConfig (midnightRun (1 / 10))).assembler
        (.assembler (flatPrices 900 (3 / 10)) 900)) = some reason := by
  obtain ⟨r, hr, hold⟩ := Option.map_eq_some_iff.1
    (show (history {} "depot" loadedConfig (midnightRun (1 / 10))).lastSuccess.map
      (fun r => (r.start, r.prices[1]?, (stampPrices r.clock loadedConfig.deltaT r.prices).get? (.naive 900))) =
        some ((0 : ℚ), some (1 / 10 : ℚ), some (1 / 10 : ℚ)) by decide +kernel)
  obtain ⟨state, hstate, hnew⟩ := exists_ok_of_toOption_map
    (show (result (history {} "depot" loadedConfig (midnightRun (1 / 10))).assembler
      ⟨flatPrices 900 (3 / 10), 24⟩).toOption.map (fun state => (state.prices[0]?,
        (stampPrices (fun _ => 900) (assemble (history {} "depot" loadedConfig (midnightRun (1 / 10))).assembler
          ⟨flatPrices 900 (3 / 10), 24⟩).config.deltaT state.prices).get? (.naive 900))) =
        some (some (3 / 10 : ℚ), some (3 / 10 : ℚ)) by decide +kernel)
  obtain ⟨hstart, hlast, hstamped⟩ := by simpa only [Prod.mk.injEq] using hold
  obtain ⟨hcurrent, hstamped'⟩ := Prod.mk.inj hnew
  have hmoved : MovedTooFar {} (1 / 10) (3 / 10) := by decide +kernel
  exact (slot_change_reported_iff {} "depot" loadedConfig (midnightRun (1 / 10)) (flatPrices 900 (3 / 10)) 900 r state
    hr hstate).2
      (fun _ => ⟨.naive 900, 1 / 10, 3 / 10, get?_stampPrices.1 hstamped, get?_stampPrices.1 hstamped',
        by decide +kernel, hmoved⟩)
      ⟨1, 1 / 10, 3 / 10, ⟨1, hlast, by rw [hstart]; decide +kernel⟩, ⟨0, hcurrent, by decide +kernel⟩, hmoved⟩

/-- Prices that were negative are not compared, although the slots and their timestamps are the same and
the price goes from -0.05 to 0.30. -/
theorem negative_price_not_reported :
    ¬ ∀ (trigger : TriggerConfig) (depotId : String) (config : DepotConfig) (events : List Event)
      (env : Environment) (now : ℚ) (r : PricedSuccess) (state : DepotState) (slot : ℤ)
      (last current : ℚ),
      (history trigger depotId config events).lastSuccess = some r →
      result (history trigger depotId config events).assembler ⟨env, 24⟩ = .ok state →
      PriceOfSlot config r.start r.prices slot last →
      PriceOfSlot config env.now state.prices slot current →
      MovedTooFar trigger last current →
      ∃ reason, (history trigger depotId config events).monitor.checkPriceChange
        (getCurrentPrices (history trigger depotId config events).assembler (.assembler env now)) =
          some reason := by
  intro h
  obtain ⟨r, hr, hslot⟩ := Option.map_eq_some_iff.1
    (show (history {} "depot" loadedConfig (midnightRun (-1 / 20))).lastSuccess.map
      (fun r => (r.start, r.prices[1]?)) = some ((0 : ℚ), some (-1 / 20 : ℚ)) by decide +kernel)
  obtain ⟨hstart, hold⟩ := Prod.mk.inj hslot
  obtain ⟨state, hstate, hprice⟩ := exists_ok_of_toOption_map
    (show (result (history {} "depot" loadedConfig (midnightRun (-1 / 20))).assembler
      ⟨flatPrices 900 (3 / 10), 24⟩).toOption.map (fun state => state.prices[0]?) =
        some (some (3 / 10)) by decide +kernel)
  obtain ⟨reason, hreason⟩ := h {} "depot" loadedConfig (midnightRun (-1 / 20)) (flatPrices 900 (3 / 10))
    900 r state 1 (-1 / 20) (3 / 10) hr hstate
    ⟨1, hold, by rw [hstart]; decide +kernel⟩ ⟨0, hprice, by decide +kernel⟩ (by decide +kernel)
  revert hreason
  rw [show (history {} "depot" loadedConfig (midnightRun (-1 / 20))).monitor.checkPriceChange
      (getCurrentPrices (history {} "depot" loadedConfig (midnightRun (-1 / 20))).assembler
        (.assembler (flatPrices 900 (3 / 10)) 900)) = none by decide +kernel]
  intro hreason
  cases hreason

end FavoniusBackend.Control.PriceBaseline
