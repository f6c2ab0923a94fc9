import Mathlib.Data.Rat.Floor
import FavoniusBackend.Lib.Run
import FavoniusBackend.Optimizer.Models

/-!
# The trigger monitor

`TriggerMonitor.run` looks at the depot once a minute.  It compares the states of charge, the prices and
the return times with what the last optimization expected, asks whether the VDV 463 charging requests
have been updated, and calls `on_trigger` with the first reason it finds.  The first iteration in each
clock hour calls it whatever has been found; otherwise a cooldown since the last call has to be over.
-/

namespace FavoniusBackend.Control.Triggers

open Lib Optimizer.Models

structure TriggerConfig where
  socDeviationThreshold : ℚ := 1 / 20
  priceChangePercent : ℚ := 1 / 4
  priceChangeAbsolute : ℚ := 25
  returnTimeDeviationMin : ℚ := 15
  triggerCooldownMinutes : ℚ := 5

/-- The reasons, with the figures their texts give. -/
inductive TriggerReason
  | scheduled
  | socDeviation (vid : VehicleId) (expected current : ℚ)
  | priceChange (ts : Stamp) (last current : ℚ)
  | returnDelay (vid : VehicleId) (expected actual : Stamp)
  | vdv463ChargingRequestChange
  deriving DecidableEq, Repr

structure TriggerMonitor where
  config : TriggerConfig
  /-- Both `pool` and `depot_id` are given. -/
  hasPool : Bool
  lastPrices : Dict Stamp ℚ := .empty
  expectedSocs : Dict VehicleId ℚ := .empty
  expectedReturnTimes : Dict VehicleId Stamp := .empty
  lastTriggerTime : Option ℚ := none
  lastScheduledHour : Option ℤ := none
  lastVdv463UpdateAt : Option ℚ := none

def TriggerMonitor.init (config : TriggerConfig) (hasPool : Bool) : TriggerMonitor :=
  { config := config, hasPool := hasPool }

def TriggerMonitor.updateExpectedState (monitor : TriggerMonitor) (expectedSocs : Dict VehicleId ℚ)
    (expectedReturnTimes : Dict VehicleId Stamp) : TriggerMonitor :=
  { monitor with expectedSocs := expectedSocs, expectedReturnTimes := expectedReturnTimes }

def TriggerMonitor.updatePrices (monitor : TriggerMonitor) (prices : Dict Stamp ℚ) : TriggerMonitor :=
  { monitor with lastPrices := prices }

/-! ### The checks -/

/-- One vehicle of `check_soc_deviation`. -/
def socDeviationOf (monitor : TriggerMonitor) (entry : VehicleId × ℚ) : Option TriggerReason :=
  match monitor.expectedSocs.get? entry.1 with
  | some expected =>
    if monitor.config.socDeviationThreshold < |entry.2 - expected| then
      some (.socDeviation entry.1 expected entry.2)
    else none
  | none => none

def TriggerMonitor.checkSocDeviation (monitor : TriggerMonitor) (currentSocs : Dict VehicleId ℚ) :
    Option TriggerReason :=
  currentSocs.items.findSome? (socDeviationOf monitor)

/-- One timestamp of `check_price_change`: prices per kWh, the absolute threshold per MWh. -/
def priceChangeOf (monitor : TriggerMonitor) (entry : Stamp × ℚ) : Option TriggerReason :=
  match monitor.lastPrices.get? entry.1 with
  | some last =>
    if 0 < last then
      let pctChange := |entry.2 - last| / last
      let absChange := |entry.2 - last| * 1000
      if monitor.config.priceChangePercent < pctChange ∨
          monitor.config.priceChangeAbsolute < absChange then
        some (.priceChange entry.1 last entry.2)
      else none
    else none
  | none => none

def TriggerMonitor.checkPriceChange (monitor : TriggerMonitor) (currentPrices : Dict Stamp ℚ) :
    Option TriggerReason :=
  currentPrices.items.findSome? (priceChangeOf monitor)

/-- The loop of `check_return_time_deviation`; `none` is the `TypeError` of a mixed subtraction. -/
def returnDelayIn (threshold : ℚ) (expectedReturnTimes : Dict VehicleId Stamp) :
    List (VehicleId × Stamp) → Option (Option TriggerReason)
  | [] => some none
  | (vid, actual) :: rest =>
    match expectedReturnTimes.get? vid with
    | none => returnDelayIn threshold expectedReturnTimes rest
    | some expected =>
      match actual.secondsSince expected with
      | none => none
      | some deviation =>
        if threshold < deviation then some (some (.returnDelay vid expected actual))
        else returnDelayIn threshold expectedReturnTimes rest

def TriggerMonitor.checkReturnTimeDeviation (monitor : TriggerMonitor)
    (actualReturnTimes : Dict VehicleId Stamp) : Option (Option TriggerReason) :=
  returnDelayIn (monitor.config.returnTimeDeviationMin * 60) monitor.expectedReturnTimes
    actualReturnTimes.items

/-- What an iteration finds. -/
structure Observation where
  now : ℚ
  currentSocs : Dict VehicleId ℚ := .empty
  currentPrices : Dict Stamp ℚ := .empty
  actualReturns : Dict VehicleId Stamp := .empty
  /-- The depot's row of `vdv463_depot_updates`. -/
  lastUpdateAt : Option ℚ := none
  updateQueryFails : Bool := false
  callbackRaises : Bool := false

def TriggerMonitor.checkVdv463ChargingRequestChange (monitor : TriggerMonitor) (o : Observation) :
    TriggerMonitor × Option TriggerReason :=
  if monitor.hasPool && !o.updateQueryFails then
    match o.lastUpdateAt with
    | none => (monitor, none)
    | some lastUpdate =>
      ({ monitor with lastVdv463UpdateAt := some lastUpdate },
        if monitor.lastVdv463UpdateAt.any fun t => decide (t < lastUpdate) then
          some .vdv463ChargingRequestChange
        else none)
  else (monitor, none)

/-! ### One iteration -/

/-- `now.hour`. -/
def hourOf (now : ℚ) : ℤ := ⌊now / 3600⌋ % 24

def TriggerMonitor.cooledDown (monitor : TriggerMonitor) (now : ℚ) : Bool :=
  monitor.lastTriggerTime.all fun t => decide (monitor.config.triggerCooldownMinutes * 60 ≤ now - t)

/-- `await self.on_trigger(reason)`; the time of the trigger is noted unless the callback raises. -/
def TriggerMonitor.fire (monitor : TriggerMonitor) (o : Observation) (reason : TriggerReason) :
    TriggerMonitor × Option TriggerReason :=
  ({ monitor with
      lastTriggerTime := if o.callbackRaises then monitor.lastTriggerTime else some o.now },
    some reason)

/-- An iteration of `run`: the monitor after it, and the reason `on_trigger` is called with.  A
`TypeError` of the return times ends it before the VDV 463 check. -/
def TriggerMonitor.iterate (monitor : TriggerMonitor) (o : Observation) :
    TriggerMonitor × Option TriggerReason :=
  let newHour := decide (monitor.lastScheduledHour ≠ some (hourOf o.now))
  let noted := { monitor with lastScheduledHour := some (hourOf o.now) }
  match noted.checkReturnTimeDeviation o.actualReturns with
  | none => (noted, none)
  | some returnTrigger =>
    let vdv463 := noted.checkVdv463ChargingRequestChange o
    let reason := noted.checkSocDeviation o.currentSocs <|> noted.checkPriceChange o.currentPrices <|>
      returnTrigger <|> vdv463.2
    if newHour then vdv463.1.fire o .scheduled
    else
      match reason with
      | none => (vdv463.1, none)
      | some reason => if vdv463.1.cooledDown o.now then vdv463.1.fire o reason else (vdv463.1, none)

end FavoniusBackend.Control.Triggers
