import FavoniusBackend.Lib.Numeric
import FavoniusBackend.Lib.Text

/-!
# Meter registers and session energy

`websocket_handler/meter_value_utils.py` and the two readers of register samples: the energy units with their
scale, the kWh delta between two registers with the brackets it refuses, the delta that is synthesized from a
stop register alone, the register sample of a MeterValues frame and the stop register of a StopTransaction.

A float is a rational, which every operation rounds to a double, or one of the three values that Python's
`float` has beside the numbers.
-/

namespace FavoniusBackend.Sessions.MeterValues

open Lib Lib.Numeric

/-! ### Floats that may be infinite -/

inductive PyFloat
  | finite (q : ℚ)
  | posInf
  | negInf
  | nan
  deriving DecidableEq, Repr

/-- `x < y`; a comparison with `nan` is false. -/
def PyFloat.lt : PyFloat → PyFloat → Bool
  | .finite p, .finite q => decide (p < q)
  | .finite _, .posInf => true
  | .negInf, .finite _ => true
  | .negInf, .posInf => true
  | _, _ => false

/-- The float nearest to a number; one that the doubles do not reach is infinite. -/
def PyFloat.ofRat (q : ℚ) : PyFloat :=
  if 2 ^ 1024 ≤ roundDouble q then .posInf
  else if roundDouble q ≤ -2 ^ 1024 then .negInf
  else .finite (roundDouble q)

/-- `x * scale` for a finite `scale` that is not negative. -/
def PyFloat.scale : PyFloat → ℚ → PyFloat
  | .finite q, scale => .ofRat (q * scale)
  | x, scale => if scale = 0 then .nan else x

/-- `int(x)`, which raises for an infinity and for `nan`. -/
def PyFloat.toInt? : PyFloat → Option ℤ
  | .finite q => some (pyInt q)
  | _ => none

/-! ### Units -/

/-- The keys of `_UNIT_TO_WH_SCALE`. -/
inductive EnergyUnit
  | Wh
  | VARh
  | VAh
  | kWh
  | kVArh
  | kVAh
  deriving DecidableEq, Repr

def EnergyUnit.all : List EnergyUnit := [.Wh, .VARh, .VAh, .kWh, .kVArh, .kVAh]

def EnergyUnit.lowered : EnergyUnit → List Char
  | .Wh => ['w', 'h']
  | .VARh => ['v', 'a', 'r', 'h']
  | .VAh => ['v', 'a', 'h']
  | .kWh => ['k', 'w', 'h']
  | .kVArh => ['k', 'v', 'a', 'r', 'h']
  | .kVAh => ['k', 'v', 'a', 'h']

def unitToWhScale : EnergyUnit → ℚ
  | .Wh | .VARh | .VAh => 1
  | .kWh | .kVArh | .kVAh => 1000

/-- `str.lower` on one character.  The Kelvin sign is the one character outside ASCII that becomes a letter of
a unit. -/
def lower (c : Char) : Char := if c.toNat = 0x212A then 'k' else c.toLower

def canonicalUnit (unit : String) : Option EnergyUnit :=
  EnergyUnit.all.find? fun u => u.lowered == (Text.strip unit.toList).map lower

/-- How a conversion raises: with a `TypeError` or `ValueError`, which the readers of samples catch, or with an
`OverflowError`, which they do not. -/
inductive ConversionError
  | caught
  | overflow
  deriving DecidableEq, Repr

/-- `10 ** (multiplier or 0)` as a factor of a float: an integer, which may be too large for one, or for a negative
exponent a float. -/
def multiplierScale (multiplier : Option ℤ) : Except ConversionError ℚ :=
  match multiplier.getD 0 with
  | .ofNat n => if 2 ^ 1024 ≤ roundDouble (10 ^ n) then .error .overflow else .ok (roundDouble (10 ^ n))
  | .negSucc n => .ok (roundDouble (1 / 10 ^ (n + 1)))

def normalizeEnergyToWh (value : PyFloat) (unit : Option String) (multiplier : Option ℤ) :
    Except ConversionError PyFloat := do
  let unitScale ←
    match unit with
    | none => .ok 1
    | some text => if text = "" then .ok 1 else ((canonicalUnit text).map unitToWhScale).elim (.error .caught) .ok
  let scale ← multiplierScale multiplier
  return (value.scale unitScale).scale scale

/-! ### Energy between two registers -/

def computeEnergyKwh : Option ℤ → Option ℤ → Option ℚ
  | some meterStopWh, some meterStartWh =>
    if meterStartWh ≤ 0 then none
    else if meterStopWh < meterStartWh then none
    else some (((meterStopWh - meterStartWh : ℤ) : ℚ) / 1000)
  | _, _ => none

def synthesizeEnergyKwhFromMeterStop (meterStopWh : Option ℤ) (capWh : ℤ) : Option ℚ :=
  match meterStopWh with
  | none => none
  | some stop => if stop ≤ 0 then none else if capWh < stop then none else some ((stop : ℚ) / 1000)

@[simp] theorem computeEnergyKwh_none_left (start : Option ℤ) : computeEnergyKwh none start = none := by
  cases start <;> rfl

@[simp] theorem computeEnergyKwh_none_right (stop : Option ℤ) : computeEnergyKwh stop none = none := by
  cases stop <;> rfl

theorem computeEnergyKwh_of_le {stop start : ℤ} (hpos : 0 < start) (hle : start ≤ stop) :
    computeEnergyKwh (some stop) (some start) = some (((stop - start : ℤ) : ℚ) / 1000) := by
  rw [computeEnergyKwh, if_neg (not_le.mpr hpos), if_neg (not_lt.mpr hle)]

theorem computeEnergyKwh_eq_some {stop start : Option ℤ} {e : ℚ} (h : computeEnergyKwh stop start = some e) :
    ∃ m s : ℤ, stop = some m ∧ start = some s ∧ 0 < s ∧ s ≤ m ∧ e = ((m - s : ℤ) : ℚ) / 1000 := by
  cases stop with
  | none => simp at h
  | some m =>
    cases start with
    | none => simp at h
    | some s =>
      rw [computeEnergyKwh] at h
      split at h
      · cases h
      · split at h
        · cases h
        · rename_i hs hm
          exact ⟨m, s, rfl, rfl, not_le.mp hs, not_lt.mp hm, (Option.some.inj h).symm⟩

theorem computeEnergyKwh_nonneg {stop start : Option ℤ} {e : ℚ} (h : computeEnergyKwh stop start = some e) :
    0 ≤ e := by
  obtain ⟨m, s, -, -, -, hle, rfl⟩ := computeEnergyKwh_eq_some h
  have : (0 : ℚ) ≤ ((m - s : ℤ) : ℚ) := by
    exact_mod_cast sub_nonneg.mpr hle
  positivity

theorem computeEnergyKwh_mono {m m' : ℤ} {start : Option ℤ} {e : ℚ} (hm : m ≤ m')
    (h : computeEnergyKwh (some m) start = some e) :
    ∃ e', computeEnergyKwh (some m') start = some e' ∧ e ≤ e' := by
  obtain ⟨m, s, hm', rfl, hpos, hle, rfl⟩ := computeEnergyKwh_eq_some h
  cases hm'
  refine ⟨_, computeEnergyKwh_of_le hpos (hle.trans hm), ?_⟩
  have : ((m - s : ℤ) : ℚ) ≤ ((m' - s : ℤ) : ℚ) := by
    exact_mod_cast sub_le_sub_right hm s
  linarith

/-! ### Register samples -/

/-- A sampled value.  `value` is the outcome of `float(value)`, `none` if there is no value. -/
structure SampledValue where
  measurand : Option String
  value : Option (Except ConversionError PyFloat)
  unit : Option String := none
  multiplier : Option ℤ := none

def registerMeasurand : String := "Energy.Active.Import.Register"

/-- `none` for an error that is caught. -/
def uncaught {α : Type} : Except ConversionError α → Except Unit (Option α)
  | .ok x => .ok (some x)
  | .error .caught => .ok none
  | .error .overflow => .error ()

/-- The reading in Wh that both readers of samples compute: `none` for another measurand, a missing or malformed
value and an unknown unit; `error` for an `OverflowError`. -/
def SampledValue.registerReading (sample : SampledValue) : Except Unit (Option PyFloat) :=
  if sample.measurand ≠ some registerMeasurand then .ok none
  else
    match sample.value with
    | some value => uncaught (value.bind fun x => normalizeEnergyToWh x sample.unit sample.multiplier)
    | none => .ok none

def SampledValue.registerWh (sample : SampledValue) : Except Unit (Option PyFloat) :=
  sample.registerReading.map fun wh => wh.filter fun wh => !wh.lt (.finite 0)

/-- `_extract_register_wh`; `error` for an `int` or a conversion that raises. -/
def extractRegisterWh (sample : SampledValue) : Except Unit (Option ℤ) := do
  match ← sample.registerWh with
  | none => return none
  | some wh =>
    match wh.toInt? with
    | none => throw ()
    | some m => return some m

/-- An entry of `transactionData`, with the two spellings of its samples. -/
structure TransactionDataEntry where
  sampledValue : Option (List SampledValue) := none
  sampledValueSnake : Option (List SampledValue) := none

/-- `entry.get("sampledValue") or entry.get("sampled_value") or []`. -/
def TransactionDataEntry.samples (entry : TransactionDataEntry) : List SampledValue :=
  match entry.sampledValue with
  | some (sample :: samples) => sample :: samples
  | _ => entry.sampledValueSnake.getD []

/-- The loop's `best_wh is None or wh > best_wh`. -/
def better (best : Option PyFloat) (wh : PyFloat) : Option PyFloat :=
  match best with
  | none => some wh
  | some b => if b.lt wh then some wh else some b

/-- The loop of `_resolve_meter_stop`. -/
def bestWh (transactionData : List TransactionDataEntry) : Except Unit (Option PyFloat) := do
  let readings ← (transactionData.flatMap TransactionDataEntry.samples).mapM SampledValue.registerWh
  return (readings.filterMap id).foldl better none

/-- `_resolve_meter_stop`; `error` for an `int` or a conversion that raises. -/
def resolveMeterStop (meterStop : Option ℤ) (transactionData : Option (List TransactionDataEntry)) :
    Except Unit (Option ℤ) :=
  if meterStop.any (0 < ·) then .ok meterStop
  else do
    match ← bestWh (transactionData.getD []) with
    | none => return meterStop
    | some wh =>
      match wh.toInt? with
      | none => throw ()
      | some m => return some m

/-- The reading of 1.025 kWh is that many Wh, the one of 1.001 kWh is one less. -/
example :
    ([1025, 1001].map fun n : ℚ => ((normalizeEnergyToWh (.ofRat (n / 1000)) (some "kWh") none).toOption.bind
      PyFloat.toInt?)) = [some 1025, some 1000] := by decide +kernel

end FavoniusBackend.Sessions.MeterValues
