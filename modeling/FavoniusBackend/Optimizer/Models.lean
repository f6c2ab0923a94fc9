import FavoniusBackend.Lib.Dict
import Mathlib.Algebra.Ring.Rat

/-!
# Inputs of the optimizer

The data classes of `core/models.py` that the state assembler fills and the optimizer reads: the depot
configuration, the depot state, and the vehicles on their way from another depot.

A Python `datetime` is naive (a wall-clock reading) or aware (a point in time); the difference of one
of each is a `TypeError`.
-/

namespace FavoniusBackend.Optimizer.Models

open Lib

abbrev VehicleId := String

/-- A Python `datetime`, in seconds since the epoch. -/
inductive Stamp
  | naive (wall : ℚ)
  | aware (instant : ℚ)
  deriving DecidableEq, Repr

/-- `(a - b).total_seconds()`; `none` is the `TypeError` of a mixed subtraction. -/
def Stamp.secondsSince : Stamp → Stamp → Option ℚ
  | .naive a, .naive b => some (a - b)
  | .aware a, .aware b => some (a - b)
  | _, _ => none

/-- A vehicle arriving from another depot via handoff. -/
structure IncomingVehicle where
  vehicleId : VehicleId
  externalId : String
  expectedSoc : ℚ
  arrivalTime : Stamp
  batteryKwh : ℚ
  maxChargeKw : ℚ
  originDepotId : String
  deriving DecidableEq, Repr

inductive ChargerVehicleAccessDefault
  | allToAll
  | explicitMatrix
  deriving DecidableEq, Repr

inductive TariffType
  | simpleDemand
  | energyCap
  deriving DecidableEq, Repr

structure DepotConfig where
  vehicleCapacities : Dict VehicleId ℚ
  vehicleMaxChargeKw : Dict VehicleId ℚ
  chargerGroups : Dict ℚ ℤ
  chargerEfficiency : ℚ
  chargerVehicleAccess : Dict String (List VehicleId)
  batteryCapacity : ℚ
  batteryPower : ℚ
  batteryEfficiency : ℚ := 23 / 25
  batterySocMin : ℚ := 1 / 5
  batterySocMax : ℚ := 4 / 5
  maxSitePower : ℚ := 1000
  buildingLoadAssumptionKw : ℚ := 0
  deltaT : ℚ := 1 / 4
  nTimesteps : ℕ := 96
  chargerVehicleAccessDefault : ChargerVehicleAccessDefault := .explicitMatrix
  tariffType : TariffType := .simpleDemand
  energyCapKwh : Option ℚ := none
  underCapRatePerKwh : Option ℚ := none
  overCapPenaltyPerKwh : Option ℚ := none
  capBillingPeriod : String := "monthly"

/-- A preconditioning request; every key of the dict may be missing. -/
structure PreconditioningRequest where
  vehicleId : Option VehicleId
  startTime : Option Stamp
  endTime : Option Stamp
  powerKw : Option ℚ
  deriving DecidableEq, Repr

structure DepotState where
  vehicleSocs : Dict VehicleId ℚ
  batterySoc : ℚ
  prices : List ℚ
  demandChargeRate : ℚ
  currentMonthPeak : ℚ
  vehicleAvailability : Dict VehicleId (List Bool)
  energyRequirements : Dict VehicleId ℚ
  departureTimes : Dict VehicleId ℤ
  buildingPower : List ℚ
  incomingVehicles : List IncomingVehicle := []
  vehicleDepartureSocMin : Dict VehicleId ℚ := Dict.empty
  vehicleDepartureSocMax : Dict VehicleId ℚ := Dict.empty
  vehiclePriorities : Dict VehicleId ℤ := Dict.empty
  preconditioningRequests : List PreconditioningRequest := []
  cumulativeKwhPeriod : ℚ := 0

end FavoniusBackend.Optimizer.Models
