import FavoniusBackend.State.AssembledInputs

/-!
# Histories of assemblies

One `StateAssembler` serves its depot for the life of a controller.  What it carries from one assembly
to the next is the configuration, the two caches, and what the last assembly used; `get_current_state`
never reads the last of these.

The caches are harmless as long as the site keeps its zones, which the source relies on.  The
configuration is not: the integration of a handoff writes the vehicle into it, and the next assembly
takes it for a configured vehicle, with SoC 0.5 and available at every step, whether or not the handoff
still exists.  Without such a write every assembly returns what a new assembler would return on the
same database (`assembly_ignores_history`).
-/

namespace FavoniusBackend.State.AssemblyRuns

open Lib Lib.Stateful Lib.Guard Lib.Run
open Optimizer.Models Scheduling.Recurring
open State.Database State.Assembler
open State.AssembledInputs

/-! ### Steady steps -/

/-- One call of `get_current_state`. -/
structure Assembly where
  env : Environment
  horizonHours : ℚ

def assemble (assembler : StateAssembler) (call : Assembly) : StateAssembler :=
  (exec (getCurrentState call.env call.horizonHours) assembler).2

def result (assembler : StateAssembler) (call : Assembly) : Except AssemblyError DepotState :=
  (exec (getCurrentState call.env call.horizonHours) assembler).1

section Runs

variable (depotId : String) (config : DepotConfig) (zone : Option String) (tz : ZoneInfo)

/-- The site has the given zones, their lookups succeed, and every vehicle that is handed over inside
the horizon has both its entries in the configuration. -/
structure Steady (call : Assembly) : Prop where
  zone_found : call.env.fails .biddingZone = false
  zone_eq : resolveBiddingZone call.env = zone
  timezone_found : call.env.fails .depotTimezone = false
  timezone_eq : siteTimezone call.env = tz
  known : ∀ row ∈ incomingRows call.env depotId call.env.now
      (horizonEnd call.env.now call.horizonHours),
    row.vehicleId ∈ config.vehicleCapacities ∧ row.vehicleId ∈ config.vehicleMaxChargeKw

/-- An assembler as it was made, up to caches of the zones of its site. -/
structure AsMade (assembler : StateAssembler) : Prop where
  depotId_eq : assembler.depotId = depotId
  config_eq : assembler.config = config
  zone_cached : ∀ z, assembler.biddingZoneCache = some z → z = zone
  timezone_cached : ∀ t, assembler.depotTimezoneCache = some t → t = tz

theorem asMade_init : AsMade depotId config zone tz (StateAssembler.init depotId config) := by
  refine ⟨rfl, rfl, ?_, ?_⟩
  · intro z hz
    cases hz
  · intro t ht
    cases ht

def BothAsMade (s t : StateAssembler) : Prop :=
  AsMade depotId config zone tz s ∧ AsMade depotId config zone tz t

variable {depotId config zone tz} {call : Assembly}

theorem config_of_both (s t : StateAssembler) (h : BothAsMade depotId config zone tz s t) :
    s.config = config ∧ t.config = config :=
  ⟨h.1.config_eq, h.2.config_eq⟩

theorem depotId_of_both (s t : StateAssembler) (h : BothAsMade depotId config zone tz s t) :
    s.depotId = depotId ∧ t.depotId = depotId :=
  ⟨h.1.depotId_eq, h.2.depotId_eq⟩

theorem agrees_modify_of_frame {f : StateAssembler → StateAssembler}
    (hid : ∀ s, (f s).depotId = s.depotId)
    (hconfig : ∀ s, s.config = config → (f s).config = config)
    (hzone : ∀ s, (f s).biddingZoneCache = s.biddingZoneCache)
    (htz : ∀ s, (f s).depotTimezoneCache = s.depotTimezoneCache) :
    Agrees (BothAsMade depotId config zone tz) (modify f : AssemblyMethod Unit) := by
  have hkeep : ∀ s, AsMade depotId config zone tz s → AsMade depotId config zone tz (f s) := by
    intro s hs
    refine ⟨(hid s).trans hs.depotId_eq, hconfig s hs.config_eq, ?_, ?_⟩
    · intro z hz
      exact hs.zone_cached z ((hzone s).symm.trans hz)
    · intro t ht
      exact hs.timezone_cached t ((htz s).symm.trans ht)
  apply agrees_modify
  intro s t hst
  exact ⟨hkeep s hst.1, hkeep t hst.2⟩

/-! ### The methods agree -/

theorem agrees_cachedBiddingZone (hc : Steady depotId config zone tz call) :
    Agrees (BothAsMade depotId config zone tz) (cachedBiddingZone call.env) := by
  refine agrees_of_invariant (.ok (some zone)) ?_
  intro s hs
  unfold cachedBiddingZone
  rw [exec_bind, exec_field]
  cases hcache : s.biddingZoneCache with
  | some z =>
    rw [hs.zone_cached z hcache]
    exact ⟨rfl, hs⟩
  | none =>
    simp only [hc.zone_found, hc.zone_eq, Bool.false_eq_true, if_false]
    rw [exec_bind, exec_modify]
    refine ⟨rfl, hs.depotId_eq, hs.config_eq, ?_, hs.timezone_cached⟩
    intro z hz
    exact (Option.some.inj hz).symm

theorem agrees_getDepotTimezone (hc : Steady depotId config zone tz call) :
    Agrees (BothAsMade depotId config zone tz) (getDepotTimezone call.env) := by
  refine agrees_of_invariant (.ok tz) ?_
  intro s hs
  unfold getDepotTimezone
  rw [exec_bind, exec_field]
  cases hcache : s.depotTimezoneCache with
  | some t =>
    rw [hs.timezone_cached t hcache]
    exact ⟨rfl, hs⟩
  | none =>
    simp only [hc.timezone_found, hc.timezone_eq, Bool.false_eq_true, if_false]
    rw [exec_bind, exec_modify]
    refine ⟨rfl, hs.depotId_eq, hs.config_eq, hs.zone_cached, ?_⟩
    intro t ht
    exact (Option.some.inj ht).symm

theorem agrees_getPrices (hc : Steady depotId config zone tz call) (start stop : ℚ) (nSteps : ℤ) :
    Agrees (BothAsMade depotId config zone tz) (getPrices call.env start stop nSteps) := by
  refine agrees_field_bind config config_of_both ?_
  refine agrees_bind (agrees_cachedBiddingZone hc) ?_
  intro z
  exact agrees_pure _

theorem agrees_getSchedules (hc : Steady depotId config zone tz call) (start stop : ℚ) :
    Agrees (BothAsMade depotId config zone tz) (getSchedules call.env start stop) := by
  refine agrees_field_bind depotId depotId_of_both ?_
  refine agrees_bind (agrees_attempt _) ?_
  intro manual
  refine agrees_ite (agrees_pure _) ?_
  refine agrees_bind (agrees_getDepotTimezone hc) ?_
  intro t
  exact agrees_pure _

theorem agrees_getBuildingPower (start stop : ℚ) (nSteps : ℤ) :
    Agrees (BothAsMade depotId config zone tz) (getBuildingPower call.env start stop nSteps) := by
  refine agrees_field_bind depotId depotId_of_both ?_
  refine agrees_field_bind config config_of_both ?_
  refine agrees_bind (agrees_modify_of_frame ?_ ?_ ?_ ?_) ?_
  · intro s
    rfl
  · intro s hs
    exact hs
  · intro s
    rfl
  · intro s
    rfl
  · intro _
    exact agrees_attempt _

theorem setDefault_of_mem {ν : Type} {d : Dict VehicleId ν} {vid : VehicleId} (h : vid ∈ d) (value : ν) :
    setDefault d vid value = d :=
  if_pos h

theorem integrated_config_of_known (now : ℚ) (nSteps : ℤ) (rows : List HandoffRow) :
    ∀ s : Integration, (∀ row ∈ rows, row.vehicleId ∈ s.config.vehicleCapacities ∧
        row.vehicleId ∈ s.config.vehicleMaxChargeKw) →
      (rows.foldl (integrateIncoming now nSteps) s).config = s.config := by
  induction rows with
  | nil =>
    intro s _
    rfl
  | cons row rows ih =>
    intro s hknown
    obtain ⟨hcap, hkw⟩ := hknown row List.mem_cons_self
    have hstep : (integrateIncoming now nSteps s row).config = s.config := by
      unfold integrateIncoming
      simp only [setDefault_of_mem hcap, setDefault_of_mem hkw]
    rw [List.foldl_cons, ih, hstep]
    intro r hr
    rw [hstep]
    exact hknown r (List.mem_cons_of_mem _ hr)

/-- **One assembly.**  Two assemblers as made return the same and stay as made. -/
theorem agrees_getCurrentState (hc : Steady depotId config zone tz call) :
    Agrees (BothAsMade depotId config zone tz) (getCurrentState call.env call.horizonHours) := by
  unfold getCurrentState
  refine agrees_bind (agrees_attempt _) ?_
  intro _
  refine agrees_field_bind depotId depotId_of_both ?_
  refine agrees_field_bind config config_of_both ?_
  refine agrees_bind (agrees_attempt _) ?_
  intro _
  refine agrees_bind (agrees_attempt _) ?_
  intro telemetrySocs
  refine agrees_bind (agrees_getPrices hc _ _ _) ?_
  intro prices
  refine agrees_bind (agrees_getSchedules hc _ _) ?_
  intro schedules
  refine agrees_bind (agrees_modify_of_frame (fun _ => rfl) (fun _ hs => hs) (fun _ => rfl)
    (fun _ => rfl)) ?_
  intro _
  refine agrees_bind (agrees_attempt _) ?_
  intro requests
  refine agrees_bind (agrees_attempt _) ?_
  intro departureTimes
  refine agrees_bind (agrees_attempt _) ?_
  intro currentMonthPeak
  refine agrees_bind (agrees_attempt _) ?_
  intro demandChargeRate
  refine agrees_bind (agrees_getBuildingPower _ _ _) ?_
  intro buildingPower
  refine agrees_bind (agrees_modify_of_frame (fun _ => rfl) (fun _ hs => hs) (fun _ => rfl)
    (fun _ => rfl)) ?_
  intro _
  -- the only write to the configuration puts back what was there
  refine agrees_bind (agrees_modify_of_frame (fun _ => rfl) ?_ (fun _ => rfl) (fun _ => rfl)) ?_
  · intro s _
    exact integrated_config_of_known _ _ _ _ hc.known
  · intro _
    exact agrees_pure _

theorem asMade_run {calls : List Assembly} (hcalls : ∀ c ∈ calls, Steady depotId config zone tz c) :
    AsMade depotId config zone tz (run assemble (StateAssembler.init depotId config) calls) := by
  refine run_invariant assemble (AsMade depotId config zone tz) calls ?_ _
    (asMade_init depotId config zone tz)
  intro s c hc hs
  exact (agrees_getCurrentState (hcalls c hc) s s ⟨hs, hs⟩).2.1

end Runs

/-- **History does not matter.**  In every run whose calls are steady, each call returns what a new
assembler with the initial configuration returns on the same database, and the state it returns holds
no vehicle but those with a reading, those configured initially, and those of a present handoff. -/
theorem assembly_ignores_history (depotId : String) (config : DepotConfig) (zone : Option String)
    (tz : ZoneInfo) (calls : List Assembly) (hcalls : ∀ c ∈ calls, Steady depotId config zone tz c)
    (before after : List Assembly) (call : Assembly) (hsplit : calls = before ++ call :: after) :
    result (run assemble (StateAssembler.init depotId config) before) call =
        result (StateAssembler.init depotId config) call ∧
      ∀ state, result (run assemble (StateAssembler.init depotId config) before) call = .ok state →
        ∀ vid ∈ state.vehicleSocs, HasReading call.env depotId vid ∨
          vid ∈ config.vehicleCapacities ∨
          ∃ row ∈ incomingRows call.env depotId call.env.now
              (horizonEnd call.env.now call.horizonHours), row.vehicleId = vid := by
  subst hsplit
  have hcall := hcalls call (List.mem_append_right _ List.mem_cons_self)
  have hmade : AsMade depotId config zone tz (run assemble (StateAssembler.init depotId config) before) :=
    asMade_run fun c hc => hcalls c (List.mem_append_left _ hc)
  have hsame : result (run assemble (StateAssembler.init depotId config) before) call =
      result (StateAssembler.init depotId config) call :=
    (agrees_getCurrentState hcall _ _ ⟨hmade, asMade_init depotId config zone tz⟩).1
  refine ⟨hsame, ?_⟩
  intro state hstate vid hvid
  rw [hsame] at hstate
  have hexec : exec (getCurrentState call.env call.horizonHours) (StateAssembler.init depotId config) =
      (.ok state, assemble (StateAssembler.init depotId config) call) := Prod.ext hstate rfl
  rcases ((assembledKeys_of_ok hexec).socs vid).mp hvid with (hread | hconf) | hrow
  · exact Or.inl hread
  · exact Or.inr (Or.inl hconf)
  · exact Or.inr (Or.inr hrow)

/-- A configured bus that comes back from another depot, then a day without handoffs. -/
def returningBus : Assembly where
  env := { idleEnvironment with handoffs := [{ handoffRow with vehicleId := "bus_1" }] }
  horizonHours := 24

def nextDay : Assembly := ⟨{ idleEnvironment with now := 86400 }, 24⟩

/-- After the configured bus is back, the next day is assembled as by a new assembler. -/
theorem assembly_ignores_returning_bus :
    result (run assemble (StateAssembler.init "depot" loadedConfig) [returningBus]) nextDay =
      result (StateAssembler.init "depot" loadedConfig) nextDay := by
  have hreturning : Steady "depot" loadedConfig none .utc returningBus :=
    ⟨rfl, rfl, rfl, rfl, by decide +kernel⟩
  have hnext : Steady "depot" loadedConfig none .utc nextDay := ⟨rfl, rfl, rfl, rfl, by decide +kernel⟩
  refine (assembly_ignores_history "depot" loadedConfig none .utc [returningBus, nextDay] ?_
    [returningBus] [] nextDay rfl).1
  intro c hc
  rcases List.mem_cons.mp hc with rfl | hc
  · exact hreturning
  · rw [List.mem_singleton.mp hc]
    exact hnext

/-- What a result says about a vehicle: its SoC and its availability. -/
def vehicleEntry (r : Except AssemblyError DepotState) (vid : VehicleId) :
    Option (Option ℚ × Option (List Bool)) :=
  match r with
  | .ok state => some (state.vehicleSocs.get? vid, state.vehicleAvailability.get? vid)
  | .error _ => none

/-- A bus that was handed over once stays behind: the next day, without a handoff, it is still in the
state, with SoC 0.5 and available all day, where a new assembler does not know it. -/
theorem handed_over_bus_stays_behind :
    vehicleEntry (result (run assemble (StateAssembler.init "depot" loadedConfig)
        [⟨handoffEnvironment, 24⟩]) nextDay) "bus_9" =
      some (some (1 / 2), some (List.replicate 96 true)) ∧
    vehicleEntry (result (StateAssembler.init "depot" loadedConfig) nextDay) "bus_9" =
      some (none, none) ∧
    result (run assemble (StateAssembler.init "depot" loadedConfig) [⟨handoffEnvironment, 24⟩]) nextDay ≠
      result (StateAssembler.init "depot" loadedConfig) nextDay := by
  have hstale : vehicleEntry (result (run assemble (StateAssembler.init "depot" loadedConfig)
      [⟨handoffEnvironment, 24⟩]) nextDay) "bus_9" =
      some (some (1 / 2), some (List.replicate 96 true)) := by
    decide +kernel
  have hfresh : vehicleEntry (result (StateAssembler.init "depot" loadedConfig) nextDay) "bus_9" =
      some (none, none) := by
    decide +kernel
  refine ⟨hstale, hfresh, ?_⟩
  intro hsame
  rw [hsame, hfresh] at hstale
  cases hstale

end FavoniusBackend.State.AssemblyRuns
