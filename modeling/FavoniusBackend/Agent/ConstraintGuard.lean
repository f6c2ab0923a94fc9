import FavoniusBackend.Lib.FloatRepr
import FavoniusBackend.Lib.FloatText

/-!
# The hard-constraint guard

`HardConstraintGuard` of `agent_workflows/constraints.py` and `_capture_terminator` of `agent_workflows/runtime.py`, over
whatever JSON the model emits.  The guard reads the fields of an action itself and takes a value that is not finite as
none; an integer that no double holds raises.

`captureTerminator_sound` says what an output can be relied on for.  Fields inside a field of an action are not looked at,
and the theorem says nothing of them.
-/

namespace FavoniusBackend.Agent.Guard

open Lib.PyJson
open Lib.PyJson.Json

/-! ## Constraints -/

def socFields : List String := ["departure_soc", "target_soc", "required_soc", "soc_at_departure", "min_departure_soc"]

def gridKwFields : List String := ["grid_kw", "grid_power_kw", "site_grid_kw", "p_grid_kw", "site_kw"]

inductive ConstraintName where
  | departureSocMin
  | gridPowerMax
  | malformedAction
  deriving DecidableEq, Repr

def ConstraintName.text : ConstraintName → String
  | .departureSocMin => "departure_soc_min"
  | .gridPowerMax => "grid_power_max"
  | .malformedAction => "malformed_action"

structure ConstraintViolation where
  constraint : ConstraintName
  field : String
  value : PyFloat
  limit : PyFloat
  detail : String
  deriving DecidableEq, Repr

structure DepotConstraints where
  minDepartureSoc : PyFloat
  maxGridKw : Option PyFloat

/-- `DepotConstraints()`. -/
def DepotConstraints.default : DepotConstraints := ⟨.finite (99 / 100), none⟩

/-! ## Detection -/

def coerceFloat : Json → Except PyError (Option PyFloat)
  | .bool b => .ok (some (.finite (if b then 1 else 0)))
  | .int n => (PyFloat.ofInt n).map fun x => some x
  | .float x => .ok (if x.isFinite then some x else none)
  | .str s => .ok ((floatOfStr s).filter PyFloat.isFinite)
  | _ => .ok none

/-- A state of charge above one is a percentage. -/
def fraction (v : PyFloat) : PyFloat := if v.gt (.finite 1) then v.percent else v

def socViolation (c : DepotConstraints) (fname : String) (v : PyFloat) : Option ConstraintViolation :=
  if c.minDepartureSoc.gt (fraction v) then
    some {
      constraint := .departureSocMin
      field := fname
      value := v
      limit := c.minDepartureSoc
      detail := fname ++ "=" ++ v.repr ++ (" (fraction=" ++ (fraction v).fixed 3 ++ ") is below the hard minimum " ++
        c.minDepartureSoc.repr) }
  else none

def gridViolation (maxGridKw : PyFloat) (fname : String) (v : PyFloat) : Option ConstraintViolation :=
  if v.gt maxGridKw then
    some {
      constraint := .gridPowerMax
      field := fname
      value := v
      limit := maxGridKw
      detail := fname ++ "=" ++ v.repr ++ (" exceeds the depot's max_grid_kw=" ++ maxGridKw.repr) }
  else none

/-- The loop over the fields of one quantity. -/
def firstViolation (test : String → PyFloat → Option ConstraintViolation) (action : List (PyStr × Json)) :
    List String → Except PyError (Option ConstraintViolation)
  | [] => .ok none
  | fname :: rest =>
    match lookup action (py fname) with
    | none => firstViolation test action rest
    | some value =>
      match coerceFloat value with
      | .error e => .error e
      | .ok none => firstViolation test action rest
      | .ok (some v) =>
        match test fname v with
        | some violation => .ok (some violation)
        | none => firstViolation test action rest

/-- `validate_action` of a dictionary. -/
def validateFields (c : DepotConstraints) (action : List (PyStr × Json)) :
    Except PyError (Option ConstraintViolation) :=
  match firstViolation (socViolation c) action socFields with
  | .error e => .error e
  | .ok (some violation) => .ok (some violation)
  | .ok none =>
    match c.maxGridKw with
    | none => .ok none
    | some maxGridKw => firstViolation (gridViolation maxGridKw) action gridKwFields

def validateAction (c : DepotConstraints) : Json → Except PyError (Option ConstraintViolation)
  | .obj action => validateFields c action
  | _ => .ok none

/-! ## Filtering -/

/-- `type(v).__name__`. -/
def typeName : Json → String
  | .null => "NoneType"
  | .bool _ => "bool"
  | .int _ => "int"
  | .float _ => "float"
  | .str _ => "str"
  | .arr _ => "list"
  | .obj _ => "dict"

def malformedAction (entry : Json) : ConstraintViolation where
  constraint := .malformedAction
  field := "<root>"
  value := .finite 0
  limit := .finite 0
  detail := "non-dict action entry: " ++ typeName entry

def filterActions (c : DepotConstraints) : List Json → Except PyError (List Json × List ConstraintViolation)
  | [] => .ok ([], [])
  | .obj action :: rest => do
    let violation ← validateFields c action
    let (kept, violations) ← filterActions c rest
    return match violation with
      | none => (.obj action :: kept, violations)
      | some v => (kept, v :: violations)
  | entry :: rest => do
    let (kept, violations) ← filterActions c rest
    return (kept, malformedAction entry :: violations)

inductive PermissionTier where
  | inform
  | draftAndWait
  | actAndNotify
  | autonomous
  deriving DecidableEq, Repr

/-- The cleaned output; the summary and the rule are the values whose text is kept. -/
structure TerminatorOutput where
  summary : Json
  proposedActions : List Json
  filteredViolations : List ConstraintViolation
  tierSuppressedActions : List Json
  coverage : List (String × Json)
  ruleApplied : Option Json

/-- `block_input.get("proposed_actions") or []`, where it is a list. -/
def rawActions (blockInput : List (PyStr × Json)) : List Json :=
  match ((lookup blockInput (py "proposed_actions")).getD .null).orElse (.arr []) with
  | .arr items => items
  | _ => []

def coverageOf (blockInput : List (PyStr × Json)) : List (String × Json) :=
  match lookup blockInput (py "coverage") with
  | some (.obj raw) =>
    ["vehicles_checked", "chargers_checked", "routes_checked"].filterMap fun key =>
      (lookup raw (py key)).map fun v => (key, v)
  | _ => []

def captureTerminator (c : DepotConstraints) (tier : PermissionTier) (blockInput : List (PyStr × Json)) :
    Except PyError TerminatorOutput := do
  let (kept, violations) ← filterActions c (rawActions blockInput)
  return {
    summary := ((lookup blockInput (py "summary")).getD .null).orElse (.str [])
    proposedActions := if tier = .inform then [] else kept
    filteredViolations := violations
    tierSuppressedActions := if tier = .inform then kept else []
    coverage := coverageOf blockInput
    ruleApplied := (lookup blockInput (py "rule_applied")).filter truthy }

/-! ## What a value reads as -/

def readsAs : Json → Option PyFloat
  | .str s => floatOfStr s
  | v => v.number

/-- A number in a guarded field that is below the least state of charge or above the grid power. -/
def Breaches (c : DepotConstraints) (fname : String) (x : PyFloat) : Prop :=
  fname ∈ socFields ∧ c.minDepartureSoc.gt (fraction x) = true ∨
    fname ∈ gridKwFields ∧ ∃ maxGridKw, c.maxGridKw = some maxGridKw ∧ x.gt maxGridKw = true

/-- The dictionaries of a value, at any depth. -/
inductive Within (fields : List (PyStr × Json)) : Json → Prop where
  | self : Within fields (.obj fields)
  | item {v : Json} {items : List Json} (h : Within fields v) (hv : v ∈ items) : Within fields (.arr items)
  | field {v : Json} {k : PyStr} {outer : List (PyStr × Json)} (h : Within fields v) (hv : (k, v) ∈ outer) :
      Within fields (.obj outer)

/-- What a record says of the entry that it stands for. -/
def Describes (c : DepotConstraints) (entry : Json) (v : ConstraintViolation) : Prop :=
  match entry with
  | .obj action => Breaches c v.field v.value ∧ (∃ rest, v.detail = v.field ++ "=" ++ v.value.repr ++ rest) ∧
      ∃ value, lookup action (py v.field) = some value ∧ readsAs value = some v.value
  | entry => v = malformedAction entry

theorem coerceFloat_of_readsAs {v : Json} {q : ℚ} {r : Option PyFloat} (hreads : readsAs v = some (.finite q))
    (h : coerceFloat v = .ok r) : r = some (.finite q) := by
  cases v with
  | null => exact nomatch hreads
  | bool b =>
    obtain rfl := Except.ok.inj h
    exact hreads
  | int n =>
    rw [coerceFloat, PyFloat.ofInt] at h
    split at h
    · exact nomatch h
    · obtain rfl := Except.ok.inj h
      exact hreads
  | float x =>
    obtain rfl := Option.some.inj hreads
    obtain rfl := Except.ok.inj h
    rfl
  | str s =>
    have hs : floatOfStr s = some (.finite q) := hreads
    rw [coerceFloat, hs] at h
    obtain rfl := Except.ok.inj h
    rfl
  | arr items => exact nomatch hreads
  | obj fields => exact nomatch hreads

theorem readsAs_of_coerceFloat {v : Json} {x : PyFloat} (h : coerceFloat v = .ok (some x)) : readsAs v = some x := by
  cases v with
  | null => exact nomatch (Except.ok.inj h : none = some x)
  | bool b => exact Except.ok.inj h
  | int n =>
    rw [coerceFloat, PyFloat.ofInt] at h
    split at h
    · exact nomatch h
    · exact Except.ok.inj h
  | float y =>
    rw [coerceFloat] at h
    split at h
    · exact Except.ok.inj h
    · exact nomatch Except.ok.inj h
  | str s =>
    rw [coerceFloat] at h
    exact (Option.filter_eq_some_iff.mp (Except.ok.inj h)).1
  | arr items => exact nomatch (Except.ok.inj h : none = some x)
  | obj fields => exact nomatch (Except.ok.inj h : none = some x)

/-! ## The loop over the fields -/

section Loop

variable {test : String → PyFloat → Option ConstraintViolation} {action : List (PyStr × Json)}

theorem test_of_firstViolation_none {fields : List String} (h : firstViolation test action fields = .ok none)
    {fname : String} (hfname : fname ∈ fields) {v : Json} (hv : lookup action (py fname) = some v) {q : ℚ}
    (hreads : readsAs v = some (.finite q)) : test fname (.finite q) = none := by
  induction fields with
  | nil => exact absurd hfname List.not_mem_nil
  | cons f rest ih =>
    rw [firstViolation] at h
    rcases List.mem_cons.mp hfname with rfl | hrest
    · simp only [hv] at h
      cases hcoerce : coerceFloat v with
      | error e =>
        rw [hcoerce] at h
        exact nomatch h
      | ok r =>
        obtain rfl := coerceFloat_of_readsAs hreads hcoerce
        simp only [hcoerce] at h
        cases htest : test fname (.finite q) with
        | none => rfl
        | some violation =>
          rw [htest] at h
          exact nomatch Except.ok.inj h
    · refine ih ?_ hrest
      split at h
      · exact h
      · split at h
        · exact nomatch h
        · exact h
        · split at h
          · exact nomatch Except.ok.inj h
          · exact h

theorem exists_of_firstViolation_some {fields : List String} {violation : ConstraintViolation}
    (h : firstViolation test action fields = .ok (some violation)) :
    ∃ fname ∈ fields, ∃ v x, lookup action (py fname) = some v ∧ readsAs v = some x ∧ test fname x = some violation := by
  induction fields with
  | nil => exact nomatch Except.ok.inj h
  | cons f rest ih =>
    have hlater : firstViolation test action rest = .ok (some violation) → ∃ fname ∈ f :: rest, ∃ v x,
        lookup action (py fname) = some v ∧ readsAs v = some x ∧ test fname x = some violation := by
      intro hrest
      obtain ⟨fname, hfname, hfound⟩ := ih hrest
      exact ⟨fname, List.mem_cons_of_mem _ hfname, hfound⟩
    rw [firstViolation] at h
    split at h
    · exact hlater h
    · rename_i v hv
      split at h
      · exact nomatch h
      · exact hlater h
      · rename_i x hcoerce
        split at h
        · rename_i found htest
          obtain rfl := Option.some.inj (Except.ok.inj h)
          exact ⟨f, List.mem_cons_self, v, x, hv, readsAs_of_coerceFloat hcoerce, htest⟩
        · exact hlater h

end Loop

/-! ## An action -/

theorem not_breaches_of_validateFields {c : DepotConstraints} {action : List (PyStr × Json)}
    (h : validateFields c action = .ok none) {fname : String} {v : Json} (hv : lookup action (py fname) = some v) {q : ℚ}
    (hreads : readsAs v = some (.finite q)) : ¬ Breaches c fname (.finite q) := by
  rw [validateFields] at h
  split at h
  · exact nomatch h
  · exact nomatch Except.ok.inj h
  · rename_i hsoc
    rintro (⟨hfname, hbreach⟩ | ⟨hfname, maxGridKw, hmax, hbreach⟩)
    · have htest := test_of_firstViolation_none hsoc hfname hv hreads
      rw [socViolation, if_pos hbreach] at htest
      exact nomatch htest
    · rw [hmax] at h
      have htest := test_of_firstViolation_none h hfname hv hreads
      rw [gridViolation, if_pos hbreach] at htest
      exact nomatch htest

theorem describes_of_validateFields {c : DepotConstraints} {action : List (PyStr × Json)} {v : ConstraintViolation}
    (h : validateFields c action = .ok (some v)) : Describes c (.obj action) v := by
  rw [validateFields] at h
  split at h
  · exact nomatch h
  · rename_i hsoc
    obtain rfl := Option.some.inj (Except.ok.inj h)
    obtain ⟨fname, hfname, value, x, hvalue, hreads, htest⟩ := exists_of_firstViolation_some hsoc
    rw [socViolation] at htest
    split at htest
    · rename_i hbreach
      obtain rfl := Option.some.inj htest
      exact ⟨.inl ⟨hfname, hbreach⟩, ⟨_, rfl⟩, value, hvalue, hreads⟩
    · exact nomatch htest
  · split at h
    · exact nomatch Except.ok.inj h
    · rename_i maxGridKw hmax
      obtain ⟨fname, hfname, value, x, hvalue, hreads, htest⟩ := exists_of_firstViolation_some h
      rw [gridViolation] at htest
      split at htest
      · rename_i hbreach
        obtain rfl := Option.some.inj htest
        exact ⟨.inr ⟨hfname, maxGridKw, hmax, hbreach⟩, ⟨_, rfl⟩, value, hvalue, hreads⟩
      · exact nomatch htest

/-! ## All actions -/

/-- The entries with what the guard made of each: those without a record are kept, in their order, and the records are in
the order of the entries that were dropped. -/
structure Sorts (c : DepotConstraints) (verdicts : List (Json × Option ConstraintViolation)) (kept : List Json)
    (violations : List ConstraintViolation) : Prop where
  kept : kept = verdicts.filterMap fun p => if p.2.isNone then some p.1 else none
  violations : violations = verdicts.filterMap Prod.snd
  clean : ∀ p ∈ verdicts, p.2 = none → ∃ action, p.1 = .obj action ∧ validateFields c action = .ok none
  described : ∀ p ∈ verdicts, ∀ v, p.2 = some v → Describes c p.1 v

theorem Sorts.cons_kept {c : DepotConstraints} {verdicts : List (Json × Option ConstraintViolation)} {kept : List Json}
    {violations : List ConstraintViolation} (h : Sorts c verdicts kept violations) {action : List (PyStr × Json)}
    (haction : validateFields c action = .ok none) :
    Sorts c ((.obj action, none) :: verdicts) (.obj action :: kept) violations where
  kept := by
    rw [List.filterMap_cons_some (by rfl), ← h.kept]
  violations := by
    rw [List.filterMap_cons_none (by rfl), ← h.violations]
  clean := by
    intro p hp hnone
    rcases List.mem_cons.mp hp with rfl | hrest
    · exact ⟨action, rfl, haction⟩
    · exact h.clean p hrest hnone
  described := by
    intro p hp v hv
    rcases List.mem_cons.mp hp with rfl | hrest
    · exact nomatch hv
    · exact h.described p hrest v hv

theorem Sorts.cons_dropped {c : DepotConstraints} {verdicts : List (Json × Option ConstraintViolation)}
    {kept : List Json} {violations : List ConstraintViolation} (h : Sorts c verdicts kept violations) {entry : Json}
    {v : ConstraintViolation} (hentry : Describes c entry v) :
    Sorts c ((entry, some v) :: verdicts) kept (v :: violations) where
  kept := by
    rw [List.filterMap_cons_none (by rfl), ← h.kept]
  violations := by
    rw [List.filterMap_cons_some (by rfl), ← h.violations]
  clean := by
    intro p hp hnone
    rcases List.mem_cons.mp hp with rfl | hrest
    · exact nomatch hnone
    · exact h.clean p hrest hnone
  described := by
    intro p hp w hw
    rcases List.mem_cons.mp hp with rfl | hrest
    · obtain rfl := Option.some.inj hw
      exact hentry
    · exact h.described p hrest w hw

theorem filterActions_sorts {c : DepotConstraints} {entries kept : List Json} {violations : List ConstraintViolation}
    (h : filterActions c entries = .ok (kept, violations)) :
    ∃ verdicts, verdicts.map Prod.fst = entries ∧ Sorts c verdicts kept violations := by
  induction entries generalizing kept violations with
  | nil =>
    obtain ⟨rfl, rfl⟩ := Prod.mk.inj (Except.ok.inj h)
    exact ⟨[], rfl, rfl, rfl, fun _ hp => absurd hp List.not_mem_nil, fun _ hp => absurd hp List.not_mem_nil⟩
  | cons entry rest ih =>
    have hmalformed : (∀ action, entry ≠ .obj action) → ∃ verdicts, verdicts.map Prod.fst = entry :: rest ∧
        Sorts c verdicts kept violations := by
      intro hentry
      rw [filterActions] at h
      · rcases hrest : filterActions c rest with e | ⟨kept', violations'⟩
        · rw [hrest] at h
          exact nomatch h
        · rw [hrest] at h
          obtain ⟨rfl, rfl⟩ := Prod.mk.inj (Except.ok.inj h)
          obtain ⟨verdicts, hverdicts, hsorts⟩ := ih hrest
          have hdescribes : Describes c entry (malformedAction entry) := by
            unfold Describes
            split
            · rename_i action
              exact absurd rfl (hentry action)
            · rfl
          exact ⟨(entry, some (malformedAction entry)) :: verdicts, congrArg _ hverdicts,
            hsorts.cons_dropped hdescribes⟩
      · exact hentry
    cases entry with
    | null => exact hmalformed nofun
    | bool b => exact hmalformed nofun
    | int n => exact hmalformed nofun
    | float x => exact hmalformed nofun
    | str s => exact hmalformed nofun
    | arr items => exact hmalformed nofun
    | obj action =>
      rw [filterActions] at h
      cases hvalidate : validateFields c action with
      | error e =>
        rw [hvalidate] at h
        exact nomatch h
      | ok violation =>
        rw [hvalidate] at h
        rcases hrest : filterActions c rest with e | ⟨kept', violations'⟩
        · rw [hrest] at h
          exact nomatch h
        · rw [hrest] at h
          obtain ⟨verdicts, hverdicts, hsorts⟩ := ih hrest
          cases violation with
          | none =>
            obtain ⟨rfl, rfl⟩ := Prod.mk.inj (Except.ok.inj h)
            exact ⟨_, congrArg _ hverdicts, hsorts.cons_kept hvalidate⟩
          | some v =>
            obtain ⟨rfl, rfl⟩ := Prod.mk.inj (Except.ok.inj h)
            exact ⟨_, congrArg _ hverdicts, hsorts.cons_dropped (describes_of_validateFields hvalidate)⟩

/-! ## The output -/

/-- **The guard is sound for the fields of an action.**  No action of the output has a guarded field whose value reads as a
finite number that breaches; the output keeps the order of the actions, has a record of every entry that was dropped, and
proposes nothing at the read-only tier. -/
theorem captureTerminator_sound (c : DepotConstraints) (tier : PermissionTier) (blockInput : List (PyStr × Json))
    (output : TerminatorOutput) (h : captureTerminator c tier blockInput = .ok output) :
    (∀ a ∈ output.proposedActions, ∃ action, a = .obj action ∧ ∀ fname v q, lookup action (py fname) = some v →
      readsAs v = some (.finite q) → ¬ Breaches c fname (.finite q)) ∧
    (∃ verdicts : List (Json × Option ConstraintViolation), verdicts.map Prod.fst = rawActions blockInput ∧
      output.proposedActions ++ output.tierSuppressedActions =
        verdicts.filterMap (fun p => if p.2.isNone then some p.1 else none) ∧
      output.filteredViolations = verdicts.filterMap Prod.snd ∧
      ∀ p ∈ verdicts, ∀ v, p.2 = some v → Describes c p.1 v) ∧
    (tier = .inform → output.proposedActions = []) ∧ (tier ≠ .inform → output.tierSuppressedActions = []) := by
  rw [captureTerminator] at h
  rcases hfilter : filterActions c (rawActions blockInput) with e | ⟨kept, violations⟩
  · rw [hfilter] at h
    exact nomatch h
  · rw [hfilter] at h
    obtain rfl := Except.ok.inj h
    obtain ⟨verdicts, hverdicts, hsorts⟩ := filterActions_sorts hfilter
    refine ⟨fun a ha => ?_, ⟨verdicts, hverdicts, ?_, hsorts.violations, hsorts.described⟩, fun htier => if_pos htier,
      fun htier => if_neg htier⟩
    · have hkept : a ∈ kept := by
        by_cases htier : tier = .inform
        · rw [if_pos htier] at ha
          exact absurd ha List.not_mem_nil
        · rwa [if_neg htier] at ha
      rw [hsorts.kept] at hkept
      obtain ⟨p, hp, hpa⟩ := List.mem_filterMap.mp hkept
      split at hpa
      · rename_i hnone
        obtain rfl := Option.some.inj hpa
        obtain ⟨action, haction, hvalidate⟩ := hsorts.clean p hp (Option.isNone_iff_eq_none.mp hnone)
        exact ⟨action, haction, fun fname v q hv hreads => not_breaches_of_validateFields hvalidate hv hreads⟩
      · exact nomatch hpa
    · by_cases htier : tier = .inform
      · rw [if_pos htier, if_pos htier, List.nil_append]
        exact hsorts.kept
      · rw [if_neg htier, if_neg htier, List.append_nil]
        exact hsorts.kept

/-! ## Two actions -/

def fiveHundredKw : DepotConstraints := ⟨.finite (99 / 100), some (.finite 500)⟩

def emitted (action : List (PyStr × Json)) : List (PyStr × Json) := [(py "proposed_actions", .arr [.obj action])]

def sixHundred : List (PyStr × Json) := [(py "grid_kw", .str (py "6e2"))]

def infinitePower : List (PyStr × Json) := [(py "grid_kw", .str (py "inf"))]

/-- An action of six hundred kilowatts is dropped and recorded. -/
theorem six_hundred_dropped : ∃ output, captureTerminator fiveHundredKw .draftAndWait (emitted sixHundred) = .ok output ∧
    output.filteredViolations.length = 1 ∧ ∀ a ∈ output.proposedActions, ∃ action, a = .obj action ∧ ∀ fname v q,
      lookup action (py fname) = some v → readsAs v = some (.finite q) → ¬ Breaches fiveHundredKw fname (.finite q) := by
  rcases houtput : captureTerminator fiveHundredKw .draftAndWait (emitted sixHundred) with e | output
  · have hok : (captureTerminator fiveHundredKw .draftAndWait (emitted sixHundred)).isOk = true := by decide +kernel
    rw [houtput] at hok
    exact nomatch hok
  · have hlength : (captureTerminator fiveHundredKw .draftAndWait (emitted sixHundred)).toOption.map
        (fun o => o.filteredViolations.length) = some 1 := by decide +kernel
    rw [houtput] at hlength
    exact ⟨output, rfl, Option.some.inj hlength,
      (captureTerminator_sound fiveHundredKw .draftAndWait (emitted sixHundred) output houtput).1⟩

/-- An action of infinite power is kept. -/
theorem infinite_power_kept :
    ¬ ∀ c tier blockInput output, captureTerminator c tier blockInput = .ok output →
      ∀ a ∈ output.proposedActions, ∀ fields, Within fields a → ∀ fname v x, lookup fields (py fname) = some v →
        readsAs v = some x → ¬ Breaches c fname x := by
  intro h
  rcases houtput : captureTerminator fiveHundredKw .draftAndWait (emitted infinitePower) with e | output
  · have hok : (captureTerminator fiveHundredKw .draftAndWait (emitted infinitePower)).isOk = true := by decide +kernel
    rw [houtput] at hok
    exact nomatch hok
  · have hkept : (captureTerminator fiveHundredKw .draftAndWait (emitted infinitePower)).toOption.map
        TerminatorOutput.proposedActions = some [.obj infinitePower] := by decide +kernel
    rw [houtput] at hkept
    have hmem : Json.obj infinitePower ∈ output.proposedActions := by
      rw [Option.some.inj hkept]
      exact List.mem_cons_self
    have hlookup : lookup infinitePower (py "grid_kw") = some (.str (py "inf")) := by decide +kernel
    have hreads : readsAs (.str (py "inf")) = some .inf := by decide +kernel
    refine h fiveHundredKw .draftAndWait (emitted infinitePower) output houtput _ hmem infinitePower .self "grid_kw" _ _
      hlookup hreads (.inr ⟨List.mem_cons_self, .finite 500, rfl, rfl⟩)

end FavoniusBackend.Agent.Guard
