import FavoniusBackend.Lib.Run
import FavoniusBackend.Billing.SessionCost

/-!
# Concurrent cost writes

`write_session_cost` and the tasks that lead up to it.  A task reads a session row, prices the
snapshot, and writes the result; the three happen at different times, and any number of tasks and of
other statements on the same rows may run in between.  What a task writes may therefore rest on a row
that no longer looks like its snapshot.

Each SQL statement is atomic.  As in PostgreSQL every statement that updates a row leaves a new row
version behind, so that an update with equal values is still an update.

`writeSessionCost` is the guarded `UPDATE`; everything here follows from what one such statement can
do (`writeSessionCost_cases`).  Over runs it gives the contract of the module: a cost that is set, or
marked as manual, stays as it is (`session_cost_writes_keep_final_cost`).
-/

namespace FavoniusBackend.Billing.CostWrites

open Lib Lib.Numeric Lib.Run
open Billing.SessionCost

/-- A stored row: the selected columns, `updated_at`, and the row version. -/
structure ChargingSession extends SessionColumns where
  updatedAt : ℚ
  version : ℕ
  deriving DecidableEq, Repr

structure SessionTable where
  rows : Dict String ChargingSession
  nextVersion : ℕ
  fresh : ∀ id c, rows.get? id = some c → c.version < nextVersion

def SessionTable.put (table : SessionTable) (id : String) (columns : SessionColumns) (now : ℚ) :
    SessionTable where
  rows := table.rows.set id ⟨columns, now, table.nextVersion⟩
  nextVersion := table.nextVersion + 1
  fresh := by
    intro id' c h
    rw [Dict.get?_set] at h
    split at h
    · obtain rfl := Option.some.inj h
      exact Nat.lt_succ_self _
    · exact Nat.lt_succ_of_lt (table.fresh id' c h)

/-- A session whose cost is settled: set to a non-zero value, or marked as manual. -/
def ChargingSession.Final (c : ChargingSession) : Prop :=
  (c.costTotal ≠ none ∧ c.costTotal ≠ some 0) ∨ c.costTotalSource = some SessionCostSource.manual.text

instance (c : ChargingSession) : Decidable c.Final := by
  unfold ChargingSession.Final
  infer_instance

/-- The conditions of the `UPDATE` other than the session id. -/
def eligible (c : ChargingSession) : Bool :=
  (decide (c.costTotal = none) || decide (c.costTotal = some 0)) &&
    decide (c.costTotalSource ≠ some SessionCostSource.manual.text)

/-- `cost_value`: only the two priced sources carry a cost. -/
def costValue (result : SessionCostResult) : Option ℚ :=
  if result.source = .granular ∨ result.source = .fallbackAverage then result.cost else none

/-- Assignment to the `DECIMAL(10,2)` column. -/
def storeCost : Option ℚ → Except BillingError (Option ℚ)
  | none => .ok none
  | some cost =>
    match numericColumn 10 2 cost with
    | some stored => .ok (some stored)
    | none => .error .numericFieldOverflow

/-- `write_session_cost`: the returned flag and the table afterwards. -/
def writeSessionCost (now : ℚ) (sessionId : String) (result : SessionCostResult)
    (table : SessionTable) : Except BillingError Bool × SessionTable :=
  if result.source = .pendingClose then (.ok false, table)
  else
    match table.rows.get? sessionId with
    | none => (.ok false, table)
    | some c =>
      if eligible c then
        match storeCost (costValue result) with
        | .error e => (.error e, table)
        | .ok stored =>
          (.ok true, table.put sessionId
            { c.toSessionColumns with
              costTotal := stored
              costTotalSource := some result.source.text } now)
      else (.ok false, table)

/-! ### One write -/

theorem eligible_iff_not_final (c : ChargingSession) : eligible c = true ↔ ¬ c.Final := by
  unfold eligible ChargingSession.Final
  simp only [Bool.and_eq_true, Bool.or_eq_true, decide_eq_true_eq]
  tauto

theorem storeCost_none {result : SessionCostResult} {stored : Option ℚ}
    (hg : result.source ≠ .granular) (hf : result.source ≠ .fallbackAverage)
    (h : storeCost (costValue result) = .ok stored) : stored = none := by
  rw [costValue, if_neg (by tauto)] at h
  have hnone : storeCost none = .ok none := rfl
  rw [hnone] at h
  exact (Except.ok.inj h).symm

/-- **What one write can do.**  Either it leaves the table alone and does not return `True`, or it
replaces the columns of an eligible row. -/
theorem writeSessionCost_cases (now : ℚ) (sessionId : String) (result : SessionCostResult)
    (table : SessionTable) :
    ((writeSessionCost now sessionId result table).2 = table ∧
      (writeSessionCost now sessionId result table).1 ≠ .ok true) ∨
    ∃ c stored, table.rows.get? sessionId = some c ∧ ¬ c.Final ∧
      storeCost (costValue result) = .ok stored ∧
      writeSessionCost now sessionId result table =
        (.ok true, table.put sessionId
          { c.toSessionColumns with
            costTotal := stored
            costTotalSource := some result.source.text } now) := by
  unfold writeSessionCost
  split
  · left
    exact ⟨rfl, by simp⟩
  · split
    · left
      exact ⟨rfl, by simp⟩
    · rename_i c hrow
      split
      · rename_i helig
        split
        · left
          exact ⟨rfl, by simp⟩
        · rename_i stored hstored
          right
          exact ⟨c, stored, hrow, (eligible_iff_not_final c).mp helig, hstored, rfl⟩
      · left
        exact ⟨rfl, by simp⟩

theorem writeSessionCost_of_final (now : ℚ) (sessionId : String) (result : SessionCostResult)
    (table : SessionTable) (c : ChargingSession) (hrow : table.rows.get? sessionId = some c)
    (hfinal : c.Final) : writeSessionCost now sessionId result table = (.ok false, table) := by
  have hnot : ¬ eligible c = true := by
    rw [eligible_iff_not_final]
    exact not_not_intro hfinal
  unfold writeSessionCost
  split
  · rfl
  · rw [hrow]
    simp only
    rw [if_neg hnot]

theorem get?_write_of_final (now : ℚ) (sessionId : String) (result : SessionCostResult)
    (table : SessionTable) (id : String) (c : ChargingSession) (hrow : table.rows.get? id = some c)
    (hfinal : c.Final) : (writeSessionCost now sessionId result table).2.rows.get? id = some c := by
  by_cases hid : sessionId = id
  · subst hid
    rw [writeSessionCost_of_final now sessionId result table c hrow hfinal]
    exact hrow
  · rcases writeSessionCost_cases now sessionId result table with ⟨hsame, _⟩ | ⟨c', s, _, _, _, hput⟩
    · rw [hsame]
      exact hrow
    · rw [hput]
      show (table.rows.set sessionId _).get? id = some c
      rw [Dict.get?_set_ne _ _ (fun h => hid h.symm)]
      exact hrow

/-! ### Tasks and their interleavings -/

/-- One run of the cost calculation: the row it read and the result it holds. -/
structure CostTask where
  snapshot : Option SessionRow
  result : Option SessionCostResult

/-- One executed `write_session_cost`, with the session's row before and after it. -/
structure WriteEvent where
  sessionId : String
  result : SessionCostResult
  before : Option ChargingSession
  after : Option ChargingSession
  returned : Except BillingError Bool

structure World where
  table : SessionTable
  tasks : ℕ → CostTask
  log : List WriteEvent

/-- The steps that interleave.  `other` is any other statement on a session row: an import, an
operator, a repair script. -/
inductive Step
  | read (task : ℕ) (sessionId : String) (site zone : Option String)
  | compute (task : ℕ) (env : CostEnv)
  | write (task : ℕ) (now : ℚ)
  | other (sessionId : String) (columns : SessionColumns) (now : ℚ)

def Step.isCosting : Step → Bool
  | .other _ _ _ => false
  | _ => true

def readRow (table : SessionTable) (sessionId : String) (site zone : Option String) :
    Option SessionRow :=
  (table.rows.get? sessionId).map fun c =>
    { c.toSessionColumns with siteId := c.siteId.or site, biddingZone := zone }

def readStep (w : World) (i : ℕ) (sessionId : String) (site zone : Option String) : World :=
  { w with tasks := Function.update w.tasks i ⟨readRow w.table sessionId site zone, none⟩ }

/-- A task prices its snapshot; an exception leaves it without a result. -/
def computeStep (w : World) (i : ℕ) (env : CostEnv) : World :=
  match (w.tasks i).snapshot with
  | none => w
  | some row =>
    { w with
      tasks := Function.update w.tasks i ⟨some row, (computeSessionCost env row).toOption⟩ }

def writeStep (w : World) (i : ℕ) (now : ℚ) : World :=
  match (w.tasks i).snapshot, (w.tasks i).result with
  | some row, some result =>
    let outcome := writeSessionCost now row.sessionId result w.table
    { w with
      table := outcome.2
      log := w.log ++ [⟨row.sessionId, result, w.table.rows.get? row.sessionId,
        outcome.2.rows.get? row.sessionId, outcome.1⟩] }
  | _, _ => w

def step (w : World) : Step → World
  | .read i sessionId site zone => readStep w i sessionId site zone
  | .compute i env => computeStep w i env
  | .write i now => writeStep w i now
  | .other sessionId columns now => { w with table := w.table.put sessionId columns now }

/-- What is promised of one executed write. -/
structure WriteEvent.Sound (e : WriteEvent) : Prop where
  final_kept : ∀ c, e.before = some c → c.Final → e.after = some c ∧ e.returned = .ok false
  unpriced_null : e.returned = .ok true → ∃ c, e.after = some c ∧
    c.costTotalSource = some e.result.source.text ∧
    (e.result.source ≠ .granular → e.result.source ≠ .fallbackAverage → c.costTotal = none)
  true_iff_changed : e.returned = .ok true ↔ e.after ≠ e.before

theorem writeEvent_sound (now : ℚ) (sessionId : String) (result : SessionCostResult)
    (table : SessionTable) :
    WriteEvent.Sound ⟨sessionId, result, table.rows.get? sessionId,
      (writeSessionCost now sessionId result table).2.rows.get? sessionId,
      (writeSessionCost now sessionId result table).1⟩ := by
  have hfinal : ∀ c, table.rows.get? sessionId = some c → c.Final →
      (writeSessionCost now sessionId result table).2.rows.get? sessionId = some c ∧
        (writeSessionCost now sessionId result table).1 = .ok false := by
    intro c hrow hf
    rw [writeSessionCost_of_final now sessionId result table c hrow hf]
    exact ⟨hrow, rfl⟩
  rcases writeSessionCost_cases now sessionId result table with
    ⟨hsame, hret⟩ | ⟨c, stored, hrow, hnot, hstored, hput⟩
  · refine ⟨hfinal, fun h => absurd h hret, ?_⟩
    show _ = _ ↔ (writeSessionCost now sessionId result table).2.rows.get? sessionId ≠ _
    rw [hsame]
    exact ⟨fun h => absurd h hret, fun h => absurd rfl h⟩
  · have hafter : (writeSessionCost now sessionId result table).2.rows.get? sessionId =
        some ⟨{ c.toSessionColumns with
          costTotal := stored
          costTotalSource := some result.source.text }, now, table.nextVersion⟩ := by
      rw [hput]
      exact Dict.get?_set_self _ _ _
    have hret : (writeSessionCost now sessionId result table).1 = .ok true := by rw [hput]
    refine ⟨hfinal, ?_, ?_⟩
    · intro _
      exact ⟨_, hafter, rfl, fun hg hf => storeCost_none hg hf hstored⟩
    · refine ⟨fun _ hsame => ?_, fun _ => hret⟩
      -- the new row version differs from the old one, whatever the columns are
      have hold : (writeSessionCost now sessionId result table).2.rows.get? sessionId = some c :=
        hsame.trans hrow
      rw [hafter] at hold
      have hversion : table.nextVersion = c.version :=
        congrArg ChargingSession.version (Option.some.inj hold)
      have hlt := table.fresh sessionId c hrow
      omega

/-! ### Runs -/

theorem computeStep_frame (w : World) (i : ℕ) (env : CostEnv) :
    (computeStep w i env).table = w.table ∧ (computeStep w i env).log = w.log := by
  unfold computeStep
  split
  · exact ⟨rfl, rfl⟩
  · exact ⟨rfl, rfl⟩

theorem step_log_sound (w : World) (s : Step) (h : ∀ e ∈ w.log, e.Sound) :
    ∀ e ∈ (step w s).log, e.Sound := by
  cases s with
  | read i sessionId site zone => exact h
  | compute i env =>
    show ∀ e ∈ (computeStep w i env).log, e.Sound
    rw [(computeStep_frame w i env).2]
    exact h
  | write i now =>
    show ∀ e ∈ (writeStep w i now).log, e.Sound
    unfold writeStep
    split
    · intro e he
      rcases List.mem_append.mp he with hold | hnew
      · exact h e hold
      · obtain rfl := List.mem_singleton.mp hnew
        exact writeEvent_sound now _ _ w.table
    · exact h
  | other sessionId columns now => exact h

theorem step_keeps_final (w : World) (s : Step) (hs : s.isCosting = true) (id : String)
    (c : ChargingSession) (hfinal : c.Final) (hrow : w.table.rows.get? id = some c) :
    (step w s).table.rows.get? id = some c := by
  cases s with
  | read i sessionId site zone => exact hrow
  | compute i env =>
    show (computeStep w i env).table.rows.get? id = some c
    rw [(computeStep_frame w i env).1]
    exact hrow
  | write i now =>
    show (writeStep w i now).table.rows.get? id = some c
    unfold writeStep
    split
    · exact get?_write_of_final now _ _ w.table id c hrow hfinal
    · exact hrow
  | other sessionId columns now => cases hs

/-- **Settled costs survive every interleaving.**  In every run of any number of tasks over any table,
each executed write leaves a settled row untouched and returns `False` on it, stores no cost under an
unpriced source, and returns `True` exactly when it changed the row.  And from any point of the run
on, as long as only the tasks act, a settled row stays exactly as it is. -/
theorem session_cost_writes_keep_final_cost (table : SessionTable) (tasks : ℕ → CostTask)
    (steps : List Step) :
    (∀ e ∈ (run step ⟨table, tasks, []⟩ steps).log, e.Sound) ∧
    ∀ (id : String) (c : ChargingSession) (later : List Step),
      (run step ⟨table, tasks, []⟩ steps).table.rows.get? id = some c → c.Final →
      (∀ s ∈ later, s.isCosting = true) →
      (run step ⟨table, tasks, []⟩ (steps ++ later)).table.rows.get? id = some c := by
  refine ⟨?_, ?_⟩
  · apply run_invariant step (fun w => ∀ e ∈ w.log, e.Sound)
    · intro w s _ h
      exact step_log_sound w s h
    · intro e he
      simp at he
  · intro id c later hrow hfinal hlater
    rw [run_append]
    apply run_invariant step (fun w => w.table.rows.get? id = some c)
    · intro w s hs h
      exact step_keeps_final w s (hlater s hs) id c hfinal h
    · exact hrow

/-! ### Two tasks that race for one session -/

def closedSession : SessionColumns :=
  ⟨"s1", some "depot", none, some "cs1", some 1, none, ⟨0, 0⟩, some ⟨3600, 0⟩, some 10, none, none⟩

def closedSessionTable : SessionTable where
  rows := Dict.empty.set "s1" ⟨closedSession, 0, 0⟩
  nextVersion := 1
  fresh := by
    intro id c h
    rw [Dict.get?_set] at h
    split at h
    · obtain rfl := Option.some.inj h
      exact Nat.zero_lt_one
    · cases h

def flatPriceEnv (price : ℚ) : CostEnv where
  parseUuid := fun _ => none
  prices := fun _ _ _ => .ok (Dict.empty.set (.aware 0) price)
  fetch := fun _ _ _ => .ok []

/-- Both tasks read the unpriced row; the first one prices and writes it. -/
def racedSteps : List Step :=
  [.read 0 "s1" none (some "zone"), .read 1 "s1" none (some "zone"),
    .compute 0 (flatPriceEnv (3 / 10)), .write 0 4000]

/-- The second task prices the same hour differently, and its write no longer gets through. -/
theorem raced_write_keeps_first_cost :
    ∃ c : ChargingSession, c.costTotal = some 3 ∧
      (run step ⟨closedSessionTable, fun _ => ⟨none, none⟩, []⟩ racedSteps).table.rows.get? "s1" =
        some c ∧
      (run step ⟨closedSessionTable, fun _ => ⟨none, none⟩, []⟩
        (racedSteps ++ [.compute 1 (flatPriceEnv (5 / 10)), .write 1 5000])).table.rows.get? "s1" =
        some c := by
  have hrow : (run step ⟨closedSessionTable, fun _ => ⟨none, none⟩, []⟩
      racedSteps).table.rows.get? "s1" =
        some ⟨{ closedSession with costTotal := some 3, costTotalSource := some "fallback_average" },
          4000, 1⟩ := by
    decide +kernel
  refine ⟨_, rfl, hrow, ?_⟩
  apply (session_cost_writes_keep_final_cost closedSessionTable (fun _ => ⟨none, none⟩)
    racedSteps).2 "s1" _ _ hrow
  · decide +kernel
  · intro s hs
    simp only [List.mem_cons, List.not_mem_nil, or_false] at hs
    rcases hs with rfl | rfl
    · rfl
    · rfl

end FavoniusBackend.Billing.CostWrites
