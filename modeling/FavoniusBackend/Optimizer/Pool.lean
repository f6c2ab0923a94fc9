import FavoniusBackend.Lib.Run
import FavoniusBackend.Lib.Tasks

/-!
# The pool of solver processes

`SolverPool` runs every solve in a process of an executor.  A crash of a process breaks the whole executor,
and a solve that exceeds its time leaves a process behind: in both cases the executor is replaced and the
solve is tried once more.  Any number of coroutines call `solve`, and `start` and `stop` may come between
any two of their awaits.

An executor is an object; the model numbers the executors in the order of their construction, so that two
of them are the same object if and only if their numbers agree.  The sections under the lock contain no
await and are one step each.  What the processes do, and whether an executor can be constructed, is part of
the event.
-/

namespace FavoniusBackend.Optimizer.Pool

open Lib

/-! ### The solves -/

/-- Why an attempt failed and its executor is to be replaced. -/
inductive Failure
  | brokenPool
  | timeout
  deriving DecidableEq, Repr

/-- How a call of `solve` ends. -/
inductive Outcome
  | returned
  -- Whatever the worker, the submission or the construction of an executor raises.
  | raised
  -- `RuntimeError`: the pool is not started.
  | notStarted
  -- `SolverTimeoutError`.
  | solverTimeout
  -- `SolverError`: the second attempt found the pool broken.
  | brokenTwice
  | cancelled
  deriving DecidableEq, Repr

/-- What a call of `solve` is waiting for. -/
inductive Phase
  -- A slot of the semaphore.
  | waiting
  -- The future, in `wait_for`.
  | awaiting (attempt executor : ℕ)
  -- The lock, in `_recreate`.
  | recreating (attempt executor : ℕ) (failure : Failure)
  -- The thread that shuts the replaced executor down.
  | shuttingDown (attempt : ℕ) (failure : Failure)
  | finished (outcome : Outcome)
  deriving DecidableEq, Repr

/-- A call of `solve`, with the number of attempts it has submitted. -/
structure Solve where
  phase : Phase := .waiting
  submitted : ℕ := 0
  deriving DecidableEq, Repr

/-- One of the two attempts is under way: its future is awaited or its failure is being recovered. -/
def Phase.inAttempt : Phase → Bool
  | .awaiting _ _ | .recreating _ _ _ | .shuttingDown _ _ => true
  | .waiting | .finished _ => false

/-- The attempt has been submitted and its future is not done: the solve is in its timed section. -/
def Phase.isAwaiting : Phase → Bool
  | .awaiting _ _ => true
  | _ => false

/-- The attempt has failed and its executor is being replaced. -/
def Phase.isRecovering : Phase → Bool
  | .recreating _ _ _ | .shuttingDown _ _ => true
  | _ => false

/-- The pool with the calls of `solve`, and what has become of its executors. -/
structure SolverPool where
  executor : Option ℕ := none
  /-- The value of the semaphore. -/
  slots : ℕ
  /-- `SOLVER_POOL_INFLIGHT`. -/
  inflight : ℤ := 0
  solves : List Solve := []
  /-- The number of executors constructed so far. -/
  created : ℕ := 0
  /-- The executors that `_recreate` has replaced. -/
  replaced : List ℕ := []
  deriving DecidableEq, Repr

def SolverPool.init (maxWorkers : ℤ) : SolverPool where
  slots := (max 1 maxWorkers).toNat

/-! ### The steps of a solve -/

/-- How `run_in_executor` ends. -/
inductive Submission
  | accepted
  -- It raises `BrokenProcessPool`.
  | broken
  | raised
  deriving DecidableEq, Repr

/-- How `wait_for` ends. -/
inductive Answer
  | returned
  | raised
  | broken
  | timeout
  deriving DecidableEq, Repr

def SolverPool.goOn (s : SolverPool) (i : ℕ) (solve : Solve) : SolverPool :=
  { s with solves := s.solves.set i solve }

/-- The call returns or raises, and its slot is released. -/
def SolverPool.leave (s : SolverPool) (i : ℕ) (solve : Solve) (outcome : Outcome) : SolverPool :=
  { s.goOn i { solve with phase := .finished outcome } with slots := s.slots + 1 }

def SolverPool.tryAttempt (s : SolverPool) (i : ℕ) (solve : Solve) (attempt : ℕ)
    (submission : Submission) : SolverPool :=
  match s.executor with
  | none => s.leave i solve .notStarted
  | some executor =>
    match submission with
    | .accepted =>
      { s.goOn i { phase := .awaiting attempt executor, submitted := solve.submitted + 1 } with
        inflight := s.inflight + 1 }
    | .broken =>
      { s.goOn i { solve with phase := .recreating attempt executor .brokenPool } with
        inflight := s.inflight + 1 }
    | .raised => s.leave i solve .raised

/-- The `finally` of an attempt that was under way. -/
def SolverPool.attemptOver (s : SolverPool) : SolverPool := { s with inflight := s.inflight - 1 }

/-- The executor has been replaced, by this call or by another one. -/
def SolverPool.recovered (s : SolverPool) (i : ℕ) (solve : Solve) (attempt : ℕ) (failure : Failure)
    (submission : Submission) : SolverPool :=
  if attempt = 1 then s.attemptOver.tryAttempt i solve 2 submission
  else
    s.attemptOver.leave i solve <| match failure with
      | .timeout => .solverTimeout
      | .brokenPool => .brokenTwice

/-- `_make_executor` succeeds: `ProcessPoolExecutor` refuses `max_workers <= 0`. -/
def makes (maxWorkers : ℤ) (constructed : Bool) : Bool := decide (0 < maxWorkers) && constructed

def SolverPool.recreate (maxWorkers : ℤ) (s : SolverPool) (i : ℕ) (solve : Solve)
    (attempt failed : ℕ) (failure : Failure) (constructed : Bool) (submission : Submission) :
    SolverPool :=
  if s.executor ≠ some failed then s.recovered i solve attempt failure submission
  else if makes maxWorkers constructed then
    { s.goOn i { solve with phase := .shuttingDown attempt failure } with
      executor := some s.created, created := s.created + 1, replaced := failed :: s.replaced }
  else s.attemptOver.leave i solve .raised

/-! ### Runs of the pool -/

/-- What happens to a call of `solve`: it gets a slot, its `wait_for` ends, it gets the lock, the executor
it has replaced is shut down, or its caller is cancelled. -/
inductive CallEvent
  | acquire (submission : Submission)
  | answer (answer : Answer)
  | lock (constructed : Bool) (submission : Submission)
  | shutDown (submission : Submission)
  | cancel
  deriving DecidableEq, Repr

inductive Event
  | start (constructed : Bool)
  | stop
  | solve
  | call (i : ℕ) (e : CallEvent)
  deriving DecidableEq, Repr

def SolverPool.stepSolve (maxWorkers : ℤ) (s : SolverPool) (i : ℕ) (solve : Solve) (e : CallEvent) :
    SolverPool :=
  match solve.phase, e with
  | .waiting, .acquire submission =>
    if 0 < s.slots then { s with slots := s.slots - 1 }.tryAttempt i solve 1 submission else s
  | .waiting, .cancel => s.goOn i { solve with phase := .finished .cancelled }
  | .awaiting attempt executor, .answer reply =>
    match reply with
    | .returned => s.attemptOver.leave i solve .returned
    | .raised => s.attemptOver.leave i solve .raised
    | .broken => s.goOn i { solve with phase := .recreating attempt executor .brokenPool }
    | .timeout => s.goOn i { solve with phase := .recreating attempt executor .timeout }
  | .recreating attempt executor failure, .lock constructed submission =>
    s.recreate maxWorkers i solve attempt executor failure constructed submission
  | .shuttingDown attempt failure, .shutDown submission =>
    s.recovered i solve attempt failure submission
  | .awaiting _ _, .cancel | .recreating _ _ _, .cancel | .shuttingDown _ _, .cancel =>
    s.attemptOver.leave i solve .cancelled
  | _, _ => s

def step (maxWorkers : ℤ) (s : SolverPool) : Event → SolverPool
  | .start constructed =>
    if s.executor.isNone && makes maxWorkers constructed then
      { s with executor := some s.created, created := s.created + 1 }
    else s
  | .stop => { s with executor := none }
  | .solve => { s with solves := s.solves ++ [{}] }
  | .call i e =>
    match s.solves[i]? with
    | some solve => s.stepSolve maxWorkers i solve e
    | none => s

/-! ### What an event can do -/

/-- What a call contributes to the attempts under way. -/
def Solve.share (solve : Solve) : ℤ := if solve.phase.inAttempt then 1 else 0

def Phase.attempts : Phase → ℕ
  | .waiting => 0
  | .awaiting attempt _ | .recreating attempt _ _ | .shuttingDown attempt _ => attempt
  | .finished _ => 2

/-- The call has submitted no more attempts than it has begun, and has begun at most two. -/
def Solve.WithinTwo (solve : Solve) : Prop :=
  solve.submitted ≤ solve.phase.attempts ∧ solve.phase.attempts ≤ 2

/-- The executors are as they were, or the current one has been replaced by a new one. -/
def Rotates (maxWorkers : ℤ) (s s' : SolverPool) : Prop :=
  (s'.executor = s.executor ∧ s'.created = s.created ∧ s'.replaced = s.replaced) ∨
    ∃ failed, s.executor = some failed ∧ 0 < maxWorkers ∧ s'.executor = some s.created ∧
      s'.created = s.created + 1 ∧ s'.replaced = failed :: s.replaced

/-- The call at position `i` goes on as another one; the slots and the gauge follow it. -/
structure Moves (maxWorkers : ℤ) (i : ℕ) (old new : Solve) (s s' : SolverPool) : Prop where
  solves : s'.solves = s.solves.set i new
  slots : (s'.slots : ℤ) + new.share = s.slots + old.share
  inflight : s'.inflight - new.share = s.inflight - old.share
  withinTwo : old.WithinTwo → new.WithinTwo
  executor : new.share = 1 → old.share = 1 ∨ s.executor.isSome = true
  rotates : Rotates maxWorkers s s'

theorem share_of_inAttempt {solve : Solve} (h : solve.phase.inAttempt = true) : solve.share = 1 := by
  rw [Solve.share, if_pos h]

/-- The call ends: its slot is given back, and its attempt, if it was in one, is off the gauge. -/
theorem moves_leave {maxWorkers : ℤ} {s : SolverPool} {i : ℕ} {old : Solve} (outcome : Outcome)
    {t : SolverPool} (hsolves : t.solves = s.solves) (hslots : (t.slots : ℤ) + 1 = s.slots + old.share)
    (hinflight : t.inflight = s.inflight - old.share) (hrotates : Rotates maxWorkers s t) :
    Moves maxWorkers i old { old with phase := .finished outcome } s (t.leave i old outcome) where
  solves := by
    show t.solves.set i _ = _
    rw [hsolves]
  slots := by
    show ((t.slots + 1 : ℕ) : ℤ) + 0 = _
    push_cast
    omega
  inflight := by
    show t.inflight - 0 = _
    omega
  withinTwo := fun h => ⟨h.1.trans h.2, le_refl 2⟩
  executor := fun h => by cases h
  rotates := hrotates

theorem moves_tryAttempt {maxWorkers : ℤ} {s t : SolverPool} {i : ℕ} {old : Solve} {attempt : ℕ}
    (submission : Submission) (hsolves : t.solves = s.solves)
    (hslots : (t.slots : ℤ) + 1 = s.slots + old.share) (hinflight : t.inflight = s.inflight - old.share)
    (hexecutor : t.executor = s.executor) (hcreated : t.created = s.created)
    (hreplaced : t.replaced = s.replaced)
    (hattempt : old.WithinTwo → old.submitted + 1 ≤ attempt) (htwo : attempt ≤ 2) :
    ∃ new, Moves maxWorkers i old new s (t.tryAttempt i old attempt submission) := by
  have hrotates : Rotates maxWorkers s t := Or.inl ⟨hexecutor, hcreated, hreplaced⟩
  unfold SolverPool.tryAttempt
  cases ht : t.executor with
  | none => exact ⟨_, moves_leave .notStarted hsolves hslots hinflight hrotates⟩
  | some executor =>
    have hsome : s.executor.isSome = true := by
      rw [← hexecutor, ht]
      rfl
    cases submission with
    | raised => exact ⟨_, moves_leave .raised hsolves hslots hinflight hrotates⟩
    | accepted =>
      refine ⟨{ phase := .awaiting attempt executor, submitted := old.submitted + 1 }, ?_⟩
      constructor
      · show t.solves.set i _ = _
        rw [hsolves]
      · exact hslots
      · show t.inflight + 1 - 1 = _
        omega
      · exact fun h => ⟨hattempt h, htwo⟩
      · exact fun _ => Or.inr hsome
      · exact hrotates
    | broken =>
      refine ⟨{ old with phase := .recreating attempt executor .brokenPool }, ?_⟩
      constructor
      · show t.solves.set i _ = _
        rw [hsolves]
      · exact hslots
      · show t.inflight + 1 - 1 = _
        omega
      · exact fun h => ⟨(Nat.le_succ _).trans (hattempt h), htwo⟩
      · exact fun _ => Or.inr hsome
      · exact hrotates

theorem moves_goOn {maxWorkers : ℤ} {s t : SolverPool} {i : ℕ} {old : Solve} {phase : Phase}
    (hold : old.phase.inAttempt = true) (hphase : phase.inAttempt = true)
    (hattempts : phase.attempts = old.phase.attempts) (hsolves : t.solves = s.solves)
    (hslots : t.slots = s.slots) (hinflight : t.inflight = s.inflight)
    (hrotates : Rotates maxWorkers s t) :
    Moves maxWorkers i old { old with phase := phase } s (t.goOn i { old with phase := phase }) := by
  have hshare : Solve.share { old with phase := phase } = 1 := share_of_inAttempt hphase
  constructor
  · show t.solves.set i _ = _
    rw [hsolves]
  · show (t.slots : ℤ) + _ = _
    rw [hslots, hshare, share_of_inAttempt hold]
  · show t.inflight - _ = _
    rw [hinflight, hshare, share_of_inAttempt hold]
  · intro h
    show old.submitted ≤ phase.attempts ∧ phase.attempts ≤ 2
    rw [hattempts]
    exact h
  · exact fun _ => Or.inl (share_of_inAttempt hold)
  · exact hrotates

theorem moves_attemptOver_leave {maxWorkers : ℤ} {s : SolverPool} {i : ℕ} {old : Solve}
    (outcome : Outcome) (hold : old.phase.inAttempt = true) :
    ∃ new, Moves maxWorkers i old new s (s.attemptOver.leave i old outcome) := by
  have hshare := share_of_inAttempt hold
  refine ⟨_, moves_leave outcome rfl ?_ ?_ (Or.inl ⟨rfl, rfl, rfl⟩)⟩
  · rw [hshare]
    rfl
  · rw [hshare]
    rfl

theorem moves_recovered {maxWorkers : ℤ} {s : SolverPool} {i : ℕ} {old : Solve} {attempt : ℕ}
    (failure : Failure) (submission : Submission) (hold : old.phase.inAttempt = true)
    (hattempts : old.phase.attempts = attempt) :
    ∃ new, Moves maxWorkers i old new s (s.recovered i old attempt failure submission) := by
  have hshare := share_of_inAttempt hold
  unfold SolverPool.recovered
  split
  · rename_i hone
    refine moves_tryAttempt submission rfl ?_ ?_ rfl rfl rfl ?_ (le_refl 2)
    · rw [hshare]
      rfl
    · rw [hshare]
      rfl
    · intro h
      have hsubmitted := h.1
      omega
  · exact moves_attemptOver_leave _ hold

theorem moves_recreate {maxWorkers : ℤ} {s : SolverPool} {i : ℕ} {old : Solve}
    {attempt failed : ℕ} {failure : Failure} (constructed : Bool) (submission : Submission)
    (hold : old.phase = .recreating attempt failed failure) :
    ∃ new, Moves maxWorkers i old new s
      (s.recreate maxWorkers i old attempt failed failure constructed submission) := by
  have hin : old.phase.inAttempt = true := by
    rw [hold]
    rfl
  unfold SolverPool.recreate
  split
  · refine moves_recovered failure submission hin ?_
    rw [hold]
    rfl
  · rename_i hsame
    have hfailed : s.executor = some failed := not_not.1 hsame
    split
    · rename_i hmakes
      have hworkers : 0 < maxWorkers := of_decide_eq_true (Bool.and_eq_true_iff.1 hmakes).1
      refine ⟨{ old with phase := .shuttingDown attempt failure },
        moves_goOn (t := { s with
          executor := some s.created, created := s.created + 1, replaced := failed :: s.replaced })
          hin rfl ?_ rfl rfl rfl (Or.inr ⟨failed, hfailed, hworkers, rfl, rfl, rfl⟩)⟩
      rw [hold]
      rfl
    · exact moves_attemptOver_leave .raised hin

theorem stepSolve_moves (maxWorkers : ℤ) (s : SolverPool) (i : ℕ) (old : Solve) (e : CallEvent) :
    s.stepSolve maxWorkers i old e = s ∨
      ∃ new, Moves maxWorkers i old new s (s.stepSolve maxWorkers i old e) := by
  obtain ⟨phase, submitted⟩ := old
  have hkept : Rotates maxWorkers s s := Or.inl ⟨rfl, rfl, rfl⟩
  cases phase with
  | waiting =>
    cases e with
    | acquire submission =>
      simp only [SolverPool.stepSolve]
      split
      · rename_i hfree
        refine Or.inr (moves_tryAttempt submission rfl ?_ ?_ rfl rfl rfl ?_ (by decide))
        · show ((s.slots - 1 : ℕ) : ℤ) + 1 = s.slots + 0
          omega
        · show s.inflight = s.inflight - 0
          omega
        · intro h
          exact Nat.succ_le_succ h.1
      · exact Or.inl rfl
    | cancel =>
      refine Or.inr ⟨{ phase := .finished .cancelled, submitted := submitted }, ?_⟩
      exact ⟨rfl, rfl, rfl, fun h => ⟨h.1.trans h.2, le_refl 2⟩, fun h => Or.inl h, hkept⟩
    | _ => exact Or.inl rfl
  | awaiting attempt executor =>
    cases e with
    | answer reply =>
      refine Or.inr ?_
      cases reply with
      | returned => exact moves_attemptOver_leave .returned rfl
      | raised => exact moves_attemptOver_leave .raised rfl
      | broken => exact ⟨_, moves_goOn rfl rfl rfl rfl rfl rfl hkept⟩
      | timeout => exact ⟨_, moves_goOn rfl rfl rfl rfl rfl rfl hkept⟩
    | cancel => exact Or.inr (moves_attemptOver_leave .cancelled rfl)
    | _ => exact Or.inl rfl
  | recreating attempt executor failure =>
    cases e with
    | lock constructed submission => exact Or.inr (moves_recreate constructed submission rfl)
    | cancel => exact Or.inr (moves_attemptOver_leave .cancelled rfl)
    | _ => exact Or.inl rfl
  | shuttingDown attempt failure =>
    cases e with
    | shutDown submission => exact Or.inr (moves_recovered failure submission rfl rfl)
    | cancel => exact Or.inr (moves_attemptOver_leave .cancelled rfl)
    | _ => exact Or.inl rfl
  | finished outcome =>
    cases e with
    | _ => exact Or.inl rfl

/-! ### Every run keeps the accounts -/

def SolverPool.underWay (s : SolverPool) : ℤ := Tasks.total Solve.share s.solves

structure Sound (maxWorkers : ℤ) (s : SolverPool) : Prop where
  slots : (s.slots : ℤ) + s.underWay = max 1 maxWorkers
  inflight : s.inflight = s.underWay
  withinTwo : ∀ solve ∈ s.solves, solve.WithinTwo
  executor : ∀ e, s.executor = some e → 0 < maxWorkers ∧ e < s.created ∧ e ∉ s.replaced
  replaced : s.replaced.Nodup ∧ ∀ e ∈ s.replaced, e < s.created
  workers : ∀ solve ∈ s.solves, solve.share = 1 → 0 < maxWorkers

theorem sound_init (maxWorkers : ℤ) : Sound maxWorkers (.init maxWorkers) := by
  constructor
  · show (((max 1 maxWorkers).toNat : ℕ) : ℤ) + 0 = max 1 maxWorkers
    omega
  · rfl
  · simp [SolverPool.init]
  · simp [SolverPool.init]
  · simp [SolverPool.init]
  · simp [SolverPool.init]

theorem Rotates.executors {maxWorkers : ℤ} {s s' : SolverPool} (h : Rotates maxWorkers s s')
    (hs : Sound maxWorkers s) :
    (∀ e, s'.executor = some e → 0 < maxWorkers ∧ e < s'.created ∧ e ∉ s'.replaced) ∧
      s'.replaced.Nodup ∧ ∀ e ∈ s'.replaced, e < s'.created := by
  rcases h with ⟨hexecutor, hcreated, hreplaced⟩ |
    ⟨failed, hfailed, hworkers, hexecutor, hcreated, hreplaced⟩
  · rw [hexecutor, hcreated, hreplaced]
    exact ⟨hs.executor, hs.replaced⟩
  · obtain ⟨_, hlt, hnot⟩ := hs.executor failed hfailed
    have hbound : ∀ e ∈ failed :: s.replaced, e < s.created := by
      intro e he
      rcases List.mem_cons.1 he with rfl | hold
      · exact hlt
      · exact hs.replaced.2 e hold
    rw [hexecutor, hcreated, hreplaced]
    refine ⟨?_, List.nodup_cons.2 ⟨hnot, hs.replaced.1⟩, ?_⟩
    · intro e he
      obtain rfl : s.created = e := Option.some.inj he
      refine ⟨hworkers, Nat.lt_succ_self _, ?_⟩
      intro hmem
      exact lt_irrefl _ (hbound _ hmem)
    · intro e he
      exact (hbound e he).trans (Nat.lt_succ_self _)

theorem sound_moves {maxWorkers : ℤ} {s s' : SolverPool} {i : ℕ} {old new : Solve}
    (hi : s.solves[i]? = some old) (h : Moves maxWorkers i old new s s') (hs : Sound maxWorkers s) :
    Sound maxWorkers s' := by
  have hold : old ∈ s.solves := List.mem_of_getElem? hi
  have htotal : s'.underWay + old.share = s.underWay + new.share := by
    show Tasks.total Solve.share s'.solves + old.share = _
    rw [h.solves]
    exact Tasks.total_set Solve.share hi new
  obtain ⟨hexecutor, hreplaced⟩ := h.rotates.executors hs
  have hslots := h.slots
  have hinflight := h.inflight
  have hbefore := hs.slots
  have hgauge := hs.inflight
  constructor
  · omega
  · omega
  · rw [h.solves]
    exact Tasks.forall_set hs.withinTwo (h.withinTwo (hs.withinTwo old hold))
  · exact hexecutor
  · exact hreplaced
  · rw [h.solves]
    refine Tasks.forall_set hs.workers ?_
    intro hshare
    rcases h.executor hshare with hshareOld | hsome
    · exact hs.workers old hold hshareOld
    · obtain ⟨e, he⟩ := Option.isSome_iff_exists.1 hsome
      exact (hs.executor e he).1

theorem sound_step (maxWorkers : ℤ) (s : SolverPool) (e : Event) (hs : Sound maxWorkers s) :
    Sound maxWorkers (step maxWorkers s e) := by
  cases e with
  | start constructed =>
    simp only [step]
    split
    · rename_i hstart
      obtain ⟨_, hmakes⟩ := Bool.and_eq_true_iff.1 hstart
      have hworkers : 0 < maxWorkers := of_decide_eq_true (Bool.and_eq_true_iff.1 hmakes).1
      refine ⟨hs.slots, hs.inflight, hs.withinTwo, ?_, ⟨hs.replaced.1, ?_⟩, hs.workers⟩
      · intro e he
        obtain rfl : s.created = e := Option.some.inj he
        exact ⟨hworkers, Nat.lt_succ_self _, fun hmem => lt_irrefl _ (hs.replaced.2 _ hmem)⟩
      · intro e he
        exact (hs.replaced.2 e he).trans (Nat.lt_succ_self _)
    · exact hs
  | stop =>
    refine ⟨hs.slots, hs.inflight, hs.withinTwo, ?_, hs.replaced, hs.workers⟩
    intro e he
    cases he
  | solve =>
    have htotal : (step maxWorkers s .solve).underWay = s.underWay := by
      show Tasks.total Solve.share (s.solves ++ [({} : Solve)]) = _
      rw [Tasks.total_concat]
      exact add_zero _
    refine ⟨?_, ?_, ?_, hs.executor, hs.replaced, ?_⟩
    · rw [htotal]
      exact hs.slots
    · rw [htotal]
      exact hs.inflight
    · exact Tasks.forall_concat hs.withinTwo ⟨le_refl 0, by decide⟩
    · exact Tasks.forall_concat hs.workers (fun h => by cases h)
  | call i e =>
    simp only [step]
    split
    · rename_i solve hi
      rcases stepSolve_moves maxWorkers s i solve e with hsame | ⟨new, hmoves⟩
      · rw [hsame]
        exact hs
      · exact sound_moves hi hmoves hs
    · exact hs

/-! ### The pool over whole runs -/

/-- The submitted attempts whose futures are not done. -/
def SolverPool.awaiting (s : SolverPool) : ℤ :=
  Tasks.total (fun solve => if solve.phase.isAwaiting then 1 else 0) s.solves

/-- The failed attempts whose executors are being replaced. -/
def SolverPool.recovering (s : SolverPool) : ℤ :=
  Tasks.total (fun solve => if solve.phase.isRecovering then 1 else 0) s.solves

theorem share_eq_add (solve : Solve) :
    solve.share = (if solve.phase.isAwaiting then 1 else 0) + (if solve.phase.isRecovering then 1 else 0) := by
  obtain ⟨phase, submitted⟩ := solve
  cases phase with
  | _ => rfl

theorem underWay_eq_add (s : SolverPool) : s.underWay = s.awaiting + s.recovering := by
  rw [SolverPool.awaiting, SolverPool.recovering, ← Tasks.total_add, SolverPool.underWay]
  congr 1
  funext solve
  exact share_eq_add solve

theorem recovering_nonneg (s : SolverPool) : 0 ≤ s.recovering := by
  refine Tasks.total_nonneg ?_
  intro solve _
  split <;> decide

theorem awaiting_le {maxWorkers : ℤ} {s : SolverPool} (hs : Sound maxWorkers s) :
    s.awaiting ≤ max 0 maxWorkers := by
  have hadd := underWay_eq_add s
  have hrecovering := recovering_nonneg s
  have hslots := hs.slots
  by_cases hworkers : 0 < maxWorkers
  · omega
  · have hzero : s.underWay = 0 := by
      refine Tasks.total_eq_zero ?_
      intro solve hsolve
      unfold Solve.share
      split
      · rename_i hin
        exact absurd (hs.workers solve hsolve (share_of_inAttempt hin)) hworkers
      · rfl
    omega

theorem sound_run (maxWorkers : ℤ) (events : List Event) :
    Sound maxWorkers (Run.run (step maxWorkers) (.init maxWorkers) events) :=
  Run.run_invariant (step maxWorkers) (Sound maxWorkers) events
    (fun s e _ hs => sound_step maxWorkers s e hs) _ (sound_init maxWorkers)

/-- Without an executor only `start` constructs one: a rotation finds the one that failed gone. -/
theorem stopped_step {maxWorkers : ℤ} {s : SolverPool} {e : Event} (hstart : ∀ c, e ≠ .start c)
    (h : s.executor = none) :
    (step maxWorkers s e).executor = none ∧ (step maxWorkers s e).created = s.created := by
  cases e with
  | start c => exact absurd rfl (hstart c)
  | stop => exact ⟨rfl, rfl⟩
  | solve => exact ⟨h, rfl⟩
  | call i e =>
    simp only [step]
    split
    · rename_i solve hi
      rcases stepSolve_moves maxWorkers s i solve e with hsame | ⟨new, hmoves⟩
      · rw [hsame]
        exact ⟨h, rfl⟩
      · rcases hmoves.rotates with ⟨hexecutor, hcreated, _⟩ | ⟨failed, hfailed, _⟩
        · exact ⟨hexecutor.trans h, hcreated⟩
        · rw [h] at hfailed
          cases hfailed
    · exact ⟨h, rfl⟩

theorem stopped_run (maxWorkers : ℤ) (s : SolverPool) (later : List Event)
    (hstart : ∀ c, Event.start c ∉ later) (h : s.executor = none) :
    (Run.run (step maxWorkers) s later).created = s.created := by
  have hinv := Run.run_invariant (step maxWorkers)
    (fun t => t.executor = none ∧ t.created = s.created) later ?_ s ⟨h, rfl⟩
  · exact hinv.2
  · intro t e he ht
    have hne : ∀ c, e ≠ .start c := by
      intro c hc
      exact hstart c (hc ▸ he)
    obtain ⟨hexecutor, hcreated⟩ := @stopped_step maxWorkers t e hne ht.1
    exact ⟨hexecutor, hcreated.trans ht.2⟩

/-- **The solver pool**, in every state of every run: no executor has been replaced twice, no solve has
submitted more than two attempts, at most `max_workers` solves are in their timed section, nothing
constructs an executor between a `stop` and the next `start`, and the gauge counts the attempts under way:
those whose future is awaited and those whose executor is being replaced. -/
theorem solverPool_accounts (maxWorkers : ℤ) (events : List Event) :
    let s := Run.run (step maxWorkers) (.init maxWorkers) events
    s.replaced.Nodup ∧ (∀ solve ∈ s.solves, solve.submitted ≤ 2) ∧ s.awaiting ≤ max 0 maxWorkers ∧
      (∀ later, (∀ c, Event.start c ∉ later) →
        (Run.run (step maxWorkers) (step maxWorkers s .stop) later).created = s.created) ∧
      s.inflight = s.awaiting + s.recovering := by
  intro s
  have hs : Sound maxWorkers s := sound_run maxWorkers events
  refine ⟨hs.replaced.1, ?_, awaiting_le hs, ?_, ?_⟩
  · intro solve hsolve
    exact (hs.withinTwo solve hsolve).1.trans (hs.withinTwo solve hsolve).2
  · intro later hlater
    exact stopped_run maxWorkers (step maxWorkers s .stop) later hlater rfl
  · rw [← underWay_eq_add]
    exact hs.inflight

/-- The worker of an idle pool has crashed.  The next submission raises, the executor is replaced and the
old one is being shut down: the gauge counts an attempt, and none has ever been submitted. -/
theorem gauge_counts_recovery :
    ¬ ∀ (maxWorkers : ℤ) (events : List Event),
      (Run.run (step maxWorkers) (.init maxWorkers) events).inflight =
        (Run.run (step maxWorkers) (.init maxWorkers) events).awaiting := by
  intro h
  have hgauge := h 2 [.start true, .solve, .call 0 (.acquire .broken), .call 0 (.lock true .accepted)]
  revert hgauge
  decide

end FavoniusBackend.Optimizer.Pool
