import Mathlib.Algebra.Order.Group.Int
import Mathlib.Algebra.Order.Group.Nat
import Mathlib.Algebra.Group.Prod
import FavoniusBackend.Lib.Dict
import FavoniusBackend.Lib.Run
import FavoniusBackend.Lib.Tasks

/-!
# The token budget

`TokenBudgetTracker` counts the tokens of every organization and period in the process: what has been
committed, what is reserved for turns under way, and what has not been written to `agent_token_usage` yet.
Turns reserve and record, flushes write the deltas in the background, and a loop reconciles: it flushes,
drops the settled counters of past periods and reads the committed totals back.

All of them are coroutines that interleave at their awaits.  A statement of the database takes effect at
once, but the coroutine that waits for it goes on later: between the two other coroutines run.  A flush
therefore commits at one step, and a row is read at one step and used at another.
-/

namespace FavoniusBackend.Agent.Budget

open Lib

/-- An organization and a period `'YYYYMM'`. -/
structure Key where
  organization : String
  period : String
  deriving DecidableEq, Repr

abbrev Tokens := ℕ × ℕ

/-- `_PeriodCounter`. -/
structure Counter where
  committed : Tokens := 0
  reserved : ℤ := 0
  unflushed : Tokens := 0
  deriving DecidableEq, Repr

def Counter.total (c : Counter) : ℤ := c.committed.1 + c.committed.2 + c.reserved

def Counter.settle (est : ℕ) (actual : Tokens) (c : Counter) : Counter where
  committed := c.committed + actual
  reserved := max 0 (c.reserved - est)
  unflushed := c.unflushed + actual

def perTurnOverheadTokens : ℕ := 4096

def estimateTurnTokens (promptLength : ℕ) : ℕ := promptLength / 4 + perTurnOverheadTokens

/-! ### The coroutines -/

/-- What `check_and_reserve` is waiting for: the hydration lock, the row of its key (`readRow` once it has
been read), the ceiling. -/
inductive TurnPhase
  | waitingLock
  | reading
  | readRow (row : Option Tokens)
  | deciding
  | finished
  deriving DecidableEq, Repr

structure Turn where
  key : Key
  est : ℕ
  phase : TurnPhase
  deriving DecidableEq, Repr

def TurnPhase.holdsLock : TurnPhase → Bool
  | .reading | .readRow _ => true
  | _ => false

structure Reservation where
  key : Key
  est : ℕ
  deriving DecidableEq, Repr

/-- What a flush or a reconciliation is waiting for.  A reconciliation goes on behind its flush
(`flushed`), and then from key to key. -/
inductive Work
  | writing (pending : List (Key × Tokens)) (reconciles : Bool)
  | flushed
  | reading (key : Key) (rest : List Key)
  | readRow (key : Key) (row : Option Tokens) (rest : List Key)
  | finished
  deriving DecidableEq, Repr

/-- The tracker with its coroutines and the table `agent_token_usage`; and, key by key, what has been
recorded so far, the base that was read at the hydration and what was recorded since. -/
structure Tracker where
  counters : Dict Key Counter := .empty
  hydrated : List Key := []
  turns : List Turn := []
  works : List Work := []
  reservations : List Reservation := []
  table : Key → Option Tokens
  recorded : Key → Tokens := fun _ => 0
  base : Key → Tokens := fun _ => 0
  since : Key → Tokens := fun _ => 0

def Tracker.init (table : Key → Option Tokens) : Tracker := { table := table }

/-! ### The counters -/

/-- `self._counters.setdefault(key, _PeriodCounter())`, and a change of it. -/
def Tracker.withCounter (s : Tracker) (key : Key) (f : Counter → Counter) : Tracker :=
  { s with counters := s.counters.set key (f (s.counters.getD key {})) }

def Tracker.onCounter (s : Tracker) (key : Key) (f : Counter → Counter) : Tracker :=
  match s.counters.get? key with
  | some c => { s with counters := s.counters.set key (f c) }
  | none => s

def post (f : Key → Tokens) (key : Key) (amount : Tokens) : Key → Tokens :=
  fun k => if k = key then f k + amount else f k

/-! ### Turns -/

def Tracker.setTurn (s : Tracker) (i : ℕ) (turn : Turn) (phase : TurnPhase) : Tracker :=
  { s with turns := s.turns.set i { turn with phase := phase } }

/-- The estimate is reserved before the ceiling is looked up. -/
def Tracker.pin (s : Tracker) (i : ℕ) (turn : Turn) : Tracker :=
  (s.withCounter turn.key fun c => { c with reserved := c.reserved + turn.est }).setTurn i turn .deciding

/-- The key is hydrated: its base is what has been read, and the counting begins. -/
def Tracker.beginBase (s : Tracker) (key : Key) (base : Tokens) : Tracker :=
  { s with
    base := fun k => if k = key then base else s.base k
    since := fun k => if k = key then 0 else s.since k }

/-- What happens to a turn: it gets the lock, its row is read (or the query fails), it goes on with the row,
the ceiling is known (or its lookup raises), its caller is cancelled. -/
inductive TurnEvent
  | lock
  | read
  | readFails
  | resume
  | ceiling (ceiling : ℤ)
  | raises
  | cancel
  deriving DecidableEq, Repr

/-- `check_and_reserve` from one await to the next. -/
def Tracker.stepTurn (s : Tracker) (i : ℕ) (turn : Turn) (e : TurnEvent) : Tracker :=
  match turn.phase, e with
  | .waitingLock, .lock =>
    if s.turns.any fun t => t.phase.holdsLock then s
    else if turn.key ∈ s.hydrated then s.pin i turn
    else (s.withCounter turn.key id).setTurn i turn .reading
  | .reading, .read =>
    (s.beginBase turn.key ((s.table turn.key).getD 0)).setTurn i turn (.readRow (s.table turn.key))
  | .reading, .readFails =>
    { s.beginBase turn.key 0 with hydrated := turn.key :: s.hydrated }.pin i turn
  | .readRow row, .resume =>
    let seeded :=
      match row with
      | some tokens => s.withCounter turn.key fun c => { c with committed := tokens }
      | none => s
    { seeded with hydrated := turn.key :: s.hydrated }.pin i turn
  | .deciding, .ceiling ceiling =>
    match s.counters.get? turn.key with
    | some c =>
      if ceiling < c.total then
        (s.onCounter turn.key fun c => { c with reserved := c.reserved - turn.est }).setTurn i turn .finished
      else
        { s.setTurn i turn .finished with
          reservations := s.reservations ++ [{ key := turn.key, est := turn.est }] }
    | none => s
  | .deciding, .raises | .deciding, .cancel =>
    (s.onCounter turn.key fun c => { c with reserved := max 0 (c.reserved - turn.est) }).setTurn i turn
      .finished
  | .waitingLock, .cancel | .reading, .cancel | .readRow _, .cancel => s.setTurn i turn .finished
  | _, _ => s

/-- `check_and_reserve` up to its first await. -/
def Tracker.startTurn (s : Tracker) (key : Key) (promptLength : ℕ) : Tracker :=
  let turn : Turn := { key := key, est := estimateTurnTokens promptLength, phase := .waitingLock }
  let started := { s with turns := s.turns ++ [turn] }
  if key ∈ s.hydrated then started.pin s.turns.length turn else started

def Tracker.recordActual (s : Tracker) (i : ℕ) (actual : Tokens) : Tracker :=
  match s.reservations[i]? with
  | some r =>
    { s.withCounter r.key (Counter.settle r.est actual) with
      reservations := s.reservations.eraseIdx i
      recorded := post s.recorded r.key actual
      since := post s.since r.key actual }
  | none => s

/-! ### Flushes and reconciliations -/

def Tracker.deltas (s : Tracker) : List (Key × Tokens) :=
  (s.counters.items.map fun p => (p.1, p.2.unflushed)).filter fun p => p.2 ≠ 0

/-- The deltas have been taken. -/
def Tracker.zeroed (s : Tracker) : Tracker :=
  { s with counters := s.counters.mapValues fun c => { c with unflushed := 0 } }

/-- What `_evict_settled_past_periods` keeps: the current period, keys that are being hydrated, and counters
with a reservation or a delta. -/
def Tracker.keeps (s : Tracker) (current : String) (key : Key) (c : Counter) : Bool :=
  decide (key.period = current ∨ key ∉ s.hydrated ∨ c.reserved ≠ 0 ∨ c.unflushed ≠ 0)

/-- `_evict_settled_past_periods`. -/
def Tracker.evict (s : Tracker) (current : String) : Tracker :=
  { s with
    counters := s.counters.filter (s.keeps current)
    hydrated := s.hydrated.filter fun key => (s.counters.get? key).all (s.keeps current key) }

def Tracker.sweep (s : Tracker) (keys : List Key) : Work :=
  match keys.dropWhile fun key => decide (key ∉ s.hydrated) with
  | [] => .finished
  | key :: rest => .reading key rest

/-- `reconcile` behind its flush, up to the next await. -/
def Tracker.afterFlush (s : Tracker) (current : String) : Tracker × Work :=
  (s.evict current, (s.evict current).sweep (s.evict current).counters.keys)

def Tracker.setWork (s : Tracker) (i : ℕ) (work : Work) : Tracker := { s with works := s.works.set i work }

/-- The deltas are written in one transaction. -/
def Tracker.commit (s : Tracker) (pending : List (Key × Tokens)) : Tracker :=
  { s with
    table := pending.foldl (fun t p k => if k = p.1 then some ((t k).getD 0 + p.2) else t k) s.table }

def Tracker.rollBack (s : Tracker) (pending : List (Key × Tokens)) : Tracker :=
  pending.foldl (fun t p => t.onCounter p.1 fun c => { c with unflushed := c.unflushed + p.2 }) s

/-- What happens to a flush or a reconciliation: its write commits or fails, it goes on behind its flush, a
row is read (or the query fails), it goes on with the row.  The current period is read where the settled
counters are dropped. -/
inductive WorkEvent
  | commit
  | fail (current : String)
  | resume (current : String)
  | read
  | readFails
  | assign
  deriving DecidableEq, Repr

/-- `flush` and `reconcile` from one await to the next. -/
def Tracker.stepWork (s : Tracker) (i : ℕ) (work : Work) (e : WorkEvent) : Tracker :=
  match work, e with
  | .writing pending reconciles, .commit =>
    (s.commit pending).setWork i (if reconciles then .flushed else .finished)
  | .writing pending reconciles, .fail current =>
    let back := s.rollBack pending
    if reconciles then (back.afterFlush current).1.setWork i (back.afterFlush current).2
    else back.setWork i .finished
  | .flushed, .resume current => (s.afterFlush current).1.setWork i (s.afterFlush current).2
  | .reading key rest, .read => s.setWork i (.readRow key (s.table key) rest)
  | .reading _ rest, .readFails => s.setWork i (s.sweep rest)
  | .readRow key row rest, .assign =>
    let assigned := s.onCounter key fun c => { c with committed := row.getD 0 + c.unflushed }
    assigned.setWork i (assigned.sweep rest)
  | _, _ => s

/-- `flush` up to its first await. -/
def Tracker.startFlush (s : Tracker) : Tracker :=
  if s.deltas = [] then s else { s.zeroed with works := s.works ++ [.writing s.deltas false] }

/-- `reconcile` up to its first await. -/
def Tracker.startReconcile (s : Tracker) (current : String) : Tracker :=
  if s.deltas = [] then
    { (s.afterFlush current).1 with works := s.works ++ [(s.afterFlush current).2] }
  else { s.zeroed with works := s.works ++ [.writing s.deltas true] }

/-! ### Runs of the tracker -/

inductive Event
  | turn (key : Key) (promptLength : ℕ)
  | turnEvent (i : ℕ) (e : TurnEvent)
  | record (i : ℕ) (actual : Tokens)
  | flush
  | reconcile (current : String)
  | workEvent (i : ℕ) (e : WorkEvent)
  deriving DecidableEq, Repr

def step (s : Tracker) : Event → Tracker
  | .turn key promptLength => s.startTurn key promptLength
  | .turnEvent i e =>
    match s.turns[i]? with
    | some turn => s.stepTurn i turn e
    | none => s
  | .record i actual => s.recordActual i actual
  | .flush => s.startFlush
  | .reconcile current => s.startReconcile current
  | .workEvent i e =>
    match s.works[i]? with
    | some work => s.stepWork i work e
    | none => s

end FavoniusBackend.Agent.Budget
