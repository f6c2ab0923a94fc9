import FavoniusBackend.Lib.Run
import FavoniusBackend.Security.RateLimiter

/-!
# Runs of rate limiters that share a table

Every instance has its buckets and one background task, which awaits the database between two statements of a flush, a
merge or a cold start.  Requests are checked at any time; statements are atomic, and take effect at the time of the
database, which is the time of all instances.

What an instance can do to its buckets and its task is said once (`times_act`, `task_act`), and so is what a step can do
to an instance and to the table (`limiters_step`, `table_step`).
-/

namespace FavoniusBackend.Security.RateLimiter

open Lib

/-! ## The table -/

/-- The columns of a row besides its key. -/
structure StateCount where
  requestCount : ℕ
  lastUpdated : ℚ
  deriving DecidableEq, Repr

/-- `rate_limit_state`. -/
abbrev Table := Dict (BucketType × List Char × ℚ) StateCount

namespace Table

/-- `INSERT .. ON CONFLICT DO UPDATE` with the greatest of the counts. -/
def upsert (now : ℚ) (table : Table) (row : FlushRow) : Table :=
  table.set row.key
    { requestCount :=
        match table.get? row.key with
        | some old => max old.requestCount row.requestCount
        | none => row.requestCount
      lastUpdated := now }

def recent (table : Table) (now : ℚ) : List StateRow :=
  (table.items.filter fun e => decide (now - 120 < e.2.lastUpdated)).map fun e =>
    ⟨e.1.1, e.1.2.1, e.1.2.2, e.2.requestCount⟩

/-- `DELETE` of the rows that are older than five minutes. -/
def deleteExpired (table : Table) (now : ℚ) : Table :=
  table.filter fun _ c => decide (¬c.lastUpdated < now - 300)

theorem mem_recent {table : Table} {now : ℚ} {row : StateRow} :
    row ∈ table.recent now ↔ ∃ k c, table.get? k = some c ∧ now - 120 < c.lastUpdated ∧
      row = ⟨k.1, k.2.1, k.2.2, c.requestCount⟩ := by
  simp only [recent, List.mem_map, List.mem_filter, decide_eq_true_eq, Prod.exists, ← Dict.mem_items_iff]
  constructor
  · rintro ⟨type, bucketKey, windowStart, c, ⟨hmem, hrecent⟩, rfl⟩
    exact ⟨type, bucketKey, windowStart, c, hmem, hrecent, rfl⟩
  · rintro ⟨type, bucketKey, windowStart, c, hmem, hrecent, rfl⟩
    exact ⟨type, bucketKey, windowStart, c, ⟨hmem, hrecent⟩, rfl⟩

theorem get?_deleteExpired {table : Table} {now : ℚ} {k : BucketType × List Char × ℚ} {c : StateCount} :
    (table.deleteExpired now).get? k = some c ↔ table.get? k = some c ∧ now - 300 ≤ c.lastUpdated := by
  rw [deleteExpired, Dict.get?_filter, Option.filter_eq_some_iff]
  simp

theorem get?_upsert {now : ℚ} {table : Table} {row : FlushRow} {k : BucketType × List Char × ℚ} {c : StateCount}
    (h : (table.upsert now row).get? k = some c) :
    table.get? k = some c ∧ row.key ≠ k ∨
      row.key = k ∧ c.lastUpdated = now ∧ row.requestCount ≤ c.requestCount ∧
        (c.requestCount = row.requestCount ∨ ∃ old, table.get? k = some old ∧ c.requestCount = old.requestCount) := by
  rw [upsert, Dict.get?_set] at h
  split at h
  · rename_i hk
    obtain rfl := Option.some.inj h
    subst hk
    refine .inr ⟨rfl, rfl, ?_⟩
    cases hold : table.get? row.key with
    | none => exact ⟨le_rfl, .inl rfl⟩
    | some old =>
      refine ⟨le_max_right _ _, ?_⟩
      rcases max_choice old.requestCount row.requestCount with hmax | hmax
      · exact .inr ⟨old, rfl, hmax⟩
      · exact .inl hmax
  · rename_i hk
    exact .inl ⟨h, Ne.symm hk⟩

theorem get?_foldl_upsert {now : ℚ} {rows : List FlushRow} {table : Table} {k : BucketType × List Char × ℚ}
    {c : StateCount} (h : (rows.foldl (upsert now) table).get? k = some c) :
    table.get? k = some c ∨
      c.lastUpdated = now ∧ (∃ row ∈ rows, row.key = k) ∧
        ((∃ row ∈ rows, row.key = k ∧ c.requestCount = row.requestCount) ∨
          ∃ old, table.get? k = some old ∧ c.requestCount = old.requestCount) := by
  induction rows generalizing table with
  | nil => exact .inl h
  | cons row rows ih =>
    rw [List.foldl_cons] at h
    have htail : ∀ {P : FlushRow → Prop}, (∃ row' ∈ rows, P row') → ∃ row' ∈ row :: rows, P row' := by
      rintro P ⟨row', hmem, hP⟩
      exact ⟨row', List.mem_cons_of_mem _ hmem, hP⟩
    rcases ih h with hget | ⟨hlast, hkey, hcount⟩
    · rcases get?_upsert hget with ⟨hold, -⟩ | ⟨hk, hlast, -, hcount⟩
      · exact .inl hold
      · refine .inr ⟨hlast, ⟨row, List.mem_cons_self, hk⟩, hcount.imp_left fun hcount => ?_⟩
        exact ⟨row, List.mem_cons_self, hk, hcount⟩
    · refine .inr ⟨hlast, htail hkey, ?_⟩
      rcases hcount with hcount | ⟨old, hold, hcount⟩
      · exact .inl (htail hcount)
      · rcases get?_upsert hold with ⟨hold, -⟩ | ⟨hk, -, -, hrow | ⟨old', hold', hrow⟩⟩
        · exact .inr ⟨old, hold, hcount⟩
        · exact .inl ⟨row, List.mem_cons_self, hk, hcount.trans hrow⟩
        · exact .inr ⟨old', hold', hcount.trans hrow⟩

end Table

/-! ## An instance -/

/-- Where the background task is: before the cold start, between two rounds, or in one of them, at a statement (its
time, or its rows) or behind it. -/
inductive Task
  | starting
  | hydrating (now : ℚ)
  | hydrated (now : ℚ) (rows : List StateRow)
  | idle
  | flushing (rows : List FlushRow)
  | flushed
  | merging (now : ℚ)
  | merged (now : ℚ) (rows : List StateRow)
  deriving DecidableEq

namespace Task

/-- When a merge or a cold start began. -/
def since : Task → Option ℚ
  | hydrating now => some now
  | hydrated now _ => some now
  | merging now => some now
  | merged now _ => some now
  | _ => none

def reads : Task → List StateRow
  | hydrated _ rows => rows
  | merged _ rows => rows
  | _ => []

def cold : Task → Bool
  | starting => true
  | hydrating _ => true
  | hydrated _ _ => true
  | _ => false

def merge : Task → Option (ℚ × List StateRow)
  | merged now rows => some (now, rows)
  | _ => none

def writes : Task → List FlushRow
  | flushing rows => rows
  | _ => []

theorem reads_of_since {task : Task} (h : task.since = none) : task.reads = [] := by
  cases task <;> first | rfl | cases h

end Task

structure Limiter where
  memory : Memory := {}
  task : Task := .starting

/-- What an instance does next; a statement that reads gets its rows in some order. -/
inductive Act
  | hydrateStart
  | hydrateFetch (rows : List StateRow)
  | hydrateDone
  | flushStart
  | flushWrite
  | flushDone
  | mergeStart
  | mergeFetch (rows : List StateRow)
  | mergeDone
  | fail
  | restart

namespace Limiter

/-- The instance after it has acted at `now`, with the table as it was.  A statement that fails leaves the marks as
they are and ends the round; an instance that restarts has lost its memory. -/
def act (now : ℚ) (table : Table) (l : Limiter) : Act → Limiter
  | .hydrateStart =>
    match l.task with
    | .starting => { l with task := .hydrating now }
    | _ => l
  | .hydrateFetch rows =>
    match l.task with
    | .hydrating before => if rows.Perm (table.recent now) then { l with task := .hydrated before rows } else l
    | _ => l
  | .hydrateDone =>
    match l.task with
    | .hydrated before rows => { memory := rows.foldl (Memory.hydrateRow before) l.memory, task := .idle }
    | _ => l
  | .flushStart =>
    match l.task with
    | .idle =>
      if l.memory.collectFlushRows now = [] then { l with memory := { l.memory with dirtyKeys := ∅ } }
      else { l with task := .flushing (l.memory.collectFlushRows now) }
    | _ => l
  | .flushWrite =>
    match l.task with
    | .flushing _ => { l with task := .flushed }
    | _ => l
  | .flushDone =>
    match l.task with
    | .flushed => { memory := { l.memory with dirtyKeys := ∅ }, task := .idle }
    | _ => l
  | .mergeStart =>
    match l.task with
    | .idle => { l with task := .merging now }
    | _ => l
  | .mergeFetch rows =>
    match l.task with
    | .merging before => if rows.Perm (table.recent now) then { l with task := .merged before rows } else l
    | _ => l
  | .mergeDone =>
    match l.task with
    | .merged before rows => { memory := rows.foldl (Memory.mergeRow before now) l.memory, task := .idle }
    | _ => l
  | .fail =>
    match l.task with
    | .starting => l
    | _ => { l with task := .idle }
  | .restart => {}

def write (now : ℚ) (table : Table) (l : Limiter) : Act → Table
  | .flushWrite =>
    match l.task with
    | .flushing rows => rows.foldl (Table.upsert now) table
    | _ => table
  | _ => table

/-! ### What an instance can do -/

section Act

variable (now : ℚ) (table : Table) (l : Limiter) (a : Act)

theorem times_act (b : Bucket) :
    (l.act now table a).memory.times b = l.memory.times b ∨ (l.act now table a).memory.times b = [] ∨
      ∃ before, l.task.since = some before ∧ ∃ row ∈ l.task.reads, row.mark = b.mark ∧
        (l.act now table a).memory.times b =
          Memory.generateSyntheticTimestamps row.requestCount b.windowSeconds before := by
  cases a with
  | restart => exact .inr (.inl rfl)
  | hydrateDone =>
    unfold act
    dsimp only
    split
    · rename_i before rows htask
      rcases Memory.times_foldl (Memory.times_hydrateRow before · · b) rows l.memory with h | h
      · exact .inl h
      · exact .inr (.inr ⟨before, by rw [htask]; rfl, by rw [htask]; exact h⟩)
    · exact .inl rfl
  | mergeDone =>
    unfold act
    dsimp only
    split
    · rename_i before rows htask
      rcases Memory.times_foldl (Memory.times_mergeRow before now · · b) rows l.memory with h | h
      · exact .inl h
      · exact .inr (.inr ⟨before, by rw [htask]; rfl, by rw [htask]; exact h⟩)
    · exact .inl rfl
  | _ =>
    refine .inl ?_
    unfold act
    dsimp only
    split <;> first | rfl | (split <;> rfl)

theorem task_act :
    (l.act now table a).task = l.task ∨
      ((l.act now table a).task.since = none ∧ (l.act now table a).task.writes = []) ∨
      ((l.act now table a).task.since = some now ∧ (l.act now table a).task.reads = [] ∧
        (l.act now table a).task.writes = []) ∨
      ((l.act now table a).task.since = l.task.since ∧ (l.act now table a).task.reads ⊆ table.recent now ∧
        (l.act now table a).task.writes = []) ∨
      (l.act now table a).task = .flushing (l.memory.collectFlushRows now) := by
  cases a with
  | restart => exact .inr (.inl ⟨rfl, rfl⟩)
  | hydrateStart =>
    unfold act
    dsimp only
    split
    · exact .inr (.inr (.inl ⟨rfl, rfl, rfl⟩))
    · exact .inl rfl
  | mergeStart =>
    unfold act
    dsimp only
    split
    · exact .inr (.inr (.inl ⟨rfl, rfl, rfl⟩))
    · exact .inl rfl
  | hydrateFetch rows =>
    unfold act
    dsimp only
    split
    · rename_i before htask
      split
      · rename_i hperm
        exact .inr (.inr (.inr (.inl ⟨by rw [htask]; rfl, hperm.subset, rfl⟩)))
      · exact .inl rfl
    · exact .inl rfl
  | mergeFetch rows =>
    unfold act
    dsimp only
    split
    · rename_i before htask
      split
      · rename_i hperm
        exact .inr (.inr (.inr (.inl ⟨by rw [htask]; rfl, hperm.subset, rfl⟩)))
      · exact .inl rfl
    · exact .inl rfl
  | flushStart =>
    unfold act
    dsimp only
    split
    · split
      · exact .inl rfl
      · exact .inr (.inr (.inr (.inr rfl)))
    · exact .inl rfl
  | _ =>
    unfold act
    dsimp only
    split
    · first | exact .inl rfl | exact .inr (.inl ⟨rfl, rfl⟩)
    · first | exact .inl rfl | exact .inr (.inl ⟨rfl, rfl⟩)

theorem writes_act {row : FlushRow} (h : row ∈ (l.act now table a).task.writes) :
    row ∈ l.task.writes ∨ row ∈ l.memory.collectFlushRows now := by
  rcases task_act now table l a with htask | ⟨-, htask⟩ | ⟨-, -, htask⟩ | ⟨-, -, htask⟩ | htask
  · rw [htask] at h
    exact .inl h
  · simp [htask] at h
  · simp [htask] at h
  · simp [htask] at h
  · rw [htask] at h
    exact .inr h

theorem since_act {before : ℚ} (h : (l.act now table a).task.since = some before) :
    l.task.since = some before ∨ before = now := by
  rcases task_act now table l a with htask | ⟨htask, -⟩ | ⟨htask, -, -⟩ | ⟨htask, -, -⟩ | htask
  · rw [htask] at h
    exact .inl h
  · rw [htask] at h
    cases h
  · rw [htask] at h
    exact .inr (Option.some.inj h).symm
  · rw [htask] at h
    exact .inl h
  · rw [htask] at h
    cases h

theorem reads_act {row : StateRow} (h : row ∈ (l.act now table a).task.reads) :
    (l.act now table a).task.since = l.task.since ∧ (row ∈ l.task.reads ∨ row ∈ table.recent now) := by
  rcases task_act now table l a with htask | ⟨htask, -⟩ | ⟨-, htask, -⟩ | ⟨hsince, htask, -⟩ | htask
  · rw [htask] at h
    exact ⟨by rw [htask], .inl h⟩
  · rw [Task.reads_of_since htask] at h
    cases h
  · rw [htask] at h
    cases h
  · exact ⟨hsince, .inr (htask h)⟩
  · rw [htask] at h
    cases h

/-- An entry of the table stays, or is written now: under the key of a row, with the count of that row or of the entry
that was there. -/
theorem get?_write {k : BucketType × List Char × ℚ} {c : StateCount} (h : (l.write now table a).get? k = some c) :
    table.get? k = some c ∨
      c.lastUpdated = now ∧ (∃ row ∈ l.task.writes, row.key = k) ∧
        ((∃ row ∈ l.task.writes, row.key = k ∧ c.requestCount = row.requestCount) ∨
          ∃ old, table.get? k = some old ∧ c.requestCount = old.requestCount) := by
  cases a with
  | flushWrite =>
    unfold write at h
    dsimp only at h
    split at h
    · rename_i rows htask
      rw [htask]
      exact Table.get?_foldl_upsert h
    · exact .inl h
  | _ => exact .inl h

end Act

end Limiter

/-! ## Runs -/

/-- A request, as the middleware and the endpoints check it. -/
inductive Request
  | api (clientId : List Char)
  | adminWrite (clientId : List Char)
  | optimize (clientId : List Char)
  | agent (clientId : List Char)
  | handoff (originDepotId destDepotId : List Char)
  deriving DecidableEq, Repr

namespace Request

def check (config : RateLimitConfig) (m : Memory) (now : ℚ) : Request → RateLimitResult × Memory
  | api clientId => m.checkApiLimit config clientId now
  | adminWrite clientId => m.checkAdminWriteLimit config clientId now
  | optimize clientId => m.checkOptimizeLimit config clientId now
  | agent clientId => m.checkAgentLimit config clientId now
  | handoff originDepotId destDepotId => m.checkHandoffLimit config originDepotId destDepotId now

def bucket : Request → Bucket
  | api clientId => .api clientId
  | adminWrite clientId => .adminWrite clientId
  | optimize clientId => .optimize clientId
  | agent clientId => .agent clientId
  | handoff originDepotId destDepotId => .handoff (Memory.depotPair originDepotId destDepotId)

theorem check_eq (config : RateLimitConfig) (m : Memory) (now : ℚ) (request : Request) :
    request.check config m now = m.checkLimit config request.bucket now := by
  cases request <;> rfl

end Request

/-- A request that was admitted. -/
structure Grant (ι : Type) where
  holder : ι
  bucket : Bucket
  time : ℚ
  deriving DecidableEq

/-- The instances, the table and the time, with the requests that were admitted so far, the last one first. -/
structure World (ι : Type) where
  clock : ℚ
  table : Table := Dict.empty
  limiters : ι → Limiter := fun _ => {}
  granted : List (Grant ι) := []

inductive Op (ι : Type)
  | advance (dt : NNRat)
  | check (i : ι) (request : Request)
  | act (i : ι) (a : Act)
  | cleanup

namespace World

variable {ι : Type} [DecidableEq ι]

def answer (config : RateLimitConfig) (w : World ι) (i : ι) (request : Request) : RateLimitResult :=
  (request.check config (w.limiters i).memory w.clock).1

def setLimiter (w : World ι) (i : ι) (l : Limiter) : World ι := { w with limiters := Function.update w.limiters i l }

def step (config : RateLimitConfig) (w : World ι) : Op ι → World ι
  | .advance dt => { w with clock := w.clock + dt }
  | .check i request =>
    let l := { w.limiters i with memory := (request.check config (w.limiters i).memory w.clock).2 }
    if (w.answer config i request).allowed then
      { w.setLimiter i l with granted := ⟨i, request.bucket, w.clock⟩ :: w.granted }
    else w.setLimiter i l
  | .act i a =>
    { w.setLimiter i ((w.limiters i).act w.clock w.table a) with table := (w.limiters i).write w.clock w.table a }
  | .cleanup => { w with table := w.table.deleteExpired w.clock }

/-- The admitted requests that count towards the rows of one type and key. -/
def grantedUnder (w : World ι) (mark : BucketType × List Char) : List (Grant ι) :=
  w.granted.filter fun g => decide (g.bucket.mark = mark)

/-! ### What a step can do -/

section Step

variable (config : RateLimitConfig) (w : World ι)

theorem step_check (i : ι) (request : Request) :
    w.step config (.check i request) =
      { w.setLimiter i
          { w.limiters i with memory := ((w.limiters i).memory.checkLimit config request.bucket w.clock).2 } with
        granted :=
          if (w.answer config i request).allowed then ⟨i, request.bucket, w.clock⟩ :: w.granted else w.granted } := by
  rw [step, Request.check_eq]
  dsimp only
  split <;> rfl

omit [DecidableEq ι] in
theorem answer_allowed_eq_false {w : World ι} {i : ι} {request : Request} :
    (w.answer config i request).allowed = false ↔
      request.bucket.limit config ≤ ((w.limiters i).memory.live request.bucket w.clock).length := by
  rw [answer, Request.check_eq]
  exact Memory.checkLimit_allowed_eq_false

theorem clock_le_step (op : Op ι) : w.clock ≤ (w.step config op).clock := by
  cases op with
  | advance dt =>
    have hdt : (0 : ℚ) ≤ dt := dt.2
    show w.clock ≤ w.clock + dt
    linarith
  | check i request => rw [step_check]; exact le_rfl
  | act i a => exact le_rfl
  | cleanup => exact le_rfl

theorem limiters_step (op : Op ι) (j : ι) :
    (w.step config op).limiters j = w.limiters j ∨
      (∃ request, op = .check j request ∧ (w.step config op).limiters j =
        { w.limiters j with memory := ((w.limiters j).memory.checkLimit config request.bucket w.clock).2 }) ∨
      ∃ a, op = .act j a ∧ (w.step config op).limiters j = (w.limiters j).act w.clock w.table a := by
  cases op with
  | advance dt => exact .inl rfl
  | cleanup => exact .inl rfl
  | check i request =>
    rw [step_check]
    by_cases hji : j = i
    · subst hji
      exact .inr (.inl ⟨request, rfl, Function.update_self ..⟩)
    · exact .inl (Function.update_of_ne hji ..)
  | act i a =>
    by_cases hji : j = i
    · subst hji
      exact .inr (.inr ⟨a, rfl, Function.update_self ..⟩)
    · exact .inl (Function.update_of_ne hji ..)

theorem table_step {op : Op ι} {k : BucketType × List Char × ℚ} {c : StateCount}
    (h : (w.step config op).table.get? k = some c) :
    w.table.get? k = some c ∨
      c.lastUpdated = w.clock ∧ ∃ i, (∃ row ∈ (w.limiters i).task.writes, row.key = k) ∧
        ((∃ row ∈ (w.limiters i).task.writes, row.key = k ∧ c.requestCount = row.requestCount) ∨
          ∃ old, w.table.get? k = some old ∧ c.requestCount = old.requestCount) := by
  cases op with
  | advance dt => exact .inl h
  | cleanup => exact .inl (Table.get?_deleteExpired.mp h).1
  | check i request =>
    rw [step_check] at h
    exact .inl h
  | act i a =>
    rcases Limiter.get?_write w.clock w.table (w.limiters i) a h with hold | ⟨hlast, hkey, hcount⟩
    · exact .inl hold
    · exact .inr ⟨hlast, i, hkey, hcount⟩

theorem granted_step (op : Op ι) :
    (w.step config op).granted = w.granted ∨
      ∃ i request, op = .check i request ∧ (w.answer config i request).allowed = true ∧
        (w.step config op).granted = ⟨i, request.bucket, w.clock⟩ :: w.granted := by
  cases op with
  | check i request =>
    rw [step_check]
    dsimp only
    split
    · rename_i hallowed
      exact .inr ⟨i, request, rfl, hallowed, rfl⟩
    · exact .inl rfl
  | _ => exact .inl rfl

end Step

end World

end FavoniusBackend.Security.RateLimiter
