import Mathlib.Data.String.Basic
import FavoniusBackend.Lib.Dict
import FavoniusBackend.Lib.Sql
import FavoniusBackend.Lib.Text

/-!
# The rate limiter

One process keeps, for every client and kind of request, the times of the requests it admitted, and admits another one
as long as fewer than the limit lie in the sliding window.  The counts are written to the table `rate_limit_state` and
read back from it: a row holds a number of requests but not their times, so a count that is read becomes evenly spaced
stand-ins for them.
-/

namespace FavoniusBackend.Security.RateLimiter

open Lib

/-! ## Buckets -/

structure RateLimitConfig where
  apiRequestsPerMinute : ℤ := 100
  adminWriteRequestsPerMinute : ℤ := 1200
  optimizeRequestsPerMinute : ℤ := 10
  agentRequestsPerMinute : ℤ := 10
  handoffMessagesPerHour : ℤ := 50

inductive BucketType
  | api
  | adminWrite
  | optimize
  | agent
  | handoff
  deriving DecidableEq, Repr

/-- The text that stands in `bucket_type`. -/
def BucketType.name : BucketType → String
  | .api => "api"
  | .adminWrite => "admin_write"
  | .optimize => "optimize"
  | .agent => "agent"
  | .handoff => "handoff"

/-- A bucket: one of the five dictionaries and a key in it. -/
inductive Bucket
  | api (clientId : List Char)
  | adminWrite (clientId : List Char)
  | optimize (clientId : List Char)
  | agent (clientId : List Char)
  | handoff (depotPair : List Char × List Char)
  deriving DecidableEq, Repr

namespace Bucket

def type : Bucket → BucketType
  | api _ => .api
  | adminWrite _ => .adminWrite
  | optimize _ => .optimize
  | agent _ => .agent
  | handoff _ => .handoff

/-- The text that stands in `bucket_key`. -/
def key : Bucket → List Char
  | api clientId => clientId
  | adminWrite clientId => clientId
  | optimize clientId => clientId
  | agent clientId => clientId
  | handoff depotPair => depotPair.1 ++ ':' :: depotPair.2

def mark (b : Bucket) : BucketType × List Char := (b.type, b.key)

def windowSeconds : Bucket → ℚ
  | handoff _ => 3600
  | _ => 60

def limit (config : RateLimitConfig) : Bucket → ℤ
  | api _ => config.apiRequestsPerMinute
  | adminWrite _ => config.adminWriteRequestsPerMinute
  | optimize _ => config.optimizeRequestsPerMinute
  | agent _ => config.agentRequestsPerMinute
  | handoff _ => config.handoffMessagesPerHour

/-- The bucket that a row is read into; a pair of depots is told apart at the first colon. -/
def ofRow : BucketType → List Char → Option Bucket
  | .api, bucketKey => some (.api bucketKey)
  | .adminWrite, bucketKey => some (.adminWrite bucketKey)
  | .optimize, bucketKey => some (.optimize bucketKey)
  | .agent, bucketKey => some (.agent bucketKey)
  | .handoff, bucketKey =>
    match Text.partition ':' bucketKey with
    | (origin, some dest) => some (.handoff (origin, dest))
    | (_, none) => none

theorem windowSeconds_pos (b : Bucket) : 0 < b.windowSeconds := by
  cases b <;> norm_num [windowSeconds]

theorem mark_ofRow {type : BucketType} {bucketKey : List Char} {b : Bucket} (h : ofRow type bucketKey = some b) :
    b.mark = (type, bucketKey) := by
  cases type with
  | handoff =>
    rw [ofRow] at h
    split at h
    · rename_i origin dest hpart
      obtain rfl := Option.some.inj h
      show (BucketType.handoff, origin ++ ':' :: dest) = _
      rw [Text.eq_of_partition hpart]
    · cases h
  | _ =>
    obtain rfl := Option.some.inj h
    rfl

end Bucket

/-! ## The limiter in memory -/

/-- The result of a check, with the values of its headers. -/
structure RateLimitResult where
  allowed : Bool
  limit : ℤ := 0
  remaining : ℤ := 0
  resetAt : ℚ := 0
  deriving DecidableEq, Repr

/-- A row to be written: `(bucket_type, bucket_key, window_start, request_count)`. -/
structure FlushRow where
  bucketType : BucketType
  bucketKey : List Char
  windowStart : ℚ
  requestCount : ℕ
  deriving DecidableEq, Repr

def FlushRow.mark (row : FlushRow) : BucketType × List Char := (row.bucketType, row.bucketKey)

def FlushRow.key (row : FlushRow) : BucketType × List Char × ℚ := (row.bucketType, row.bucketKey, row.windowStart)

def FlushRow.le (row row' : FlushRow) : Prop :=
  toLex (row.bucketType.name, toLex (row.bucketKey, row.windowStart)) ≤
    toLex (row'.bucketType.name, toLex (row'.bucketKey, row'.windowStart))

instance : DecidableRel FlushRow.le := fun row row' =>
  inferInstanceAs (Decidable (toLex (row.bucketType.name, toLex (row.bucketKey, row.windowStart)) ≤
    toLex (row'.bucketType.name, toLex (row'.bucketKey, row'.windowStart))))

/-- A row that was read.  A merge selects `window_start` and does not look at it; a cold start does not select it. -/
structure StateRow where
  bucketType : BucketType
  bucketKey : List Char
  windowStart : ℚ
  requestCount : ℕ
  deriving DecidableEq, Repr

def StateRow.mark (row : StateRow) : BucketType × List Char := (row.bucketType, row.bucketKey)

/-- The buckets and the marks that the next flush writes. -/
structure Memory where
  buckets : Dict Bucket (List ℚ) := Dict.empty
  dirtyKeys : Finset (BucketType × List Char) := ∅

def cleanBucket (bucket : List ℚ) (windowSeconds now : ℚ) : List ℚ :=
  bucket.filter fun t => decide (now - windowSeconds < t)

def makeResult (allowed : Bool) (bucket : List ℚ) (limit : ℤ) (windowSeconds now : ℚ) : RateLimitResult where
  allowed := allowed
  limit := limit
  remaining := max 0 (limit - bucket.length)
  resetAt :=
    match bucket with
    | t :: _ => t + windowSeconds
    | [] => now + windowSeconds

namespace Memory

def times (m : Memory) (b : Bucket) : List ℚ := m.buckets.getD b []

def live (m : Memory) (b : Bucket) (now : ℚ) : List ℚ := cleanBucket (m.times b) b.windowSeconds now

def setBucket (m : Memory) (b : Bucket) (times : List ℚ) : Memory := { m with buckets := m.buckets.set b times }

def markDirty (m : Memory) (b : Bucket) : Memory := { m with dirtyKeys := insert b.mark m.dirtyKeys }

@[simp] theorem times_setBucket (m : Memory) (b b' : Bucket) (ts : List ℚ) :
    (m.setBucket b ts).times b' = if b' = b then ts else m.times b' := by
  show ((m.buckets.set b ts).get? b').getD [] = _
  rw [Dict.get?_set]
  split <;> rfl

@[simp] theorem times_markDirty (m : Memory) (b b' : Bucket) : (m.markDirty b).times b' = m.times b' := rfl

theorem live_subset (m : Memory) (b : Bucket) (now : ℚ) : m.live b now ⊆ m.times b :=
  List.filter_subset_self _

def checkLimit (config : RateLimitConfig) (m : Memory) (b : Bucket) (now : ℚ) : RateLimitResult × Memory :=
  let bucket := m.live b now
  if b.limit config ≤ bucket.length then
    (makeResult false bucket (b.limit config) b.windowSeconds now, m.setBucket b bucket)
  else
    (makeResult true (bucket ++ [now]) (b.limit config) b.windowSeconds now,
      (m.setBucket b (bucket ++ [now])).markDirty b)

def checkApiLimit (config : RateLimitConfig) (m : Memory) (clientId : List Char) (now : ℚ) :=
  m.checkLimit config (.api clientId) now

def checkAdminWriteLimit (config : RateLimitConfig) (m : Memory) (clientId : List Char) (now : ℚ) :=
  m.checkLimit config (.adminWrite clientId) now

def checkOptimizeLimit (config : RateLimitConfig) (m : Memory) (clientId : List Char) (now : ℚ) :=
  m.checkLimit config (.optimize clientId) now

def checkAgentLimit (config : RateLimitConfig) (m : Memory) (clientId : List Char) (now : ℚ) :=
  m.checkLimit config (.agent clientId) now

def depotPair (originDepotId destDepotId : List Char) : List Char × List Char :=
  if destDepotId < originDepotId then (destDepotId, originDepotId) else (originDepotId, destDepotId)

def checkHandoffLimit (config : RateLimitConfig) (m : Memory) (originDepotId destDepotId : List Char) (now : ℚ) :=
  m.checkLimit config (.handoff (depotPair originDepotId destDepotId)) now

theorem checkLimit_allowed_eq_false {config : RateLimitConfig} {m : Memory} {b : Bucket} {now : ℚ} :
    (m.checkLimit config b now).1.allowed = false ↔ b.limit config ≤ (m.live b now).length := by
  unfold checkLimit
  dsimp only
  split
  · rename_i h
    exact iff_of_true rfl h
  · rename_i h
    exact iff_of_false Bool.noConfusion h

/-- What a check leaves in the buckets: those of the request's bucket that are in its window, and the time of a request
that is admitted. -/
theorem times_checkLimit (config : RateLimitConfig) (m : Memory) (b b' : Bucket) (now : ℚ) :
    (m.checkLimit config b now).2.times b' =
      if b' = b then m.live b now ++ (if (m.checkLimit config b now).1.allowed then [now] else []) else m.times b' := by
  unfold checkLimit
  dsimp only
  split
  · rw [times_setBucket]
    simp [makeResult]
  · rw [times_markDirty, times_setBucket]
    simp [makeResult]

theorem dirtyKeys_checkLimit (config : RateLimitConfig) (m : Memory) (b : Bucket) (now : ℚ) :
    (m.checkLimit config b now).2.dirtyKeys =
      if (m.checkLimit config b now).1.allowed then insert b.mark m.dirtyKeys else m.dirtyKeys := by
  unfold checkLimit
  dsimp only
  split <;> rfl

/-! ## What is written -/

/-- The row of one bucket: its count, under the window in which its first time lies. -/
def flushRow (b : Bucket) (timestamps : List ℚ) (now : ℚ) : Option FlushRow :=
  match cleanBucket timestamps b.windowSeconds now with
  | [] => none
  | t :: clean =>
    some ⟨b.type, b.key, ⌊t / b.windowSeconds⌋ * b.windowSeconds, (t :: clean).length⟩

def collectFlushRows (m : Memory) (now : ℚ) : List FlushRow :=
  Sql.orderBy FlushRow.le
    (m.buckets.items.filterMap fun e => if e.1.mark ∈ m.dirtyKeys then flushRow e.1 e.2 now else none)

theorem flushRow_of_mem_collectFlushRows {m : Memory} {now : ℚ} {row : FlushRow} (h : row ∈ m.collectFlushRows now) :
    ∃ b, row.mark ∈ m.dirtyKeys ∧ ∃ t clean, m.live b now = t :: clean ∧
      row = ⟨b.type, b.key, ⌊t / b.windowSeconds⌋ * b.windowSeconds, (t :: clean).length⟩ := by
  rw [collectFlushRows, Sql.mem_orderBy, List.mem_filterMap] at h
  obtain ⟨⟨b, ts⟩, hmem, hrow⟩ := h
  split at hrow
  · rename_i hdirty
    have hts : m.times b = ts := by
      show (m.buckets.get? b).getD [] = ts
      rw [Dict.mem_items_iff.mp hmem]
      rfl
    unfold flushRow at hrow
    split at hrow
    · cases hrow
    · rename_i t clean hclean
      obtain rfl := Option.some.inj hrow
      exact ⟨b, hdirty, t, clean, by rw [live, hts]; exact hclean, rfl⟩
  · cases hrow

theorem exists_mem_collectFlushRows {m : Memory} {now : ℚ} {b : Bucket} (hdirty : b.mark ∈ m.dirtyKeys)
    (hlive : m.live b now ≠ []) :
    ∃ row ∈ m.collectFlushRows now, row.mark = b.mark ∧ row.requestCount = (m.live b now).length := by
  obtain ⟨ts, hget, hts⟩ : ∃ ts, m.buckets.get? b = some ts ∧ m.times b = ts := by
    cases hget : m.buckets.get? b with
    | none =>
      have hnil : m.times b = [] := by
        show (m.buckets.get? b).getD [] = []
        rw [hget]
        rfl
      refine absurd ?_ hlive
      rw [live, hnil]
      rfl
    | some ts =>
      refine ⟨ts, rfl, ?_⟩
      show (m.buckets.get? b).getD [] = ts
      rw [hget]
      rfl
  rw [live, hts] at hlive ⊢
  cases hclean : cleanBucket ts b.windowSeconds now with
  | nil => exact absurd hclean hlive
  | cons t clean =>
    refine ⟨⟨b.type, b.key, ⌊t / b.windowSeconds⌋ * b.windowSeconds, (t :: clean).length⟩, ?_, rfl, rfl⟩
    rw [collectFlushRows, Sql.mem_orderBy, List.mem_filterMap]
    refine ⟨(b, ts), Dict.mem_items_iff.mpr hget, ?_⟩
    rw [if_pos hdirty, flushRow, hclean]

/-! ## What is read -/

/-- Evenly spaced times inside the window that ends at `now`. -/
def generateSyntheticTimestamps (count : ℕ) (windowSeconds now : ℚ) : List ℚ :=
  let spacing := windowSeconds / (count + 1)
  (List.range count).map fun i : ℕ => now - windowSeconds + spacing * ((i : ℚ) + 1)

/-- One row of a merge that began at `now`, at the time `later`. -/
def mergeRow (now later : ℚ) (m : Memory) (row : StateRow) : Memory :=
  match Bucket.ofRow row.bucketType row.bucketKey with
  | none => m
  | some b =>
    if (m.live b later).length < row.requestCount then
      m.setBucket b (generateSyntheticTimestamps row.requestCount b.windowSeconds now)
    else m

def hydrateRow (now : ℚ) (m : Memory) (row : StateRow) : Memory :=
  match Bucket.ofRow row.bucketType row.bucketKey with
  | none => m
  | some b => m.setBucket b (generateSyntheticTimestamps row.requestCount b.windowSeconds now)

@[simp] theorem length_generateSyntheticTimestamps (count : ℕ) (windowSeconds now : ℚ) :
    (generateSyntheticTimestamps count windowSeconds now).length = count := by
  simp [generateSyntheticTimestamps]

/-- The stand-ins lie inside the window, the first of them one spacing after it begins. -/
theorem mem_generateSyntheticTimestamps {count : ℕ} {windowSeconds now t : ℚ} (hw : 0 < windowSeconds)
    (h : t ∈ generateSyntheticTimestamps count windowSeconds now) :
    now - windowSeconds + windowSeconds / (count + 1) ≤ t ∧ t < now := by
  obtain ⟨i, hi, rfl⟩ := List.mem_map.mp h
  have hi : (i : ℚ) + 1 ≤ count := by exact_mod_cast List.mem_range.mp hi
  have hpos : (0 : ℚ) < count + 1 := by positivity
  have hspacing : 0 < windowSeconds / (count + 1) := div_pos hw hpos
  have hall : windowSeconds / (count + 1) * (count + 1) = windowSeconds := div_mul_cancel₀ _ hpos.ne'
  constructor
  · have : windowSeconds / (count + 1) * 1 ≤ windowSeconds / (count + 1) * (i + 1) :=
      mul_le_mul_of_nonneg_left (by linarith [(Nat.cast_nonneg i : (0 : ℚ) ≤ i)]) hspacing.le
    linarith
  · have : windowSeconds / (count + 1) * (i + 1) < windowSeconds / (count + 1) * (count + 1) :=
      mul_lt_mul_of_pos_left (by linarith) hspacing
    linarith

theorem times_mergeRow (now later : ℚ) (m : Memory) (row : StateRow) (b : Bucket) :
    (mergeRow now later m row).times b = m.times b ∨
      row.mark = b.mark ∧
        (mergeRow now later m row).times b = generateSyntheticTimestamps row.requestCount b.windowSeconds now := by
  unfold mergeRow
  split
  · exact .inl rfl
  · rename_i b' hb'
    split
    · rw [times_setBucket]
      split
      · rename_i hb
        exact .inr ⟨by rw [hb, Bucket.mark_ofRow hb']; rfl, by rw [hb]⟩
      · exact .inl rfl
    · exact .inl rfl

theorem times_hydrateRow (now : ℚ) (m : Memory) (row : StateRow) (b : Bucket) :
    (hydrateRow now m row).times b = m.times b ∨
      row.mark = b.mark ∧
        (hydrateRow now m row).times b = generateSyntheticTimestamps row.requestCount b.windowSeconds now := by
  unfold hydrateRow
  split
  · exact .inl rfl
  · rename_i b' hb'
    rw [times_setBucket]
    split
    · rename_i hb
      exact .inr ⟨by rw [hb, Bucket.mark_ofRow hb']; rfl, by rw [hb]⟩
    · exact .inl rfl

theorem dirtyKeys_mergeRow (now later : ℚ) (m : Memory) (row : StateRow) :
    (mergeRow now later m row).dirtyKeys = m.dirtyKeys := by
  unfold mergeRow
  split
  · rfl
  · split <;> rfl

theorem times_foldl {now : ℚ} {readRow : Memory → StateRow → Memory} {b : Bucket}
    (hrow : ∀ m row, (readRow m row).times b = m.times b ∨
      row.mark = b.mark ∧ (readRow m row).times b = generateSyntheticTimestamps row.requestCount b.windowSeconds now)
    (rows : List StateRow) (m : Memory) :
    (rows.foldl readRow m).times b = m.times b ∨
      ∃ row ∈ rows, row.mark = b.mark ∧
        (rows.foldl readRow m).times b = generateSyntheticTimestamps row.requestCount b.windowSeconds now := by
  induction rows generalizing m with
  | nil => exact .inl rfl
  | cons row rows ih =>
    rw [List.foldl_cons]
    rcases ih (readRow m row) with h | ⟨row', hmem, hmark, h⟩
    · rcases hrow m row with hsame | ⟨hmark, hnew⟩
      · exact .inl (h.trans hsame)
      · exact .inr ⟨row, List.mem_cons_self, hmark, h.trans hnew⟩
    · exact .inr ⟨row', List.mem_cons_of_mem _ hmem, hmark, h⟩

theorem dirtyKeys_foldl {readRow : Memory → StateRow → Memory}
    (hrow : ∀ m row, (readRow m row).dirtyKeys = m.dirtyKeys) (rows : List StateRow) (m : Memory) :
    (rows.foldl readRow m).dirtyKeys = m.dirtyKeys := by
  induction rows generalizing m with
  | nil => rfl
  | cons row rows ih => rw [List.foldl_cons, ih, hrow]

end Memory

end FavoniusBackend.Security.RateLimiter
