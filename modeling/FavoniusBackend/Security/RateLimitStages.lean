import FavoniusBackend.Security.RateLimitDenials

/-!
# Instances that count together: the stages of a run

Every instance flushes its counts and merges what the others have flushed.  For one bucket a run is watched for the
point at which every instance has completed a merge since the one that admitted the last request has completed a flush
(`Watched.Settled`).  An instance that has done so may admit the next request, with its stand-ins for those before.

`Watched.Clear` is what a step has to keep clear of: counts of two instances meet in a maximum; a request that comes in
while a flush awaits the database loses its mark; the row that is merged replaces the times of an instance by stand-ins,
and these leave the window sooner than the requests; and the rows of the hourly window are read for two minutes only.
`Watched.Sound` is what then holds of an instance at each stage.
-/

namespace FavoniusBackend.Security.RateLimiter

open Lib

/-! ## What a merge does to a bucket -/

namespace Memory

variable {b : Bucket} {now later : ℚ}

def rowsOf (b : Bucket) (rows : List StateRow) : List StateRow :=
  rows.filter fun row => decide (Bucket.ofRow row.bucketType row.bucketKey = some b)

theorem mem_rowsOf {rows : List StateRow} {row : StateRow} :
    row ∈ rowsOf b rows ↔ row ∈ rows ∧ Bucket.ofRow row.bucketType row.bucketKey = some b := by
  simp [rowsOf]

theorem times_foldl_mergeRow_of_le {rows : List StateRow} {m : Memory}
    (h : ∀ row ∈ rowsOf b rows, row.requestCount ≤ (m.live b later).length) :
    (rows.foldl (mergeRow now later) m).times b = m.times b := by
  induction rows generalizing m with
  | nil => rfl
  | cons row rows ih =>
    have hrow : (mergeRow now later m row).times b = m.times b := by
      unfold mergeRow
      split
      · rfl
      · rename_i b' hb'
        split
        · rename_i hlt
          rw [times_setBucket]
          split
          · rename_i hb
            subst hb
            exact absurd (h row (mem_rowsOf.mpr ⟨List.mem_cons_self, hb'⟩)) (not_le.mpr hlt)
          · rfl
        · rfl
    rw [List.foldl_cons, ih, hrow]
    intro row' hmem
    rw [live, hrow]
    obtain ⟨hrows, hof⟩ := mem_rowsOf.mp hmem
    exact h row' (mem_rowsOf.mpr ⟨List.mem_cons_of_mem _ hrows, hof⟩)

/-- Stand-ins that are one spacing younger than the merge all lie in the window. -/
theorem cleanBucket_generateSyntheticTimestamps {count : ℕ} {windowSeconds : ℚ} (hw : 0 < windowSeconds)
    (h : later - now < windowSeconds / (count + 1)) :
    cleanBucket (generateSyntheticTimestamps count windowSeconds now) windowSeconds later =
      generateSyntheticTimestamps count windowSeconds now := by
  rw [cleanBucket, List.filter_eq_self]
  intro t ht
  have := (mem_generateSyntheticTimestamps hw ht).1
  simp only [decide_eq_true_eq]
  linarith

theorem live_mergeRow {m : Memory} {row : StateRow}
    (h : Bucket.ofRow row.bucketType row.bucketKey = some b →
      later - now < b.windowSeconds / (row.requestCount + 1)) :
    (m.live b later).length ≤ ((mergeRow now later m row).live b later).length ∧
      (Bucket.ofRow row.bucketType row.bucketKey = some b →
        row.requestCount ≤ ((mergeRow now later m row).live b later).length) := by
  unfold mergeRow
  split
  · rename_i hnone
    exact ⟨le_rfl, fun hof => by rw [hnone] at hof; cases hof⟩
  · rename_i b' hb'
    split
    · rename_i hlt
      by_cases hb : b = b'
      · subst hb
        have hlen : (((m.setBucket b (generateSyntheticTimestamps row.requestCount b.windowSeconds now))).live b
            later).length = row.requestCount := by
          rw [live, times_setBucket, if_pos rfl,
            cleanBucket_generateSyntheticTimestamps b.windowSeconds_pos (h hb'), length_generateSyntheticTimestamps]
        rw [hlen]
        exact ⟨hlt.le, fun _ => le_rfl⟩
      · refine ⟨le_of_eq ?_, fun hof => absurd (Option.some.inj (hof.symm.trans hb')) hb⟩
        rw [live, live, times_setBucket, if_neg hb]
    · rename_i hnot
      refine ⟨le_rfl, fun hof => ?_⟩
      obtain rfl := Option.some.inj (hof.symm.trans hb')
      exact not_lt.mp hnot

/-- While their stand-ins last, rows that are merged do not lower a count, and raise it to each of theirs. -/
theorem live_foldl_mergeRow {rows : List StateRow} {m : Memory}
    (h : ∀ row ∈ rowsOf b rows, later - now < b.windowSeconds / (row.requestCount + 1)) :
    (m.live b later).length ≤ ((rows.foldl (mergeRow now later) m).live b later).length ∧
      ∀ row ∈ rowsOf b rows, row.requestCount ≤ ((rows.foldl (mergeRow now later) m).live b later).length := by
  induction rows generalizing m with
  | nil => exact ⟨le_rfl, fun row hrow => nomatch hrow⟩
  | cons row rows ih =>
    have hhead := live_mergeRow (m := m) (fun hof => h row (mem_rowsOf.mpr ⟨List.mem_cons_self, hof⟩))
    obtain ⟨hkeep, hrows⟩ := ih (m := mergeRow now later m row) (fun row' hmem => by
      obtain ⟨hmem, hof⟩ := mem_rowsOf.mp hmem
      exact h row' (mem_rowsOf.mpr ⟨List.mem_cons_of_mem _ hmem, hof⟩))
    rw [List.foldl_cons]
    refine ⟨hhead.1.trans hkeep, fun row' hmem => ?_⟩
    obtain ⟨hmem, hof⟩ := mem_rowsOf.mp hmem
    rcases List.mem_cons.mp hmem with rfl | hmem
    · exact (hhead.2 hof).trans hkeep
    · exact hrows row' (mem_rowsOf.mpr ⟨hmem, hof⟩)

end Memory

/-! ## What a write does to the table -/

namespace Table

theorem get?_upsert_of_get? (now : ℚ) {table : Table} {k : BucketType × List Char × ℚ} {c : StateCount}
    (h : table.get? k = some c) (row : FlushRow) :
    ∃ c', (table.upsert now row).get? k = some c' ∧ c.requestCount ≤ c'.requestCount ∧
      (c'.lastUpdated = c.lastUpdated ∨ c'.lastUpdated = now) := by
  rw [upsert, Dict.get?_set]
  split
  · rename_i hk
    subst hk
    rw [h]
    exact ⟨_, rfl, le_max_left _ _, .inr rfl⟩
  · exact ⟨c, h, le_rfl, .inl rfl⟩

theorem get?_foldl_upsert_of_get? (now : ℚ) {table : Table} {k : BucketType × List Char × ℚ} {c : StateCount}
    (h : table.get? k = some c) (rows : List FlushRow) :
    ∃ c', (rows.foldl (upsert now) table).get? k = some c' ∧ c.requestCount ≤ c'.requestCount ∧
      (c'.lastUpdated = c.lastUpdated ∨ c'.lastUpdated = now) := by
  induction rows generalizing table c with
  | nil => exact ⟨c, h, le_rfl, .inl rfl⟩
  | cons row rows ih =>
    obtain ⟨c₁, hget₁, hcount₁, hlast₁⟩ := get?_upsert_of_get? now h row
    obtain ⟨c₂, hget₂, hcount₂, hlast₂⟩ := ih hget₁
    refine ⟨c₂, hget₂, hcount₁.trans hcount₂, ?_⟩
    rcases hlast₂ with hlast₂ | hlast₂
    · rw [hlast₂]
      exact hlast₁
    · exact .inr hlast₂

theorem get?_foldl_upsert_of_mem (now : ℚ) (table : Table) {rows : List FlushRow} {row : FlushRow} (h : row ∈ rows) :
    ∃ c, (rows.foldl (upsert now) table).get? row.key = some c ∧ row.requestCount ≤ c.requestCount ∧
      c.lastUpdated = now := by
  induction rows generalizing table with
  | nil => cases h
  | cons row' rows ih =>
    rw [List.foldl_cons]
    rcases List.mem_cons.mp h with rfl | h
    · obtain ⟨c, hget⟩ : ∃ c, (table.upsert now row).get? row.key = some c := by
        rw [upsert, Dict.get?_set_self]
        exact ⟨_, rfl⟩
      have hlast : c.lastUpdated = now ∧ row.requestCount ≤ c.requestCount := by
        rcases get?_upsert hget with ⟨-, hne⟩ | ⟨-, hlast, hcount, -⟩
        · exact absurd rfl hne
        · exact ⟨hlast, hcount⟩
      obtain ⟨c', hget', hcount', hlast'⟩ := get?_foldl_upsert_of_get? now hget rows
      refine ⟨c', hget', hlast.2.trans hcount', ?_⟩
      rcases hlast' with hlast' | hlast'
      · exact hlast'.trans hlast.1
      · exact hlast'
    · exact ih (table.upsert now row') h

end Table

/-! ## Watching a run -/

/-- How far an instance is, since the last request: nothing is done, a flush that began since is under way or complete,
a merge that began after the flush of the instance that admitted the request is under way or complete. -/
inductive Stage
  | pending
  | flushing
  | flushed
  | merging
  | settled
  deriving DecidableEq, Repr

/-- The instance has completed a flush since the last request. -/
def Stage.hasFlushed : Stage → Bool
  | .flushed => true
  | .merging => true
  | .settled => true
  | _ => false

/-- The stage of an instance that acts, where `ready` says that the one that admitted the last request has completed a
flush since. -/
def Stage.next (now : ℚ) (l : Limiter) (ready : Bool) (stage : Stage) : Act → Stage
  | .flushStart =>
    match l.task with
    | .idle =>
      if stage = .pending then if l.memory.collectFlushRows now = [] then .flushed else .flushing else stage
    | _ => stage
  | .flushDone =>
    match l.task with
    | .flushed => if stage = .flushing then .flushed else stage
    | _ => stage
  | .mergeStart =>
    match l.task with
    | .idle => if (stage = .pending ∨ stage = .flushed) ∧ ready then .merging else stage
    | _ => stage
  | .mergeDone =>
    match l.task with
    | .merged _ _ => if stage = .merging then .settled else stage
    | _ => stage
  | .fail =>
    match l.task with
    | .starting => stage
    | _ => if stage = .flushing then .pending else if stage = .merging then .flushed else stage
  | .restart => .pending
  | _ => stage

/-- The last of the requests was admitted by this instance. -/
def HeldBy {ι : Type} (G : List (Grant ι)) (i : ι) : Prop := G.head?.map Grant.holder = some i

instance {ι : Type} [DecidableEq ι] (G : List (Grant ι)) (i : ι) : Decidable (HeldBy G i) :=
  inferInstanceAs (Decidable (G.head?.map Grant.holder = some i))

theorem HeldBy.ne_nil {ι : Type} {G : List (Grant ι)} {i : ι} (h : HeldBy G i) : G ≠ [] := by
  rintro rfl
  cases h

/-- A world, and how far each instance is with one bucket. -/
structure Watched (ι : Type) where
  world : World ι
  stage : ι → Stage

namespace Watched

open World

variable {ι : Type}

def start (clock : ℚ) : Watched ι where
  world := { clock := clock }
  stage _ := .pending

/-- The requests of a bucket that all instances admitted in the current window. -/
def granted (b : Bucket) (w : Watched ι) : List (Grant ι) := w.world.grantedWithin b 1

def step [DecidableEq ι] [Fintype ι] (config : RateLimitConfig) (b : Bucket) (w : Watched ι) (op : Op ι) :
    Watched ι where
  world := w.world.step config op
  stage :=
    match op with
    | .check i request =>
      if request.bucket = b ∧ (w.world.answer config i request).allowed then fun _ => .pending else w.stage
    | .act i a =>
      Function.update w.stage i ((w.stage i).next w.world.clock (w.world.limiters i)
        (decide (∀ j, HeldBy (w.granted b) j → (w.stage j).hasFlushed)) a)
    | _ => w.stage

/-- Every instance has completed a merge that began after the one that admitted the last request had completed a
flush. -/
def Settled (w : Watched ι) : Prop := ∀ j, w.stage j = .settled

/-- The requests that an instance counts. -/
def live (b : Bucket) (w : Watched ι) (j : ι) : List ℚ := (w.world.limiters j).memory.live b w.world.clock

/-- The entries of a bucket that were written since the last of the requests. -/
def current (b : Bucket) (G : List (Grant ι)) (table : Table) : List StateCount :=
  (table.items.filter fun e =>
    decide ((e.1.1, e.1.2.1) = b.mark ∧ ∀ g ∈ G, g.time ≤ e.2.lastUpdated)).map Prod.snd

/-- Where an act keeps clear of what loses counts, with the requests `G` in the window: a flush completes with no
request since it began; the instance that admitted the last request keeps its own times, and does not restart; and, as
long as there are requests, the stand-ins of a merge are in the window and the rows that count the requests are read. -/
def ClearAct (b : Bucket) (G : List (Grant ι)) (now : ℚ) (table : Table) (i : ι) (l : Limiter) (stage : Stage) :
    Act → Prop
  | .flushDone => l.task = .flushed → stage = .pending → ¬HeldBy G i
  | .mergeFetch _ => stage = .merging → G ≠ [] → ∀ c ∈ current b G table, now - 120 < c.lastUpdated
  | .mergeDone => ∀ merge ∈ l.task.merge,
      (HeldBy G i → ∀ row ∈ Memory.rowsOf b merge.2, row.requestCount ≤ (l.memory.live b now).length) ∧
      (G ≠ [] → ¬HeldBy G i → (stage = .merging ∨ stage = .settled) →
        ∀ row ∈ Memory.rowsOf b merge.2, now - merge.1 < b.windowSeconds / (row.requestCount + 1))
  | .hydrateDone => l.task.cold = true → ¬HeldBy G i
  | .restart => ¬HeldBy G i
  | _ => True

/-- Where a step keeps clear of what loses counts: an act does; a request is admitted where the last one was, or by an
instance that has merged it since; the stand-ins of an instance stay in the window as long as requests of others that
they count are in it; and the rows that count the requests are kept. -/
def Clear (config : RateLimitConfig) (b : Bucket) (w : Watched ι) : Op ι → Prop
  | .check i request =>
    request.bucket = b → (w.world.answer config i request).allowed = true →
      w.granted b = [] ∨ HeldBy (w.granted b) i ∨ w.stage i = .settled
  | .advance dt =>
    ∀ j, (HeldBy (w.granted b) j ∨ w.stage j = .settled) →
      (∃ g ∈ w.granted b, g.holder ≠ j ∧ w.world.clock + dt - b.windowSeconds < g.time) →
        ∀ t ∈ w.live b j, w.world.clock + dt - b.windowSeconds < t
  | .cleanup => w.granted b ≠ [] → ∀ c ∈ current b (w.granted b) w.world.table, w.world.clock - 300 ≤ c.lastUpdated
  | .act i a => ClearAct b (w.granted b) w.world.clock w.world.table i (w.world.limiters i) (w.stage i) a

instance [DecidableEq ι] (b : Bucket) (G : List (Grant ι)) (now : ℚ) (table : Table) (i : ι) (l : Limiter)
    (stage : Stage) : ∀ a, Decidable (ClearAct b G now table i l stage a)
  | .flushDone => inferInstanceAs (Decidable (l.task = .flushed → stage = .pending → ¬HeldBy G i))
  | .mergeFetch _ =>
    inferInstanceAs (Decidable (stage = .merging → G ≠ [] → ∀ c ∈ current b G table, now - 120 < c.lastUpdated))
  | .mergeDone => inferInstanceAs (Decidable (∀ merge ∈ l.task.merge,
      (HeldBy G i → ∀ row ∈ Memory.rowsOf b merge.2, row.requestCount ≤ (l.memory.live b now).length) ∧
      (G ≠ [] → ¬HeldBy G i → (stage = .merging ∨ stage = .settled) →
        ∀ row ∈ Memory.rowsOf b merge.2, now - merge.1 < b.windowSeconds / (row.requestCount + 1))))
  | .hydrateDone => inferInstanceAs (Decidable (l.task.cold = true → ¬HeldBy G i))
  | .restart => inferInstanceAs (Decidable ¬HeldBy G i)
  | .hydrateStart | .hydrateFetch _ | .flushStart | .flushWrite | .mergeStart | .fail =>
    inferInstanceAs (Decidable True)

instance [DecidableEq ι] [Fintype ι] (config : RateLimitConfig) (b : Bucket) (w : Watched ι) :
    ∀ op, Decidable (Clear config b w op)
  | .check i request => inferInstanceAs (Decidable
      (request.bucket = b → (w.world.answer config i request).allowed = true →
        w.granted b = [] ∨ HeldBy (w.granted b) i ∨ w.stage i = .settled))
  | .advance dt => inferInstanceAs (Decidable
      (∀ j, (HeldBy (w.granted b) j ∨ w.stage j = .settled) →
        (∃ g ∈ w.granted b, g.holder ≠ j ∧ w.world.clock + dt - b.windowSeconds < g.time) →
          ∀ t ∈ w.live b j, w.world.clock + dt - b.windowSeconds < t))
  | .cleanup => inferInstanceAs (Decidable
      (w.granted b ≠ [] → ∀ c ∈ current b (w.granted b) w.world.table, w.world.clock - 300 ≤ c.lastUpdated))
  | .act i a => inferInstanceAs (Decidable
      (ClearAct b (w.granted b) w.world.clock w.world.table i (w.world.limiters i) (w.stage i) a))

/-! ## One instance -/

/-- The table counts all requests of the window, since the last of them. -/
def Written (b : Bucket) (G : List (Grant ι)) (table : Table) : Prop :=
  ∃ k c, table.get? k = some c ∧ (k.1, k.2.1) = b.mark ∧ G.length ≤ c.requestCount ∧ ∀ g ∈ G, g.time ≤ c.lastUpdated

theorem mem_current {b : Bucket} {G : List (Grant ι)} {table : Table} {c : StateCount} :
    c ∈ current b G table ↔
      ∃ k, table.get? k = some c ∧ (k.1, k.2.1) = b.mark ∧ ∀ g ∈ G, g.time ≤ c.lastUpdated := by
  simp only [current, List.mem_map, List.mem_filter, decide_eq_true_eq, Prod.exists, ← Dict.mem_items_iff]
  constructor
  · rintro ⟨type, bucketKey, windowStart, c', ⟨hmem, hk, hlast⟩, rfl⟩
    exact ⟨type, bucketKey, windowStart, hmem, hk, hlast⟩
  · rintro ⟨type, bucketKey, windowStart, hmem, hk, hlast⟩
    exact ⟨type, bucketKey, windowStart, c, ⟨hmem, hk, hlast⟩, rfl⟩

/-- A bucket with the times of the requests of an instance since the last one of another, and as many stand-ins in the
window as there are requests before. -/
def Covered (b : Bucket) (G : List (Grant ι)) (now : ℚ) (i : ι) (times : List ℚ) : Prop :=
  ∃ own inherited standIns, G = own ++ inherited ∧ (∀ g ∈ inherited.head?, g.holder ≠ i) ∧
    (own.map Grant.time ++ standIns).Subperm times ∧ (∀ t ∈ standIns, now - b.windowSeconds < t) ∧
    inherited.length ≤ standIns.length

/-- An instance at some stage, where `G` are the requests of the window.  The one that admitted the last of them covers
them; they are marked until it has flushed, and then written; a merge that counts has read a row that counts them; an
instance that is settled counts them. -/
structure Sound (b : Bucket) (G : List (Grant ι)) (now : ℚ) (table : Table) (i : ι) (l : Limiter) (stage : Stage) :
    Prop where
  kept : HeldBy G i → Covered b G now i (l.memory.times b)
  cold : l.task.cold = true → stage = .pending
  marked : stage.hasFlushed = false → HeldBy G i → b.mark ∈ l.memory.dirtyKeys
  flushing : stage = .flushing →
    (∃ rows, l.task = .flushing rows ∧
      (HeldBy G i → ∃ row ∈ rows, row.mark = b.mark ∧ G.length ≤ row.requestCount)) ∨
    l.task = .flushed ∧ (HeldBy G i → Written b G table)
  written : stage.hasFlushed = true → HeldBy G i → Written b G table
  merging : stage = .merging →
    (G ≠ [] → Written b G table) ∧
      ((∃ before, l.task = .merging before) ∨
        ∃ before rows, l.task = .merged before rows ∧
          (G ≠ [] → ∃ row ∈ Memory.rowsOf b rows, G.length ≤ row.requestCount))
  settled : stage = .settled → G.length ≤ (l.memory.live b now).length

namespace Sound

variable {b : Bucket} {G : List (Grant ι)} {now : ℚ} {table : Table} {i : ι} {memory : Memory} {stage : Stage}

theorem covered_live (hkept : Covered b G now i (memory.times b)) (hG : ∀ g ∈ G, now - b.windowSeconds < g.time) :
    Covered b G now i (memory.live b now) := by
  obtain ⟨own, inherited, standIns, rfl, hhead, hsub, hwindow, hlength⟩ := hkept
  refine ⟨own, inherited, standIns, rfl, hhead, ?_, hwindow, hlength⟩
  have hall : (own.map Grant.time ++ standIns).filter (fun t => decide (now - b.windowSeconds < t)) =
      own.map Grant.time ++ standIns := by
    rw [List.filter_eq_self]
    intro t ht
    rw [decide_eq_true_eq]
    rcases List.mem_append.mp ht with hown | hstand
    · obtain ⟨g, hg, rfl⟩ := List.mem_map.mp hown
      exact hG g (List.mem_append_left _ hg)
    · exact hwindow t hstand
  rw [← hall]
  exact hsub.filter _

theorem length_le_live (hkept : Covered b G now i (memory.times b)) (hG : ∀ g ∈ G, now - b.windowSeconds < g.time) :
    G.length ≤ (memory.live b now).length := by
  obtain ⟨own, inherited, standIns, rfl, -, hsub, -, hlength⟩ := covered_live hkept hG
  have hle := hsub.length_le
  rw [List.length_append, List.length_map] at hle
  rw [List.length_append]
  omega

theorem of_table {l : Limiter} {table' : Table} (h : Sound b G now table i l stage)
    (htable : G ≠ [] → Written b G table → Written b G table') : Sound b G now table' i l stage :=
  { h with
    flushing := fun hs =>
      (h.flushing hs).imp_right fun hw => ⟨hw.1, fun hh => htable hh.ne_nil (hw.2 hh)⟩
    written := fun hs hh => htable hh.ne_nil (h.written hs hh)
    merging := fun hs => ⟨fun hne => htable hne ((h.merging hs).1 hne), (h.merging hs).2⟩ }

theorem exists_flushRow {task : Task} (h : Sound b G now table i ⟨memory, task⟩ stage)
    (hG : ∀ g ∈ G, now - b.windowSeconds < g.time) (hdirty : b.mark ∈ memory.dirtyKeys) (hheld : HeldBy G i) :
    ∃ row ∈ memory.collectFlushRows now, row.mark = b.mark ∧ G.length ≤ row.requestCount := by
  have hle := length_le_live (h.kept hheld) hG
  have hlive : memory.live b now ≠ [] := by
    intro hnil
    rw [hnil] at hle
    exact absurd (List.length_pos_iff.mpr hheld.ne_nil) (not_lt.mpr hle)
  obtain ⟨row, hrow, hmark, hcount⟩ := Memory.exists_mem_collectFlushRows hdirty hlive
  exact ⟨row, hrow, hmark, hcount ▸ hle⟩

theorem flushStart (h : Sound b G now table i ⟨memory, .idle⟩ stage)
    (hG : ∀ g ∈ G, now - b.windowSeconds < g.time) (ready : Bool) :
    Sound b G now table i (Limiter.act now table ⟨memory, .idle⟩ .flushStart)
      (stage.next now ⟨memory, .idle⟩ ready .flushStart) := by
  have hnot : stage ≠ .flushing := by
    rintro rfl
    rcases h.flushing rfl with ⟨rows, htask, -⟩ | ⟨htask, -⟩ <;> cases htask
  have hnot' : stage ≠ .merging := by
    rintro rfl
    rcases (h.merging rfl).2 with ⟨before, htask⟩ | ⟨before, rows, htask, -⟩ <;> cases htask
  unfold Limiter.act Stage.next
  dsimp only
  by_cases hnil : memory.collectFlushRows now = []
  · rw [if_pos hnil]
    have hnone : stage = .pending → ¬HeldBy G i := by
      intro hs hheld
      obtain ⟨row, hrow, -⟩ := h.exists_flushRow hG (h.marked (by rw [hs]; rfl) hheld) hheld
      rw [hnil] at hrow
      cases hrow
    split
    · rename_i hs
      exact
        { kept := h.kept
          cold := fun hc => nomatch hc
          marked := fun hs' => by simp [Stage.hasFlushed] at hs'
          flushing := fun hs' => nomatch hs'
          written := fun _ hheld => absurd hheld (hnone hs)
          merging := fun hs' => nomatch hs'
          settled := fun hs' => nomatch hs' }
    · rename_i hs
      refine
        { h with
          marked := fun hs' => ?_
          flushing := fun hs' => absurd hs' hnot }
      cases stage with
      | pending => exact absurd rfl hs
      | flushing => exact absurd rfl hnot
      | _ => cases hs'
  · rw [if_neg hnil]
    split
    · rename_i hs
      have hmark := h.marked (by rw [hs]; rfl)
      exact
        { kept := h.kept
          cold := fun hc => nomatch hc
          marked := fun _ => hmark
          flushing := fun _ => .inl ⟨_, rfl, fun hheld => h.exists_flushRow hG (hmark hheld) hheld⟩
          written := fun hs' => nomatch hs'
          merging := fun hs' => nomatch hs'
          settled := fun hs' => nomatch hs' }
    · exact
        { h with
          cold := fun hc => nomatch hc
          flushing := fun hs' => absurd hs' hnot
          merging := fun hs' => absurd hs' hnot' }

theorem flushWrite {rows : List FlushRow} (h : Sound b G now table i ⟨memory, .flushing rows⟩ stage)
    (hG : ∀ g ∈ G, g.time ≤ now) (htable : G ≠ [] → Written b G table → Written b G (rows.foldl (Table.upsert now) table)) :
    Sound b G now (rows.foldl (Table.upsert now) table) i ⟨memory, .flushed⟩ stage := by
  have h' := h.of_table htable
  refine
    { h' with
      cold := fun hc => nomatch hc
      flushing := fun hs => .inr ⟨rfl, fun hheld => ?_⟩
      merging := fun hs => ?_ }
  · rcases h.flushing hs with ⟨rows', htask, hrow⟩ | ⟨htask, -⟩
    · obtain rfl := Task.flushing.inj htask
      obtain ⟨row, hmem, hmark, hcount⟩ := hrow hheld
      obtain ⟨c, hget, hle, hlast⟩ := Table.get?_foldl_upsert_of_mem now table hmem
      exact ⟨row.key, c, hget, hmark, hcount.trans hle, fun g hg => hlast ▸ hG g hg⟩
    · cases htask
  · rcases (h.merging hs).2 with ⟨before, htask⟩ | ⟨before, rows', htask, -⟩ <;> cases htask

theorem flushDone (h : Sound b G now table i ⟨memory, .flushed⟩ stage) (hclear : stage = .pending → ¬HeldBy G i)
    (ready : Bool) :
    Sound b G now table i (Limiter.act now table ⟨memory, .flushed⟩ .flushDone)
      (stage.next now ⟨memory, .flushed⟩ ready .flushDone) := by
  have hnot : stage ≠ .merging := by
    rintro rfl
    rcases (h.merging rfl).2 with ⟨before, htask⟩ | ⟨before, rows, htask, -⟩ <;> cases htask
  unfold Limiter.act Stage.next
  dsimp only
  split
  · rename_i hs
    exact
      { kept := h.kept
        cold := fun hc => nomatch hc
        marked := fun hs' => nomatch hs'
        flushing := fun hs' => nomatch hs'
        written := fun _ hheld => by
          rcases h.flushing hs with ⟨rows, htask, -⟩ | ⟨-, hw⟩
          · cases htask
          · exact hw hheld
        merging := fun hs' => nomatch hs'
        settled := fun hs' => nomatch hs' }
  · rename_i hs
    refine
      { h with
        cold := fun hc => nomatch hc
        marked := fun hs' hheld => ?_
        flushing := fun hs' => absurd hs' hs
        merging := fun hs' => absurd hs' hnot }
    cases stage with
    | pending => exact absurd hheld (hclear rfl)
    | flushing => exact absurd rfl hs
    | _ => cases hs'

theorem mergeStart (h : Sound b G now table i ⟨memory, .idle⟩ stage) {ready : Bool}
    (hready : ready = true → G ≠ [] → Written b G table) :
    Sound b G now table i (Limiter.act now table ⟨memory, .idle⟩ .mergeStart)
      (stage.next now ⟨memory, .idle⟩ ready .mergeStart) := by
  unfold Limiter.act Stage.next
  dsimp only
  split
  · rename_i hs
    exact
      { kept := h.kept
        cold := (by rintro ⟨⟩)
        marked := (by rintro ⟨⟩)
        flushing := (by rintro ⟨⟩)
        written := fun _ hheld => hready hs.2 hheld.ne_nil
        merging := fun _ => ⟨hready hs.2, .inl ⟨now, rfl⟩⟩
        settled := (by rintro ⟨⟩) }
  · refine
      { h with
        cold := fun hc => nomatch hc
        flushing := fun hs' => ?_
        merging := fun hs' => ⟨(h.merging hs').1, .inl ⟨now, rfl⟩⟩ }
    rcases h.flushing hs' with ⟨rows, htask, -⟩ | ⟨htask, -⟩ <;> cases htask

theorem mergeFetch {before : ℚ} {rows : List StateRow} (h : Sound b G now table i ⟨memory, .merging before⟩ stage)
    (hof : Bucket.ofRow b.type b.key = some b) (hrows : rows.Perm (table.recent now))
    (hclear : stage = .merging → G ≠ [] → ∀ c ∈ current b G table, now - 120 < c.lastUpdated) :
    Sound b G now table i ⟨memory, .merged before rows⟩ stage := by
  refine
    { h with
      cold := fun hc => nomatch hc
      flushing := fun hs => ?_
      merging := fun hs => ⟨(h.merging hs).1, .inr ⟨before, rows, rfl, fun hne => ?_⟩⟩ }
  · rcases h.flushing hs with ⟨rows', htask, -⟩ | ⟨htask, -⟩ <;> cases htask
  · obtain ⟨k, c, hget, hk, hcount, hlast⟩ := (h.merging hs).1 hne
    have hrecent := hclear hs hne c (mem_current.mpr ⟨k, hget, hk, hlast⟩)
    refine ⟨⟨k.1, k.2.1, k.2.2, c.requestCount⟩, Memory.mem_rowsOf.mpr ⟨hrows.mem_iff.mpr ?_, ?_⟩, hcount⟩
    · exact Table.mem_recent.mpr ⟨k, c, hget, hrecent, rfl⟩
    · obtain ⟨htype, hkey⟩ := Prod.mk.inj hk
      rw [htype, hkey]
      exact hof

theorem mergeDone {before : ℚ} {rows : List StateRow} (h : Sound b G now table i ⟨memory, .merged before rows⟩ stage)
    (hG : ∀ g ∈ G, now - b.windowSeconds < g.time)
    (hheld : HeldBy G i → ∀ row ∈ Memory.rowsOf b rows, row.requestCount ≤ (memory.live b now).length)
    (hother : G ≠ [] → ¬HeldBy G i → (stage = .merging ∨ stage = .settled) →
      ∀ row ∈ Memory.rowsOf b rows, now - before < b.windowSeconds / (row.requestCount + 1)) (ready : Bool) :
    Sound b G now table i (Limiter.act now table ⟨memory, .merged before rows⟩ .mergeDone)
      (stage.next now ⟨memory, .merged before rows⟩ ready .mergeDone) := by
  have hdirty : (rows.foldl (Memory.mergeRow before now) memory).dirtyKeys = memory.dirtyKeys :=
    Memory.dirtyKeys_foldl (Memory.dirtyKeys_mergeRow before now) rows memory
  have hsame : HeldBy G i → (rows.foldl (Memory.mergeRow before now) memory).times b = memory.times b :=
    fun hh => Memory.times_foldl_mergeRow_of_le (hheld hh)
  have hkept : HeldBy G i → Covered b G now i ((rows.foldl (Memory.mergeRow before now) memory).times b) :=
    fun hh => hsame hh ▸ h.kept hh
  have hlive : (stage = .merging ∨ stage = .settled) →
      G.length ≤ ((rows.foldl (Memory.mergeRow before now) memory).live b now).length := by
    intro hs
    by_cases hh : HeldBy G i
    · rw [Memory.live, hsame hh]
      exact length_le_live (h.kept hh) hG
    · by_cases hne : G = []
      · rw [hne]
        exact Nat.zero_le _
      · obtain ⟨hkeep, hrows⟩ := Memory.live_foldl_mergeRow (m := memory) (hother hne hh hs)
        rcases hs with hs | hs
        · rcases (h.merging hs).2 with ⟨before', htask⟩ | ⟨before', rows', htask, hrow⟩
          · cases htask
          · obtain ⟨rfl, rfl⟩ := Task.merged.inj htask
            obtain ⟨row, hmem, hcount⟩ := hrow hne
            exact hcount.trans (hrows row hmem)
        · exact (h.settled hs).trans hkeep
  have hnot : stage ≠ .flushing := by
    rintro rfl
    rcases h.flushing rfl with ⟨rows', htask, -⟩ | ⟨htask, -⟩ <;> cases htask
  unfold Limiter.act Stage.next
  dsimp only
  split
  · rename_i hs
    exact
      { kept := hkept
        cold := (by rintro ⟨⟩)
        marked := (by rintro ⟨⟩)
        flushing := (by rintro ⟨⟩)
        written := fun _ hh => h.written (by rw [hs]; rfl) hh
        merging := (by rintro ⟨⟩)
        settled := fun _ => hlive (.inl hs) }
  · rename_i hs
    exact
      { kept := hkept
        cold := (by rintro ⟨⟩)
        marked := fun hs' hh => hdirty ▸ h.marked hs' hh
        flushing := fun hs' => absurd hs' hnot
        written := h.written
        merging := fun hs' => absurd hs' hs
        settled := fun hs' => hlive (.inr hs') }

theorem of_memory {l l' : Limiter} (h : Sound b G now table i l stage) (hmemory : l'.memory = l.memory)
    (hcold : l'.task.cold = true → stage = .pending) (hflushing : stage ≠ .flushing) (hmerging : stage ≠ .merging) :
    Sound b G now table i l' stage where
  kept := hmemory ▸ h.kept
  cold := hcold
  marked := hmemory ▸ h.marked
  flushing hs := absurd hs hflushing
  written := h.written
  merging hs := absurd hs hmerging
  settled := hmemory ▸ h.settled

/-- An instance that holds none of the requests and has just been started. -/
theorem of_not_heldBy {l : Limiter} (hheld : ¬HeldBy G i) : Sound b G now table i l .pending where
  kept hh := absurd hh hheld
  cold _ := rfl
  marked _ hh := absurd hh hheld
  flushing hs := nomatch hs
  written hs := nomatch hs
  merging hs := nomatch hs
  settled hs := nomatch hs

theorem fail {task : Task} (h : Sound b G now table i ⟨memory, task⟩ stage) :
    Sound b G now table i ⟨memory, .idle⟩
      (if stage = .flushing then .pending else if stage = .merging then .flushed else stage) := by
  cases stage with
  | flushing =>
    exact
      { kept := h.kept
        cold := fun hc => nomatch hc
        marked := fun _ => h.marked rfl
        flushing := fun hs => nomatch hs
        written := fun hs => nomatch hs
        merging := fun hs => nomatch hs
        settled := fun hs => nomatch hs }
  | merging =>
    exact
      { kept := h.kept
        cold := fun hc => nomatch hc
        marked := fun hs => nomatch hs
        flushing := fun hs => nomatch hs
        written := fun _ => h.written rfl
        merging := fun hs => nomatch hs
        settled := fun hs => nomatch hs }
  | _ => exact h.of_memory rfl (fun hc => nomatch hc) (fun hs => nomatch hs) (fun hs => nomatch hs)

/-- **An act that keeps clear.** -/
theorem act {l : Limiter} (h : Sound b G now table i l stage) (hof : Bucket.ofRow b.type b.key = some b)
    (hG : ∀ g ∈ G, now - b.windowSeconds < g.time ∧ g.time ≤ now) {ready : Bool}
    (hready : ready = true → G ≠ [] → Written b G table) (a : Act) (hclear : ClearAct b G now table i l stage a)
    (hwrite : G ≠ [] → Written b G table → Written b G (l.write now table a)) :
    Sound b G now (l.write now table a) i (l.act now table a) (stage.next now l ready a) := by
  have hwindow := fun g hg => (hG g hg).1
  have hpast := fun g hg => (hG g hg).2
  obtain ⟨memory, task⟩ := l
  cases a with
  | hydrateStart =>
    cases task with
    | starting =>
      have hs := h.cold rfl
      subst hs
      exact h.of_memory rfl (fun _ => rfl) (fun hs => nomatch hs) (fun hs => nomatch hs)
    | _ => exact h
  | hydrateFetch rows =>
    cases task with
    | hydrating before =>
      have hs := h.cold rfl
      subst hs
      unfold Limiter.act
      dsimp only
      split
      · exact h.of_memory rfl (fun _ => rfl) (fun hs => nomatch hs) (fun hs => nomatch hs)
      · exact h
    | _ => exact h
  | hydrateDone =>
    cases task with
    | hydrated before rows =>
      have hs := h.cold rfl
      subst hs
      exact of_not_heldBy (hclear rfl)
    | _ => exact h
  | flushStart =>
    cases task with
    | idle => exact h.flushStart hwindow ready
    | _ => exact h
  | flushWrite =>
    cases task with
    | flushing rows => exact h.flushWrite hpast hwrite
    | _ => exact h
  | flushDone =>
    cases task with
    | flushed => exact h.flushDone (hclear rfl) ready
    | _ => exact h
  | mergeStart =>
    cases task with
    | idle => exact h.mergeStart hready
    | _ => exact h
  | mergeFetch rows =>
    cases task with
    | merging before =>
      unfold Limiter.act
      dsimp only
      split
      · rename_i hrows
        exact h.mergeFetch hof hrows hclear
      · exact h
    | _ => exact h
  | mergeDone =>
    cases task with
    | merged before rows => exact h.mergeDone hwindow (hclear _ rfl).1 (hclear _ rfl).2 ready
    | _ => exact h
  | fail =>
    cases task with
    | starting => exact h
    | _ => exact h.fail
  | restart => exact of_not_heldBy hclear

theorem of_times {l : Limiter} {memory' : Memory} (h : Sound b G now table i l stage)
    (hG : ∀ g ∈ G, now - b.windowSeconds < g.time)
    (htimes : memory'.times b = l.memory.times b ∨ memory'.times b = l.memory.live b now)
    (hdirty : l.memory.dirtyKeys ⊆ memory'.dirtyKeys) : Sound b G now table i { l with memory := memory' } stage := by
  have hlive : memory'.live b now = l.memory.live b now := by
    rcases htimes with htimes | htimes
    · rw [Memory.live, htimes, Memory.live]
    · rw [Memory.live, htimes, Memory.live, cleanBucket, cleanBucket, List.filter_filter]
      simp only [Bool.and_self]
  have hkept : HeldBy G i → Covered b G now i (memory'.times b) := by
    intro hh
    rcases htimes with htimes | htimes
    · exact htimes ▸ h.kept hh
    · exact htimes ▸ covered_live (h.kept hh) hG
  exact
    { h with
      kept := hkept
      marked := fun hs hh => hdirty (h.marked hs hh)
      settled := fun hs => hlive ▸ h.settled hs }

/-- Time passes: there are fewer requests in the window. -/
theorem of_sublist {l : Limiter} {G' : List (Grant ι)} {now' : ℚ} (h : Sound b G now table i l stage)
    (hsub : G'.Sublist G) (hheld : HeldBy G' i → HeldBy G i)
    (hkept : HeldBy G' i → Covered b G' now' i (l.memory.times b))
    (hsettled : stage = .settled → G'.length ≤ (l.memory.live b now').length) :
    Sound b G' now' table i l stage := by
  have hne : G' ≠ [] → G ≠ [] := fun hne hnil => hne (by rw [hnil] at hsub; exact List.sublist_nil.mp hsub)
  have hwritten : Written b G table → Written b G' table := by
    rintro ⟨k, c, hget, hk, hcount, hlast⟩
    exact ⟨k, c, hget, hk, hsub.length_le.trans hcount, fun g hg => hlast g (hsub.subset hg)⟩
  exact
    { kept := hkept
      cold := h.cold
      marked := fun hs hh => h.marked hs (hheld hh)
      flushing := fun hs => by
        rcases h.flushing hs with ⟨rows, htask, hrow⟩ | ⟨htask, hw⟩
        · refine .inl ⟨rows, htask, fun hh => ?_⟩
          obtain ⟨row, hmem, hmark, hcount⟩ := hrow (hheld hh)
          exact ⟨row, hmem, hmark, hsub.length_le.trans hcount⟩
        · exact .inr ⟨htask, fun hh => hwritten (hw (hheld hh))⟩
      written := fun hs hh => hwritten (h.written hs (hheld hh))
      merging := fun hs => by
        obtain ⟨hw, htask⟩ := h.merging hs
        refine ⟨fun hne' => hwritten (hw (hne hne')), htask.imp_right ?_⟩
        rintro ⟨before, rows, htask, hrow⟩
        refine ⟨before, rows, htask, fun hne' => ?_⟩
        obtain ⟨row, hmem, hcount⟩ := hrow (hne hne')
        exact ⟨row, hmem, hsub.length_le.trans hcount⟩
      settled := hsettled }

end Sound

end Watched

end FavoniusBackend.Security.RateLimiter
