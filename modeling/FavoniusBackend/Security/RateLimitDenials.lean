import FavoniusBackend.Security.RateLimitRuns

/-!
# Denials

No time that an instance or the table holds lies ahead of the clock (`Timely`).  Nothing bounds their age: the stand-ins
of a merge are new, and the next flush writes them again.  So a client is denied long after its last requests
(`denied_without_requests`).
-/

namespace FavoniusBackend.Security.RateLimiter

open Lib

namespace World

variable {ι : Type} [DecidableEq ι]

/-! ## Times lie in the past -/

/-- No time of an instance lies ahead. -/
structure LimiterTimely (now : ℚ) (l : Limiter) : Prop where
  times : ∀ b, ∀ t ∈ l.memory.times b, t ≤ now
  since : ∀ before, l.task.since = some before → before ≤ now

structure Timely (w : World ι) : Prop where
  limiters : ∀ i, LimiterTimely w.clock (w.limiters i)
  table : ∀ k c, w.table.get? k = some c → c.lastUpdated ≤ w.clock
  granted : ∀ g ∈ w.granted, g.time ≤ w.clock

omit [DecidableEq ι] in
theorem timely_start (clock : ℚ) : Timely ({ clock := clock } : World ι) where
  limiters i :=
    { times := fun b t ht => nomatch ht
      since := fun before h => nomatch h }
  table k c hget := by cases hget
  granted g hg := nomatch hg

theorem mem_times_checkLimit {config : RateLimitConfig} {m : Memory} {b b' : Bucket} {now t : ℚ}
    (h : t ∈ (m.checkLimit config b now).2.times b') : t ∈ m.times b' ∨ t = now ∧ b' = b := by
  rw [Memory.times_checkLimit] at h
  split at h
  · rename_i hb
    subst hb
    rcases List.mem_append.mp h with hlive | hnew
    · exact .inl (m.live_subset b' now hlive)
    · split at hnew
      · exact .inr ⟨List.mem_singleton.mp hnew, rfl⟩
      · cases hnew
  · exact .inl h

theorem LimiterTimely.act {now : ℚ} {l : Limiter} (h : LimiterTimely now l) (table : Table) (a : Act) :
    LimiterTimely now (l.act now table a) where
  times b t ht := by
    rcases Limiter.times_act now table l a b with hsame | hnil | ⟨before, hsince, row, -, -, hnew⟩
    · rw [hsame] at ht
      exact h.times b t ht
    · rw [hnil] at ht
      cases ht
    · rw [hnew] at ht
      exact (Memory.mem_generateSyntheticTimestamps b.windowSeconds_pos ht).2.le.trans (h.since before hsince)
  since before hbefore := by
    rcases Limiter.since_act now table l a hbefore with hold | rfl
    · exact h.since before hold
    · exact le_rfl

theorem Timely.step {w : World ι} (h : Timely w) (config : RateLimitConfig) (op : Op ι) :
    Timely (w.step config op) := by
  have hclock := clock_le_step config w op
  refine ⟨fun j => ?_, fun k c hget => ?_, fun g hg => ?_⟩
  · rcases limiters_step config w op j with hlim | ⟨request, rfl, hlim⟩ | ⟨a, rfl, hlim⟩
    · rw [hlim]
      exact ⟨fun b t ht => ((h.limiters j).times b t ht).trans hclock,
        fun before hb => ((h.limiters j).since before hb).trans hclock⟩
    · rw [hlim]
      refine ⟨fun b t ht => ?_, fun before hb => ((h.limiters j).since before hb).trans hclock⟩
      rcases mem_times_checkLimit ht with hold | ⟨rfl, -⟩
      · exact ((h.limiters j).times b t hold).trans hclock
      · exact hclock
    · rw [hlim]
      exact (h.limiters j).act w.table a
  · rcases table_step config w hget with hold | ⟨hlast, -⟩
    · exact (h.table k c hold).trans hclock
    · rw [hlast]
      exact hclock
  · rcases granted_step config w op with hsame | ⟨i, request, -, -, hcons⟩
    · rw [hsame] at hg
      exact (h.granted g hg).trans hclock
    · rw [hcons] at hg
      rcases List.mem_cons.mp hg with rfl | hold
      · exact hclock
      · exact (h.granted g hold).trans hclock

/-! ## Counts that outlive their requests -/

def flushRound (i : ι) : List (Op ι) := [Op.act i .flushStart, Op.act i .flushWrite, Op.act i .flushDone]

def mergeRound (i : ι) (rows : List StateRow) : List (Op ι) :=
  [Op.act i .mergeStart, Op.act i (.mergeFetch rows), Op.act i .mergeDone]

/-- Ten requests of a client in one second, which a flush writes and nothing reads yet. -/
def burst : List (Op Unit) :=
  [Op.act () .hydrateStart, Op.act () (.hydrateFetch []), Op.act () .hydrateDone, Op.advance 1] ++
    List.replicate 10 (Op.check () (.optimize ['c'])) ++ [Op.advance 14] ++ flushRound ()

def burstRow (windowStart : ℚ) : StateRow := ⟨.optimize, ['c'], windowStart, 10⟩

def merged (ops : List (Op Unit)) (windowStart : ℚ) : List (Op Unit) :=
  ops ++ mergeRound () [burstRow windowStart] ++ [Op.advance 5]

/-- Nine times a merge, one request six seconds later and its flush, two minutes apart. -/
def trickle : List (Op Unit) :=
  burst ++ [Op.advance 119] ++ [0, 60, 180, 300, 420, 540, 660, 780, 900].flatMap fun windowStart =>
    mergeRound () [burstRow windowStart] ++ [Op.advance 6, Op.check () (.optimize ['c'])] ++ flushRound () ++
      [Op.advance 119]

def grantedWithin (w : World ι) (b : Bucket) (windows : ℚ) : List (Grant ι) :=
  w.granted.filter fun g => decide (g.bucket = b ∧ w.clock - windows * b.windowSeconds < g.time)

/-- Two minutes after ten requests, their own row is merged and the next request is denied, though none was admitted in
the last two windows.  One request in two minutes is enough to carry the ten on for twenty minutes. -/
theorem denied_without_requests :
    (∃ w : World Unit, w = Run.run (step {}) { clock := 0 } (merged (burst ++ [Op.advance 105]) 0) ∧
      (w.answer {} () (.optimize ['c'])).allowed = false ∧ w.grantedWithin (.optimize ['c']) 2 = []) ∧
    ∃ w : World Unit, w = Run.run (step {}) { clock := 0 } (merged trickle 1080) ∧
      (w.answer {} () (.optimize ['c'])).allowed = false ∧ (w.grantedWithin (.optimize ['c']) 18).length < 10 := by
  refine ⟨⟨_, rfl, ?_⟩, ⟨_, rfl, ?_⟩⟩
  · decide +kernel
  · decide +kernel

end World

end FavoniusBackend.Security.RateLimiter
