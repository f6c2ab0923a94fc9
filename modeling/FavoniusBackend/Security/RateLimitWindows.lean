import FavoniusBackend.Lib.Answers
import FavoniusBackend.Lib.SlidingWindow
import FavoniusBackend.Security.RateLimitRuns

/-!
# The rate limiter without a database

A check reads the clock up to three times: when it drops the old times of its bucket, when it stamps a request that it
admits, and when it answers with an empty bucket.  What a bucket holds are the admitted times after the cut-off of its
last check, so a check counts exactly the requests of its bucket that were admitted in the window before it, and the
admitted times are paced (`Lib.SlidingWindow`).
-/

namespace FavoniusBackend.Security.RateLimiter

open Lib

structure Check where
  request : Request
  cleaned : ℚ
  appended : ℚ
  answered : ℚ
  deriving DecidableEq, Repr

namespace Check

def bucket (c : Check) : Bucket := c.request.bucket

def cutoff (c : Check) : ℚ := c.cleaned - c.bucket.windowSeconds

def run (config : RateLimitConfig) (m : Memory) (c : Check) : RateLimitResult × Memory :=
  let bucket := m.live c.bucket c.cleaned
  if c.bucket.limit config ≤ bucket.length then
    (makeResult false bucket (c.bucket.limit config) c.bucket.windowSeconds c.answered,
      m.setBucket c.bucket bucket)
  else
    (makeResult true (bucket ++ [c.appended]) (c.bucket.limit config) c.bucket.windowSeconds c.answered,
      (m.setBucket c.bucket (bucket ++ [c.appended])).markDirty c.bucket)

end Check

abbrev Entry := Check × RateLimitResult

/-- The process, at the time of its last reading. -/
structure Process where
  clock : ℚ
  memory : Memory := {}

def Process.step (config : RateLimitConfig) (p : Process) (c : Check) : Process × RateLimitResult :=
  ({ clock := c.answered, memory := (c.run config p.memory).2 }, (c.run config p.memory).1)

def runChecks (config : RateLimitConfig) (clock : ℚ) (checks : List Check) : List Entry :=
  Answers.answers (Process.step config) { clock := clock } checks

/-- The clock does not go back during a check, nor since the one before it. -/
def Timely (p : Process) (c : Check) : Prop :=
  p.clock ≤ c.cleaned ∧ c.cleaned ≤ c.appended ∧ c.appended ≤ c.answered

instance (p : Process) (c : Check) : Decidable (Timely p c) := inferInstanceAs (Decidable (_ ∧ _ ∧ _))

def InOrder (config : RateLimitConfig) (clock : ℚ) (checks : List Check) : Prop :=
  Run.Along (Answers.next (Process.step config)) Timely { clock := clock } checks

instance (config : RateLimitConfig) (clock : ℚ) (checks : List Check) : Decidable (InOrder config clock checks) :=
  inferInstanceAs (Decidable (Run.Along _ _ _ _))

/-- How many requests a limit admits in a window; a negative one admits none, as zero does. -/
def Bucket.allowance (config : RateLimitConfig) (b : Bucket) : ℕ := (b.limit config).toNat

def admitted (b : Bucket) (log : List Entry) : List ℚ :=
  log.filterMap fun e => if e.2.allowed ∧ e.1.bucket = b then some e.1.appended else none

def inWindow (c : Check) (log : List Entry) : List ℚ := SlidingWindow.after c.cutoff (admitted c.bucket log)

/-- The answer is right after what came before it: a request is denied only where exactly the allowance was admitted in
the window, and what remains is the allowance less what was admitted in it, the request included. -/
def AnswerFits (config : RateLimitConfig) (past : List Entry) (e : Entry) : Prop :=
  (e.2.allowed = false → (inWindow e.1 past).length = e.1.bucket.allowance config) ∧
    e.2.remaining = (e.1.bucket.allowance config : ℤ) - (inWindow e.1 (past ++ [e])).length

/-! ## One check -/

@[simp] theorem admitted_append (b : Bucket) (log log' : List Entry) :
    admitted b (log ++ log') = admitted b log ++ admitted b log' := List.filterMap_append ..

theorem admitted_singleton (b : Bucket) (e : Entry) :
    admitted b [e] = if e.2.allowed ∧ e.1.bucket = b then [e.1.appended] else [] := by
  rw [admitted]
  split <;> rename_i h <;> simp [h]

theorem allowed_run (config : RateLimitConfig) (m : Memory) (c : Check) :
    (c.run config m).1.allowed = false ↔ c.bucket.limit config ≤ (m.live c.bucket c.cleaned).length := by
  unfold Check.run
  dsimp only
  split
  · rename_i h
    exact iff_of_true rfl h
  · rename_i h
    exact iff_of_false Bool.noConfusion h

theorem times_run (config : RateLimitConfig) (m : Memory) (c : Check) (b : Bucket) :
    (c.run config m).2.times b =
      if b = c.bucket then
        m.live c.bucket c.cleaned ++ (if (c.run config m).1.allowed then [c.appended] else [])
      else m.times b := by
  unfold Check.run
  dsimp only
  split
  · rw [Memory.times_setBucket]
    simp [makeResult]
  · rw [Memory.times_markDirty, Memory.times_setBucket]
    simp [makeResult]

theorem remaining_run (config : RateLimitConfig) (m : Memory) (c : Check) :
    (c.run config m).1.remaining = max 0 (c.bucket.limit config - ((c.run config m).2.times c.bucket).length) := by
  rw [times_run, if_pos rfl]
  unfold Check.run
  dsimp only
  split <;> simp [makeResult]

/-! ## What a limiter remembers -/

/-- After the entries of a log: no admitted time is after `now`, a bucket has the admitted times after some cut-off at
least one window before it, and these are paced. -/
structure Remembers (config : RateLimitConfig) (now : ℚ) (log : List Entry) (m : Memory) : Prop where
  past : ∀ b, ∀ t ∈ admitted b log, t ≤ now
  times : ∀ b, ∃ cutoff ≤ now - b.windowSeconds, m.times b = SlidingWindow.after cutoff (admitted b log)
  paced : ∀ b, SlidingWindow.Paced (b.allowance config) b.windowSeconds (admitted b log)

namespace Remembers

variable {config : RateLimitConfig} {now : ℚ} {log : List Entry} {m : Memory} {c : Check}

theorem start (config : RateLimitConfig) (now : ℚ) : Remembers config now [] {} where
  past := fun _ _ ht => nomatch ht
  times b := ⟨now - b.windowSeconds, le_rfl, rfl⟩
  paced := fun _ => SlidingWindow.paced_nil _ _

theorem mono (h : Remembers config now log m) {later : ℚ} (hlater : now ≤ later) : Remembers config later log m where
  past := fun b t ht => (h.past b t ht).trans hlater
  times := by
    intro b
    obtain ⟨cutoff, hcutoff, htimes⟩ := h.times b
    exact ⟨cutoff, by linarith, htimes⟩
  paced := h.paced

/-- What a check counts are the requests of its bucket that were admitted in the window before it. -/
theorem live_eq (h : Remembers config now log m) (hnow : now ≤ c.cleaned) :
    m.live c.bucket c.cleaned = inWindow c log := by
  obtain ⟨cutoff, hcutoff, htimes⟩ := h.times c.bucket
  show SlidingWindow.after (c.cleaned - c.bucket.windowSeconds) (m.times c.bucket) = _
  rw [htimes]
  apply SlidingWindow.after_after
  linarith

theorem length_inWindow_le (h : Remembers config now log m) (hnow : now ≤ c.cleaned) :
    (inWindow c log).length ≤ c.bucket.allowance config := by
  have heq : inWindow c log =
      (admitted c.bucket log).filter fun s => c.cutoff < s ∧ s ≤ c.cutoff + c.bucket.windowSeconds := by
    apply List.filter_congr
    intro t ht
    have hle : t ≤ c.cutoff + c.bucket.windowSeconds := by
      rw [Check.cutoff, sub_add_cancel]
      exact (h.past c.bucket t ht).trans hnow
    simp [hle]
  rw [heq]
  exact (h.paced c.bucket).ioc c.cutoff

theorem allowed_iff (h : Remembers config now log m) (hnow : now ≤ c.cleaned) :
    (c.run config m).1.allowed ↔ (inWindow c log).length < c.bucket.allowance config := by
  have hdenied := allowed_run config m c
  rw [h.live_eq hnow] at hdenied
  rw [← Bool.not_eq_false, hdenied, Bucket.allowance]
  omega

theorem times_bucket (h : Remembers config now log m) (hnow : now ≤ c.cleaned) (hstamp : c.cleaned ≤ c.appended) :
    (c.run config m).2.times c.bucket = inWindow c (log ++ [(c, (c.run config m).1)]) := by
  have hcutoff : c.cutoff < c.appended := by
    have := c.bucket.windowSeconds_pos
    rw [Check.cutoff]
    linarith
  rw [times_run, if_pos rfl, h.live_eq hnow, inWindow, inWindow, admitted_append, SlidingWindow.after_append,
    admitted_singleton]
  congr 1
  split
  · rename_i hallowed
    simp [hallowed, SlidingWindow.after, hcutoff]
  · rename_i hallowed
    simp [hallowed]

theorem run (h : Remembers config now log m) (hnow : now ≤ c.cleaned) (hstamp : c.cleaned ≤ c.appended) :
    Remembers config c.appended (log ++ [(c, (c.run config m).1)]) (c.run config m).2 where
  past := by
    intro b t ht
    rw [admitted_append, List.mem_append, admitted_singleton] at ht
    obtain ht | ht := ht
    · exact (h.past b t ht).trans (hnow.trans hstamp)
    · split at ht
      · rw [List.mem_singleton.mp ht]
      · cases ht
  times b := by
    by_cases hb : b = c.bucket
    · subst hb
      refine ⟨c.cutoff, ?_, h.times_bucket hnow hstamp⟩
      rw [Check.cutoff]
      linarith
    · obtain ⟨cutoff, hcutoff, htimes⟩ := h.times b
      refine ⟨cutoff, by linarith, ?_⟩
      rw [times_run, if_neg hb, htimes, admitted_append, admitted_singleton, if_neg fun h' => hb h'.2.symm,
        List.append_nil]
  paced b := by
    rw [admitted_append, admitted_singleton]
    split
    · rename_i hadmitted
      obtain ⟨hallowed, rfl⟩ := hadmitted
      have hcutoff : c.cutoff ≤ c.appended - c.bucket.windowSeconds := by
        rw [Check.cutoff]
        linarith
      exact (h.paced c.bucket).append hcutoff ((h.allowed_iff hnow).mp hallowed)
    · rw [List.append_nil]
      exact h.paced b

theorem answerFits (h : Remembers config now log m) (hnow : now ≤ c.cleaned) (hstamp : c.cleaned ≤ c.appended) :
    AnswerFits config log (c, (c.run config m).1) := by
  constructor
  · intro hdenied
    have hle := h.length_inWindow_le hnow
    have hnlt := mt (h.allowed_iff hnow).mpr (Bool.not_eq_true _ |>.mpr hdenied)
    show (inWindow c log).length = c.bucket.allowance config
    omega
  · have hle := h.length_inWindow_le hnow
    have hallowed := h.allowed_iff hnow
    have hlength : (inWindow c (log ++ [(c, (c.run config m).1)])).length =
        (inWindow c log).length + if (c.run config m).1.allowed then 1 else 0 := by
      rw [← h.times_bucket hnow hstamp, times_run, if_pos rfl, h.live_eq hnow, List.length_append]
      split <;> rfl
    show (c.run config m).1.remaining = _
    rw [remaining_run, h.times_bucket hnow hstamp]
    -- with its own request, the window holds no more than the allowance
    have hbound : (inWindow c (log ++ [(c, (c.run config m).1)])).length ≤ c.bucket.allowance config := by
      rw [hlength]
      split
      · rename_i h
        exact hallowed.mp h
      · exact hle
    show max 0 (c.bucket.limit config - _) = (c.bucket.allowance config : ℤ) - _
    rw [Bucket.allowance] at hbound ⊢
    dsimp only
    omega

end Remembers

/-! ## Runs -/

theorem Remembers.step {config : RateLimitConfig} {log : List Entry} {p : Process} {c : Check}
    (h : Remembers config p.clock log p.memory) (htimely : Timely p c) :
    AnswerFits config log (c, (p.step config c).2) ∧
      Remembers config (p.step config c).1.clock (log ++ [(c, (p.step config c).2)]) (p.step config c).1.memory := by
  obtain ⟨hnow, hstamp, hanswered⟩ := htimely
  exact ⟨h.answerFits hnow hstamp, (h.run hnow hstamp).mono hanswered⟩

theorem runChecks_filter (config : RateLimitConfig) (clock : ℚ) (b : Bucket) (checks : List Check) :
    ((runChecks config clock checks).filter fun e => e.1.bucket = b) =
      runChecks config clock (checks.filter fun c => c.bucket = b) := by
  let SameBucket (p p' : Process) : Prop := p.memory.times b = p'.memory.times b
  have hmine : ∀ (p p' : Process) (c : Check), True → SameBucket p p' → decide (c.bucket = b) = true →
      (p.step config c).2 = (p'.step config c).2 ∧
        SameBucket (Answers.next (Process.step config) p c) (Answers.next (Process.step config) p' c) := by
    intro p p' c _ hsame hb
    have hb := of_decide_eq_true hb
    have hlive : p.memory.live c.bucket c.cleaned = p'.memory.live c.bucket c.cleaned := by
      rw [Memory.live, Memory.live, hb, hsame]
    have hanswer : (c.run config p.memory).1 = (c.run config p'.memory).1 := by
      unfold Check.run
      dsimp only
      rw [hlive]
      split <;> rfl
    refine ⟨hanswer, ?_⟩
    show (c.run config p.memory).2.times b = (c.run config p'.memory).2.times b
    rw [times_run, times_run, hlive, hanswer, hsame]
  have hother : ∀ (p p' : Process) (c : Check), True → SameBucket p p' → decide (c.bucket = b) = false →
      SameBucket (Answers.next (Process.step config) p c) p' := by
    intro p p' c _ hsame hb
    have hb := of_decide_eq_false hb
    show (c.run config p.memory).2.times b = p'.memory.times b
    rw [times_run, if_neg (Ne.symm hb), hsame]
  exact Answers.answers_filter hmine hother (Run.Along.of_forall fun _ _ => trivial) rfl

/-- **The limits of a limiter without a database.**  Of any checks in the order of the clock: in each half-open interval
of one window length at most the allowance of a bucket is admitted; a request is denied only where exactly the allowance
was admitted in the window before it, and what remains is the allowance less what was admitted there; and the answers
are those that each bucket gets alone. -/
theorem limits_hold (config : RateLimitConfig) (clock : ℚ) (checks : List Check) (h : InOrder config clock checks) :
    (∀ b t,
      ((admitted b (runChecks config clock checks)).filter fun s => t ≤ s ∧ s < t + b.windowSeconds).length ≤
          b.allowance config ∧
        ((admitted b (runChecks config clock checks)).filter fun s => t < s ∧ s ≤ t + b.windowSeconds).length ≤
          b.allowance config) ∧
    (∀ past e rest, runChecks config clock checks = past ++ e :: rest → AnswerFits config past e) ∧
    ∀ b, ((runChecks config clock checks).filter fun e => e.1.bucket = b) =
      runChecks config clock (checks.filter fun c => c.bucket = b) := by
  have hstep : ∀ (log : List Entry) (p : Process) (c : Check), Timely p c → Remembers config p.clock log p.memory →
      AnswerFits config log (c, (p.step config c).2) ∧
        Remembers config (Answers.next (Process.step config) p c).clock (log ++ [(c, (p.step config c).2)])
          (Answers.next (Process.step config) p c).memory :=
    fun log p c htimely hinv => hinv.step htimely
  obtain ⟨hfits, hend⟩ := Answers.answers_rule hstep h (Remembers.start config clock)
  exact ⟨fun b t => ⟨(hend.paced b).ico t, (hend.paced b).ioc t⟩, hfits, fun b => runChecks_filter config clock b checks⟩

/-- Three requests of one client, the second one too early, under a limit of one. -/
theorem limits_hold_three :
    InOrder { apiRequestsPerMinute := 1 } 0
        [⟨.api ['c'], 0, 0, 0⟩, ⟨.api ['c'], 30, 30, 30⟩, ⟨.api ['c'], 60, 60, 60⟩] ∧
      ∀ past e rest,
        runChecks { apiRequestsPerMinute := 1 } 0
            [⟨.api ['c'], 0, 0, 0⟩, ⟨.api ['c'], 30, 30, 30⟩, ⟨.api ['c'], 60, 60, 60⟩] = past ++ e :: rest →
          AnswerFits { apiRequestsPerMinute := 1 } past e :=
  ⟨by decide +kernel, (limits_hold { apiRequestsPerMinute := 1 } 0 _ (by decide +kernel)).2.1⟩

end FavoniusBackend.Security.RateLimiter
