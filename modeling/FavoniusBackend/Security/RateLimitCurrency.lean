import FavoniusBackend.Security.RateLimitDenials

/-!
# Denials while the rows are current

A row says in which window its first request lies, and a merge reads that and does not look at it.  As long as the rows
that are taken for present ones are of the window that ends or of the last one, a count never stands for requests that
are older than two windows: what an instance counts in a window was admitted in the last two (`denied_of_current`).
The argument follows a count through the table: it counts requests since the beginning of the window that it is
written under (`Since`), and so do the stand-ins that a current row is read into.
-/

namespace FavoniusBackend.Security.RateLimiter

open Lib

/-! ## Rows that are taken -/

/-- The bucket is the one that its own rows are read into: no colon in the id of the first depot. -/
def Bucket.readsBack (b : Bucket) : Bool := decide (Bucket.ofRow b.type b.key = some b)

theorem Bucket.eq_of_mark {b b' : Bucket} (hb : b.readsBack = true) (hb' : b'.readsBack = true)
    (h : b.mark = b'.mark) : b = b' := by
  obtain ⟨htype, hkey⟩ := Prod.mk.inj h
  have hof := of_decide_eq_true hb
  rw [htype, hkey, of_decide_eq_true hb'] at hof
  exact (Option.some.inj hof).symm

/-- The row is of a window that had not ended a window before `now`. -/
def StateRow.current (now : ℚ) (row : StateRow) : Bool :=
  (Bucket.ofRow row.bucketType row.bucketKey).all fun b => decide (now - b.windowSeconds ≤ row.windowStart)

namespace Memory

/-- The rows of a merge that are taken: at their turn, they count more than the instance does. -/
def taken (now later : ℚ) : Memory → List StateRow → List StateRow
  | _, [] => []
  | m, row :: rows =>
    if (Bucket.ofRow row.bucketType row.bucketKey).any fun b => decide ((m.live b later).length < row.requestCount)
    then row :: taken now later (mergeRow now later m row) rows
    else taken now later (mergeRow now later m row) rows

theorem times_merge (now later : ℚ) (b : Bucket) (rows : List StateRow) (m : Memory) :
    (rows.foldl (mergeRow now later) m).times b = m.times b ∨
      ∃ row ∈ taken now later m rows, Bucket.ofRow row.bucketType row.bucketKey = some b ∧
        (rows.foldl (mergeRow now later) m).times b =
          generateSyntheticTimestamps row.requestCount b.windowSeconds now := by
  induction rows generalizing m with
  | nil => exact .inl rfl
  | cons row rows ih =>
    rw [List.foldl_cons, taken]
    rcases ih (mergeRow now later m row) with h | ⟨row', hmem, hof, h⟩
    · rw [h]
      unfold mergeRow
      cases hof : Bucket.ofRow row.bucketType row.bucketKey with
      | none => exact .inl rfl
      | some b' =>
        dsimp only
        split
        · rename_i hmore
          rw [times_setBucket]
          split
          · rename_i hb
            subst hb
            rw [Option.any_some, if_pos (decide_eq_true hmore)]
            exact .inr ⟨row, List.mem_cons_self, hof, rfl⟩
          · exact .inl rfl
        · exact .inl rfl
    · refine .inr ⟨row', ?_, hof, h⟩
      split
      · exact List.mem_cons_of_mem _ hmem
      · exact hmem

theorem times_hydrate (now : ℚ) (b : Bucket) (rows : List StateRow) (m : Memory) :
    (rows.foldl (hydrateRow now) m).times b = m.times b ∨
      ∃ row ∈ rows, Bucket.ofRow row.bucketType row.bucketKey = some b ∧
        (rows.foldl (hydrateRow now) m).times b =
          generateSyntheticTimestamps row.requestCount b.windowSeconds now := by
  induction rows generalizing m with
  | nil => exact .inl rfl
  | cons row rows ih =>
    rw [List.foldl_cons]
    rcases ih (hydrateRow now m row) with h | ⟨row', hmem, hof, h⟩
    · rw [h]
      unfold hydrateRow
      cases hof : Bucket.ofRow row.bucketType row.bucketKey with
      | none => exact .inl rfl
      | some b' =>
        dsimp only
        rw [times_setBucket]
        split
        · rename_i hb
          subst hb
          exact .inr ⟨row, List.mem_cons_self, hof, rfl⟩
        · exact .inl rfl
    · exact .inr ⟨row', List.mem_cons_of_mem _ hmem, hof, h⟩

end Memory

def Limiter.readsCurrent (l : Limiter) (now : ℚ) : Act → Bool
  | .mergeDone =>
    match l.task with
    | .merged before rows => (Memory.taken before now l.memory rows).all (StateRow.current before)
    | _ => true
  | .hydrateDone =>
    match l.task with
    | .hydrated before rows => rows.all (StateRow.current before)
    | _ => true
  | _ => true

/-! ## Counts of a window -/

def windowOf (windowSeconds t : ℚ) : ℚ := ⌊t / windowSeconds⌋ * windowSeconds

theorem windowOf_le {windowSeconds t : ℚ} (hw : 0 < windowSeconds) : windowOf windowSeconds t ≤ t := by
  have := Int.floor_le (t / windowSeconds)
  calc windowOf windowSeconds t ≤ t / windowSeconds * windowSeconds := mul_le_mul_of_nonneg_right this hw.le
    _ = t := div_mul_cancel₀ t hw.ne'

theorem lt_windowOf_add {windowSeconds t : ℚ} (hw : 0 < windowSeconds) :
    t < windowOf windowSeconds t + windowSeconds := by
  have := Int.lt_floor_add_one (t / windowSeconds)
  calc t = t / windowSeconds * windowSeconds := (div_mul_cancel₀ t hw.ne').symm
    _ < (⌊t / windowSeconds⌋ + 1) * windowSeconds := mul_lt_mul_of_pos_right this hw
    _ = windowOf windowSeconds t + windowSeconds := by rw [windowOf]; ring

theorem windowOf_le_of_lt {windowSeconds t : ℚ} {k : ℤ} (hw : 0 < windowSeconds)
    (h : t < k * windowSeconds + windowSeconds) : windowOf windowSeconds t ≤ k * windowSeconds := by
  have hfloor : ⌊t / windowSeconds⌋ < k + 1 := by
    rw [Int.floor_lt, div_lt_iff₀ hw]
    push_cast
    linarith
  refine mul_le_mul_of_nonneg_right ?_ hw.le
  exact_mod_cast Int.lt_add_one_iff.mp hfloor

/-- The times are in order, and those from `t` on are no more than what `n` counts since the window of `t`. -/
structure Since (n : ℚ → ℕ) (windowSeconds : ℚ) (times : List ℚ) : Prop where
  ordered : times.Pairwise (· ≤ ·)
  bounded : ∀ t ∈ times, (times.filter fun t' => decide (t ≤ t')).length ≤ n (windowOf windowSeconds t)

namespace Since

variable {n n' : ℚ → ℕ} {windowSeconds : ℚ} {times : List ℚ}

theorem nil : Since n windowSeconds [] := ⟨List.Pairwise.nil, by simp⟩

theorem mono (h : Since n windowSeconds times) (hn : ∀ t, n t ≤ n' t) : Since n' windowSeconds times :=
  ⟨h.ordered, fun t ht => (h.bounded t ht).trans (hn _)⟩

theorem cleanBucket (h : Since n windowSeconds times) (now : ℚ) :
    Since n windowSeconds (cleanBucket times windowSeconds now) := by
  refine ⟨h.ordered.filter _, ?_⟩
  intro t ht
  exact (((List.filter_sublist ..).filter _).length_le).trans (h.bounded t (List.mem_filter.mp ht).1)

theorem length_le {t : ℚ} (h : Since n windowSeconds (t :: times)) :
    (t :: times).length ≤ n (windowOf windowSeconds t) := by
  have hall : ((t :: times).filter fun t' => decide (t ≤ t')) = t :: times := by
    refine List.filter_eq_self.mpr ?_
    intro t' ht'
    refine decide_eq_true ?_
    rcases List.mem_cons.mp ht' with rfl | ht'
    · exact le_rfl
    · exact List.rel_of_pairwise_cons h.ordered ht'
  rw [← hall]
  exact h.bounded t List.mem_cons_self

theorem concat {now : ℚ} (h : Since n windowSeconds times) (hw : 0 < windowSeconds) (hpast : ∀ t ∈ times, t ≤ now)
    (hn : ∀ t, t ≤ now → n t + 1 ≤ n' t) : Since n' windowSeconds (times ++ [now]) := by
  have hwindow : ∀ t, t ≤ now → windowOf windowSeconds t ≤ now := fun t ht => (windowOf_le hw).trans ht
  constructor
  · refine List.pairwise_append.mpr ⟨h.ordered, List.pairwise_singleton _ _, ?_⟩
    intro t ht t' ht'
    rw [List.mem_singleton.mp ht']
    exact hpast t ht
  · intro t ht
    rw [List.filter_append, List.length_append]
    have hlast : ([now].filter fun t' => decide (t ≤ t')).length ≤ 1 := List.length_filter_le _ _
    rcases List.mem_append.mp ht with ht | ht
    · have := h.bounded t ht
      have := hn _ (hwindow t (hpast t ht))
      omega
    · obtain rfl := List.mem_singleton.mp ht
      have hone := hn _ (hwindow t le_rfl)
      by_cases hmem : t ∈ times
      · have := h.bounded t hmem
        omega
      · have hnone : (times.filter fun t' => decide (t ≤ t')) = [] := by
          refine List.filter_eq_nil_iff.mpr ?_
          intro t' ht' hle
          exact hmem (le_antisymm (of_decide_eq_true hle) (hpast t' ht') ▸ ht')
        rw [hnone, List.length_nil]
        omega

/-- The stand-ins for requests that are counted since the beginning of a window that ends no earlier than they do. -/
theorem generateSyntheticTimestamps {count : ℕ} {now : ℚ} {k : ℤ} (hw : 0 < windowSeconds)
    (hn : ∀ t t', t ≤ t' → n t' ≤ n t) (hcount : count ≤ n (k * windowSeconds))
    (hnow : now ≤ k * windowSeconds + windowSeconds) :
    Since n windowSeconds (Memory.generateSyntheticTimestamps count windowSeconds now) := by
  constructor
  · refine List.pairwise_map.mpr (List.pairwise_lt_range.imp ?_)
    intro i j hij
    have hspacing : 0 ≤ windowSeconds / ((count : ℚ) + 1) := by positivity
    have hle : (i : ℚ) + 1 ≤ j + 1 := by exact_mod_cast Nat.succ_le_succ hij.le
    linarith [mul_le_mul_of_nonneg_left hle hspacing]
  · intro t ht
    have hlt := (Memory.mem_generateSyntheticTimestamps hw ht).2
    calc _ ≤ count := (List.length_filter_le _ _).trans (Memory.length_generateSyntheticTimestamps ..).le
      _ ≤ n (k * windowSeconds) := hcount
      _ ≤ n (windowOf windowSeconds t) := hn _ _ (windowOf_le_of_lt hw (hlt.trans_le hnow))

end Since

/-! ## Every count of the world -/

theorem Bucket.windowSeconds_eq_of_type {b b' : Bucket} (h : b.type = b'.type) :
    b.windowSeconds = b'.windowSeconds := by
  cases b <;> cases b' <;> first | rfl | cases h

/-- A row counts requests since the beginning of its window. -/
structure Counts (n : BucketType × List Char → ℚ → ℕ) (type : BucketType) (bucketKey : List Char) (windowStart : ℚ)
    (count : ℕ) : Prop where
  aligned : ∀ b : Bucket, b.type = type → ∃ k : ℤ, windowStart = k * b.windowSeconds
  count : count ≤ n (type, bucketKey) windowStart

structure LimiterSince (n : BucketType × List Char → ℚ → ℕ) (l : Limiter) : Prop where
  times : ∀ b, Since (n b.mark) b.windowSeconds (l.memory.times b)
  writes : ∀ row ∈ l.task.writes, Counts n row.bucketType row.bucketKey row.windowStart row.requestCount
  reads : ∀ row ∈ l.task.reads, Counts n row.bucketType row.bucketKey row.windowStart row.requestCount

def TableSince (n : BucketType × List Char → ℚ → ℕ) (table : Table) : Prop :=
  ∀ k c, table.get? k = some c → Counts n k.1 k.2.1 k.2.2 c.requestCount

section Act

variable {n n' : BucketType × List Char → ℚ → ℕ} {l : Limiter}

theorem Counts.mono {type : BucketType} {bucketKey : List Char} {windowStart : ℚ} {count : ℕ}
    (h : Counts n type bucketKey windowStart count) (hn : ∀ mark t, n mark t ≤ n' mark t) :
    Counts n' type bucketKey windowStart count :=
  ⟨h.aligned, h.count.trans (hn _ _)⟩

theorem LimiterSince.mono (h : LimiterSince n l) (hn : ∀ mark t, n mark t ≤ n' mark t) : LimiterSince n' l where
  times b := (h.times b).mono (hn _)
  writes row hrow := (h.writes row hrow).mono hn
  reads row hrow := (h.reads row hrow).mono hn

theorem Memory.taken_subset (now later : ℚ) (rows : List StateRow) (m : Memory) : taken now later m rows ⊆ rows := by
  induction rows generalizing m with
  | nil => exact List.Subset.refl _
  | cons row rows ih =>
    rw [taken]
    split
    · exact List.cons_subset_cons row (ih _)
    · exact List.Subset.trans (ih _) (List.subset_cons_self row rows)

theorem Limiter.times_act_of_readsCurrent {now : ℚ} (table : Table) {a : Act} (h : l.readsCurrent now a = true)
    (b : Bucket) :
    (l.act now table a).memory.times b = l.memory.times b ∨ (l.act now table a).memory.times b = [] ∨
      ∃ before, ∃ row ∈ l.task.reads, Bucket.ofRow row.bucketType row.bucketKey = some b ∧
        before - b.windowSeconds ≤ row.windowStart ∧ (l.act now table a).memory.times b =
          Memory.generateSyntheticTimestamps row.requestCount b.windowSeconds before := by
  have hcurrent {before : ℚ} {row : StateRow} (hrow : row.current before = true)
      (hof : Bucket.ofRow row.bucketType row.bucketKey = some b) : before - b.windowSeconds ≤ row.windowStart := by
    rw [StateRow.current, hof] at hrow
    exact of_decide_eq_true hrow
  cases a with
  | restart => exact .inr (.inl rfl)
  | hydrateDone =>
    unfold Limiter.readsCurrent at h
    unfold Limiter.act
    dsimp only at h ⊢
    split
    · rename_i before rows htask
      rw [htask] at h ⊢
      rcases Memory.times_hydrate before b rows l.memory with hsame | ⟨row, hrow, hof, hnew⟩
      · exact .inl hsame
      · exact .inr (.inr ⟨before, row, hrow, hof, hcurrent (List.all_eq_true.mp h row hrow) hof, hnew⟩)
    · exact .inl rfl
  | mergeDone =>
    unfold Limiter.readsCurrent at h
    unfold Limiter.act
    dsimp only at h ⊢
    split
    · rename_i before rows htask
      rw [htask] at h ⊢
      rcases Memory.times_merge before now b rows l.memory with hsame | ⟨row, hrow, hof, hnew⟩
      · exact .inl hsame
      · exact .inr (.inr ⟨before, row, Memory.taken_subset _ _ _ _ hrow, hof,
          hcurrent (List.all_eq_true.mp h row hrow) hof, hnew⟩)
    · exact .inl rfl
  | _ =>
    refine .inl ?_
    unfold Limiter.act
    dsimp only
    split <;> first | rfl | (split <;> rfl)

theorem LimiterSince.act {table : Table} {now : ℚ} {a : Act} (h : LimiterSince n l) (htable : TableSince n table)
    (hn : ∀ mark t t', t ≤ t' → n mark t' ≤ n mark t) (hcurrent : l.readsCurrent now a = true) :
    LimiterSince n (l.act now table a) where
  times b := by
    rcases Limiter.times_act_of_readsCurrent table hcurrent b with
      hsame | hnil | ⟨before, row, hrow, hof, hbefore, hnew⟩
    · rw [hsame]
      exact h.times b
    · rw [hnil]
      exact Since.nil
    · rw [hnew]
      have hmark := Bucket.mark_ofRow hof
      obtain ⟨k, hk⟩ := (h.reads row hrow).aligned b (congrArg Prod.fst hmark)
      have hcount := (h.reads row hrow).count
      rw [← hmark, hk] at hcount
      exact Since.generateSyntheticTimestamps b.windowSeconds_pos (hn b.mark) hcount (by rw [hk] at hbefore; linarith)
  writes row hrow := by
    rcases Limiter.writes_act now table l a hrow with hold | hnew
    · exact h.writes row hold
    · obtain ⟨b, -, t, clean, hlive, rfl⟩ := Memory.flushRow_of_mem_collectFlushRows hnew
      have hsince := (h.times b).cleanBucket now
      rw [← Memory.live, hlive] at hsince
      refine ⟨fun b' hb' => ⟨⌊t / b.windowSeconds⌋, ?_⟩, hsince.length_le⟩
      rw [Bucket.windowSeconds_eq_of_type hb']
  reads row hrow := by
    rcases (Limiter.reads_act now table l a hrow).2 with hold | hnew
    · exact h.reads row hold
    · obtain ⟨k, c, hget, -, rfl⟩ := Table.mem_recent.mp hnew
      exact htable k c hget

end Act

/-! ## Every run -/

namespace World

variable {ι : Type}

/-- The number of requests under a mark that were admitted since `t`. -/
def grantedSince (w : World ι) (mark : BucketType × List Char) (t : ℚ) : ℕ :=
  ((w.grantedUnder mark).filter fun g => decide (t ≤ g.time)).length

theorem grantedSince_anti (w : World ι) (mark : BucketType × List Char) (t t' : ℚ) (h : t ≤ t') :
    w.grantedSince mark t' ≤ w.grantedSince mark t := by
  refine (List.monotone_filter_right _ ?_).length_le
  intro g hg
  exact decide_eq_true (h.trans (of_decide_eq_true hg))

/-- What is counted is what was admitted, in every instance and in the table. -/
structure Genuine (w : World ι) : Prop extends Timely w where
  since : ∀ i, LimiterSince w.grantedSince (w.limiters i)
  tableSince : TableSince w.grantedSince w.table
  readsBack : ∀ g ∈ w.granted, g.bucket.readsBack = true

theorem genuine_start (clock : ℚ) : Genuine ({ clock := clock } : World ι) where
  toTimely := timely_start clock
  since i :=
    { times := fun b => Since.nil
      writes := fun row hrow => by cases hrow
      reads := fun row hrow => by cases hrow }
  tableSince k c hget := by cases hget
  readsBack g hg := by cases hg

variable [DecidableEq ι]

/-- Requests have keys that read back, and the rows that a merge or a cold start takes are current. -/
def Clear (w : World ι) : Op ι → Bool
  | .check _ request => request.bucket.readsBack
  | .act i a => (w.limiters i).readsCurrent w.clock a
  | _ => true

theorem grantedSince_le_step (config : RateLimitConfig) (w : World ι) (op : Op ι) (mark : BucketType × List Char)
    (t : ℚ) : w.grantedSince mark t ≤ (w.step config op).grantedSince mark t := by
  unfold grantedSince grantedUnder
  rcases granted_step config w op with h | ⟨i, request, -, -, h⟩
  · rw [h]
  · rw [h]
    exact (((List.sublist_cons_self _ _).filter _).filter _).length_le

theorem grantedSince_check {config : RateLimitConfig} {w : World ι} {i : ι} {request : Request}
    (h : (w.answer config i request).allowed = true) {t : ℚ} (ht : t ≤ w.clock) :
    w.grantedSince request.bucket.mark t + 1 ≤
      (w.step config (.check i request)).grantedSince request.bucket.mark t := by
  unfold grantedSince grantedUnder
  rw [step_check, if_pos h, List.filter_cons_of_pos (by simp), List.filter_cons_of_pos (by simpa using ht),
    List.length_cons]

theorem limiterSince_check {w : World ι} {i : ι} (h : LimiterSince w.grantedSince (w.limiters i))
    (htimely : LimiterTimely w.clock (w.limiters i)) (config : RateLimitConfig) (request : Request) :
    LimiterSince (w.step config (.check i request)).grantedSince
      { w.limiters i with
        memory := ((w.limiters i).memory.checkLimit config request.bucket w.clock).2 } := by
  have hgrow := grantedSince_le_step config w (.check i request)
  refine ⟨fun b => ?_, (h.mono hgrow).writes, (h.mono hgrow).reads⟩
  rw [Memory.times_checkLimit]
  split
  · rename_i hb
    subst hb
    have hlive := (h.times request.bucket).cleanBucket w.clock
    split
    · rename_i hallowed
      refine hlive.concat request.bucket.windowSeconds_pos ?_ ?_
      · intro t ht
        exact htimely.times _ t ((w.limiters i).memory.live_subset _ _ ht)
      · intro t ht
        refine grantedSince_check ?_ ht
        rw [answer, Request.check_eq]
        exact hallowed
    · rw [List.append_nil]
      exact hlive.mono (hgrow _)
  · exact (h.times b).mono (hgrow _)

theorem Genuine.step {w : World ι} (h : Genuine w) (config : RateLimitConfig) (op : Op ι) (hclear : w.Clear op = true) :
    Genuine (w.step config op) := by
  have hgrow := grantedSince_le_step config w op
  refine { h.toTimely.step config op with since := fun j => ?_, tableSince := fun k c hget => ?_, readsBack := ?_ }
  · rcases limiters_step config w op j with hlim | ⟨request, rfl, hlim⟩ | ⟨a, rfl, hlim⟩
    · rw [hlim]
      exact (h.since j).mono hgrow
    · rw [hlim]
      exact limiterSince_check (h.since j) (h.limiters j) config request
    · rw [hlim]
      exact ((h.since j).act h.tableSince w.grantedSince_anti hclear).mono hgrow
  · refine Counts.mono ?_ hgrow
    rcases table_step config w hget with hold | ⟨-, i, ⟨row, hrow, hkey⟩, hcount⟩
    · exact h.tableSince k c hold
    · have haligned := ((h.since i).writes row hrow).aligned
      subst hkey
      refine ⟨haligned, ?_⟩
      rcases hcount with ⟨row', hrow', hkey', hcount⟩ | ⟨old, hold, hcount⟩
      · have hrow' := ((h.since i).writes row' hrow').count
        have hmark : (row'.bucketType, row'.bucketKey) = (row.bucketType, row.bucketKey) ∧
            row'.windowStart = row.windowStart := by
          obtain ⟨htype, hrest⟩ := Prod.mk.inj hkey'
          obtain ⟨hbucketKey, hwindow⟩ := Prod.mk.inj hrest
          exact ⟨by rw [htype, hbucketKey], hwindow⟩
        rw [hcount]
        rw [hmark.1, hmark.2] at hrow'
        exact hrow'
      · rw [hcount]
        exact (h.tableSince _ old hold).count
  · intro g hg
    rcases granted_step config w op with hsame | ⟨i, request, rfl, -, hcons⟩
    · exact h.readsBack g (hsame ▸ hg)
    · rw [hcons] at hg
      rcases List.mem_cons.mp hg with rfl | hold
      · exact hclear
      · exact h.readsBack g hold

omit [DecidableEq ι] in
/-- What lies in a window was admitted in the last two. -/
theorem Genuine.live_le {w : World ι} (h : Genuine w) (i : ι) {b : Bucket} (hb : b.readsBack = true) :
    ((w.limiters i).memory.live b w.clock).length ≤ (w.grantedWithin b 2).length := by
  have hsince := ((h.since i).times b).cleanBucket w.clock
  rw [← Memory.live] at hsince
  cases hlive : (w.limiters i).memory.live b w.clock with
  | nil => exact Nat.zero_le _
  | cons t clean =>
    rw [hlive] at hsince
    have ht : w.clock - b.windowSeconds < t := by
      have hmem : t ∈ (w.limiters i).memory.live b w.clock := by
        rw [hlive]
        exact List.mem_cons_self
      exact of_decide_eq_true (List.mem_filter.mp hmem).2
    have hwindow := lt_windowOf_add (t := t) b.windowSeconds_pos
    refine hsince.length_le.trans ?_
    unfold grantedSince grantedUnder grantedWithin
    rw [List.filter_filter, ← List.countP_eq_length_filter, ← List.countP_eq_length_filter]
    refine List.countP_mono_left fun g hg hcounted => ?_
    obtain ⟨hsince, hmark⟩ := Bool.and_eq_true_iff.mp hcounted
    have hmark := of_decide_eq_true hmark
    have hsince := of_decide_eq_true hsince
    exact decide_eq_true ⟨Bucket.eq_of_mark (h.readsBack g hg) hb hmark, by linarith⟩

/-- **Denials while the rows are current.**  In every run in which the keys of all requests read back and the rows that
merges and cold starts take are current, what an instance counts in the window of a bucket is no more than what was
admitted there in the last two windows, and a request is denied only if that is the limit at least. -/
theorem denied_of_current (config : RateLimitConfig) (clock : ℚ) (ops : List (Op ι))
    (hclear : Run.Along (step config) (fun w op => w.Clear op = true) { clock := clock } ops) :
    let w : World ι := Run.run (step config) { clock := clock } ops
    (∀ i b, b.readsBack = true →
      ((w.limiters i).memory.live b w.clock).length ≤ (w.grantedWithin b 2).length) ∧
    ∀ i request, w.Clear (.check i request) = true → (w.answer config i request).allowed = false →
      request.bucket.limit config ≤ (w.grantedWithin request.bucket 2).length := by
  intro w
  have hgenuine : Genuine w :=
    Run.run_invariant_along (fun s op hop hs => hs.step config op hop) (genuine_start clock) hclear
  refine ⟨fun i b hb => hgenuine.live_le i hb, ?_⟩
  intro i request hb hdenied
  have hlive := (answer_allowed_eq_false config).mp hdenied
  exact hlive.trans (by exact_mod_cast hgenuine.live_le i hb)

/-- Nine requests and their flush; a quarter of a minute later the instance restarts, reads their row and admits one
more. -/
def restarted : List (Op Unit) :=
  [Op.act () .hydrateStart, Op.act () (.hydrateFetch []), Op.act () .hydrateDone, Op.advance 1] ++
    List.replicate 9 (Op.check () (.optimize ['c'])) ++ flushRound () ++
    [Op.advance 15, Op.act () .restart, Op.act () .hydrateStart,
      Op.act () (.hydrateFetch [⟨.optimize, ['c'], 0, 9⟩]), Op.act () .hydrateDone, Op.check () (.optimize ['c'])]

/-- The next request is denied, and ten were admitted in the last two windows. -/
theorem denied_of_current_restarted :
    let w : World Unit := Run.run (step {}) { clock := 0 } restarted
    (w.answer {} () (.optimize ['c'])).allowed = false ∧
      (Request.optimize ['c']).bucket.limit {} ≤ (w.grantedWithin (.optimize ['c']) 2).length := by
  intro w
  have hdenied : (w.answer {} () (.optimize ['c'])).allowed = false := by decide +kernel
  exact ⟨hdenied, (denied_of_current (ι := Unit) {} 0 restarted (by decide +kernel)).2 () (.optimize ['c']) rfl hdenied⟩

end World

end FavoniusBackend.Security.RateLimiter
