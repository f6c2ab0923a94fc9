import FavoniusBackend.Agent.Budget

/-!
# Whether usage is lost

What the table holds, what the counters have not flushed and what the flushes in flight hold is the account
of a key.  Every event keeps the account in step with what has been recorded, except one: a flush that fails
puts its deltas back into the counters, and a delta whose counter has been evicted in the meantime is
dropped.
-/

namespace FavoniusBackend.Agent.Budget

open Lib

/-! ### The account of a key -/

def amountOf (key : Key) (pending : List (Key × Tokens)) : Tokens :=
  Tasks.total (fun p => if p.1 = key then p.2 else 0) pending

def Work.holds (key : Key) : Work → Tokens
  | .writing pending _ => amountOf key pending
  | _ => 0

def Tracker.held (s : Tracker) (key : Key) : Tokens := Tasks.total (Work.holds key) s.works

def Tracker.unflushedOf (s : Tracker) (key : Key) : Tokens := (s.counters.getD key {}).unflushed

def Tracker.account (s : Tracker) (key : Key) : Tokens :=
  (s.table key).getD 0 + s.unflushedOf key + s.held key

/-- Nothing has been lost, and nothing has been counted twice. -/
def Conserved (table : Key → Option Tokens) (s : Tracker) : Prop :=
  ∀ key, s.account key = (table key).getD 0 + s.recorded key

/-- What a step of a flush drops: where its write fails, the deltas whose counter is gone. -/
def Tracker.drops (s : Tracker) (key : Key) : Work → WorkEvent → Tokens
  | .writing pending _, .fail _ => if key ∈ s.counters then 0 else amountOf key pending
  | _, _ => 0

/-- Where the write of a flush fails, every delta it holds still has a counter. -/
def Tracker.Restores (s : Tracker) : Work → WorkEvent → Prop
  | .writing pending _, .fail _ => ∀ p ∈ pending, p.2 ≠ 0 → p.1 ∈ s.counters
  | _, _ => True

def lost (s : Tracker) (key : Key) : Event → Tokens
  | .workEvent i e =>
    match s.works[i]? with
    | some work => s.drops key work e
    | none => 0
  | _ => 0

def Restorable (s : Tracker) : Event → Prop
  | .workEvent i e => ∀ work, s.works[i]? = some work → s.Restores work e
  | _ => True

/-! ### Changes of the counters -/

theorem get?_withCounter (s : Tracker) (key : Key) (f : Counter → Counter) (k : Key) :
    (s.withCounter key f).counters.get? k =
      if k = key then some (f (s.counters.getD key {})) else s.counters.get? k :=
  Dict.get?_set s.counters key k _

theorem get?_onCounter (s : Tracker) (key : Key) (f : Counter → Counter) (k : Key) :
    (s.onCounter key f).counters.get? k =
      if k = key then (s.counters.get? key).map f else s.counters.get? k := by
  unfold Tracker.onCounter
  cases hc : s.counters.get? key with
  | none =>
    by_cases hk : k = key
    · rw [if_pos hk, hk, hc]
      rfl
    · rw [if_neg hk]
  | some c => exact Dict.get?_set s.counters key k (f c)

theorem onCounter_eq (s : Tracker) (key : Key) (f : Counter → Counter) :
    ∃ counters, s.onCounter key f = { s with counters := counters } := by
  unfold Tracker.onCounter
  split
  · exact ⟨_, rfl⟩
  · exact ⟨_, rfl⟩

theorem unflushedOf_withCounter {s : Tracker} {key : Key} {f : Counter → Counter}
    (hf : ∀ c, (f c).unflushed = c.unflushed) (k : Key) :
    (s.withCounter key f).unflushedOf k = s.unflushedOf k := by
  rw [Tracker.unflushedOf, Dict.getD, get?_withCounter]
  split
  · rename_i hk
    rw [hk]
    exact hf _
  · rfl

theorem unflushedOf_onCounter {s : Tracker} {key : Key} {f : Counter → Counter}
    (hf : ∀ c, (f c).unflushed = c.unflushed) (k : Key) :
    (s.onCounter key f).unflushedOf k = s.unflushedOf k := by
  rw [Tracker.unflushedOf, Dict.getD, get?_onCounter]
  split
  · rename_i hk
    rw [hk, Tracker.unflushedOf, Dict.getD]
    cases s.counters.get? key with
    | none => rfl
    | some c => exact hf c
  · rfl

theorem mem_onCounter {s : Tracker} {key : Key} {f : Counter → Counter} {k : Key} :
    k ∈ (s.onCounter key f).counters ↔ k ∈ s.counters := by
  rw [Dict.mem_iff_isSome, Dict.mem_iff_isSome, get?_onCounter]
  split
  · rename_i hk
    rw [hk, Option.isSome_map]
  · exact Iff.rfl

/-! ### The parts of a flush -/

@[simp] theorem amountOf_nil (key : Key) : amountOf key [] = 0 := rfl

theorem amountOf_cons (key : Key) (p : Key × Tokens) (pending : List (Key × Tokens)) :
    amountOf key (p :: pending) = (if p.1 = key then p.2 else 0) + amountOf key pending :=
  Tasks.total_cons _ p pending

theorem amountOf_filter_nonzero (key : Key) (l : List (Key × Tokens)) :
    amountOf key (l.filter fun p => p.2 ≠ 0) = amountOf key l := by
  induction l with
  | nil => rfl
  | cons p rest ih =>
    by_cases hp : p.2 = 0
    · rw [List.filter_cons_of_neg (by simpa using hp), ih, amountOf_cons, hp, ite_self, zero_add]
    · rw [List.filter_cons_of_pos (by simpa using hp), amountOf_cons, amountOf_cons, ih]

theorem amountOf_eq_lookup (key : Key) (l : List (Key × Tokens)) (hl : (l.map Prod.fst).Nodup) :
    amountOf key l = (Dict.lookup l key).getD 0 := by
  induction l with
  | nil => rfl
  | cons p rest ih =>
    rw [List.map_cons, List.nodup_cons] at hl
    rw [amountOf_cons, ih hl.2, Dict.lookup]
    by_cases hp : p.1 = key
    · have hnone : Dict.lookup rest key = none := by
        rw [← Option.not_isSome_iff_eq_none, Dict.lookup_isSome_iff, ← hp]
        exact hl.1
      rw [if_pos hp, if_pos hp, hnone]
      exact add_zero p.2
    · rw [if_neg hp, if_neg hp, zero_add]

theorem amountOf_deltas (s : Tracker) (key : Key) : amountOf key s.deltas = s.unflushedOf key := by
  have hitems := amountOf_eq_lookup key _ (s.counters.mapValues Counter.unflushed).nodup_keys
  rw [Tracker.deltas, amountOf_filter_nonzero]
  refine hitems.trans ?_
  show ((s.counters.mapValues Counter.unflushed).get? key).getD 0 = ((s.counters.get? key).getD {}).unflushed
  rw [Dict.get?_mapValues]
  cases s.counters.get? key with
  | none => rfl
  | some c => rfl

@[simp] theorem unflushedOf_zeroed (s : Tracker) (key : Key) : s.zeroed.unflushedOf key = 0 := by
  show (((s.counters.mapValues fun c : Counter => { c with unflushed := 0 }).get? key).getD
    {}).unflushed = 0
  rw [Dict.get?_mapValues]
  cases s.counters.get? key with
  | none => rfl
  | some c => rfl

theorem table_commit (s : Tracker) (pending : List (Key × Tokens)) (key : Key) :
    ((s.commit pending).table key).getD 0 = (s.table key).getD 0 + amountOf key pending := by
  show (pending.foldl _ s.table key).getD 0 = _
  generalize s.table = table
  induction pending generalizing table with
  | nil => exact (add_zero _).symm
  | cons p rest ih =>
    rw [List.foldl_cons, ih, amountOf_cons, ← add_assoc]
    congr 1
    by_cases hp : p.1 = key
    · rw [if_pos hp.symm, if_pos hp]
      rfl
    · rw [if_neg (Ne.symm hp), if_neg hp, add_zero]

theorem rollBack_cons (s : Tracker) (p : Key × Tokens) (pending : List (Key × Tokens)) :
    s.rollBack (p :: pending) =
      (s.onCounter p.1 fun c => { c with unflushed := c.unflushed + p.2 }).rollBack pending := rfl

theorem unflushedOf_rollBack (s : Tracker) (pending : List (Key × Tokens)) (key : Key) :
    (s.rollBack pending).unflushedOf key =
      s.unflushedOf key + if key ∈ s.counters then amountOf key pending else 0 := by
  induction pending generalizing s with
  | nil =>
    rw [amountOf_nil, ite_self]
    exact (add_zero _).symm
  | cons p rest ih =>
    have hhead : (s.onCounter p.1 fun c => { c with unflushed := c.unflushed + p.2 }).unflushedOf key =
        s.unflushedOf key + if key ∈ s.counters then (if p.1 = key then p.2 else 0) else 0 := by
      rw [Tracker.unflushedOf, Tracker.unflushedOf, Dict.getD, Dict.getD, get?_onCounter]
      by_cases hp : p.1 = key
      · rw [if_pos hp.symm, if_pos hp, hp, ite_cond_congr (eq_iff_iff.2 Dict.mem_iff_isSome)]
        cases s.counters.get? key with
        | none => rfl
        | some c => rfl
      · rw [if_neg (Ne.symm hp), if_neg hp, ite_self, add_zero]
    rw [rollBack_cons, ih, hhead, amountOf_cons]
    by_cases hmem : key ∈ s.counters
    · rw [if_pos hmem, if_pos (mem_onCounter.2 hmem), if_pos hmem, add_assoc]
    · rw [if_neg hmem, if_neg (mt mem_onCounter.1 hmem), if_neg hmem, add_zero]

theorem rollBack_eq (s : Tracker) (pending : List (Key × Tokens)) :
    ∃ counters, s.rollBack pending = { s with counters := counters } := by
  induction pending generalizing s with
  | nil => exact ⟨_, rfl⟩
  | cons p rest ih =>
    obtain ⟨counters, hhead⟩ := onCounter_eq s p.1 fun c => { c with unflushed := c.unflushed + p.2 }
    obtain ⟨counters', hrest⟩ := ih { s with counters := counters }
    exact ⟨counters', by rw [rollBack_cons, hhead, hrest]⟩

theorem unflushedOf_evict (s : Tracker) (current : String) (key : Key) :
    (s.evict current).unflushedOf key = s.unflushedOf key := by
  rw [Tracker.unflushedOf, Tracker.unflushedOf, Dict.getD, Dict.getD, Tracker.evict, Dict.get?_filter]
  cases hc : s.counters.get? key with
  | none => rfl
  | some c =>
    rw [Option.filter_some]
    split
    · rfl
    · rename_i hdropped
      have hzero : c.unflushed = 0 := by
        by_contra hne
        exact hdropped (decide_eq_true (Or.inr (Or.inr (Or.inr hne))))
      exact hzero.symm

/-! ### What an event does to the account -/

/-- Two states with the same table, flushes, records and deltas. -/
structure SameUsage (s s' : Tracker) : Prop where
  table : s'.table = s.table
  works : s'.works = s.works
  recorded : s'.recorded = s.recorded
  unflushed : ∀ key, s'.unflushedOf key = s.unflushedOf key

theorem SameUsage.refl (s : Tracker) : SameUsage s s := ⟨rfl, rfl, rfl, fun _ => rfl⟩

theorem SameUsage.trans {s t u : Tracker} (h : SameUsage s t) (h' : SameUsage t u) : SameUsage s u :=
  ⟨h'.table.trans h.table, h'.works.trans h.works, h'.recorded.trans h.recorded,
    fun key => (h'.unflushed key).trans (h.unflushed key)⟩

theorem SameUsage.account {s s' : Tracker} (h : SameUsage s s') (key : Key) :
    s'.account key = s.account key := by
  rw [Tracker.account, Tracker.account, Tracker.held, Tracker.held, h.table, h.works, h.unflushed]

theorem sameUsage_withCounter {s : Tracker} {key : Key} {f : Counter → Counter}
    (hf : ∀ c, (f c).unflushed = c.unflushed) : SameUsage s (s.withCounter key f) :=
  ⟨rfl, rfl, rfl, unflushedOf_withCounter hf⟩

theorem sameUsage_onCounter {s : Tracker} {key : Key} {f : Counter → Counter}
    (hf : ∀ c, (f c).unflushed = c.unflushed) : SameUsage s (s.onCounter key f) := by
  have hunflushed : ∀ k, (s.onCounter key f).unflushedOf k = s.unflushedOf k := unflushedOf_onCounter hf
  obtain ⟨counters, heq⟩ := onCounter_eq s key f
  rw [heq] at hunflushed ⊢
  exact ⟨rfl, rfl, rfl, hunflushed⟩

theorem SameUsage.setTurn {s t : Tracker} (h : SameUsage s t) (i : ℕ) (turn : Turn) (phase : TurnPhase) :
    SameUsage s (t.setTurn i turn phase) := ⟨h.table, h.works, h.recorded, h.unflushed⟩

theorem SameUsage.pin {s t : Tracker} (h : SameUsage s t) (i : ℕ) (turn : Turn) :
    SameUsage s (t.pin i turn) :=
  (h.trans (sameUsage_withCounter fun _ => by rfl)).setTurn i turn .deciding

theorem stepTurn_sameUsage (s : Tracker) (i : ℕ) (turn : Turn) (e : TurnEvent) :
    SameUsage s (s.stepTurn i turn e) := by
  have hsame := SameUsage.refl s
  unfold Tracker.stepTurn
  split
  · split
    · exact hsame
    · split
      · exact hsame.pin i turn
      · exact (sameUsage_withCounter fun _ => by rfl).setTurn i turn .reading
  · exact ⟨rfl, rfl, rfl, fun _ => rfl⟩
  · refine SameUsage.pin ?_ i turn
    exact ⟨rfl, rfl, rfl, fun _ => rfl⟩
  · refine SameUsage.pin ?_ i turn
    split
    · rename_i tokens _
      have hseeded : SameUsage s (s.withCounter turn.key fun c => { c with committed := tokens }) :=
        sameUsage_withCounter fun _ => rfl
      exact ⟨hseeded.table, hseeded.works, hseeded.recorded, hseeded.unflushed⟩
    · exact ⟨rfl, rfl, rfl, fun _ => rfl⟩
  · split
    · split
      · exact (sameUsage_onCounter fun _ => by rfl).setTurn i turn .finished
      · exact ⟨rfl, rfl, rfl, fun _ => rfl⟩
    · exact hsame
  · exact (sameUsage_onCounter fun _ => by rfl).setTurn i turn .finished
  · exact (sameUsage_onCounter fun _ => by rfl).setTurn i turn .finished
  · exact hsame.setTurn i turn .finished
  · exact hsame.setTurn i turn .finished
  · exact hsame.setTurn i turn .finished
  · exact hsame

theorem startTurn_sameUsage (s : Tracker) (key : Key) (promptLength : ℕ) :
    SameUsage s (s.startTurn key promptLength) := by
  rw [Tracker.startTurn]
  split
  · refine SameUsage.pin ?_ _ _
    exact ⟨rfl, rfl, rfl, fun _ => rfl⟩
  · exact ⟨rfl, rfl, rfl, fun _ => rfl⟩

@[simp] theorem holds_sweep (s : Tracker) (keys : List Key) (key : Key) :
    (s.sweep keys).holds key = 0 := by
  rw [Tracker.sweep]
  split
  · rfl
  · rfl

@[simp] theorem holds_afterFlush (s : Tracker) (current : String) (key : Key) :
    (s.afterFlush current).2.holds key = 0 := holds_sweep _ _ key

/-- A flush or reconciliation goes on as `work`, in a state that differs from `s` in what it has put into the
table or into the counters, and drops `dropped`. -/
theorem account_setWork {s t : Tracker} {i : ℕ} {old work : Work} (hold : s.works[i]? = some old)
    (hworks : t.works = s.works) {key : Key} {dropped : Tokens}
    (hmoved : (t.table key).getD 0 + t.unflushedOf key + work.holds key + dropped =
      (s.table key).getD 0 + s.unflushedOf key + old.holds key) :
    (t.setWork i work).account key + dropped = s.account key := by
  have hset := Tasks.total_set (Work.holds key) hold work
  have hheld : (t.setWork i work).held key + old.holds key = s.held key + work.holds key := by
    rw [Tracker.held, Tracker.setWork, hworks]
    exact hset
  refine add_right_cancel (b := old.holds key) ?_
  calc (t.setWork i work).account key + dropped + old.holds key
      = (t.table key).getD 0 + t.unflushedOf key + dropped +
          ((t.setWork i work).held key + old.holds key) := by
        show (t.table key).getD 0 + t.unflushedOf key + (t.setWork i work).held key + dropped + _ = _
        abel
    _ = ((t.table key).getD 0 + t.unflushedOf key + work.holds key + dropped) + s.held key := by
        rw [hheld]
        abel
    _ = s.account key + old.holds key := by
        rw [hmoved, Tracker.account]
        abel

theorem account_fail {s : Tracker} {i : ℕ} {pending : List (Key × Tokens)} {reconciles : Bool}
    (hwork : s.works[i]? = some (.writing pending reconciles)) (current : String) (key : Key) :
    (s.stepWork i (.writing pending reconciles) (.fail current)).account key +
      s.drops key (.writing pending reconciles) (.fail current) = s.account key := by
  have hback : (s.table key).getD 0 + (s.rollBack pending).unflushedOf key + 0 +
      s.drops key (.writing pending reconciles) (.fail current) =
      (s.table key).getD 0 + s.unflushedOf key + amountOf key pending := by
    rw [unflushedOf_rollBack, Tracker.drops]
    split
    · abel
    · abel
  rw [Tracker.stepWork]
  obtain ⟨counters, heq⟩ := rollBack_eq s pending
  rw [heq] at hback ⊢
  split
  · refine account_setWork (t := Tracker.evict { s with counters := counters } current) hwork rfl ?_
    rw [holds_afterFlush, unflushedOf_evict]
    exact hback
  · exact account_setWork (t := { s with counters := counters }) hwork rfl hback

theorem account_stepWork {s : Tracker} {i : ℕ} {work : Work} (hwork : s.works[i]? = some work)
    (e : WorkEvent) (key : Key) :
    (s.stepWork i work e).account key + s.drops key work e = s.account key := by
  cases work with
  | writing pending reconciles =>
    cases e with
    | commit =>
      refine account_setWork (t := s.commit pending) hwork rfl ?_
      have hnone : Work.holds key (if reconciles then .flushed else .finished) = 0 := by
        cases reconciles with
        | true => rfl
        | false => rfl
      rw [hnone, table_commit]
      show _ + s.unflushedOf key + 0 + 0 = _ + amountOf key pending
      abel
    | fail current => exact account_fail hwork current key
    | _ => exact add_zero _
  | flushed =>
    cases e with
    | resume current =>
      refine account_setWork (t := s.evict current) hwork rfl ?_
      rw [holds_afterFlush, unflushedOf_evict]
      rfl
    | _ => exact add_zero _
  | reading next rest =>
    cases e with
    | read => exact account_setWork hwork rfl rfl
    | readFails =>
      refine account_setWork hwork rfl ?_
      rw [holds_sweep]
      rfl
    | _ => exact add_zero _
  | readRow next row rest =>
    cases e with
    | assign =>
      have hsame : SameUsage s
          (s.onCounter next fun c => { c with committed := row.getD 0 + c.unflushed }) :=
        sameUsage_onCounter fun _ => rfl
      refine account_setWork hwork hsame.works ?_
      rw [hsame.table, hsame.unflushed, holds_sweep]
      rfl
    | _ => exact add_zero _
  | finished =>
    cases e with
    | _ => exact add_zero _

theorem account_recordActual (s : Tracker) (i : ℕ) (actual : Tokens) (key : Key) :
    (s.recordActual i actual).account key + s.recorded key =
      s.account key + (s.recordActual i actual).recorded key := by
  rw [Tracker.recordActual]
  split
  · rename_i r _
    show (s.table key).getD 0 + Tracker.unflushedOf _ key + s.held key + s.recorded key =
      (s.table key).getD 0 + s.unflushedOf key + s.held key + post s.recorded r.key actual key
    have hunflushed : (s.withCounter r.key (Counter.settle r.est actual)).unflushedOf key =
        s.unflushedOf key + if key = r.key then actual else 0 := by
      rw [Tracker.unflushedOf, Dict.getD, get?_withCounter]
      split
      · rename_i hkey
        rw [hkey]
        rfl
      · exact (add_zero _).symm
    have hrecorded : post s.recorded r.key actual key =
        s.recorded key + if key = r.key then actual else 0 := by
      rw [post]
      split
      · rfl
      · exact (add_zero _).symm
    rw [hrecorded]
    refine (congrArg (fun x => (s.table key).getD 0 + x + s.held key + s.recorded key) hunflushed).trans ?_
    abel
  · rfl

theorem account_startWriting (s : Tracker) (reconciles : Bool) (key : Key) :
    Tracker.account { s.zeroed with works := s.works ++ [.writing s.deltas reconciles] } key =
      s.account key := by
  show (s.table key).getD 0 + s.zeroed.unflushedOf key +
    Tasks.total (Work.holds key) (s.works ++ [.writing s.deltas reconciles]) = s.account key
  rw [Tasks.total_concat, unflushedOf_zeroed, Work.holds, amountOf_deltas, Tracker.account, Tracker.held]
  abel

theorem account_startReconcile (s : Tracker) (current : String) (key : Key) :
    (s.startReconcile current).account key = s.account key := by
  rw [Tracker.startReconcile]
  split
  · show (s.table key).getD 0 + (s.evict current).unflushedOf key +
      Tasks.total (Work.holds key) (s.works ++ [(s.afterFlush current).2]) = s.account key
    rw [Tasks.total_concat, holds_afterFlush, unflushedOf_evict, add_zero]
    rfl
  · exact account_startWriting s true key

theorem stepWork_recorded (s : Tracker) (i : ℕ) (work : Work) (e : WorkEvent) :
    (s.stepWork i work e).recorded = s.recorded := by
  unfold Tracker.stepWork
  split
  · rfl
  · rename_i pending reconciles _
    obtain ⟨counters, heq⟩ := rollBack_eq s pending
    rw [heq]
    cases reconciles with
    | true => rfl
    | false => rfl
  · rfl
  · rfl
  · rfl
  · exact (sameUsage_onCounter fun _ => by rfl).recorded
  · rfl

/-- **One event.**  The account follows what is recorded, but for what is lost. -/
theorem account_step (s : Tracker) (e : Event) (key : Key) :
    (step s e).account key + lost s key e + s.recorded key = s.account key + (step s e).recorded key := by
  have hsame : ∀ {s' : Tracker}, SameUsage s s' →
      s'.account key + 0 + s.recorded key = s.account key + s'.recorded key := by
    intro s' h
    rw [h.account, h.recorded, add_zero]
  cases e with
  | turn organization promptLength => exact hsame (startTurn_sameUsage s organization promptLength)
  | turnEvent i e =>
    show (step s (.turnEvent i e)).account key + 0 + _ = _
    rw [step]
    split
    · exact hsame (stepTurn_sameUsage s i _ e)
    · exact hsame (SameUsage.refl s)
  | record i actual => exact account_recordActual s i actual key
  | flush =>
    show s.startFlush.account key + 0 + s.recorded key = s.account key + s.startFlush.recorded key
    rw [add_zero, Tracker.startFlush]
    split
    · rfl
    · rw [account_startWriting]
      rfl
  | reconcile current =>
    have hrecorded : (s.startReconcile current).recorded = s.recorded := by
      rw [Tracker.startReconcile]
      split
      · rfl
      · rfl
    show (s.startReconcile current).account key + 0 + _ = _ + (s.startReconcile current).recorded key
    rw [add_zero, account_startReconcile, hrecorded]
  | workEvent i e =>
    rw [step, lost]
    cases hwork : s.works[i]? with
    | some work =>
      show (s.stepWork i work e).account key + s.drops key work e + s.recorded key =
        s.account key + (s.stepWork i work e).recorded key
      rw [account_stepWork hwork, stepWork_recorded]
    | none => exact hsame (SameUsage.refl s)

/-! ### Runs -/

theorem amountOf_eq_zero_iff (key : Key) (pending : List (Key × Tokens)) :
    amountOf key pending = 0 ↔ ∀ p ∈ pending, p.2 ≠ 0 → p.1 ≠ key := by
  induction pending with
  | nil => simp
  | cons p rest ih =>
    have hadd : ∀ a b : Tokens, a + b = 0 ↔ a = 0 ∧ b = 0 := by
      intro a b
      simp only [Prod.ext_iff, Prod.fst_add, Prod.snd_add, Prod.fst_zero, Prod.snd_zero]
      omega
    rw [amountOf_cons, hadd, ih, List.forall_mem_cons]
    refine and_congr_left fun _ => ?_
    by_cases hp : p.1 = key
    · simp [hp]
    · simp [hp]

/-- Nothing is dropped where every delta has a counter, and only there. -/
theorem drops_eq_zero_iff (s : Tracker) (work : Work) (e : WorkEvent) :
    (∀ key, s.drops key work e = 0) ↔ s.Restores work e := by
  have hnothing : (Key → (0 : Tokens) = 0) ↔ True := iff_true_intro fun _ => rfl
  cases work with
  | writing pending reconciles =>
    cases e with
    | fail current =>
      show (∀ key, (if key ∈ s.counters then 0 else amountOf key pending) = 0) ↔
        ∀ p ∈ pending, p.2 ≠ 0 → p.1 ∈ s.counters
      constructor
      · intro h p hp hne
        by_contra hgone
        have hzero := h p.1
        rw [if_neg hgone, amountOf_eq_zero_iff] at hzero
        exact hzero p hp hne rfl
      · intro h key
        split
        · rfl
        · rename_i hgone
          rw [amountOf_eq_zero_iff]
          rintro p hp hne rfl
          exact hgone (h p hp hne)
    | _ => exact hnothing
  | _ => exact hnothing

theorem lost_eq_zero_iff (s : Tracker) (e : Event) : (∀ key, lost s key e = 0) ↔ Restorable s e := by
  cases e with
  | workEvent i e =>
    show (∀ key, lost s key (.workEvent i e) = 0) ↔ ∀ work, s.works[i]? = some work → s.Restores work e
    simp only [lost]
    cases s.works[i]? with
    | none => simp
    | some work =>
      refine (drops_eq_zero_iff s work e).trans ?_
      simp
  | _ => exact iff_true_intro fun _ => rfl

theorem conserved_init (table : Key → Option Tokens) : Conserved table (Tracker.init table) :=
  fun _ => rfl

theorem conserved_step_iff {table : Key → Option Tokens} {s : Tracker} (hs : Conserved table s)
    (e : Event) : Conserved table (step s e) ↔ Restorable s e := by
  rw [← lost_eq_zero_iff]
  refine forall_congr' fun key => ?_
  have hstep := account_step s e key
  have hbefore := hs key
  simp only [Prod.ext_iff, Prod.fst_add, Prod.snd_add, Prod.fst_zero, Prod.snd_zero] at *
  omega

/-- **Conservation of usage.**  Throughout a run what the table has gained, what is unflushed and what the
flushes in flight hold is what has been recorded, key by key, if and only if no flush fails after the
counter of one of its deltas has been evicted. -/
theorem usage_conserved_iff_restorable (table : Key → Option Tokens) (events : List Event) :
    Run.Along step (fun s e => Conserved table (step s e)) (Tracker.init table) events ↔
      Run.Along step Restorable (Tracker.init table) events :=
  Run.along_iff_along (fun _ e hs => conserved_step_iff hs e) (fun _ _ h _ => h) (conserved_init table)

/-- A turn of January is recorded and its flush is under way when a reconciliation in February finds the
counter settled; then the write fails. -/
def failedAfterRollover : List Event :=
  [.turn { organization := "fleet", period := "202601" } 800, .turnEvent 0 .lock, .turnEvent 0 .read,
    .turnEvent 0 .resume, .turnEvent 0 (.ceiling 1000000), .record 0 (1200, 300), .flush,
    .reconcile "202602", .workEvent 0 (.fail "202602")]

/-- The recorded tokens are in no place any more. -/
theorem rolled_over_usage_lost :
    ¬ Run.Along step (fun s e => Conserved (fun _ => none) (step s e)) (Tracker.init fun _ => none)
      failedAfterRollover := by
  rintro ⟨-, -, -, -, -, -, -, -, hlast, -⟩
  exact absurd (hlast { organization := "fleet", period := "202601" }) (by decide)

end FavoniusBackend.Agent.Budget
