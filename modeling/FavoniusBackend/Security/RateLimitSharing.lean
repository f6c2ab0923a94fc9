import FavoniusBackend.Security.RateLimitStages

/-!
# Instances that count together

Once every instance has completed a flush and then a merge since the last request, each of them should count at least the
requests that all of them admitted in the window.  Runs that keep clear of what loses counts do (`granted_le_live`),
also where one instance goes on from what it has merged of another; others do not (`counts_are_lost`).
-/

namespace FavoniusBackend.Security.RateLimiter

open Lib

namespace Watched

open World

variable {ι : Type}

/-! ## Runs -/

theorem mem_granted {b : Bucket} {w : Watched ι} {g : Grant ι} :
    g ∈ w.granted b ↔ g ∈ w.world.granted ∧ g.bucket = b ∧ w.world.clock - b.windowSeconds < g.time := by
  simp [granted, grantedWithin]

/-- The requests are listed with the last one first, and every instance is sound. -/
structure Complete (b : Bucket) (w : Watched ι) : Prop where
  timely : Timely w.world
  sorted : (w.granted b).Pairwise fun g g' => g'.time ≤ g.time
  sound : ∀ i, Sound b (w.granted b) w.world.clock w.world.table i (w.world.limiters i) (w.stage i)

theorem complete_start (b : Bucket) (clock : ℚ) : Complete b (start clock : Watched ι) where
  timely := timely_start clock
  sorted := .nil
  sound _ := Sound.of_not_heldBy (by rintro ⟨⟩)

theorem head_of_mem {G : List (Grant ι)} (hsorted : G.Pairwise fun g g' => g'.time ≤ g.time) {g : Grant ι}
    (hg : g ∈ G) : ∃ last, G.head? = some last ∧ g.time ≤ last.time := by
  cases G with
  | nil => cases hg
  | cons last G =>
    refine ⟨last, rfl, ?_⟩
    rcases List.mem_cons.mp hg with rfl | hmem
    · exact le_rfl
    · exact (List.pairwise_cons.mp hsorted).1 g hmem

/-- What is left of the requests has the same first one. -/
theorem head_filter {G : List (Grant ι)} (hsorted : G.Pairwise fun g g' => g'.time ≤ g.time) {cutoff : ℚ} {g : Grant ι}
    (hg : g ∈ G) (hstays : cutoff < g.time) : (G.filter fun g => decide (cutoff < g.time)).head? = G.head? := by
  obtain ⟨last, hlast, hle⟩ := head_of_mem hsorted hg
  cases G with
  | nil => cases hg
  | cons last' G =>
    obtain rfl : last' = last := Option.some.inj hlast
    rw [List.filter_cons_of_pos (by simpa using hstays.trans_le hle)]
    rfl

/-- Times that cover the requests cover those that are left, where no stand-in leaves before the last request of
another instance. -/
theorem covered_filter {b : Bucket} {G : List (Grant ι)} {now later : ℚ} {i : ι} {times : List ℚ}
    (hsorted : G.Pairwise fun g g' => g'.time ≤ g.time) (h : Covered b G now i times)
    (hstay : (∃ g ∈ G, g.holder ≠ i ∧ later - b.windowSeconds < g.time) →
      ∀ t ∈ cleanBucket times b.windowSeconds now, later - b.windowSeconds < t) :
    Covered b (G.filter fun g => decide (later - b.windowSeconds < g.time)) later i times := by
  obtain ⟨own, inherited, standIns, rfl, hhead, hsub, hwindow, hlength⟩ := h
  have hown : ((own.filter fun g => decide (later - b.windowSeconds < g.time)).map Grant.time).Sublist
      (own.map Grant.time) := List.filter_sublist.map _
  rw [List.filter_append]
  cases hleft : inherited.filter fun g => decide (later - b.windowSeconds < g.time) with
  | nil =>
    refine ⟨_, [], [], rfl, by rintro _ ⟨⟩, ?_, by rintro _ ⟨⟩, le_rfl⟩
    rw [List.append_nil]
    exact (hown.trans (List.sublist_append_left _ _)).subperm.trans hsub
  | cons g left =>
    have hg : g ∈ inherited ∧ later - b.windowSeconds < g.time := by
      have hmem := List.mem_filter.mp (hleft ▸ List.mem_cons_self)
      exact ⟨hmem.1, of_decide_eq_true hmem.2⟩
    have hsorted' := (List.pairwise_append.mp hsorted).2.1
    have hhead' := head_filter hsorted' hg.1 hg.2
    obtain ⟨last, hlast, hle⟩ := head_of_mem hsorted' hg.1
    have hstays := hstay ⟨last, List.mem_append_right _ (List.mem_of_mem_head? hlast), hhead last hlast,
      hg.2.trans_le hle⟩
    refine ⟨_, g :: left, standIns, rfl, ?_, (hown.append (.refl _)).subperm.trans hsub, fun t ht => ?_, ?_⟩
    · rw [← hleft, hhead']
      exact hhead
    · refine hstays t (List.mem_filter.mpr ⟨hsub.subset (List.mem_append_right _ ht), ?_⟩)
      simpa using hwindow t ht
    · rw [← hleft]
      exact (List.length_filter_le _ _).trans hlength

namespace Complete

variable {b : Bucket} {w : Watched ι} {config : RateLimitConfig} [DecidableEq ι] [Fintype ι]

omit [DecidableEq ι] [Fintype ι] in
theorem window (h : Complete b w) :
    ∀ g ∈ w.granted b, w.world.clock - b.windowSeconds < g.time ∧ g.time ≤ w.world.clock := by
  intro g hg
  obtain ⟨hmem, -, hwindow⟩ := mem_granted.mp hg
  exact ⟨hwindow, h.timely.granted g hmem⟩

theorem advance (h : Complete b w) {dt : NNRat} (hclear : Clear config b w (.advance dt)) :
    Complete b (w.step config b (.advance dt)) := by
  have hdt : (0 : ℚ) ≤ dt := dt.2
  have hgranted : (w.step config b (.advance dt)).granted b =
      (w.granted b).filter fun g => decide (w.world.clock + dt - b.windowSeconds < g.time) := by
    show w.world.granted.filter _ = (w.world.granted.filter _).filter _
    rw [List.filter_filter]
    refine List.filter_congr fun g _ => ?_
    show decide (g.bucket = b ∧ w.world.clock + dt - 1 * b.windowSeconds < g.time) = _
    rw [← Bool.decide_and, decide_eq_decide, one_mul]
    exact ⟨fun hg => ⟨hg.2, hg.1, by linarith [hg.2]⟩, fun hg => ⟨hg.2.1, hg.1⟩⟩
  refine ⟨h.timely.step config (.advance dt), ?_, fun j => ?_⟩
  · rw [hgranted]
    exact h.sorted.filter _
  rw [hgranted]
  have hcovered : HeldBy (w.granted b) j → Covered b
      ((w.granted b).filter fun g => decide (w.world.clock + dt - b.windowSeconds < g.time)) (w.world.clock + dt) j
      ((w.world.limiters j).memory.times b) :=
    fun hheld => covered_filter h.sorted ((h.sound j).kept hheld) (hclear j (.inl hheld))
  have hheld : HeldBy ((w.granted b).filter fun g => decide (w.world.clock + dt - b.windowSeconds < g.time)) j →
      HeldBy (w.granted b) j := by
    intro hheld
    obtain ⟨g, hg⟩ := List.exists_mem_of_ne_nil _ hheld.ne_nil
    obtain ⟨hg, hstays⟩ := List.mem_filter.mp hg
    have hhead := head_filter h.sorted hg (of_decide_eq_true hstays)
    unfold HeldBy at hheld ⊢
    rwa [hhead] at hheld
  refine (h.sound j).of_sublist List.filter_sublist hheld (fun hh => hcovered (hheld hh)) fun hs => ?_
  by_cases hh : HeldBy (w.granted b) j
  · exact Sound.length_le_live (hcovered hh) fun g hg => of_decide_eq_true (List.mem_filter.mp hg).2
  · cases hleft : (w.granted b).filter fun g => decide (w.world.clock + dt - b.windowSeconds < g.time) with
    | nil => exact Nat.zero_le _
    | cons g left =>
      have hg : g ∈ w.granted b ∧ w.world.clock + dt - b.windowSeconds < g.time := by
        have hmem := List.mem_filter.mp (hleft ▸ List.mem_cons_self)
        exact ⟨hmem.1, of_decide_eq_true hmem.2⟩
      obtain ⟨last, hlast, hle⟩ := head_of_mem h.sorted hg.1
      have hother : last.holder ≠ j := by
        rintro rfl
        exact hh (by rw [HeldBy, hlast, Option.map_some])
      have hstay := hclear j (.inr hs) ⟨last, List.mem_of_mem_head? hlast, hother, hg.2.trans_le hle⟩
      -- nothing of what the instance counts leaves the window
      have hlive : (w.live b j).Sublist ((w.world.limiters j).memory.live b (w.world.clock + dt)) := by
        have hself : (w.live b j).filter (fun t => decide (w.world.clock + dt - b.windowSeconds < t)) = w.live b j :=
          List.filter_eq_self.mpr fun t ht => by simpa using hstay t ht
        rw [← hself]
        exact (List.filter_sublist (p := fun t => decide (w.world.clock - b.windowSeconds < t))).filter _
      rw [← hleft]
      exact (List.length_filter_le _ _).trans (((h.sound j).settled hs).trans hlive.length_le)

theorem cleanup (h : Complete b w) (hclear : Clear config b w .cleanup) :
    Complete b (w.step config b .cleanup) := by
  refine ⟨h.timely.step config .cleanup, h.sorted, fun j => (h.sound j).of_table ?_⟩
  rintro hne ⟨k, c, hget, hk, hcount, hlast⟩
  have hkeep := hclear hne c (mem_current.mpr ⟨k, hget, hk, hlast⟩)
  exact ⟨k, c, Table.get?_deleteExpired.mpr ⟨hget, hkeep⟩, hk, hcount, hlast⟩

/-! ### A request -/

section Check

variable (b) (w) (config) (i : ι) (request : Request)

theorem clock_check : (w.step config b (.check i request)).world.clock = w.world.clock := by
  show (w.world.step config (.check i request)).clock = _
  rw [step_check config w.world i request]
  rfl

theorem table_check : (w.step config b (.check i request)).world.table = w.world.table := by
  show (w.world.step config (.check i request)).table = _
  rw [step_check config w.world i request]
  rfl

theorem limiters_check (j : ι) : (w.step config b (.check i request)).world.limiters j = if j = i then
    { w.world.limiters i with
      memory := ((w.world.limiters i).memory.checkLimit config request.bucket w.world.clock).2 }
    else w.world.limiters j := by
  show (w.world.step config (.check i request)).limiters j = _
  rw [step_check config w.world i request]
  exact Function.update_apply ..

theorem granted_check : (w.step config b (.check i request)).granted b =
    if request.bucket = b ∧ (w.world.answer config i request).allowed = true then
      ⟨i, b, w.world.clock⟩ :: w.granted b else w.granted b := by
  unfold granted grantedWithin
  rw [clock_check]
  show ((w.world.step config (.check i request)).granted.filter _) = _
  rw [step_check config w.world i request]
  dsimp only
  by_cases hb : request.bucket = b
  · subst hb
    by_cases ha : (w.world.answer config i request).allowed = true
    · rw [if_pos ha, if_pos ⟨rfl, ha⟩, List.filter_cons_of_pos]
      simpa using request.bucket.windowSeconds_pos
    · rw [if_neg ha, if_neg fun hn => ha hn.2]
  · rw [if_neg fun hn : _ ∧ _ => hb hn.1]
    split
    · rw [List.filter_cons_of_neg]
      simp [hb]
    · rfl

theorem stage_check : (w.step config b (.check i request)).stage =
    if request.bucket = b ∧ (w.world.answer config i request).allowed = true then fun _ => .pending
    else w.stage := rfl

omit [DecidableEq ι] [Fintype ι] in
theorem allowed_answer : (w.world.answer config i request).allowed =
    ((w.world.limiters i).memory.checkLimit config request.bucket w.world.clock).1.allowed := by
  rw [answer, Request.check_eq]

end Check

theorem check_admitted (h : Complete b w) {i : ι} {request : Request} (hb : request.bucket = b)
    (ha : (w.world.answer config i request).allowed = true)
    (hclear : w.granted b = [] ∨ HeldBy (w.granted b) i ∨ w.stage i = .settled) :
    Complete b (w.step config b (.check i request)) := by
  have hgranted := granted_check b w config i request
  have hstage := stage_check b w config i request
  rw [if_pos ⟨hb, ha⟩] at hgranted hstage
  have hallowed := allowed_answer w config i request
  refine ⟨h.timely.step config (.check i request), ?_, fun j => ?_⟩
  · rw [hgranted]
    exact List.pairwise_cons.mpr ⟨fun g hg => (h.window g hg).2, h.sorted⟩
  · rw [hgranted, hstage, clock_check, table_check, limiters_check]
    split
    · rename_i hji
      subst hji hb
      refine
        { kept := fun _ => ?_
          cold := fun _ => rfl
          marked := fun _ _ => ?_
          flushing := (by rintro ⟨⟩)
          written := (by rintro ⟨⟩)
          merging := (by rintro ⟨⟩)
          settled := (by rintro ⟨⟩) }
      · -- what the instance counts stands for the requests of the others, and the new one is its own
        obtain ⟨own, inherited, standIns, heq, hhead, hsub, hwindow, hlength⟩ : Covered request.bucket
            (w.granted request.bucket) w.world.clock j
            ((w.world.limiters j).memory.live request.bucket w.world.clock) := by
          by_cases hheld : HeldBy (w.granted request.bucket) j
          · exact Sound.covered_live ((h.sound j).kept hheld) fun g hg => (h.window g hg).1
          · refine ⟨[], w.granted request.bucket, _, rfl, fun g hg hholder => hheld ?_, .refl _, fun t ht => ?_, ?_⟩
            · rw [HeldBy, Option.mem_def.mp hg, Option.map_some, hholder]
            · simpa using (List.mem_filter.mp ht).2
            · rcases hclear with hnil | hheld' | hs
              · rw [hnil]
                exact Nat.zero_le _
              · exact absurd hheld' hheld
              · exact (h.sound j).settled hs
        refine ⟨⟨j, request.bucket, w.world.clock⟩ :: own, inherited, standIns, by rw [heq]; rfl, hhead, ?_, hwindow,
          hlength⟩
        show (w.world.clock :: (own.map Grant.time ++ standIns)).Subperm
          ((Memory.checkLimit _ _ _ _).2.times request.bucket)
        rw [Memory.times_checkLimit, if_pos rfl, ← hallowed, if_pos ha]
        exact ((List.subperm_cons _).mpr hsub).trans (List.perm_append_singleton ..).symm.subperm
      · show request.bucket.mark ∈ (Memory.checkLimit _ _ _ _).2.dirtyKeys
        rw [Memory.dirtyKeys_checkLimit, ← hallowed, if_pos ha]
        exact Finset.mem_insert_self ..
    · rename_i hji
      exact Sound.of_not_heldBy fun hheld => hji (Option.some.inj hheld).symm

theorem check_other (h : Complete b w) {i : ι} {request : Request}
    (hother : ¬(request.bucket = b ∧ (w.world.answer config i request).allowed = true)) :
    Complete b (w.step config b (.check i request)) := by
  have hgranted := granted_check b w config i request
  have hstage := stage_check b w config i request
  rw [if_neg hother] at hgranted hstage
  have hallowed := allowed_answer w config i request
  refine ⟨h.timely.step config (.check i request), hgranted ▸ h.sorted, fun j => ?_⟩
  rw [hgranted, hstage, clock_check, table_check, limiters_check]
  split
  · rename_i hji
    subst hji
    refine (h.sound j).of_times (fun g hg => (h.window g hg).1) ?_ ?_
    · rw [Memory.times_checkLimit, ← hallowed]
      split
      · rename_i hb
        rw [if_neg fun ha => hother ⟨hb.symm, ha⟩, List.append_nil, ← hb]
        exact .inr rfl
      · exact .inl rfl
    · rw [Memory.dirtyKeys_checkLimit]
      split
      · exact Finset.subset_insert ..
      · exact subset_rfl
  · exact h.sound j

theorem check (h : Complete b w) {i : ι} {request : Request} (hclear : Clear config b w (.check i request)) :
    Complete b (w.step config b (.check i request)) := by
  by_cases hnew : request.bucket = b ∧ (w.world.answer config i request).allowed = true
  · exact h.check_admitted hnew.1 hnew.2 (hclear hnew.1 hnew.2)
  · exact h.check_other hnew

theorem act (h : Complete b w) (hof : Bucket.ofRow b.type b.key = some b) {i : ι} {a : Act}
    (hclear : Clear config b w (.act i a)) : Complete b (w.step config b (.act i a)) := by
  -- a write keeps what is written, and its rows are newer than the requests
  have hwrite : Written b (w.granted b) w.world.table →
      Written b (w.granted b) ((w.world.limiters i).write w.world.clock w.world.table a) := by
    rintro ⟨k, c, hget, hk, hcount, hlast⟩
    cases a with
    | flushWrite =>
      unfold Limiter.write
      dsimp only
      split
      · rename_i rows htask
        obtain ⟨c', hget', hcount', hlast'⟩ :=
          Table.get?_foldl_upsert_of_get? w.world.clock hget rows
        refine ⟨k, c', hget', hk, hcount.trans hcount', fun g hg => ?_⟩
        rcases hlast' with hlast' | hlast'
        · exact hlast' ▸ hlast g hg
        · exact hlast' ▸ (h.window g hg).2
      · exact ⟨k, c, hget, hk, hcount, hlast⟩
    | _ => exact ⟨k, c, hget, hk, hcount, hlast⟩
  have hready : decide (∀ j, HeldBy (w.granted b) j → (w.stage j).hasFlushed = true) = true → w.granted b ≠ [] →
      Written b (w.granted b) w.world.table := by
    intro hall hne
    have hheld : HeldBy (w.granted b) ((w.granted b).head hne).holder := by
      rw [HeldBy, List.head?_eq_some_head hne, Option.map_some]
    exact (h.sound _).written (of_decide_eq_true hall _ hheld) hheld
  refine ⟨h.timely.step config (.act i a), h.sorted, fun j => ?_⟩
  show Sound b (w.granted b) w.world.clock ((w.world.limiters i).write w.world.clock w.world.table a) j
    (Function.update w.world.limiters i _ j) (Function.update w.stage i _ j)
  by_cases hji : j = i
  · subst hji
    rw [Function.update_self, Function.update_self]
    exact (h.sound j).act hof h.window hready a hclear fun _ => hwrite
  · rw [Function.update_of_ne hji, Function.update_of_ne hji]
    exact (h.sound j).of_table fun _ => hwrite

theorem step (h : Complete b w) (hof : Bucket.ofRow b.type b.key = some b) {op : Op ι}
    (hclear : Clear config b w op) : Complete b (w.step config b op) := by
  cases op with
  | advance dt => exact h.advance hclear
  | check i request => exact h.check hclear
  | act i a => exact h.act hof hclear
  | cleanup => exact h.cleanup hclear

end Complete

/-- **Counts of a run that keeps clear.**  Once every instance has completed a merge that began after the one that
admitted the last request had completed a flush, each counts at least the requests that all of them admitted in the
window. -/
theorem granted_le_live [DecidableEq ι] [Fintype ι] (config : RateLimitConfig) (b : Bucket)
    (hof : Bucket.ofRow b.type b.key = some b) (clock : ℚ) (ops : List (Op ι))
    (hclear : Run.Along (step config b) (Clear config b) (start clock) ops) :
    let w : Watched ι := Run.run (step config b) (start clock) ops
    w.Settled → ∀ j, (w.granted b).length ≤ (w.live b j).length := by
  intro w hsettled j
  have hcomplete : Complete b w :=
    Run.run_invariant_along (fun s op hop hs => hs.step hof hop) (complete_start b clock) hclear
  exact (hcomplete.sound j).settled (hsettled j)

def coldStart : List (Op Bool) :=
  [Op.act false .hydrateStart, Op.act false (.hydrateFetch []), Op.act false .hydrateDone,
    Op.act true .hydrateStart, Op.act true (.hydrateFetch []), Op.act true .hydrateDone]

/-- A flush of each of two instances, and then a merge of each that reads one row of a client. -/
def settle (count : ℕ) : List (Op Bool) :=
  flushRound false ++ flushRound true ++ mergeRound false [⟨.api, ['c'], 0, count⟩] ++
    mergeRound true [⟨.api, ['c'], 0, count⟩]

def request (i : Bool) : Op Bool := Op.check i (.api ['c'])

/-- Two instances admit two requests each, and both count two; of three requests that one instance admits, the last
while it writes the others, the other instance counts two. -/
theorem counts_are_lost :
    (∃ w : Watched Bool, w = Run.run (step {} (.api ['c'])) (start 0)
        (coldStart ++ [request false, request false, request true, request true] ++ settle 2) ∧
      (∀ j, w.stage j = .settled) ∧ (w.granted (.api ['c'])).length = 4 ∧ ∀ j, (w.live (.api ['c']) j).length = 2) ∧
    ∃ w : Watched Bool, w = Run.run (step {} (.api ['c'])) (start 0)
        (coldStart ++ [request false, request false, Op.act false .flushStart, request false,
          Op.act false .flushWrite, Op.act false .flushDone] ++ settle 2) ∧
      (∀ j, w.stage j = .settled) ∧ (w.granted (.api ['c'])).length = 3 ∧ (w.live (.api ['c']) true).length = 2 := by
  refine ⟨⟨_, rfl, ?_⟩, ⟨_, rfl, ?_⟩⟩
  · decide +kernel
  · decide +kernel

/-- The requests of one instance, which it writes; the other one merges them, admits one more and writes all; then both
merge. -/
theorem granted_le_live_shared :
    let w : Watched Bool := Run.run (step {} (.api ['c'])) (start 0)
      (coldStart ++ [request false, request false] ++ flushRound false ++ mergeRound true [⟨.api, ['c'], 0, 2⟩] ++
        [request true] ++ flushRound true ++ mergeRound false [⟨.api, ['c'], 0, 2⟩, ⟨.api, ['c'], -60, 3⟩] ++
        mergeRound true [⟨.api, ['c'], 0, 2⟩, ⟨.api, ['c'], -60, 3⟩])
    (w.granted (.api ['c'])).length = 3 ∧ ∀ j, (w.granted (.api ['c'])).length ≤ (w.live (.api ['c']) j).length :=
  ⟨by decide +kernel, granted_le_live {} (.api ['c']) rfl 0 _ (by decide +kernel)
    (show ∀ j, Watched.stage _ j = Stage.settled by decide +kernel)⟩

end Watched

end FavoniusBackend.Security.RateLimiter
