import Mathlib.Tactic

/-!
# Time zones

A zone is an offset and a list of transitions: from the instant of a transition on, its offset is in
force.  Instants and readings of the local clock are rational numbers of seconds.  A transition to a
higher offset skips readings (a *gap*); one to a lower offset shows readings twice (a *fold*).

`wallAt` is what the clock shows at an instant.  `instantOf` goes back: a reading that is shown twice
means the first time, and a reading in a gap is taken with the offset from before it.  The transitions
are apart: on the local clock each of them is over for a minute before the next begins (`ApartFrom`).

Three facts are what users of a zone need.  Outside the gaps `instantOf` is an inverse of `wallAt`
(`wallAt_instantOf`), it is strictly increasing there (`instantOf_lt`), and around a gap both are known
(`gapShape_of_mem`).
-/

namespace FavoniusBackend.Lib.TimeZone

structure Transition where
  instant : ℚ
  offset : ℚ
  deriving DecidableEq, Repr

/-- The offset in force at an instant, `o` before the first transition. -/
def offsetAt (o : ℚ) : List Transition → ℚ → ℚ
  | [], _ => o
  | tr :: rest, t => if t < tr.instant then o else offsetAt tr.offset rest t

/-- The offset with which a reading is taken.  A transition counts once the clock has left both its
readings behind. -/
def offsetOfWall (o : ℚ) : List Transition → ℚ → ℚ
  | [], _ => o
  | tr :: rest, w =>
    if w < tr.instant + max o tr.offset then o else offsetOfWall tr.offset rest w

def wallAt (o : ℚ) (l : List Transition) (t : ℚ) : ℚ := t + offsetAt o l t

def instantOf (o : ℚ) (l : List Transition) (w : ℚ) : ℚ := w - offsetOfWall o l w

/-- Readings from `start` up to `stop` that the clock never shows. -/
structure Gap where
  start : ℚ
  stop : ℚ
  deriving DecidableEq, Repr

def Gap.length (g : Gap) : ℚ := g.stop - g.start

def gaps (o : ℚ) : List Transition → List Gap
  | [] => []
  | tr :: rest =>
    if o < tr.offset then ⟨tr.instant + o, tr.instant + tr.offset⟩ :: gaps tr.offset rest
    else gaps tr.offset rest

def Shown (o : ℚ) (l : List Transition) (w : ℚ) : Prop :=
  ∀ g ∈ gaps o l, ¬ (g.start ≤ w ∧ w < g.stop)

/-- No transition touches the readings before `m`, and each is over for a minute before the next one
begins. -/
def ApartFrom (m o : ℚ) : List Transition → Prop
  | [] => True
  | tr :: rest =>
    m ≤ tr.instant + min o tr.offset ∧
      ApartFrom (tr.instant + max o tr.offset + 60) tr.offset rest

section Lists

variable {m o w t : ℚ} {l rest : List Transition} {tr : Transition}

theorem ApartFrom.mono {m' : ℚ} (h : ApartFrom m o l) (hm : m' ≤ m) : ApartFrom m' o l := by
  cases l with
  | nil => trivial
  | cons tr rest => exact ⟨hm.trans h.1, h.2⟩

/-- What follows a transition, from the end of the readings it touches. -/
theorem ApartFrom.tail (h : ApartFrom m o (tr :: rest)) :
    ApartFrom (tr.instant + max o tr.offset) tr.offset rest :=
  h.2.mono (by linarith)

theorem wallAt_before (ht : t < tr.instant) : wallAt o (tr :: rest) t = t + o := by
  rw [wallAt, offsetAt, if_pos ht]

theorem wallAt_after (ht : tr.instant ≤ t) :
    wallAt o (tr :: rest) t = wallAt tr.offset rest t := by
  rw [wallAt, offsetAt, if_neg (not_lt.mpr ht)]
  rfl

theorem instantOf_before (hw : w < tr.instant + max o tr.offset) :
    instantOf o (tr :: rest) w = w - o := by
  rw [instantOf, offsetOfWall, if_pos hw]

theorem instantOf_after (hw : tr.instant + max o tr.offset ≤ w) :
    instantOf o (tr :: rest) w = instantOf tr.offset rest w := by
  rw [instantOf, offsetOfWall, if_neg (not_lt.mpr hw)]
  rfl

/-- Before the first transition the clock runs with the first offset. -/
theorem wallAt_of_lt (h : ApartFrom m o l) (ht : t + o < m) : wallAt o l t = t + o := by
  cases l with
  | nil => rfl
  | cons tr rest =>
    have hmin : min o tr.offset ≤ o := min_le_left _ _
    have hfirst := h.1
    exact wallAt_before (by linarith)

theorem instantOf_of_lt (h : ApartFrom m o l) (hw : w < m) : instantOf o l w = w - o := by
  cases l with
  | nil => rfl
  | cons tr rest =>
    have hmin : min o tr.offset ≤ max o tr.offset := min_le_max
    have hfirst := h.1
    exact instantOf_before (by linarith)

/-- A clock that has reached the free readings does not fall back behind them. -/
theorem le_wallAt (h : ApartFrom m o l) (ht : m ≤ t + o) : m ≤ wallAt o l t := by
  induction l generalizing m o with
  | nil => exact ht
  | cons tr rest ih =>
    rcases lt_or_ge t tr.instant with hlt | hge
    · rw [wallAt_before hlt]
      exact ht
    · have hmin : min o tr.offset ≤ tr.offset := min_le_right _ _
      have hmax : min o tr.offset ≤ max o tr.offset := min_le_max
      have hfirst := h.1
      rw [wallAt_after hge]
      exact ih (h.tail.mono (by linarith)) (by linarith)

theorem le_instantOf (h : ApartFrom m o l) (hw : m ≤ w) : m - o ≤ instantOf o l w := by
  induction l generalizing m o with
  | nil => exact sub_le_sub_right hw o
  | cons tr rest ih =>
    rcases lt_or_ge w (tr.instant + max o tr.offset) with hlt | hge
    · rw [instantOf_before hlt]
      exact sub_le_sub_right hw o
    · have hmin : min o tr.offset ≤ o := min_le_left _ _
      have hmax : tr.offset ≤ max o tr.offset := le_max_right _ _
      have hrest := ih h.tail hge
      have hfirst := h.1
      rw [instantOf_after hge]
      linarith

/-- A reading behind a transition is shown after it. -/
theorem instant_le_instantOf (h : ApartFrom m o (tr :: rest))
    (hw : tr.instant + max o tr.offset ≤ w) : tr.instant ≤ instantOf tr.offset rest w := by
  have hmax : tr.offset ≤ max o tr.offset := le_max_right _ _
  have hrest := le_instantOf h.tail hw
  linarith

theorem shown_tail (h : Shown o (tr :: rest) w) : Shown tr.offset rest w := by
  intro g hg
  apply h g
  rw [gaps]
  split
  · exact List.mem_cons_of_mem _ hg
  · exact hg

theorem lt_instant_of_shown (h : Shown o (tr :: rest) w) (hw : w < tr.instant + max o tr.offset) :
    w - o < tr.instant := by
  by_contra hge
  have hge' : tr.instant + o ≤ w := by linarith
  rcases le_total tr.offset o with hle | hle
  · rw [max_eq_left hle] at hw
    linarith
  · rw [max_eq_right hle] at hw
    have hlt : o < tr.offset := by linarith
    refine h ⟨tr.instant + o, tr.instant + tr.offset⟩ ?_ ⟨hge', hw⟩
    rw [gaps, if_pos hlt]
    exact List.mem_cons_self

/-- **Readings that are shown convert back.** -/
theorem wallAt_instantOf (ha : ApartFrom m o l) (h : Shown o l w) :
    wallAt o l (instantOf o l w) = w := by
  induction l generalizing m o with
  | nil => exact sub_add_cancel w o
  | cons tr rest ih =>
    rcases lt_or_ge w (tr.instant + max o tr.offset) with hlt | hge
    · rw [instantOf_before hlt, wallAt_before (lt_instant_of_shown h hlt), sub_add_cancel]
    · rw [instantOf_after hge, wallAt_after (instant_le_instantOf ha hge)]
      exact ih ha.2 (shown_tail h)

/-- **Later readings come later**, when both are shown. -/
theorem instantOf_lt {w' : ℚ} (ha : ApartFrom m o l) (h : Shown o l w) (h' : Shown o l w')
    (hlt : w < w') : instantOf o l w < instantOf o l w' := by
  induction l generalizing m o with
  | nil => exact sub_lt_sub_right hlt o
  | cons tr rest ih =>
    rcases lt_or_ge w' (tr.instant + max o tr.offset) with hw' | hw'
    · rw [instantOf_before hw', instantOf_before (hlt.trans hw')]
      exact sub_lt_sub_right hlt o
    · rcases lt_or_ge w (tr.instant + max o tr.offset) with hw | hw
      · rw [instantOf_before hw, instantOf_after hw']
        exact (lt_instant_of_shown h hw).trans_le (instant_le_instantOf ha hw')
      · rw [instantOf_after hw, instantOf_after hw']
        exact ih ha.2 (shown_tail h) (shown_tail h')

/-! ### Around a gap -/

theorem le_gap_start (h : ApartFrom m o l) : ∀ g ∈ gaps o l, m ≤ g.start := by
  induction l generalizing m o with
  | nil => exact fun g hg => absurd hg List.not_mem_nil
  | cons tr rest ih =>
    have hmin : min o tr.offset ≤ o := min_le_left _ _
    have hmax : min o tr.offset ≤ max o tr.offset := min_le_max
    have hfirst := h.1
    intro g hg
    rw [gaps] at hg
    split at hg
    · rcases List.mem_cons.mp hg with rfl | hg
      · show m ≤ tr.instant + o
        linarith
      · have hrest := ih h.2 g hg
        linarith
    · have hrest := ih h.2 g hg
      linarith

/-- The conversions around a gap from the offset `before` to the offset `after`. -/
structure GapShape (o : ℚ) (l : List Transition) (g : Gap) (before after : ℚ) : Prop where
  length_eq : g.length = after - before
  length_pos : 0 < g.length
  /-- In the gap the earlier offset is taken. -/
  instant_inside : ∀ w, g.start ≤ w → w < g.stop → instantOf o l w = w - before
  /-- The minute behind the gap. -/
  shown_behind : ∀ w, g.stop ≤ w → w < g.stop + 60 → Shown o l w
  instant_behind : ∀ w, g.stop ≤ w → w < g.stop + 60 → instantOf o l w = w - after
  wall_behind : ∀ t, g.stop ≤ t + after → t + after < g.stop + 60 → wallAt o l t = t + after
  /-- Later on the clock shows later readings. -/
  wall_later : ∀ t, g.stop + 60 ≤ t + after → g.stop + 60 ≤ wallAt o l t

theorem GapShape.cons {g : Gap} {before after : ℚ} (ha : ApartFrom m o (tr :: rest))
    (hg : g ∈ gaps tr.offset rest) (h : GapShape tr.offset rest g before after) :
    GapShape o (tr :: rest) g before after := by
  have hstart := le_gap_start ha.2 g hg
  have hlength := h.length_pos
  rw [Gap.length] at hlength
  have hoffset : tr.offset ≤ max o tr.offset := le_max_right _ _
  -- the clock reaches the end of the gap after the first transition
  have hbehind : tr.instant ≤ g.stop - after := by
    have hstop := instant_le_instantOf (w := g.stop) ha (by linarith)
    rw [h.instant_behind g.stop le_rfl (by linarith)] at hstop
    exact hstop
  refine ⟨h.length_eq, h.length_pos, ?_, ?_, ?_, ?_, ?_⟩
  · intro w hw hw'
    rw [instantOf_after (by linarith)]
    exact h.instant_inside w hw hw'
  · intro w hw hw' k hk
    rw [gaps] at hk
    split at hk
    · rename_i hlt
      rcases List.mem_cons.mp hk with rfl | hk
      · rintro ⟨_, hstop⟩
        change w < tr.instant + tr.offset at hstop
        linarith
      · exact h.shown_behind w hw hw' k hk
    · exact h.shown_behind w hw hw' k hk
  · intro w hw hw'
    rw [instantOf_after (by linarith)]
    exact h.instant_behind w hw hw'
  · intro t ht ht'
    rw [wallAt_after (by linarith)]
    exact h.wall_behind t ht ht'
  · intro t ht
    rw [wallAt_after (by linarith)]
    exact h.wall_later t ht

theorem gapShape_first (ha : ApartFrom m o (tr :: rest)) (hlt : o < tr.offset) :
    GapShape o (tr :: rest) ⟨tr.instant + o, tr.instant + tr.offset⟩ o tr.offset := by
  have hmax : max o tr.offset = tr.offset := max_eq_right hlt.le
  have hrest : ApartFrom (tr.instant + tr.offset + 60) tr.offset rest := by
    have h2 := ha.2
    rw [hmax] at h2
    exact h2
  refine ⟨?_, ?_, ?_, ?_, ?_, ?_, ?_⟩
  · rw [Gap.length]
    ring
  · rw [Gap.length]
    linarith
  · intro w _ hw
    exact instantOf_before (by rw [hmax]; exact hw)
  · intro w hw hw' k hk
    rw [gaps, if_pos hlt] at hk
    rintro ⟨hkstart, hkstop⟩
    rcases List.mem_cons.mp hk with rfl | hk
    · exact absurd hw (not_le.mpr hkstop)
    · have hstart := le_gap_start hrest k hk
      change w < tr.instant + tr.offset + 60 at hw'
      linarith
  · intro w hw hw'
    rw [instantOf_after (by rw [hmax]; exact hw)]
    exact instantOf_of_lt hrest hw'
  · intro t ht ht'
    change tr.instant + tr.offset ≤ t + tr.offset at ht
    rw [wallAt_after (by linarith)]
    exact wallAt_of_lt hrest ht'
  · intro t ht
    change tr.instant + tr.offset + 60 ≤ t + tr.offset at ht
    rw [wallAt_after (by linarith)]
    exact le_wallAt hrest ht

/-- **Every gap** is the step from one offset to a higher one. -/
theorem gapShape_of_mem (ha : ApartFrom m o l) {g : Gap} (hg : g ∈ gaps o l) :
    ∃ before after, GapShape o l g before after := by
  induction l generalizing m o with
  | nil => exact absurd hg List.not_mem_nil
  | cons tr rest ih =>
    rw [gaps] at hg
    split at hg
    · rename_i hlt
      rcases List.mem_cons.mp hg with rfl | hg
      · exact ⟨o, tr.offset, gapShape_first ha hlt⟩
      · obtain ⟨before, after, hshape⟩ := ih ha.2 hg
        exact ⟨before, after, hshape.cons ha hg⟩
    · obtain ⟨before, after, hshape⟩ := ih ha.2 hg
      exact ⟨before, after, hshape.cons ha hg⟩

def offsets (o : ℚ) (l : List Transition) : List ℚ := o :: l.map Transition.offset

theorem offsetOfWall_mem : offsetOfWall o l w ∈ offsets o l := by
  induction l generalizing o with
  | nil => exact List.mem_cons_self
  | cons tr rest ih =>
    rw [offsetOfWall]
    split
    · exact List.mem_cons_self
    · exact List.mem_cons_of_mem _ ih

end Lists

structure Zone where
  initial : ℚ
  transitions : List Transition
  apart : ∃ m, ApartFrom m initial transitions

namespace Zone

def gaps (z : Zone) : List Gap := TimeZone.gaps z.initial z.transitions

def offsets (z : Zone) : List ℚ := TimeZone.offsets z.initial z.transitions

end Zone

end FavoniusBackend.Lib.TimeZone
