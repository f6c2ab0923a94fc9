import FavoniusBackend.Lib.TimeZone
import FavoniusBackend.Scheduling.Recurring

/-!
# Local times of the templates

`_to_utc` over a zone of transitions (`Lib.TimeZone`).  A reading that the clock shows keeps its instant.
A reading in a gap is moved out of it minute by minute, so it ends up in the first minute behind the gap
(`exit`, `toUtc_gap`); only a gap so short that the clock stays within the minute is not noticed,
and there the reading moves by the length of the gap.

Either way the instant is that of a reading which the clock does show (`toUtc_stands`).
-/

namespace FavoniusBackend.Scheduling.LocalTimes

open Lib Lib.TimeZone Scheduling.Recurring

/-- The `ZoneInfo` of a zone. -/
def zoneInfo (z : Zone) : ZoneInfo :=
  ⟨offsetAt z.initial z.transitions, offsetOfWall z.initial z.transitions⟩

def reading (date : ℤ) (timeOfDay : ℚ) : ℚ := 86400 * (date : ℚ) + timeOfDay

/-- `naive` lies in the gap. -/
def Skips (g : Gap) (w : ℚ) : Prop := g.start ≤ w ∧ w < g.stop

instance (g : Gap) (w : ℚ) : Decidable (Skips g w) := inferInstanceAs (Decidable (_ ∧ _))

/-- The reading that stands for one in the gap: unnoticed within a minute, else the first of the
following minutes that is behind the gap. -/
def exit (g : Gap) (w : ℚ) : ℚ :=
  if ⌊(w + g.length) / 60⌋ = ⌊w / 60⌋ then w + g.length else w + 60 * (⌈(g.stop - w) / 60⌉ : ℚ)

/-! ### Minutes -/

theorem floor_minute_lt {v w : ℚ} (h : v + 60 ≤ w) : ⌊v / 60⌋ < ⌊w / 60⌋ := by
  rw [Int.lt_iff_add_one_le, Int.le_floor]
  have hfloor := Int.floor_le (v / 60)
  push_cast
  linarith

theorem lt_of_floor_minute_eq {v w : ℚ} (h : ⌊w / 60⌋ = ⌊v / 60⌋) : w < v + 60 := by
  by_contra hge
  have hlt := floor_minute_lt (not_lt.mp hge)
  omega

section Zone

variable {z : Zone} {w : ℚ} {g : Gap}

/-- A reading that the clock shows exists for the code. -/
theorem isNonexistent_shown (h : Shown z.initial z.transitions w) :
    (zoneInfo z).isNonexistent w = false := by
  obtain ⟨m, ha⟩ := z.apart
  have hback : (zoneInfo z).wallAt ((zoneInfo z).instantOf w) = w := wallAt_instantOf ha h
  rw [ZoneInfo.isNonexistent, hback]
  exact decide_eq_false (not_not.mpr rfl)

theorem toUtc_shown {date : ℤ} {timeOfDay : ℚ}
    (h : Shown z.initial z.transitions (reading date timeOfDay)) :
    (zoneInfo z).toUtc date timeOfDay = (zoneInfo z).instantOf (reading date timeOfDay) := by
  have hexists := isNonexistent_shown h
  rw [reading] at hexists
  rw [ZoneInfo.toUtc, reading]
  simp only [hexists]
  rfl

/-- In a gap the code sees a reading that does not exist, unless the clock stays within the minute. -/
theorem isNonexistent_gap (hg : g ∈ z.gaps) (hw : Skips g w) :
    (zoneInfo z).isNonexistent w = decide (⌊(w + g.length) / 60⌋ ≠ ⌊w / 60⌋) := by
  obtain ⟨m, ha⟩ := z.apart
  obtain ⟨before, after, hshape⟩ := gapShape_of_mem ha hg
  have hlength := hshape.length_eq
  have hlength' : g.length = g.stop - g.start := rfl
  have hinstant : (zoneInfo z).instantOf w = w - before := hshape.instant_inside w hw.1 hw.2
  have htime : w - before + after = w + g.length := by linarith
  obtain ⟨hstart, hstop⟩ := hw
  rw [ZoneInfo.isNonexistent, hinstant]
  rcases lt_or_ge (w + g.length) (g.stop + 60) with hlt | hge
  · have hwall : (zoneInfo z).wallAt (w - before) = w + g.length := by
      rw [← htime]
      exact hshape.wall_behind (w - before) (by linarith) (by linarith)
    rw [hwall]
  · -- the clock shows a later minute, and so does the reading moved by the whole gap
    have hwall : g.stop + 60 ≤ (zoneInfo z).wallAt (w - before) :=
      hshape.wall_later (w - before) (by linarith)
    have h1 := floor_minute_lt (v := w) (w := (zoneInfo z).wallAt (w - before)) (by linarith)
    have h2 := floor_minute_lt (v := w) (w := w + g.length) (by linarith)
    rw [decide_eq_true h1.ne', decide_eq_true h2.ne']

theorem exit_bounds (hw : Skips g w) : g.stop ≤ exit g w ∧ exit g w < g.stop + 60 := by
  obtain ⟨hstart, hstop⟩ := hw
  have hlength : g.length = g.stop - g.start := rfl
  unfold exit
  split
  · rename_i hsame
    have hshort := lt_of_floor_minute_eq hsame
    exact ⟨by linarith, by linarith⟩
  · have hlo := Int.le_ceil ((g.stop - w) / 60)
    have hhi := Int.ceil_lt_add_one ((g.stop - w) / 60)
    refine ⟨?_, ?_⟩
    · linarith [(div_le_iff₀ (by norm_num : (0 : ℚ) < 60)).mp hlo]
    · have hhi' : (⌈(g.stop - w) / 60⌉ : ℚ) * 60 < g.stop - w + 60 := by
        calc (⌈(g.stop - w) / 60⌉ : ℚ) * 60 < ((g.stop - w) / 60 + 1) * 60 := by linarith
          _ = g.stop - w + 60 := by ring
      linarith

theorem find_steppedWalls (hg : g ∈ z.gaps) (hlong : g.length ≤ 7200) (hw : Skips g w)
    (hnoticed : ⌊(w + g.length) / 60⌋ ≠ ⌊w / 60⌋) :
    (ZoneInfo.steppedWalls w).find? (fun v => !(zoneInfo z).isNonexistent v) = some (exit g w) := by
  obtain ⟨m, ha⟩ := z.apart
  obtain ⟨before, after, hshape⟩ := gapShape_of_mem ha hg
  have hlength : g.length = g.stop - g.start := rfl
  have hexit : exit g w = w + 60 * (⌈(g.stop - w) / 60⌉ : ℚ) := if_neg hnoticed
  have hbounds := exit_bounds hw
  obtain ⟨hstart, hstop⟩ := hw
  have hpos : 0 < ⌈(g.stop - w) / 60⌉ := Int.ceil_pos.mpr (div_pos (by linarith) (by norm_num))
  have hle : ⌈(g.stop - w) / 60⌉ ≤ 120 := by
    rw [Int.ceil_le]
    push_cast
    rw [div_le_iff₀ (by norm_num)]
    linarith
  obtain ⟨k, hk⟩ := Int.eq_ofNat_of_zero_le (by omega : 0 ≤ ⌈(g.stop - w) / 60⌉ - 1)
  have hceil : (⌈(g.stop - w) / 60⌉ : ℚ) = (k : ℚ) + 1 := by
    have hcast : ⌈(g.stop - w) / 60⌉ = (k : ℤ) + 1 := by omega
    rw [hcast]
    push_cast
    rfl
  rw [ZoneInfo.steppedWalls, List.find?_map, Option.map_eq_some_iff]
  refine ⟨k, ?_, by rw [hexit, hceil]⟩
  rw [List.find?_range_eq_some]
  refine ⟨?_, List.mem_range.mpr (by omega), ?_⟩
  · have hshown := hshape.shown_behind (exit g w) hbounds.1 hbounds.2
    rw [hexit, hceil] at hshown
    simp only [Function.comp_apply, isNonexistent_shown hshown, Bool.not_false]
  · intro j hj
    have hj' : (j : ℚ) + 1 ≤ k := by exact_mod_cast hj
    have hinside : w + 60 * ((j : ℚ) + 1) < g.stop := by
      have hbelow := Int.ceil_lt_add_one ((g.stop - w) / 60)
      rw [hceil] at hbelow
      have hk' : (k : ℚ) * 60 < g.stop - w := (lt_div_iff₀ (by norm_num)).mp (by linarith)
      linarith
    have hskips : Skips g (w + 60 * ((j : ℚ) + 1)) := by
      refine ⟨?_, hinside⟩
      have hj0 : (0 : ℚ) ≤ j := Nat.cast_nonneg j
      linarith
    -- a gap with two of the minutes inside is noticed at each of them
    have hmoved := floor_minute_lt (v := w + 60 * ((j : ℚ) + 1))
      (w := w + 60 * ((j : ℚ) + 1) + g.length) (by
        have hj0 : (0 : ℚ) ≤ j := Nat.cast_nonneg j
        linarith)
    simp only [Function.comp_apply, isNonexistent_gap hg hskips, decide_eq_true hmoved.ne',
      Bool.not_true, Bool.not_false]

/-- **A reading in a gap** is converted as the reading behind it that stands for it. -/
theorem toUtc_gap {date : ℤ} {timeOfDay : ℚ} (hg : g ∈ z.gaps) (hlong : g.length ≤ 7200)
    (hw : Skips g (reading date timeOfDay)) :
    (zoneInfo z).toUtc date timeOfDay = (zoneInfo z).instantOf (exit g (reading date timeOfDay)) ∧
      Shown z.initial z.transitions (exit g (reading date timeOfDay)) := by
  obtain ⟨m, ha⟩ := z.apart
  obtain ⟨before, after, hshape⟩ := gapShape_of_mem ha hg
  have hbounds := exit_bounds hw
  have hshown := hshape.shown_behind _ hbounds.1 hbounds.2
  refine ⟨?_, hshown⟩
  have hnonexistent := isNonexistent_gap hg hw
  rw [ZoneInfo.toUtc]
  show (if (zoneInfo z).isNonexistent (reading date timeOfDay) then _ else _) = _
  by_cases hsame : ⌊(reading date timeOfDay + g.length) / 60⌋ = ⌊reading date timeOfDay / 60⌋
  · rw [hnonexistent, decide_eq_false (not_not.mpr hsame)]
    -- both readings are converted with the offsets on either side of the gap
    have hbehind : (zoneInfo z).instantOf (exit g (reading date timeOfDay)) =
        exit g (reading date timeOfDay) - after := hshape.instant_behind _ hbounds.1 hbounds.2
    have hinside : (zoneInfo z).instantOf (reading date timeOfDay) =
        reading date timeOfDay - before := hshape.instant_inside _ hw.1 hw.2
    have hexit : exit g (reading date timeOfDay) = reading date timeOfDay + g.length := if_pos hsame
    have hlength := hshape.length_eq
    rw [hbehind, hexit]
    show (zoneInfo z).instantOf (reading date timeOfDay) = _
    rw [hinside]
    linarith
  · rw [hnonexistent, decide_eq_true hsame, if_pos rfl]
    show (zoneInfo z).instantOf (((ZoneInfo.steppedWalls (reading date timeOfDay)).find? _).getD _) = _
    rw [find_steppedWalls hg hlong hw hsame]
    rfl

/-- **What a conversion stands for**: the reading itself, or a later one when a gap skips it. -/
theorem toUtc_stands (hgaps : ∀ g ∈ z.gaps, g.length ≤ 7200) (date : ℤ) (timeOfDay : ℚ) :
    ∃ v, Shown z.initial z.transitions v ∧
      (zoneInfo z).toUtc date timeOfDay = (zoneInfo z).instantOf v ∧
      reading date timeOfDay ≤ v ∧ v < reading date timeOfDay + 7260 ∧
      (Shown z.initial z.transitions (reading date timeOfDay) → v = reading date timeOfDay) := by
  by_cases hshown : Shown z.initial z.transitions (reading date timeOfDay)
  · exact ⟨_, hshown, toUtc_shown hshown, le_rfl, by linarith, fun _ => rfl⟩
  · unfold Shown at hshown
    push Not at hshown
    obtain ⟨g, hg, hskips⟩ := hshown
    obtain ⟨hutc, hexit⟩ := toUtc_gap hg (hgaps g hg) hskips
    have hbounds := exit_bounds hskips
    have hlong := hgaps g hg
    rw [Gap.length] at hlong
    obtain ⟨hstart, hstop⟩ := hskips
    exact ⟨_, hexit, hutc, by linarith, by linarith, fun h => absurd ⟨hstart, hstop⟩ (h g hg)⟩

theorem toUtc_near {bound : ℚ} (hoffset : ∀ o ∈ z.offsets, |o| ≤ bound)
    (hgaps : ∀ g ∈ z.gaps, g.length ≤ 7200) (date : ℤ) (timeOfDay : ℚ) :
    reading date timeOfDay - bound ≤ (zoneInfo z).toUtc date timeOfDay ∧
      (zoneInfo z).toUtc date timeOfDay ≤ reading date timeOfDay + bound + 60 := by
  have hnear (v : ℚ) : v - bound ≤ (zoneInfo z).instantOf v ∧ (zoneInfo z).instantOf v ≤ v + bound := by
    have habs := abs_le.mp (hoffset _ (offsetOfWall_mem (w := v)))
    show v - bound ≤ v - offsetOfWall z.initial z.transitions v ∧
      v - offsetOfWall z.initial z.transitions v ≤ v + bound
    exact ⟨by linarith, by linarith⟩
  by_cases hshown : Shown z.initial z.transitions (reading date timeOfDay)
  · rw [toUtc_shown hshown]
    have hself := hnear (reading date timeOfDay)
    exact ⟨hself.1, by linarith⟩
  · unfold Shown at hshown
    push Not at hshown
    obtain ⟨g, hg, hskips⟩ := hshown
    obtain ⟨m, ha⟩ := z.apart
    obtain ⟨before, after, hshape⟩ := gapShape_of_mem ha hg
    have hbounds := exit_bounds hskips
    have hlength := hshape.length_eq
    have hlength' : g.length = g.stop - g.start := rfl
    -- the offset before the gap is the one with which the reading itself is converted
    have hinside : (zoneInfo z).instantOf (reading date timeOfDay) = reading date timeOfDay - before :=
      hshape.instant_inside _ hskips.1 hskips.2
    have hbehind : (zoneInfo z).instantOf (exit g (reading date timeOfDay)) =
        exit g (reading date timeOfDay) - after := hshape.instant_behind _ hbounds.1 hbounds.2
    have hself := hnear (reading date timeOfDay)
    have hexit := hnear (exit g (reading date timeOfDay))
    rw [hinside] at hself
    rw [(toUtc_gap hg (hgaps g hg) hskips).1]
    obtain ⟨hstart, hstop⟩ := hskips
    refine ⟨by linarith, ?_⟩
    rw [hbehind]
    linarith

end Zone

end FavoniusBackend.Scheduling.LocalTimes
