import Mathlib.Tactic

/-!
# Trapezoids cut by a grid

A segment is the graph of a linearly interpolated quantity over an interval `[t0, t1]`.  Its area is a
trapezoid, and so is the part of the area that lies above any subinterval.  Cutting the line into
cells `[w h, w (h + 1))` splits the area of a segment among the cells it meets; the pieces add up to
the whole (`sum_cell`).

A segment that lies in one cell gives its whole area to that cell.  A segment of positive height that
reaches beyond the cell in which it begins does not, and weighing the pieces by the cell index then
gives strictly more than weighing the whole area by the index of the first cell
(`index_sum_gt_of_reaches`).
-/

namespace FavoniusBackend.Lib.Trapezoid

open Finset

/-- A linearly interpolated quantity over `[t0, t1]`, from `k0` to `k1`. -/
structure Segment where
  t0 : ℚ
  t1 : ℚ
  k0 : ℚ
  k1 : ℚ
  deriving DecidableEq, Repr

namespace Segment

/-- The interpolated height at `x`. -/
def power (s : Segment) (x : ℚ) : ℚ := s.k0 + (s.k1 - s.k0) * (x - s.t0) / (s.t1 - s.t0)

def area (s : Segment) : ℚ := (s.k0 + s.k1) / 2 * (s.t1 - s.t0)

/-- The area above `[lo, hi]`: the trapezoid between the interpolated heights at the two ends of the
common interval. -/
def within (s : Segment) (lo hi : ℚ) : ℚ :=
  if max s.t0 lo ≤ min s.t1 hi then
    (s.power (max s.t0 lo) + s.power (min s.t1 hi)) / 2 * (min s.t1 hi - max s.t0 lo)
  else 0

/-- The area above the cell `[w h, w (h + 1))` of the grid of width `w`. -/
def cell (w : ℚ) (s : Segment) (h : ℤ) : ℚ := s.within (w * h) (w * (h + 1))

/-! ### The primitive -/

/-- The area from `t0` up to `x`. -/
def primitive (s : Segment) (x : ℚ) : ℚ :=
  s.k0 * (x - s.t0) + (s.k1 - s.k0) / (s.t1 - s.t0) * (x - s.t0) ^ 2 / 2

def clamp (s : Segment) (x : ℚ) : ℚ := max s.t0 (min x s.t1)

theorem trapezoid_eq_primitive_sub (s : Segment) (a b : ℚ) :
    (s.power a + s.power b) / 2 * (b - a) = s.primitive b - s.primitive a := by
  rw [power, power, primitive, primitive]
  ring

theorem clamp_of_le (s : Segment) (hs : s.t0 ≤ s.t1) {x : ℚ} (hx : x ≤ s.t0) :
    s.clamp x = s.t0 := by
  rw [clamp, min_eq_left (hx.trans hs), max_eq_left hx]

theorem clamp_of_ge (s : Segment) (hs : s.t0 ≤ s.t1) {x : ℚ} (hx : s.t1 ≤ x) :
    s.clamp x = s.t1 := by
  rw [clamp, min_eq_right hx, max_eq_right hs]

theorem clamp_of_mem (s : Segment) {x : ℚ} (hlo : s.t0 ≤ x) (hhi : x ≤ s.t1) : s.clamp x = x := by
  rw [clamp, min_eq_left hhi, max_eq_right hlo]

theorem within_eq_primitive_sub (s : Segment) (hs : s.t0 ≤ s.t1) {lo hi : ℚ} (h : lo ≤ hi) :
    s.within lo hi = s.primitive (s.clamp hi) - s.primitive (s.clamp lo) := by
  rw [within]
  split
  · rename_i hab
    have hlo : s.clamp lo = max s.t0 lo := by
      have hle : lo ≤ s.t1 := (le_max_right _ _).trans (hab.trans (min_le_left _ _))
      rw [clamp, min_eq_left hle]
    have hhi : s.clamp hi = min s.t1 hi := by
      have hge : s.t0 ≤ min s.t1 hi := (le_max_left _ _).trans hab
      rw [clamp, min_comm hi, max_eq_right hge]
    rw [hlo, hhi, trapezoid_eq_primitive_sub]
  · rename_i hab
    -- the interval misses the segment, on one side or the other
    rcases le_total hi s.t0 with hbefore | hafter
    · rw [s.clamp_of_le hs hbefore, s.clamp_of_le hs (h.trans hbefore), sub_self]
    · have hlt : s.t1 < lo := by
        by_contra hnot
        push Not at hnot
        exact hab (max_le (le_min hs hafter) (le_min hnot h))
      rw [s.clamp_of_ge hs (hlt.le.trans h), s.clamp_of_ge hs hlt.le, sub_self]

theorem primitive_t0 (s : Segment) : s.primitive s.t0 = 0 := by
  simp [primitive]

theorem primitive_t1 (s : Segment) : s.primitive s.t1 = s.area := by
  rw [primitive, area]
  by_cases h : s.t1 - s.t0 = 0
  · rw [h]
    ring
  · field_simp
    ring

/-! ### Cells -/

theorem cell_bounds {w : ℚ} (hw : 0 ≤ w) (h : ℤ) : w * (h : ℚ) ≤ w * (h + 1) := by
  nlinarith

/-- **The cells share out the area.** -/
theorem sum_cell {w : ℚ} (hw : 0 ≤ w) (s : Segment) (hs : s.t0 ≤ s.t1) (h₀ : ℤ) (n : ℕ)
    (hlo : w * h₀ ≤ s.t0) (hhi : s.t1 ≤ w * (h₀ + n)) :
    ∑ i ∈ range n, s.cell w (h₀ + i) = s.area := by
  have hcell : ∀ i ∈ range n, s.cell w (h₀ + i) =
      s.primitive (s.clamp (w * (h₀ + (i + 1 : ℕ)))) - s.primitive (s.clamp (w * (h₀ + (i : ℕ)))) := by
    intro i _
    rw [cell, s.within_eq_primitive_sub hs (cell_bounds hw _)]
    push_cast
    rw [add_assoc]
  rw [sum_congr rfl hcell, sum_range_sub (fun i : ℕ => s.primitive (s.clamp (w * (h₀ + (i : ℚ)))))]
  rw [s.clamp_of_ge hs hhi]
  have hzero : w * ((h₀ : ℚ) + ((0 : ℕ) : ℚ)) = w * h₀ := by simp
  rw [hzero, s.clamp_of_le hs hlo, primitive_t0, primitive_t1, sub_zero]

theorem cell_eq_area {w : ℚ} (s : Segment) (hs : s.t0 ≤ s.t1) (h : ℤ)
    (hlo : w * h ≤ s.t0) (hhi : s.t1 ≤ w * (h + 1)) : s.cell w h = s.area := by
  rw [cell, s.within_eq_primitive_sub hs (hlo.trans (hs.trans hhi)), s.clamp_of_le hs hlo,
    s.clamp_of_ge hs hhi, primitive_t0, primitive_t1, sub_zero]

theorem cell_eq_zero_of_before {w : ℚ} (hw : 0 ≤ w) (s : Segment) (hs : s.t0 ≤ s.t1) (h : ℤ)
    (hend : w * (h + 1) ≤ s.t0) : s.cell w h = 0 := by
  have hstart : w * (h : ℚ) ≤ s.t0 := (cell_bounds hw h).trans hend
  rw [cell, s.within_eq_primitive_sub hs (cell_bounds hw h), s.clamp_of_le hs hend,
    s.clamp_of_le hs hstart, sub_self]

theorem cell_eq_zero_of_after {w : ℚ} (hw : 0 ≤ w) (s : Segment) (hs : s.t0 ≤ s.t1) (h : ℤ)
    (hstart : s.t1 ≤ w * h) : s.cell w h = 0 := by
  rw [cell, s.within_eq_primitive_sub hs (cell_bounds hw h),
    s.clamp_of_ge hs (hstart.trans (cell_bounds hw h)), s.clamp_of_ge hs hstart, sub_self]

/-- Interpolation between positive heights is positive. -/
theorem power_pos (s : Segment) (h0 : 0 < s.k0) (h1 : 0 < s.k1) {x : ℚ}
    (hlo : s.t0 ≤ x) (hhi : x ≤ s.t1) : 0 < s.power x := by
  rw [power]
  rcases (hlo.trans hhi).eq_or_lt with heq | hlt
  · rw [heq, sub_self, div_zero, add_zero]
    exact h0
  · have hd : 0 < s.t1 - s.t0 := by linarith
    have heq : s.k0 + (s.k1 - s.k0) * (x - s.t0) / (s.t1 - s.t0) =
        (s.k0 * (s.t1 - x) + s.k1 * (x - s.t0)) / (s.t1 - s.t0) := by
      field_simp
      ring
    rw [heq]
    apply div_pos _ hd
    rcases hlo.eq_or_lt with h | h
    · have hx : 0 < s.t1 - x := by linarith
      have := mul_pos h0 hx
      rw [← h, sub_self, mul_zero, add_zero]
      rw [← h] at this
      exact this
    · have hx : 0 < x - s.t0 := by linarith
      have h2 := mul_pos h1 hx
      have h3 := mul_nonneg h0.le (sub_nonneg.mpr hhi)
      linarith

theorem within_nonneg (s : Segment) (h0 : 0 < s.k0) (h1 : 0 < s.k1) (lo hi : ℚ) :
    0 ≤ s.within lo hi := by
  rw [within]
  split
  · rename_i hab
    have ha := s.power_pos h0 h1 (le_max_left s.t0 lo) (hab.trans (min_le_left _ _))
    have hb := s.power_pos h0 h1 ((le_max_left s.t0 lo).trans hab) (min_le_left s.t1 hi)
    apply mul_nonneg
    · linarith
    · linarith
  · exact le_rfl

/-- A segment of positive height that reaches beyond the cell in which it begins leaves some of its
area to the later cells. -/
theorem cell_lt_area {w : ℚ} (hw : 0 ≤ w) (s : Segment) (h0 : 0 < s.k0) (h1 : 0 < s.k1) (h : ℤ)
    (hlo : w * h ≤ s.t0) (hin : s.t0 ≤ w * (h + 1)) (hout : w * (h + 1) < s.t1) :
    s.cell w h < s.area := by
  have hs : s.t0 ≤ s.t1 := hin.trans hout.le
  have hrest : 0 < s.primitive s.t1 - s.primitive (w * (h + 1)) := by
    rw [← trapezoid_eq_primitive_sub]
    have ha := s.power_pos h0 h1 hin hout.le
    have hb := s.power_pos h0 h1 hs le_rfl
    apply mul_pos
    · linarith
    · linarith
  rw [cell, s.within_eq_primitive_sub hs (cell_bounds hw h), s.clamp_of_le hs hlo,
    s.clamp_of_mem hin hout.le, primitive_t0, ← primitive_t1]
  linarith

theorem cell_le_area {w : ℚ} (hw : 0 ≤ w) (s : Segment) (hs : s.t0 ≤ s.t1) (h0 : 0 < s.k0)
    (h1 : 0 < s.k1) (h : ℤ) (hlo : w * h ≤ s.t0) (hin : s.t0 ≤ w * (h + 1)) :
    s.cell w h ≤ s.area := by
  rcases le_or_gt s.t1 (w * (h + 1)) with hinside | hout
  · exact (s.cell_eq_area hs h hlo hinside).le
  · exact (s.cell_lt_area hw h0 h1 h hlo hin hout).le

/-! ### Weighing the cells -/

/-- The area weighted by a value for each of the `n` cells from `h₀` on. -/
def weigh (w : ℚ) (p : ℤ → ℚ) (h₀ : ℤ) (n : ℕ) (s : Segment) : ℚ :=
  ∑ i ∈ range n, p (h₀ + i) * s.cell w (h₀ + i)

theorem weigh_of_single {w : ℚ} (hw : 0 ≤ w) (p : ℤ → ℚ) (h₀ : ℤ) (n : ℕ) (s : Segment)
    (hs : s.t0 ≤ s.t1) (h : ℤ) (hlo : w * h ≤ s.t0) (hhi : s.t1 ≤ w * (h + 1))
    (h₀lo : w * h₀ ≤ s.t0) (hnhi : s.t1 ≤ w * (h₀ + n)) :
    s.weigh w p h₀ n = p h * s.area := by
  rw [weigh, ← s.sum_cell hw hs h₀ n h₀lo hnhi, mul_sum]
  apply sum_congr rfl
  intro i _
  -- away from `h` the pieces vanish, and at `h` the weight is `p h`
  rcases lt_trichotomy (h₀ + (i : ℤ)) h with hlt | heq | hgt
  · have hle : ((h₀ + (i : ℤ) : ℤ) : ℚ) + 1 ≤ h := by exact_mod_cast hlt
    have hz := s.cell_eq_zero_of_before hw hs (h₀ + i)
      ((mul_le_mul_of_nonneg_left hle hw).trans hlo)
    rw [hz, mul_zero, mul_zero]
  · rw [heq]
  · have hle : (h : ℚ) + 1 ≤ ((h₀ + (i : ℤ) : ℤ) : ℚ) := by exact_mod_cast hgt
    have hz := s.cell_eq_zero_of_after hw hs (h₀ + i)
      (hhi.trans (mul_le_mul_of_nonneg_left hle hw))
    rw [hz, mul_zero, mul_zero]

/-- Moving the whole area into the first cell never raises the index-weighted sum, and each piece
outside that cell counts at least once against it. -/
theorem index_sum_ge {w : ℚ} (hw : 0 ≤ w) (h₀ : ℤ) (n : ℕ) (s : Segment) (hs : s.t0 ≤ s.t1)
    (hk0 : 0 < s.k0) (hk1 : 0 < s.k1) (h : ℤ) (hlo : w * h ≤ s.t0)
    (h₀lo : w * h₀ ≤ s.t0) (hnhi : s.t1 ≤ w * (h₀ + n)) (hrange : h₀ ≤ h ∧ h < h₀ + n) :
    h * s.area + (s.area - s.cell w h) ≤ s.weigh w (fun z => (z : ℚ)) h₀ n := by
  have hsum := s.sum_cell hw hs h₀ n h₀lo hnhi
  have hpoint : ∀ i ∈ range n, (h : ℚ) * s.cell w (h₀ + i) +
      (if (h₀ + (i : ℤ)) = h then 0 else s.cell w (h₀ + i)) ≤
        ((h₀ + (i : ℤ) : ℤ) : ℚ) * s.cell w (h₀ + i) := by
    intro i _
    have hnn : 0 ≤ s.cell w (h₀ + i) := s.within_nonneg hk0 hk1 _ _
    rcases lt_trichotomy (h₀ + (i : ℤ)) h with hlt | heq | hgt
    · have hle : ((h₀ + (i : ℤ) : ℤ) : ℚ) + 1 ≤ h := by exact_mod_cast hlt
      have hz := s.cell_eq_zero_of_before hw hs (h₀ + i)
        ((mul_le_mul_of_nonneg_left hle hw).trans hlo)
      rw [hz]
      simp
    · rw [if_pos heq, heq, add_zero]
    · have hle : (h : ℚ) + 1 ≤ ((h₀ + (i : ℤ) : ℤ) : ℚ) := by exact_mod_cast hgt
      rw [if_neg (ne_of_gt hgt)]
      nlinarith
  have hpick : ∑ i ∈ range n, (if (h₀ + (i : ℤ)) = h then 0 else s.cell w (h₀ + i)) =
      s.area - s.cell w h := by
    have hone : ∑ i ∈ range n, (if (h₀ + (i : ℤ)) = h then s.cell w (h₀ + i) else 0) =
        s.cell w h := by
      have hi : (h - h₀).toNat ∈ range n := by
        rw [mem_range]
        omega
      rw [sum_eq_single_of_mem (h - h₀).toNat hi]
      · have heq : h₀ + ((h - h₀).toNat : ℤ) = h := by omega
        rw [if_pos heq, heq]
      · intro j _ hj
        have hne : h₀ + (j : ℤ) ≠ h := by omega
        rw [if_neg hne]
    have hsplit : ∀ i ∈ range n, (if (h₀ + (i : ℤ)) = h then 0 else s.cell w (h₀ + i)) =
        s.cell w (h₀ + i) - (if (h₀ + (i : ℤ)) = h then s.cell w (h₀ + i) else 0) := by
      intro i _
      split
      · rw [sub_self]
      · rw [sub_zero]
    rw [sum_congr rfl hsplit, sum_sub_distrib, hsum, hone]
  have hall := sum_le_sum hpoint
  rw [sum_add_distrib, ← mul_sum, hsum, hpick] at hall
  exact hall

/-- **Reaching beyond the first cell shows.**  Weighed by the cell index, the pieces of such a segment
add up to more than its area times the index of its first cell. -/
theorem index_sum_gt_of_reaches {w : ℚ} (hw : 0 ≤ w) (h₀ : ℤ) (n : ℕ) (s : Segment)
    (hk0 : 0 < s.k0) (hk1 : 0 < s.k1) (h : ℤ) (hlo : w * h ≤ s.t0) (hin : s.t0 ≤ w * (h + 1))
    (hout : w * (h + 1) < s.t1) (h₀lo : w * h₀ ≤ s.t0) (hnhi : s.t1 ≤ w * (h₀ + n))
    (hrange : h₀ ≤ h ∧ h < h₀ + n) :
    h * s.area < s.weigh w (fun z => (z : ℚ)) h₀ n := by
  have hge := s.index_sum_ge hw h₀ n (hin.trans hout.le) hk0 hk1 h hlo h₀lo hnhi hrange
  have hlt := s.cell_lt_area hw hk0 hk1 h hlo hin hout
  linarith

end Segment

end FavoniusBackend.Lib.Trapezoid
