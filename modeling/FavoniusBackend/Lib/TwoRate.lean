import Mathlib.Tactic.Linarith

/-!
# Two-rate costs

A quantity is charged at one rate up to a cap and at another beyond it (`cost`).  When the rate beyond
the cap is the higher one, the cost is the least of all ways to split the quantity into a part below
the cap and a rest (`isLeast_cost`): a linear program finds it without being told where the cap is.
-/

namespace FavoniusBackend.Lib.TwoRate

/-- `low` for each unit up to the cap, `high` for each unit beyond. -/
def cost (low high cap x : ℚ) : ℚ := low * min x cap + high * max 0 (x - cap)

variable {low high cap x : ℚ}

theorem cost_of_le (h : x ≤ cap) : cost low high cap x = low * x := by
  have hmax : max 0 (x - cap) = 0 := max_eq_left (sub_nonpos.mpr h)
  rw [cost, min_eq_left h, hmax, mul_zero, add_zero]

theorem cost_of_ge (h : cap ≤ x) : cost low high cap x = low * cap + high * (x - cap) := by
  have hmax : max 0 (x - cap) = x - cap := max_eq_right (sub_nonneg.mpr h)
  rw [cost, min_eq_right h, hmax]

/-- The part charged at the lower rate and the rest. -/
structure Split (cap x a b : ℚ) : Prop where
  under_nonneg : 0 ≤ a
  over_nonneg : 0 ≤ b
  under_le : a ≤ cap
  total : a + b = x

theorem split_min (hcap : 0 ≤ cap) (hx : 0 ≤ x) : Split cap x (min x cap) (max 0 (x - cap)) := by
  refine ⟨le_min hx hcap, le_max_left _ _, min_le_right _ _, ?_⟩
  rcases le_total x cap with h | h
  · rw [min_eq_left h, max_eq_left (sub_nonpos.mpr h), add_zero]
  · rw [min_eq_right h, max_eq_right (sub_nonneg.mpr h), add_sub_cancel]

theorem cost_le_split {a b : ℚ} (hrate : low ≤ high) (h : Split cap x a b) :
    cost low high cap x ≤ low * a + high * b := by
  have htotal := h.total
  rcases le_total x cap with hx | hx
  · have hover : low * b ≤ high * b := mul_le_mul_of_nonneg_right hrate h.over_nonneg
    rw [cost_of_le hx, ← htotal, mul_add]
    linarith
  · -- what is missing below the cap is charged beyond it
    have hmissing : 0 ≤ (high - low) * (cap - a) :=
      mul_nonneg (sub_nonneg.mpr hrate) (sub_nonneg.mpr h.under_le)
    have hb : b = x - a := by linarith
    rw [cost_of_ge hx, hb]
    linarith

/-- **The cost is the least high all splits.** -/
theorem isLeast_cost (hrate : low ≤ high) (hcap : 0 ≤ cap) (hx : 0 ≤ x) :
    IsLeast {q | ∃ a b, Split cap x a b ∧ low * a + high * b = q} (cost low high cap x) := by
  refine ⟨⟨_, _, split_min hcap hx, rfl⟩, ?_⟩
  rintro q ⟨a, b, hsplit, rfl⟩
  exact cost_le_split hrate hsplit

/-- With non-negative rates more is never cheaper. -/
theorem cost_mono (hl : 0 ≤ low) (hh : 0 ≤ high) : Monotone (cost low high cap) := by
  intro x y hxy
  have hmin : min x cap ≤ min y cap := min_le_min_right cap hxy
  have hmax : max 0 (x - cap) ≤ max 0 (y - cap) := max_le_max_left 0 (sub_le_sub_right hxy cap)
  have hlow := mul_le_mul_of_nonneg_left hmin hl
  have hhigh := mul_le_mul_of_nonneg_left hmax hh
  rw [cost, cost]
  linarith

end FavoniusBackend.Lib.TwoRate
