import Mathlib.Data.Int.Log
import Mathlib.Tactic

/-!
# Rounding conventions

The conversions between exact rationals and coarser number formats that the program meets: Python's
`int(x)` (truncation towards zero), `Decimal.quantize` under the default context (round half to even at
a fixed number of decimals), the rounding of every operation on doubles and the storage of a value in a
PostgreSQL `NUMERIC(p, s)` column (round half away from zero, and an error when the integer part does
not fit).
-/

namespace FavoniusBackend.Lib.Numeric

/-- Python's `int(q)`: truncation towards zero. -/
def pyInt (q : ℚ) : ℤ := if 0 ≤ q then ⌊q⌋ else ⌈q⌉

def roundHalfEven (q : ℚ) : ℤ :=
  if q - ⌊q⌋ < 1 / 2 then ⌊q⌋
  else if 1 / 2 < q - ⌊q⌋ then ⌊q⌋ + 1
  else if ⌊q⌋ % 2 = 0 then ⌊q⌋ else ⌊q⌋ + 1

theorem abs_roundHalfEven_sub_le (q : ℚ) : |(roundHalfEven q : ℚ) - q| ≤ 1 / 2 := by
  have hlo : (⌊q⌋ : ℚ) ≤ q := Int.floor_le q
  have hhi : q < ⌊q⌋ + 1 := Int.lt_floor_add_one q
  rw [abs_le]
  unfold roundHalfEven
  split
  · constructor <;> linarith
  · rename_i h1
    split
    · push_cast
      constructor <;> linarith
    · rename_i h2
      split
      · constructor <;> linarith
      · push_cast
        constructor <;> linarith

/-- `Decimal.quantize` to `d` decimals. -/
def quantize (d : ℕ) (q : ℚ) : ℚ := (roundHalfEven (q * 10 ^ d) : ℚ) / 10 ^ d

/-- Quantizing to `d` decimals moves a value by at most half a unit in the last place. -/
theorem abs_quantize_sub_le (d : ℕ) (q : ℚ) : |quantize d q - q| ≤ 1 / 2 / 10 ^ d := by
  have h10 : (0 : ℚ) < 10 ^ d := by positivity
  have h := abs_roundHalfEven_sub_le (q * 10 ^ d)
  have heq : quantize d q - q = ((roundHalfEven (q * 10 ^ d) : ℚ) - q * 10 ^ d) / 10 ^ d := by
    rw [quantize]
    field_simp
  rw [heq, abs_div, abs_of_pos h10]
  exact div_le_div_of_nonneg_right h h10.le

/-! ### Doubles -/

/-- The distance of the doubles around a number; below the normal range it stays that of the subnormal ones. -/
def ulp (q : ℚ) : ℚ := 2 ^ max (Int.log 2 |q| - 52) (-1074)

/-- The double nearest to a number, ties to the even one.  The exponent has no upper bound here. -/
def roundDouble (q : ℚ) : ℚ := roundHalfEven (q / ulp q) * ulp q

theorem ulp_pos (q : ℚ) : 0 < ulp q := by
  unfold ulp
  positivity

theorem roundDouble_zero : roundDouble 0 = 0 := by
  decide +kernel

theorem abs_roundDouble_sub_le (q : ℚ) : |roundDouble q - q| ≤ ulp q / 2 := by
  have hpos := ulp_pos q
  have heq : roundDouble q - q = ((roundHalfEven (q / ulp q) : ℚ) - q / ulp q) * ulp q := by
    rw [roundDouble]
    field_simp
  rw [heq, abs_mul, abs_of_pos hpos]
  have h := mul_le_mul_of_nonneg_right (abs_roundHalfEven_sub_le (q / ulp q)) hpos.le
  linarith

/-- In the normal range the distance is at most `2 ^ -52` of the number. -/
theorem ulp_le {q : ℚ} (h : 1 / 2 ^ 1022 ≤ q) : ulp q ≤ q / 2 ^ 52 := by
  have hq : 0 < q := lt_of_lt_of_le (by positivity) h
  have hlog : -1022 ≤ Int.log 2 q := by
    rw [← Int.zpow_le_iff_le_log (by norm_num) hq]
    rw [show ((2 : ℕ) : ℚ) ^ (-1022 : ℤ) = 1 / 2 ^ 1022 by rw [zpow_neg, one_div]; norm_cast]
    exact h
  rw [ulp, abs_of_pos hq, max_eq_left (by omega), zpow_sub₀ two_ne_zero]
  have hself : (2 : ℚ) ^ Int.log 2 q ≤ q := by
    exact_mod_cast Int.zpow_log_le_self (b := 2) (by norm_num) hq
  exact div_le_div_of_nonneg_right hself (by positivity)

/-- **One rounding.**  A number that is off by a fraction `δ` is off by at most `2 ^ -52` more after it. -/
theorem roundDouble_near {x y δ : ℚ} (hy : 1 / 2 ^ 100 ≤ y) (hδ : δ ≤ 1 / 2) (h : |x - y| ≤ δ * y) :
    |roundDouble x - y| ≤ (δ + 1 / 2 ^ 52) * y := by
  have hpos : 0 < y := lt_of_lt_of_le (by positivity) hy
  have hδy : δ * y ≤ 1 / 2 * y := mul_le_mul_of_nonneg_right hδ hpos.le
  obtain ⟨hlo, hhi⟩ := abs_le.mp h
  have hx : 1 / 2 ^ 1022 ≤ x := by
    refine (one_div_le_one_div_of_le (by positivity) (pow_le_pow_right₀ one_le_two (by omega : 101 ≤ 1022))).trans ?_
    have hhalf : (1 : ℚ) / 2 ^ 101 = 1 / 2 * (1 / 2 ^ 100) := by norm_num
    linarith
  have hround := (abs_roundDouble_sub_le x).trans (div_le_div_of_nonneg_right (ulp_le hx) zero_le_two)
  have htri := abs_sub_le (roundDouble x) x y
  have hsum : (δ + 1 / 2 ^ 52) * y = δ * y + y / 2 ^ 52 := by ring
  have hx2 : x / 2 ^ 52 / 2 ≤ y / 2 ^ 52 := by
    rw [div_div, div_le_div_iff₀ (by positivity) (by positivity)]
    nlinarith
  linarith

/-- Storage in a `NUMERIC(p, s)` column: round half away from zero at `s` decimals, `none` for
`numeric field overflow`. -/
def numericColumn (p s : ℕ) (q : ℚ) : Option ℚ :=
  let r : ℚ := (if 0 ≤ q then (⌊q * 10 ^ s + 1 / 2⌋ : ℚ) else (⌈q * 10 ^ s - 1 / 2⌉ : ℚ)) / 10 ^ s
  if |r| < 10 ^ (p - s) then some r else none

end FavoniusBackend.Lib.Numeric
