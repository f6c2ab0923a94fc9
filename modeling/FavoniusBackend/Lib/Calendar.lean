import Mathlib.Tactic

/-!
# The Gregorian calendar

A date is a year, a month of it and a day of that month.  Dates are numbered without gaps: `toOrdinal` counts the days up
to and including a date from the first day of the year 1, and `ofOrdinal` is its inverse.  Years go on in both
directions.

All arithmetic on dates goes through the numbers.
-/

namespace FavoniusBackend.Lib.Calendar

/-! ## Years -/

def isLeap (y : ℤ) : Bool := decide (y % 4 = 0 ∧ (y % 100 ≠ 0 ∨ y % 400 = 0))

def daysBeforeYear (y : ℤ) : ℤ := 365 * (y - 1) + (y - 1) / 4 - (y - 1) / 100 + (y - 1) / 400

def daysInYear (y : ℤ) : ℤ := if isLeap y then 366 else 365

theorem daysBeforeYear_succ (y : ℤ) : daysBeforeYear (y + 1) = daysBeforeYear y + daysInYear y := by
  unfold daysBeforeYear daysInYear isLeap
  by_cases h4 : y % 4 = 0 <;> by_cases h100 : y % 100 = 0 <;> by_cases h400 : y % 400 = 0 <;> simp [h4, h100, h400] <;>
    omega

/-- Whole cycles of 400, 100, 4 and 1 years; the last century of a cycle and the last year of four have a day more. -/
def yearOf (n : ℤ) : ℤ :=
  let cycles := (n - 1) / 146097
  let inCycle := (n - 1) % 146097
  let centuries := min (inCycle / 36524) 3
  let inCentury := inCycle - 36524 * centuries
  let fours := inCentury / 1461
  let years := min (inCentury % 1461 / 365) 3
  400 * cycles + 100 * centuries + 4 * fours + years + 1

theorem daysBeforeYear_cycles (q c f e : ℤ) (hc : 0 ≤ c ∧ c ≤ 3) (hf : 0 ≤ f ∧ f ≤ 24) (he : 0 ≤ e ∧ e ≤ 3) :
    daysBeforeYear (400 * q + 100 * c + 4 * f + e + 1) = 146097 * q + 36524 * c + 1461 * f + 365 * e := by
  unfold daysBeforeYear
  have h4 : (400 * q + 100 * c + 4 * f + e + 1 - 1) / 4 = 100 * q + 25 * c + f := by omega
  have h100 : (400 * q + 100 * c + 4 * f + e + 1 - 1) / 100 = 4 * q + c := by omega
  have h400 : (400 * q + 100 * c + 4 * f + e + 1 - 1) / 400 = q := by omega
  rw [h4, h100, h400]
  ring

theorem isLeap_cycles (q c f : ℤ) (hf : 0 ≤ f ∧ f ≤ 24) (h : f < 24 ∨ c = 3) :
    isLeap (400 * q + 100 * c + 4 * f + 3 + 1) = true := by
  refine decide_eq_true ⟨by omega, ?_⟩
  omega

theorem yearOf_cycles (n : ℤ) : ∃ q c f e k : ℤ, yearOf n = 400 * q + 100 * c + 4 * f + e + 1 ∧
    n = 146097 * q + 36524 * c + 1461 * f + 365 * e + k + 1 ∧ (0 ≤ c ∧ c ≤ 3) ∧ (0 ≤ f ∧ f ≤ 24) ∧ (0 ≤ e ∧ e ≤ 3) ∧
    0 ≤ k ∧ (k < 365 ∨ k = 365 ∧ e = 3 ∧ (f < 24 ∨ c = 3)) := by
  have hr : 0 ≤ (n - 1) % 146097 ∧ (n - 1) % 146097 < 146097 := by omega
  refine ⟨(n - 1) / 146097, min ((n - 1) % 146097 / 36524) 3,
    ((n - 1) % 146097 - 36524 * min ((n - 1) % 146097 / 36524) 3) / 1461,
    min (((n - 1) % 146097 - 36524 * min ((n - 1) % 146097 / 36524) 3) % 1461 / 365) 3, _, rfl,
    (sub_add_cancel n 1).symm.trans (congrArg (· + 1) (add_sub_cancel _ _).symm), ?_, ?_, ?_, ?_, ?_⟩ <;> omega

theorem yearOf_spec (n : ℤ) : daysBeforeYear (yearOf n) < n ∧ n ≤ daysBeforeYear (yearOf n + 1) := by
  obtain ⟨q, c, f, e, k, hyear, hn, hc, hf, he, hk, hlast⟩ := yearOf_cycles n
  rw [daysBeforeYear_succ, hyear, daysBeforeYear_cycles q c f e hc hf he]
  refine ⟨by omega, ?_⟩
  unfold daysInYear
  rcases hlast with hlt | ⟨rfl, rfl, hleap⟩
  · split <;> omega
  · rw [if_pos (isLeap_cycles q c f hf hleap)]
    omega

theorem daysBeforeYear_le {y y' : ℤ} (h : y ≤ y') : daysBeforeYear y ≤ daysBeforeYear y' := by
  unfold daysBeforeYear
  omega

theorem yearOf_unique {n y : ℤ} (hlo : daysBeforeYear y < n) (hhi : n ≤ daysBeforeYear (y + 1)) : yearOf n = y := by
  obtain ⟨hlo', hhi'⟩ := yearOf_spec n
  rcases lt_trichotomy (yearOf n) y with h | h | h
  · have := daysBeforeYear_le (Int.add_one_le_iff.mpr h)
    omega
  · exact h
  · have := daysBeforeYear_le (Int.add_one_le_iff.mpr h)
    omega

/-! ## Months -/

def daysBeforeMonth (y m : ℤ) : ℤ := (367 * m - 362) / 12 - if m ≤ 2 then 0 else if isLeap y then 1 else 2

def daysInMonth (y m : ℤ) : ℤ :=
  if m = 2 then if isLeap y then 29 else 28
  else if m = 4 ∨ m = 6 ∨ m = 9 ∨ m = 11 then 30
  else 31

theorem daysBeforeMonth_one (y : ℤ) : daysBeforeMonth y 1 = 0 := rfl

theorem daysBeforeMonth_succ (y : ℤ) {m : ℤ} (hm : 1 ≤ m ∧ m ≤ 12) :
    daysBeforeMonth y (m + 1) = daysBeforeMonth y m + daysInMonth y m := by
  obtain ⟨h1, h12⟩ := hm
  unfold daysBeforeMonth daysInMonth
  interval_cases m <;> cases isLeap y <;> rfl

theorem daysBeforeMonth_thirteen (y : ℤ) : daysBeforeMonth y 13 = daysInYear y := by
  unfold daysBeforeMonth daysInYear
  cases isLeap y <;> rfl

theorem daysInMonth_bounds (y m : ℤ) : 28 ≤ daysInMonth y m ∧ daysInMonth y m ≤ 31 := by
  unfold daysInMonth
  split_ifs <;> omega

theorem daysBeforeMonth_lt (y : ℤ) {m m' : ℤ} (hm : 1 ≤ m ∧ m < m') (hm' : m' ≤ 13) :
    daysBeforeMonth y m + daysInMonth y m ≤ daysBeforeMonth y m' := by
  rw [← daysBeforeMonth_succ y ⟨hm.1, by omega⟩]
  unfold daysBeforeMonth
  split_ifs <;> omega

def monthOf (y k : ℤ) : ℤ := (12 * (k + if k ≤ daysBeforeMonth y 3 then 0 else if isLeap y then 1 else 2) + 361) / 367

theorem monthOf_spec (y k : ℤ) (hk : 0 < k ∧ k ≤ daysInYear y) :
    (1 ≤ monthOf y k ∧ monthOf y k ≤ 12) ∧
      daysBeforeMonth y (monthOf y k) < k ∧ k ≤ daysBeforeMonth y (monthOf y k + 1) := by
  unfold daysInYear at hk
  unfold monthOf daysBeforeMonth
  cases hleap : isLeap y with
  | true =>
    rw [hleap, if_pos rfl] at hk
    simp only [if_true]
    split_ifs <;> omega
  | false =>
    rw [hleap, if_neg Bool.false_ne_true] at hk
    simp only [if_neg Bool.false_ne_true]
    split_ifs <;> omega

theorem monthOf_unique {y m k : ℤ} (hm : 1 ≤ m ∧ m ≤ 12) (hlo : daysBeforeMonth y m < k)
    (hhi : k ≤ daysBeforeMonth y m + daysInMonth y m) : monthOf y k = m := by
  have hk : 0 < k ∧ k ≤ daysInYear y := by
    have hfirst : daysBeforeMonth y 1 ≤ daysBeforeMonth y m := by
      unfold daysBeforeMonth
      split_ifs <;> omega
    have hlast := @daysBeforeMonth_lt y m 13 ⟨hm.1, by omega⟩ le_rfl
    rw [daysBeforeMonth_one] at hfirst
    rw [daysBeforeMonth_thirteen] at hlast
    omega
  obtain ⟨hm', hlo', hhi'⟩ := monthOf_spec y k hk
  rw [daysBeforeMonth_succ y hm'] at hhi'
  rcases lt_trichotomy (monthOf y k) m with h | h | h
  · have := daysBeforeMonth_lt y ⟨hm'.1, h⟩ (by omega)
    omega
  · exact h
  · have := daysBeforeMonth_lt y ⟨hm.1, h⟩ (by omega)
    omega

/-! ## Dates -/

/-- The number of the date with these parts. -/
def ordinal (y m day : ℤ) : ℤ := daysBeforeYear y + daysBeforeMonth y m + day

def nextMonth (y m : ℤ) : ℤ × ℤ := if m = 12 then (y + 1, 1) else (y, m + 1)

theorem nextMonth_valid (y : ℤ) {m : ℤ} (hm : 1 ≤ m ∧ m ≤ 12) :
    1 ≤ (nextMonth y m).2 ∧ (nextMonth y m).2 ≤ 12 := by
  unfold nextMonth
  split <;> simp only <;> omega

theorem ordinal_nextMonth (y : ℤ) {m : ℤ} (hm : 1 ≤ m ∧ m ≤ 12) (day : ℤ) :
    ordinal (nextMonth y m).1 (nextMonth y m).2 day = ordinal y m day + daysInMonth y m := by
  have hsucc := daysBeforeMonth_succ y hm
  unfold ordinal nextMonth
  by_cases h12 : m = 12
  · subst h12
    have hyear : daysBeforeMonth y (12 + 1) = daysInYear y := daysBeforeMonth_thirteen y
    rw [if_pos rfl, daysBeforeYear_succ, daysBeforeMonth_one]
    omega
  · rw [if_neg h12]
    simp only [hsucc]
    omega

@[ext] structure Date where
  year : ℤ
  month : ℤ
  day : ℤ
  month_valid : 1 ≤ month ∧ month ≤ 12
  day_valid : 1 ≤ day ∧ day ≤ daysInMonth year month
  deriving DecidableEq

namespace Date

def toOrdinal (d : Date) : ℤ := ordinal d.year d.month d.day

theorem dayOfYear_bounds (d : Date) : 0 < daysBeforeMonth d.year d.month + d.day ∧
    daysBeforeMonth d.year d.month + d.day ≤ daysInYear d.year := by
  have hfirst : daysBeforeMonth d.year 1 ≤ daysBeforeMonth d.year d.month := by
    have := d.month_valid
    unfold daysBeforeMonth
    split_ifs <;> omega
  have hlast := @daysBeforeMonth_lt d.year d.month 13 ⟨d.month_valid.1, by have := d.month_valid; omega⟩ le_rfl
  have hday := d.day_valid
  rw [daysBeforeMonth_one] at hfirst
  rw [daysBeforeMonth_thirteen] at hlast
  omega

theorem dayOfYear_ofOrdinal (n : ℤ) :
    0 < n - daysBeforeYear (yearOf n) ∧ n - daysBeforeYear (yearOf n) ≤ daysInYear (yearOf n) := by
  obtain ⟨hlo, hhi⟩ := yearOf_spec n
  rw [daysBeforeYear_succ] at hhi
  omega

def ofOrdinal (n : ℤ) : Date where
  year := yearOf n
  month := monthOf (yearOf n) (n - daysBeforeYear (yearOf n))
  day := n - daysBeforeYear (yearOf n) -
    daysBeforeMonth (yearOf n) (monthOf (yearOf n) (n - daysBeforeYear (yearOf n)))
  month_valid := (monthOf_spec _ _ (dayOfYear_ofOrdinal n)).1
  day_valid := by
    obtain ⟨hm, hlo, hhi⟩ := monthOf_spec _ _ (dayOfYear_ofOrdinal n)
    rw [daysBeforeMonth_succ _ hm] at hhi
    omega

@[simp] theorem toOrdinal_ofOrdinal (n : ℤ) : (ofOrdinal n).toOrdinal = n := by
  unfold toOrdinal ordinal ofOrdinal
  ring

@[simp] theorem ofOrdinal_toOrdinal (d : Date) : ofOrdinal d.toOrdinal = d := by
  have hbounds := d.dayOfYear_bounds
  have hyear : yearOf d.toOrdinal = d.year := by
    refine yearOf_unique ?_ ?_
    · unfold toOrdinal ordinal
      omega
    · rw [daysBeforeYear_succ]
      unfold toOrdinal ordinal
      omega
  have hday : d.toOrdinal - daysBeforeYear d.year = daysBeforeMonth d.year d.month + d.day := by
    unfold toOrdinal ordinal
    ring
  have hmonth : monthOf d.year (daysBeforeMonth d.year d.month + d.day) = d.month :=
    monthOf_unique d.month_valid (by have := d.day_valid; omega) (by have := d.day_valid; omega)
  ext
  · exact hyear
  · simp only [ofOrdinal, hyear, hday, hmonth]
  · simp only [ofOrdinal, hyear, hday, hmonth]
    ring

theorem toOrdinal_injective {d d' : Date} (h : d.toOrdinal = d'.toOrdinal) : d = d' := by
  rw [← ofOrdinal_toOrdinal d, h, ofOrdinal_toOrdinal]

def addDays (d : Date) (k : ℤ) : Date := ofOrdinal (d.toOrdinal + k)

@[simp] theorem toOrdinal_addDays (d : Date) (k : ℤ) : (d.addDays k).toOrdinal = d.toOrdinal + k :=
  toOrdinal_ofOrdinal _

/-! ## Weeks -/

/-- Monday is 0; the first day of the year 1 is one. -/
def weekday (d : Date) : ℤ := (d.toOrdinal + 6) % 7

theorem weekday_bounds (d : Date) : 0 ≤ d.weekday ∧ d.weekday ≤ 6 := by
  unfold weekday
  omega

theorem weekday_addDays (d : Date) (k : ℤ) : (d.addDays k).weekday = (d.weekday + k) % 7 := by
  unfold weekday
  rw [toOrdinal_addDays]
  omega

/-! ## Parts -/

def ofParts (y m day : ℤ) : Date := ofOrdinal (ordinal y m day)

@[simp] theorem toOrdinal_ofParts (y m day : ℤ) : (ofParts y m day).toOrdinal = ordinal y m day :=
  toOrdinal_ofOrdinal _

theorem ofParts_parts {y m day : ℤ} (hm : 1 ≤ m ∧ m ≤ 12) (hday : 1 ≤ day ∧ day ≤ daysInMonth y m) :
    (ofParts y m day).year = y ∧ (ofParts y m day).month = m ∧ (ofParts y m day).day = day := by
  have hdate : ofParts y m day = ⟨y, m, day, hm, hday⟩ := ofOrdinal_toOrdinal ⟨y, m, day, hm, hday⟩
  rw [hdate]
  exact ⟨rfl, rfl, rfl⟩

theorem ofParts_parts_of_le {y m day : ℤ} (hm : 1 ≤ m ∧ m ≤ 12) (hday : 1 ≤ day ∧ day ≤ 28) :
    (ofParts y m day).year = y ∧ (ofParts y m day).month = m ∧ (ofParts y m day).day = day :=
  ofParts_parts hm ⟨hday.1, hday.2.trans (daysInMonth_bounds y m).1⟩

end Date

end FavoniusBackend.Lib.Calendar
