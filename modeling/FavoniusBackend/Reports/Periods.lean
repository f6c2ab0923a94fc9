import FavoniusBackend.Reports.NextRun

/-!
# Scheduled reports tile time

A run covers the week, month or quarter before the date of its slot.  The slot is the anchor and not the time at which the
run is executed, so slots that are worked off late cover what they would have covered.

`follows` is the next date of a cadence, `bound` the day after the last one that is covered.  Every period goes from the
bound of the date before to the day before its own bound, as long as the zone keeps the date of a slot.
-/

namespace FavoniusBackend.Reports

open Lib.Calendar

/-! ## Days in a row -/

/-- The day is one of those from the first to the last. -/
def Covers (period : Date × Date) (d : Date) : Prop :=
  period.1.toOrdinal ≤ d.toOrdinal ∧ d.toOrdinal ≤ period.2.toOrdinal

/-- Periods that follow on each other without a gap, from one number to before another. -/
def Tiles : ℤ → List (Date × Date) → ℤ → Prop
  | lo, [], hi => lo = hi
  | lo, p :: rest, hi => p.1.toOrdinal = lo ∧ lo ≤ p.2.toOrdinal ∧ Tiles (p.2.toOrdinal + 1) rest hi

theorem Tiles.le {lo hi : ℤ} {periods : List (Date × Date)} (h : Tiles lo periods hi) : lo ≤ hi := by
  induction periods generalizing lo with
  | nil => exact le_of_eq h
  | cons p rest ih =>
    have hrest := ih h.2.2
    have hp := h.2.1
    omega

theorem Tiles.of_covers {lo hi : ℤ} {periods : List (Date × Date)} (h : Tiles lo periods hi) {p : Date × Date}
    (hp : p ∈ periods) {d : Date} (hd : Covers p d) : lo ≤ d.toOrdinal ∧ d.toOrdinal < hi := by
  induction periods generalizing lo with
  | nil => exact absurd hp List.not_mem_nil
  | cons q rest ih =>
    have hle := h.2.2.le
    have hq := h.2.1
    have hlo := h.1
    unfold Covers at hd
    rcases List.mem_cons.mp hp with rfl | hp
    · omega
    · have := ih h.2.2 hp
      omega

theorem Tiles.of_head {lo hi : ℤ} {periods : List (Date × Date)} (h : Tiles lo periods hi) {p : Date × Date}
    (hp : p ∈ periods.head?) : lo = p.1.toOrdinal := by
  cases periods with
  | nil => exact nomatch hp
  | cons q rest =>
    obtain rfl : q = p := Option.mem_some_iff.mp hp
    exact h.1.symm

theorem Tiles.of_getLast {lo hi : ℤ} {periods : List (Date × Date)} (h : Tiles lo periods hi) {p : Date × Date}
    (hp : p ∈ periods.getLast?) : p.2.toOrdinal < hi := by
  induction periods generalizing lo with
  | nil => exact nomatch hp
  | cons q rest ih =>
    cases rest with
    | nil =>
      obtain rfl : q = p := Option.mem_some_iff.mp hp
      have hhi : q.2.toOrdinal + 1 = hi := h.2.2
      omega
    | cons r rest => exact ih h.2.2 (by rwa [List.getLast?_cons_cons] at hp)

theorem Tiles.existsUnique {lo hi : ℤ} {periods : List (Date × Date)} (h : Tiles lo periods hi) {d : Date}
    (hlo : lo ≤ d.toOrdinal) (hhi : d.toOrdinal < hi) : ∃! i : ℕ, ∃ p, periods[i]? = some p ∧ Covers p d := by
  induction periods generalizing lo with
  | nil => exact absurd (h ▸ hhi) (not_lt.mpr hlo)
  | cons p rest ih =>
    by_cases hp : d.toOrdinal ≤ p.2.toOrdinal
    · refine ⟨0, ⟨p, rfl, h.1.trans_le hlo, hp⟩, ?_⟩
      rintro i ⟨q, hq, hcovers⟩
      cases i with
      | zero => rfl
      | succ i =>
        have := (h.2.2.of_covers (List.mem_of_getElem? hq) hcovers).1
        omega
    · obtain ⟨i, ⟨q, hq, hcovers⟩, hunique⟩ := ih h.2.2 (by omega)
      refine ⟨i + 1, ⟨q, hq, hcovers⟩, ?_⟩
      rintro j ⟨q', hq', hcovers'⟩
      cases j with
      | zero =>
        cases hq'
        exact absurd hcovers'.2 hp
      | succ j => rw [hunique j ⟨q', hq', hcovers'⟩]

/-! ## The dates of a cadence -/

def Cadence.Follows (c : Cadence) (d d' : Date) : Prop :=
  match c.frequency with
  | .weekly => d'.toOrdinal = d.toOrdinal + 7
  | .monthly => (d'.year, d'.month) = nextMonth d.year d.month ∧ d'.day = d.day
  | .quarterly => (d'.year, d'.month) = monthsAfter 3 d.year d.month ∧ d'.day = d.day

/-- The number of the first date after the period of a run. -/
def Cadence.bound (c : Cadence) (d : Date) : ℤ :=
  match c.frequency with
  | .weekly => d.toOrdinal
  | _ => ordinal d.year d.month 1

/-- The zone keeps the dates of the cadence: no transition moves a scheduled time to another date. -/
def Cadence.KeepsDates (c : Cadence) (tz : ZoneInfo) : Prop :=
  ∀ d, c.FiresOn d → dateOf (astimezone tz (c.instantOn tz d)).wall = d

theorem bound_le (c : Cadence) (d : Date) : c.bound d ≤ d.toOrdinal := by
  have hday := d.day_valid
  unfold Cadence.bound
  split
  · exact le_rfl
  · unfold Date.toOrdinal ordinal
    omega

theorem ordinal_day (y m day : ℤ) : ordinal y m day = ordinal y m 1 + day - 1 := by
  unfold ordinal
  ring

theorem bound_lt (c : Cadence) {d d' : Date} (h : c.Follows d d') : c.bound d < c.bound d' := by
  unfold Cadence.Follows at h
  unfold Cadence.bound
  cases hfrequency : c.frequency with
  | weekly =>
    simp only [hfrequency] at h ⊢
    omega
  | monthly =>
    simp only [hfrequency, Prod.ext_iff] at h ⊢
    rw [h.1.1, h.1.2]
    have := ordinal_monthsAfter 1 d.year d.month_valid 1
    exact (by push_cast at this; omega : ordinal d.year d.month 1 < ordinal (monthsAfter 1 d.year d.month).1
      (monthsAfter 1 d.year d.month).2 1)
  | quarterly =>
    simp only [hfrequency, Prod.ext_iff] at h ⊢
    rw [h.1.1, h.1.2]
    have := ordinal_monthsAfter 3 d.year d.month_valid 1
    push_cast at this
    omega

/-! ## Periods -/

theorem toOrdinal_addDays_neg_one (y m : ℤ) (hm : 1 ≤ m ∧ m ≤ 12) :
    (Date.ofParts (nextMonth y m).1 (nextMonth y m).2 1).addDays (-1) = Date.ofParts y m (daysInMonth y m) := by
  refine Date.toOrdinal_injective ?_
  rw [Date.toOrdinal_addDays, Date.toOrdinal_ofParts, Date.toOrdinal_ofParts, ordinal_nextMonth y hm,
    ordinal_day y m (daysInMonth y m)]
  ring

theorem lastDayOfMonth_eq (y : ℤ) {m : ℤ} (hm : 1 ≤ m ∧ m ≤ 12) : lastDayOfMonth y m = daysInMonth y m := by
  have hnext : (if m = 12 then Date.ofParts (y + 1) 1 1 else Date.ofParts y (m + 1) 1) =
      Date.ofParts (nextMonth y m).1 (nextMonth y m).2 1 := by
    unfold nextMonth
    split <;> rfl
  have hdays := daysInMonth_bounds y m
  rw [lastDayOfMonth, hnext]
  simp only [toOrdinal_addDays_neg_one y m hm]
  exact (Date.ofParts_parts hm ⟨by omega, le_rfl⟩).2.2

theorem monthly_period {y m : ℤ} (hm : 1 ≤ m ∧ m ≤ 12) {now : DateTime}
    (h : ((dateOf now.wall).year, (dateOf now.wall).month) = nextMonth y m) :
    (computeReportPeriod .monthly now).1.toOrdinal = ordinal y m 1 ∧
      (computeReportPeriod .monthly now).2.toOrdinal = ordinal (dateOf now.wall).year (dateOf now.wall).month 1 - 1 := by
  obtain ⟨hyear, hmonth⟩ := Prod.ext_iff.mp h
  have hdays := daysInMonth_bounds y m
  have hparts := @Date.ofParts_parts y m (daysInMonth y m) hm ⟨by omega, le_rfl⟩
  simp only at hyear hmonth
  unfold computeReportPeriod previousMonthBounds
  simp only [hyear, hmonth, toOrdinal_addDays_neg_one y m hm, Date.toOrdinal_ofParts]
  rw [hparts.1, hparts.2.1, ordinal_nextMonth y hm, ordinal_day y m (daysInMonth y m)]
  exact ⟨rfl, rfl⟩

theorem quarterly_period {y m : ℤ} (hm : 1 ≤ m ∧ m ≤ 12) (hquarter : m ∈ quarterMonths) {now : DateTime}
    (h : ((dateOf now.wall).year, (dateOf now.wall).month) = monthsAfter 3 y m) :
    (computeReportPeriod .quarterly now).1.toOrdinal = ordinal y m 1 ∧
      (computeReportPeriod .quarterly now).2.toOrdinal =
        ordinal (dateOf now.wall).year (dateOf now.wall).month 1 - 1 := by
  have hthird : m % 3 = 1 := (mem_quarterMonths hm).mp hquarter
  have hnext : monthsAfter 3 y m = nextMonth y (m + 2) := by
    unfold monthsAfter monthsAfter monthsAfter monthsAfter nextMonth
    have h1 : m ≠ 12 := by omega
    have h2 : m + 1 ≠ 12 := by omega
    simp only [if_neg h1, if_neg h2, add_assoc]
    norm_num
  obtain ⟨hyear, hmonth⟩ := Prod.ext_iff.mp (h.trans hnext)
  simp only at hyear hmonth
  have hm' : 1 ≤ m + 2 ∧ m + 2 ≤ 12 := by omega
  -- the quarter before the current one starts in the month `m` of the year `y`
  have hstart : (if ((dateOf now.wall).month - 1) / 3 = 0 then (dateOf now.wall).year - 1 else (dateOf now.wall).year) = y ∧
      (if ((dateOf now.wall).month - 1) / 3 = 0 then 3 else ((dateOf now.wall).month - 1) / 3 - 1) * 3 + 1 = m := by
    rw [hyear, hmonth]
    unfold nextMonth
    split <;> simp only <;> split <;> omega
  unfold computeReportPeriod
  simp only [hstart.1, hstart.2, lastDayOfMonth_eq y hm', Date.toOrdinal_ofParts]
  rw [hyear, hmonth, ordinal_nextMonth y hm', ordinal_day y (m + 2) (daysInMonth y (m + 2))]
  exact ⟨trivial, rfl⟩

theorem weekly_period (now : DateTime) :
    (computeReportPeriod .weekly now).1.toOrdinal = (dateOf now.wall).toOrdinal - 7 ∧
      (computeReportPeriod .weekly now).2.toOrdinal = (dateOf now.wall).toOrdinal - 1 := by
  have hyesterday : dateOf (now.wall - microsPerDay) = (dateOf now.wall).addDays (-1) := by
    rw [← dateOf_add_days, neg_one_mul, sub_eq_add_neg]
  unfold computeReportPeriod
  simp only [hyesterday, Date.toOrdinal_addDays]
  refine ⟨?_, rfl⟩
  ring

/-- **The period of a run**, from the date before in the cadence. -/
theorem period_bounds {c : Cadence} {d d' : Date} (hfires : c.FiresOn d) (hfollows : c.Follows d d') {now : DateTime}
    (hnow : dateOf now.wall = d') :
    (computeReportPeriod c.frequency now).1.toOrdinal = c.bound d ∧
      (computeReportPeriod c.frequency now).2.toOrdinal = c.bound d' - 1 := by
  subst hnow
  unfold Cadence.FiresOn at hfires
  unfold Cadence.Follows at hfollows
  unfold Cadence.bound
  cases hfrequency : c.frequency with
  | weekly =>
    simp only [hfrequency] at hfollows ⊢
    obtain ⟨hstart, hend⟩ := weekly_period now
    refine ⟨?_, hend⟩
    rw [hstart, hfollows]
    ring
  | monthly =>
    simp only [hfrequency] at hfollows ⊢
    exact monthly_period d.month_valid hfollows.1
  | quarterly =>
    simp only [hfrequency] at hfollows hfires ⊢
    exact quarterly_period d.month_valid hfires.2 hfollows.1

/-! ## The slot after a slot -/

theorem exists_follows {c : Cadence} {d : Date} (h : c.FiresOn d) : ∃ d₀, c.FiresOn d₀ ∧ c.Follows d₀ d := by
  unfold Cadence.FiresOn at h
  unfold Cadence.FiresOn Cadence.Follows
  cases hfrequency : c.frequency with
  | weekly =>
    simp only [hfrequency] at h ⊢
    obtain ⟨dayOfWeek, hday, hweekday⟩ := h
    refine ⟨d.addDays (-7), ⟨dayOfWeek, hday, ?_⟩, ?_⟩
    · rw [Date.weekday_addDays]
      omega
    · rw [Date.toOrdinal_addDays]
      ring
  | monthly =>
    simp only [hfrequency] at h ⊢
    obtain ⟨day, hday, hd⟩ := h
    obtain ⟨y, m, hm, hnext⟩ : ∃ y m : ℤ, (1 ≤ m ∧ m ≤ 12) ∧ (d.year, d.month) = nextMonth y m := by
      have hvalid := d.month_valid
      by_cases h1 : d.month = 1
      · exact ⟨d.year - 1, 12, by decide, by simp [nextMonth, h1]⟩
      · refine ⟨d.year, d.month - 1, by omega, ?_⟩
        rw [nextMonth, if_neg (by omega), sub_add_cancel]
    obtain ⟨hy, hmo, hday'⟩ := @Date.ofParts_parts_of_le y m day hm day.property
    refine ⟨Date.ofParts y m day, ⟨day, hday, hday'⟩, ?_, ?_⟩
    · rw [hy, hmo, hnext]
    · rw [hday', hd]
  | quarterly =>
    simp only [hfrequency] at h ⊢
    obtain ⟨⟨day, hday, hd⟩, hquarter⟩ := h
    obtain ⟨y, m, hm, hmquarter, hnext⟩ :
        ∃ y m : ℤ, (1 ≤ m ∧ m ≤ 12) ∧ m ∈ quarterMonths ∧ (d.year, d.month) = monthsAfter 3 y m := by
      simp only [quarterMonths, List.mem_cons, List.not_mem_nil, or_false] at hquarter
      rcases hquarter with h1 | h4 | h7 | h10
      · exact ⟨d.year - 1, 10, by decide, by decide, by simp [monthsAfter, nextMonth, h1]⟩
      · exact ⟨d.year, 1, by decide, by decide, by simp [monthsAfter, nextMonth, h4]⟩
      · exact ⟨d.year, 4, by decide, by decide, by simp [monthsAfter, nextMonth, h7]⟩
      · exact ⟨d.year, 7, by decide, by decide, by simp [monthsAfter, nextMonth, h10]⟩
    obtain ⟨hy, hmo, hday'⟩ := @Date.ofParts_parts_of_le y m day hm day.property
    refine ⟨Date.ofParts y m day, ⟨⟨day, hday, hday'⟩, ?_⟩, ?_, ?_⟩
    · rw [hmo]
      exact hmquarter
    · rw [hy, hmo, hnext]
    · rw [hday', hd]

variable {zones : String → Option ZoneInfo} {tzName : String} {tz : ZoneInfo}

def dateAfter (k : ℕ) (d : Date) : Date :=
  Date.ofParts (monthsAfter k d.year d.month).1 (monthsAfter k d.year d.month).2 d.day

theorem dateAfter_parts (k : ℕ) {d : Date} (hday : d.day ≤ 28) :
    ((dateAfter k d).year, (dateAfter k d).month) = monthsAfter k d.year d.month ∧ (dateAfter k d).day = d.day := by
  obtain ⟨hy, hm, hd⟩ := Date.ofParts_parts_of_le (monthsAfter_valid k d.year d.month_valid) ⟨d.day_valid.1, hday⟩
  exact ⟨Prod.ext hy hm, hd⟩

theorem toOrdinal_dateAfter (k : ℕ) (d : Date) : d.toOrdinal + 28 * k ≤ (dateAfter k d).toOrdinal := by
  rw [dateAfter, Date.toOrdinal_ofParts]
  exact ordinal_monthsAfter k d.year d.month_valid d.day

theorem scanMonths_eq {u day : ℤ} {t : TimeOfDay} {allowedMonths : Option (List ℤ)} {n k : ℕ} {year month : ℤ}
    (hk : k < n) (hskip : ∀ j < k, ¬ ((∀ months ∈ allowedMonths, (monthsAfter j year month).2 ∈ months) ∧
      u < localizeToUtc (monthsAfter j year month).1 (monthsAfter j year month).2 day t tz))
    (hallowed : ∀ months ∈ allowedMonths, (monthsAfter k year month).2 ∈ months)
    (hafter : u < localizeToUtc (monthsAfter k year month).1 (monthsAfter k year month).2 day t tz) :
    scanMonths u day t tz allowedMonths n year month =
      .ok (localizeToUtc (monthsAfter k year month).1 (monthsAfter k year month).2 day t tz) := by
  induction k generalizing n year month with
  | zero =>
    obtain ⟨n, rfl⟩ := Nat.exists_eq_succ_of_ne_zero (Nat.ne_of_gt hk)
    exact scanMonths_found hallowed hafter
  | succ k ih =>
    obtain ⟨n, rfl⟩ := Nat.exists_eq_succ_of_ne_zero (Nat.ne_of_gt (Nat.zero_lt_of_lt hk))
    have hfirst := hskip 0 (Nat.succ_pos k)
    rw [monthsAfter] at hfirst
    rw [Nat.succ_eq_add_one, scanMonths_skip hfirst]
    exact ih (Nat.lt_of_succ_lt_succ hk) (fun j hj => hskip (j + 1) (Nat.succ_lt_succ hj)) hallowed hafter

theorem nextByMonth_instantOn {c : Cadence} {d : Date} {day : DayOfMonth} (hday : d.day = day)
    (hkeeps : dateOf (astimezone tz (c.instantOn tz d)).wall = d) {allowedMonths : Option (List ℤ)} {k : ℕ}
    (hk : 0 < k) (hk60 : k < 60)
    (hskip : ∀ j < k, 0 < j → ¬ ∀ months ∈ allowedMonths, (monthsAfter j d.year d.month).2 ∈ months)
    (hallowed : ∀ months ∈ allowedMonths, (monthsAfter k d.year d.month).2 ∈ months) :
    nextByMonth (astimezone tz (c.instantOn tz d)) day c.timeOfDay tz allowedMonths =
      .ok (c.instantOn tz (dateAfter k d)) := by
  have hday28 : d.day ≤ 28 := hday ▸ day.property.2
  obtain ⟨hym, hd⟩ := dateAfter_parts k hday28
  obtain ⟨hy, hm⟩ := Prod.ext_iff.mp hym
  have hlater := toOrdinal_dateAfter k d
  have hlt : c.instantOn tz d < c.instantOn tz (dateAfter k d) := instantOn_lt c tz (by omega)
  simp only at hy hm
  have hinstant : c.instantOn tz (dateAfter k d) =
      localizeToUtc (monthsAfter k d.year d.month).1 (monthsAfter k d.year d.month).2 day c.timeOfDay tz := by
    rw [Cadence.instantOn, hy, hm, hd, hday]
  rw [hinstant] at hlt ⊢
  rw [nextByMonth, hkeeps]
  refine scanMonths_eq hk60 ?_ hallowed hlt
  rintro j hj ⟨hallowedj, hafter⟩
  rcases Nat.eq_zero_or_pos j with rfl | hpos
  · -- the month of the slot itself: the slot is not after itself
    rw [← hday] at hafter
    exact lt_irrefl _ hafter
  · exact hskip j hj hpos hallowedj

/-- **The slot after a slot** is that of the next date. -/
theorem nextRunAt_instantOn {c : Cadence} (hzone : zones tzName = some tz) (hkeeps : c.KeepsDates tz) {d : Date}
    (hfires : c.FiresOn d) :
    ∃ d', c.FiresOn d' ∧ c.Follows d d' ∧ c.nextRunAt zones tzName (c.instantOn tz d) = .ok (c.instantOn tz d') := by
  have hdate := hkeeps d hfires
  unfold Cadence.FiresOn at hfires
  unfold Cadence.FiresOn Cadence.Follows
  cases hfrequency : c.frequency with
  | weekly =>
    simp only [hfrequency] at hfires ⊢
    obtain ⟨dayOfWeek, hday, hweekday⟩ := hfires
    have htoday : (specDowToPython dayOfWeek - d.weekday) % 7 = 0 := by
      rw [(weekday_eq_specDowToPython d dayOfWeek).mpr hweekday, sub_self]
      rfl
    have hcandidate : d.addDays 0 = d := by rw [Date.addDays, add_zero, Date.ofOrdinal_toOrdinal]
    refine ⟨d.addDays 7, ⟨dayOfWeek, hday, ?_⟩, Date.toOrdinal_addDays d 7, ?_⟩
    · rw [Date.weekday_addDays]
      omega
    · rw [nextRunAt_weekly hzone hfrequency hday, nextWeekly]
      simp only [dateOf_add_days, hdate, htoday, hcandidate]
      have hself : localizeToUtc d.year d.month d.day c.timeOfDay tz ≤ (astimezone tz (c.instantOn tz d)).utc := le_rfl
      rw [if_pos hself]
      rfl
  | monthly =>
    simp only [hfrequency] at hfires ⊢
    obtain ⟨day, hday, hd⟩ := hfires
    obtain ⟨hym, hd'⟩ := @dateAfter_parts 1 d (hd ▸ day.property.2)
    refine ⟨dateAfter 1 d, ⟨day, hday, hd'.trans hd⟩, ⟨hym, hd'⟩, ?_⟩
    rw [nextRunAt_monthly hzone hfrequency hday]
    exact nextByMonth_instantOn hd hdate Nat.one_pos (by decide) (fun j hj hpos => by omega) (by simp)
  | quarterly =>
    simp only [hfrequency] at hfires ⊢
    obtain ⟨⟨day, hday, hd⟩, hquarter⟩ := hfires
    obtain ⟨hym, hd'⟩ := @dateAfter_parts 3 d (hd ▸ day.property.2)
    have hthird := (mem_quarterMonths d.month_valid).mp hquarter
    have hmember : ∀ k, (monthsAfter k d.year d.month).2 ∈ quarterMonths ↔ (d.month - 1 + k) % 3 = 0 := fun k => by
      rw [mem_quarterMonths (monthsAfter_valid k d.year d.month_valid), month_monthsAfter k d.year d.month_valid]
      omega
    have hnext : (monthsAfter 3 d.year d.month).2 ∈ quarterMonths := (hmember 3).mpr (by push_cast; omega)
    have hmonth : (dateAfter 3 d).month = (monthsAfter 3 d.year d.month).2 := (Prod.ext_iff.mp hym).2
    refine ⟨dateAfter 3 d, ⟨⟨day, hday, hd'.trans hd⟩, hmonth ▸ hnext⟩, ⟨hym, hd'⟩, ?_⟩
    rw [nextRunAt_quarterly hzone hfrequency hday]
    refine nextByMonth_instantOn hd hdate (by decide) (by decide) ?_ ?_
    · intro j hj hpos hallowed
      have := (hmember j).mp (hallowed _ rfl)
      omega
    · intro months hmonths
      obtain rfl := Option.mem_some_iff.mp hmonths
      exact hnext

/-! ## Runs -/

/-- The period that `execute_schedule_run` gives to a run. -/
def runPeriod (zones : String → Option ZoneInfo) (tzName : String) (frequency : Frequency) (scheduledFor : Option ℤ)
    (nowUtc : ℤ) : Except ScheduleValidationError (Date × Date) := do
  let tz ← resolveTimezone zones tzName
  return computeReportPeriod frequency (astimezone tz (scheduledFor.getD nowUtc))

def localDate (tz : ZoneInfo) (u : ℤ) : Date := dateOf (astimezone tz u).wall

theorem runPeriod_eq (hzone : zones tzName = some tz) (frequency : Frequency) (s now : ℤ) :
    runPeriod zones tzName frequency (some s) now = .ok (computeReportPeriod frequency (astimezone tz s)) := by
  rw [runPeriod, resolveTimezone, hzone]
  rfl

/-- Slots in a row, each with the time at which it is worked off. -/
def InARow (zones : String → Option ZoneInfo) (tzName : String) (c : Cadence) (slots : List (ℤ × ℤ)) : Prop :=
  slots.IsChain fun x y => c.nextRunAt zones tzName x.1 = .ok y.1

/-- The periods of slots in a row tile the days from the bound before the first to that of the last. -/
theorem inARow_tiles {c : Cadence} (hzone : zones tzName = some tz) (hkeeps : c.KeepsDates tz) {d₀ d : Date}
    (hfires₀ : c.FiresOn d₀) (hfires : c.FiresOn d) (hfollows : c.Follows d₀ d) {now : ℤ} {rest : List (ℤ × ℤ)}
    (hrow : InARow zones tzName c ((c.instantOn tz d, now) :: rest)) :
    ∃ periods hi, List.Forall₂ (fun x p => runPeriod zones tzName c.frequency (some x.1) x.2 = .ok p)
      ((c.instantOn tz d, now) :: rest) periods ∧ Tiles (c.bound d₀) periods hi := by
  obtain ⟨hstart, hend⟩ := period_bounds hfires₀ hfollows (hkeeps d hfires)
  have hlt := bound_lt c hfollows
  have hle : c.bound d₀ ≤ (computeReportPeriod c.frequency (astimezone tz (c.instantOn tz d))).2.toOrdinal := by omega
  induction rest generalizing d₀ d now with
  | nil => exact ⟨[_], _, .cons (runPeriod_eq hzone _ _ _) .nil, hstart, hle, rfl⟩
  | cons x rest ih =>
    obtain ⟨d', hfires', hfollows', hnext⟩ := nextRunAt_instantOn hzone hkeeps hfires
    obtain ⟨hx, hrest⟩ := List.isChain_cons_cons.mp hrow
    obtain ⟨s', now'⟩ := x
    obtain rfl : c.instantOn tz d' = s' := Except.ok.inj (hnext.symm.trans hx)
    obtain ⟨hstart', hend'⟩ := period_bounds hfires hfollows' (hkeeps d' hfires')
    have hlt' := bound_lt c hfollows'
    obtain ⟨periods, hi, hperiods, htiles⟩ :=
      ih hfires hfires' hfollows' hrest hstart' hend' hlt' (by omega)
    refine ⟨_ :: periods, hi, .cons (runPeriod_eq hzone _ _ _) hperiods, hstart, hle, ?_⟩
    have hgap : (computeReportPeriod c.frequency (astimezone tz (c.instantOn tz d))).2.toOrdinal + 1 = c.bound d := by
      omega
    exact hgap ▸ htiles

/-- The period of a run and that of the run after it, as far as they must fit together. -/
structure FitTogether (tz : ZoneInfo) (s s' : ℤ) (p p' : Date × Date) : Prop where
  next : p'.1 = p.2.addDays 1
  nonempty : p.1.toOrdinal ≤ p.2.toOrdinal
  nonempty' : p'.1.toOrdinal ≤ p'.2.toOrdinal
  before : p.2.toOrdinal < (localDate tz s).toOrdinal
  before' : p'.2.toOrdinal < (localDate tz s').toOrdinal

/-- **Scheduled reports tile time.**  From every instant there is a slot; the periods of a slot and of the one after it fit
together, whenever they are worked off; and every day from the first one covered by slots in a row to the last is in the
period of exactly one of them. -/
theorem reports_tile {zones : String → Option ZoneInfo} {tzName : String} {tz : ZoneInfo} (c : Cadence)
    (hzone : zones tzName = some tz) (hkeeps : c.KeepsDates tz) :
    (∀ u, ∃ s, c.nextRunAt zones tzName u = .ok s ∧ c.Occurs tz s) ∧
    (∀ s, c.Occurs tz s → ∃ s' p p', c.nextRunAt zones tzName s = .ok s' ∧
      (∀ now, runPeriod zones tzName c.frequency (some s) now = .ok p) ∧
      (∀ now, runPeriod zones tzName c.frequency (some s') now = .ok p') ∧ FitTogether tz s s' p p') ∧
    ∀ (s now : ℤ) (rest : List (ℤ × ℤ)), c.Occurs tz s → InARow zones tzName c ((s, now) :: rest) →
      ∃ periods, List.Forall₂ (fun x p => runPeriod zones tzName c.frequency (some x.1) x.2 = .ok p)
        ((s, now) :: rest) periods ∧
        ∀ d : Date, (∃ p ∈ periods.head?, p.1.toOrdinal ≤ d.toOrdinal) →
          (∃ p ∈ periods.getLast?, d.toOrdinal ≤ p.2.toOrdinal) →
          ∃! i : ℕ, ∃ p, periods[i]? = some p ∧ Covers p d := by
  refine ⟨fun u => ?_, ?_, ?_⟩
  · obtain ⟨s, hs, -, hoccurs⟩ := nextRunAt_spec c hzone u
    exact ⟨s, hs, hoccurs⟩
  · rintro s ⟨d, hfires, rfl⟩
    obtain ⟨d₀, hfires₀, hfollows₀⟩ := exists_follows hfires
    obtain ⟨d', hfires', hfollows, hnext⟩ := nextRunAt_instantOn hzone hkeeps hfires
    obtain ⟨hstart, hend⟩ := period_bounds hfires₀ hfollows₀ (hkeeps d hfires)
    obtain ⟨hstart', hend'⟩ := period_bounds hfires hfollows (hkeeps d' hfires')
    have hlt := bound_lt c hfollows₀
    have hlt' := bound_lt c hfollows
    have hle := bound_le c d
    have hle' := bound_le c d'
    refine ⟨_, _, _, hnext, runPeriod_eq hzone _ _, runPeriod_eq hzone _ _, ?_, ?_, ?_, ?_, ?_⟩
    · refine Date.toOrdinal_injective ?_
      rw [Date.toOrdinal_addDays]
      omega
    · omega
    · omega
    · rw [localDate, hkeeps d hfires]
      omega
    · rw [localDate, hkeeps d' hfires']
      omega
  · rintro s now rest ⟨d, hfires, rfl⟩ hrow
    obtain ⟨d₀, hfires₀, hfollows₀⟩ := exists_follows hfires
    obtain ⟨periods, hi, hperiods, htiles⟩ := inARow_tiles hzone hkeeps hfires₀ hfires hfollows₀ hrow
    refine ⟨periods, hperiods, ?_⟩
    rintro day ⟨p, hp, hlo⟩ ⟨q, hq, hhi⟩
    refine htiles.existsUnique ((htiles.of_head hp).trans_le hlo) (hhi.trans_lt (htiles.of_getLast hq))

def utc : ZoneInfo where
  fromutc := fun _ => 0
  utcoffset := fun _ => 0
  fromutc_bounds := fun _ => zero_within_day
  utcoffset_bounds := fun _ => zero_within_day

theorem keepsDates_utc (c : Cadence) : c.KeepsDates utc := by
  intro d _
  have hmicros := micros_bounds c.timeOfDay
  have hinstant : c.instantOn utc d = c.timeOfDay.micros + d.toOrdinal * microsPerDay := by
    rw [Cadence.instantOn, localizeToUtc]
    exact (sub_zero _).trans (add_comm _ _)
  have hwall : (astimezone utc (c.instantOn utc d)).wall = c.timeOfDay.micros + d.toOrdinal * microsPerDay :=
    (add_zero _).trans hinstant
  rw [hwall, dateOf_add_days]
  refine Date.toOrdinal_injective ?_
  rw [Date.toOrdinal_addDays, toOrdinal_dateOf, Int.ediv_eq_zero_of_lt hmicros.1 hmicros.2, zero_add]

def mondays : Cadence where
  frequency := .weekly
  dayOfMonth := none
  dayOfWeek := some 1
  timeOfDay := ⟨6, 0, by decide +kernel, by decide +kernel⟩
  cadence_ck := by decide +kernel

/-- The run of the third of March 2025 and the run after it. -/
theorem mondays_fit_together :
    ∃ s' p p', mondays.nextRunAt (fun _ => some utc) "UTC" (mondays.instantOn utc (Date.ofParts 2025 3 3)) = .ok s' ∧
      (∀ now, runPeriod (fun _ => some utc) "UTC" .weekly
        (some (mondays.instantOn utc (Date.ofParts 2025 3 3))) now = .ok p) ∧
      (∀ now, runPeriod (fun _ => some utc) "UTC" .weekly (some s') now = .ok p') ∧
      FitTogether utc (mondays.instantOn utc (Date.ofParts 2025 3 3)) s' p p' :=
  (reports_tile mondays rfl (keepsDates_utc mondays)).2.1 _
    ⟨Date.ofParts 2025 3 3, ⟨1, rfl, by decide +kernel⟩, rfl⟩

end FavoniusBackend.Reports
