import FavoniusBackend.Reports.Periods

/-!
# The next run among the occurrences

The search for the next run starts at a local date: the current one for weeks, the first of its month for months and
quarters (`Cadence.bound` of the local date).  It returns the first date of the cadence from there on whose instant is after
now (`nextRunAt_first`).  The dates of a cadence are at least a week apart and their instants come in the same order, so
what is returned is the least occurrence after now unless one before the start of the search is still to come, which
takes a transition that moves a scheduled time past midnight (`NoneDelayed`).  From the second run on there is none.
-/

namespace FavoniusBackend.Reports

open Lib.Calendar

/-! ## Enumerating a set -/

/-- **Least elements in a row** enumerate what comes after the first one. -/
theorem range_of_isLeast {S : Set ℤ} {f : ℕ → ℤ} (h : ∀ k, IsLeast {s | s ∈ S ∧ f k < s} (f (k + 1))) :
    StrictMono f ∧ Set.range (fun k => f (k + 1)) = {s | s ∈ S ∧ f 0 < s} := by
  have hmono : StrictMono f := strictMono_nat_of_lt_succ fun k => (h k).1.2
  refine ⟨hmono, ?_⟩
  ext s
  constructor
  · rintro ⟨k, rfl⟩
    exact ⟨(h k).1.1, hmono (Nat.succ_pos k)⟩
  · rintro ⟨hs, hafter⟩
    -- the last one before `s`
    have hgrows : ∀ k : ℕ, f 0 + k ≤ f k := by
      intro k
      induction k with
      | zero => simp
      | succ k ih =>
        have hstep : f k < f (k + 1) := (h k).1.2
        push_cast
        omega
    have hreached : ∃ k, s ≤ f (k + 1) := by
      refine ⟨(s - f 0).toNat, ?_⟩
      have hfar := hgrows ((s - f 0).toNat + 1)
      push_cast at hfar
      omega
    have hfirst := Nat.find_spec hreached
    have hbefore : f (Nat.find hreached) < s := by
      cases hk : Nat.find hreached with
      | zero => exact hafter
      | succ k =>
        have hmin := Nat.find_min hreached (m := k) (by omega)
        exact not_le.mp hmin
    exact ⟨Nat.find hreached, le_antisymm ((h _).2 ⟨hs, hbefore⟩) hfirst⟩

/-! ## Months in a row -/

def monthIndex (year month : ℤ) : ℤ := 12 * year + month

theorem monthIndex_monthsAfter (k : ℕ) (year : ℤ) {month : ℤ} (hm : 1 ≤ month ∧ month ≤ 12) :
    monthIndex (monthsAfter k year month).1 (monthsAfter k year month).2 = monthIndex year month + k := by
  induction k generalizing year month with
  | zero => simp [monthsAfter]
  | succ k ih =>
    rw [monthsAfter, ih _ (nextMonth_valid year hm)]
    unfold monthIndex nextMonth
    split <;> push_cast <;> omega

theorem eq_of_monthIndex {year month year' month' : ℤ} (hm : 1 ≤ month ∧ month ≤ 12) (hm' : 1 ≤ month' ∧ month' ≤ 12)
    (h : monthIndex year month = monthIndex year' month') : (year, month) = (year', month') := by
  unfold monthIndex at h
  ext <;> simp only <;> omega

theorem exists_monthsAfter {year month year' month' : ℤ} (hm : 1 ≤ month ∧ month ≤ 12) (hm' : 1 ≤ month' ∧ month' ≤ 12)
    (h : monthIndex year month ≤ monthIndex year' month') :
    ∃ k : ℕ, monthsAfter k year month = (year', month') := by
  refine ⟨(monthIndex year' month' - monthIndex year month).toNat, ?_⟩
  apply eq_of_monthIndex (monthsAfter_valid _ year hm) hm'
  rw [monthIndex_monthsAfter _ year hm]
  omega

theorem ordinal_of_monthIndex_lt {year month year' month' : ℤ} (hm : 1 ≤ month ∧ month ≤ 12)
    (hm' : 1 ≤ month' ∧ month' ≤ 12) (h : monthIndex year month < monthIndex year' month') (day : ℤ) :
    ordinal year month day + 28 ≤ ordinal year' month' day := by
  obtain ⟨k, hk⟩ := exists_monthsAfter hm hm' h.le
  have hindex := monthIndex_monthsAfter k year hm
  have hlater := ordinal_monthsAfter k year hm day
  rw [hk] at hindex hlater
  simp only at hindex hlater
  omega

theorem monthIndex_lt_iff (d : Date) {year month : ℤ} (hm : 1 ≤ month ∧ month ≤ 12) :
    d.toOrdinal < ordinal year month 1 ↔ monthIndex d.year d.month < monthIndex year month := by
  have hday := d.day_valid
  have hfirst := ordinal_day d.year d.month d.day
  unfold Date.toOrdinal
  constructor
  · intro hlt
    by_contra hle
    rw [not_lt] at hle
    rcases hle.lt_or_eq with hlater | hsame
    · have hordinal := ordinal_of_monthIndex_lt hm d.month_valid hlater 1
      omega
    · obtain ⟨rfl, rfl⟩ := Prod.ext_iff.mp (eq_of_monthIndex hm d.month_valid hsame)
      simp only at hlt
      omega
  · intro hlt
    have hle : monthIndex (nextMonth d.year d.month).1 (nextMonth d.year d.month).2 ≤ monthIndex year month := by
      have hnext := monthIndex_monthsAfter 1 d.year d.month_valid
      rw [monthsAfter, monthsAfter] at hnext
      push_cast at hnext
      omega
    obtain ⟨k, hk⟩ := exists_monthsAfter (nextMonth_valid d.year d.month_valid) hm hle
    have hlater := ordinal_monthsAfter k (nextMonth d.year d.month).1 (nextMonth_valid d.year d.month_valid) 1
    rw [hk, ordinal_nextMonth d.year d.month_valid] at hlater
    simp only at hlater
    omega

/-! ## The dates of a cadence are apart -/

theorem firesOn_apart {c : Cadence} {d d' : Date} (hd : c.FiresOn d) (hd' : c.FiresOn d')
    (hlt : d.toOrdinal < d'.toOrdinal) : d.toOrdinal + 7 ≤ d'.toOrdinal := by
  have hmonths : ∀ day : ℤ, d.day = day → d'.day = day → d.toOrdinal + 7 ≤ d'.toOrdinal := by
    intro day hday hday'
    have hindex : monthIndex d.year d.month < monthIndex d'.year d'.month := by
      by_contra hle
      rw [not_lt] at hle
      have hle' : d'.toOrdinal ≤ d.toOrdinal := by
        unfold Date.toOrdinal
        rw [hday, hday']
        rcases hle.lt_or_eq with hlater | hsame
        · have hordinal := ordinal_of_monthIndex_lt d'.month_valid d.month_valid hlater day
          omega
        · obtain ⟨hyear, hmonth⟩ := Prod.ext_iff.mp (eq_of_monthIndex d'.month_valid d.month_valid hsame)
          simp only at hyear hmonth
          rw [hyear, hmonth]
      omega
    have hordinal := ordinal_of_monthIndex_lt d.month_valid d'.month_valid hindex day
    unfold Date.toOrdinal
    rw [hday, hday']
    omega
  unfold Cadence.FiresOn at hd hd'
  cases hfrequency : c.frequency with
  | weekly =>
    simp only [hfrequency] at hd hd'
    obtain ⟨dayOfWeek, hday, hweekday⟩ := hd
    obtain ⟨dayOfWeek', hday', hweekday'⟩ := hd'
    obtain rfl := Option.some.inj (hday.symm.trans hday')
    unfold Date.weekday at hweekday hweekday'
    omega
  | monthly =>
    simp only [hfrequency] at hd hd'
    obtain ⟨day, hday, hd⟩ := hd
    obtain ⟨day', hday', hd'⟩ := hd'
    obtain rfl := Option.some.inj (hday.symm.trans hday')
    exact hmonths day hd hd'
  | quarterly =>
    simp only [hfrequency] at hd hd'
    obtain ⟨⟨day, hday, hd⟩, _⟩ := hd
    obtain ⟨⟨day', hday', hd'⟩, _⟩ := hd'
    obtain rfl := Option.some.inj (hday.symm.trans hday')
    exact hmonths day hd hd'

theorem instantOn_le {c : Cadence} {d d' : Date} (tz : ZoneInfo) (hd : c.FiresOn d) (hd' : c.FiresOn d')
    (hle : d.toOrdinal ≤ d'.toOrdinal) : c.instantOn tz d ≤ c.instantOn tz d' := by
  rcases hle.lt_or_eq with hlt | hsame
  · have hapart := firesOn_apart hd hd' hlt
    exact (instantOn_lt c tz (by omega)).le
  · rw [Date.toOrdinal_injective hsame]

/-! ## Where the search starts, and what it finds -/

structure FirstFrom (c : Cadence) (tz : ZoneInfo) (start u : ℤ) (d : Date) : Prop where
  fires : c.FiresOn d
  start_le : start ≤ d.toOrdinal
  after : u < c.instantOn tz d
  least : ∀ d', c.FiresOn d' → start ≤ d'.toOrdinal → u < c.instantOn tz d' → d.toOrdinal ≤ d'.toOrdinal

theorem scanMonths_first {u day r : ℤ} {t : TimeOfDay} {tz : ZoneInfo} {allowedMonths : Option (List ℤ)} {n : ℕ}
    {year month : ℤ} (h : scanMonths u day t tz allowedMonths n year month = .ok r) :
    ∃ k, (∀ months ∈ allowedMonths, (monthsAfter k year month).2 ∈ months) ∧ u < r ∧
      r = localizeToUtc (monthsAfter k year month).1 (monthsAfter k year month).2 day t tz ∧
      ∀ j < k, ¬ ((∀ months ∈ allowedMonths, (monthsAfter j year month).2 ∈ months) ∧
        u < localizeToUtc (monthsAfter j year month).1 (monthsAfter j year month).2 day t tz) := by
  induction n generalizing year month with
  | zero => exact nomatch h
  | succ n ih =>
    by_cases hfound : (∀ months ∈ allowedMonths, month ∈ months) ∧ u < localizeToUtc year month day t tz
    · rw [scanMonths_found hfound.1 hfound.2] at h
      obtain rfl := Except.ok.inj h
      exact ⟨0, hfound.1, hfound.2, rfl, fun j hj => absurd hj (Nat.not_lt_zero j)⟩
    · rw [scanMonths_skip hfound] at h
      obtain ⟨k, hallowed, hafter, hr, hskip⟩ := ih h
      refine ⟨k + 1, hallowed, hafter, hr, ?_⟩
      intro j hj
      cases j with
      | zero => exact hfound
      | succ j => exact hskip j (Nat.lt_of_succ_lt_succ hj)

/-- **The search over the months.** -/
theorem nextByMonth_first {c : Cadence} {u r : ℤ} {day : DayOfMonth} {tz : ZoneInfo} {allowedMonths : Option (List ℤ)}
    (hfires : ∀ d, c.FiresOn d ↔ d.day = day ∧ ∀ months ∈ allowedMonths, d.month ∈ months)
    (h : nextByMonth (astimezone tz u) day c.timeOfDay tz allowedMonths = .ok r) :
    ∃ d, r = c.instantOn tz d ∧ FirstFrom c tz (ordinal (localDate tz u).year (localDate tz u).month 1) u d := by
  set today := localDate tz u with htoday
  have hscan : scanMonths u day c.timeOfDay tz allowedMonths 60 today.year today.month = .ok r := h
  obtain ⟨k, hallowed, hafter, hr, hskip⟩ := scanMonths_first hscan
  have hvalid := today.month_valid
  have hday28 := day.property.2
  obtain ⟨hyear, hmonth, hday⟩ := @Date.ofParts_parts_of_le (monthsAfter k today.year today.month).1 _ day
    (monthsAfter_valid k today.year hvalid) day.property
  set d := Date.ofParts (monthsAfter k today.year today.month).1 (monthsAfter k today.year today.month).2 day with hd
  have hinstant : r = c.instantOn tz d := by
    rw [hr, Cadence.instantOn, hyear, hmonth, hday]
  refine ⟨d, hinstant, (hfires d).mpr ⟨hday, hmonth.symm ▸ hallowed⟩, ?_, hinstant ▸ hafter, ?_⟩
  · rw [hd, Date.toOrdinal_ofParts]
    have hlater := ordinal_monthsAfter k today.year hvalid day
    have hfirst := ordinal_day today.year today.month day
    have hpositive := day.property.1
    omega
  · intro d' hd' hstart hafter'
    obtain ⟨hday', hallowed'⟩ := (hfires d').mp hd'
    -- the month of `d'` is one of those the loop looks at
    have hindex : monthIndex today.year today.month ≤ monthIndex d'.year d'.month := by
      rw [← not_lt, ← monthIndex_lt_iff d' hvalid, not_lt]
      exact hstart
    obtain ⟨j, hj⟩ := exists_monthsAfter hvalid d'.month_valid hindex
    have hkj : k ≤ j := by
      by_contra hlt
      apply hskip j (not_le.mp hlt)
      rw [hj]
      refine ⟨hallowed', ?_⟩
      rw [Cadence.instantOn, hday'] at hafter'
      exact hafter'
    have hd'ordinal : d'.toOrdinal = ordinal (monthsAfter j today.year today.month).1
        (monthsAfter j today.year today.month).2 day := by
      rw [hj, Date.toOrdinal, hday']
    rw [hd, Date.toOrdinal_ofParts, hd'ordinal]
    rcases hkj.lt_or_eq with hlt | rfl
    · have hindexlt : monthIndex (monthsAfter k today.year today.month).1 (monthsAfter k today.year today.month).2 <
          monthIndex (monthsAfter j today.year today.month).1 (monthsAfter j today.year today.month).2 := by
        rw [monthIndex_monthsAfter k today.year hvalid, monthIndex_monthsAfter j today.year hvalid]
        omega
      have hordinal := ordinal_of_monthIndex_lt (monthsAfter_valid k today.year hvalid)
        (monthsAfter_valid j today.year hvalid) hindexlt day
      omega
    · exact le_refl _

/-- A date that is three days off is after now, whatever the clock does. -/
theorem lt_instantOn_of_later (c : Cadence) (tz : ZoneInfo) (u : ℤ) {d : Date}
    (h : (localDate tz u).toOrdinal + 3 ≤ d.toOrdinal) : u < c.instantOn tz d := by
  have hu := (astimezone_bounds tz u).2
  have hinstant := (instantOn_bounds c tz d).1
  have hle : ((localDate tz u).toOrdinal + 2) * microsPerDay ≤ (d.toOrdinal - 1) * microsPerDay :=
    mul_le_mul_of_nonneg_right (by omega) (by decide)
  exact hu.trans_le (hle.trans hinstant.le)

/-- **The search over the weeks.** -/
theorem nextWeekly_first {c : Cadence} (hweekly : c.frequency = .weekly) {dayOfWeek : Fin 7}
    (hday : c.dayOfWeek = some dayOfWeek) (tz : ZoneInfo) (u : ℤ) :
    ∃ d, nextWeekly (astimezone tz u) dayOfWeek c.timeOfDay tz = c.instantOn tz d ∧
      FirstFrom c tz (localDate tz u).toOrdinal u d := by
  set today := localDate tz u with htoday
  set daysAhead := (specDowToPython dayOfWeek - today.weekday) % 7 with hahead
  have hfires : ∀ d, c.FiresOn d ↔ d.weekday = specDowToPython dayOfWeek := by
    intro d
    rw [weekday_eq_specDowToPython, Cadence.FiresOn, hweekly]
    simp [hday]
  have hcandidate : c.FiresOn (today.addDays daysAhead) := (hfires _).mpr (weekly_candidate today dayOfWeek)
  have hahead_bounds : 0 ≤ daysAhead ∧ daysAhead < 7 := by omega
  have hresult : nextWeekly (astimezone tz u) dayOfWeek c.timeOfDay tz =
      if c.instantOn tz (today.addDays daysAhead) ≤ u then c.instantOn tz ((today.addDays daysAhead).addDays 7)
      else c.instantOn tz (today.addDays daysAhead) := by
    unfold nextWeekly
    simp only [dateOf_add_days]
    rfl
  -- no date of the cadence lies between today and the candidate
  have hnone : ∀ d', c.FiresOn d' → today.toOrdinal ≤ d'.toOrdinal →
      (today.addDays daysAhead).toOrdinal ≤ d'.toOrdinal := by
    intro d' hd' hstart
    by_contra hlt
    have hapart := firesOn_apart hd' hcandidate (not_le.mp hlt)
    rw [Date.toOrdinal_addDays] at hapart
    omega
  rw [hresult]
  by_cases hpast : c.instantOn tz (today.addDays daysAhead) ≤ u
  · rw [if_pos hpast]
    have hnext : c.FiresOn ((today.addDays daysAhead).addDays 7) := by
      rw [hfires, Date.weekday_addDays, (hfires _).mp hcandidate]
      unfold specDowToPython
      omega
    refine ⟨_, rfl, hnext, ?_, ?_, ?_⟩
    · rw [Date.toOrdinal_addDays, Date.toOrdinal_addDays]
      omega
    · apply lt_instantOn_of_later
      show today.toOrdinal + 3 ≤ _
      rw [Date.toOrdinal_addDays, Date.toOrdinal_addDays]
      omega
    · intro d' hd' hstart hafter
      have hlater : (today.addDays daysAhead).toOrdinal < d'.toOrdinal := by
        refine lt_of_le_of_ne (hnone d' hd' hstart) ?_
        intro hsame
        rw [← Date.toOrdinal_injective hsame] at hafter
        omega
      have hapart := firesOn_apart hcandidate hd' hlater
      rw [Date.toOrdinal_addDays]
      omega
  · rw [if_neg hpast]
    refine ⟨_, rfl, hcandidate, ?_, not_le.mp hpast, fun d' hd' hstart _ => hnone d' hd' hstart⟩
    rw [Date.toOrdinal_addDays]
    omega

section Next

variable {zones : String → Option ZoneInfo} {tzName : String} {tz : ZoneInfo}

/-- **What the next run is**: the instant of the first date of the cadence, from the start of the search on, that is after
now. -/
theorem nextRunAt_first (c : Cadence) (hzone : zones tzName = some tz) (u : ℤ) :
    ∃ d, c.nextRunAt zones tzName u = .ok (c.instantOn tz d) ∧ FirstFrom c tz (c.bound (localDate tz u)) u d := by
  obtain ⟨s, hs, -, -⟩ := nextRunAt_spec c hzone u
  cases hfrequency : c.frequency with
  | weekly =>
    obtain ⟨dayOfWeek, hday⟩ := c.weekly_day hfrequency
    obtain ⟨d, hd, hfirst⟩ := nextWeekly_first hfrequency hday tz u
    refine ⟨d, by rw [nextRunAt_weekly hzone hfrequency hday, hd], ?_⟩
    rwa [Cadence.bound, hfrequency]
  | monthly =>
    obtain ⟨day, hday⟩ := c.month_day (by rw [hfrequency]; decide)
    have hfires : ∀ d, c.FiresOn d ↔ d.day = day ∧ ∀ months ∈ (none : Option (List ℤ)), d.month ∈ months := by
      intro d
      rw [Cadence.FiresOn, hfrequency]
      simp [hday]
    rw [nextRunAt_monthly hzone hfrequency hday] at hs
    obtain ⟨d, hd, hfirst⟩ := nextByMonth_first hfires hs
    refine ⟨d, by rw [nextRunAt_monthly hzone hfrequency hday, hs, hd], ?_⟩
    rwa [Cadence.bound, hfrequency]
  | quarterly =>
    obtain ⟨day, hday⟩ := c.month_day (by rw [hfrequency]; decide)
    have hfires : ∀ d, c.FiresOn d ↔ d.day = day ∧ ∀ months ∈ some quarterMonths, d.month ∈ months := by
      intro d
      rw [Cadence.FiresOn, hfrequency]
      simp [hday]
    rw [nextRunAt_quarterly hzone hfrequency hday] at hs
    obtain ⟨d, hd, hfirst⟩ := nextByMonth_first hfires hs
    refine ⟨d, by rw [nextRunAt_quarterly hzone hfrequency hday, hs, hd], ?_⟩
    rwa [Cadence.bound, hfrequency]

/-- No occurrence of a date before the start of the search is still to come. -/
def NoneDelayed (c : Cadence) (tz : ZoneInfo) (u : ℤ) : Prop :=
  ∀ d, c.FiresOn d → d.toOrdinal < c.bound (localDate tz u) → c.instantOn tz d ≤ u

def NextIsLeast (c : Cadence) (zones : String → Option ZoneInfo) (tzName : String) (tz : ZoneInfo) (u : ℤ) : Prop :=
  ∃ s, c.nextRunAt zones tzName u = .ok s ∧ IsLeast {s | c.Occurs tz s ∧ u < s} s

/-- The next run, the one after that and so on are all occurrences after now, each once and in order. -/
def VisitsInOrder (c : Cadence) (zones : String → Option ZoneInfo) (tzName : String) (tz : ZoneInfo) (u : ℤ) : Prop :=
  ∃ f : ℕ → ℤ, f 0 = u ∧ (∀ k, c.nextRunAt zones tzName (f k) = .ok (f (k + 1))) ∧ StrictMono f ∧
    Set.range (fun k => f (k + 1)) = {s | c.Occurs tz s ∧ u < s}

theorem nextIsLeast_iff (c : Cadence) (hzone : zones tzName = some tz) (u : ℤ) :
    NextIsLeast c zones tzName tz u ↔ NoneDelayed c tz u := by
  obtain ⟨r, hr, hfirst⟩ := nextRunAt_first c hzone u
  constructor
  · rintro ⟨s, hs, hleast⟩ d hd hbefore
    obtain rfl : c.instantOn tz r = s := Except.ok.inj (hr.symm.trans hs)
    by_contra hdelayed
    have hle := hleast.2 ⟨⟨d, hd, rfl⟩, not_le.mp hdelayed⟩
    have hapart := firesOn_apart hd hfirst.fires (hbefore.trans_le hfirst.start_le)
    have hlt : c.instantOn tz d < c.instantOn tz r := instantOn_lt c tz (by omega)
    omega
  · intro hnone
    refine ⟨_, hr, ⟨⟨r, hfirst.fires, rfl⟩, hfirst.after⟩, ?_⟩
    rintro s' ⟨⟨d', hd', rfl⟩, hafter⟩
    have hstart : c.bound (localDate tz u) ≤ d'.toOrdinal := by
      by_contra hlt
      exact absurd (hnone d' hd' (not_le.mp hlt)) (not_le.mpr hafter)
    exact instantOn_le tz hfirst.fires hd' (hfirst.least d' hd' hstart hafter)

theorem noneDelayed_of_occurs {c : Cadence} {s : ℤ} (h : c.Occurs tz s) : NoneDelayed c tz s := by
  obtain ⟨r, hr, rfl⟩ := h
  intro d hd hbefore
  have hbound := bound_le c (localDate tz (c.instantOn tz r))
  have hlocal := (astimezone_bounds tz (c.instantOn tz r)).1
  have hinstant := (instantOn_bounds c tz r).2
  have hclose : (localDate tz (c.instantOn tz r)).toOrdinal ≤ r.toOrdinal + 2 := by
    by_contra hfar
    have hle : (r.toOrdinal + 2) * microsPerDay ≤ ((localDate tz (c.instantOn tz r)).toOrdinal - 1) * microsPerDay :=
      mul_le_mul_of_nonneg_right (by omega) (by decide)
    exact absurd (hlocal.trans hinstant) (not_lt.mpr hle)
  apply instantOn_le tz hd hr
  by_contra hlater
  have hapart := firesOn_apart hr hd (not_le.mp hlater)
  omega

theorem visitsInOrder_of_noneDelayed (c : Cadence) (hzone : zones tzName = some tz) {u : ℤ} (h : NoneDelayed c tz u) :
    VisitsInOrder c zones tzName tz u := by
  have htotal : ∀ v, ∃ s, c.nextRunAt zones tzName v = .ok s := by
    intro v
    obtain ⟨s, hs, -, -⟩ := nextRunAt_spec c hzone v
    exact ⟨s, hs⟩
  choose next hnext using htotal
  have hsucc : ∀ k, next^[k + 1] u = next (next^[k] u) := fun k => Function.iterate_succ_apply' next k u
  -- nothing is delayed at `u`, and after it every run is an occurrence
  have hnone : ∀ k, NoneDelayed c tz (next^[k] u) := by
    intro k
    cases k with
    | zero => exact h
    | succ k =>
      obtain ⟨s, hs, -, hoccurs⟩ := nextRunAt_spec c hzone (next^[k] u)
      obtain rfl : next (next^[k] u) = s := Except.ok.inj ((hnext _).symm.trans hs)
      rw [hsucc]
      exact noneDelayed_of_occurs hoccurs
  have hleast : ∀ k, IsLeast {s | s ∈ {s | c.Occurs tz s} ∧ next^[k] u < s} (next^[k + 1] u) := by
    intro k
    obtain ⟨s, hs, hleast⟩ := (nextIsLeast_iff c hzone (next^[k] u)).mpr (hnone k)
    obtain rfl : next (next^[k] u) = s := Except.ok.inj ((hnext _).symm.trans hs)
    rw [hsucc]
    exact hleast
  obtain ⟨hmono, hrange⟩ := range_of_isLeast (f := fun k => next^[k] u) hleast
  refine ⟨fun k => next^[k] u, rfl, ?_, hmono, hrange⟩
  intro k
  show c.nextRunAt zones tzName (next^[k] u) = .ok (next^[k + 1] u)
  rw [hsucc, hnext]

/-- **The next runs** are the occurrences after now, least first, exactly when none is delayed at the start. -/
theorem next_runs_iff (c : Cadence) (hzone : zones tzName = some tz) (u : ℤ) :
    (NextIsLeast c zones tzName tz u ∧ VisitsInOrder c zones tzName tz u) ↔ NoneDelayed c tz u := by
  rw [nextIsLeast_iff c hzone]
  exact ⟨And.left, fun h => ⟨h, visitsInOrder_of_noneDelayed c hzone h⟩⟩

end Next

/-- America/Nuuk around the night of 28 March 2026, when at 23:00 the clock is put forward to midnight: before that two
hours behind, then one. -/
def nuuk : ZoneInfo where
  fromutc := fun u =>
    if u < ordinal 2026 3 29 * microsPerDay + 60 * microsPerMinute then -120 * microsPerMinute else -60 * microsPerMinute
  utcoffset := fun wall =>
    if wall < ordinal 2026 3 29 * microsPerDay then -120 * microsPerMinute else -60 * microsPerMinute
  fromutc_bounds := by
    intro u
    split <;> decide
  utcoffset_bounds := by
    intro wall
    split <;> decide

def saturdays : Cadence where
  frequency := .weekly
  dayOfMonth := none
  dayOfWeek := some (Fin.last 6)
  timeOfDay := ⟨23, 30, by decide +kernel, by decide +kernel⟩
  cadence_ck := by decide +kernel

/-- From the Friday before, every occurrence is visited. -/
theorem next_runs_iff_saturdays :
    (NextIsLeast saturdays (fun _ => some utc) "UTC" utc (ordinal 2026 3 27 * microsPerDay) ∧
        VisitsInOrder saturdays (fun _ => some utc) "UTC" utc (ordinal 2026 3 27 * microsPerDay)) ↔
      NoneDelayed saturdays utc (ordinal 2026 3 27 * microsPerDay) :=
  next_runs_iff saturdays rfl _

/-- At ten past midnight, which is 01:10 in UTC, the run of the evening before is to come at 01:30.  What is computed is the
run a week later. -/
theorem saturday_skipped :
    ∃ s, saturdays.nextRunAt (fun _ => some nuuk) "America/Nuuk"
        (ordinal 2026 3 29 * microsPerDay + 70 * microsPerMinute) = .ok s ∧
      s = saturdays.instantOn nuuk (Date.ofParts 2026 4 4) ∧
      ¬ IsLeast {s | saturdays.Occurs nuuk s ∧ ordinal 2026 3 29 * microsPerDay + 70 * microsPerMinute < s} s := by
  refine ⟨saturdays.instantOn nuuk (Date.ofParts 2026 4 4), by decide +kernel, rfl, ?_⟩
  intro hleast
  have hoccurs : saturdays.Occurs nuuk (saturdays.instantOn nuuk (Date.ofParts 2026 3 28)) :=
    ⟨Date.ofParts 2026 3 28, ⟨6, rfl, by decide +kernel⟩, rfl⟩
  have hle := hleast.2 ⟨hoccurs, by decide +kernel⟩
  exact absurd hle (by decide +kernel)

end FavoniusBackend.Reports
