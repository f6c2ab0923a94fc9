import FavoniusBackend.Reports.Timing

/-!
# The next run is an occurrence

Whatever the instant, `computeNextRunAt` finds an occurrence of the cadence after it: the two computations of a wall clock
are off by less than a day each, and a week, or two months, are longer than that.
-/

namespace FavoniusBackend.Reports

open Lib.Calendar

/-! ## Bounds -/

theorem micros_bounds (t : TimeOfDay) : 0 ≤ t.micros ∧ t.micros < microsPerDay := by
  have hhour := t.hour_valid
  have hminute := t.minute_valid
  unfold TimeOfDay.micros microsPerMinute microsPerDay
  omega

/-- A local date and time is less than a day before the date, or less than two after its start. -/
theorem localizeToUtc_bounds (year month day : ℤ) (t : TimeOfDay) (tz : ZoneInfo) :
    (ordinal year month day - 1) * microsPerDay < localizeToUtc year month day t tz ∧
      localizeToUtc year month day t tz < (ordinal year month day + 2) * microsPerDay := by
  have hmicros := micros_bounds t
  have hoffset := tz.utcoffset_bounds (ordinal year month day * microsPerDay + t.micros)
  unfold localizeToUtc
  simp only [sub_mul, add_mul]
  omega

@[simp] theorem toOrdinal_dateOf (wall : ℤ) : (dateOf wall).toOrdinal = wall / microsPerDay :=
  Date.toOrdinal_ofOrdinal _

theorem dateOf_add_days (wall k : ℤ) : dateOf (wall + k * microsPerDay) = (dateOf wall).addDays k := by
  refine Date.toOrdinal_injective ?_
  rw [toOrdinal_dateOf, Date.toOrdinal_addDays, toOrdinal_dateOf]
  exact Int.add_mul_ediv_right _ _ (by decide)

theorem astimezone_bounds (tz : ZoneInfo) (u : ℤ) :
    ((dateOf (astimezone tz u).wall).toOrdinal - 1) * microsPerDay < u ∧
      u < ((dateOf (astimezone tz u).wall).toOrdinal + 2) * microsPerDay := by
  have hoffset := tz.fromutc_bounds u
  have hdiv := Int.emod_add_mul_ediv (astimezone tz u).wall microsPerDay
  have hmod : 0 ≤ (astimezone tz u).wall % microsPerDay ∧ (astimezone tz u).wall % microsPerDay < microsPerDay :=
    ⟨Int.emod_nonneg _ (by decide), Int.emod_lt_of_pos _ (by decide)⟩
  have hwall : (astimezone tz u).wall = u + tz.fromutc u := rfl
  rw [toOrdinal_dateOf]
  simp only [sub_mul, add_mul]
  rw [mul_comm microsPerDay] at hdiv
  omega

theorem instantOn_bounds (c : Cadence) (tz : ZoneInfo) (d : Date) :
    (d.toOrdinal - 1) * microsPerDay < c.instantOn tz d ∧ c.instantOn tz d < (d.toOrdinal + 2) * microsPerDay :=
  localizeToUtc_bounds d.year d.month d.day c.timeOfDay tz

/-- Dates that are three days apart fire in their order. -/
theorem instantOn_lt (c : Cadence) (tz : ZoneInfo) {d d' : Date} (h : d.toOrdinal + 3 ≤ d'.toOrdinal) :
    c.instantOn tz d < c.instantOn tz d' := by
  have hd := instantOn_bounds c tz d
  have hd' := instantOn_bounds c tz d'
  have hle : (d.toOrdinal + 2) * microsPerDay ≤ (d'.toOrdinal - 1) * microsPerDay :=
    mul_le_mul_of_nonneg_right (by omega) (by decide)
  omega

/-! ## Weeks -/

theorem weekday_eq_specDowToPython (d : Date) (dayOfWeek : Fin 7) :
    d.weekday = specDowToPython dayOfWeek ↔ (d.weekday + 1) % 7 = (dayOfWeek : ℤ) := by
  have hbounds := d.weekday_bounds
  have hdow : (dayOfWeek : ℤ) < 7 := by exact_mod_cast dayOfWeek.isLt
  unfold specDowToPython
  omega

theorem weekly_candidate (d : Date) (dayOfWeek : Fin 7) :
    (d.addDays ((specDowToPython dayOfWeek - d.weekday) % 7)).weekday = specDowToPython dayOfWeek := by
  rw [Date.weekday_addDays]
  unfold specDowToPython
  omega

theorem nextWeekly_spec (u : ℤ) (dayOfWeek : Fin 7) (t : TimeOfDay) (tz : ZoneInfo) :
    ∃ d : Date, (d.weekday + 1) % 7 = (dayOfWeek : ℤ) ∧ u < localizeToUtc d.year d.month d.day t tz ∧
      nextWeekly (astimezone tz u) dayOfWeek t tz = localizeToUtc d.year d.month d.day t tz := by
  unfold nextWeekly
  simp only [dateOf_add_days]
  set today := dateOf (astimezone tz u).wall with htoday
  set candidate := today.addDays ((specDowToPython dayOfWeek - today.weekday) % 7) with hcandidate
  have hweekday : candidate.weekday = specDowToPython dayOfWeek := weekly_candidate today dayOfWeek
  by_cases hle : localizeToUtc candidate.year candidate.month candidate.day t tz ≤ (astimezone tz u).utc
  · rw [if_pos hle]
    refine ⟨candidate.addDays 7, ?_, ?_, rfl⟩
    · rw [← weekday_eq_specDowToPython, Date.weekday_addDays, hweekday]
      unfold specDowToPython
      omega
    · -- a week after today at the earliest
      have hafter : today.toOrdinal + 7 ≤ (candidate.addDays 7).toOrdinal := by
        rw [Date.toOrdinal_addDays, hcandidate, Date.toOrdinal_addDays]
        omega
      have hu := (astimezone_bounds tz u).2
      have hnext := (localizeToUtc_bounds (candidate.addDays 7).year (candidate.addDays 7).month
        (candidate.addDays 7).day t tz).1
      have hle' : (today.toOrdinal + 2) * microsPerDay ≤ ((candidate.addDays 7).toOrdinal - 1) * microsPerDay :=
        mul_le_mul_of_nonneg_right (by omega) (by decide)
      exact hu.trans_le (hle'.trans hnext.le)
  · rw [if_neg hle]
    exact ⟨candidate, (weekday_eq_specDowToPython _ _).mp hweekday, not_le.mp hle, rfl⟩

/-! ## Months -/

def monthsAfter : ℕ → ℤ → ℤ → ℤ × ℤ
  | 0, year, month => (year, month)
  | k + 1, year, month => monthsAfter k (nextMonth year month).1 (nextMonth year month).2

theorem monthsAfter_valid (k : ℕ) (year : ℤ) {month : ℤ} (hm : 1 ≤ month ∧ month ≤ 12) :
    1 ≤ (monthsAfter k year month).2 ∧ (monthsAfter k year month).2 ≤ 12 := by
  induction k generalizing year month with
  | zero => exact hm
  | succ k ih => exact ih _ (nextMonth_valid year hm)

theorem ordinal_monthsAfter (k : ℕ) (year : ℤ) {month : ℤ} (hm : 1 ≤ month ∧ month ≤ 12) (day : ℤ) :
    ordinal year month day + 28 * k ≤ ordinal (monthsAfter k year month).1 (monthsAfter k year month).2 day := by
  induction k generalizing year month with
  | zero => simp [monthsAfter]
  | succ k ih =>
    have hnext := ih (nextMonth year month).1 (nextMonth_valid year hm)
    rw [ordinal_nextMonth year hm] at hnext
    have hdays := (daysInMonth_bounds year month).1
    rw [monthsAfter]
    push_cast
    omega

section Scan

variable {nowUtc dayOfMonth : ℤ} {t : TimeOfDay} {tz : ZoneInfo} {allowedMonths : Option (List ℤ)}

theorem scanMonths_sound {n : ℕ} {year month r : ℤ} (hm : 1 ≤ month ∧ month ≤ 12)
    (h : scanMonths nowUtc dayOfMonth t tz allowedMonths n year month = .ok r) :
    ∃ year' month', (1 ≤ month' ∧ month' ≤ 12) ∧ (∀ months ∈ allowedMonths, month' ∈ months) ∧ nowUtc < r ∧
      r = localizeToUtc year' month' dayOfMonth t tz := by
  induction n generalizing year month with
  | zero => exact nomatch h
  | succ n ih =>
    rw [scanMonths] at h
    split at h
    · rename_i hfound
      obtain rfl := Except.ok.inj h
      exact ⟨year, month, hm, hfound.1, hfound.2, rfl⟩
    · exact ih (nextMonth_valid year hm) h

theorem scanMonths_skip {n : ℕ} {year month : ℤ}
    (h : ¬ ((∀ months ∈ allowedMonths, month ∈ months) ∧ nowUtc < localizeToUtc year month dayOfMonth t tz)) :
    scanMonths nowUtc dayOfMonth t tz allowedMonths (n + 1) year month =
      scanMonths nowUtc dayOfMonth t tz allowedMonths n (nextMonth year month).1 (nextMonth year month).2 := by
  rw [scanMonths]
  exact if_neg h

theorem scanMonths_found {n : ℕ} {year month : ℤ} (hallowed : ∀ months ∈ allowedMonths, month ∈ months)
    (hafter : nowUtc < localizeToUtc year month dayOfMonth t tz) :
    scanMonths nowUtc dayOfMonth t tz allowedMonths (n + 1) year month =
      .ok (localizeToUtc year month dayOfMonth t tz) := by
  rw [scanMonths]
  exact if_pos ⟨hallowed, hafter⟩

theorem scanMonths_complete {n k : ℕ} {year month : ℤ} (hk : k < n)
    (hallowed : ∀ months ∈ allowedMonths, (monthsAfter k year month).2 ∈ months)
    (hafter : nowUtc < localizeToUtc (monthsAfter k year month).1 (monthsAfter k year month).2 dayOfMonth t tz) :
    ∃ r, scanMonths nowUtc dayOfMonth t tz allowedMonths n year month = .ok r := by
  induction n generalizing k year month with
  | zero => exact absurd hk (Nat.not_lt_zero k)
  | succ n ih =>
    rw [scanMonths]
    split
    · exact ⟨_, rfl⟩
    · rename_i hnot
      cases k with
      | zero => exact absurd ⟨hallowed, hafter⟩ hnot
      | succ k => exact ih (Nat.lt_of_succ_lt_succ hk) hallowed hafter

end Scan

theorem lt_localizeToUtc_monthsAfter (u : ℤ) {day : ℤ} (hday : 1 ≤ day) (t : TimeOfDay) (tz : ZoneInfo) {k : ℕ}
    (hk : 2 ≤ k) :
    u < localizeToUtc (monthsAfter k (dateOf (astimezone tz u).wall).year (dateOf (astimezone tz u).wall).month).1
      (monthsAfter k (dateOf (astimezone tz u).wall).year (dateOf (astimezone tz u).wall).month).2 day t tz := by
  set today := dateOf (astimezone tz u).wall
  have hu := (astimezone_bounds tz u).2
  have hlater := ordinal_monthsAfter k today.year today.month_valid day
  have hdays := (daysInMonth_bounds today.year today.month).2
  have htoday : today.toOrdinal = ordinal today.year today.month day - day + today.day := by
    unfold Date.toOrdinal ordinal
    ring
  have hdayvalid := today.day_valid
  have hcandidate := (localizeToUtc_bounds (monthsAfter k today.year today.month).1
    (monthsAfter k today.year today.month).2 day t tz).1
  have hle : (today.toOrdinal + 2) * microsPerDay ≤
      (ordinal (monthsAfter k today.year today.month).1 (monthsAfter k today.year today.month).2 day - 1) *
        microsPerDay := mul_le_mul_of_nonneg_right (by omega) (by decide)
  exact hu.trans_le (hle.trans hcandidate.le)

theorem month_monthsAfter (k : ℕ) (year : ℤ) {month : ℤ} (hm : 1 ≤ month ∧ month ≤ 12) :
    (monthsAfter k year month).2 = (month - 1 + k) % 12 + 1 := by
  induction k generalizing year month with
  | zero =>
    rw [monthsAfter]
    push_cast
    omega
  | succ k ih =>
    rw [monthsAfter, ih _ (nextMonth_valid year hm)]
    unfold nextMonth
    push_cast
    split <;> simp only <;> omega

theorem mem_quarterMonths {month : ℤ} (hm : 1 ≤ month ∧ month ≤ 12) : month ∈ quarterMonths ↔ month % 3 = 1 := by
  simp only [quarterMonths, List.mem_cons, List.not_mem_nil, or_false]
  omega

theorem exists_quarterMonth (year : ℤ) {month : ℤ} (hm : 1 ≤ month ∧ month ≤ 12) :
    ∃ k, 2 ≤ k ∧ k < 60 ∧ (monthsAfter k year month).2 ∈ quarterMonths := by
  have hvalid := fun k => monthsAfter_valid k year hm
  have hmonth : ∀ k, (monthsAfter k year month).2 ∈ quarterMonths ↔ ((month - 1 + k) % 12 + 1) % 3 = 1 := fun k => by
    rw [mem_quarterMonths (hvalid k), month_monthsAfter k year hm]
  rcases (by omega : (month - 1) % 3 = 0 ∨ (month - 1) % 3 = 1 ∨ (month - 1) % 3 = 2) with h | h | h
  · exact ⟨3, by decide, by decide, (hmonth 3).mpr (by push_cast; omega)⟩
  · exact ⟨2, by decide, by decide, (hmonth 2).mpr (by push_cast; omega)⟩
  · exact ⟨4, by decide, by decide, (hmonth 4).mpr (by push_cast; omega)⟩

/-! ## Every cadence -/

variable {zones : String → Option ZoneInfo} {tzName : String} {tz : ZoneInfo}

theorem nextRunAt_weekly {c : Cadence} (hzone : zones tzName = some tz) (hweekly : c.frequency = .weekly)
    {dayOfWeek : Fin 7} (hday : c.dayOfWeek = some dayOfWeek) (u : ℤ) :
    c.nextRunAt zones tzName u = .ok (nextWeekly (astimezone tz u) dayOfWeek c.timeOfDay tz) := by
  rw [Cadence.nextRunAt, computeNextRunAt, resolveTimezone, hzone, hweekly, hday]
  rfl

theorem nextRunAt_monthly {c : Cadence} (hzone : zones tzName = some tz) (hmonthly : c.frequency = .monthly)
    {day : DayOfMonth} (hday : c.dayOfMonth = some day) (u : ℤ) :
    c.nextRunAt zones tzName u = nextByMonth (astimezone tz u) day c.timeOfDay tz none := by
  rw [Cadence.nextRunAt, computeNextRunAt, resolveTimezone, hzone, hmonthly, hday]
  rfl

theorem nextRunAt_quarterly {c : Cadence} (hzone : zones tzName = some tz) (hquarterly : c.frequency = .quarterly)
    {day : DayOfMonth} (hday : c.dayOfMonth = some day) (u : ℤ) :
    c.nextRunAt zones tzName u = nextByMonth (astimezone tz u) day c.timeOfDay tz (some quarterMonths) := by
  rw [Cadence.nextRunAt, computeNextRunAt, resolveTimezone, hzone, hquarterly, hday]
  rfl

theorem Cadence.weekly_day (c : Cadence) (h : c.frequency = .weekly) : ∃ dayOfWeek, c.dayOfWeek = some dayOfWeek := by
  have hck := c.cadence_ck
  rw [if_pos h] at hck
  exact Option.isSome_iff_exists.mp hck.1

theorem Cadence.month_day (c : Cadence) (h : c.frequency ≠ .weekly) : ∃ day, c.dayOfMonth = some day := by
  have hck := c.cadence_ck
  rw [if_neg h] at hck
  exact Option.isSome_iff_exists.mp hck.1

theorem nextByMonth_sound {u r : ℤ} {day : DayOfMonth} {t : TimeOfDay} {allowedMonths : Option (List ℤ)}
    (h : nextByMonth (astimezone tz u) day t tz allowedMonths = .ok r) :
    ∃ d : Date, d.day = day ∧ (∀ months ∈ allowedMonths, d.month ∈ months) ∧ u < r ∧
      r = localizeToUtc d.year d.month d.day t tz := by
  obtain ⟨year, month, hm, hallowed, hafter, hr⟩ := scanMonths_sound (dateOf (astimezone tz u).wall).month_valid h
  obtain ⟨hy, hmo, hd⟩ := @Date.ofParts_parts_of_le year month day hm day.property
  refine ⟨Date.ofParts year month day, hd, ?_, hafter, ?_⟩
  · rw [hmo]
    exact hallowed
  · rw [hr, hy, hmo, hd]

theorem nextByMonth_total (u : ℤ) (day : DayOfMonth) (t : TimeOfDay) (tz : ZoneInfo) {allowedMonths : Option (List ℤ)}
    (h : allowedMonths = none ∨ allowedMonths = some quarterMonths) :
    ∃ r, nextByMonth (astimezone tz u) day t tz allowedMonths = .ok r := by
  obtain ⟨k, hk, hk60, hquarter⟩ := exists_quarterMonth (dateOf (astimezone tz u).wall).year
    (dateOf (astimezone tz u).wall).month_valid
  refine scanMonths_complete hk60 ?_ (lt_localizeToUtc_monthsAfter u day.property.1 t tz hk)
  rcases h with rfl | rfl
  · simp
  · intro months hmonths
    obtain rfl := Option.mem_some_iff.mp hmonths
    exact hquarter

/-- **The next run.**  From every instant there is one, it is after it, and it is an occurrence. -/
theorem nextRunAt_spec (c : Cadence) (hzone : zones tzName = some tz) (u : ℤ) :
    ∃ s, c.nextRunAt zones tzName u = .ok s ∧ u < s ∧ c.Occurs tz s := by
  cases hfrequency : c.frequency with
  | weekly =>
    obtain ⟨dayOfWeek, hday⟩ := c.weekly_day hfrequency
    obtain ⟨d, hweekday, hafter, hs⟩ := nextWeekly_spec u dayOfWeek c.timeOfDay tz
    refine ⟨_, nextRunAt_weekly hzone hfrequency hday u, hs ▸ hafter, d, ?_, hs⟩
    rw [Cadence.FiresOn, hfrequency]
    exact ⟨dayOfWeek, hday, hweekday⟩
  | monthly =>
    obtain ⟨day, hday⟩ := c.month_day (by rw [hfrequency]; decide)
    obtain ⟨r, hr⟩ := @nextByMonth_total u day c.timeOfDay tz none (.inl rfl)
    obtain ⟨d, hd, -, hafter, hlocal⟩ := nextByMonth_sound hr
    refine ⟨r, (nextRunAt_monthly hzone hfrequency hday u).trans hr, hafter, d, ?_, hlocal⟩
    rw [Cadence.FiresOn, hfrequency]
    exact ⟨day, hday, hd⟩
  | quarterly =>
    obtain ⟨day, hday⟩ := c.month_day (by rw [hfrequency]; decide)
    obtain ⟨r, hr⟩ := @nextByMonth_total u day c.timeOfDay tz (some quarterMonths) (.inr rfl)
    obtain ⟨d, hd, hmonth, hafter, hlocal⟩ := nextByMonth_sound hr
    refine ⟨r, (nextRunAt_quarterly hzone hfrequency hday u).trans hr, hafter, d, ?_, hlocal⟩
    rw [Cadence.FiresOn, hfrequency]
    exact ⟨⟨day, hday, hd⟩, hmonth _ rfl⟩

theorem nextRunAt_ok {c : Cadence} {u s : ℤ} (h : c.nextRunAt zones tzName u = .ok s) :
    u < s ∧ ∀ tz, zones tzName = some tz → c.Occurs tz s := by
  cases hzone : zones tzName with
  | none =>
    rw [Cadence.nextRunAt, computeNextRunAt, resolveTimezone, hzone] at h
    exact nomatch h
  | some tz =>
    obtain ⟨s', hs', hlt, hoccurs⟩ := nextRunAt_spec c hzone u
    obtain rfl : s' = s := Except.ok.inj (hs'.symm.trans h)
    refine ⟨hlt, ?_⟩
    rintro tz' htz'
    obtain rfl := Option.some.inj htz'
    exact hoccurs

end FavoniusBackend.Reports
