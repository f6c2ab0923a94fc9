import FavoniusBackend.Reports.EnergyRows

/-!
# What the rows of an energy report add up to

A session counts where it starts between two midnights, but its row is the month that the clock of the depot shows.  These
agree unless the clock is set back over the midnight that a month begins with, or ahead over the one that it ends with
(`partitions_iff`).
-/

namespace FavoniusBackend.Reports.EnergyRows

open Lib
open Lib.Calendar
open Lib.PyJson (PyError)
open Lib.Uuid (padded)
open Agent.TimeWindows (Representable InYears midnight inYears_iff inYears_iff_year inYears_this dateOf_inYears)

/-! ## Months -/

theorem year_of_inYears {d : Date} (h : InYears d.toOrdinal) : 1 ≤ d.year ∧ d.year ≤ 9999 :=
  (inYears_iff_year d.month_valid).mp (inYears_this .month h)

theorem inYears_of_year {d : Date} (h : 1 ≤ d.year ∧ d.year ≤ 9999) : InYears d.toOrdinal := by
  have hbounds := d.dayOfYear_bounds
  have hsucc := daysBeforeYear_succ d.year
  have hlo := @daysBeforeYear_le 1 d.year (by omega)
  have hhi := @daysBeforeYear_le (d.year + 1) 10000 (by omega)
  have hone : daysBeforeYear 1 = 0 := rfl
  have hlast : daysBeforeYear 10000 = 3652059 := rfl
  rw [inYears_iff, Date.toOrdinal, ordinal]
  omega

theorem monthIndex_mono {d d' : Date} (h : d.toOrdinal ≤ d'.toOrdinal) :
    monthIndex d.year d.month ≤ monthIndex d'.year d'.month := by
  by_contra hlt
  have hfirst := (monthIndex_lt_iff d' d.month_valid).mpr (not_le.mp hlt)
  have hday := ordinal_day d.year d.month d.day
  have hvalid := d.day_valid
  rw [Date.toOrdinal] at h
  omega

theorem monthText_inj {d d' : Date} (hd : InYears d.toOrdinal) (hd' : InYears d'.toOrdinal)
    (h : monthText d = monthText d') : monthIndex d.year d.month = monthIndex d'.year d'.month := by
  have hyear := year_of_inYears hd
  have hyear' := year_of_inYears hd'
  have hmonth := d.month_valid
  have hmonth' := d'.month_valid
  obtain ⟨hyears, hmonths⟩ := List.append_inj (String.ofList_injective h) (by simp)
  have hy := DateTime.padded_inj (by omega) (by omega) hyears
  have hm := DateTime.padded_inj (by omega) (by omega) (List.cons.inj hmonths).2
  unfold monthIndex
  omega

def DateRange.Includes (range : DateRange) (d : Date) : Prop :=
  range.fromDate.toOrdinal ≤ d.toOrdinal ∧ d.toOrdinal ≤ range.toDate.toOrdinal

theorem DateRange.Includes.inYears {range : DateRange} {d : Date} (h : range.Includes d) : InYears d.toOrdinal := by
  have hfrom := range.fromDate_inYears
  have hto := range.toDate_inYears
  unfold DateRange.Includes at h
  rw [inYears_iff] at hfrom hto ⊢
  omega

theorem DateRange.touches_iff (range : DateRange) {d : Date} (hd : InYears d.toOrdinal) :
    (∃ d', range.Includes d' ∧ monthText d = monthText d') ↔
      monthIndex range.fromDate.year range.fromDate.month ≤ monthIndex d.year d.month ∧
        monthIndex d.year d.month ≤ monthIndex range.toDate.year range.toDate.month := by
  constructor
  · rintro ⟨d', hincludes, htext⟩
    rw [monthText_inj hd hincludes.inYears htext]
    exact ⟨monthIndex_mono hincludes.1, monthIndex_mono hincludes.2⟩
  · rintro ⟨hlo, hhi⟩
    rcases hlo.eq_or_lt with hsame | hlater
    · refine ⟨range.fromDate, ⟨le_rfl, range.ordered⟩, ?_⟩
      obtain ⟨hyear, hmonth⟩ := Prod.mk.inj (eq_of_monthIndex d.month_valid range.fromDate.month_valid hsame.symm)
      rw [monthText, monthText, hyear, hmonth]
    · -- a later month is touched on its first day
      have hfirst := (monthIndex_lt_iff range.fromDate d.month_valid).mpr hlater
      have hnot : ¬ range.toDate.toOrdinal < ordinal d.year d.month 1 := by
        rw [monthIndex_lt_iff range.toDate d.month_valid]
        omega
      obtain ⟨hyear, hmonth, -⟩ := @Date.ofParts_parts_of_le d.year d.month 1 d.month_valid (by omega)
      refine ⟨Date.ofParts d.year d.month 1, ⟨?_, ?_⟩, ?_⟩
      · rw [Date.toOrdinal_ofParts]
        omega
      · rw [Date.toOrdinal_ofParts]
        omega
      · rw [monthText, monthText, hyear, hmonth]

/-! ## Windows -/

section Window

variable {tz : ZoneInfo} {range : DateRange}

theorem windowUtcBounds_eq_ok {window : ℤ × ℤ} : windowUtcBounds tz range = .ok window ↔
    Representable ((range.toDate.toOrdinal + 1) * microsPerDay) ∧ Representable (midnight tz range.fromDate.toOrdinal) ∧
      Representable (midnight tz (range.toDate.toOrdinal + 1)) ∧
      window = (midnight tz range.fromDate.toOrdinal, midnight tz (range.toDate.toOrdinal + 1)) := by
  unfold windowUtcBounds
  simp only [Guard.bind_eq_ok, checked_eq_ok]
  constructor
  · rintro ⟨_, ⟨hday, -⟩, _, ⟨hstart, rfl⟩, _, ⟨hend, rfl⟩, h⟩
    exact ⟨hday, hstart, hend, (Except.ok.inj h).symm⟩
  · rintro ⟨hday, hstart, hend, rfl⟩
    exact ⟨_, ⟨hday, rfl⟩, _, ⟨hstart, rfl⟩, _, ⟨hend, rfl⟩, rfl⟩

theorem mem_inWindow {window : ℤ × ℤ} {sessions : List SessionRow} {row : SessionRow} :
    row ∈ inWindow window sessions ↔
      row ∈ sessions ∧ window.1 ≤ row.startTime.instant ∧ row.startTime.instant < window.2 := by
  rw [inWindow, List.mem_filter, sessionInWindow, decide_eq_true_iff]

theorem sum_inWindow {a b c : ℤ} (hab : a ≤ b) (hbc : b ≤ c) (g : SessionRow → ℚ) (sessions : List SessionRow) :
    ((inWindow (a, c) sessions).map g).sum =
      ((inWindow (a, b) sessions).map g).sum + ((inWindow (b, c) sessions).map g).sum := by
  unfold inWindow
  rw [Sql.sum_map_filter, Sql.sum_map_filter, Sql.sum_map_filter, ← List.sum_map_add]
  refine congrArg List.sum (List.map_congr_left fun row _ => ?_)
  simp only [sessionInWindow, decide_eq_true_eq]
  by_cases hfirst : row.startTime.instant < b
  · have hsecond : ¬ (b ≤ row.startTime.instant ∧ row.startTime.instant < c) := by omega
    rw [if_neg hsecond, add_zero]
    by_cases ha : a ≤ row.startTime.instant
    · rw [if_pos ⟨ha, by omega⟩, if_pos ⟨ha, hfirst⟩]
    · rw [if_neg (by omega), if_neg (by omega)]
  · have hnot : ¬ (a ≤ row.startTime.instant ∧ row.startTime.instant < b) := by omega
    rw [if_neg hnot, zero_add]
    by_cases hc : row.startTime.instant < c
    · rw [if_pos ⟨by omega, hc⟩, if_pos ⟨by omega, hc⟩]
    · rw [if_neg (by omega), if_neg (by omega)]

theorem length_eq_sum (rows : List SessionRow) : ((rows.length : ℕ) : ℚ) = (rows.map fun _ => (1 : ℚ)).sum := by
  rw [List.map_const', List.sum_replicate, nsmul_eq_mul, mul_one]

end Window

/-! ## Partitions -/

/-- A zone of the database: the clock is never set ahead by more than a day, so the midnights come in their order. -/
structure DepotZone extends ZoneInfo where
  midnights_le : ∀ n, midnight toZoneInfo n ≤ midnight toZoneInfo (n + 1)

theorem DepotZone.midnight_le (tz : DepotZone) {n m : ℤ} (h : n ≤ m) :
    midnight tz.toZoneInfo n ≤ midnight tz.toZoneInfo m := by
  induction m, h using Int.leInduction with
  | base => exact le_rfl
  | succ m _ ih => exact ih.trans (tz.midnights_le m)

/-- What the rows and the totals of a range are to each other, for all sessions. -/
structure Partitions (tz : ZoneInfo) (range : DateRange) : Prop where
  returns : ∀ sessions groupBy underCapRate currency,
    (∃ rows, aggregateEnergyRows id tz sessions groupBy underCapRate currency range = .ok rows) ↔
      ∃ totals, computeEnergyTotals id tz sessions underCapRate currency range = .ok totals
  sums : ∀ sessions groupBy underCapRate currency rows totals,
    aggregateEnergyRows id tz sessions groupBy underCapRate currency range = .ok rows →
    computeEnergyTotals id tz sessions underCapRate currency range = .ok totals →
      (rows.map fun r => r.figures.sessionCount).sum = totals.sessionCount ∧
        (rows.map fun r => r.figures.energyKwh).sum = totals.energyKwh ∧
        (rows.map fun r => r.figures.amount).sum = totals.amount ∧
        ((∃ r ∈ rows, r.figures.estimated = true) ↔ totals.estimated = true)
  months : ∀ sessions groupBy underCapRate currency rows,
    aggregateEnergyRows id tz sessions groupBy underCapRate currency range = .ok rows →
      ∀ r ∈ rows, ∃ d, range.Includes d ∧ r.bucket = monthText d
  permuted : ∀ sessions sessions' groupBy underCapRate currency, sessions.Perm sessions' →
    (∀ rows, aggregateEnergyRows id tz sessions groupBy underCapRate currency range = .ok rows →
      ∃ rows', aggregateEnergyRows id tz sessions' groupBy underCapRate currency range = .ok rows' ∧
        List.Forall₂ (Same groupBy) rows rows') ∧
    ∀ totals, computeEnergyTotals id tz sessions underCapRate currency range = .ok totals →
      computeEnergyTotals id tz sessions' underCapRate currency range = .ok totals
  split : ∀ sessions underCapRate currency (first second : DateRange) totals totals',
    first.fromDate = range.fromDate → second.fromDate.toOrdinal = first.toDate.toOrdinal + 1 →
    second.toDate = range.toDate →
    computeEnergyTotals id tz sessions underCapRate currency first = .ok totals →
    computeEnergyTotals id tz sessions underCapRate currency second = .ok totals' →
      ∃ whole, computeEnergyTotals id tz sessions underCapRate currency range = .ok whole ∧
        whole.sessionCount = totals.sessionCount + totals'.sessionCount ∧
        whole.energyKwh = totals.energyKwh + totals'.energyKwh ∧ whole.amount = totals.amount + totals'.amount ∧
        (whole.estimated = true ↔ totals.estimated = true ∨ totals'.estimated = true)

/-- From the first midnight of the range to the one after it, the clock shows no month that the range does not touch. -/
def KeepsMonths (tz : ZoneInfo) (range : DateRange) : Prop :=
  ∀ window, windowUtcBounds tz range = .ok window → ∀ u, window.1 ≤ u → u < window.2 →
    monthIndex range.fromDate.year range.fromDate.month ≤
        monthIndex (dateOf (u + tz.fromutc u)).year (dateOf (u + tz.fromutc u)).month ∧
      monthIndex (dateOf (u + tz.fromutc u)).year (dateOf (u + tz.fromutc u)).month ≤
        monthIndex range.toDate.year range.toDate.month

section Partition

variable {tz : ZoneInfo} {range : DateRange} {sessions : List SessionRow} {groupBy : Option GroupBy}
  {underCapRate : Option ℚ} {currency : String}

theorem sums_of_ok {rows : List ReportRow} {totals : Figures}
    (hrows : aggregateEnergyRows id tz sessions groupBy underCapRate currency range = .ok rows)
    (htotals : computeEnergyTotals id tz sessions underCapRate currency range = .ok totals) :
    (rows.map fun r => r.figures.sessionCount).sum = totals.sessionCount ∧
      (rows.map fun r => r.figures.energyKwh).sum = totals.energyKwh ∧
      (rows.map fun r => r.figures.amount).sum = totals.amount ∧
      ((∃ r ∈ rows, r.figures.estimated = true) ↔ totals.estimated = true) := by
  obtain ⟨window, hwindow, -, rfl⟩ := aggregateEnergyRows_eq_ok.mp hrows
  obtain ⟨window', hwindow', -, rfl⟩ := computeEnergyTotals_eq_ok.mp htotals
  obtain rfl := Except.ok.inj (hwindow.symm.trans hwindow')
  refine ⟨?_, ?_, ?_, exists_estimated_iff _⟩
  · have hcount := @sum_rowsOf tz groupBy underCapRate currency (fun figures => (figures.sessionCount : ℚ)) (fun _ => 1)
      (fun rows => by rw [figuresOf_sessionCount, length_eq_sum]) (inWindow window sessions)
    rw [← length_eq_sum] at hcount
    rw [figuresOf_sessionCount]
    have hcast : ((((rowsOf tz groupBy underCapRate currency (inWindow window sessions)).map
        fun r => r.figures.sessionCount).sum : ℕ) : ℚ) = ((inWindow window sessions).length : ℕ) := by
      rw [← hcount, Nat.cast_list_sum, List.map_map]
      rfl
    exact_mod_cast hcast
  · rw [figuresOf_energyKwh]
    exact sum_rowsOf (f := Figures.energyKwh) (figuresOf_energyKwh underCapRate currency) _
  · rw [figuresOf_amount]
    exact sum_rowsOf (f := Figures.amount) (figuresOf_amount underCapRate currency) _

theorem permuted_of_ok {sessions' : List SessionRow} (h : sessions.Perm sessions') :
    (∀ rows, aggregateEnergyRows id tz sessions groupBy underCapRate currency range = .ok rows →
      ∃ rows', aggregateEnergyRows id tz sessions' groupBy underCapRate currency range = .ok rows' ∧
        List.Forall₂ (Same groupBy) rows rows') ∧
    ∀ totals, computeEnergyTotals id tz sessions underCapRate currency range = .ok totals →
      computeEnergyTotals id tz sessions' underCapRate currency range = .ok totals := by
  have hfilter : ∀ window, (inWindow window sessions).Perm (inWindow window sessions') := fun window => h.filter _
  constructor
  · intro rows hrows
    obtain ⟨window, hwindow, hall, rfl⟩ := aggregateEnergyRows_eq_ok.mp hrows
    refine ⟨_, aggregateEnergyRows_eq_ok.mpr ⟨window, hwindow, ?_, rfl⟩, rowsOf_perm (hfilter window)⟩
    exact fun row hrow => hall row ((hfilter window).mem_iff.mpr hrow)
  · intro totals htotals
    obtain ⟨window, hwindow, hall, rfl⟩ := computeEnergyTotals_eq_ok.mp htotals
    refine computeEnergyTotals_eq_ok.mpr ⟨window, hwindow, ?_, ?_⟩
    · exact fun row hrow => hall row ((hfilter window).mem_iff.mpr hrow)
    · rw [figuresOf, figuresOf, aggOf_perm (hfilter window)]

end Partition

theorem split_of_ok (tz : DepotZone) {range : DateRange} {sessions : List SessionRow} {underCapRate : Option ℚ}
    {currency : String} {first second : DateRange} {totals totals' : Figures} (hfrom : first.fromDate = range.fromDate)
    (hmid : second.fromDate.toOrdinal = first.toDate.toOrdinal + 1) (hto : second.toDate = range.toDate)
    (hfirst : computeEnergyTotals id tz.toZoneInfo sessions underCapRate currency first = .ok totals)
    (hsecond : computeEnergyTotals id tz.toZoneInfo sessions underCapRate currency second = .ok totals') :
    ∃ whole, computeEnergyTotals id tz.toZoneInfo sessions underCapRate currency range = .ok whole ∧
      whole.sessionCount = totals.sessionCount + totals'.sessionCount ∧
      whole.energyKwh = totals.energyKwh + totals'.energyKwh ∧ whole.amount = totals.amount + totals'.amount ∧
      (whole.estimated = true ↔ totals.estimated = true ∨ totals'.estimated = true) := by
  obtain ⟨window, hwindow, hall, rfl⟩ := computeEnergyTotals_eq_ok.mp hfirst
  obtain ⟨window', hwindow', hall', rfl⟩ := computeEnergyTotals_eq_ok.mp hsecond
  obtain ⟨-, hstart, -, rfl⟩ := windowUtcBounds_eq_ok.mp hwindow
  obtain ⟨hday, -, hend, rfl⟩ := windowUtcBounds_eq_ok.mp hwindow'
  rw [hfrom] at hstart hall ⊢
  rw [hto] at hday hend
  rw [hto, hmid] at hall' ⊢
  have hordered := first.ordered
  have hordered' := second.ordered
  rw [hfrom] at hordered
  rw [hmid, hto] at hordered'
  have hle := tz.midnight_le (n := range.fromDate.toOrdinal) (m := first.toDate.toOrdinal + 1) (by omega)
  have hle' := tz.midnight_le (n := first.toDate.toOrdinal + 1) (m := range.toDate.toOrdinal + 1) (by omega)
  have heither : ∀ row, row ∈ inWindow (midnight tz.toZoneInfo range.fromDate.toOrdinal,
        midnight tz.toZoneInfo (range.toDate.toOrdinal + 1)) sessions ↔
      row ∈ inWindow (midnight tz.toZoneInfo range.fromDate.toOrdinal,
        midnight tz.toZoneInfo (first.toDate.toOrdinal + 1)) sessions ∨
      row ∈ inWindow (midnight tz.toZoneInfo (first.toDate.toOrdinal + 1),
        midnight tz.toZoneInfo (range.toDate.toOrdinal + 1)) sessions := by
    intro row
    rw [mem_inWindow, mem_inWindow, mem_inWindow, ← and_or_left]
    apply and_congr_right
    intro _
    simp only
    omega
  refine ⟨_, computeEnergyTotals_eq_ok.mpr ⟨_, windowUtcBounds_eq_ok.mpr ⟨hday, hstart, hend, rfl⟩, ?_, rfl⟩, ?_, ?_, ?_, ?_⟩
  · intro row hrow
    exact ((heither row).mp hrow).elim (hall row) (hall' row)
  · have hcount := sum_inWindow hle hle' (fun _ => 1) sessions
    rw [← length_eq_sum, ← length_eq_sum, ← length_eq_sum] at hcount
    rw [figuresOf_sessionCount, figuresOf_sessionCount, figuresOf_sessionCount]
    exact_mod_cast hcount
  · rw [figuresOf_energyKwh, figuresOf_energyKwh, figuresOf_energyKwh, sum_inWindow hle hle']
  · rw [figuresOf_amount, figuresOf_amount, figuresOf_amount, sum_inWindow hle hle']
  · rw [figuresOf_estimated, figuresOf_estimated, figuresOf_estimated]
    simp only [heither, or_and_right, exists_or]

/-! ## When the rows partition the totals -/

def sessionAt (u : ℤ) : SessionRow := ⟨⟨u, true⟩, none, none, none, none, none, none, none, none, none⟩

theorem consistent_sessionAt (u : ℤ) : Consistent (sessionAt u) := nofun

theorem inWindow_sessionAt {window : ℤ × ℤ} {u : ℤ} (hlo : window.1 ≤ u) (hhi : u < window.2) :
    inWindow window [sessionAt u] = [sessionAt u] := by
  have hin : sessionInWindow window (sessionAt u) = true := decide_eq_true ⟨hlo, hhi⟩
  rw [inWindow, List.filter_singleton, hin, cond_true]

theorem keepsMonths_of_partitions {tz : ZoneInfo} {range : DateRange}
    (returns : ∀ sessions, (∃ totals, computeEnergyTotals id tz sessions none "EUR" range = .ok totals) →
      ∃ rows, aggregateEnergyRows id tz sessions none none "EUR" range = .ok rows)
    (months : ∀ sessions rows, aggregateEnergyRows id tz sessions none none "EUR" range = .ok rows →
      ∀ r ∈ rows, ∃ d, range.Includes d ∧ r.bucket = monthText d) : KeepsMonths tz range := by
  intro window hwindow u hlo hhi
  have honly := inWindow_sessionAt hlo hhi
  obtain ⟨rows, hrows⟩ := returns [sessionAt u] ⟨_, computeEnergyTotals_eq_ok.mpr ⟨window, hwindow, by
    rw [honly]
    intro row hrow
    rw [List.mem_singleton.mp hrow]
    exact consistent_sessionAt u, rfl⟩⟩
  obtain ⟨window', hwindow', hall, rfl⟩ := aggregateEnergyRows_eq_ok.mp hrows
  obtain rfl := Except.ok.inj (hwindow.symm.trans hwindow')
  rw [honly] at hall hrows
  obtain ⟨r, hr, hbucket, -⟩ := @exists_mem_rowsOf tz none none "EUR" [sessionAt u] _
    ⟨sessionAt u, List.mem_singleton.mpr rfl, rfl⟩
  obtain ⟨d, hd, htext⟩ := months _ _ hrows r hr
  exact (range.touches_iff (dateOf_inYears (hall _ (List.mem_singleton.mpr rfl)).1)).mp ⟨d, hd, hbucket.symm.trans htext⟩

theorem KeepsMonths.representable {tz : ZoneInfo} {range : DateRange} (h : KeepsMonths tz range) {window : ℤ × ℤ}
    (hwindow : windowUtcBounds tz range = .ok window) {sessions : List SessionRow} {row : SessionRow}
    (hrow : row ∈ inWindow window sessions) : Representable (wallOf tz row) := by
  obtain ⟨-, hlo, hhi⟩ := mem_inWindow.mp hrow
  obtain ⟨hfrom, hto⟩ := h window hwindow _ hlo hhi
  have hyear := year_of_inYears range.fromDate_inYears
  have hyear' := year_of_inYears range.toDate_inYears
  have hmonth := range.fromDate.month_valid
  have hmonth' := range.toDate.month_valid
  have hshown := (dateOf (wallOf tz row)).month_valid
  unfold monthIndex at hfrom hto
  have hinYears : InYears (dateOf (wallOf tz row)).toOrdinal := by
    apply inYears_of_year
    unfold wallOf at hshown ⊢
    omega
  rw [inYears_iff, dateOf, Date.toOrdinal_ofOrdinal] at hinYears
  unfold Representable microsPerDay
  unfold microsPerDay at hinYears
  omega

/-- **The rows of a range partition its totals precisely when the clock keeps to the months that the range touches.** -/
theorem partitions_iff (tz : DepotZone) (range : DateRange) :
    Partitions tz.toZoneInfo range ↔ KeepsMonths tz.toZoneInfo range := by
  constructor
  · intro h
    exact keepsMonths_of_partitions (fun sessions htotals => (h.returns sessions none none "EUR").mpr htotals)
      fun sessions rows hrows => h.months sessions none none "EUR" rows hrows
  · intro h
    refine ⟨?_, fun _ _ _ _ _ _ => sums_of_ok, ?_, fun _ _ _ _ _ => permuted_of_ok, fun _ _ _ _ _ _ _ => split_of_ok tz⟩
    · intro sessions groupBy underCapRate currency
      constructor
      · rintro ⟨rows, hrows⟩
        obtain ⟨window, hwindow, hall, -⟩ := aggregateEnergyRows_eq_ok.mp hrows
        exact ⟨_, computeEnergyTotals_eq_ok.mpr ⟨window, hwindow, fun row hrow => (hall row hrow).2, rfl⟩⟩
      · rintro ⟨totals, htotals⟩
        obtain ⟨window, hwindow, hall, -⟩ := computeEnergyTotals_eq_ok.mp htotals
        exact ⟨_, aggregateEnergyRows_eq_ok.mpr
          ⟨window, hwindow, fun row hrow => ⟨h.representable hwindow hrow, hall row hrow⟩, rfl⟩⟩
    · intro sessions groupBy underCapRate currency rows hrows r hr
      obtain ⟨window, hwindow, hall, rfl⟩ := aggregateEnergyRows_eq_ok.mp hrows
      obtain ⟨_, ⟨row, hrow, rfl⟩, hbucket, -⟩ := mem_rowsOf hr
      obtain ⟨-, hlo, hhi⟩ := mem_inWindow.mp hrow
      obtain ⟨d, hd, htext⟩ :=
        (range.touches_iff (dateOf_inYears (hall row hrow).1)).mpr (h window hwindow _ hlo hhi)
      exact ⟨d, hd, hbucket.trans htext⟩

/-! ## A clock that is set back over midnight -/

/-- St. John's in the autumn of 2009: at one minute past midnight on 1 November the clock goes back by an hour. -/
def stJohns : DepotZone where
  fromutc u := if u < 733712 * microsPerDay + 9060000000 then -9000000000 else -12600000000
  utcoffset wall := if wall < 733712 * microsPerDay + 60000000 then -9000000000 else -12600000000
  fromutc_bounds u := by
    unfold microsPerDay
    split <;> omega
  utcoffset_bounds wall := by
    unfold microsPerDay
    split <;> omega
  midnights_le n := by
    unfold midnight microsPerDay
    simp only
    split <;> split <;> omega

def november : DateRange where
  fromDate := ⟨2009, 11, 1, by decide +kernel, by decide +kernel⟩
  toDate := ⟨2009, 11, 30, by decide +kernel, by decide +kernel⟩
  ordered := by decide +kernel
  fromDate_inYears := inYears_of_year (by decide +kernel)
  toDate_inYears := inYears_of_year (by decide +kernel)

/-- A session at half past midnight UTC-02:30, after the clock went back, is in the report of November in a row of
October. -/
theorem october_in_november : ¬ Partitions stJohns.toZoneInfo november := by
  intro h
  have hkeeps := keepsMonths_of_partitions (fun sessions htotals => (h.returns sessions none none "EUR").mpr htotals)
    fun sessions rows hrows => h.months sessions none none "EUR" rows hrows
  have hwindow : windowUtcBounds stJohns.toZoneInfo november =
      .ok (733712 * microsPerDay + 9000000000, 733742 * microsPerDay + 12600000000) := by
    decide +kernel
  have hmonth := (hkeeps _ hwindow (733712 * microsPerDay + 10800000000) (by decide) (by decide)).1
  exact absurd hmonth (by decide +kernel)

end FavoniusBackend.Reports.EnergyRows
