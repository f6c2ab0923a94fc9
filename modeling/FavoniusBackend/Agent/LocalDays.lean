import FavoniusBackend.Lib.CutPoints
import FavoniusBackend.Lib.Guard
import FavoniusBackend.Agent.TimeWindows
import FavoniusBackend.Reports.Occurrences

/-!
# Windows and local days

A literal names the day, week or month of today or the one before it.  `resolveRelativeBounds_eq_ok` says when its window
is returned and which two midnights it lies between.  The windows of a zone tile its time exactly when every midnight
separates the dates that the clock shows and no date is left out (`tiles_iff`).  They do not where a clock is set back
over midnight (`evening_after_midnight`).
-/

namespace FavoniusBackend.Agent.TimeWindows

open Lib
open Lib.Calendar
open Lib.CutPoints (block Separates)
open Reports (ZoneInfo microsPerDay dateOf monthIndex)

/-! ## Literals -/

inductive Period where
  | day
  | week
  | month

def Period.index : Period → Date → ℤ
  | .day, d => d.toOrdinal
  | .week, d => (d.toOrdinal - 1) / 7
  | .month, d => monthIndex d.year d.month

inductive Relative where
  | this (period : Period)
  | last (period : Period)

namespace Relative

def text : Relative → String
  | .this .day => "today"
  | .last .day => "yesterday"
  | .this .week => "this_week"
  | .last .week => "last_week"
  | .this .month => "this_month"
  | .last .month => "last_month"

/-- The dates that a literal means. -/
def Covers (rel : Relative) (today d : Date) : Prop :=
  match rel with
  | .this period => period.index d = period.index today
  | .last period => period.index d + 1 = period.index today

instance (rel : Relative) (today d : Date) : Decidable (rel.Covers today d) := by
  cases rel with
  | this period => exact inferInstanceAs (Decidable (_ = _))
  | last period => exact inferInstanceAs (Decidable (_ = _))

/-- The numbers of these dates, none of which is two months away. -/
noncomputable def days (rel : Relative) (today : Date) : Finset ℤ :=
  (Finset.Ico (today.toOrdinal - 62) (today.toOrdinal + 32)).filter fun n => rel.Covers today (Date.ofOrdinal n)

/-- The first of them. -/
def start : Relative → Date → ℤ
  | .this .day, d => d.toOrdinal
  | .last .day, d => d.toOrdinal - 1
  | .this .week, d => d.toOrdinal - d.weekday
  | .last .week, d => d.toOrdinal - d.weekday - 7
  | .this .month, d => ordinal d.year d.month 1
  | .last .month, d => if d.month = 1 then ordinal (d.year - 1) 12 1 else ordinal d.year (d.month - 1) 1

def stop : Relative → Date → ℤ
  | .this .day, d => d.toOrdinal + 1
  | .this .week, d => d.toOrdinal - d.weekday + 7
  | .this .month, d => ordinal (Calendar.nextMonth d.year d.month).1 (Calendar.nextMonth d.year d.month).2 1
  | .last period, d => (this period).start d

theorem monthIndex_nextMonth (year month : ℤ) :
    monthIndex (Calendar.nextMonth year month).1 (Calendar.nextMonth year month).2 = monthIndex year month + 1 := by
  unfold monthIndex Calendar.nextMonth
  split
  · simp only
    omega
  · simp only
    omega

theorem monthIndex_eq_iff (d : Date) (year month : ℤ) (hm : 1 ≤ month ∧ month ≤ 12) :
    monthIndex d.year d.month = monthIndex year month ↔ ordinal year month 1 ≤ d.toOrdinal ∧
      d.toOrdinal < ordinal (Calendar.nextMonth year month).1 (Calendar.nextMonth year month).2 1 := by
  rw [← not_lt, Reports.monthIndex_lt_iff d hm, Reports.monthIndex_lt_iff d (nextMonth_valid year hm),
    monthIndex_nextMonth]
  omega

theorem exists_previousMonth (year : ℤ) {month : ℤ} (hm : 1 ≤ month ∧ month ≤ 12) :
    ∃ y m : ℤ, (1 ≤ m ∧ m ≤ 12) ∧ Calendar.nextMonth y m = (year, month) ∧
      (if month = 1 then ordinal (year - 1) 12 1 else ordinal year (month - 1) 1) = ordinal y m 1 := by
  by_cases hjanuary : month = 1
  · refine ⟨year - 1, 12, by omega, ?_, if_pos hjanuary⟩
    rw [Calendar.nextMonth, if_pos rfl, sub_add_cancel, hjanuary]
  · refine ⟨year, month - 1, by omega, ?_, if_neg hjanuary⟩
    rw [Calendar.nextMonth, if_neg (by omega), sub_add_cancel]

theorem covers_iff (rel : Relative) (today d : Date) :
    rel.Covers today d ↔ rel.start today ≤ d.toOrdinal ∧ d.toOrdinal < rel.stop today := by
  have hmonth := today.month_valid
  rcases rel with period | period
  · cases period with
    | day =>
      show d.toOrdinal = today.toOrdinal ↔ _
      simp only [start, stop]
      omega
    | week =>
      show (d.toOrdinal - 1) / 7 = (today.toOrdinal - 1) / 7 ↔ _
      simp only [start, stop, Date.weekday]
      omega
    | month => exact monthIndex_eq_iff d _ _ hmonth
  · cases period with
    | day =>
      show d.toOrdinal + 1 = today.toOrdinal ↔ _
      simp only [start, stop]
      omega
    | week =>
      show (d.toOrdinal - 1) / 7 + 1 = (today.toOrdinal - 1) / 7 ↔ _
      simp only [start, stop, Date.weekday]
      omega
    | month =>
      show monthIndex d.year d.month + 1 = monthIndex today.year today.month ↔ _
      simp only [start, stop]
      obtain ⟨y, m, hm, hnext, hfirst⟩ := exists_previousMonth today.year hmonth
      have hbefore := monthIndex_eq_iff d y m hm
      have hindex := monthIndex_nextMonth y m
      rw [hnext] at hbefore hindex
      rw [hfirst, ← hbefore]
      simp only at hindex
      omega

theorem start_stop_bounds (rel : Relative) (today : Date) : rel.start today < rel.stop today ∧
    today.toOrdinal - 62 ≤ rel.start today ∧ rel.stop today ≤ today.toOrdinal + 32 := by
  have hweekday := today.weekday_bounds
  have hday := today.day_valid
  have hlength := daysInMonth_bounds today.year today.month
  have hfirst : today.toOrdinal = ordinal today.year today.month 1 + today.day - 1 :=
    Reports.ordinal_day today.year today.month today.day
  rcases rel with period | period
  · cases period with
    | day =>
      simp only [start, stop]
      omega
    | week =>
      simp only [start, stop]
      omega
    | month =>
      have hnext := ordinal_nextMonth today.year today.month_valid 1
      simp only [start, stop]
      omega
  · cases period with
    | day =>
      simp only [start, stop]
      omega
    | week =>
      simp only [start, stop]
      omega
    | month =>
      simp only [start, stop]
      obtain ⟨y, m, hm, hnext, hbefore⟩ := exists_previousMonth today.year today.month_valid
      have hmonths := ordinal_nextMonth y hm 1
      have hlength' := daysInMonth_bounds y m
      rw [hnext] at hmonths
      rw [hbefore]
      simp only at hmonths
      omega

theorem days_eq (rel : Relative) (today : Date) : rel.days today = Finset.Ico (rel.start today) (rel.stop today) := by
  obtain ⟨-, hlo, hhi⟩ := rel.start_stop_bounds today
  ext n
  rw [days, Finset.mem_filter, covers_iff, Date.toOrdinal_ofOrdinal, Finset.mem_Ico, Finset.mem_Ico]
  omega

end Relative

/-! ## Dates in the years -/

def InYears (n : ℤ) : Prop := Representable (n * microsPerDay)

theorem inYears_iff {n : ℤ} : InYears n ↔ 1 ≤ n ∧ n < 3652060 := by
  unfold InYears Representable microsPerDay
  omega

theorem inYears_iff_year {y m : ℤ} (hm : 1 ≤ m ∧ m ≤ 12) : InYears (ordinal y m 1) ↔ 1 ≤ y ∧ y ≤ 9999 := by
  have hday : 1 ≤ (1 : ℤ) ∧ 1 ≤ daysInMonth y m := ⟨le_rfl, by have := daysInMonth_bounds y m; omega⟩
  obtain ⟨hlo, hhi⟩ := Date.dayOfYear_bounds ⟨y, m, 1, hm, hday⟩
  have hsucc := daysBeforeYear_succ y
  have hone : daysBeforeYear 1 = 0 := rfl
  have hlast : daysBeforeYear 10000 = 3652059 := rfl
  rw [inYears_iff]
  unfold ordinal
  simp only at hlo hhi
  constructor
  · intro h
    constructor
    · by_contra hyear
      have := @daysBeforeYear_le (y + 1) 1 (by omega)
      omega
    · by_contra hyear
      have := @daysBeforeYear_le 10000 y (by omega)
      omega
  · intro h
    have := @daysBeforeYear_le 1 y (by omega)
    have := @daysBeforeYear_le (y + 1) 10000 (by omega)
    omega

/-! ## What the functions return -/

theorem checked_eq_ok {wall v : ℤ} : checked wall = .ok v ↔ Representable wall ∧ v = wall := by
  unfold checked
  split
  · rename_i h
    exact ⟨fun hv => ⟨h, (Except.ok.inj hv).symm⟩, fun hv => by rw [hv.2]⟩
  · rename_i h
    exact ⟨nofun, fun hv => absurd hv.1 h⟩

theorem shift_eq_ok {d d' : Date} {k : ℤ} : shift d k = .ok d' ↔ InYears (d.toOrdinal + k) ∧ d' = d.addDays k := by
  unfold shift
  simp only [Guard.bind_eq_ok, checked_eq_ok, Date.toOrdinal_addDays]
  constructor
  · rintro ⟨_, ⟨hyears, -⟩, h⟩
    exact ⟨hyears, (Except.ok.inj h).symm⟩
  · rintro ⟨hyears, rfl⟩
    exact ⟨_, ⟨hyears, rfl⟩, rfl⟩

theorem newDate_eq_ok {y m : ℤ} (hm : 1 ≤ m ∧ m ≤ 12) {d : Date} :
    newDate y m 1 = .ok d ↔ InYears (ordinal y m 1) ∧ d = Date.ofParts y m 1 := by
  rw [inYears_iff_year hm]
  unfold newDate
  split
  · rename_i h
    exact ⟨fun hd => ⟨h, (Except.ok.inj hd).symm⟩, fun hd => by rw [hd.2]⟩
  · rename_i h
    exact ⟨nofun, fun hd => absurd hd.1 h⟩

variable {tz : ZoneInfo} {clock : ℤ} {now : Now}

/-- The instant and its reading in the zone are datetimes. -/
structure Located (tz : ZoneInfo) (now : Now) : Prop where
  aware : now.offset.isSome
  utc : Representable now.instant
  «local» : Representable (now.instant + tz.fromutc now.instant)

def Now.date (now : Now) (tz : ZoneInfo) : Date := dateOf (now.instant + tz.fromutc now.instant)

theorem localNow_eq_ok {wall : ℤ} : localNow tz clock (some now) = .ok wall ↔
    Located tz now ∧ wall = now.instant + tz.fromutc now.instant := by
  unfold localNow
  rcases hoffset : now.offset with _ | offset
  · simp only [hoffset]
    refine iff_of_false nofun fun h => ?_
    have := h.1.aware
    rw [hoffset] at this
    exact absurd this Bool.false_ne_true
  · have hinstant : now.wall - offset = now.instant := by rw [Now.instant, hoffset, Option.getD_some]
    simp only [hoffset, hinstant, Guard.bind_eq_ok, checked_eq_ok]
    constructor
    · rintro ⟨utc, ⟨hutc, rfl⟩, hlocal, rfl⟩
      exact ⟨⟨by rw [hoffset]; rfl, hutc, hlocal⟩, rfl⟩
    · rintro ⟨h, rfl⟩
      exact ⟨_, ⟨h.utc, rfl⟩, h.local, rfl⟩

theorem dateOf_inYears {wall : ℤ} (h : Representable wall) : InYears (dateOf wall).toOrdinal := by
  rw [inYears_iff, dateOf, Date.toOrdinal_ofOrdinal]
  unfold Representable microsPerDay at h
  unfold microsPerDay
  omega

theorem nextMonth_eq_ok {y m : ℤ} (hm : 1 ≤ m ∧ m ≤ 12) {d : Date} : nextMonth (Date.ofParts y m 1) = .ok d ↔
    InYears (ordinal (Calendar.nextMonth y m).1 (Calendar.nextMonth y m).2 1) ∧
      d = Date.ofParts (Calendar.nextMonth y m).1 (Calendar.nextMonth y m).2 1 := by
  obtain ⟨hyear, hmonth, -⟩ := @Date.ofParts_parts_of_le y m 1 hm (by omega)
  rw [nextMonth, hyear, hmonth]
  unfold Calendar.nextMonth
  split
  · exact newDate_eq_ok (by omega)
  · exact newDate_eq_ok (by omega)

theorem previousMonth_eq_ok {y m : ℤ} (hm : 1 ≤ m ∧ m ≤ 12) {d : Date} : previousMonth (Date.ofParts y m 1) = .ok d ↔
    InYears (if m = 1 then ordinal (y - 1) 12 1 else ordinal y (m - 1) 1) ∧
      d = Date.ofOrdinal (if m = 1 then ordinal (y - 1) 12 1 else ordinal y (m - 1) 1) := by
  obtain ⟨hyear, hmonth, -⟩ := @Date.ofParts_parts_of_le y m 1 hm (by omega)
  rw [previousMonth, hyear, hmonth]
  split
  · exact newDate_eq_ok (by omega)
  · exact newDate_eq_ok (by omega)

theorem inYears_this (period : Period) {today : Date} (h : InYears today.toOrdinal) :
    InYears ((Relative.this period).start today) := by
  rw [inYears_iff] at h ⊢
  cases period with
  | day => exact h
  | week =>
    simp only [Relative.start, Date.weekday]
    omega
  | month =>
    have hyear : today.toOrdinal ≤ daysBeforeYear (today.year + 1) := by
      have hday := today.dayOfYear_bounds
      rw [daysBeforeYear_succ, Date.toOrdinal, ordinal]
      omega
    have hfirst : today.toOrdinal = ordinal today.year today.month 1 + today.day - 1 :=
      Reports.ordinal_day today.year today.month today.day
    have hday := today.day_valid.1
    have hpositive : 1 ≤ today.year := by
      by_contra hle
      have hbefore := @daysBeforeYear_le (today.year + 1) 1 (by omega)
      have hone : daysBeforeYear 1 = 0 := rfl
      omega
    have hbound : today.year ≤ 9999 := by
      by_contra hgt
      have hbefore := @daysBeforeYear_le 10000 today.year (by omega)
      have hlast : daysBeforeYear 10000 = 3652059 := rfl
      have hday := today.dayOfYear_bounds
      have hordinal : today.toOrdinal =
          daysBeforeYear today.year + daysBeforeMonth today.year today.month + today.day := rfl
      omega
    exact inYears_iff.mp ((inYears_iff_year today.month_valid).mpr ⟨hpositive, hbound⟩)

theorem resolveRelative_eq_ok {rel : Relative} {s e : ℤ} : resolveRelative rel.text tz clock (some now) = .ok (s, e) ↔
    Located tz now ∧ (InYears (rel.start (now.date tz)) ∧ InYears (rel.stop (now.date tz))) ∧
      s = rel.start (now.date tz) * microsPerDay ∧ e = rel.stop (now.date tz) * microsPerDay := by
  have hpair : ∀ a b : ℤ, (Except.ok (a, b) : Resolving (ℤ × ℤ)) = .ok (s, e) ↔ s = a ∧ e = b := by
    intro a b
    rw [Except.ok.injEq, Prod.mk.injEq, eq_comm (b := s), eq_comm (b := e)]
  unfold resolveRelative
  rw [Guard.bind_eq_ok]
  simp only [localNow_eq_ok, and_assoc, exists_eq_left, exists_and_left]
  refine and_congr_right fun hlocated => ?_
  have htoday : InYears (now.date tz).toOrdinal := dateOf_inYears hlocated.local
  have hdate : dateOf (now.instant + tz.fromutc now.instant) = now.date tz := rfl
  rw [hdate]
  generalize now.date tz = today at *
  have hmonth := today.month_valid
  have hweek : InYears (today.toOrdinal - today.weekday) := inYears_this .week htoday
  have hfirst : InYears (ordinal today.year today.month 1) := inYears_this .month htoday
  rcases rel with period | period
  · cases period with
    | day =>
      simp [Relative.text, Relative.start, Relative.stop, Guard.bind_eq_ok, shift_eq_ok, startOfDay, hpair, htoday,
        pure, Except.pure]
    | week =>
      simp [Relative.text, Relative.start, Relative.stop, Guard.bind_eq_ok, shift_eq_ok, startOfDay, hpair,
        ← sub_eq_add_neg, hweek, pure, Except.pure]
    | month =>
      simp [Relative.text, Relative.start, Relative.stop, Guard.bind_eq_ok, newDate_eq_ok hmonth,
        nextMonth_eq_ok hmonth, startOfDay, hpair, hfirst, pure, Except.pure]
  · cases period with
    | day =>
      simp [Relative.text, Relative.start, Relative.stop, Guard.bind_eq_ok, shift_eq_ok, startOfDay, hpair, htoday,
        ← sub_eq_add_neg, pure, Except.pure]
    | week =>
      simp [Relative.text, Relative.start, Relative.stop, Guard.bind_eq_ok, shift_eq_ok, startOfDay, hpair,
        ← sub_eq_add_neg, hweek, pure, Except.pure]
    | month =>
      simp [Relative.text, Relative.start, Relative.stop, Guard.bind_eq_ok, newDate_eq_ok hmonth,
        previousMonth_eq_ok hmonth, startOfDay, hpair, hfirst, pure, Except.pure]

/-! ## Midnights -/

/-- The instant that `_start_of_day` means in a zone. -/
def midnight (tz : ZoneInfo) (n : ℤ) : ℤ := n * microsPerDay - tz.utcoffset (n * microsPerDay)

/-- A date whose midnight is a datetime, in UTC too. -/
structure HasMidnight (tz : ZoneInfo) (n : ℤ) : Prop where
  inYears : InYears n
  utc : Representable (midnight tz n)

def firstDate (tz : ZoneInfo) : ℤ := if Representable (midnight tz 1) then 1 else 2

theorem hasMidnight_iff {n : ℤ} : HasMidnight tz n ↔ firstDate tz ≤ n ∧ n ≤ 3652059 := by
  have hoffset := tz.utcoffset_bounds (n * microsPerDay)
  have hinside : 2 ≤ n → n ≤ 3652059 → Representable (midnight tz n) := by
    intro hlo hhi
    unfold Representable midnight
    unfold microsPerDay at hoffset ⊢
    omega
  unfold firstDate
  constructor
  · rintro ⟨hyears, hutc⟩
    rw [inYears_iff] at hyears
    refine ⟨?_, by omega⟩
    split
    · exact hyears.1
    · rename_i hnot
      have hone : n ≠ 1 := fun heq => hnot (heq ▸ hutc)
      omega
  · rintro ⟨hlo, hhi⟩
    split at hlo
    · rename_i hfirst
      refine ⟨inYears_iff.mpr ⟨hlo, by omega⟩, ?_⟩
      rcases hlo.eq_or_lt with rfl | hlt
      · exact hfirst
      · exact hinside (by omega) hhi
    · exact ⟨inYears_iff.mpr ⟨by omega, by omega⟩, hinside hlo hhi⟩

variable {zones : String → Option ZoneInfo} {tzName : Option String}

/-- **When a window is returned**: now is aware, and the dates and their midnights are in the years. -/
theorem resolveRelativeBounds_eq_ok {rel : Relative} {s e : ℤ} (htz : safeZone zones tzName = tz) :
    resolveRelativeBounds zones clock rel.text tzName (some now) = .ok (s, e) ↔
      Located tz now ∧ (HasMidnight tz (rel.start (now.date tz)) ∧ HasMidnight tz (rel.stop (now.date tz))) ∧
        s = midnight tz (rel.start (now.date tz)) ∧ e = midnight tz (rel.stop (now.date tz)) := by
  have hmidnight : ∀ n v : ℤ, toUtc tz (n * microsPerDay) = .ok v ↔ Representable (midnight tz n) ∧ v = midnight tz n :=
    fun n v => checked_eq_ok
  unfold resolveRelativeBounds
  simp only [htz, Guard.bind_eq_ok, Prod.exists, resolveRelative_eq_ok]
  constructor
  · rintro ⟨a, b, ⟨hlocated, ⟨hstart, hstop⟩, rfl, rfl⟩, startUtc, hstartUtc, endUtc, hendUtc, hpair⟩
    obtain ⟨hutc, rfl⟩ := (hmidnight _ _).mp hstartUtc
    obtain ⟨hutc', rfl⟩ := (hmidnight _ _).mp hendUtc
    obtain ⟨rfl, rfl⟩ := Prod.ext_iff.mp (Except.ok.inj hpair)
    exact ⟨hlocated, ⟨⟨hstart, hutc⟩, ⟨hstop, hutc'⟩⟩, rfl, rfl⟩
  · rintro ⟨hlocated, ⟨hstart, hstop⟩, rfl, rfl⟩
    exact ⟨_, _, ⟨hlocated, ⟨hstart.inYears, hstop.inYears⟩, rfl, rfl⟩, _, (hmidnight _ _).mpr ⟨hstart.utc, rfl⟩, _,
      (hmidnight _ _).mpr ⟨hstop.utc, rfl⟩, rfl⟩

/-! ## The tiling of a zone's time -/

noncomputable def instants : Finset ℤ := Finset.Ico microsPerDay (3652060 * microsPerDay)

def dateAt (tz : ZoneInfo) (u : ℤ) : ℤ := (u + tz.fromutc u) / microsPerDay

noncomputable def dayLength (tz : ZoneInfo) (n : ℤ) : ℕ := (block instants (dateAt tz) n).card

/-- What the windows of a zone that are returned are like: they are not empty, the current ones contain now, the one
before ends where the current one starts, and each is as long as its days together. -/
structure Tiles (zones : String → Option ZoneInfo) (tzName : Option String) : Prop where
  ordered : ∀ (clock : ℤ) (rel : Relative) (now : Now) (s e : ℤ),
    resolveRelativeBounds zones clock rel.text tzName (some now) = .ok (s, e) → s < e
  contains : ∀ (clock : ℤ) (period : Period) (now : Now) (s e : ℤ),
    resolveRelativeBounds zones clock (Relative.this period).text tzName (some now) = .ok (s, e) →
      s ≤ now.instant ∧ now.instant < e
  adjoins : ∀ (clock : ℤ) (period : Period) (now : Now) (s e s' e' : ℤ),
    resolveRelativeBounds zones clock (Relative.last period).text tzName (some now) = .ok (s, e) →
      resolveRelativeBounds zones clock (Relative.this period).text tzName (some now) = .ok (s', e') → e = s'
  length : ∀ (clock : ℤ) (rel : Relative) (now : Now) (s e : ℤ),
    resolveRelativeBounds zones clock rel.text tzName (some now) = .ok (s, e) →
      e - s = ∑ n ∈ rel.days (now.date (safeZone zones tzName)), (dayLength (safeZone zones tzName) n : ℤ)

/-- The midnights of a zone separate its dates: before one the clock shows earlier dates only, from it on that date and
later ones; and each date is shown. -/
structure MidnightsSeparate (tz : ZoneInfo) : Prop where
  shown : ∀ n, HasMidnight tz n → HasMidnight tz (n + 1) → ∃ u ∈ instants, dateAt tz u = n
  separates : ∀ n, HasMidnight tz n → Separates instants (dateAt tz) (midnight tz) n

theorem mem_instants {u : ℤ} : u ∈ instants ↔ Representable u := Finset.mem_Ico

theorem Ico_midnight_subset {a b : ℤ} (ha : HasMidnight tz a) (hb : HasMidnight tz b) :
    Finset.Ico (midnight tz a) (midnight tz b) ⊆ instants := by
  intro u hu
  have hbetween := Finset.mem_Ico.mp hu
  have hlo := ha.utc.1
  have hhi := hb.utc.2
  exact mem_instants.mpr ⟨by omega, by omega⟩

theorem toOrdinal_date : (now.date tz).toOrdinal = dateAt tz now.instant := Date.toOrdinal_ofOrdinal _

theorem HasMidnight.between {a b n : ℤ} (ha : HasMidnight tz a) (hb : HasMidnight tz b) (hn : a ≤ n ∧ n ≤ b) :
    HasMidnight tz n := by
  rw [hasMidnight_iff] at *
  omega

/-- **Midnights that separate the dates make windows that tile.** -/
theorem tiles_of_separate (h : MidnightsSeparate (safeZone zones tzName)) : Tiles zones tzName := by
  refine ⟨?_, ?_, ?_, ?_⟩
  · intro clock rel now s e hbounds
    obtain ⟨-, ⟨hstart, hstop⟩, rfl, rfl⟩ := (resolveRelativeBounds_eq_ok rfl).mp hbounds
    have hlt := (rel.start_stop_bounds (now.date (safeZone zones tzName))).1
    obtain ⟨u, hu, hdate⟩ := h.shown _ hstart (hstart.between hstop (by omega))
    exact CutPoints.cut_lt_cut (h.separates _ hstart) (h.separates _ hstop) hu (by omega)
  · intro clock period now s e hbounds
    obtain ⟨hlocated, ⟨hstart, hstop⟩, rfl, rfl⟩ := (resolveRelativeBounds_eq_ok rfl).mp hbounds
    refine (CutPoints.between_iff (h.separates _ hstart) (h.separates _ hstop) (mem_instants.mpr hlocated.utc)).mpr ?_
    rw [← toOrdinal_date]
    exact ((Relative.this period).covers_iff _ _).mp rfl
  · intro clock period now s e s' e' hlast hthis
    obtain ⟨-, -, -, rfl⟩ := (resolveRelativeBounds_eq_ok rfl).mp hlast
    obtain ⟨-, -, rfl, -⟩ := (resolveRelativeBounds_eq_ok rfl).mp hthis
    rfl
  · intro clock rel now s e hbounds
    obtain ⟨-, ⟨hstart, hstop⟩, rfl, rfl⟩ := (resolveRelativeBounds_eq_ok rfl).mp hbounds
    have hlt := (rel.start_stop_bounds (now.date (safeZone zones tzName))).1
    obtain ⟨u, hu, hdate⟩ := h.shown _ hstart (hstart.between hstop (by omega))
    have hcuts := CutPoints.cut_lt_cut (h.separates _ hstart) (h.separates _ hstop) hu (by omega)
    have hsum := CutPoints.sum_card_block (h.separates _ hstart) (h.separates _ hstop)
      (Ico_midnight_subset hstart hstop)
    rw [Int.card_Ico] at hsum
    rw [Relative.days_eq]
    unfold dayLength
    rw [← Nat.cast_sum, hsum]
    omega

/-! ## From the windows to the midnights -/

def Now.ofUtc (u : ℤ) (h : Representable u) : Now := ⟨u, some 0, h⟩

@[simp] theorem instant_ofUtc (u : ℤ) (h : Representable u) : (Now.ofUtc u h).instant = u := sub_zero u

theorem located_ofUtc {u : ℤ} (h : Representable u) (hyears : InYears (dateAt tz u)) : Located tz (Now.ofUtc u h) := by
  refine ⟨rfl, by rwa [instant_ofUtc], ?_⟩
  rw [instant_ofUtc]
  rw [inYears_iff] at hyears
  unfold dateAt microsPerDay at hyears
  unfold Representable microsPerDay
  omega

theorem date_ofUtc {u : ℤ} (h : Representable u) : ((Now.ofUtc u h).date tz).toOrdinal = dateAt tz u := by
  rw [toOrdinal_date, instant_ofUtc]

theorem Tiles.day (h : Tiles zones tzName) (htz : safeZone zones tzName = tz) (rel : Relative) {n : ℤ}
    (hlocated : Located tz now) (hstart : rel.start (now.date tz) = n) (hstop : rel.stop (now.date tz) = n + 1)
    (hn : HasMidnight tz n) (hn' : HasMidnight tz (n + 1)) :
    midnight tz n < midnight tz (n + 1) ∧ midnight tz (n + 1) - midnight tz n = dayLength tz n := by
  have hbounds : resolveRelativeBounds zones 0 rel.text tzName (some now) =
      .ok (midnight tz n, midnight tz (n + 1)) := by
    rw [resolveRelativeBounds_eq_ok htz, hstart, hstop]
    exact ⟨hlocated, ⟨hn, hn'⟩, rfl, rfl⟩
  refine ⟨h.ordered 0 rel now _ _ hbounds, ?_⟩
  have hday : Finset.Ico n (n + 1) = {n} := by
    ext m
    rw [Finset.mem_Ico, Finset.mem_singleton]
    omega
  rw [h.length 0 rel now _ _ hbounds, htz, Relative.days_eq, hstart, hstop, hday, Finset.sum_singleton]

theorem Tiles.shown_before (h : Tiles zones tzName) (htz : safeZone zones tzName = tz) {n u : ℤ} (hu : u ∈ instants)
    (hdate : dateAt tz u = n + 1) (hn : HasMidnight tz n) (hn' : HasMidnight tz (n + 1)) :
    ∃ v ∈ instants, dateAt tz v = n := by
  have hlocated := located_ofUtc (mem_instants.mp hu) (hdate ▸ hn'.inYears)
  have htoday : ((Now.ofUtc u (mem_instants.mp hu)).date tz).toOrdinal = n + 1 := by rw [date_ofUtc, hdate]
  obtain ⟨hlt, hlength⟩ := h.day htz (.last .day) hlocated (by rw [Relative.start, htoday, add_sub_cancel_right])
    htoday hn hn'
  have hpositive : 0 < dayLength tz n := by omega
  obtain ⟨v, hv⟩ := Finset.card_pos.mp hpositive
  exact ⟨v, CutPoints.mem_block.mp hv⟩

theorem exists_last_shown (tz : ZoneInfo) :
    ∃ m, (m = 3652058 ∨ m = 3652059) ∧ ∃ u ∈ instants, dateAt tz u = m := by
  have hu : (3652059 * microsPerDay - 1) ∈ instants := by
    rw [mem_instants]
    unfold Representable microsPerDay
    omega
  refine ⟨_, ?_, _, hu, rfl⟩
  have hoffset := tz.fromutc_bounds (3652059 * microsPerDay - 1)
  unfold dateAt
  unfold microsPerDay at hoffset ⊢
  omega

theorem Tiles.shown (h : Tiles zones tzName) (htz : safeZone zones tzName = tz) {n : ℤ} (hn : HasMidnight tz n)
    (hn' : HasMidnight tz (n + 1)) : ∃ u ∈ instants, dateAt tz u = n := by
  obtain ⟨m, hm, u, hu, hdate⟩ := exists_last_shown tz
  rw [hasMidnight_iff] at hn hn'
  have hback : ∀ k : ℕ, firstDate tz ≤ m - k → ∃ u ∈ instants, dateAt tz u = m - k := by
    intro k
    induction k with
    | zero => exact fun _ => ⟨u, hu, by rw [hdate]; simp⟩
    | succ k ih =>
      intro hfirst
      push_cast at hfirst ⊢
      obtain ⟨v, hv, hdate⟩ := ih (by omega)
      exact h.shown_before htz hv (by rw [hdate]; ring) (hasMidnight_iff.mpr (by omega))
        (hasMidnight_iff.mpr (by omega))
  obtain ⟨v, hv, hdate⟩ := hback (m - n).toNat (by omega)
  exact ⟨v, hv, by omega⟩

theorem Tiles.filled (h : Tiles zones tzName) (htz : safeZone zones tzName = tz) {n : ℤ} (hn : HasMidnight tz n)
    (hn' : HasMidnight tz (n + 1)) :
    midnight tz n < midnight tz (n + 1) ∧ midnight tz (n + 1) - midnight tz n = dayLength tz n := by
  obtain ⟨u, hu, hdate⟩ := h.shown htz hn hn'
  have hlocated := located_ofUtc (mem_instants.mp hu) (hdate ▸ hn.inYears)
  have htoday : ((Now.ofUtc u (mem_instants.mp hu)).date tz).toOrdinal = n := by rw [date_ofUtc, hdate]
  exact h.day htz (.this .day) hlocated htoday (by rw [Relative.stop, htoday]) hn hn'

theorem Tiles.between (h : Tiles zones tzName) (htz : safeZone zones tzName = tz) {u : ℤ} (hu : u ∈ instants)
    (hn : HasMidnight tz (dateAt tz u)) (hn' : HasMidnight tz (dateAt tz u + 1)) :
    midnight tz (dateAt tz u) ≤ u ∧ u < midnight tz (dateAt tz u + 1) := by
  have hlocated := located_ofUtc (mem_instants.mp hu) hn.inYears
  have hbounds : resolveRelativeBounds zones 0 (Relative.this .day).text tzName
      (some (Now.ofUtc u (mem_instants.mp hu))) =
        .ok (midnight tz (dateAt tz u), midnight tz (dateAt tz u + 1)) := by
    rw [resolveRelativeBounds_eq_ok htz, Relative.stop, Relative.start, date_ofUtc]
    exact ⟨hlocated, ⟨hn, hn'⟩, rfl, rfl⟩
  have hcontains := h.contains 0 .day _ _ _ hbounds
  rwa [instant_ofUtc] at hcontains

theorem firstDate_bounds (tz : ZoneInfo) : 1 ≤ firstDate tz ∧ firstDate tz ≤ 2 := by
  unfold firstDate
  split
  · omega
  · omega

/-- **Windows that tile come from midnights that separate the dates.** -/
theorem separate_of_tiles (h : Tiles zones tzName) (htz : safeZone zones tzName = tz) : MidnightsSeparate tz := by
  refine ⟨fun n hn hn' => h.shown htz hn hn', ?_⟩
  intro b hb
  obtain ⟨hfirst, hsecond⟩ := firstDate_bounds tz
  have hmidnight : ∀ n, firstDate tz ≤ n → n ≤ 3652059 → HasMidnight tz n := fun n hlo hhi =>
    hasMidnight_iff.mpr ⟨hlo, hhi⟩
  have hfilled : ∀ n, firstDate tz ≤ n → n < 3652059 →
      midnight tz n < midnight tz (n + 1) ∧ midnight tz (n + 1) - midnight tz n = dayLength tz n := fun n hlo hhi =>
    h.filled htz (hmidnight n hlo hhi.le) (hmidnight (n + 1) (by omega) (by omega))
  refine @CutPoints.separates_of_blocks instants _ _ (firstDate tz) 3652059 (by omega)
    (fun n hlo hhi => (hfilled n hlo hhi).1) ?_ ?_ ?_ ?_ b (hasMidnight_iff.mp hb)
  · intro u hu hlo hhi
    exact h.between htz hu (hmidnight _ hlo hhi.le) (hmidnight _ (by omega) (by omega))
  · intro n hlo hhi
    have hlength := (hfilled n hlo hhi).2
    rw [Int.card_Ico]
    unfold dayLength at hlength
    omega
  · -- the clock is less than a day off, so a date that comes first is far from the last midnight
    intro u hu hlow
    have hoffset := tz.fromutc_bounds u
    have hoffset' := tz.utcoffset_bounds (3652059 * microsPerDay)
    unfold dateAt at hlow
    unfold midnight
    unfold microsPerDay at *
    omega
  · intro u hu hhigh
    have hoffset := tz.fromutc_bounds u
    have hoffset' := tz.utcoffset_bounds (firstDate tz * microsPerDay)
    unfold dateAt at hhigh
    unfold midnight
    unfold microsPerDay at *
    omega

/-- **When the windows of a zone tile its time**: a window is returned exactly where now and its two midnights are
datetimes, and what is returned tiles exactly when the midnights of the zone separate its dates. -/
theorem tiles_iff (zones : String → Option ZoneInfo) (tzName : Option String) :
    (∀ (clock : ℤ) (rel : Relative) (now : Now),
      (∃ window, resolveRelativeBounds zones clock rel.text tzName (some now) = .ok window) ↔
        Located (safeZone zones tzName) now ∧
          HasMidnight (safeZone zones tzName) (rel.start (now.date (safeZone zones tzName))) ∧
          HasMidnight (safeZone zones tzName) (rel.stop (now.date (safeZone zones tzName)))) ∧
      (Tiles zones tzName ↔ MidnightsSeparate (safeZone zones tzName)) := by
  refine ⟨fun clock rel now => ?_, fun h => separate_of_tiles h rfl, tiles_of_separate⟩
  constructor
  · rintro ⟨⟨s, e⟩, hbounds⟩
    obtain ⟨hlocated, hmidnights, -⟩ := (resolveRelativeBounds_eq_ok rfl).mp hbounds
    exact ⟨hlocated, hmidnights⟩
  · rintro ⟨hlocated, hmidnights⟩
    exact ⟨(_, _), (resolveRelativeBounds_eq_ok rfl).mpr ⟨hlocated, hmidnights, rfl, rfl⟩⟩

/-! ## A clock that is set back over midnight -/

/-- St. John's on the 7th of November 2010: at one minute past midnight the clock is set back by an hour. -/
def stJohns : ZoneInfo where
  fromutc := fun u => if u < 63424780260000000 then -9000000000 else -12600000000
  utcoffset := fun wall => if wall < 63424780260000000 - 9000000000 then -9000000000 else -12600000000
  fromutc_bounds := by
    intro u
    unfold microsPerDay
    split
    · decide
    · decide
  utcoffset_bounds := by
    intro wall
    unfold microsPerDay
    split
    · decide
    · decide

/-- When the clock shows a quarter past eleven for the second time, the window of today has ended a quarter of an hour
ago. -/
theorem evening_after_midnight :
    ¬ ∀ (zones : String → Option ZoneInfo) (tzName : Option String), Tiles zones tzName := by
  intro h
  let now : Now := Now.ofUtc 63424781100000000 (by decide)
  have hbounds : resolveRelativeBounds (fun _ => some stJohns) 0 "today" (some "America/St_Johns") (some now) =
      .ok (63424693800000000, 63424780200000000) := by decide +kernel
  have hcontains := (h (fun _ => some stJohns) (some "America/St_Johns")).contains 0 .day now _ _ hbounds
  exact absurd hcontains.2 (by decide)

end FavoniusBackend.Agent.TimeWindows
