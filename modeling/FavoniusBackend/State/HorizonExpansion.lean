import FavoniusBackend.Scheduling.TripOrder
import FavoniusBackend.State.ScheduleSelection

/-!
# The expansion of a horizon is exact

`expand_recurring_templates` walks the local dates from the day before the horizon's start to its end
day, and the rows it is given were selected with dates padded by a day of UTC.  On a regular clock
neither bound loses an occurrence (`mem_expand_iff`, `recurringRows_eq`), and no date is visited twice
(`expand_nodup`).

A zone is a regular clock when its offsets stay within 23 hours and 59 minutes (`regularClock`).  The
missing minute is for a gap that does not end on a whole minute: its departures are moved up to a minute
too far, and with an offset of nearly a day that is the day after next in UTC
(`padding_loses_a_trip`).
-/

namespace FavoniusBackend.State.HorizonExpansion

open Lib Lib.TimeZone Optimizer.Models
open Scheduling.Recurring Scheduling.LocalTimes
open State.Database State.AssembledInputs
open State.ScheduleSelection
open Scheduling.TripOrder (vilnius sundayTemplate)

theorem le_floor_day {date : ℤ} {v : ℚ} (h : 86400 * (date : ℚ) ≤ v) : date ≤ ⌊v / 86400⌋ := by
  rw [Int.le_floor, le_div_iff₀ (by norm_num)]
  linarith

theorem floor_day_lt {date : ℤ} {v : ℚ} (h : v < 86400 * (date : ℚ)) : ⌊v / 86400⌋ < date := by
  rw [Int.floor_lt, div_lt_iff₀ (by norm_num)]
  linarith

/-- **A zone is a regular clock** of a horizon whose dates it keeps when its offsets stay within 23 hours
and 59 minutes and its gaps within two hours. -/
theorem regularClock {z : Zone} {start stop : ℚ} (hoffset : ∀ o ∈ z.offsets, |o| ≤ 86340)
    (hgaps : ∀ g ∈ z.gaps, g.length ≤ 7200) (hdates : KeepsDates (zoneInfo z) start stop) :
    RegularClock (zoneInfo z) start stop := by
  refine ⟨hdates, ?_, ?_⟩
  · intro date timeOfDay hlo hhi
    obtain ⟨v, hv, hutc, hle, hlt, _⟩ := toUtc_stands hgaps date timeOfDay
    obtain ⟨m, ha⟩ := z.apart
    have hback : (zoneInfo z).wallAt ((zoneInfo z).instantOf v) = v := wallAt_instantOf ha hv
    rw [reading] at hle hlt
    have hlate := @floor_day_lt (date + 2) v (by push_cast; linarith)
    rw [ZoneInfo.localDate, hutc, hback]
    exact ⟨le_floor_day (by linarith), by omega⟩
  · intro date timeOfDay hlo hhi
    have hnear := toUtc_near hoffset hgaps date timeOfDay
    rw [reading] at hnear
    have hearly := @le_floor_day (date - 1) ((zoneInfo z).toUtc date timeOfDay)
      (by push_cast; linarith)
    have hlate := @floor_day_lt (date + 2) ((zoneInfo z).toUtc date timeOfDay)
      (by push_cast; linarith)
    rw [utcDate]
    exact ⟨hearly, by omega⟩

section Expansion

variable {templates : List RecurringTemplate} {cancellations : List ScheduleCancellation}
  {tz : ZoneInfo} {start stop : ℚ}

/-- **The walk misses nothing.** -/
theorem mem_expand_iff (hclock : RegularClock tz start stop)
    (htimes : ∀ tpl ∈ templates, 0 ≤ tpl.departureTimeOfDay ∧ tpl.departureTimeOfDay < 86400)
    (row : RecurringRow) :
    row ∈ expandRecurringTemplates templates cancellations tz start stop ↔
      ∃ tpl ∈ templates, ∃ date, tpl.occursOn cancellations date = true ∧
        start ≤ (tpl.occurrence tz date).trip.departureTime ∧
        (tpl.occurrence tz date).trip.departureTime < stop ∧ row = tpl.occurrence tz date := by
  rw [mem_expandRecurringTemplates]
  refine ⟨?_, ?_⟩
  · rintro ⟨tpl, htpl, date, _, hocc, rfl, hlo, hhi⟩
    exact ⟨tpl, htpl, date, hocc, hlo, hhi, rfl⟩
  · rintro ⟨tpl, htpl, date, hocc, hlo, hhi, rfl⟩
    have hbounds := date_bounds hclock (htimes tpl htpl) hlo hhi
    exact ⟨tpl, htpl, date, mem_walkDates.mpr hbounds.1, hocc, rfl, hlo, hhi⟩

theorem walkDates_nodup : (walkDates tz start stop).Nodup := by
  apply List.Nodup.map _ List.nodup_range
  intro k k' h
  simpa using h

def rowKey (row : RecurringRow) : String × ℤ := (row.templateId, row.occurrenceDate)

/-- **No template is visited twice for a date.** -/
theorem expand_nodup (hids : (templates.map RecurringTemplate.templateId).Nodup) :
    ((expandRecurringTemplates templates cancellations tz start stop).map rowKey).Nodup := by
  unfold expandRecurringTemplates
  split
  · exact List.nodup_nil
  · rw [List.map_flatMap, List.nodup_flatMap]
    refine ⟨?_, ?_⟩
    · intro date _
      rw [List.filter_map, List.map_map, List.filter_filter]
      -- within a date the key is the template's id
      have hkey : rowKey ∘ (fun tpl => tpl.occurrence tz date) =
          (fun id => (id, date)) ∘ RecurringTemplate.templateId := rfl
      rw [hkey, ← List.map_map]
      refine List.Nodup.map (fun a b h => (Prod.mk.inj h).1) ?_
      exact hids.sublist (List.filter_sublist.map _)
    · refine walkDates_nodup.imp ?_
      intro date date' hne
      rw [Function.onFun, List.disjoint_left]
      intro key hkey hkey'
      obtain ⟨row, hrow, rfl⟩ := List.mem_map.mp hkey
      obtain ⟨row', hrow', hsame⟩ := List.mem_map.mp hkey'
      obtain ⟨tpl, _, rfl⟩ := List.mem_map.mp (List.mem_filter.mp hrow).1
      obtain ⟨tpl', _, rfl⟩ := List.mem_map.mp (List.mem_filter.mp hrow').1
      exact hne (Prod.mk.inj hsame).2.symm

def depotTemplates (env : Environment) (depotId : String) : List RecurringTemplate :=
  env.templates.filter fun tpl => tpl.depotId == depotId

/-- **The padded queries lose nothing**: the rows they select give the same trips as all rows of the
depot, in the same order. -/
theorem recurringRows_eq {env : Environment} {depotId : String} (hclock : RegularClock tz start stop)
    (htimes : TimesOfDay env) :
    recurringRows env depotId tz start stop =
      expandRecurringTemplates (depotTemplates env depotId) env.cancellations tz start stop := by
  unfold recurringRows expandRecurringTemplates
  split
  · rfl
  · congr 1
    funext date
    rw [List.filter_map, List.filter_map, List.filter_filter, List.filter_filter, depotTemplates,
      List.filter_filter]
    nth_rewrite 2 [horizonTemplates]
    rw [List.filter_filter]
    congr 1
    apply List.filter_congr
    intro tpl htpl
    rw [Bool.eq_iff_iff]
    simp only [Bool.and_eq_true, Function.comp_apply, decide_eq_true_eq, beq_iff_eq]
    have hselected : tpl ∈ horizonTemplates env depotId start stop ↔
        (((tpl.depotId = depotId ∧ tpl.active = true) ∧ tpl.startDate ≤ utcDate stop + 1) ∧
          (tpl.endDate.all fun last => decide (utcDate start - 1 ≤ last)) = true) := by
      rw [horizonTemplates, List.mem_filter]
      simp [htpl]
    rw [← hselected]
    refine ⟨?_, ?_⟩
    · rintro ⟨⟨⟨hlo, hhi⟩, hocc⟩, hsel⟩
      obtain ⟨_, hd1, hd2⟩ := date_bounds hclock (htimes tpl htpl) hlo hhi
      rw [occursOn_horizonCancellations hsel hd1 hd2] at hocc
      exact ⟨⟨⟨hlo, hhi⟩, hocc⟩, (mem_horizonTemplates.mp hsel).2.1⟩
    · rintro ⟨⟨⟨hlo, hhi⟩, hocc⟩, hdepot⟩
      obtain ⟨_, hd1, hd2⟩ := date_bounds hclock (htimes tpl htpl) hlo hhi
      obtain ⟨hactive, _, hfirst, hlast, _⟩ := occursOn_iff.mp hocc
      have hsel : tpl ∈ horizonTemplates env depotId start stop :=
        mem_horizonTemplates.mpr ⟨htpl, hdepot, hactive, hfirst.trans hd2,
          fun last h => hd1.trans (hlast last h)⟩
      refine ⟨⟨⟨hlo, hhi⟩, ?_⟩, hsel⟩
      rw [occursOn_horizonCancellations hsel hd1 hd2]
      exact hocc

end Expansion

/-- **The expansion is exact.**  For every zone with offsets within 23 hours and 59 minutes and gaps of
at most 120 minutes, and every horizon whose dates it keeps: what is emitted are the occurrences that
depart in the horizon, one for each template and date, and the padded queries change nothing. -/
theorem expansion_exact (z : Zone) (hoffset : ∀ o ∈ z.offsets, |o| ≤ 86340)
    (hgaps : ∀ g ∈ z.gaps, g.length ≤ 7200) (start stop : ℚ) (hdates : KeepsDates (zoneInfo z) start stop)
    (templates : List RecurringTemplate) (cancellations : List ScheduleCancellation)
    (htimes : ∀ tpl ∈ templates, 0 ≤ tpl.departureTimeOfDay ∧ tpl.departureTimeOfDay < 86400)
    (hids : (templates.map RecurringTemplate.templateId).Nodup) :
    (∀ row, row ∈ expandRecurringTemplates templates cancellations (zoneInfo z) start stop ↔
      ∃ tpl ∈ templates, ∃ date, tpl.occursOn cancellations date = true ∧
        start ≤ (tpl.occurrence (zoneInfo z) date).trip.departureTime ∧
        (tpl.occurrence (zoneInfo z) date).trip.departureTime < stop ∧
        row = tpl.occurrence (zoneInfo z) date) ∧
    ((expandRecurringTemplates templates cancellations (zoneInfo z) start stop).map rowKey).Nodup ∧
    ∀ env depotId, env.templates = templates → env.cancellations = cancellations →
      recurringRows env depotId (zoneInfo z) start stop =
        expandRecurringTemplates (depotTemplates env depotId) cancellations (zoneInfo z) start stop := by
  have hclock := regularClock hoffset hgaps hdates
  refine ⟨mem_expand_iff hclock htimes, expand_nodup hids, ?_⟩
  intro env depotId htemplates hcancellations
  subst hcancellations
  exact recurringRows_eq hclock (by rw [TimesOfDay, htemplates]; exact htimes)

theorem localDate_mono_of_forward {z : Zone} {tr : Transition} (hz : z.transitions = [tr])
    (hforward : z.initial ≤ tr.offset) {s t : ℚ} (hst : s ≤ t) :
    (zoneInfo z).localDate s ≤ (zoneInfo z).localDate t := by
  have hoffset : offsetAt z.initial z.transitions s ≤ offsetAt z.initial z.transitions t := by
    rw [hz]
    simp only [offsetAt]
    split
    · split
      · exact le_rfl
      · exact hforward
    · rename_i hs
      rw [if_neg fun ht => hs (hst.trans_lt ht)]
  have hwall : (zoneInfo z).wallAt s ≤ (zoneInfo z).wallAt t := add_le_add hst hoffset
  exact Int.floor_le_floor (div_le_div_of_nonneg_right hwall (by norm_num))

theorem keepsDates_of_forward {z : Zone} {tr : Transition} (hz : z.transitions = [tr])
    (hforward : z.initial ≤ tr.offset) (start stop : ℚ) : KeepsDates (zoneInfo z) start stop :=
  fun _ hlo hhi => ⟨localDate_mono_of_forward hz hforward hlo, localDate_mono_of_forward hz hforward hhi.le⟩

def sundayEnvironment : Environment :=
  { idleEnvironment with templates := [sundayTemplate 195 270] }

/-- The 03:15 trip on the day on which the clock goes forward. -/
theorem sunday_trip_expanded :
    (sundayTemplate 195 270).occurrence (zoneInfo vilnius) 20541 ∈
      expandRecurringTemplates [sundayTemplate 195 270] [] (zoneInfo vilnius)
        (20541 * 86400) (20542 * 86400) ∧
    recurringRows sundayEnvironment "depot" (zoneInfo vilnius) (20541 * 86400) (20542 * 86400) =
      expandRecurringTemplates (depotTemplates sundayEnvironment "depot") [] (zoneInfo vilnius)
        (20541 * 86400) (20542 * 86400) := by
  obtain ⟨hmem, _, hpadded⟩ := expansion_exact vilnius (by decide +kernel) (by decide +kernel)
    (20541 * 86400) (20542 * 86400) (keepsDates_of_forward rfl (by decide +kernel) _ _)
    [sundayTemplate 195 270] [] (by decide +kernel) (by decide +kernel)
  refine ⟨(hmem _).mpr ?_, hpadded sundayEnvironment "depot" rfl rfl⟩
  exact ⟨_, List.mem_singleton.mpr rfl, 20541, by decide +kernel, by decide +kernel, by decide +kernel, rfl⟩

/-- A zone at almost a day behind UTC that goes forward by 61 seconds, a second before midnight. -/
def farZone : Zone where
  initial := -86399
  transitions := [⟨172798, -86338⟩]
  apart := ⟨172798 - 86399, by norm_num [ApartFrom]⟩

def lastSecondTemplate : RecurringTemplate :=
  { eveningTemplate with
    departureTimeOfDay := 86399
    returnTimeOfDay := 3600
    endDate := some 0 }

def lastSecondEnvironment : Environment := { idleEnvironment with templates := [lastSecondTemplate] }

/-- **The padding loses a trip.**  Its departure is moved by two minutes, to day 2 in UTC; for the
horizon of that day the template is not selected. -/
theorem padding_loses_a_trip :
    (∀ o ∈ farZone.offsets, |o| < 86400) ∧ (∀ g ∈ farZone.gaps, g.length ≤ 7200) ∧
    (∀ s t, s ≤ t → (zoneInfo farZone).localDate s ≤ (zoneInfo farZone).localDate t) ∧
    recurringRows lastSecondEnvironment "depot" (zoneInfo farZone) (2 * 86400) (3 * 86400) = [] ∧
    expandRecurringTemplates (depotTemplates lastSecondEnvironment "depot") [] (zoneInfo farZone)
      (2 * 86400) (3 * 86400) = [lastSecondTemplate.occurrence (zoneInfo farZone) 0] := by
  refine ⟨by decide +kernel, by decide +kernel, ?_, by decide +kernel, by decide +kernel⟩
  intro s t hst
  exact localDate_mono_of_forward rfl (by decide +kernel) hst

end FavoniusBackend.State.HorizonExpansion
