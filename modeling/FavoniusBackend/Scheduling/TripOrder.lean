import FavoniusBackend.Scheduling.LocalTimes

/-!
# Trips that return after they depart

The expansion converts the departure and the return of an occurrence independently.  Both conversions
keep the order of the readings that the clock shows, in a fold as well.  A departure in a gap is moved
behind it, and so is a return in the same gap: the departure then no longer has to come first
(`departs_before_return_iff`).  In whole minutes both end up on the same reading, and a trip inside the
gap takes no time at all (`trip_inside_the_gap`).
-/

namespace FavoniusBackend.Scheduling.TripOrder

open Lib Lib.TimeZone Scheduling.Recurring
open Scheduling.LocalTimes

structure TimesOfDay (tpl : RecurringTemplate) : Prop where
  departure : 0 ≤ tpl.departureTimeOfDay ∧ tpl.departureTimeOfDay < 86400
  ret : 0 ≤ tpl.returnTimeOfDay ∧ tpl.returnTimeOfDay < 86400

def departureReading (tpl : RecurringTemplate) (date : ℤ) : ℚ := reading date tpl.departureTimeOfDay

def returnReading (tpl : RecurringTemplate) (date : ℤ) : ℚ :=
  reading (if tpl.crossesMidnight then date + 1 else date) tpl.returnTimeOfDay

/-- With a departure in the gap, the return comes after the reading to which the departure is moved. -/
def ClearsGap (g : Gap) (departure ret : ℚ) : Prop :=
  if ret < g.stop then exit g departure < exit g ret else exit g departure < ret

instance (g : Gap) (departure ret : ℚ) : Decidable (ClearsGap g departure ret) := by
  unfold ClearsGap
  split <;> infer_instance

/-- The condition on one occurrence: a gap that skips its departure is cleared. -/
def LeavesGapsInOrder (z : Zone) (tpl : RecurringTemplate) (date : ℤ) : Prop :=
  ∀ g ∈ z.gaps, Skips g (departureReading tpl date) →
    ClearsGap g (departureReading tpl date) (returnReading tpl date)

theorem departureReading_lt {tpl : RecurringTemplate} (htimes : TimesOfDay tpl) (date : ℤ) :
    departureReading tpl date < returnReading tpl date := by
  obtain ⟨⟨_, hd⟩, hr, _⟩ := htimes
  unfold departureReading returnReading RecurringTemplate.crossesMidnight reading
  by_cases hcross : tpl.returnTimeOfDay ≤ tpl.departureTimeOfDay
  · rw [decide_eq_true hcross, if_pos rfl]
    push_cast
    linarith
  · rw [decide_eq_false hcross, if_neg Bool.false_ne_true]
    linarith

section Order

variable {z : Zone} {w : ℚ} {g : Gap}

theorem instantOf_lt_iff {v v' : ℚ} (h : Shown z.initial z.transitions v)
    (h' : Shown z.initial z.transitions v') :
    (zoneInfo z).instantOf v < (zoneInfo z).instantOf v' ↔ v < v' := by
  obtain ⟨m, ha⟩ := z.apart
  refine ⟨?_, fun hlt => instantOf_lt ha h h' hlt⟩
  intro hlt
  by_contra hge
  rcases lt_or_eq_of_le (not_lt.mp hge) with hlt' | heq
  · exact lt_asymm hlt (instantOf_lt ha h' h hlt')
  · rw [heq] at hlt
    exact lt_irrefl _ hlt

theorem toUtc_lt_iff_clears (hgaps : ∀ g ∈ z.gaps, g.length ≤ 7200) {date date' : ℤ} {d r : ℚ}
    (hlt : reading date d < reading date' r) (hg : g ∈ z.gaps) (hskips : Skips g (reading date d)) :
    (zoneInfo z).toUtc date d < (zoneInfo z).toUtc date' r ↔
      ClearsGap g (reading date d) (reading date' r) := by
  obtain ⟨m, ha⟩ := z.apart
  obtain ⟨before, after, hshape⟩ := gapShape_of_mem ha hg
  obtain ⟨hutc, hexit⟩ := toUtc_gap hg (hgaps g hg) hskips
  have hbounds := exit_bounds hskips
  rw [hutc]
  unfold ClearsGap
  by_cases hinside : reading date' r < g.stop
  · -- the return lies in the same gap
    obtain ⟨hutc', hexit'⟩ := toUtc_gap hg (hgaps g hg) ⟨hskips.1.trans hlt.le, hinside⟩
    rw [hutc', if_pos hinside]
    exact instantOf_lt_iff hexit hexit'
  · rw [if_neg hinside]
    obtain ⟨v, hv, hutc', hle, _, hself⟩ := toUtc_stands hgaps date' r
    rw [hutc', instantOf_lt_iff hexit hv]
    rcases lt_or_ge (reading date' r) (g.stop + 60) with hminute | hlater
    · rw [hself (hshape.shown_behind _ (not_lt.mp hinside) hminute)]
    · exact ⟨fun _ => hbounds.2.trans_le hlater, fun _ => hbounds.2.trans_le (hlater.trans hle)⟩

/-- **The order of one occurrence.** -/
theorem occurrence_ordered_iff (hgaps : ∀ g ∈ z.gaps, g.length ≤ 7200) {tpl : RecurringTemplate}
    (htimes : TimesOfDay tpl) (date : ℤ) :
    (tpl.occurrence (zoneInfo z) date).trip.departureTime <
        (tpl.occurrence (zoneInfo z) date).trip.returnTime ↔ LeavesGapsInOrder z tpl date := by
  have hlt := departureReading_lt htimes date
  by_cases hshown : Shown z.initial z.transitions (departureReading tpl date)
  · refine ⟨fun _ g hg hskips => absurd hskips (hshown g hg), fun _ => ?_⟩
    obtain ⟨v, hv, hutc, hle, _, _⟩ := toUtc_stands hgaps
      (if tpl.crossesMidnight then date + 1 else date) tpl.returnTimeOfDay
    show (zoneInfo z).toUtc date tpl.departureTimeOfDay < (zoneInfo z).toUtc _ tpl.returnTimeOfDay
    rw [hutc, toUtc_shown hshown]
    exact (instantOf_lt_iff hshown hv).mpr (hlt.trans_le hle)
  · refine ⟨fun h g hg hskips => (toUtc_lt_iff_clears hgaps hlt hg hskips).mp h, ?_⟩
    intro hclears
    unfold Shown at hshown
    push Not at hshown
    obtain ⟨g, hg, hskips⟩ := hshown
    exact (toUtc_lt_iff_clears hgaps hlt hg hskips).mpr (hclears g hg hskips)

end Order

/-- **When a trip returns after it departs.**  For every zone with gaps of at most 120 minutes and all
templates, cancellations and horizons: every emitted trip is the occurrence of a template, and it
departs before it returns exactly when a gap that skips its departure is cleared by the return. -/
theorem departs_before_return_iff (z : Zone) (hgaps : ∀ g ∈ z.gaps, g.length ≤ 7200)
    (templates : List RecurringTemplate) (htimes : ∀ tpl ∈ templates, TimesOfDay tpl)
    (cancellations : List ScheduleCancellation) (horizonStart horizonEnd : ℚ) (row : RecurringRow)
    (hrow : row ∈ expandRecurringTemplates templates cancellations (zoneInfo z) horizonStart horizonEnd) :
    ∃ tpl ∈ templates, row = tpl.occurrence (zoneInfo z) row.occurrenceDate ∧
      (row.trip.departureTime < row.trip.returnTime ↔
        LeavesGapsInOrder z tpl row.occurrenceDate) := by
  obtain ⟨tpl, htpl, date, _, _, rfl, _, _⟩ := mem_expandRecurringTemplates.mp hrow
  exact ⟨tpl, htpl, rfl, occurrence_ordered_iff hgaps (htimes tpl htpl) date⟩

/-- Vilnius in spring 2026: on 29 March the clock goes from 03:00 to 04:00. -/
def vilnius : Zone where
  initial := 7200
  transitions := [⟨1774746000, 10800⟩]
  apart := ⟨1774746000 + 7200, by norm_num [ApartFrom]⟩

def sundayTemplate (departure ret : ℚ) : RecurringTemplate where
  templateId := "sunday"
  depotId := "depot"
  vehicleId := "bus_1"
  routeId := "r1"
  departureTimeOfDay := departure * 60
  returnTimeOfDay := ret * 60
  daysOfWeek := [.sun]
  startDate := 20541
  endDate := none
  requiredSoc := 1
  energyKwh := none
  active := true
  createdAt := 0

/-- The expansion of 29 March 2026, the day number 20541. -/
def expandSunday (departure ret : ℚ) : List RecurringRow :=
  expandRecurringTemplates [sundayTemplate departure ret] [] (zoneInfo vilnius)
    (20541 * 86400) (20542 * 86400)

/-- From 03:15 to 04:30: the departure is moved to 04:00, half an hour before the return. -/
theorem ordered_across_the_gap :
    ((expandSunday 195 270).all fun row => decide (row.trip.departureTime < row.trip.returnTime)) = true := by
  rw [List.all_eq_true]
  intro row hrow
  rw [decide_eq_true_eq]
  have hgaps : ∀ g ∈ vilnius.gaps, g.length ≤ 7200 := by decide +kernel
  have htimes : ∀ tpl ∈ [sundayTemplate 195 270], TimesOfDay tpl := by
    intro tpl htpl
    obtain rfl := List.mem_singleton.mp htpl
    exact ⟨by decide +kernel, by decide +kernel⟩
  obtain ⟨tpl, htpl, heq, hiff⟩ := departs_before_return_iff vilnius hgaps _ htimes [] _ _ row hrow
  obtain rfl := List.mem_singleton.mp htpl
  have hdate : ∀ r ∈ expandSunday 195 270, r.occurrenceDate = 20541 := by decide +kernel
  rw [hiff, hdate row hrow]
  intro g hg _
  have hclears : ∀ g ∈ vilnius.gaps, ClearsGap g (departureReading (sundayTemplate 195 270) 20541)
      (returnReading (sundayTemplate 195 270) 20541) := by
    decide +kernel
  exact hclears g hg

/-- From 03:15 to 03:45: both readings are skipped, and the trip departs and returns at 04:00. -/
theorem trip_inside_the_gap :
    (∀ g ∈ vilnius.gaps, g.length ≤ 7200) ∧
    (expandSunday 195 225).map (fun row => (row.trip.departureTime, row.trip.returnTime)) =
      [(1774746000, 1774746000)] ∧
    ¬ ∀ row ∈ expandSunday 195 225, row.trip.departureTime < row.trip.returnTime := by
  refine ⟨by decide +kernel, by decide +kernel, by decide +kernel⟩

end FavoniusBackend.Scheduling.TripOrder
