import FavoniusBackend.Scheduling.Tiebreak
import FavoniusBackend.State.VehicleAvailability

/-!
# Which stored trips an assembly sees

`_get_schedules` selects manual rows and recurring occurrences by their departure: both are seen when
they depart inside the horizon of the assembly, and the tiebreak between them is made among the rows of
that horizon only.

So a manual row that has departed no longer overrides the occurrence of its day, and that occurrence
comes back in later assemblies (`included_iff`).
-/

namespace FavoniusBackend.State.ScheduleSelection

open Lib Lib.Sql Lib.Stateful Lib.Numeric
open Optimizer.Models Scheduling.Recurring
open Scheduling.Tiebreak State.Database
open State.Assembler State.AssembledInputs
open State.VehicleAvailability

/-! ### Clocks -/

/-- The instants of a horizon are on local dates from that of its start to that of its stop. -/
def KeepsDates (tz : ZoneInfo) (start stop : ℚ) : Prop :=
  ∀ t, start ≤ t → t < stop → tz.localDate start ≤ tz.localDate t ∧ tz.localDate t ≤ tz.localDate stop

/-- What the code relies on in the time zone database: the horizon keeps its dates, and the instant of a
reading, moved out of a gap if need be, is on its date or the next, and within a day of it in UTC. -/
structure RegularClock (tz : ZoneInfo) (start stop : ℚ) : Prop where
  keepsDates : KeepsDates tz start stop
  localDate_toUtc : ∀ date timeOfDay, 0 ≤ timeOfDay → timeOfDay < 86400 →
    date ≤ tz.localDate (tz.toUtc date timeOfDay) ∧ tz.localDate (tz.toUtc date timeOfDay) ≤ date + 1
  utcDate_toUtc : ∀ date timeOfDay, 0 ≤ timeOfDay → timeOfDay < 86400 →
    date - 1 ≤ utcDate (tz.toUtc date timeOfDay) ∧ utcDate (tz.toUtc date timeOfDay) ≤ date + 1

def TimesOfDay (env : Environment) : Prop :=
  ∀ tpl ∈ env.templates, 0 ≤ tpl.departureTimeOfDay ∧ tpl.departureTimeOfDay < 86400

theorem utcDate_mono {s t : ℚ} (h : s ≤ t) : utcDate s ≤ utcDate t := by
  unfold utcDate
  apply Int.floor_le_floor
  linarith

theorem toUtc_utc (date : ℤ) (timeOfDay : ℚ) :
    ZoneInfo.utc.toUtc date timeOfDay = 86400 * (date : ℚ) + timeOfDay := by
  have hexists : ZoneInfo.utc.isNonexistent (86400 * (date : ℚ) + timeOfDay) = false := by
    simp [ZoneInfo.isNonexistent, ZoneInfo.wallAt, ZoneInfo.instantOf, ZoneInfo.utc]
  rw [ZoneInfo.toUtc]
  simp only [hexists]
  simp [ZoneInfo.instantOf, ZoneInfo.utc]

theorem utcDate_toUtc_utc (date : ℤ) {timeOfDay : ℚ} (hlo : 0 ≤ timeOfDay) (hhi : timeOfDay < 86400) :
    utcDate (ZoneInfo.utc.toUtc date timeOfDay) = date := by
  rw [toUtc_utc, utcDate, Int.floor_eq_iff]
  refine ⟨?_, ?_⟩
  · rw [le_div_iff₀ (by norm_num)]
    linarith
  · rw [div_lt_iff₀ (by norm_num)]
    linarith

theorem localDate_utc (t : ℚ) : ZoneInfo.utc.localDate t = utcDate t := by
  show ⌊(t + 0) / 86400⌋ = ⌊t / 86400⌋
  rw [add_zero]

theorem regularClock_utc (start stop : ℚ) : RegularClock .utc start stop := by
  refine ⟨?_, ?_, ?_⟩
  · intro t hlo hhi
    rw [localDate_utc, localDate_utc, localDate_utc]
    exact ⟨utcDate_mono hlo, utcDate_mono hhi.le⟩
  · intro date timeOfDay hlo hhi
    rw [localDate_utc, utcDate_toUtc_utc date hlo hhi]
    omega
  · intro date timeOfDay hlo hhi
    rw [utcDate_toUtc_utc date hlo hhi]
    omega

/-! ### The occurrences of a horizon -/

section Expansion

variable (env : Environment) (depotId : String) (tz : ZoneInfo) (start stop : ℚ)

/-- The recurring rows of `_get_schedules`. -/
def recurringRows : List RecurringRow :=
  expandRecurringTemplates (horizonTemplates env depotId start stop)
    (horizonCancellations env (horizonTemplates env depotId start stop) start stop) tz start stop

/-- An uncancelled occurrence of a template of the depot that departs in `[start, stop)`. -/
structure Departs (tpl : RecurringTemplate) (date : ℤ) : Prop where
  stored : tpl ∈ env.templates
  depot : tpl.depotId = depotId
  occurs : tpl.occursOn env.cancellations date = true
  start_le : start ≤ (tpl.occurrence tz date).trip.departureTime
  lt_stop : (tpl.occurrence tz date).trip.departureTime < stop

variable {env depotId tz start stop}

theorem mem_walkDates {date : ℤ} :
    date ∈ walkDates tz start stop ↔ tz.localDate start - 1 ≤ date ∧ date ≤ tz.localDate stop := by
  unfold walkDates
  simp only [List.mem_map, List.mem_range]
  refine ⟨?_, ?_⟩
  · rintro ⟨k, hk, rfl⟩
    omega
  · intro ⟨hlo, hhi⟩
    exact ⟨(date - (tz.localDate start - 1)).toNat, by omega, by omega⟩

theorem mem_horizonTemplates {tpl : RecurringTemplate} :
    tpl ∈ horizonTemplates env depotId start stop ↔
      tpl ∈ env.templates ∧ tpl.depotId = depotId ∧ tpl.active = true ∧
        tpl.startDate ≤ utcDate stop + 1 ∧ ∀ last, tpl.endDate = some last → utcDate start - 1 ≤ last := by
  unfold horizonTemplates
  cases hlast : tpl.endDate with
  | none => simp [hlast, and_assoc]
  | some last => simp [hlast, and_assoc]

theorem occursOn_iff {tpl : RecurringTemplate} {cancelled : List ScheduleCancellation} {date : ℤ} :
    tpl.occursOn cancelled date = true ↔
      tpl.active = true ∧ weekday date ∈ tpl.daysOfWeek ∧ tpl.startDate ≤ date ∧
        (∀ last, tpl.endDate = some last → date ≤ last) ∧
        ScheduleCancellation.mk tpl.templateId date ∉ cancelled := by
  unfold RecurringTemplate.occursOn
  cases hlast : tpl.endDate with
  | none => simp [and_assoc]
  | some last => simp [and_assoc]

theorem occursOn_horizonCancellations {tpl : RecurringTemplate} {date : ℤ}
    (htpl : tpl ∈ horizonTemplates env depotId start stop) (hlo : utcDate start - 1 ≤ date)
    (hhi : date ≤ utcDate stop + 1) :
    tpl.occursOn (horizonCancellations env (horizonTemplates env depotId start stop) start stop) date =
      tpl.occursOn env.cancellations date := by
  have hmem : ScheduleCancellation.mk tpl.templateId date ∈
      horizonCancellations env (horizonTemplates env depotId start stop) start stop ↔
      ScheduleCancellation.mk tpl.templateId date ∈ env.cancellations := by
    unfold horizonCancellations
    rw [List.mem_filter]
    refine ⟨And.left, fun h => ⟨h, ?_⟩⟩
    simp only [Bool.and_eq_true, decide_eq_true_eq]
    exact ⟨⟨List.mem_map_of_mem htpl, hlo⟩, hhi⟩
  unfold RecurringTemplate.occursOn
  simp only [hmem]

theorem date_bounds (hclock : RegularClock tz start stop) {tpl : RecurringTemplate} {date : ℤ}
    (htimes : 0 ≤ tpl.departureTimeOfDay ∧ tpl.departureTimeOfDay < 86400)
    (hlo : start ≤ (tpl.occurrence tz date).trip.departureTime)
    (hhi : (tpl.occurrence tz date).trip.departureTime < stop) :
    (tz.localDate start - 1 ≤ date ∧ date ≤ tz.localDate stop) ∧
      utcDate start - 1 ≤ date ∧ date ≤ utcDate stop + 1 := by
  have hlocal := hclock.localDate_toUtc date _ htimes.1 htimes.2
  have hutc := hclock.utcDate_toUtc date _ htimes.1 htimes.2
  obtain ⟨hstart, hstop⟩ := hclock.keepsDates _ hlo hhi
  have hstart' := utcDate_mono hlo
  have hstop' := utcDate_mono hhi.le
  simp only [RecurringTemplate.occurrence] at hstart hstop hstart' hstop'
  omega

/-- **The expansion of a horizon**: exactly the uncancelled occurrences that depart in it.  The walk
starts a day early and the queries are padded by a day, so no date is missed. -/
theorem mem_recurringRows (hclock : RegularClock tz start stop) (htimes : TimesOfDay env) {row : RecurringRow} :
    row ∈ recurringRows env depotId tz start stop ↔
      ∃ tpl date, Departs env depotId tz start stop tpl date ∧ row = tpl.occurrence tz date := by
  rw [recurringRows, mem_expandRecurringTemplates]
  refine ⟨?_, ?_⟩
  · rintro ⟨tpl, htpl, date, _, hocc, rfl, hlo, hhi⟩
    obtain ⟨hstored, hdepot, _⟩ := mem_horizonTemplates.mp htpl
    obtain ⟨_, hd1, hd2⟩ := date_bounds hclock (htimes tpl hstored) hlo hhi
    rw [occursOn_horizonCancellations htpl hd1 hd2] at hocc
    exact ⟨tpl, date, ⟨hstored, hdepot, hocc, hlo, hhi⟩, rfl⟩
  · rintro ⟨tpl, date, hdep, rfl⟩
    obtain ⟨hwalk, hd1, hd2⟩ := date_bounds hclock (htimes tpl hdep.stored) hdep.start_le hdep.lt_stop
    obtain ⟨hactive, _, hfirst, hlast, _⟩ := occursOn_iff.mp hdep.occurs
    have htpl : tpl ∈ horizonTemplates env depotId start stop := by
      refine mem_horizonTemplates.mpr ⟨hdep.stored, hdep.depot, hactive, hfirst.trans hd2, ?_⟩
      intro last h
      exact hd1.trans (hlast last h)
    refine ⟨tpl, htpl, date, mem_walkDates.mpr hwalk, ?_, rfl, hdep.start_le, hdep.lt_stop⟩
    rw [occursOn_horizonCancellations htpl hd1 hd2]
    exact hdep.occurs

theorem mem_manualSchedules {m : ManualRow} :
    m ∈ manualSchedules env depotId start stop ↔
      m ∈ env.schedules ∧ m.trip.vehicleId ∈ env.vehicleIds depotId ∧ start ≤ m.trip.departureTime ∧
        m.trip.departureTime < stop := by
  unfold manualSchedules
  rw [mem_orderBy, List.mem_filter]
  simp [and_assoc]

end Expansion

/-! ### What the call returns -/

/-- The time zone `_get_depot_timezone` answers with. -/
def workingTimezone (env : Environment) (assembler : StateAssembler) : ZoneInfo :=
  match assembler.depotTimezoneCache with
  | some tz => tz
  | none => if env.fails .depotTimezone then .utc else siteTimezone env

theorem exec_getDepotTimezone (env : Environment) (self : StateAssembler) :
    ∃ self', exec (getDepotTimezone env) self = (.ok (workingTimezone env self), self') ∧
      self'.depotId = self.depotId ∧ workingTimezone env self' = workingTimezone env self := by
  unfold getDepotTimezone
  rw [exec_field_bind]
  cases hcache : self.depotTimezoneCache with
  | some tz =>
    refine ⟨self, ?_, rfl, rfl⟩
    simp only [workingTimezone, hcache]
    rfl
  | none =>
    refine ⟨{ self with depotTimezoneCache := some (workingTimezone env self) }, ?_, rfl, rfl⟩
    simp only [workingTimezone, hcache]
    rfl

section Rows

variable (env : Environment) (depotId : String) (tz : ZoneInfo) (start stop : ℚ)

/-- The rows behind the trips that `_get_schedules` returns. -/
def scheduleRows : List MergedRow :=
  if horizonTemplates env depotId start stop = [] then
    (manualSchedules env depotId start stop).map .manual
  else orderBy (fun a b => a.trip.departsBefore b.trip)
    (mergedRows (manualSchedules env depotId start stop) (recurringRows env depotId tz start stop) tz)

theorem mem_scheduleRows (row : MergedRow) :
    row ∈ scheduleRows env depotId tz start stop ↔
      row ∈ mergedRows (manualSchedules env depotId start stop)
        (recurringRows env depotId tz start stop) tz := by
  unfold scheduleRows
  split
  · rename_i hnil
    have hnone : recurringRows env depotId tz start stop = [] := by
      rw [List.eq_nil_iff_forall_not_mem]
      intro r hr
      rw [recurringRows, hnil, mem_expandRecurringTemplates] at hr
      obtain ⟨tpl, htpl, _⟩ := hr
      cases htpl
    rw [hnone]
    cases row with
    | recurring r =>
      rw [recurring_mem_mergedRows]
      simp
    | manual m =>
      rw [manual_mem_mergedRows]
      refine ⟨?_, ?_⟩
      · intro h
        obtain ⟨m', hm', heq⟩ := List.mem_map.mp h
        cases heq
        refine ⟨hm', m, List.mem_filter.mpr ⟨hm', by simp⟩, ?_⟩
        intro r hr
        cases hr
      · intro h
        exact List.mem_map.mpr ⟨m, h.1, rfl⟩
  · rw [mem_orderBy]

theorem map_trip_orderBy (rows : List MergedRow) :
    (orderBy (fun a b => a.trip.departsBefore b.trip) rows).map MergedRow.trip =
      orderBy Trip.departsBefore (rows.map MergedRow.trip) :=
  List.map_insertionSort (fun a b => MergedRow.trip a |>.departsBefore b.trip) Trip.departsBefore
    MergedRow.trip rows fun _ _ _ _ => Iff.rfl

end Rows

/-- **The call**: unless the query fails it returns the trips of `scheduleRows`, and it keeps the depot
and the time zone of the assembler. -/
theorem exec_getSchedules (env : Environment) (start stop : ℚ) (self : StateAssembler)
    (hok : env.fails .schedules = false) :
    ∃ self', exec (getSchedules env start stop) self =
        (.ok ((scheduleRows env self.depotId (workingTimezone env self) start stop).map MergedRow.trip),
          self') ∧
      self'.depotId = self.depotId ∧ workingTimezone env self' = workingTimezone env self := by
  have hquery : env.query .schedules (manualSchedules env self.depotId start stop) =
      .ok (manualSchedules env self.depotId start stop) := by
    rw [Environment.query, hok]
    rfl
  unfold getSchedules
  rw [exec_field_bind, exec_bind, exec_attempt, hquery]
  simp only
  by_cases hnil : horizonTemplates env self.depotId start stop = []
  · refine ⟨self, ?_, rfl, rfl⟩
    rw [if_pos hnil, scheduleRows, if_pos hnil, List.map_map]
    rfl
  · obtain ⟨self', htz, hdepot, hzone⟩ := exec_getDepotTimezone env self
    refine ⟨self', ?_, hdepot, hzone⟩
    rw [if_neg hnil, exec_bind, htz, scheduleRows, if_neg hnil, map_trip_orderBy,
      ← mergeRecurringWithManual_eq]
    rfl

theorem getSchedules_eq_ok {env : Environment} {start stop : ℚ} {self self' : StateAssembler}
    {trips : List Trip} (h : exec (getSchedules env start stop) self = (.ok trips, self')) :
    env.fails .schedules = false ∧
      trips = (scheduleRows env self.depotId (workingTimezone env self) start stop).map MergedRow.trip := by
  have hok : env.fails .schedules = false := by
    cases hfails : env.fails .schedules with
    | false => rfl
    | true =>
      unfold getSchedules at h
      rw [exec_field_bind, exec_attempt_bind_eq_ok] at h
      obtain ⟨rows, hrows, _⟩ := h
      rw [Environment.query, hfails] at hrows
      cases hrows
  obtain ⟨_, hcall, _⟩ := exec_getSchedules env start stop self hok
  rw [hcall] at h
  cases h
  exact ⟨hok, rfl⟩

/-! ### The tiebreak and the horizon -/

/-- The call returns, and the occurrence is one of the rows behind its trips. -/
def Includes (env : Environment) (assembler : StateAssembler) (start stop : ℚ) (row : RecurringRow) : Prop :=
  ∃ rows after, exec (getSchedules env start stop) assembler = (.ok (rows.map MergedRow.trip), after) ∧
    rows = scheduleRows env assembler.depotId (workingTimezone env assembler) start stop ∧
    MergedRow.recurring row ∈ rows

/-- Among the rows that depart in `[start, stop)`, a manual row of the vehicle and date is at least as
new as every occurrence of the vehicle and date. -/
def OverriddenIn (env : Environment) (depotId : String) (tz : ZoneInfo) (start stop : ℚ)
    (vid : VehicleId) (date : ℤ) : Prop :=
  ∃ m ∈ env.schedules, m.trip.vehicleId = vid ∧ vid ∈ env.vehicleIds depotId ∧
    tz.localDate m.trip.departureTime = date ∧
    start ≤ m.trip.departureTime ∧ m.trip.departureTime < stop ∧
    ∀ tpl, Departs env depotId tz start stop tpl date → tpl.vehicleId = vid →
      tpl.createdAt ≤ m.createdAt

section Selection

variable {env : Environment} {depotId : String} {tz : ZoneInfo} {start stop : ℚ}

theorem keyOutranked_iff (hclock : RegularClock tz start stop) (htimes : TimesOfDay env) (vid : VehicleId)
    (date : ℤ) :
    KeyOutranked (manualSchedules env depotId start stop) (recurringRows env depotId tz start stop) tz
      (vid, date) ↔ OverriddenIn env depotId tz start stop vid date := by
  have hrecurring : ∀ latest : ℚ,
      (∀ r ∈ (recurringRows env depotId tz start stop).filter fun row => recurringKey row = (vid, date),
        r.createdAt ≤ latest) ↔
      ∀ tpl, Departs env depotId tz start stop tpl date → tpl.vehicleId = vid →
        tpl.createdAt ≤ latest := by
    intro latest
    refine ⟨?_, ?_⟩
    · intro h tpl hdep hv
      refine h (tpl.occurrence tz date) (List.mem_filter.mpr ⟨?_, ?_⟩)
      · exact (mem_recurringRows hclock htimes).mpr ⟨tpl, date, hdep, rfl⟩
      · rw [decide_eq_true_eq, ← hv]
        rfl
    · intro h r hr
      obtain ⟨hmem, hkey⟩ := List.mem_filter.mp hr
      obtain ⟨tpl, d, hdep, rfl⟩ := (mem_recurringRows hclock htimes).mp hmem
      rw [decide_eq_true_eq] at hkey
      obtain ⟨hv, hd⟩ := Prod.mk.inj hkey
      have hdate : d = date := hd
      subst hdate
      exact h tpl hdep hv
  show (∃ m ∈ (manualSchedules env depotId start stop).filter fun row => manualKey tz row = (vid, date),
    ∀ r ∈ (recurringRows env depotId tz start stop).filter fun row => recurringKey row = (vid, date),
      r.createdAt ≤ m.createdAt) ↔ _
  refine ⟨?_, ?_⟩
  · intro ⟨m, hm, hall⟩
    obtain ⟨hmem, hkey⟩ := List.mem_filter.mp hm
    obtain ⟨hstored, hveh, hlo, hhi⟩ := mem_manualSchedules.mp hmem
    rw [decide_eq_true_eq] at hkey
    obtain ⟨hv, hd⟩ := Prod.mk.inj hkey
    exact ⟨m, hstored, hv, hv ▸ hveh, hd, hlo, hhi, (hrecurring _).mp hall⟩
  · intro ⟨m, hstored, hv, hveh, hd, hlo, hhi, hall⟩
    refine ⟨m, List.mem_filter.mpr ⟨?_, ?_⟩, (hrecurring _).mpr hall⟩
    · exact mem_manualSchedules.mpr ⟨hstored, hv.symm ▸ hveh, hlo, hhi⟩
    · rw [decide_eq_true_eq, manualKey, hv, hd]

theorem recurring_mem_scheduleRows (hclock : RegularClock tz start stop) (htimes : TimesOfDay env)
    (r : RecurringRow) :
    MergedRow.recurring r ∈ scheduleRows env depotId tz start stop ↔
      (∃ tpl date, Departs env depotId tz start stop tpl date ∧ r = tpl.occurrence tz date) ∧
        ¬ OverriddenIn env depotId tz start stop r.trip.vehicleId r.occurrenceDate := by
  rw [mem_scheduleRows, recurring_mem_mergedRows, mem_recurringRows hclock htimes,
    ← keyOutranked_iff hclock htimes]
  exact Iff.rfl

theorem manual_mem_scheduleRows (hclock : RegularClock tz start stop) (htimes : TimesOfDay env) (m : ManualRow) :
    MergedRow.manual m ∈ scheduleRows env depotId tz start stop ↔
      (m ∈ env.schedules ∧ m.trip.vehicleId ∈ env.vehicleIds depotId ∧
        start ≤ m.trip.departureTime ∧ m.trip.departureTime < stop) ∧
        OverriddenIn env depotId tz start stop m.trip.vehicleId
          (tz.localDate m.trip.departureTime) := by
  rw [mem_scheduleRows, manual_mem_mergedRows, mem_manualSchedules, ← keyOutranked_iff hclock htimes]
  exact Iff.rfl

theorem includes_iff {self : StateAssembler} (hok : env.fails .schedules = false)
    (hclock : RegularClock (workingTimezone env self) start stop) (htimes : TimesOfDay env)
    {tpl : RecurringTemplate} {date : ℤ}
    (hdep : Departs env self.depotId (workingTimezone env self) start stop tpl date) :
    Includes env self start stop (tpl.occurrence (workingTimezone env self) date) ↔
      ¬ OverriddenIn env self.depotId (workingTimezone env self) start stop tpl.vehicleId date := by
  refine ⟨?_, ?_⟩
  · intro ⟨rows, _, _, hrows, hmem⟩
    rw [hrows, recurring_mem_scheduleRows hclock htimes] at hmem
    exact hmem.2
  · intro hnot
    obtain ⟨self', hcall, _⟩ := exec_getSchedules env start stop self hok
    exact ⟨_, self', hcall, rfl, (recurring_mem_scheduleRows hclock htimes _).mpr
      ⟨⟨tpl, date, hdep, rfl⟩, hnot⟩⟩

end Selection

/-- **When the tiebreak does not depend on the horizon.**  For every database and every two assemblies
of a depot with one time zone, an uncancelled occurrence that departs in both horizons is included in
both or in neither if and only if the rows of one horizon override it exactly when those of the other
do. -/
theorem included_iff (env : Environment) (first second : StateAssembler)
    (hok : env.fails .schedules = false) (hdepot : second.depotId = first.depotId)
    (hzone : workingTimezone env second = workingTimezone env first)
    (start₁ stop₁ start₂ stop₂ : ℚ) (hclock₁ : RegularClock (workingTimezone env first) start₁ stop₁)
    (hclock₂ : RegularClock (workingTimezone env first) start₂ stop₂) (htimes : TimesOfDay env)
    (tpl : RecurringTemplate) (date : ℤ)
    (hdep₁ : Departs env first.depotId (workingTimezone env first) start₁ stop₁ tpl date)
    (hdep₂ : Departs env first.depotId (workingTimezone env first) start₂ stop₂ tpl date) :
    (Includes env first start₁ stop₁ (tpl.occurrence (workingTimezone env first) date) ↔
      Includes env second start₂ stop₂ (tpl.occurrence (workingTimezone env first) date)) ↔
    (OverriddenIn env first.depotId (workingTimezone env first) start₁ stop₁ tpl.vehicleId date ↔
      OverriddenIn env first.depotId (workingTimezone env first) start₂ stop₂ tpl.vehicleId date) := by
  have hfirst := includes_iff hok hclock₁ htimes hdep₁
  have hsecond : Includes env second start₂ stop₂
        (tpl.occurrence (workingTimezone env second) date) ↔
      ¬ OverriddenIn env second.depotId (workingTimezone env second) start₂ stop₂ tpl.vehicleId date := by
    apply includes_iff hok
    · rw [hzone]
      exact hclock₂
    · exact htimes
    · rw [hdepot, hzone]
      exact hdep₂
  rw [hzone, hdepot] at hsecond
  rw [hfirst, hsecond]
  exact not_iff_not

def eveningTemplate : RecurringTemplate where
  templateId := "evening"
  depotId := "depot"
  vehicleId := "bus_1"
  routeId := "r1"
  departureTimeOfDay := 18 * 3600
  returnTimeOfDay := 22 * 3600
  daysOfWeek := [.mon, .tue, .wed, .thu, .fri, .sat, .sun]
  startDate := 0
  endDate := none
  requiredSoc := 4 / 5
  energyKwh := none
  active := true
  createdAt := -1000

example : (eveningTemplate.occurrence .utc 1).trip.departureTime = 42 * 3600 := by decide +kernel

/-- A newer manual row of day 0, from 8 to 12 o'clock. -/
def overriddenEnvironment : Environment :=
  { idleEnvironment with
    schedules := [⟨busTrip 8 12, -500⟩]
    templates := [eveningTemplate] }

theorem timesOfDay_overridden : TimesOfDay overriddenEnvironment := by
  intro tpl htpl
  obtain rfl := List.mem_singleton.mp htpl
  exact ⟨by decide +kernel, by decide +kernel⟩

theorem departs_evening {start stop : ℚ} (hlo : start ≤ 18 * 3600) (hhi : 18 * 3600 < stop) :
    Departs overriddenEnvironment "depot" .utc start stop eveningTemplate 0 := by
  have htime : (eveningTemplate.occurrence .utc 0).trip.departureTime = 18 * 3600 := by
    decide +kernel
  refine ⟨List.mem_singleton.mpr rfl, rfl, by decide +kernel, ?_, ?_⟩
  · rw [htime]
    exact hlo
  · rw [htime]
    exact hhi

/-- The manual row overrides the evening trip in a horizon that contains its own departure. -/
theorem overridden_evening {start stop : ℚ} (hlo : start ≤ 8 * 3600) (hhi : 8 * 3600 < stop) :
    OverriddenIn overriddenEnvironment "depot" .utc start stop "bus_1" 0 := by
  refine ⟨⟨busTrip 8 12, -500⟩, List.mem_singleton.mpr rfl, rfl, by decide, by decide +kernel,
    hlo, hhi, ?_⟩
  intro tpl hdep _
  obtain rfl := List.mem_singleton.mp hdep.stored
  decide +kernel

/-- Assemblies at midnight and at 6 o'clock both leave the overridden evening trip out. -/
theorem included_in_neither :
    Includes overriddenEnvironment (.init "depot" loadedConfig) 0 (24 * 3600)
      (eveningTemplate.occurrence .utc 0) ↔
    Includes overriddenEnvironment (.init "depot" loadedConfig) (6 * 3600) (30 * 3600)
      (eveningTemplate.occurrence .utc 0) := by
  refine (included_iff overriddenEnvironment (.init "depot" loadedConfig) (.init "depot" loadedConfig)
    rfl rfl rfl _ _ _ _ (regularClock_utc _ _) (regularClock_utc _ _) timesOfDay_overridden eveningTemplate 0
    (departs_evening (by norm_num) (by norm_num)) (departs_evening (by norm_num) (by norm_num))).mpr ?_
  exact iff_of_true (overridden_evening (by norm_num) (by norm_num))
    (overridden_evening (by norm_num) (by norm_num))

/-- An assembly at midnight leaves the evening trip out for the manual row; one at 10 o'clock, after
that row has departed, includes it. -/
theorem overridden_trip_returns :
    (exec (getSchedules overriddenEnvironment 0 (24 * 3600)) (.init "depot" loadedConfig)).1 =
      .ok [busTrip 8 12] ∧
    (exec (getSchedules overriddenEnvironment (10 * 3600) (34 * 3600)) (.init "depot" loadedConfig)).1 =
      .ok [(eveningTemplate.occurrence .utc 0).trip] ∧
    ¬ (Includes overriddenEnvironment (.init "depot" loadedConfig) 0 (24 * 3600)
        (eveningTemplate.occurrence .utc 0) ↔
      Includes overriddenEnvironment (.init "depot" loadedConfig) (10 * 3600) (34 * 3600)
        (eveningTemplate.occurrence .utc 0)) := by
  refine ⟨by decide +kernel, by decide +kernel, ?_⟩
  have hfirst : ¬ Includes overriddenEnvironment (.init "depot" loadedConfig) 0 (24 * 3600)
      (eveningTemplate.occurrence .utc 0) := by
    intro hinc
    exact (@includes_iff overriddenEnvironment _ _ (.init "depot" loadedConfig) rfl (regularClock_utc _ _)
      timesOfDay_overridden eveningTemplate 0
      (departs_evening (by norm_num) (by norm_num))).mp hinc
      (overridden_evening (by norm_num) (by norm_num))
  have hsecond : Includes overriddenEnvironment (.init "depot" loadedConfig) (10 * 3600) (34 * 3600)
      (eveningTemplate.occurrence .utc 0) := by
    obtain ⟨after, hcall, _⟩ := exec_getSchedules overriddenEnvironment (10 * 3600) (34 * 3600)
      (.init "depot" loadedConfig) rfl
    exact ⟨_, after, hcall, rfl, by decide +kernel⟩
  intro hiff
  exact hfirst (hiff.mpr hsecond)

end FavoniusBackend.State.ScheduleSelection
