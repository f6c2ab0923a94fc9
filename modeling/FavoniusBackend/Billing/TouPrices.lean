import FavoniusBackend.Billing.TariffReplacement

/-!
# The price at an instant

`create_time_of_use_tariff` numbers the days of the week from Sunday, and its off-peak periods end on the next morning.
`calculate_tou_multiplier` numbers the days from Monday and takes a period only between its two times, so a period that
ends before it starts is never taken.

`touPrices_iff` says at which instants the price is the one that was meant.  Whether 18:00:00 itself belongs to the peak, and
for which day the hours after midnight count, is left open.
-/

namespace FavoniusBackend.Billing

open Lib
open Lib.Numeric
open Lib.Sql
open Lib.Stateful
open Reports (microsPerDay dateOf)

/-! ## What is meant -/

/-- Monday to Friday between 08:00 and 18:00. -/
def InPeakHours (closing : Bool) (t : ℤ) : Prop :=
  (dateOf t).weekday ≤ 4 ∧ clockTime 8 0 0 ≤ timeOf t ∧
    (timeOf t < clockTime 18 0 0 ∨ closing = true ∧ timeOf t = clockTime 18 0 0)

instance (closing : Bool) (t : ℤ) : Decidable (InPeakHours closing t) := inferInstanceAs (Decidable (_ ∧ _ ∧ (_ ∨ _)))

def meantPrice (closing : Bool) (peakPrice offPeakPrice : ℚ) (t : ℤ) : ℚ :=
  if InPeakHours closing t then peakPrice else offPeakPrice

def effectivePrice (db : TariffDb) (tariffId : TariffId) (t : ℤ) : Option ℚ :=
  (getTariffElements db tariffId t).head?.map fun element => adjustedPrice (getTouPeriods db tariffId) element t

/-- The times that a period which ends before it starts is meant to cover, from its start over midnight to its end. -/
def MeantToCover (attributed : Calendar.Date → Calendar.Date) (period : TouPeriod) (t : ℤ) : Prop :=
  period.startTime ≤ timeOf t ∧ period.onDate (dateOf t) = true ∨
    timeOf t ≤ period.endTime ∧ period.onDate (attributed (dateOf t)) = true

/-- Of some periods those that end before they start cover what they are meant to. -/
def WrapsAsMeant (attributed : Calendar.Date → Calendar.Date) (periods : List TouPeriod) (t : ℤ) : Prop :=
  ∀ period ∈ periods, period.endTime < period.startTime → (period.matchesAt t = true ↔ MeantToCover attributed period t)

/-! ## The conditions -/

def storedPrice (price : ℚ) : ℚ := (numericColumn 10 4 price).getD 0

def storedMultiplier (priceMultiplier : ℚ) : ℚ := (numericColumn 5 2 priceMultiplier).getD 0

/-- The days that are read as the weekend, Sunday and Monday, without their last second. -/
def ReadAsWeekend (t : ℤ) : Prop :=
  ((dateOf t).weekday = 0 ∨ (dateOf t).weekday = 6) ∧ timeOf t ≤ clockTime 23 59 59

instance (t : ℤ) : Decidable (ReadAsWeekend t) := inferInstanceAs (Decidable ((_ ∨ _) ∧ _))

/-- In the peak hours of Tuesday to Friday the peak price is stored exactly, outside the peak hours of Sunday and Monday the
rounded multiplier gives the off-peak price back; anywhere else the price that is read happens to be the one that is
meant. -/
def PricedAsMeant (closing : Bool) (peakPrice offPeakPrice : ℚ) (t : ℤ) : Prop :=
  if InPeakHours closing t then
    if (dateOf t).weekday = 0 then storedPrice peakPrice * storedMultiplier (offPeakPrice / peakPrice) = peakPrice
    else storedPrice peakPrice = peakPrice
  else if ReadAsWeekend t then storedPrice peakPrice * storedMultiplier (offPeakPrice / peakPrice) = offPeakPrice
  else storedPrice peakPrice = offPeakPrice

/-! ## What is stored -/

/-- The tariff of a call has no rows yet, and the ids that are drawn are new. -/
structure FreshIds (db : TariffDb) (c : Call) : Prop where
  elements : rowsOf db.tariffElements c.tariffId = []
  periods : rowsOf db.touPeriods c.tariffId = []
  elementId : db.tariffElements.get? (c.readings 1).uuid = none
  periodIds : ∀ n, 2 ≤ n → n < 14 → db.touPeriods.get? (c.readings n).uuid = none
  distinct : ∀ n m, 2 ≤ n → n < 14 → 2 ≤ m → m < 14 → (c.readings n).uuid = (c.readings m).uuid → n = m

def touColumns (priceMultiplier : ℚ) : List TouPeriod :=
  (([1, 2, 3, 4, 5] : List ℤ).map fun d => ⟨clockTime 8 0 0, clockTime 18 0 0, some d, none, none, 1⟩) ++
    (([1, 2, 3, 4, 5] : List ℤ).map fun d => ⟨clockTime 18 0 0, clockTime 8 0 0, some d, none, none, priceMultiplier⟩) ++
      ([6, 0] : List ℤ).map fun d => ⟨clockTime 0 0 0, clockTime 23 59 59, some d, none, none, priceMultiplier⟩

def numbered : ℕ → List β → List (Entry β)
  | _, [] => []
  | n, c :: rest => ⟨n, none, c⟩ :: numbered (n + 1) rest

theorem entriesOf_eq_numbered {α : Type} {id : α → Option String} {columns : α → Option β} {n : ℕ} {data : List (Option α)}
    {cs : List β} (h : List.Forall₂ (fun entry c => ∃ a, entry = some a ∧ givenId (id a) = none ∧ columns a = some c) data cs) :
    entriesOf id columns n data = numbered n cs := by
  induction h generalizing n with
  | nil => rfl
  | cons hentry _ ih =>
    obtain ⟨a, rfl, hid, hc⟩ := hentry
    rw [entriesOf, numbered, ih, Option.bind_some, hc, Option.map_some, hid]
    rfl

theorem mem_numbered {n : ℕ} {cs : List β} {e : Entry β} (h : e ∈ numbered n cs) :
    n ≤ e.number ∧ e.number < n + cs.length ∧ e.given = none := by
  induction cs generalizing n with
  | nil => exact absurd h List.not_mem_nil
  | cons c rest ih =>
    rw [List.length_cons]
    rcases List.mem_cons.mp h with rfl | hrest
    · exact ⟨le_rfl, Nat.lt_add_of_pos_right (Nat.succ_pos _), rfl⟩
    · obtain ⟨hlo, hhi, hnone⟩ := ih hrest
      exact ⟨by omega, by omega, hnone⟩

theorem key_of_mem_numbered {n : ℕ} {cs : List β} {e : Entry β} (h : e ∈ numbered n cs) : e.key = .inr e.number := by
  rw [Entry.key, (mem_numbered h).2.2]
  rfl

theorem map_columns_numbered (n : ℕ) (cs : List β) : (numbered n cs).map Entry.columns = cs := by
  induction cs generalizing n with
  | nil => rfl
  | cons c rest ih => rw [numbered, List.map_cons, ih]

theorem nodup_keys_numbered (n : ℕ) (cs : List β) : ((numbered n cs).map Entry.key).Nodup := by
  induction cs generalizing n with
  | nil => exact List.nodup_nil
  | cons c rest ih =>
    rw [numbered, List.map_cons, List.nodup_cons]
    refine ⟨fun hmem => ?_, ih (n + 1)⟩
    obtain ⟨e, he, hkey⟩ := List.mem_map.mp hmem
    have hsame : e.number = n := Sum.inr.inj ((key_of_mem_numbered he).symm.trans hkey)
    have hlo := (mem_numbered he).1
    omega

theorem placed_numbered (n : ℕ) (cs : List β) : placed (numbered n cs) = cs := by
  have hnodup : (((numbered n cs).map fun e => (e.key, e.columns)).map Prod.fst).Nodup := by
    rw [List.map_map]
    exact nodup_keys_numbered n cs
  rw [placed, Dict.values_ofList_of_nodup hnodup, List.map_map]
  exact map_columns_numbered n cs

theorem fits_numbered {readings : ℕ → Reading} {tariffId : TariffId} {table : Table TariffId β} {n : ℕ} {cs : List β}
    (hrows : rowsOf table tariffId = [])
    (hnew : ∀ i, n ≤ i → i < n + cs.length → table.get? (readings i).uuid = none)
    (hdistinct : ∀ i j, n ≤ i → i < n + cs.length → n ≤ j → j < n + cs.length →
      (readings i).uuid = (readings j).uuid → i = j) : Fits readings tariffId (numbered n cs) table := by
  have hid : ∀ e ∈ numbered n cs, e.id readings = (readings e.number).uuid := by
    intro e he
    rw [Entry.id, (mem_numbered he).2.2]
    rfl
  refine ⟨fun e he e' he' heq => ?_, fun e he row hrow => ?_, ?_⟩
  · obtain ⟨hlo, hhi, -⟩ := mem_numbered he
    obtain ⟨hlo', hhi', -⟩ := mem_numbered he'
    rw [hid e he, hid e' he'] at heq
    rw [key_of_mem_numbered he, key_of_mem_numbered he', hdistinct _ _ hlo hhi hlo' hhi' heq]
  · obtain ⟨hlo, hhi, -⟩ := mem_numbered he
    rw [hid e he, hnew _ hlo hhi] at hrow
    exact nomatch hrow
  · have hnil : (columnsOf table tariffId).keys = [] := by
      have hvalues := map_columns_rowsOf table tariffId
      rw [hrows] at hvalues
      have hitems : (columnsOf table tariffId).items = [] := List.map_eq_nil_iff.mp hvalues.symm
      rw [Dict.keys, hitems]
      rfl
    rw [hnil]
    exact List.nil_prefix

section Stored

variable {c : Call} {tariffId : TariffId} {peakPrice offPeakPrice : ℚ}
  (hdata : c.data = timeOfUseTariff tariffId peakPrice offPeakPrice)

include hdata

theorem prices_of_completes (h : c.Completes) : numericColumn 10 4 peakPrice = some (storedPrice peakPrice) ∧
    numericColumn 5 2 (offPeakPrice / peakPrice) = some (storedMultiplier (offPeakPrice / peakPrice)) := by
  constructor
  · have hmem : some ⟨none, some .energy, some (some peakPrice), some "kWh", none, none⟩ ∈ c.data.elementList := by
      rw [hdata]
      exact List.mem_cons_self
    have hsome := h.elements.2 _ hmem
    unfold storedPrice
    cases hprice : numericColumn 10 4 peakPrice with
    | some p => rfl
    | none => simp [ElementData.columns, hprice] at hsome
  · have hmem : touPeriod (clockTime 0 0 0) (clockTime 23 59 59) 6 "Weekend" (offPeakPrice / peakPrice) ∈
        c.data.periodList := by
      rw [hdata]
      simp [timeOfUseTariff, TariffData.periodList, timeOfUsePeriods]
    have hsome := h.periods.2 _ hmem
    unfold storedMultiplier
    cases hmultiplier : numericColumn 5 2 (offPeakPrice / peakPrice) with
    | some m => rfl
    | none => simp [touPeriod, PeriodData.columns, hmultiplier] at hsome

theorem elementEntries_eq {p : ℚ} (h : numericColumn 10 4 peakPrice = some p) :
    c.data.elementEntries = numbered 1 [⟨.energy, p, "kWh", none, none⟩] := by
  rw [hdata]
  refine entriesOf_eq_numbered (.cons ⟨_, rfl, rfl, ?_⟩ .nil)
  simp [ElementData.columns, h]

omit hdata in
theorem columns_touPeriod {startTime endTime dayOfWeek : ℤ} {name : String} {priceMultiplier m : ℚ}
    (h : numericColumn 5 2 priceMultiplier = some m) :
    ∃ p : PeriodData, touPeriod startTime endTime dayOfWeek name priceMultiplier = some p ∧ givenId p.periodId = none ∧
      p.columns = some ⟨startTime, endTime, some dayOfWeek, none, none, m⟩ := by
  refine ⟨_, rfl, rfl, ?_⟩
  simp [PeriodData.columns, h]

theorem periodEntries_eq {m : ℚ} (h : numericColumn 5 2 (offPeakPrice / peakPrice) = some m) :
    c.data.periodEntries = numbered 2 (touColumns m) := by
  have hone : numericColumn 5 2 1 = some 1 := by decide +kernel
  rw [hdata]
  refine entriesOf_eq_numbered ?_
  iterate 5 refine .cons (columns_touPeriod hone) ?_
  iterate 7 refine .cons (columns_touPeriod h) ?_
  exact .nil

theorem effectivePrice_stored {db : TariffDb} (hfresh : FreshIds db c) (h : c.Completes) (t : ℤ) :
    effectivePrice (c.stored db) c.tariffId t = some (storedPrice peakPrice * calculateTouMultiplier
      (orderBy periodOrder (touColumns (storedMultiplier (offPeakPrice / peakPrice)))) t) := by
  obtain ⟨hprice, hmultiplier⟩ := prices_of_completes hdata h
  have helements : Fits c.readings c.tariffId c.data.elementEntries db.tariffElements := by
    rw [elementEntries_eq hdata hprice]
    refine fits_numbered hfresh.elements (fun i hlo hhi => ?_) fun i j hlo hhi hlo' hhi' _ => ?_
    · rw [List.length_singleton] at hhi
      obtain rfl : i = 1 := by omega
      exact hfresh.elementId
    · rw [List.length_singleton] at hhi hhi'
      omega
  have hperiods : Fits c.readings c.tariffId c.data.periodEntries db.touPeriods := by
    rw [periodEntries_eq hdata hmultiplier]
    exact fits_numbered hfresh.periods hfresh.periodIds hfresh.distinct
  have htimes : (createdTimes (c.stored db).tariffElements c.tariffId).Pairwise (· ≤ ·) := by
    refine createdTimes_storeRows helements.owned ⟨fun e _ t ht => ?_, ?_⟩ ?_
    · rw [createdTimes, hfresh.elements] at ht
      exact absurd ht List.not_mem_nil
    · rw [elementEntries_eq hdata hprice]
      exact List.pairwise_singleton _ _
    · rw [createdTimes, hfresh.elements]
      exact List.Pairwise.nil
  have hplaced : (columnsOf (c.stored db).tariffElements c.tariffId).values = placed c.data.elementEntries :=
    helements.values
  have hplaced' : (columnsOf (c.stored db).touPeriods c.tariffId).values = placed c.data.periodEntries :=
    hperiods.values
  rw [effectivePrice, getTariffElements_eq htimes, getTouPeriods_eq, hplaced, hplaced', elementEntries_eq hdata hprice,
    periodEntries_eq hdata hmultiplier, placed_numbered, placed_numbered]
  rfl

end Stored

/-! ## What is read of the periods -/

theorem calculateTouMultiplier_of_exists {periods : List TouPeriod} {t : ℤ} {m : ℚ}
    (hex : ∃ p ∈ periods, p.matchesAt t = true)
    (hall : ∀ p ∈ periods, p.matchesAt t = true → p.priceMultiplier = m) : calculateTouMultiplier periods t = m := by
  unfold calculateTouMultiplier
  cases hfind : periods.find? fun period => period.matchesAt t with
  | none =>
    obtain ⟨p, hp, hmatches⟩ := hex
    exact absurd hmatches (List.find?_eq_none.mp hfind p hp)
  | some p =>
    have hmatches : p.matchesAt t = true := by simpa using List.find?_some hfind
    exact hall p (List.mem_of_find?_eq_some hfind) hmatches

theorem calculateTouMultiplier_of_default {periods : List TouPeriod} {t : ℤ}
    (hall : ∀ p ∈ periods, p.matchesAt t = true → p.priceMultiplier = 1) : calculateTouMultiplier periods t = 1 := by
  by_cases hex : ∃ p ∈ periods, p.matchesAt t = true
  · exact calculateTouMultiplier_of_exists hex hall
  · unfold calculateTouMultiplier
    push Not at hex
    rw [List.find?_eq_none.mpr hex]
    rfl

theorem matchesAt_iff {startTime endTime dayOfWeek : ℤ} {m : ℚ} {t : ℤ} :
    (⟨startTime, endTime, some dayOfWeek, none, none, m⟩ : TouPeriod).matchesAt t = true ↔
      (startTime ≤ timeOf t ∧ timeOf t ≤ endTime) ∧ dayOfWeek = (dateOf t).weekday := by
  simp [TouPeriod.matchesAt, TouPeriod.onDate]

theorem not_matchesAt_of_wraps {p : TouPeriod} (h : p.endTime < p.startTime) (t : ℤ) : ¬ p.matchesAt t = true := by
  intro hmatches
  rw [TouPeriod.matchesAt, Bool.and_eq_true, decide_eq_true_eq] at hmatches
  exact absurd (hmatches.1.1.trans hmatches.1.2) (not_le.mpr h)

theorem calculateTouMultiplier_touColumns (m : ℚ) (t : ℤ) :
    calculateTouMultiplier (orderBy periodOrder (touColumns m)) t = if ReadAsWeekend t then m else 1 := by
  have hmem : ∀ p, p ∈ orderBy periodOrder (touColumns m) ↔ p ∈ touColumns m := fun _ => mem_orderBy
  by_cases h : ReadAsWeekend t
  · rw [if_pos h]
    obtain ⟨hday, htime⟩ := h
    have hstart : 0 ≤ timeOf t := Int.emod_nonneg _ (by decide)
    refine calculateTouMultiplier_of_exists ?_ fun p hp hmatches => ?_
    · refine ⟨⟨clockTime 0 0 0, clockTime 23 59 59, some (dateOf t).weekday, none, none, m⟩, ?_,
        matchesAt_iff.mpr ⟨⟨hstart, htime⟩, rfl⟩⟩
      rw [hmem]
      refine List.mem_append_right _ (List.mem_map.mpr ⟨(dateOf t).weekday, ?_, rfl⟩)
      rcases hday with hday | hday <;> simp [hday]
    · rw [hmem, touColumns, List.mem_append, List.mem_append, List.mem_map, List.mem_map, List.mem_map] at hp
      obtain (⟨d, hd, rfl⟩ | ⟨d, -, rfl⟩) | ⟨d, -, rfl⟩ := hp
      · -- the peak periods are on none of the two days
        have hweekday := (matchesAt_iff.mp hmatches).2
        simp only [List.mem_cons, List.not_mem_nil, or_false] at hd
        omega
      · rfl
      · rfl
  · rw [if_neg h]
    refine calculateTouMultiplier_of_default fun p hp hmatches => ?_
    rw [hmem, touColumns, List.mem_append, List.mem_append, List.mem_map, List.mem_map, List.mem_map] at hp
    obtain (⟨d, -, rfl⟩ | ⟨d, -, rfl⟩) | ⟨d, hd, rfl⟩ := hp
    · rfl
    · have hwraps : clockTime 8 0 0 < clockTime 18 0 0 := by decide
      exact absurd hmatches (not_matchesAt_of_wraps hwraps t)
    · obtain ⟨⟨-, htime⟩, hweekday⟩ := matchesAt_iff.mp hmatches
      simp only [List.mem_cons, List.not_mem_nil, or_false] at hd
      exact absurd ⟨by omega, htime⟩ h

/-! ## The price at every instant -/

theorem readAsWeekend_of_inPeakHours {closing : Bool} {t : ℤ} (h : InPeakHours closing t) :
    ReadAsWeekend t ↔ (dateOf t).weekday = 0 := by
  obtain ⟨hday, -, htime⟩ := h
  have hlast : timeOf t ≤ clockTime 23 59 59 := by
    have hnumbers : clockTime 18 0 0 ≤ clockTime 23 59 59 := by decide
    rcases htime with hlt | ⟨-, heq⟩ <;> omega
  constructor
  · rintro ⟨hweekend | hweekend, -⟩
    · exact hweekend
    · omega
  · exact fun hmonday => ⟨.inl hmonday, hlast⟩

/-- The call of `create_time_of_use_tariff`. -/
def touCall (stationId : StationId) (tariffId : TariffId) (peakPrice offPeakPrice : ℚ) (readings : ℕ → Reading) : Call :=
  ⟨stationId, timeOfUseTariff tariffId peakPrice offPeakPrice, readings⟩

/-- A tariff of the call is stored in a database, and its price at an instant is the one that is meant. -/
def PriceMeant (closing : Bool) (c : Call) (db : TariffDb) (peakPrice offPeakPrice : ℚ) (t : ℤ) : Prop :=
  effectivePrice (exec (setTariff c.stationId c.data c.readings) db).2 c.tariffId t =
    some (meantPrice closing peakPrice offPeakPrice t)

/-- **Time-of-use prices.**  The price of a tariff that `create_time_of_use_tariff` stored is the one that is meant at exactly
the instants of `PricedAsMeant`; and stored periods that end before they start cover what they are meant to at exactly
the instants that none of them is meant to cover. -/
theorem touPrices_iff (closing : Bool) (attributed : Calendar.Date → Calendar.Date) :
    (∀ stationId tariffId peakPrice offPeakPrice readings db t,
      FreshIds db (touCall stationId tariffId peakPrice offPeakPrice readings) →
      (exec (createTimeOfUseTariff stationId tariffId peakPrice offPeakPrice readings) db).1 = .ok .accepted →
      (PriceMeant closing (touCall stationId tariffId peakPrice offPeakPrice readings) db peakPrice offPeakPrice t ↔
        PricedAsMeant closing peakPrice offPeakPrice t)) ∧
    ∀ periods t, WrapsAsMeant attributed periods t ↔
      ∀ period ∈ periods, period.endTime < period.startTime → ¬ MeantToCover attributed period t := by
  constructor
  · intro stationId tariffId peakPrice offPeakPrice readings db t hfresh haccepted
    have hcompletes : (touCall stationId tariffId peakPrice offPeakPrice readings).Completes := accepted_iff.mp haccepted
    rw [PriceMeant, exec_setTariff_completes hcompletes, effectivePrice_stored rfl hfresh hcompletes, Option.some_inj,
      calculateTouMultiplier_touColumns, meantPrice, PricedAsMeant]
    by_cases hpeak : InPeakHours closing t
    · rw [if_pos hpeak, if_pos hpeak]
      by_cases hmonday : (dateOf t).weekday = 0
      · rw [if_pos hmonday, if_pos ((readAsWeekend_of_inPeakHours hpeak).mpr hmonday)]
      · rw [if_neg hmonday, if_neg fun h => hmonday ((readAsWeekend_of_inPeakHours hpeak).mp h), mul_one]
    · rw [if_neg hpeak, if_neg hpeak]
      by_cases hweekend : ReadAsWeekend t
      · rw [if_pos hweekend, if_pos hweekend]
      · rw [if_neg hweekend, if_neg hweekend, mul_one]
  · intro periods t
    refine forall₃_congr fun period _ hwraps => ?_
    constructor
    · exact fun h hmeant => not_matchesAt_of_wraps hwraps t (h.mpr hmeant)
    · exact fun h => ⟨fun hmatches => absurd hmatches (not_matchesAt_of_wraps hwraps t), fun hmeant => absurd hmeant h⟩

/-! ## A Monday and a Tuesday -/

/-- Readings in which every id that is drawn is longer than the one before. -/
def longerIds (n : ℕ) : Reading := ⟨String.ofList (List.replicate n 'p'), 0, none⟩

/-- Thirty cents at the peak, fifteen else. -/
def exampleCall : Call := touCall "station-1" "T" (3 / 10) (3 / 20) longerIds

theorem freshIds_exampleCall : FreshIds TariffDb.empty exampleCall where
  elements := rfl
  periods := rfl
  elementId := rfl
  periodIds := fun _ _ _ => rfl
  distinct := by
    intro n m _ _ _ _ heq
    have hlists : List.replicate n 'p' = List.replicate m 'p' := String.ofList_injective heq
    have hlength := congrArg List.length hlists
    rwa [List.length_replicate, List.length_replicate] at hlength

def nineOClock (days : ℤ) : ℤ :=
  microsPerDay * ((Calendar.Date.ofParts 2025 3 3).toOrdinal + days) + clockTime 9 0 0

example : nineOClock 1 = nineOClock 0 + microsPerDay := by decide +kernel

/-- On a Tuesday morning the price is the peak price. -/
theorem tuesday_at_peak_price : PriceMeant false exampleCall TariffDb.empty (3 / 10) (3 / 20) (nineOClock 1) :=
  ((touPrices_iff false id).1 "station-1" "T" (3 / 10) (3 / 20) longerIds TariffDb.empty (nineOClock 1)
    freshIds_exampleCall (by decide +kernel)).mpr (by
      rw [PricedAsMeant]
      decide +kernel)

/-- On a Monday morning the price is the off-peak price; and a period from the evening to the morning does not cover the
evening. -/
theorem monday_at_off_peak_price :
    (¬ ∃ closing, ∀ stationId tariffId peakPrice offPeakPrice readings db t, 0 < peakPrice → 0 < offPeakPrice →
      FreshIds db (touCall stationId tariffId peakPrice offPeakPrice readings) →
      (exec (createTimeOfUseTariff stationId tariffId peakPrice offPeakPrice readings) db).1 = .ok .accepted →
      PriceMeant closing (touCall stationId tariffId peakPrice offPeakPrice readings) db peakPrice offPeakPrice t) ∧
    ¬ ∃ attributed, ∀ periods t, WrapsAsMeant attributed periods t := by
  constructor
  · rintro ⟨closing, h⟩
    have hprice := h "station-1" "T" (3 / 10) (3 / 20) longerIds TariffDb.empty (nineOClock 0) (by decide +kernel)
      (by decide +kernel) freshIds_exampleCall (by decide +kernel)
    have hread : effectivePrice (exec (setTariff exampleCall.stationId exampleCall.data exampleCall.readings)
        TariffDb.empty).2 exampleCall.tariffId (nineOClock 0) = some (3 / 20) := by decide +kernel
    have hmeant : meantPrice closing (3 / 10) (3 / 20) (nineOClock 0) = 3 / 10 := by
      cases closing with
      | false => decide +kernel
      | true => decide +kernel
    have heq := hread.symm.trans hprice
    rw [hmeant] at heq
    exact absurd heq (by decide +kernel)
  · rintro ⟨attributed, h⟩
    let night : TouPeriod := ⟨clockTime 18 0 0, clockTime 8 0 0, none, none, none, 1 / 2⟩
    have hcovers := (h [night] (clockTime 20 0 0) night List.mem_cons_self (by decide)).mpr
      (.inl ⟨by decide, by decide +kernel⟩)
    exact absurd hcovers (by decide +kernel)

end FavoniusBackend.Billing
