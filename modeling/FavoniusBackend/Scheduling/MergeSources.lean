import FavoniusBackend.Scheduling.Tiebreak

/-!
# One source for every vehicle and day

`merge_recurring_with_manual` flattens its buckets and sorts what comes out.  Followed on rows that carry their origin, the
flattened rows of one vehicle and one local date are exactly those of the source that won that day (`filter_mergedRows`),
so the merge loses and repeats nothing, and since a winner depends on the rows of its day and not on their order, neither
does the merge as a multiset (`mergedRows_perm`).
-/

namespace FavoniusBackend.Scheduling.Tiebreak

open Lib Lib.Sql Optimizer.Models
open Scheduling.Recurring

/-! ### Lists by key -/

section ByKey

variable {α κ ν : Type} [DecidableEq κ] (keyOf : α → κ)

theorem perm_of_filter_perm [DecidableEq α] {rows rows' : List α}
    (h : ∀ key, (rows.filter fun a => keyOf a = key).Perm (rows'.filter fun a => keyOf a = key)) :
    rows.Perm rows' := by
  rw [List.perm_iff_count]
  intro a
  have hcount := (h (keyOf a)).count_eq a
  rwa [List.count_filter (by simp), List.count_filter (by simp)] at hcount

theorem filter_flatMap_of_key (f : ν → List α) (key : κ) (entries : List (κ × ν))
    (hkey : ∀ p ∈ entries, ∀ a ∈ f p.2, keyOf a = p.1) :
    (entries.flatMap fun p => f p.2).filter (fun a => keyOf a = key) =
      (entries.filter fun p => p.1 = key).flatMap fun p => f p.2 := by
  induction entries with
  | nil => rfl
  | cons p rest ih =>
    rw [List.flatMap_cons, List.filter_append, ih fun q hq => hkey q (List.mem_cons_of_mem _ hq)]
    have hhead : ∀ a ∈ f p.2, keyOf a = p.1 := hkey p List.mem_cons_self
    by_cases hp : p.1 = key
    · have hall : (f p.2).filter (fun a => keyOf a = key) = f p.2 := by
        apply List.filter_eq_self.mpr
        intro a ha
        simp [hhead a ha, hp]
      simp [hp, hall]
    · have hnone : (f p.2).filter (fun a => keyOf a = key) = [] := by
        apply List.filter_eq_nil_iff.mpr
        intro a ha
        simp [hhead a ha, hp]
      simp [hp, hnone]

end ByKey

/-! ### The rows of one day -/

def MergedRow.key (tz : ZoneInfo) : MergedRow → VehicleId × ℤ
  | .manual row => manualKey tz row
  | .recurring row => recurringKey row

section Sources

variable (manualRows : List ManualRow) (recurringRows : List RecurringRow) (tz : ZoneInfo)

def manualAt (key : VehicleId × ℤ) : List ManualRow := manualRows.filter fun row => manualKey tz row = key

def recurringAt (key : VehicleId × ℤ) : List RecurringRow := recurringRows.filter fun row => recurringKey row = key

/-- The manual rows of the key stand: it has no recurring row, or its newest manual row is at least as new as its newest
template. -/
def ManualStands (key : VehicleId × ℤ) : Prop :=
  recurringAt recurringRows key = [] ∨
    ∃ manualLatest ∈ ((manualAt manualRows tz key).map ManualRow.createdAt).max?,
      ∃ recurringLatest ∈ ((recurringAt recurringRows key).map RecurringRow.createdAt).max?,
        recurringLatest ≤ manualLatest

instance (key : VehicleId × ℤ) : Decidable (ManualStands manualRows recurringRows tz key) :=
  inferInstanceAs (Decidable (recurringAt recurringRows key = [] ∨
    ∃ manualLatest ∈ ((manualAt manualRows tz key).map ManualRow.createdAt).max?,
      ∃ recurringLatest ∈ ((recurringAt recurringRows key).map RecurringRow.createdAt).max?,
        recurringLatest ≤ manualLatest))

def sourceRows (key : VehicleId × ℤ) : List MergedRow :=
  if ManualStands manualRows recurringRows tz key then (manualAt manualRows tz key).map .manual
  else (recurringAt recurringRows key).map .recurring

theorem winnerRows_bucketAt (key : VehicleId × ℤ) :
    Bucket.winnerRows (bucketAt manualRows recurringRows tz key) = sourceRows manualRows recurringRows tz key := by
  unfold Bucket.winnerRows bucketAt sourceRows
  dsimp only
  rw [← manualAt, ← recurringAt]
  split
  next manualLatest recurringLatest hmanual hrecurring =>
    have hne : recurringAt recurringRows key ≠ [] := by
      intro hnil
      simp [hnil] at hrecurring
    have hstands : ManualStands manualRows recurringRows tz key ↔ recurringLatest ≤ manualLatest := by
      simp [ManualStands, hne, hmanual, hrecurring]
    simp only [hstands]
  next manualLatest hmanual hrecurring =>
    have hnil : recurringAt recurringRows key = [] := by simpa using hrecurring
    have hstands : ManualStands manualRows recurringRows tz key := Or.inl hnil
    rw [if_pos hstands]
  next hmanual =>
    have hnil : manualAt manualRows tz key = [] := by simpa using hmanual
    split
    next hstands =>
      have hrecurring : recurringAt recurringRows key = [] := by
        rcases hstands with hstands | ⟨manualLatest, hmem, _⟩
        · exact hstands
        · simp [hnil] at hmem
      rw [hnil, hrecurring]
      rfl
    next => rfl

theorem sourceRows_key (key : VehicleId × ℤ) {row : MergedRow}
    (hrow : row ∈ sourceRows manualRows recurringRows tz key) : row.key tz = key := by
  unfold sourceRows at hrow
  split at hrow
  · obtain ⟨m, hm, rfl⟩ := List.mem_map.mp hrow
    simpa [manualAt, MergedRow.key] using (List.mem_filter.mp hm).2
  · obtain ⟨r, hr, rfl⟩ := List.mem_map.mp hrow
    simpa [recurringAt, MergedRow.key] using (List.mem_filter.mp hr).2

/-- **One source a day**: the merged rows of a key are the rows of the source that stands there. -/
theorem filter_mergedRows (key : VehicleId × ℤ) :
    (mergedRows manualRows recurringRows tz).filter (fun row => row.key tz = key) =
      sourceRows manualRows recurringRows tz key := by
  have hentries : ∀ p ∈ (byKey manualRows recurringRows tz).items, p.2 = bucketAt manualRows recurringRows tz p.1 := by
    intro p hp
    rw [← getD_byKey, Dict.getD, Dict.mem_items_iff.mp hp]
    rfl
  have hkey : ∀ p ∈ (byKey manualRows recurringRows tz).items, ∀ row ∈ Bucket.winnerRows p.2, row.key tz = p.1 := by
    intro p hp row hrow
    rw [hentries p hp, winnerRows_bucketAt] at hrow
    exact sourceRows_key manualRows recurringRows tz p.1 hrow
  have hflat := filter_flatMap_of_key (MergedRow.key tz) Bucket.winnerRows key _ hkey
  rw [Dict.filter_items] at hflat
  rw [mergedRows, Dict.values, List.flatMap_map, hflat, ← winnerRows_bucketAt, ← getD_byKey, Dict.getD]
  cases (byKey manualRows recurringRows tz).get? key with
  | none => rfl
  | some bucket => simp

end Sources

/-! ### The order of the inputs -/

section Order

variable {manualRows manualRows' : List ManualRow} {recurringRows recurringRows' : List RecurringRow} {tz : ZoneInfo}

theorem max?_perm {l l' : List ℚ} (h : l.Perm l') : l.max? = l'.max? := by
  ext latest
  rw [List.max?_eq_some_iff, List.max?_eq_some_iff, h.mem_iff]
  simp only [h.mem_iff]

theorem manualStands_perm (hmanual : manualRows.Perm manualRows') (hrecurring : recurringRows.Perm recurringRows')
    (key : VehicleId × ℤ) :
    ManualStands manualRows recurringRows tz key ↔ ManualStands manualRows' recurringRows' tz key := by
  have hm : (manualAt manualRows tz key).Perm (manualAt manualRows' tz key) := hmanual.filter _
  have hr : (recurringAt recurringRows key).Perm (recurringAt recurringRows' key) := hrecurring.filter _
  have hnil : recurringAt recurringRows key = [] ↔ recurringAt recurringRows' key = [] := by
    rw [← List.length_eq_zero_iff, hr.length_eq, List.length_eq_zero_iff]
  unfold ManualStands
  rw [hnil, max?_perm (hm.map ManualRow.createdAt), max?_perm (hr.map RecurringRow.createdAt)]

/-- **The merged rows do not depend on the order of the inputs.** -/
theorem mergedRows_perm (hmanual : manualRows.Perm manualRows') (hrecurring : recurringRows.Perm recurringRows') :
    (mergedRows manualRows recurringRows tz).Perm (mergedRows manualRows' recurringRows' tz) := by
  apply perm_of_filter_perm (MergedRow.key tz)
  intro key
  rw [filter_mergedRows, filter_mergedRows]
  unfold sourceRows
  simp only [manualStands_perm hmanual hrecurring key]
  split
  · exact (hmanual.filter _).map _
  · exact (hrecurring.filter _).map _

end Order

/-! ### The merge -/

instance : Std.Total Trip.departsBefore := ⟨fun a b => le_total a.departureTime b.departureTime⟩

instance : IsTrans Trip Trip.departsBefore := ⟨fun _ _ _ => le_trans⟩

/-- The trips are those of rows that hold, for every vehicle and local date, the rows of one source. -/
def OneSourceEach (manualRows : List ManualRow) (recurringRows : List RecurringRow) (tz : ZoneInfo)
    (merged : List Trip) : Prop :=
  ∃ rows : List MergedRow, merged = rows.map MergedRow.trip ∧
    ∀ key, (rows.filter fun row => row.key tz = key).Perm (sourceRows manualRows recurringRows tz key)

/-- **The merge**: sorted by departure, exactly the rows of one source for every vehicle and local date, and the same
multiset for every order of the inputs. -/
theorem merge_one_source_each (manualRows : List ManualRow) (recurringRows : List RecurringRow) (tz : ZoneInfo) :
    (mergeRecurringWithManual manualRows recurringRows tz).Pairwise Trip.departsBefore ∧
      OneSourceEach manualRows recurringRows tz (mergeRecurringWithManual manualRows recurringRows tz) ∧
      ∀ (manualRows' : List ManualRow) (recurringRows' : List RecurringRow),
        manualRows'.Perm manualRows → recurringRows'.Perm recurringRows →
          (mergeRecurringWithManual manualRows' recurringRows' tz).Perm
            (mergeRecurringWithManual manualRows recurringRows tz) := by
  rw [mergeRecurringWithManual_eq]
  refine ⟨orderBy_pairwise _ _, ?_, ?_⟩
  · -- the rows sorted by their trips
    let rows := (mergedRows manualRows recurringRows tz).insertionSort fun a b => a.trip.departsBefore b.trip
    refine ⟨rows, ?_, ?_⟩
    · exact (List.map_insertionSort _ _ MergedRow.trip _ fun _ _ _ _ => Iff.rfl).symm
    · intro key
      rw [← filter_mergedRows]
      exact (List.perm_insertionSort _ _).filter _
  · intro manualRows' recurringRows' hmanual hrecurring
    rw [mergeRecurringWithManual_eq]
    have hmerged : (mergedRows manualRows' recurringRows' tz).Perm (mergedRows manualRows recurringRows tz) :=
      mergedRows_perm hmanual hrecurring
    have hrows := hmerged.map MergedRow.trip
    exact ((List.perm_insertionSort _ _).trans hrows).trans (List.perm_insertionSort _ _).symm

end FavoniusBackend.Scheduling.Tiebreak
