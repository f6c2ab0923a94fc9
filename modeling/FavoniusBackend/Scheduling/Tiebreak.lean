import FavoniusBackend.Scheduling.Recurring

/-!
# The tiebreak between manual and recurring trips

`merge_recurring_with_manual` files both kinds of rows under vehicle and local date and lets the newer
side of each bucket win.  The rows it returns have lost their origin, so the merge is followed here on
rows that still carry it (`mergedRows`), of which the returned trips are the sorted image.

Which rows win is a statement about the rows alone: the manual rows of a bucket win when one of them is
at least as new as every recurring row of the bucket (`Outranked`).
-/

namespace FavoniusBackend.Scheduling.Tiebreak

open Lib Lib.Sql Optimizer.Models
open Scheduling.Recurring

inductive MergedRow
  | manual (row : ManualRow)
  | recurring (row : RecurringRow)
  deriving DecidableEq

def MergedRow.trip : MergedRow → Trip
  | .manual row => row.trip
  | .recurring row => row.trip

def manualKey (tz : ZoneInfo) (row : ManualRow) : VehicleId × ℤ :=
  (row.trip.vehicleId, tz.localDate row.trip.departureTime)

def recurringKey (row : RecurringRow) : VehicleId × ℤ := (row.trip.vehicleId, row.occurrenceDate)

/-! ### What a bucket holds -/

theorem foldl_manual (rows : List ManualRow) (bucket : Bucket) :
    rows.foldl (fun b row => { b with manual := b.manual ++ [row] }) bucket =
      { bucket with manual := bucket.manual ++ rows } := by
  induction rows generalizing bucket with
  | nil => simp
  | cons row rest ih =>
    rw [List.foldl_cons, ih]
    simp

theorem foldl_recurring (rows : List RecurringRow) (bucket : Bucket) :
    rows.foldl (fun b row => { b with recurring := b.recurring ++ [row] }) bucket =
      { bucket with recurring := bucket.recurring ++ rows } := by
  induction rows generalizing bucket with
  | nil => simp
  | cons row rest ih =>
    rw [List.foldl_cons, ih]
    simp

section Merge

variable (manualRows : List ManualRow) (recurringRows : List RecurringRow) (tz : ZoneInfo)

/-- `by_key` after both loops. -/
def byKey : Buckets :=
  recurringRows.foldl Buckets.addRecurring (manualRows.foldl (Buckets.addManual tz) Dict.empty)

def bucketAt (key : VehicleId × ℤ) : Bucket :=
  ⟨manualRows.filter fun row => manualKey tz row = key,
    recurringRows.filter fun row => recurringKey row = key⟩

/-- **The buckets**: under each key exactly the rows of that key. -/
theorem getD_byKey (key : VehicleId × ℤ) :
    (byKey manualRows recurringRows tz).getD key .empty = bucketAt manualRows recurringRows tz key := by
  have hmanual := Dict.getD_foldl_group (manualKey tz)
    (fun (b : Bucket) row => { b with manual := b.manual ++ [row] }) .empty manualRows Dict.empty key
  have hrecurring := Dict.getD_foldl_group recurringKey
    (fun (b : Bucket) row => { b with recurring := b.recurring ++ [row] }) .empty recurringRows
    (manualRows.foldl (Buckets.addManual tz) Dict.empty) key
  rw [foldl_manual] at hmanual
  rw [foldl_recurring] at hrecurring
  refine hrecurring.trans ?_
  rw [show (manualRows.foldl (Buckets.addManual tz) Dict.empty).getD key .empty = _ from hmanual]
  simp [Dict.getD, Bucket.empty, bucketAt]

end Merge

/-! ### Who wins a bucket -/

def Outranked (manual : List ManualRow) (recurring : List RecurringRow) : Prop :=
  ∃ m ∈ manual, ∀ r ∈ recurring, r.createdAt ≤ m.createdAt

theorem outranked_iff_of_max {manual : List ManualRow} {recurring : List RecurringRow} {latest : ℚ}
    (hmax : (manual.map ManualRow.createdAt).max? = some latest) :
    Outranked manual recurring ↔ ∀ r ∈ recurring, r.createdAt ≤ latest := by
  rw [List.max?_eq_some_iff] at hmax
  obtain ⟨hmem, hle⟩ := hmax
  refine ⟨?_, ?_⟩
  · rintro ⟨m, hm, hall⟩ r hr
    exact (hall r hr).trans (hle _ (List.mem_map_of_mem hm))
  · intro hall
    obtain ⟨m, hm, rfl⟩ := List.mem_map.mp hmem
    exact ⟨m, hm, hall⟩

def Bucket.winnerRows (bucket : Bucket) : List MergedRow :=
  match (bucket.manual.map ManualRow.createdAt).max?,
      (bucket.recurring.map RecurringRow.createdAt).max? with
  | some manualLatest, some recurringLatest =>
    if recurringLatest ≤ manualLatest then bucket.manual.map .manual
    else bucket.recurring.map .recurring
  | some _, none => bucket.manual.map .manual
  | none, _ => bucket.recurring.map .recurring

theorem winner_eq (bucket : Bucket) :
    bucket.winner = (Bucket.winnerRows bucket).map MergedRow.trip := by
  have hmanual : bucket.manual.map ManualRow.trip =
      (bucket.manual.map MergedRow.manual).map MergedRow.trip := by
    rw [List.map_map]
    rfl
  have hrecurring : bucket.recurring.map RecurringRow.trip =
      (bucket.recurring.map MergedRow.recurring).map MergedRow.trip := by
    rw [List.map_map]
    rfl
  unfold Bucket.winner Bucket.winnerRows
  cases (bucket.manual.map ManualRow.createdAt).max? with
  | none => exact hrecurring
  | some manualLatest =>
    cases (bucket.recurring.map RecurringRow.createdAt).max? with
    | none => exact hmanual
    | some recurringLatest =>
      by_cases hle : recurringLatest ≤ manualLatest
      · simp only [if_pos hle, hmanual]
      · simp only [if_neg hle, hrecurring]

/-- **The winner**: the manual rows when they outrank the recurring ones, else the recurring ones. -/
theorem winnerRows_of_outranked (bucket : Bucket) (h : Outranked bucket.manual bucket.recurring) :
    Bucket.winnerRows bucket = bucket.manual.map .manual := by
  unfold Bucket.winnerRows
  split
  next manualLatest recurringLatest hmanual hrecurring =>
    have hle : recurringLatest ≤ manualLatest := by
      obtain ⟨r, hr, rfl⟩ := List.mem_map.mp (List.max?_mem hrecurring)
      exact (outranked_iff_of_max hmanual).mp h r hr
    rw [if_pos hle]
  next => rfl
  next hmanual =>
    obtain ⟨m, hm, _⟩ := h
    rw [List.max?_eq_none_iff, List.map_eq_nil_iff] at hmanual
    rw [hmanual] at hm
    cases hm

theorem winnerRows_of_not_outranked (bucket : Bucket)
    (h : ¬ Outranked bucket.manual bucket.recurring) :
    Bucket.winnerRows bucket = bucket.recurring.map .recurring := by
  unfold Bucket.winnerRows
  split
  next manualLatest recurringLatest hmanual hrecurring =>
    have hlt : ¬ recurringLatest ≤ manualLatest := by
      intro hle
      apply h
      rw [outranked_iff_of_max hmanual]
      intro r hr
      rw [List.max?_eq_some_iff] at hrecurring
      exact (hrecurring.2 _ (List.mem_map_of_mem hr)).trans hle
    rw [if_neg hlt]
  next manualLatest hmanual hrecurring =>
    rw [List.max?_eq_none_iff, List.map_eq_nil_iff] at hrecurring
    apply absurd ((outranked_iff_of_max hmanual).mpr _) h
    rw [hrecurring]
    intro r hr
    cases hr
  next => rfl

section MergedRows

variable (manualRows : List ManualRow) (recurringRows : List RecurringRow) (tz : ZoneInfo)

def mergedRows : List MergedRow :=
  (byKey manualRows recurringRows tz).values.flatMap Bucket.winnerRows

theorem mergeRecurringWithManual_eq :
    mergeRecurringWithManual manualRows recurringRows tz =
      orderBy Trip.departsBefore ((mergedRows manualRows recurringRows tz).map MergedRow.trip) := by
  show orderBy Trip.departsBefore ((byKey manualRows recurringRows tz).values.flatMap Bucket.winner) = _
  congr 1
  rw [mergedRows, List.map_flatMap]
  congr 1
  funext bucket
  exact winner_eq bucket

theorem mem_mergedRows (row : MergedRow) :
    row ∈ mergedRows manualRows recurringRows tz ↔
      ∃ key, row ∈ Bucket.winnerRows (bucketAt manualRows recurringRows tz key) := by
  rw [mergedRows, List.mem_flatMap]
  refine ⟨?_, ?_⟩
  · rintro ⟨bucket, hbucket, hrow⟩
    obtain ⟨⟨key, _⟩, hitem, rfl⟩ := List.mem_map.mp hbucket
    refine ⟨key, ?_⟩
    rw [← getD_byKey, Dict.getD, Dict.mem_items_iff.mp hitem]
    exact hrow
  · rintro ⟨key, hrow⟩
    rw [← getD_byKey, Dict.getD] at hrow
    cases hget : (byKey manualRows recurringRows tz).get? key with
    | none =>
      rw [hget] at hrow
      cases hrow
    | some bucket =>
      rw [hget] at hrow
      exact ⟨bucket, List.mem_map.mpr ⟨(key, bucket), Dict.mem_items_iff.mpr hget, rfl⟩, hrow⟩

def KeyOutranked (key : VehicleId × ℤ) : Prop :=
  Outranked (bucketAt manualRows recurringRows tz key).manual
    (bucketAt manualRows recurringRows tz key).recurring

/-- **Recurring rows** are merged unless the manual rows of their key outrank them. -/
theorem recurring_mem_mergedRows (r : RecurringRow) :
    MergedRow.recurring r ∈ mergedRows manualRows recurringRows tz ↔
      r ∈ recurringRows ∧ ¬ KeyOutranked manualRows recurringRows tz (recurringKey r) := by
  rw [mem_mergedRows]
  refine ⟨?_, ?_⟩
  · rintro ⟨key, hrow⟩
    by_cases hout : KeyOutranked manualRows recurringRows tz key
    · rw [winnerRows_of_outranked _ hout] at hrow
      obtain ⟨m, _, hm⟩ := List.mem_map.mp hrow
      cases hm
    · rw [winnerRows_of_not_outranked _ hout] at hrow
      obtain ⟨r', hr', heq⟩ := List.mem_map.mp hrow
      cases heq
      obtain ⟨hmem, hkey⟩ := List.mem_filter.mp hr'
      obtain rfl : recurringKey r = key := by simpa using hkey
      exact ⟨hmem, hout⟩
  · rintro ⟨hmem, hout⟩
    refine ⟨recurringKey r, ?_⟩
    rw [winnerRows_of_not_outranked _ hout]
    exact List.mem_map.mpr ⟨r, List.mem_filter.mpr ⟨hmem, by simp⟩, rfl⟩

/-- **Manual rows** are merged when the rows of their key outrank the recurring ones. -/
theorem manual_mem_mergedRows (m : ManualRow) :
    MergedRow.manual m ∈ mergedRows manualRows recurringRows tz ↔
      m ∈ manualRows ∧ KeyOutranked manualRows recurringRows tz (manualKey tz m) := by
  rw [mem_mergedRows]
  refine ⟨?_, ?_⟩
  · rintro ⟨key, hrow⟩
    by_cases hout : KeyOutranked manualRows recurringRows tz key
    · rw [winnerRows_of_outranked _ hout] at hrow
      obtain ⟨m', hm', heq⟩ := List.mem_map.mp hrow
      cases heq
      obtain ⟨hmem, hkey⟩ := List.mem_filter.mp hm'
      obtain rfl : manualKey tz m = key := by simpa using hkey
      exact ⟨hmem, hout⟩
    · rw [winnerRows_of_not_outranked _ hout] at hrow
      obtain ⟨r, _, hr⟩ := List.mem_map.mp hrow
      cases hr
  · rintro ⟨hmem, hout⟩
    refine ⟨manualKey tz m, ?_⟩
    rw [winnerRows_of_outranked _ hout]
    exact List.mem_map.mpr ⟨m, List.mem_filter.mpr ⟨hmem, by simp⟩, rfl⟩

end MergedRows

end FavoniusBackend.Scheduling.Tiebreak
