import FavoniusBackend.Ocpp.ProfileCache

/-!
# Clearing charging profiles

`clear_charging_profile` on the whole table `charging_profiles`: a select of the profiles of one EVSE under three
optional criteria, and one delete by profile id for each row that it returns.

The filter of the select is a chain of `if` and `elif`, so only the first criterion that is given counts.  A call
removes exactly the profiles that match all its criteria if and only if, on that EVSE, matching the first one means
matching the others (`clears_exactly_iff`).
-/

namespace FavoniusBackend.Ocpp.ProfileClearing

open Lib Ocpp.ChargingProfiles

structure Row where
  stationId : String
  evseId : ℤ
  profile : ChargingProfile
  deriving DecidableEq, Repr

/-- The columns of `UNIQUE(station_id, evse_id, profile_id)`. -/
def Row.key (row : Row) : String × ℤ × ℤ := (row.stationId, row.evseId, row.profile.id)

def Row.OfEvse (stationId : String) (evseId : ℤ) (row : Row) : Prop := row.stationId = stationId ∧ row.evseId = evseId

instance (stationId : String) (evseId : ℤ) (row : Row) : Decidable (row.OfEvse stationId evseId) :=
  inferInstanceAs (Decidable (row.stationId = stationId ∧ row.evseId = evseId))

/-- The table `charging_profiles`. -/
structure ProfileTable where
  rows : List Row
  unique : (rows.map Row.key).Nodup

def ProfileTable.ofEvse (table : ProfileTable) (stationId : String) (evseId : ℤ) : List ChargingProfile :=
  (table.rows.filter fun row => row.OfEvse stationId evseId).map Row.profile

def ProfileTable.removeChargingProfile (stationId : String) (evseId : ℤ) (table : ProfileTable) (profileId : ℤ) :
    ProfileTable where
  rows := table.rows.filter fun row => row.key ≠ (stationId, evseId, profileId)
  unique := table.unique.sublist (List.filter_sublist.map Row.key)

def ProfileTable.getProfilesToClear (table : ProfileTable) (stationId : String) (evseId : ℤ) (profileId : Option ℤ)
    (purpose : Option String) (stackLevel : Option ℤ) : List ChargingProfile :=
  getChargingProfiles (table.ofEvse stationId evseId) profileId purpose stackLevel

def ProfileTable.clearChargingProfile (table : ProfileTable) (stationId : String) (evseId : ℤ)
    (profileId : Option ℤ) (purpose : Option String) (stackLevel : Option ℤ) : ProfileTable :=
  ((table.getProfilesToClear stationId evseId profileId purpose stackLevel).map ChargingProfile.id).foldl
    (ProfileTable.removeChargingProfile stationId evseId) table

/-! ## What a call should remove, and when it does -/

def MeetsAll (profileId : Option ℤ) (purpose : Option String) (stackLevel : Option ℤ) (p : ChargingProfile) : Prop :=
  (∀ i ∈ profileId, p.id = i) ∧ (∀ name ∈ purpose, p.chargingProfilePurpose.value = name) ∧
    ∀ level ∈ stackLevel, p.stackLevel = level

instance (profileId : Option ℤ) (purpose : Option String) (stackLevel : Option ℤ) (p : ChargingProfile) :
    Decidable (MeetsAll profileId purpose stackLevel p) :=
  inferInstanceAs (Decidable (_ ∧ _ ∧ _))

/-- Of the whole table, exactly the rows of the EVSE that meet every criterion are gone. -/
def ClearsExactly (table : ProfileTable) (stationId : String) (evseId : ℤ) (profileId : Option ℤ)
    (purpose : Option String) (stackLevel : Option ℤ) : Prop :=
  (table.clearChargingProfile stationId evseId profileId purpose stackLevel).rows =
    table.rows.filter fun row =>
      ¬ (row.OfEvse stationId evseId ∧ MeetsAll profileId purpose stackLevel row.profile)

instance (table : ProfileTable) (stationId : String) (evseId : ℤ) (profileId : Option ℤ) (purpose : Option String)
    (stackLevel : Option ℤ) : Decidable (ClearsExactly table stationId evseId profileId purpose stackLevel) :=
  inferInstanceAs (Decidable (_ = _))

/-- Each profile of the list that matches the first criterion given matches the ones after it. -/
def FirstDecides (profiles : List ChargingProfile) : Option ℤ → Option String → Option ℤ → Prop
  | some i, purpose, stackLevel =>
    ∀ p ∈ profiles, p.id = i →
      (∀ name ∈ purpose, p.chargingProfilePurpose.value = name) ∧ ∀ level ∈ stackLevel, p.stackLevel = level
  | none, some name, stackLevel =>
    ∀ p ∈ profiles, p.chargingProfilePurpose.value = name → ∀ level ∈ stackLevel, p.stackLevel = level
  | none, none, _ => True

/-! ## The deletes -/

theorem mem_ofEvse {table : ProfileTable} {stationId : String} {evseId : ℤ} {p : ChargingProfile} :
    p ∈ table.ofEvse stationId evseId ↔ ∃ row ∈ table.rows, row.OfEvse stationId evseId ∧ row.profile = p := by
  simp [ProfileTable.ofEvse, and_assoc]

theorem rows_foldl_remove (stationId : String) (evseId : ℤ) (ids : List ℤ) (table : ProfileTable) :
    (ids.foldl (ProfileTable.removeChargingProfile stationId evseId) table).rows =
      table.rows.filter fun row => ∀ i ∈ ids, row.key ≠ (stationId, evseId, i) := by
  induction ids generalizing table with
  | nil => simp
  | cons i ids ih =>
    rw [List.foldl_cons, ih, ProfileTable.removeChargingProfile, List.filter_filter]
    apply List.filter_congr
    intro row _
    simp [Bool.and_comm]

theorem ProfileTable.eq_of_key {table : ProfileTable} {a b : Row} (ha : a ∈ table.rows) (hb : b ∈ table.rows)
    (h : a.key = b.key) : a = b :=
  List.inj_on_of_nodup_map table.unique ha hb h

theorem rows_clearChargingProfile (table : ProfileTable) (stationId : String) (evseId : ℤ) (profileId : Option ℤ)
    (purpose : Option String) (stackLevel : Option ℤ) :
    (table.clearChargingProfile stationId evseId profileId purpose stackLevel).rows =
      table.rows.filter fun row =>
        ¬ (row.OfEvse stationId evseId ∧ matchesCriteria profileId purpose stackLevel row.profile) := by
  rw [ProfileTable.clearChargingProfile, rows_foldl_remove]
  apply List.filter_congr
  intro row hrow
  rw [decide_eq_decide]
  constructor
  · intro hkept hgone
    obtain ⟨hevse, hmatch⟩ := hgone
    have hselected : row.profile ∈ table.getProfilesToClear stationId evseId profileId purpose stackLevel := by
      apply mem_inStackOrder.mpr
      exact List.mem_filter.mpr ⟨mem_ofEvse.mpr ⟨row, hrow, hevse, rfl⟩, hmatch⟩
    exact hkept row.profile.id (List.mem_map_of_mem hselected) (by simp only [Row.key, hevse.1, hevse.2])
  · intro hkept i hi hkey
    obtain ⟨p, hp, hid⟩ := List.mem_map.mp hi
    obtain ⟨hp, hmatch⟩ := List.mem_filter.mp (mem_inStackOrder.mp hp)
    obtain ⟨other, hother, hevse, rfl⟩ := mem_ofEvse.mp hp
    have hsame : other = row := by
      apply table.eq_of_key hother hrow
      rw [hkey, ← hid, Row.key, hevse.1, hevse.2]
    subst hsame
    exact hkept ⟨hevse, hmatch⟩

theorem ofEvse_clearChargingProfile (table : ProfileTable) (stationId : String) (evseId : ℤ) (profileId : Option ℤ)
    (purpose : Option String) (stackLevel : Option ℤ) (s : ProfileCache.State)
    (h : s.stored = table.ofEvse stationId evseId) {deletes : ℕ}
    (hall : (table.getProfilesToClear stationId evseId profileId purpose stackLevel).length < deletes) :
    (table.clearChargingProfile stationId evseId profileId purpose stackLevel).ofEvse stationId evseId =
      (s.clearChargingProfile profileId purpose stackLevel (deletes + 1)).1.stored := by
  have hfold : ∀ (ids : List ℤ) (t : ProfileTable),
      (ids.foldl (ProfileTable.removeChargingProfile stationId evseId) t).ofEvse stationId evseId =
        ids.foldl removeChargingProfile (t.ofEvse stationId evseId) := by
    intro ids
    induction ids with
    | nil => exact fun _ => rfl
    | cons i ids ih =>
      intro t
      rw [List.foldl_cons, List.foldl_cons, ih]
      congr 1
      simp only [ProfileTable.ofEvse, ProfileTable.removeChargingProfile, ChargingProfiles.removeChargingProfile,
        List.filter_map, List.filter_filter]
      congr 1
      apply List.filter_congr
      intro row _
      by_cases hevse : row.OfEvse stationId evseId
      · simp [hevse, Row.key, hevse.1, hevse.2]
      · simp [hevse]
  rw [ProfileTable.getProfilesToClear, ← h] at hall
  rw [ProfileTable.clearChargingProfile, hfold, ProfileTable.getProfilesToClear, ← h, List.foldl_map]
  unfold ProfileCache.State.clearChargingProfile
  cases hselected : getChargingProfiles s.stored profileId purpose stackLevel with
  | nil => simp
  | cons p ps =>
    rw [hselected] at hall
    simp only [if_pos hall, List.take_of_length_le hall.le]

/-! ## The criteria -/

theorem matchesCriteria_of_meetsAll {profileId : Option ℤ} {purpose : Option String} {stackLevel : Option ℤ}
    {p : ChargingProfile} (h : MeetsAll profileId purpose stackLevel p) :
    matchesCriteria profileId purpose stackLevel p := by
  obtain ⟨hid, hpurpose, hlevel⟩ := h
  match profileId, purpose, stackLevel with
  | some i, _, _ => simpa [matchesCriteria] using hid i rfl
  | none, some name, _ => simpa [matchesCriteria] using hpurpose name rfl
  | none, none, some level => simpa [matchesCriteria] using hlevel level rfl
  | none, none, none => rfl

theorem firstDecides_iff {profiles : List ChargingProfile} {profileId : Option ℤ} {purpose : Option String}
    {stackLevel : Option ℤ} :
    FirstDecides profiles profileId purpose stackLevel ↔
      ∀ p ∈ profiles, matchesCriteria profileId purpose stackLevel p → MeetsAll profileId purpose stackLevel p := by
  match profileId, purpose, stackLevel with
  | some i, purpose, stackLevel =>
    have hmeets : ∀ p : ChargingProfile, p.id = i →
        (MeetsAll (some i) purpose stackLevel p ↔
          (∀ name ∈ purpose, p.chargingProfilePurpose.value = name) ∧ ∀ level ∈ stackLevel, p.stackLevel = level) :=
      fun p hid => by simp [MeetsAll, hid]
    simp only [FirstDecides, matchesCriteria, decide_eq_true_eq]
    exact forall₂_congr fun p _ => forall_congr' fun hid => (hmeets p hid).symm
  | none, some name, stackLevel =>
    simp only [FirstDecides, matchesCriteria, MeetsAll, decide_eq_true_eq]
    exact forall₂_congr fun p _ => forall_congr' fun hpurpose => by simp [hpurpose]
  | none, none, some level => simp [FirstDecides, matchesCriteria, MeetsAll]
  | none, none, none => simp [FirstDecides, MeetsAll]

/-- **A call removes exactly the profiles that match all the criteria given** if and only if each profile of the EVSE
that matches the first of them matches the others. -/
theorem clears_exactly_iff (table : ProfileTable) (stationId : String) (evseId : ℤ) (profileId : Option ℤ)
    (purpose : Option String) (stackLevel : Option ℤ) :
    ClearsExactly table stationId evseId profileId purpose stackLevel ↔
      FirstDecides (table.ofEvse stationId evseId) profileId purpose stackLevel := by
  rw [ClearsExactly, rows_clearChargingProfile, firstDecides_iff]
  constructor
  · intro hsame p hp hmatch
    obtain ⟨row, hrow, hevse, rfl⟩ := mem_ofEvse.mp hp
    by_contra hfails
    -- A row that fails a criterion is to stay, but the call has deleted it.
    have hstays : row ∈ table.rows.filter fun row =>
        ¬ (row.OfEvse stationId evseId ∧ MeetsAll profileId purpose stackLevel row.profile) :=
      List.mem_filter.mpr ⟨hrow, decide_eq_true fun h => hfails h.2⟩
    rw [← hsame] at hstays
    exact of_decide_eq_true (List.mem_filter.mp hstays).2 ⟨hevse, hmatch⟩
  · intro hmeets
    apply List.filter_congr
    intro row hrow
    rw [decide_eq_decide, not_iff_not]
    refine and_congr_right fun hevse => ⟨?_, matchesCriteria_of_meetsAll⟩
    exact hmeets row.profile (mem_ofEvse.mpr ⟨row, hrow, hevse, rfl⟩)

def twoLevels : ProfileTable where
  rows := [⟨"CS-1", 1, ProfileCache.defaultLimit⟩, ⟨"CS-1", 1, ProfileCache.tighterLimit⟩]
  unique := by decide +kernel

/-- A call with the purpose and the level of the second one removes both. -/
theorem other_level_cleared :
    ¬ ClearsExactly twoLevels "CS-1" 1 none (some "TxDefaultProfile") (some 1) := by
  decide +kernel

end FavoniusBackend.Ocpp.ProfileClearing
