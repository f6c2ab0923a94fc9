import Mathlib.Data.String.Basic
import FavoniusBackend.Lib.Sql

/-!
# Which chargers count as disconnected

`websocket_handler/offline_monitor.py` takes a charger for disconnected while its most recent row of `connector_status` is
the marker that the server writes when a connection drops.  The rows of a station are put in order by the time at which
the server took them in, but behind all others come those that the charger has dated in the future.

The number of the connector is not read and left out; two rows of a station differ in the time of their arrival.
-/

namespace FavoniusBackend.Alerts.OfflineChargers

open Lib

variable {Org Depot : Type}

/-! ## Rows and their order -/

/-- A row of `connector_status`. -/
structure StatusRow (Org Depot : Type) where
  stationId : String
  status : String
  errorCode : Option String
  timestamp : ℚ
  createdAt : ℚ
  organizationId : Option Org
  depotId : Option Depot

/-- The content of the table: one station's rows were taken in at different times. -/
structure ConnectorStatus (Org Depot : Type) where
  rows : List (StatusRow Org Depot)
  apart : ∀ a ∈ rows, ∀ b ∈ rows, a.stationId = b.stationId → a.createdAt = b.createdAt → a = b

/-- `ORDER BY station_id, (timestamp > NOW()) ASC, created_at DESC, timestamp DESC`. -/
def sortKey (now : ℚ) (r : StatusRow Org Depot) : String ×ₗ Bool ×ₗ ℚ ×ₗ ℚ :=
  toLex (r.stationId, toLex (decide (now < r.timestamp), toLex (-r.createdAt, -r.timestamp)))

def Before (now : ℚ) (a b : StatusRow Org Depot) : Prop := sortKey now a ≤ sortKey now b

instance (now : ℚ) : DecidableRel (Before now : StatusRow Org Depot → StatusRow Org Depot → Prop) :=
  fun a b => inferInstanceAs (Decidable (sortKey now a ≤ sortKey now b))

instance (now : ℚ) : Std.Total (Before now : StatusRow Org Depot → StatusRow Org Depot → Prop) :=
  ⟨fun a b => le_total (sortKey now a) (sortKey now b)⟩

instance (now : ℚ) : IsTrans (StatusRow Org Depot) (Before now) :=
  ⟨fun _ _ _ hab hbc => le_trans hab hbc⟩

/-- Of two rows of a station, one in the future does not come before one that is not; else the later one comes first. -/
theorem Before.of_station {now : ℚ} {a b : StatusRow Org Depot} (h : Before now a b) (hs : a.stationId = b.stationId) :
    (now < a.timestamp → now < b.timestamp) ∧
      ((now < a.timestamp ↔ now < b.timestamp) → b.createdAt ≤ a.createdAt) := by
  have hkey : sortKey now a ≤ sortKey now b := h
  simp only [sortKey, Prod.Lex.toLex_le_toLex, hs, lt_irrefl, true_and, false_or] at hkey
  rcases hkey with hlt | ⟨heq, hkey⟩
  · have hflags : ¬ now < a.timestamp ∧ now < b.timestamp := by
      rw [Bool.lt_iff] at hlt
      simpa using hlt
    refine ⟨fun _ => hflags.2, fun hiff => absurd (hiff.mpr hflags.2) hflags.1⟩
  · have hiff : now < a.timestamp ↔ now < b.timestamp := decide_eq_decide.mp heq
    refine ⟨hiff.mp, fun _ => ?_⟩
    rcases hkey with hlt | ⟨heq, -⟩
    · exact (neg_lt_neg_iff.mp hlt).le
    · exact (neg_inj.mp heq).ge

/-! ## The two queries -/

def IsDisconnect (r : StatusRow Org Depot) : Prop :=
  r.status = "Unavailable" ∧ r.errorCode = some "ConnectionLost"

instance (r : StatusRow Org Depot) : Decidable (IsDisconnect r) := inferInstanceAs (Decidable (_ ∧ _))

/-- A marker that is old enough. -/
def IsStale (now minOfflineSeconds : ℚ) (r : StatusRow Org Depot) : Prop :=
  IsDisconnect r ∧ r.timestamp ≤ now - minOfflineSeconds

instance (now minOfflineSeconds : ℚ) (r : StatusRow Org Depot) : Decidable (IsStale now minOfflineSeconds r) :=
  inferInstanceAs (Decidable (_ ∧ _))

/-- `DISTINCT ON (station_id)`: the first row of each station. -/
def latest (now : ℚ) (rows : List (StatusRow Org Depot)) : List (StatusRow Org Depot) :=
  Sql.firstOf (Before now) StatusRow.stationId rows

structure OfflineCharger (Org Depot : Type) where
  stationId : String
  offlineSince : ℚ
  offlineSeconds : ℚ
  organizationId : Option Org
  depotId : Option Depot

def offlineCharger (now : ℚ) (tenants : List (StatusRow Org Depot)) (l : StatusRow Org Depot) :
    OfflineCharger Org Depot :=
  let t := tenants.find? fun t => t.stationId = l.stationId
  { stationId := l.stationId
    offlineSince := l.timestamp
    offlineSeconds := now - l.timestamp
    organizationId := l.organizationId <|> t.bind StatusRow.organizationId
    depotId := l.depotId <|> t.bind StatusRow.depotId }

def fetchOfflineChargers (now minOfflineSeconds : ℚ) (rows : List (StatusRow Org Depot)) :
    List (OfflineCharger Org Depot) :=
  let tenants := latest now (rows.filter fun r => r.organizationId.isSome)
  Sql.orderBy (fun a b => a.stationId ≤ b.stationId)
    (((latest now rows).filter fun l => decide (IsStale now minOfflineSeconds l)).map (offlineCharger now tenants))

def stationsStillOffline (now : ℚ) (rows : List (StatusRow Org Depot)) (stationIds : List String) : List String :=
  ((latest now (rows.filter fun r => decide (r.stationId ∈ stationIds))).filter
    fun r => decide (IsDisconnect r)).map StatusRow.stationId

theorem mem_fetchOfflineChargers {now minOfflineSeconds : ℚ} {rows : List (StatusRow Org Depot)} {s : String} :
    (∃ c ∈ fetchOfflineChargers now minOfflineSeconds rows, c.stationId = s) ↔
      ∃ l ∈ latest now rows, IsStale now minOfflineSeconds l ∧ l.stationId = s := by
  simp only [fetchOfflineChargers, Sql.mem_orderBy, List.mem_map, List.mem_filter, decide_eq_true_eq]
  constructor
  · rintro ⟨c, ⟨l, ⟨hl, hstale⟩, rfl⟩, hs⟩
    exact ⟨l, hl, hstale, hs⟩
  · rintro ⟨l, hl, hstale, hs⟩
    exact ⟨_, ⟨l, ⟨hl, hstale⟩, rfl⟩, hs⟩

/-! ## The first row of a station -/

section Station

variable (now : ℚ) (log : ConnectorStatus Org Depot)

def Newest (rows : List (StatusRow Org Depot)) (s : String) (r : StatusRow Org Depot) : Prop :=
  (r ∈ rows ∧ r.stationId = s) ∧ ∀ r' ∈ rows, r'.stationId = s → r'.createdAt ≤ r.createdAt

/-- The last one that is not dated in the future. -/
def NewestPast (rows : List (StatusRow Org Depot)) (s : String) (r : StatusRow Org Depot) : Prop :=
  (r ∈ rows ∧ r.stationId = s ∧ r.timestamp ≤ now) ∧
    ∀ r' ∈ rows, r'.stationId = s → r'.timestamp ≤ now → r'.createdAt ≤ r.createdAt

variable {now log}

theorem Newest.unique {s : String} {r r' : StatusRow Org Depot} (h : Newest log.rows s r)
    (h' : Newest log.rows s r') : r = r' :=
  log.apart r h.1.1 r' h'.1.1 (h.1.2.trans h'.1.2.symm) (le_antisymm (h'.2 r h.1.1 h.1.2) (h.2 r' h'.1.1 h'.1.2))

theorem NewestPast.unique {s : String} {r r' : StatusRow Org Depot} (h : NewestPast now log.rows s r)
    (h' : NewestPast now log.rows s r') : r = r' :=
  log.apart r h.1.1 r' h'.1.1 (h.1.2.1.trans h'.1.2.1.symm)
    (le_antisymm (h'.2 r h.1.1 h.1.2.1 h.1.2.2) (h.2 r' h'.1.1 h'.1.2.1 h'.1.2.2))

theorem latest_cases {l : StatusRow Org Depot} (h : l ∈ latest now log.rows) :
    NewestPast now log.rows l.stationId l ∨
      Newest log.rows l.stationId l ∧ ∀ r ∈ log.rows, r.stationId = l.stationId → now < r.timestamp := by
  have hmem := Sql.mem_of_mem_firstOf h
  have hfirst : ∀ r ∈ log.rows, r.stationId = l.stationId → Before now l r := fun r hr hs =>
    Sql.le_of_mem_firstOf h hr hs
  by_cases hfuture : now < l.timestamp
  · have hall : ∀ r ∈ log.rows, r.stationId = l.stationId → now < r.timestamp := fun r hr hs =>
      ((hfirst r hr hs).of_station hs.symm).1 hfuture
    refine .inr ⟨⟨⟨hmem, rfl⟩, fun r hr hs => ?_⟩, hall⟩
    exact ((hfirst r hr hs).of_station hs.symm).2 (iff_of_true hfuture (hall r hr hs))
  · refine .inl ⟨⟨hmem, rfl, not_lt.mp hfuture⟩, fun r hr hs hpast => ?_⟩
    exact ((hfirst r hr hs).of_station hs.symm).2 (iff_of_false hfuture (not_lt.mpr hpast))

theorem exists_latest {r : StatusRow Org Depot} (h : r ∈ log.rows) :
    ∃ l ∈ latest now log.rows, l.stationId = r.stationId :=
  Sql.exists_mem_firstOf h

theorem latest_newest {l r : StatusRow Org Depot} (hl : l ∈ latest now log.rows) (hr : Newest log.rows l.stationId r) :
    l = r ∨ now < r.timestamp ∧ NewestPast now log.rows l.stationId l := by
  rcases latest_cases hl with hpast | ⟨hnewest, -⟩
  · by_cases hfuture : now < r.timestamp
    · exact .inr ⟨hfuture, hpast⟩
    · refine .inl (hpast.unique ⟨⟨hr.1.1, hr.1.2, not_lt.mp hfuture⟩, fun r' hr' hs _ => hr.2 r' hr' hs⟩)
  · exact .inl (hnewest.unique hr)

theorem exists_newest {s : String} (h : ∃ r ∈ log.rows, r.stationId = s) : ∃ r, Newest log.rows s r := by
  obtain ⟨r, hr, hs⟩ := h
  have hmem : ∀ r', r' ∈ log.rows.filter (fun r => decide (r.stationId = s)) ↔ r' ∈ log.rows ∧ r'.stationId = s := by
    simp [List.mem_filter]
  cases hm : (log.rows.filter fun r => decide (r.stationId = s)).argmax StatusRow.createdAt with
  | none =>
    rw [List.argmax_eq_none] at hm
    have := (hmem r).mpr ⟨hr, hs⟩
    rw [hm] at this
    cases this
  | some m =>
    exact ⟨m, (hmem m).mp (List.argmax_mem hm), fun r' hr' hs' =>
      List.le_of_mem_argmax ((hmem r').mpr ⟨hr', hs'⟩) hm⟩

/-! ## The order of ingestion -/

variable (now log) (minOfflineSeconds : ℚ)

/-- A station is returned exactly when the last row that the server took in is a marker that is old enough; so it is not
returned once the charger has reported after the last marker. -/
structure FollowsIngestion : Prop where
  returned_iff : ∀ s, (∃ c ∈ fetchOfflineChargers now minOfflineSeconds log.rows, c.stationId = s) ↔
    ∃ r, Newest log.rows s r ∧ IsStale now minOfflineSeconds r
  reported : ∀ r ∈ log.rows, ¬ IsDisconnect r →
    (∀ m ∈ log.rows, m.stationId = r.stationId → IsDisconnect m → m.createdAt < r.createdAt) →
    ∀ c ∈ fetchOfflineChargers now minOfflineSeconds log.rows, c.stationId ≠ r.stationId

/-- The newest row of a station is dated in the future, and the newest of those that are not decides otherwise. -/
def Overruled (s : String) : Prop :=
  ∃ r l, Newest log.rows s r ∧ now < r.timestamp ∧ NewestPast now log.rows s l ∧
    ¬ (IsStale now minOfflineSeconds l ↔ IsStale now minOfflineSeconds r)

variable {now log minOfflineSeconds}

theorem not_reported_of_returned_iff
    (h : ∀ s, (∃ c ∈ fetchOfflineChargers now minOfflineSeconds log.rows, c.stationId = s) ↔
      ∃ r, Newest log.rows s r ∧ IsStale now minOfflineSeconds r) :
    FollowsIngestion now log minOfflineSeconds := by
  refine ⟨h, fun r hr hreport hmarkers c hc hs => ?_⟩
  obtain ⟨m, ⟨⟨hm, hstation⟩, hnewest⟩, hstale⟩ := (h r.stationId).mp ⟨c, hc, hs⟩
  have hlater := hmarkers m hm hstation hstale.1
  have hearlier := hnewest r hr rfl
  linarith

theorem isStale_latest_iff {s : String} (h : ¬ Overruled now log minOfflineSeconds s) {l r : StatusRow Org Depot}
    (hl : l ∈ latest now log.rows) (hs : l.stationId = s) (hr : Newest log.rows s r) :
    IsStale now minOfflineSeconds l ↔ IsStale now minOfflineSeconds r := by
  subst hs
  rcases latest_newest hl hr with rfl | ⟨hfuture, hpast⟩
  · exact Iff.rfl
  · by_contra hdiffer
    exact h ⟨r, l, hr, hfuture, hpast, hdiffer⟩

theorem NewestPast.mem_latest {s : String} {l : StatusRow Org Depot} (h : NewestPast now log.rows s l) :
    l ∈ latest now log.rows := by
  obtain ⟨l', hl', hs⟩ := exists_latest h.1.1
  have hstation := hs.trans h.1.2.1
  rcases latest_cases hl' with hpast | ⟨-, hall⟩
  · rw [hstation] at hpast
    rwa [h.unique hpast]
  · exact absurd (hall l h.1.1 hs.symm) (not_lt.mpr h.1.2.2)

/-- **Detection follows the order of ingestion exactly where no row dated in the future is overruled.** -/
theorem followsIngestion_iff :
    FollowsIngestion now log minOfflineSeconds ↔ ∀ s, ¬ Overruled now log minOfflineSeconds s := by
  constructor
  · rintro ⟨hreturned, -⟩ s ⟨r, l, hr, -, hl, hdiffer⟩
    apply hdiffer
    have hjudged : (∃ c ∈ fetchOfflineChargers now minOfflineSeconds log.rows, c.stationId = s) ↔
        IsStale now minOfflineSeconds l := by
      rw [mem_fetchOfflineChargers]
      constructor
      · rintro ⟨l', hl', hstale, hs⟩
        have hsame : l' = l := by
          have hpast := latest_cases hl'
          rw [hs] at hpast
          rcases hpast with hpast | ⟨-, hall⟩
          · exact hpast.unique hl
          · exact absurd (hall l hl.1.1 hl.1.2.1) (not_lt.mpr hl.1.2.2)
        rwa [← hsame]
      · intro hstale
        exact ⟨l, hl.mem_latest, hstale, hl.1.2.1⟩
    rw [← hjudged, hreturned]
    constructor
    · rintro ⟨r', hr', hstale⟩
      rwa [hr.unique hr']
    · intro hstale
      exact ⟨r, hr, hstale⟩
  · intro h
    apply not_reported_of_returned_iff
    intro s
    rw [mem_fetchOfflineChargers]
    constructor
    · rintro ⟨l, hl, hstale, hs⟩
      obtain ⟨r, hr⟩ := exists_newest ⟨l, Sql.mem_of_mem_firstOf hl, hs⟩
      exact ⟨r, hr, (isStale_latest_iff (h s) hl hs hr).mp hstale⟩
    · rintro ⟨r, hr, hstale⟩
      obtain ⟨l, hl, hs⟩ := exists_latest hr.1.1
      have hs' := hs.trans hr.1.2
      exact ⟨l, hl, (isStale_latest_iff (h s) hl hs' hr).mpr hstale, hs'⟩

/-- For a duration that is not negative, a row in the future is never old enough. -/
theorem overruled_iff (hmin : 0 ≤ minOfflineSeconds) (s : String) :
    Overruled now log minOfflineSeconds s ↔
      ∃ r l, Newest log.rows s r ∧ now < r.timestamp ∧ NewestPast now log.rows s l ∧
        IsStale now minOfflineSeconds l := by
  have hnever : ∀ r : StatusRow Org Depot, now < r.timestamp → ¬ IsStale now minOfflineSeconds r := by
    intro r hr hstale
    have := hstale.2
    linarith
  constructor
  · rintro ⟨r, l, hr, hfuture, hl, hdiffer⟩
    refine ⟨r, l, hr, hfuture, hl, ?_⟩
    by_contra hstale
    exact hdiffer (iff_of_false hstale (hnever r hfuture))
  · rintro ⟨r, l, hr, hfuture, hl, hstale⟩
    exact ⟨r, l, hr, hfuture, hl, fun hiff => hnever r hfuture (hiff.mp hstale)⟩

end Station

/-! ## A charger with a fast clock -/

/-- A connection drops, and the charger comes back and reports with a clock that is a day ahead. -/
def fastClock : ConnectorStatus Unit Unit where
  rows := [⟨"CP-1", "Unavailable", some "ConnectionLost", 0, 0, some (), some ()⟩,
    ⟨"CP-1", "Available", none, 86400, 60, some (), some ()⟩]
  apart := by
    intro a ha b hb _ hcreated
    simp only [List.mem_cons, List.not_mem_nil, or_false] at ha hb
    rcases ha with rfl | rfl
    · rcases hb with rfl | rfl
      · rfl
      · norm_num at hcreated
    · rcases hb with rfl | rfl
      · norm_num at hcreated
      · rfl

/-- The charger that reported last is returned as disconnected. -/
theorem fast_clock_returned : ¬ ∀ (now : ℚ) (log : ConnectorStatus Unit Unit) (minOfflineSeconds : ℚ),
    FollowsIngestion now log minOfflineSeconds := by
  intro h
  have hreported := (h 14400 fastClock 10800).reported
    ⟨"CP-1", "Available", none, 86400, 60, some (), some ()⟩ (by simp [fastClock]) (by decide)
  have hreturned : (fetchOfflineChargers 14400 10800 fastClock.rows).map OfflineCharger.stationId = ["CP-1"] := by
    decide +kernel
  obtain ⟨c, hc, hs⟩ := List.mem_map.mp (hreturned ▸ List.mem_cons_self :
    "CP-1" ∈ (fetchOfflineChargers 14400 10800 fastClock.rows).map OfflineCharger.stationId)
  refine hreported ?_ c hc hs
  intro m hm _ hmarker
  simp only [fastClock, List.mem_cons, List.not_mem_nil, or_false] at hm
  rcases hm with rfl | rfl
  · norm_num
  · exact absurd hmarker (by decide)

end FavoniusBackend.Alerts.OfflineChargers
