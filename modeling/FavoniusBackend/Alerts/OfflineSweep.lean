import FavoniusBackend.Alerts.OfflineChargers
import FavoniusBackend.Lib.Numeric
import FavoniusBackend.Lib.Text

/-!
# The alerts of disconnected chargers

A sweep of `OfflineChargerMonitor` plans from the disconnected chargers and the open alerts which alerts to raise and
which to resolve, looks again which of the planned stations are still disconnected, and writes to `notification_alerts`
through `notifications/alerts.py`.  Breaches are kept by organization and station, the rows by organization and
deduplication key, and the resolves of the second look by the deduplication key alone.

Columns that neither is written nor read here (who acknowledged an alert, what was sent) are left out.
-/

namespace FavoniusBackend.Alerts.OfflineSweep

open Lib
open Alerts.OfflineChargers

variable {Org Depot : Type}

/-! ## Alerts -/

inductive Severity where
  | info
  | warning
  | critical
  deriving DecidableEq, Repr

inductive Status where
  | active
  | acknowledged
  | resolved
  deriving DecidableEq, Repr

/-- A value of the column `detail`; of what the monitor does not write only the truth and the text matter. -/
inductive Value where
  | text (s : String)
  | number (q : ℚ)
  | context (kind id label : String)
  | other (truthy : Bool) (str : String)
  deriving DecidableEq, Repr

/-- The texts of the standard library: an hour with one decimal, a time to the minute, `isoformat` and `str`. -/
structure Formats where
  oneDecimal : ℚ → String
  minute : ℚ → String
  isoformat : ℚ → String
  number : ℚ → String
  context : String → String → String → String

def Value.truthy : Value → Bool
  | .text s => s != ""
  | .number q => decide (q ≠ 0)
  | .context _ _ _ => true
  | .other truthy _ => truthy

def Value.str (formats : Formats) : Value → String
  | .text s => s
  | .number q => formats.number q
  | .context kind id label => formats.context kind id label
  | .other _ s => s

/-- A row of `notification_alerts`. -/
structure Alert (Org Depot : Type) where
  organizationId : Org
  depotId : Option Depot
  alertType : String
  severity : Severity
  title : String
  detail : List (String × Value)
  dedupKey : String
  status : Status
  lastOccurrenceAt : ℚ
  occurrenceCount : ℕ
  resolvedAt : Option ℚ

def Alert.IsOpen (a : Alert Org Depot) : Prop := a.status ≠ .resolved

instance (a : Alert Org Depot) : Decidable a.IsOpen := inferInstanceAs (Decidable (_ ≠ _))

/-- The columns of the partial unique index. -/
def Alert.key (a : Alert Org Depot) : Org × String := (a.organizationId, a.dedupKey)

/-! ## Planning -/

/-- The two alert types, `ALERT_TYPE_3H` and `ALERT_TYPE_24H`. -/
inductive Tier where
  | warn
  | escalate
  deriving DecidableEq, Repr

def Tier.alertType : Tier → String
  | .warn => "charger_offline_3h"
  | .escalate => "charger_offline_24h"

def Tier.severity : Tier → Severity
  | .warn => .warning
  | .escalate => .critical

def offlineAlertTypes : List String := [Tier.warn.alertType, Tier.escalate.alertType]

/-- The parameters of `OfflineChargerMonitor`. -/
structure Thresholds where
  warnAfterS : ℤ
  escalateAfterS : ℤ

def Thresholds.of (thresholds : Thresholds) : Tier → ℤ
  | .warn => thresholds.warnAfterS
  | .escalate => thresholds.escalateAfterS

structure PlannedUpsert (Org Depot : Type) where
  stationId : String
  organizationId : Org
  depotId : Option Depot
  alertType : String
  severity : Severity
  title : String
  detail : List (String × Value)
  dedupKey : String

structure PlannedResolve (Org : Type) where
  organizationId : Org
  dedupKey : String
  deriving DecidableEq

structure SweepPlan (Org Depot : Type) where
  upserts : List (PlannedUpsert Org Depot)
  resolves : List (PlannedResolve Org)
  skippedNoTenant : List String

def hourLabel (seconds : ℤ) : ℤ := max 1 (Numeric.roundHalfEven (Numeric.roundDouble (seconds / 3600)))

def dedupKey (tier : Tier) (stationId : String) : String := tier.alertType ++ ":" ++ stationId

def buildUpsert (formats : Formats) (thresholds : Thresholds) (tier : Tier) (organizationId : Org)
    (charger : OfflineCharger Org Depot) : PlannedUpsert Org Depot :=
  let hours := Numeric.roundDouble (charger.offlineSeconds / 3600)
  let label := hourLabel (thresholds.of tier)
  { stationId := charger.stationId
    organizationId
    depotId := charger.depotId
    alertType := tier.alertType
    severity := tier.severity
    title := "Charger " ++ charger.stationId ++ " offline " ++ toString label ++ "h+"
    detail := [
      ("description", .text ("Charger " ++ charger.stationId ++ " has been offline for " ++ formats.oneDecimal hours ++
        " h (no connection to the platform since " ++ formats.minute charger.offlineSince ++ " UTC).")),
      ("suggestedAction", .text ("Check the charger's power and network/Ethernet link at the depot. " ++
        "It has stopped connecting; if a shared switch or circuit serves multiple chargers, check those too.")),
      ("context", .context "charger" charger.stationId charger.stationId),
      ("station_id", .text charger.stationId),
      ("offline_since", .text (formats.isoformat charger.offlineSince)),
      ("offline_hours", .number (Numeric.roundDouble (Numeric.quantize 1 hours))),
      ("threshold_hours", .number label)]
    dedupKey := dedupKey tier charger.stationId }

/-- `_station_of`: the station of the detail, or what follows the first colon of the deduplication key. -/
def stationOf (formats : Formats) (alert : Alert Org Depot) : Option String :=
  match (alert.detail.lookup "station_id").filter Value.truthy with
  | some station => some (station.str formats)
  | none => (Text.partition ':' alert.dedupKey.toList).2.map String.ofList

def chargerUpserts (formats : Formats) (thresholds : Thresholds) (charger : OfflineCharger Org Depot) :
    List (PlannedUpsert Org Depot) :=
  match charger.organizationId with
  | none => []
  | some organizationId =>
    [Tier.escalate, Tier.warn].flatMap fun tier =>
      if (thresholds.of tier : ℚ) ≤ charger.offlineSeconds then
        [buildUpsert formats thresholds tier organizationId charger]
      else []

/-- `breach_3h` and `breach_24h`. -/
def breach (thresholds : Thresholds) (tier : Tier) (offline : List (OfflineCharger Org Depot)) : List (Org × String) :=
  offline.filterMap fun charger => charger.organizationId.bind fun organizationId =>
    if (thresholds.of tier : ℚ) ≤ charger.offlineSeconds then some (organizationId, charger.stationId) else none

section Sweep

variable [DecidableEq Org]

def toResolve (formats : Formats) (thresholds : Thresholds) (offline : List (OfflineCharger Org Depot))
    (alert : Alert Org Depot) : Bool :=
  [Tier.warn, Tier.escalate].any fun tier =>
    decide (alert.alertType = tier.alertType ∧
      ∀ station ∈ stationOf formats alert, (alert.organizationId, station) ∉ breach thresholds tier offline)

def planSweep (formats : Formats) (thresholds : Thresholds) (offline : List (OfflineCharger Org Depot))
    (active : List (Alert Org Depot)) : SweepPlan Org Depot where
  upserts := offline.flatMap (chargerUpserts formats thresholds)
  resolves := (active.filter (toResolve formats thresholds offline)).map fun alert =>
    ⟨alert.organizationId, alert.dedupKey⟩
  skippedNoTenant := (offline.filter fun charger => charger.organizationId.isNone).map OfflineCharger.stationId

/-! ## The statements -/

def listActiveByTypes (alertTypes : List String) (rows : List (Alert Org Depot)) : List (Alert Org Depot) :=
  Sql.orderBy (fun a b => b.lastOccurrenceAt ≤ a.lastOccurrenceAt)
    (rows.filter fun a => decide (a.IsOpen ∧ a.alertType ∈ alertTypes))

/-- The `SET` clause of an upsert. -/
def bumped (now : ℚ) (up : PlannedUpsert Org Depot) (a : Alert Org Depot) : Alert Org Depot :=
  { a with
    lastOccurrenceAt := now
    occurrenceCount := a.occurrenceCount + 1
    severity := up.severity
    title := up.title
    detail := up.detail }

def inserted (now : ℚ) (up : PlannedUpsert Org Depot) : Alert Org Depot where
  organizationId := up.organizationId
  depotId := up.depotId
  alertType := up.alertType
  severity := up.severity
  title := up.title
  detail := up.detail
  dedupKey := up.dedupKey
  status := .active
  lastOccurrenceAt := now
  occurrenceCount := 1
  resolvedAt := none

/-- `upsert_alert`: `ON CONFLICT (organization_id, dedup_key) WHERE status != 'resolved' DO UPDATE`. -/
def upsertAlert (now : ℚ) (rows : List (Alert Org Depot)) (up : PlannedUpsert Org Depot) : List (Alert Org Depot) :=
  if rows.any fun a => decide (a.IsOpen ∧ a.key = (up.organizationId, up.dedupKey)) then
    rows.map fun a => if a.IsOpen ∧ a.key = (up.organizationId, up.dedupKey) then bumped now up a else a
  else
    rows ++ [inserted now up]

def resolveAlert (now : ℚ) (rows : List (Alert Org Depot)) (rs : PlannedResolve Org) : List (Alert Org Depot) :=
  rows.map fun a =>
    if a.IsOpen ∧ a.key = (rs.organizationId, rs.dedupKey) then { a with status := .resolved, resolvedAt := some now }
    else a

/-! ## The sweep -/

/-- The second pass over the open alerts, for the stations that are back. -/
def resolveReconnected (formats : Formats) (reconnected : List String) :
    List String → List (Alert Org Depot) → List (PlannedResolve Org)
  | _, [] => []
  | seenDedup, alert :: rest =>
    if (∃ station ∈ stationOf formats alert, station ∈ reconnected) ∧ alert.alertType ∈ offlineAlertTypes ∧
        alert.dedupKey ∉ seenDedup then
      ⟨alert.organizationId, alert.dedupKey⟩ ::
        resolveReconnected formats reconnected (alert.dedupKey :: seenDedup) rest
    else resolveReconnected formats reconnected seenDedup rest

def runOnce (formats : Formats) (thresholds : Thresholds) (now : ℚ) (offline : List (OfflineCharger Org Depot))
    (stillOffline : String → Bool) (rows : List (Alert Org Depot)) : SweepPlan Org Depot × List (Alert Org Depot) :=
  let active := listActiveByTypes offlineAlertTypes rows
  let plan := planSweep formats thresholds offline active
  let planned := plan.upserts.map PlannedUpsert.stationId
  let upserts := plan.upserts.filter fun up => stillOffline up.stationId
  let reconnected := planned.filter fun station => !stillOffline station
  let resolves := plan.resolves ++
    resolveReconnected formats reconnected (plan.resolves.map PlannedResolve.dedupKey) active
  (plan, resolves.foldl (resolveAlert now) (upserts.foldl (upsertAlert now) rows))

/-! ## The open keys of a table -/

def openKeys (rows : List (Alert Org Depot)) : Set (Org × String) := { k | ∃ a ∈ rows, a.IsOpen ∧ a.key = k }

theorem openKeys_upsertAlert (now : ℚ) (rows : List (Alert Org Depot)) (up : PlannedUpsert Org Depot) :
    openKeys (upsertAlert now rows up) = insert (up.organizationId, up.dedupKey) (openKeys rows) := by
  ext k
  rw [Set.mem_insert_iff]
  unfold upsertAlert
  split
  · rename_i hany
    obtain ⟨b, hb, hmatch⟩ := List.any_eq_true.mp hany
    obtain ⟨hopen, hkey⟩ := of_decide_eq_true hmatch
    constructor
    · rintro ⟨a', ha', hopen', rfl⟩
      obtain ⟨a, ha, rfl⟩ := List.mem_map.mp ha'
      split at hopen'
      · rename_i hhit
        rw [if_pos hhit]
        exact .inl hhit.2
      · rename_i hmiss
        rw [if_neg hmiss]
        exact .inr ⟨a, ha, hopen', rfl⟩
    · have hkept : ∀ a ∈ rows, a.IsOpen → a.key ∈ openKeys (rows.map fun a =>
          if a.IsOpen ∧ a.key = (up.organizationId, up.dedupKey) then bumped now up a else a) := by
        intro a ha haopen
        refine ⟨_, List.mem_map_of_mem ha, ?_⟩
        split
        · exact ⟨haopen, rfl⟩
        · exact ⟨haopen, rfl⟩
      rintro (rfl | ⟨a, ha, haopen, rfl⟩)
      · have hb' := hkept b hb hopen
        rwa [hkey] at hb'
      · exact hkept a ha haopen
  · constructor
    · rintro ⟨a, ha, hopen, rfl⟩
      rcases List.mem_append.mp ha with ha | ha
      · exact .inr ⟨a, ha, hopen, rfl⟩
      · obtain rfl := List.mem_singleton.mp ha
        exact .inl rfl
    · rintro (rfl | ⟨a, ha, hopen, rfl⟩)
      · exact ⟨_, List.mem_append_right _ List.mem_cons_self, nofun, rfl⟩
      · exact ⟨a, List.mem_append_left _ ha, hopen, rfl⟩

theorem openKeys_resolveAlert (now : ℚ) (rows : List (Alert Org Depot)) (rs : PlannedResolve Org) :
    openKeys (resolveAlert now rows rs) = openKeys rows \ {(rs.organizationId, rs.dedupKey)} := by
  ext k
  rw [Set.mem_sdiff, Set.mem_singleton_iff]
  constructor
  · rintro ⟨a', ha', hopen', rfl⟩
    obtain ⟨a, ha, rfl⟩ := List.mem_map.mp ha'
    split at hopen'
    · exact absurd rfl hopen'
    · rename_i hmiss
      rw [if_neg hmiss]
      exact ⟨⟨a, ha, hopen', rfl⟩, fun heq => hmiss ⟨hopen', heq⟩⟩
  · rintro ⟨⟨a, ha, hopen, rfl⟩, hne⟩
    have hmiss : ¬ (a.IsOpen ∧ a.key = (rs.organizationId, rs.dedupKey)) := fun h => hne h.2
    exact ⟨a, List.mem_map.mpr ⟨a, ha, if_neg hmiss⟩, hopen, rfl⟩

theorem mem_openKeys_upserts (now : ℚ) (ups : List (PlannedUpsert Org Depot)) (k : Org × String) :
    ∀ rows : List (Alert Org Depot), k ∈ openKeys (ups.foldl (upsertAlert now) rows) ↔
      (∃ up ∈ ups, (up.organizationId, up.dedupKey) = k) ∨ k ∈ openKeys rows := by
  induction ups with
  | nil => simp
  | cons up ups ih =>
    intro rows
    rw [List.foldl_cons, ih, openKeys_upsertAlert, Set.mem_insert_iff, List.exists_mem_cons_iff, or_assoc,
      @eq_comm _ k, or_left_comm]

theorem mem_openKeys_resolves (now : ℚ) (rss : List (PlannedResolve Org)) (k : Org × String) :
    ∀ rows : List (Alert Org Depot), k ∈ openKeys (rss.foldl (resolveAlert now) rows) ↔
      k ∈ openKeys rows ∧ ⟨k.1, k.2⟩ ∉ rss := by
  induction rss with
  | nil => simp
  | cons rs rss ih =>
    intro rows
    have hkey : k ≠ (rs.organizationId, rs.dedupKey) ↔ (⟨k.1, k.2⟩ : PlannedResolve Org) ≠ rs := by
      rw [not_iff_not]
      constructor
      · rintro rfl
        rfl
      · rintro rfl
        rfl
    rw [List.foldl_cons, ih, openKeys_resolveAlert, Set.mem_sdiff, Set.mem_singleton_iff, List.mem_cons, not_or, and_assoc]
    exact and_congr_right fun _ => and_congr_left fun _ => hkey

end Sweep

/-! ## Keys and stations -/

theorem dedupKey_toList (tier : Tier) (stationId : String) :
    (dedupKey tier stationId).toList = tier.alertType.toList ++ ':' :: stationId.toList := by
  rw [dedupKey, String.toList_append, String.toList_append, List.append_assoc]
  rfl

theorem partition_dedupKey (tier : Tier) (stationId : String) :
    Text.partition ':' (dedupKey tier stationId).toList = (tier.alertType.toList, some stationId.toList) := by
  have hcolon : ':' ∉ tier.alertType.toList := by cases tier <;> decide
  rw [dedupKey_toList, Text.partition_append hcolon]

theorem dedupKey_inj {tier tier' : Tier} {s s' : String} (h : dedupKey tier s = dedupKey tier' s') :
    tier = tier' ∧ s = s' := by
  have hparts := partition_dedupKey tier s
  rw [h, partition_dedupKey] at hparts
  obtain ⟨htype, hstation⟩ := Prod.mk.inj hparts
  refine ⟨?_, String.toList_injective (Option.some.inj hstation).symm⟩
  cases tier <;> cases tier' <;> first | rfl | exact absurd htype (by decide)

theorem stationOf_eq {formats : Formats} {a : Alert Org Depot} {tier : Tier} {s : String}
    (hdetail : a.detail.lookup "station_id" = some (.text s)) (hkey : a.dedupKey = dedupKey tier s) :
    stationOf formats a = some s := by
  rw [stationOf, hdetail]
  by_cases hs : s = ""
  · subst hs
    rw [hkey, partition_dedupKey]
    rfl
  · have htruthy : Value.truthy (.text s) = true := by simpa [Value.truthy] using hs
    rw [Option.filter_some, if_pos htruthy]
    rfl

/-- What the monitor and the unique index make of the open alerts: keys are unique, and an alert of the two types is
kept under the key of its type and its station. -/
structure Produced (formats : Formats) (rows : List (Alert Org Depot)) : Prop where
  unique : rows.Pairwise fun a b => a.IsOpen → b.IsOpen → a.key ≠ b.key
  keyed : ∀ a ∈ rows, a.IsOpen → ∀ tier : Tier, a.alertType = tier.alertType →
    ∃ s, stationOf formats a = some s ∧ a.dedupKey = dedupKey tier s
  typed : ∀ a ∈ rows, a.IsOpen → ∀ (tier : Tier) (s : String), a.dedupKey = dedupKey tier s →
    a.alertType = tier.alertType

theorem Produced.key_iff {formats : Formats} {rows : List (Alert Org Depot)} (h : Produced formats rows)
    {a : Alert Org Depot} (ha : a ∈ rows) (hopen : a.IsOpen) {tier : Tier} {org : Org} {s : String} :
    a.alertType = tier.alertType ∧ a.organizationId = org ∧ stationOf formats a = some s ↔
      a.key = (org, dedupKey tier s) := by
  constructor
  · rintro ⟨htype, rfl, hstation⟩
    obtain ⟨s', hstation', hkey⟩ := h.keyed a ha hopen tier htype
    have hs : s' = s := Option.some.inj (hstation'.symm.trans hstation)
    rw [Alert.key, hkey, hs]
  · intro hkey
    obtain ⟨horg, hdedup⟩ := Prod.mk.inj hkey
    have htype := h.typed a ha hopen tier s hdedup
    obtain ⟨s', hstation, hdedup'⟩ := h.keyed a ha hopen tier htype
    obtain ⟨-, rfl⟩ := dedupKey_inj (hdedup.symm.trans hdedup')
    exact ⟨htype, horg, hstation⟩

def Planned (up : PlannedUpsert Org Depot) : Prop :=
  ∃ tier : Tier, up.alertType = tier.alertType ∧ up.dedupKey = dedupKey tier up.stationId ∧
    up.detail.lookup "station_id" = some (.text up.stationId)

theorem planned_buildUpsert (formats : Formats) (thresholds : Thresholds) (tier : Tier) (organizationId : Org)
    (charger : OfflineCharger Org Depot) : Planned (buildUpsert formats thresholds tier organizationId charger) :=
  ⟨tier, rfl, rfl, rfl⟩

/-! ## Breaches and open alerts -/

/-- A charger of the list is disconnected for at least the time of the tier. -/
def Breaches (thresholds : Thresholds) (offline : List (OfflineCharger Org Depot)) (tier : Tier) (org : Org)
    (s : String) : Prop :=
  ∃ charger ∈ offline, charger.organizationId = some org ∧ charger.stationId = s ∧
    (thresholds.of tier : ℚ) ≤ charger.offlineSeconds

theorem mem_breach {thresholds : Thresholds} {offline : List (OfflineCharger Org Depot)} {tier : Tier} {org : Org} {s : String} :
    (org, s) ∈ breach thresholds tier offline ↔ Breaches thresholds offline tier org s := by
  rw [breach, List.mem_filterMap]
  apply exists_congr
  intro charger
  apply and_congr_right
  intro _
  cases charger.organizationId with
  | none => simp
  | some org' =>
    rw [Option.bind_some]
    by_cases hlong : (thresholds.of tier : ℚ) ≤ charger.offlineSeconds
    · simp [hlong]
    · simp [hlong]

theorem mem_listActive {rows : List (Alert Org Depot)} {a : Alert Org Depot} :
    a ∈ listActiveByTypes offlineAlertTypes rows ↔ a ∈ rows ∧ a.IsOpen ∧ ∃ tier : Tier, a.alertType = tier.alertType := by
  have htypes : a.alertType ∈ offlineAlertTypes ↔ ∃ tier : Tier, a.alertType = tier.alertType := by
    rw [offlineAlertTypes, List.mem_cons, List.mem_singleton]
    constructor
    · rintro (h | h)
      · exact ⟨.warn, h⟩
      · exact ⟨.escalate, h⟩
    · rintro ⟨tier, h⟩
      cases tier with
      | warn => exact .inl h
      | escalate => exact .inr h
  rw [listActiveByTypes, Sql.mem_orderBy, List.mem_filter, decide_eq_true_eq, htypes]

/-! ## The second pass -/

/-- An open alert of a station that came back between the two queries. -/
def Returned (formats : Formats) (reconnected : List String) (a : Alert Org Depot) : Prop :=
  (∃ station ∈ stationOf formats a, station ∈ reconnected) ∧ a.alertType ∈ offlineAlertTypes

instance (formats : Formats) (reconnected : List String) (a : Alert Org Depot) :
    Decidable (Returned formats reconnected a) := inferInstanceAs (Decidable (_ ∧ _))

theorem resolveReconnected_eq (formats : Formats) (reconnected : List String) (active : List (Alert Org Depot)) :
    ∀ seen : List String, resolveReconnected formats reconnected seen active =
      (Sql.distinctOn Alert.dedupKey seen (active.filter fun a => decide (Returned formats reconnected a))).map
        fun a => ⟨a.organizationId, a.dedupKey⟩ := by
  induction active with
  | nil =>
    intro seen
    rfl
  | cons a active ih =>
    intro seen
    rw [resolveReconnected]
    by_cases hreturned : Returned formats reconnected a
    · rw [List.filter_cons, if_pos (decide_eq_true hreturned), Sql.distinctOn]
      by_cases hseen : a.dedupKey ∈ seen
      · rw [if_neg (fun h => h.2.2 hseen), if_pos hseen, ih]
      · rw [if_pos ⟨hreturned.1, hreturned.2, hseen⟩, if_neg hseen, List.map_cons, ih]
    · rw [List.filter_cons, if_neg (fun h => hreturned ⟨h.1, h.2.1⟩), if_neg (fun h => hreturned (of_decide_eq_true h)), ih]

theorem resolveReconnected_unique {formats : Formats} {reconnected seen : List String} {active : List (Alert Org Depot)}
    {rs rs' : PlannedResolve Org} (h : rs ∈ resolveReconnected formats reconnected seen active)
    (h' : rs' ∈ resolveReconnected formats reconnected seen active) (hkey : rs.dedupKey = rs'.dedupKey) : rs = rs' := by
  have hnodup : ((resolveReconnected formats reconnected seen active).map PlannedResolve.dedupKey).Nodup := by
    rw [resolveReconnected_eq, List.map_map]
    exact Sql.distinctOn_keys_nodup _ _ _
  exact List.inj_on_of_nodup_map hnodup h h' hkey

/-! ## Sweeps keep the table -/

section Sweep

variable [DecidableEq Org] {formats : Formats} {thresholds : Thresholds}

theorem Produced.upsert {rows : List (Alert Org Depot)} (h : Produced formats rows) (now : ℚ)
    {up : PlannedUpsert Org Depot} (hup : Planned up) : Produced formats (upsertAlert now rows up) := by
  obtain ⟨tier, htype, hkey, hdetail⟩ := hup
  unfold upsertAlert
  split
  · have hsame : ∀ a : Alert Org Depot,
        (if a.IsOpen ∧ a.key = (up.organizationId, up.dedupKey) then bumped now up a else a).IsOpen = a.IsOpen ∧
        (if a.IsOpen ∧ a.key = (up.organizationId, up.dedupKey) then bumped now up a else a).key = a.key ∧
        (if a.IsOpen ∧ a.key = (up.organizationId, up.dedupKey) then bumped now up a else a).alertType =
          a.alertType := by
      intro a
      split
      · exact ⟨rfl, rfl, rfl⟩
      · exact ⟨rfl, rfl, rfl⟩
    refine ⟨?_, ?_, ?_⟩
    · rw [List.pairwise_map]
      refine h.unique.imp fun {a b} hab => ?_
      rw [(hsame a).1, (hsame b).1, (hsame a).2.1, (hsame b).2.1]
      exact hab
    · intro a' ha' hopen tier' htype'
      obtain ⟨a, ha, rfl⟩ := List.mem_map.mp ha'
      rw [(hsame a).1] at hopen
      rw [(hsame a).2.2] at htype'
      obtain ⟨s, hstation, hdedup⟩ := h.keyed a ha hopen tier' htype'
      split
      · rename_i hhit
        have hdedup' : a.dedupKey = up.dedupKey := congrArg Prod.snd hhit.2
        obtain ⟨rfl, hs⟩ := dedupKey_inj (hdedup.symm.trans (hdedup'.trans hkey))
        refine ⟨s, ?_, hdedup⟩
        exact stationOf_eq (hdetail.trans (by rw [hs])) hdedup
      · exact ⟨s, hstation, hdedup⟩
    · intro a' ha' hopen tier' s hdedup
      obtain ⟨a, ha, rfl⟩ := List.mem_map.mp ha'
      rw [(hsame a).1] at hopen
      rw [(hsame a).2.2]
      exact h.typed a ha hopen tier' s ((congrArg Prod.snd (hsame a).2.1).symm.trans hdedup)
  · rename_i hany
    have hfresh : ∀ a ∈ rows, a.IsOpen → a.key ≠ (up.organizationId, up.dedupKey) := by
      intro a ha hopen heq
      exact hany (List.any_eq_true.mpr ⟨a, ha, decide_eq_true ⟨hopen, heq⟩⟩)
    refine ⟨?_, ?_, ?_⟩
    · rw [List.pairwise_append]
      refine ⟨h.unique, List.pairwise_singleton _ _, ?_⟩
      intro a ha b hb hopen _
      obtain rfl := List.mem_singleton.mp hb
      exact hfresh a ha hopen
    · intro a ha hopen tier' htype'
      rcases List.mem_append.mp ha with ha | ha
      · exact h.keyed a ha hopen tier' htype'
      · obtain rfl := List.mem_singleton.mp ha
        have htiers : tier = tier' := by
          have htext : tier.alertType = tier'.alertType := htype.symm.trans htype'
          cases tier <;> cases tier' <;> first | rfl | exact absurd htext (by decide)
        subst htiers
        exact ⟨up.stationId, stationOf_eq hdetail hkey, hkey⟩
    · intro a ha hopen tier' s hdedup
      rcases List.mem_append.mp ha with ha | ha
      · exact h.typed a ha hopen tier' s hdedup
      · obtain rfl := List.mem_singleton.mp ha
        obtain ⟨rfl, -⟩ := dedupKey_inj (hkey.symm.trans hdedup)
        exact htype

theorem Produced.resolve {rows : List (Alert Org Depot)} (h : Produced formats rows) (now : ℚ)
    (rs : PlannedResolve Org) : Produced formats (resolveAlert now rows rs) := by
  have hopen : ∀ a : Alert Org Depot,
      (if a.IsOpen ∧ a.key = (rs.organizationId, rs.dedupKey) then
        { a with status := .resolved, resolvedAt := some now } else a).IsOpen →
      a.IsOpen ∧ (if a.IsOpen ∧ a.key = (rs.organizationId, rs.dedupKey) then
        { a with status := .resolved, resolvedAt := some now } else a) = a := by
    intro a hopen
    split at hopen
    · exact absurd rfl hopen
    · rename_i hmiss
      exact ⟨hopen, if_neg hmiss⟩
  refine ⟨?_, ?_, ?_⟩
  · unfold resolveAlert
    rw [List.pairwise_map]
    refine h.unique.imp fun {a b} hab ha hb => ?_
    rw [(hopen a ha).2, (hopen b hb).2]
    exact hab (hopen a ha).1 (hopen b hb).1
  · intro a' ha' ha tier htype
    obtain ⟨a, hmem, rfl⟩ := List.mem_map.mp ha'
    obtain ⟨hopena, heq⟩ := hopen a ha
    rw [heq] at htype ⊢
    exact h.keyed a hmem hopena tier htype
  · intro a' ha' ha tier s hdedup
    obtain ⟨a, hmem, rfl⟩ := List.mem_map.mp ha'
    obtain ⟨hopena, heq⟩ := hopen a ha
    rw [heq] at hdedup ⊢
    exact h.typed a hmem hopena tier s hdedup

theorem Produced.upserts (now : ℚ) {ups : List (PlannedUpsert Org Depot)} (hups : ∀ up ∈ ups, Planned up) :
    ∀ {rows : List (Alert Org Depot)}, Produced formats rows → Produced formats (ups.foldl (upsertAlert now) rows) := by
  induction ups with
  | nil => exact fun h => h
  | cons up ups ih =>
    intro rows h
    exact ih (fun up' hup' => hups up' (List.mem_cons_of_mem _ hup')) (h.upsert now (hups up List.mem_cons_self))

theorem Produced.resolves (now : ℚ) (rss : List (PlannedResolve Org)) :
    ∀ {rows : List (Alert Org Depot)}, Produced formats rows →
      Produced formats (rss.foldl (resolveAlert now) rows) := by
  induction rss with
  | nil => exact fun h => h
  | cons rs rss ih =>
    intro rows h
    exact ih (h.resolve now rs)

theorem Planned.of_plan {offline : List (OfflineCharger Org Depot)} {active : List (Alert Org Depot)}
    {up : PlannedUpsert Org Depot} (hup : up ∈ (planSweep formats thresholds offline active).upserts) : Planned up := by
  obtain ⟨charger, -, hup⟩ := List.mem_flatMap.mp hup
  cases horg : charger.organizationId with
  | none =>
    rw [chargerUpserts, horg] at hup
    exact absurd hup List.not_mem_nil
  | some organizationId =>
    rw [chargerUpserts, horg] at hup
    obtain ⟨tier, -, hup⟩ := List.mem_flatMap.mp hup
    split at hup
    · obtain rfl := List.mem_singleton.mp hup
      exact planned_buildUpsert formats thresholds tier organizationId charger
    · exact absurd hup List.not_mem_nil

theorem Produced.runOnce {rows : List (Alert Org Depot)} (h : Produced formats rows) (thresholds : Thresholds)
    (now : ℚ) (offline : List (OfflineCharger Org Depot)) (stillOffline : String → Bool) :
    Produced formats (runOnce formats thresholds now offline stillOffline rows).2 := by
  apply Produced.resolves
  apply Produced.upserts _ _ h
  intro up hup
  exact Planned.of_plan (List.mem_of_mem_filter hup)

/-! ## What is planned -/

theorem mem_upserts {offline : List (OfflineCharger Org Depot)} {active : List (Alert Org Depot)} {tier : Tier}
    {org : Org} {s : String} :
    (∃ up ∈ (planSweep formats thresholds offline active).upserts,
      up.stationId = s ∧ up.organizationId = org ∧ up.dedupKey = dedupKey tier s) ↔
      Breaches thresholds offline tier org s := by
  constructor
  · rintro ⟨up, hup, rfl, rfl, hkey⟩
    obtain ⟨charger, hcharger, hup⟩ := List.mem_flatMap.mp hup
    cases horg : charger.organizationId with
    | none =>
      rw [chargerUpserts, horg] at hup
      exact absurd hup List.not_mem_nil
    | some organizationId =>
      rw [chargerUpserts, horg] at hup
      obtain ⟨tier', -, hup⟩ := List.mem_flatMap.mp hup
      split at hup
      · rename_i hlong
        obtain rfl := List.mem_singleton.mp hup
        obtain ⟨rfl, -⟩ := dedupKey_inj hkey
        exact ⟨charger, hcharger, horg, rfl, hlong⟩
      · exact absurd hup List.not_mem_nil
  · rintro ⟨charger, hcharger, horg, rfl, hlong⟩
    refine ⟨buildUpsert formats thresholds tier org charger, ?_, rfl, rfl, rfl⟩
    apply List.mem_flatMap.mpr
    refine ⟨charger, hcharger, ?_⟩
    rw [chargerUpserts, horg]
    apply List.mem_flatMap.mpr
    refine ⟨tier, by cases tier <;> decide, ?_⟩
    rw [if_pos hlong]
    exact List.mem_singleton.mpr rfl

theorem toResolve_iff {offline : List (OfflineCharger Org Depot)} {a : Alert Org Depot} {tier : Tier} {s : String}
    (htype : a.alertType = tier.alertType) (hstation : stationOf formats a = some s) :
    toResolve formats thresholds offline a = true ↔ ¬ Breaches thresholds offline tier a.organizationId s := by
  have hbreach : (∀ station ∈ stationOf formats a, (a.organizationId, station) ∉ breach thresholds tier offline) ↔
      ¬ Breaches thresholds offline tier a.organizationId s := by
    rw [hstation, ← mem_breach]
    exact ⟨fun h => h s rfl, fun h station hs => Option.some.inj hs ▸ h⟩
  rw [toResolve, List.any_eq_true]
  constructor
  · rintro ⟨tier', -, h⟩
    obtain ⟨htype', h⟩ := of_decide_eq_true h
    have hsame : tier' = tier := by
      have htext : tier'.alertType = tier.alertType := htype'.symm.trans htype
      cases tier <;> cases tier' <;> first | rfl | exact absurd htext (by decide)
    subst hsame
    exact hbreach.mp h
  · intro h
    exact ⟨tier, by cases tier <;> decide, decide_eq_true ⟨htype, hbreach.mpr h⟩⟩

/-! ## One sweep -/

section OneSweep

variable (formats thresholds) (now : ℚ) (offline : List (OfflineCharger Org Depot)) (stillOffline : String → Bool)
  (rows : List (Alert Org Depot))

def sweepPlan : SweepPlan Org Depot := planSweep formats thresholds offline (listActiveByTypes offlineAlertTypes rows)

def reconnectedStations : List String :=
  ((sweepPlan formats thresholds offline rows).upserts.map PlannedUpsert.stationId).filter fun s => !stillOffline s

def secondPass : List (PlannedResolve Org) :=
  resolveReconnected formats (reconnectedStations formats thresholds offline stillOffline rows)
    ((sweepPlan formats thresholds offline rows).resolves.map PlannedResolve.dedupKey)
    (listActiveByTypes offlineAlertTypes rows)

theorem runOnce_rows : (runOnce formats thresholds now offline stillOffline rows).2 =
    ((sweepPlan formats thresholds offline rows).resolves ++
        secondPass formats thresholds offline stillOffline rows).foldl (resolveAlert now)
      (((sweepPlan formats thresholds offline rows).upserts.filter fun up => stillOffline up.stationId).foldl
        (upsertAlert now) rows) := rfl

variable {formats thresholds offline stillOffline rows}

theorem mem_reconnectedStations {s : String} :
    s ∈ reconnectedStations formats thresholds offline stillOffline rows ↔
      (∃ tier org, Breaches thresholds offline tier org s) ∧ stillOffline s = false := by
  rw [reconnectedStations, List.mem_filter, List.mem_map, Bool.not_eq_true']
  apply and_congr_left
  intro _
  constructor
  · rintro ⟨up, hup, rfl⟩
    obtain ⟨tier, -, hkey, -⟩ := Planned.of_plan hup
    exact ⟨tier, up.organizationId, mem_upserts.mp ⟨up, hup, rfl, rfl, hkey⟩⟩
  · rintro ⟨tier, org, hbreach⟩
    obtain ⟨up, hup, hs, -⟩ := mem_upserts.mpr hbreach
    exact ⟨up, hup, hs⟩

theorem mem_secondPass_returned {rs : PlannedResolve Org}
    (h : rs ∈ secondPass formats thresholds offline stillOffline rows) :
    (∃ a ∈ listActiveByTypes offlineAlertTypes rows, ⟨a.organizationId, a.dedupKey⟩ = rs ∧
      ∃ s ∈ stationOf formats a, s ∈ reconnectedStations formats thresholds offline stillOffline rows) ∧
      ∀ rs' ∈ (sweepPlan formats thresholds offline rows).resolves, rs'.dedupKey ≠ rs.dedupKey := by
  rw [secondPass, resolveReconnected_eq] at h
  obtain ⟨a, ha, rfl⟩ := List.mem_map.mp h
  obtain ⟨hmem, hseen⟩ := Sql.mem_distinctOn _ _ _ _ ha
  obtain ⟨hactive, hreturned⟩ := List.mem_filter.mp hmem
  exact ⟨⟨a, hactive, rfl, (of_decide_eq_true hreturned).1⟩,
    fun rs' hrs' heq => hseen (List.mem_map.mpr ⟨rs', hrs', heq⟩)⟩

theorem exists_mem_secondPass {a : Alert Org Depot} {s : String} (ha : a ∈ listActiveByTypes offlineAlertTypes rows)
    (hstation : stationOf formats a = some s)
    (hback : s ∈ reconnectedStations formats thresholds offline stillOffline rows)
    (hunseen : ∀ rs ∈ (sweepPlan formats thresholds offline rows).resolves, rs.dedupKey ≠ a.dedupKey) :
    ∃ b ∈ listActiveByTypes offlineAlertTypes rows, b.dedupKey = a.dedupKey ∧
      ⟨b.organizationId, b.dedupKey⟩ ∈ secondPass formats thresholds offline stillOffline rows := by
  obtain ⟨-, -, tier, htype⟩ := mem_listActive.mp ha
  have htypes : a.alertType ∈ offlineAlertTypes := by
    rw [htype]
    cases tier <;> decide
  have hreturned : a ∈ (listActiveByTypes offlineAlertTypes rows).filter fun a =>
      decide (Returned formats (reconnectedStations formats thresholds offline stillOffline rows) a) :=
    List.mem_filter.mpr ⟨ha, decide_eq_true ⟨⟨s, hstation, hback⟩, htypes⟩⟩
  have hkey : a.dedupKey ∉ (sweepPlan formats thresholds offline rows).resolves.map PlannedResolve.dedupKey := by
    intro hseen
    obtain ⟨rs, hrs, hsame⟩ := List.mem_map.mp hseen
    exact hunseen rs hrs hsame
  obtain ⟨b, hb, hbkey⟩ := Sql.exists_mem_distinctOn Alert.dedupKey a _ _ hreturned hkey
  refine ⟨b, List.mem_of_mem_filter (Sql.mem_distinctOn _ _ _ _ hb).1, hbkey, ?_⟩
  rw [secondPass, resolveReconnected_eq]
  exact List.mem_map.mpr ⟨b, hb, rfl⟩

variable (h : Produced formats rows)

include h

theorem Produced.resolves_iff {a : Alert Org Depot} (ha : a ∈ rows) (hopen : a.IsOpen) {tier : Tier} {s : String}
    (hkey : a.dedupKey = dedupKey tier s) :
    ⟨a.organizationId, a.dedupKey⟩ ∈ (sweepPlan formats thresholds offline rows).resolves ↔
      ¬ Breaches thresholds offline tier a.organizationId s := by
  have hown : ∀ b ∈ rows, b.IsOpen → b.key = a.key → (toResolve formats thresholds offline b = true ↔
      ¬ Breaches thresholds offline tier a.organizationId s) := by
    intro b hb hbopen hbkey
    obtain ⟨htype, horg, hstation⟩ := (h.key_iff hb hbopen).mpr (hbkey.trans (Prod.ext rfl hkey))
    have horg' : b.organizationId = a.organizationId := horg
    rw [← horg']
    exact toResolve_iff htype hstation
  have htype := h.typed a ha hopen tier s hkey
  rw [sweepPlan, planSweep, List.mem_map]
  constructor
  · rintro ⟨b, hb, hsame⟩
    obtain ⟨hactive, hresolve⟩ := List.mem_filter.mp hb
    obtain ⟨hmem, hbopen, -⟩ := mem_listActive.mp hactive
    obtain ⟨horg, hdedup⟩ := (PlannedResolve.mk.injEq ..).mp hsame
    exact (hown b hmem hbopen (Prod.ext horg hdedup)).mp hresolve
  · intro hnot
    exact ⟨a, List.mem_filter.mpr ⟨mem_listActive.mpr ⟨ha, hopen, tier, htype⟩, (hown a ha hopen rfl).mpr hnot⟩, rfl⟩

theorem not_mem_secondPass {tier : Tier} {org : Org} {s : String} (hs : stillOffline s = true) :
    ⟨org, dedupKey tier s⟩ ∉ secondPass formats thresholds offline stillOffline rows := by
  intro hmem
  obtain ⟨⟨a, hactive, hsame, s', hstation', hback⟩, -⟩ := mem_secondPass_returned hmem
  obtain ⟨ha, hopen, -⟩ := mem_listActive.mp hactive
  obtain ⟨horg, hdedup⟩ := (PlannedResolve.mk.injEq ..).mp hsame
  obtain ⟨-, -, hstation⟩ := (h.key_iff ha hopen).mpr (Prod.ext horg hdedup)
  have hss : s' = s := Option.some.inj (hstation'.symm.trans hstation)
  have hgone := (mem_reconnectedStations.mp hback).2
  rw [hss, hs] at hgone
  exact absurd hgone (by decide)

theorem mem_openKeys_runOnce {tier : Tier} {org : Org} {s : String} :
    (org, dedupKey tier s) ∈ openKeys (runOnce formats thresholds now offline stillOffline rows).2 ↔
      ((Breaches thresholds offline tier org s ∧ stillOffline s = true) ∨ (org, dedupKey tier s) ∈ openKeys rows) ∧
        ((org, dedupKey tier s) ∈ openKeys rows → Breaches thresholds offline tier org s) ∧
        ⟨org, dedupKey tier s⟩ ∉ secondPass formats thresholds offline stillOffline rows := by
  have hraised : (∃ up ∈ (sweepPlan formats thresholds offline rows).upserts.filter fun up => stillOffline up.stationId,
      (up.organizationId, up.dedupKey) = (org, dedupKey tier s)) ↔
        Breaches thresholds offline tier org s ∧ stillOffline s = true := by
    constructor
    · rintro ⟨up, hup, heq⟩
      obtain ⟨hup, hstill⟩ := List.mem_filter.mp hup
      obtain ⟨horg, hkey⟩ := Prod.mk.inj heq
      obtain ⟨tier', -, hkey', -⟩ := Planned.of_plan hup
      obtain ⟨-, hs⟩ := dedupKey_inj (hkey'.symm.trans hkey)
      exact ⟨mem_upserts.mp ⟨up, hup, hs, horg, hkey⟩, hs ▸ hstill⟩
    · rintro ⟨hbreach, hstill⟩
      obtain ⟨up, hup, hs, horg, hkey⟩ := mem_upserts.mpr hbreach
      exact ⟨up, List.mem_filter.mpr ⟨hup, hs ▸ hstill⟩, Prod.ext horg hkey⟩
  have hkept : (⟨org, dedupKey tier s⟩ : PlannedResolve Org) ∉ (sweepPlan formats thresholds offline rows).resolves ↔
      ((org, dedupKey tier s) ∈ openKeys rows → Breaches thresholds offline tier org s) := by
    constructor
    · rintro hnot ⟨a, ha, hopen, hkey⟩
      obtain ⟨horg, hdedup⟩ := Prod.mk.inj hkey
      by_contra hbreach
      rw [← horg] at hbreach
      have hmem := (h.resolves_iff ha hopen hdedup).mpr hbreach
      rw [horg, hdedup] at hmem
      exact hnot hmem
    · intro hbreach hmem
      obtain ⟨a, ha, hsame⟩ := List.mem_map.mp hmem
      obtain ⟨horg, hdedup⟩ := (PlannedResolve.mk.injEq ..).mp hsame
      obtain ⟨hrow, hopen, -⟩ := mem_listActive.mp (List.mem_of_mem_filter ha)
      rw [← hsame] at hmem
      apply (h.resolves_iff hrow hopen hdedup).mp hmem
      rw [horg]
      exact hbreach ⟨a, hrow, hopen, Prod.ext horg hdedup⟩
  rw [runOnce_rows, mem_openKeys_resolves, mem_openKeys_upserts, List.mem_append, not_or, hraised, hkept]

end OneSweep

/-! ## Exact sweeps -/

def openAlerts (formats : Formats) (rows : List (Alert Org Depot)) (tier : Tier) (org : Org) (s : String) :
    List (Alert Org Depot) :=
  rows.filter fun a => decide (a.IsOpen ∧ a.alertType = tier.alertType ∧ a.organizationId = org ∧
    stationOf formats a = some s)

theorem Produced.length_openAlerts {rows : List (Alert Org Depot)} (h : Produced formats rows) {tier : Tier} {org : Org}
    {s : String} : (openAlerts formats rows tier org s).length = 1 ↔ (org, dedupKey tier s) ∈ openKeys rows := by
  have hmem : ∀ a ∈ openAlerts formats rows tier org s, a ∈ rows ∧ a.IsOpen ∧ a.key = (org, dedupKey tier s) := by
    intro a ha
    obtain ⟨hrow, hcond⟩ := List.mem_filter.mp ha
    obtain ⟨hopen, hcond⟩ := of_decide_eq_true hcond
    exact ⟨hrow, hopen, (h.key_iff hrow hopen).mp hcond⟩
  have hpairwise : (openAlerts formats rows tier org s).Pairwise fun a b => a.IsOpen → b.IsOpen → a.key ≠ b.key :=
    h.unique.filter _
  constructor
  · intro hone
    obtain ⟨a, ha⟩ := List.exists_mem_of_length_pos (by omega : 0 < (openAlerts formats rows tier org s).length)
    obtain ⟨hrow, hopen, hkey⟩ := hmem a ha
    exact ⟨a, hrow, hopen, hkey⟩
  · rintro ⟨a, hrow, hopen, hkey⟩
    have ha : a ∈ openAlerts formats rows tier org s :=
      List.mem_filter.mpr ⟨hrow, decide_eq_true ⟨hopen, (h.key_iff hrow hopen).mpr hkey⟩⟩
    match hl : openAlerts formats rows tier org s with
    | [] => exact absurd (hl ▸ ha) List.not_mem_nil
    | [_] => rfl
    | b :: c :: rest =>
      rw [hl] at hmem hpairwise
      obtain ⟨-, hbopen, hbkey⟩ := hmem b List.mem_cons_self
      obtain ⟨-, hcopen, hckey⟩ := hmem c (List.mem_cons_of_mem _ List.mem_cons_self)
      exact absurd (hbkey.trans hckey.symm) ((List.pairwise_cons.mp hpairwise).1 c List.mem_cons_self hbopen hcopen)

/-- The table after a sweep: one open alert for each charger that is disconnected long enough and was not seen to come
back, no other, and a second sweep changes no row's status. -/
structure Exact (formats : Formats) (thresholds : Thresholds) (offline : List (OfflineCharger Org Depot))
    (stillOffline : String → Bool) (after : List (Alert Org Depot)) : Prop where
  raised : ∀ (tier : Tier) (org : Org) (s : String), Breaches thresholds offline tier org s → stillOffline s = true →
    (openAlerts formats after tier org s).length = 1
  only : ∀ a ∈ after, a.IsOpen → ∀ tier : Tier, a.alertType = tier.alertType →
    ∃ s, stationOf formats a = some s ∧ Breaches thresholds offline tier a.organizationId s ∧ stillOffline s = true
  settled : ∀ now : ℚ, (runOnce formats thresholds now offline stillOffline after).2.map Alert.status =
    after.map Alert.status

/-- A station that came back between the two queries, and whose open alert is one that the plan keeps, has no open alert
of the same type in another organization. -/
def Unshadowed (thresholds : Thresholds) (offline : List (OfflineCharger Org Depot)) (stillOffline : String → Bool)
    (rows : List (Alert Org Depot)) : Prop :=
  ∀ a ∈ rows, a.IsOpen → ∀ b ∈ rows, b.IsOpen → b.dedupKey = a.dedupKey →
    ∀ (tier : Tier) (s : String), a.dedupKey = dedupKey tier s → Breaches thresholds offline tier a.organizationId s →
      stillOffline s = false → b.organizationId = a.organizationId

theorem statuses_upserts (now : ℚ) (ups : List (PlannedUpsert Org Depot)) :
    ∀ rows : List (Alert Org Depot), (∀ up ∈ ups, (up.organizationId, up.dedupKey) ∈ openKeys rows) →
      (ups.foldl (upsertAlert now) rows).map Alert.status = rows.map Alert.status := by
  induction ups with
  | nil =>
    intro rows _
    rfl
  | cons up ups ih =>
    intro rows hups
    obtain ⟨a, ha, hopen, hkey⟩ := hups up List.mem_cons_self
    have hany : (rows.any fun a => decide (a.IsOpen ∧ a.key = (up.organizationId, up.dedupKey))) = true :=
      List.any_eq_true.mpr ⟨a, ha, decide_eq_true ⟨hopen, hkey⟩⟩
    have hsame : (upsertAlert now rows up).map Alert.status = rows.map Alert.status := by
      rw [upsertAlert, if_pos hany, List.map_map]
      apply List.map_congr_left
      intro b _
      rw [Function.comp_apply]
      split
      · rfl
      · rfl
    rw [List.foldl_cons, ih, hsame]
    intro up' hup'
    rw [openKeys_upsertAlert]
    exact Set.mem_insert_of_mem _ (hups up' (List.mem_cons_of_mem _ hup'))

theorem settled_of_open {offline : List (OfflineCharger Org Depot)} {stillOffline : String → Bool}
    {rows : List (Alert Org Depot)} (h : Produced formats rows)
    (hright : ∀ (tier : Tier) (org : Org) (s : String), (org, dedupKey tier s) ∈ openKeys rows ↔
      Breaches thresholds offline tier org s ∧ stillOffline s = true) (now : ℚ) :
    (runOnce formats thresholds now offline stillOffline rows).2.map Alert.status = rows.map Alert.status := by
  have hactive : ∀ a ∈ listActiveByTypes offlineAlertTypes rows, ∃ tier : Tier, ∃ s : String,
      a.alertType = tier.alertType ∧ stationOf formats a = some s ∧
        Breaches thresholds offline tier a.organizationId s ∧ stillOffline s = true := by
    intro a ha
    obtain ⟨hrow, hopen, tier, htype⟩ := mem_listActive.mp ha
    obtain ⟨s, hstation, hkey⟩ := h.keyed a hrow hopen tier htype
    exact ⟨tier, s, htype, hstation, (hright tier a.organizationId s).mp ⟨a, hrow, hopen, Prod.ext rfl hkey⟩⟩
  have hresolves : (sweepPlan formats thresholds offline rows).resolves = [] := by
    apply List.map_eq_nil_iff.mpr
    rw [List.filter_eq_nil_iff]
    intro a ha
    obtain ⟨tier, s, htype, hstation, hbreach, -⟩ := hactive a ha
    rw [toResolve_iff htype hstation]
    exact not_not_intro hbreach
  have hsecond : secondPass formats thresholds offline stillOffline rows = [] := by
    apply List.eq_nil_iff_forall_not_mem.mpr
    intro rs hrs
    obtain ⟨⟨a, ha, -, s', hstation', hback⟩, -⟩ := mem_secondPass_returned hrs
    obtain ⟨tier, s, -, hstation, -, hstill⟩ := hactive a ha
    have hss : s' = s := Option.some.inj (hstation'.symm.trans hstation)
    have hgone := (mem_reconnectedStations.mp hback).2
    rw [hss, hstill] at hgone
    exact absurd hgone (by decide)
  rw [runOnce_rows, hresolves, hsecond]
  apply statuses_upserts
  intro up hup
  obtain ⟨hup, hstill⟩ := List.mem_filter.mp hup
  obtain ⟨tier, -, hkey, -⟩ := Planned.of_plan hup
  rw [hkey]
  exact (hright tier up.organizationId up.stationId).mpr ⟨mem_upserts.mp ⟨up, hup, rfl, rfl, hkey⟩, hstill⟩

theorem unshadowed_of_only {rows : List (Alert Org Depot)} (h : Produced formats rows) {now : ℚ}
    {offline : List (OfflineCharger Org Depot)} {stillOffline : String → Bool}
    (honly : ∀ a ∈ (runOnce formats thresholds now offline stillOffline rows).2, a.IsOpen →
      ∀ tier : Tier, a.alertType = tier.alertType → ∃ s, stationOf formats a = some s ∧ stillOffline s = true) :
    Unshadowed thresholds offline stillOffline rows := by
  intro a ha hopen b hb hbopen hdedup tier s hkey hbreach hgone
  have hclosed : ∀ org : Org,
      (org, dedupKey tier s) ∉ openKeys (runOnce formats thresholds now offline stillOffline rows).2 := by
    rintro org ⟨c, hc, hcopen, hckey⟩
    obtain ⟨htype, -, hstation⟩ := ((h.runOnce thresholds now offline stillOffline).key_iff hc hcopen).mpr hckey
    obtain ⟨s', hstation', hstill⟩ := honly c hc hcopen tier htype
    have hss : s' = s := Option.some.inj (hstation'.symm.trans hstation)
    rw [hss, hgone] at hstill
    exact absurd hstill (by decide)
  -- an alert that the plan keeps is closed by the second pass only
  have hpass : ∀ c ∈ rows, c.IsOpen → c.dedupKey = dedupKey tier s →
      Breaches thresholds offline tier c.organizationId s →
      ⟨c.organizationId, dedupKey tier s⟩ ∈ secondPass formats thresholds offline stillOffline rows := by
    intro c hc hcopen hckey hcbreach
    by_contra hnot
    exact hclosed c.organizationId ((mem_openKeys_runOnce now h).mpr
      ⟨.inr ⟨c, hc, hcopen, Prod.ext rfl hckey⟩, fun _ => hcbreach, hnot⟩)
  have hpassed := hpass a ha hopen hkey hbreach
  by_cases hbbreach : Breaches thresholds offline tier b.organizationId s
  · have hsame := resolveReconnected_unique (hpass b hb hbopen (hdedup.trans hkey) hbbreach) hpassed rfl
    exact congrArg PlannedResolve.organizationId hsame
  · have hplanned := (h.resolves_iff hb hbopen (hdedup.trans hkey)).mpr hbbreach
    exact absurd (hdedup.trans hkey) ((mem_secondPass_returned hpassed).2 _ hplanned)

theorem mem_secondPass_of_unshadowed {rows : List (Alert Org Depot)} (h : Produced formats rows)
    {offline : List (OfflineCharger Org Depot)} {stillOffline : String → Bool}
    (hunshadowed : Unshadowed thresholds offline stillOffline rows) {tier : Tier} {org : Org} {s : String}
    (hold : (org, dedupKey tier s) ∈ openKeys rows) (hbreach : Breaches thresholds offline tier org s)
    (hgone : stillOffline s = false) :
    ⟨org, dedupKey tier s⟩ ∈ secondPass formats thresholds offline stillOffline rows := by
  obtain ⟨a, ha, hopen, hkey⟩ := hold
  obtain ⟨horg, hdedup⟩ := Prod.mk.inj hkey
  obtain ⟨htype, -, hstation⟩ := (h.key_iff ha hopen).mpr hkey
  have hone : ∀ b ∈ rows, b.IsOpen → b.dedupKey = a.dedupKey → b.organizationId = org := by
    intro b hb hbopen hbkey
    rw [← horg] at hbreach ⊢
    exact hunshadowed a ha hopen b hb hbopen hbkey tier s hdedup hbreach hgone
  have hunseen : ∀ rs ∈ (sweepPlan formats thresholds offline rows).resolves, rs.dedupKey ≠ a.dedupKey := by
    intro rs hrs hsame
    obtain ⟨b, hb, rfl⟩ := List.mem_map.mp hrs
    obtain ⟨hrow, hbopen, -⟩ := mem_listActive.mp (List.mem_of_mem_filter hb)
    apply (h.resolves_iff hrow hbopen (hsame.trans hdedup)).mp hrs
    rw [hone b hrow hbopen hsame]
    exact hbreach
  have hback : s ∈ reconnectedStations formats thresholds offline stillOffline rows :=
    mem_reconnectedStations.mpr ⟨⟨tier, org, hbreach⟩, hgone⟩
  obtain ⟨b, hb, hbkey, hpassed⟩ :=
    exists_mem_secondPass (mem_listActive.mpr ⟨ha, hopen, tier, htype⟩) hstation hback hunseen
  obtain ⟨hrow, hbopen, -⟩ := mem_listActive.mp hb
  rw [hone b hrow hbopen hbkey, hbkey, hdedup] at hpassed
  exact hpassed

theorem mem_openKeys_of_unshadowed {rows : List (Alert Org Depot)} (h : Produced formats rows) (now : ℚ)
    {offline : List (OfflineCharger Org Depot)} {stillOffline : String → Bool}
    (hunshadowed : Unshadowed thresholds offline stillOffline rows) (tier : Tier) (org : Org) (s : String) :
    (org, dedupKey tier s) ∈ openKeys (runOnce formats thresholds now offline stillOffline rows).2 ↔
      Breaches thresholds offline tier org s ∧ stillOffline s = true := by
  rw [mem_openKeys_runOnce now h]
  constructor
  · rintro ⟨hraised | hold, hbreach, hpass⟩
    · exact hraised
    · refine ⟨hbreach hold, ?_⟩
      by_contra hgone
      rw [Bool.not_eq_true] at hgone
      exact hpass (mem_secondPass_of_unshadowed h hunshadowed hold (hbreach hold) hgone)
  · rintro ⟨hbreach, hstill⟩
    exact ⟨.inl ⟨hbreach, hstill⟩, fun _ => hbreach, not_mem_secondPass h hstill⟩

theorem exact_of_unshadowed {rows : List (Alert Org Depot)} (h : Produced formats rows) (now : ℚ)
    {offline : List (OfflineCharger Org Depot)} {stillOffline : String → Bool}
    (hunshadowed : Unshadowed thresholds offline stillOffline rows) :
    Exact formats thresholds offline stillOffline (runOnce formats thresholds now offline stillOffline rows).2 := by
  have hafter := h.runOnce thresholds now offline stillOffline
  have hright := mem_openKeys_of_unshadowed h now hunshadowed
  refine ⟨?_, ?_, settled_of_open hafter hright⟩
  · intro tier org s hbreach hstill
    exact hafter.length_openAlerts.mpr ((hright tier org s).mpr ⟨hbreach, hstill⟩)
  · intro a ha hopen tier htype
    obtain ⟨s, hstation, hkey⟩ := hafter.keyed a ha hopen tier htype
    exact ⟨s, hstation, (hright tier a.organizationId s).mp ⟨a, ha, hopen, Prod.ext rfl hkey⟩⟩

/-- A sweep is exact precisely when no open alert that the second pass should resolve is shadowed by the alert of another
organization for the same station. -/
theorem sweep_exact_iff {rows : List (Alert Org Depot)} (h : Produced formats rows) (now : ℚ)
    (offline : List (OfflineCharger Org Depot)) (stillOffline : String → Bool) :
    Exact formats thresholds offline stillOffline (runOnce formats thresholds now offline stillOffline rows).2 ↔
      Unshadowed thresholds offline stillOffline rows := by
  constructor
  · intro hexact
    apply unshadowed_of_only h
    intro a ha hopen tier htype
    obtain ⟨s, hstation, -, hstill⟩ := hexact.only a ha hopen tier htype
    exact ⟨s, hstation, hstill⟩
  · exact exact_of_unshadowed h now

/-! ## Sweep after sweep -/

/-- What a sweep meets: its time, the fetched list, in which each station stands once, and the second look. -/
structure Round (Org Depot : Type) where
  now : ℚ
  offline : List (OfflineCharger Org Depot)
  stillOffline : String → Bool
  once : ∀ c ∈ offline, ∀ c' ∈ offline, c.stationId = c'.stationId → c = c'

/-- The table after some sweeps with no other writer. -/
def rounds (formats : Formats) (thresholds : Thresholds) (rows : List (Alert Org Depot)) (rs : List (Round Org Depot)) :
    List (Alert Org Depot) :=
  rs.foldl (fun rows r => (runOnce formats thresholds r.now r.offline r.stillOffline rows).2) rows

def OneTenant (rows : List (Alert Org Depot)) : Prop :=
  ∀ (tier : Tier) (s : String) (org org' : Org),
    (org, dedupKey tier s) ∈ openKeys rows → (org', dedupKey tier s) ∈ openKeys rows → org' = org

omit [DecidableEq Org] in
theorem OneTenant.unshadowed {rows : List (Alert Org Depot)} (h : OneTenant rows)
    (offline : List (OfflineCharger Org Depot)) (stillOffline : String → Bool) :
    Unshadowed thresholds offline stillOffline rows := by
  intro a ha hopen b hb hbopen hdedup tier s hkey _ _
  exact h tier s a.organizationId b.organizationId ⟨a, ha, hopen, Prod.ext rfl hkey⟩
    ⟨b, hb, hbopen, Prod.ext rfl (hdedup.trans hkey)⟩

theorem OneTenant.runOnce {rows : List (Alert Org Depot)} (hone : OneTenant rows) (h : Produced formats rows)
    (r : Round Org Depot) : OneTenant (runOnce formats thresholds r.now r.offline r.stillOffline rows).2 := by
  intro tier s org org' hkey hkey'
  rw [mem_openKeys_of_unshadowed h r.now (hone.unshadowed _ _)] at hkey hkey'
  obtain ⟨⟨c, hc, horg, hs, -⟩, -⟩ := hkey
  obtain ⟨⟨c', hc', horg', hs', -⟩, -⟩ := hkey'
  rw [r.once c hc c' hc' (hs.trans hs'.symm), horg'] at horg
  exact Option.some.inj horg

theorem rounds_exact {rows : List (Alert Org Depot)} (h : Produced formats rows) (hone : OneTenant rows)
    (rs : List (Round Org Depot)) (r : Round Org Depot) :
    Exact formats thresholds r.offline r.stillOffline (rounds formats thresholds rows (rs ++ [r])) := by
  induction rs generalizing rows with
  | nil => exact exact_of_unshadowed h r.now (hone.unshadowed _ _)
  | cons r' rs ih => exact ih (h.runOnce thresholds r'.now r'.offline r'.stillOffline) (hone.runOnce h r')

end Sweep

/-! ## A station with two tenants -/

/-- The open alert of an organization for `CP-1`. -/
def warned (org : ℕ) : Alert ℕ ℕ where
  organizationId := org
  depotId := some 1
  alertType := Tier.warn.alertType
  severity := .warning
  title := "Charger CP-1 offline 3h+"
  detail := [("station_id", .text "CP-1")]
  dedupKey := dedupKey .warn "CP-1"
  status := .active
  lastOccurrenceAt := 0
  occurrenceCount := 1
  resolvedAt := none

/-- `CP-1` under its present tenant, without a connection for four hours. -/
def fourHours : OfflineCharger ℕ ℕ := ⟨"CP-1", 0, 14400, some 2, some 1⟩

def threeAndADay : Thresholds := ⟨10800, 86400⟩

def epochFormats : Formats where
  oneDecimal := fun _ => "4.0"
  minute := fun _ => "1970-01-01 00:00"
  isoformat := fun _ => "1970-01-01T00:00:00+00:00"
  number := fun _ => "4.0"
  context := fun kind id label => "\x7b'kind': '" ++ kind ++ "', 'id': '" ++ id ++ "', 'label': '" ++ label ++ "'\x7d"

theorem produced_warned : Produced epochFormats [warned 1, warned 2] := by
  have heither : ∀ a ∈ [warned 1, warned 2], ∃ org, a = warned org := by
    intro a ha
    rcases List.mem_cons.mp ha with rfl | ha
    · exact ⟨1, rfl⟩
    · exact ⟨2, List.mem_singleton.mp ha⟩
  refine ⟨?_, ?_, ?_⟩
  · rw [List.pairwise_pair]
    intro _ _ hkey
    exact absurd (congrArg Prod.fst hkey) (by decide)
  · intro a ha _ tier htype
    obtain ⟨org, rfl⟩ := heither a ha
    cases tier with
    | warn => exact ⟨"CP-1", stationOf_eq rfl rfl, rfl⟩
    | escalate => exact absurd htype (by decide : Tier.warn.alertType ≠ Tier.escalate.alertType)
  · intro a ha _ tier s hdedup
    obtain ⟨org, rfl⟩ := heither a ha
    obtain ⟨rfl, -⟩ := dedupKey_inj hdedup
    rfl

/-- While the charger stays away, the sweep is exact: the former tenant's alert is resolved. -/
theorem exact_two_tenants : Exact epochFormats threeAndADay [fourHours] (fun _ => true)
    (runOnce epochFormats threeAndADay 14400 [fourHours] (fun _ => true) [warned 1, warned 2]).2 :=
  (sweep_exact_iff produced_warned 14400 [fourHours] fun _ => true).mpr
    fun _ _ _ _ _ _ _ _ _ _ _ hgone => nomatch (hgone : true = false)

/-- When it comes back between the two queries, the alert of the present tenant stays open. -/
theorem shadowed_alert_stays_open : ¬ ∀ rows : List (Alert ℕ ℕ), Produced epochFormats rows →
    ∀ (now : ℚ) (offline : List (OfflineCharger ℕ ℕ)) (stillOffline : String → Bool),
      Exact epochFormats threeAndADay offline stillOffline
        (runOnce epochFormats threeAndADay now offline stillOffline rows).2 := by
  intro h
  have hunshadowed := @unshadowed_of_only ℕ ℕ _ epochFormats threeAndADay _ produced_warned 14400 [fourHours]
    (fun _ => false) (by
      intro a ha hopen tier htype
      obtain ⟨s, hstation, -, hstill⟩ :=
        (h _ produced_warned 14400 [fourHours] fun _ => false).only a ha hopen tier htype
      exact ⟨s, hstation, hstill⟩)
  have hbreach : Breaches threeAndADay [fourHours] .warn 2 "CP-1" :=
    ⟨fourHours, List.mem_singleton.mpr rfl, rfl, rfl, by norm_num [threeAndADay, fourHours, Thresholds.of]⟩
  have hsame := hunshadowed (warned 2) (by simp) nofun (warned 1) (by simp) nofun rfl .warn "CP-1" rfl hbreach rfl
  exact absurd hsame (by decide)

end FavoniusBackend.Alerts.OfflineSweep
