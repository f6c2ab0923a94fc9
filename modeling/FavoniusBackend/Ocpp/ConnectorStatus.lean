import FavoniusBackend.Lib.Dict
import FavoniusBackend.Lib.Run
import FavoniusBackend.Lib.Sql

/-!
# The connector status log across a disconnect

`connector_status` is append-only: a StatusNotification appends a row, a closed socket appends the marker
`(Unavailable, 'ConnectionLost')` for each connector of the station, and a reconnect appends `Available` for each
connector whose latest row is the marker.  Rows are read newest first, by the time at which the database received
them.  Times are in microseconds, the resolution of `TIMESTAMPTZ`, and time passes between two statements.

The marker hides the status that it replaces.  A reconnect restores the status that the charger has last reported
exactly when it was `Available` under every marker that is undone (`restored_iff_available`).
-/

namespace FavoniusBackend.Ocpp.ConnectorStatus

open Lib

/-- A row of `connector_status`. -/
structure StatusRow where
  stationId : String
  connectorId : ℤ
  status : String
  errorCode : Option String
  timestamp : ℤ
  createdAt : ℤ
  organizationId : Option String := none
  depotId : Option String := none
  deriving DecidableEq, Repr

/-- `ORDER BY connector_id, created_at DESC, timestamp DESC`. -/
def newestFirst (a b : StatusRow) : Prop :=
  a.connectorId < b.connectorId ∨ a.connectorId = b.connectorId ∧
    (b.createdAt < a.createdAt ∨ b.createdAt = a.createdAt ∧ b.timestamp ≤ a.timestamp)

instance : DecidableRel newestFirst := fun a b =>
  inferInstanceAs (Decidable (a.connectorId < b.connectorId ∨ a.connectorId = b.connectorId ∧
    (b.createdAt < a.createdAt ∨ b.createdAt = a.createdAt ∧ b.timestamp ≤ a.timestamp)))

instance : Std.Total newestFirst := ⟨fun a b => by unfold newestFirst; omega⟩

instance : IsTrans StatusRow newestFirst := ⟨fun a b c => by unfold newestFirst; omega⟩

/-- The `latest` rows of a station, one for each connector. -/
def latest (log : List StatusRow) (stationId : String) : List StatusRow :=
  Sql.distinctOn StatusRow.connectorId [] (Sql.orderBy newestFirst (log.filter fun row => row.stationId = stationId))

/-- `ORDER BY created_at DESC, timestamp DESC` of the `tenant` expression. -/
def newerOrSame (a b : StatusRow) : Prop :=
  b.createdAt < a.createdAt ∨ b.createdAt = a.createdAt ∧ b.timestamp ≤ a.timestamp

instance : DecidableRel newerOrSame := fun a b =>
  inferInstanceAs (Decidable (b.createdAt < a.createdAt ∨ b.createdAt = a.createdAt ∧ b.timestamp ≤ a.timestamp))

def tenant (log : List StatusRow) (stationId : String) : Option StatusRow :=
  (Sql.orderBy newerOrSame
    (log.filter fun row => row.stationId = stationId ∧ row.organizationId ≠ none)).head?

def statusAt (log : List StatusRow) (stationId : String) (status : String) (errorCode : Option String) (now : ℤ)
    (row : StatusRow) : StatusRow :=
  { stationId := row.stationId
    connectorId := row.connectorId
    status := status
    errorCode := errorCode
    timestamp := now
    createdAt := now
    organizationId := row.organizationId.or ((tenant log stationId).bind StatusRow.organizationId)
    depotId := row.depotId.or ((tenant log stationId).bind StatusRow.depotId) }

def markConnectorsUnavailable (log : List StatusRow) (stationId : String) (now : ℤ) : List StatusRow :=
  log ++ (latest log stationId).map (statusAt log stationId "Unavailable" (some "ConnectionLost") now)

def isMarker (row : StatusRow) : Bool :=
  decide (row.status = "Unavailable" ∧ row.errorCode = some "ConnectionLost")

def markConnectorsAvailableAfterReconnect (log : List StatusRow) (stationId : String) (now : ℤ) : List StatusRow :=
  log ++ ((latest log stationId).filter isMarker).map (statusAt log stationId "Available" none now)

/-- The log, with the status that each connector has last reported. -/
structure State where
  clock : ℤ := 0
  log : List StatusRow := []
  reported : Dict (String × ℤ) String := .empty

/-- What happens, after some microseconds. -/
inductive Event
  | report (after : ℕ) (stationId : String) (connectorId : ℤ) (status : String) (errorCode : Option String)
      (timestamp : ℤ) (organizationId depotId : Option String)
  | drop (after : ℕ) (stationId : String)
  | reconnect (after : ℕ) (stationId : String)

def State.tick (s : State) (after : ℕ) : ℤ := s.clock + after + 1

def step (s : State) : Event → State
  | .report after stationId connectorId status errorCode timestamp organizationId depotId =>
    { clock := s.tick after
      log := s.log ++ [StatusRow.mk stationId connectorId status errorCode timestamp (s.tick after) organizationId
        depotId]
      reported := s.reported.set (stationId, connectorId) status }
  | .drop after stationId =>
    { s with
      clock := s.tick after
      log := markConnectorsUnavailable s.log stationId (s.tick after) }
  | .reconnect after stationId =>
    { s with
      clock := s.tick after
      log := markConnectorsAvailableAfterReconnect s.log stationId (s.tick after) }

/-! ## The latest row -/

def lastRow (log : List StatusRow) (stationId : String) (connectorId : ℤ) : Option StatusRow :=
  (log.filter fun row => row.stationId = stationId ∧ row.connectorId = connectorId).getLast?

def Ordered (log : List StatusRow) : Prop :=
  log.Pairwise fun a b => a.stationId = b.stationId → a.connectorId = b.connectorId → a.createdAt < b.createdAt

theorem lastRow_append (log new : List StatusRow) (stationId : String) (connectorId : ℤ) :
    lastRow (log ++ new) stationId connectorId =
      (lastRow new stationId connectorId).or (lastRow log stationId connectorId) := by
  rw [lastRow, List.filter_append, List.getLast?_append]
  rfl

theorem lastRow_eq_some {log : List StatusRow} {stationId : String} {connectorId : ℤ} {row : StatusRow}
    (h : lastRow log stationId connectorId = some row) :
    row ∈ log ∧ row.stationId = stationId ∧ row.connectorId = connectorId := by
  have := List.mem_filter.mp (List.mem_of_getLast? h)
  simpa using this

theorem exists_lastRow_of_mem {log : List StatusRow} {row : StatusRow} (h : row ∈ log) :
    ∃ row', lastRow log row.stationId row.connectorId = some row' := by
  apply Option.isSome_iff_exists.mp
  rw [lastRow, List.getLast?_isSome]
  exact List.ne_nil_of_mem (List.mem_filter.mpr ⟨h, by simp⟩)

theorem createdAt_lt_lastRow {log : List StatusRow} (hlog : Ordered log) {row last : StatusRow} (hmem : row ∈ log)
    (hlast : lastRow log row.stationId row.connectorId = some last) (hne : row ≠ last) :
    row.createdAt < last.createdAt := by
  obtain ⟨pre, hpre⟩ := List.getLast?_eq_some_iff.mp hlast
  have hordered : Ordered (pre ++ [last]) := by
    rw [← hpre]
    exact hlog.sublist List.filter_sublist
  have hrow : row ∈ pre ++ [last] := by
    rw [← hpre]
    exact List.mem_filter.mpr ⟨hmem, by simp⟩
  obtain ⟨-, hstation, hconnector⟩ := lastRow_eq_some hlast
  rcases List.mem_append.mp hrow with hin | heq
  · exact (List.pairwise_append.mp hordered).2.2 row hin last List.mem_cons_self hstation.symm hconnector.symm
  · exact absurd (List.mem_singleton.mp heq) hne

theorem eq_lastRow_of_mem_latest {log : List StatusRow} (hlog : Ordered log) {stationId : String} {row : StatusRow}
    (h : row ∈ latest log stationId) :
    row.stationId = stationId ∧ lastRow log stationId row.connectorId = some row := by
  have hmem := Sql.mem_orderBy.mp (Sql.mem_distinctOn _ _ _ _ h).1
  obtain ⟨hin, hstation⟩ := List.mem_filter.mp hmem
  obtain rfl : row.stationId = stationId := by simpa using hstation
  refine ⟨rfl, ?_⟩
  obtain ⟨last, hlast⟩ := exists_lastRow_of_mem hin
  obtain ⟨hlastMem, hs, hc⟩ := lastRow_eq_some hlast
  have hle : newestFirst row last :=
    Sql.distinctOn_le newestFirst (fun a => by unfold newestFirst; omega) _ _ _ (Sql.orderBy_pairwise _ _) row h last
      (Sql.mem_orderBy.mpr (List.mem_filter.mpr ⟨hlastMem, by simpa using hs⟩)) hc
  by_cases heq : row = last
  · rw [hlast, ← heq]
  · have hlt := createdAt_lt_lastRow hlog hin hlast heq
    unfold newestFirst at hle
    omega

/-- **The latest rows are the last ones.** -/
theorem mem_latest_iff {log : List StatusRow} (hlog : Ordered log) {stationId : String} {row : StatusRow} :
    row ∈ latest log stationId ↔ lastRow log stationId row.connectorId = some row := by
  constructor
  · exact fun h => (eq_lastRow_of_mem_latest hlog h).2
  · intro h
    obtain ⟨hmem, hstation, -⟩ := lastRow_eq_some h
    obtain ⟨row', hrow', hconnector⟩ := Sql.exists_mem_distinctOn StatusRow.connectorId row
      (Sql.orderBy newestFirst (log.filter fun row => row.stationId = stationId)) []
      (Sql.mem_orderBy.mpr (List.mem_filter.mpr ⟨hmem, by simpa using hstation⟩)) List.not_mem_nil
    have hlast := (eq_lastRow_of_mem_latest hlog hrow').2
    rw [hconnector, h] at hlast
    exact Option.some.inj hlast ▸ hrow'

/-! ## What a hook appends -/

theorem lastRow_of_nodup {rows : List StatusRow} (hnodup : (rows.map StatusRow.connectorId).Nodup) {row : StatusRow}
    (h : row ∈ rows) : lastRow rows row.stationId row.connectorId = some row := by
  obtain ⟨row', hrow'⟩ := exists_lastRow_of_mem h
  obtain ⟨hmem, -, hconnector⟩ := lastRow_eq_some hrow'
  rw [hrow', List.inj_on_of_nodup_map hnodup hmem h hconnector]

theorem lastRow_eq_none {rows : List StatusRow} {stationId : String} {connectorId : ℤ}
    (h : ∀ row ∈ rows, row.stationId = stationId → row.connectorId ≠ connectorId) :
    lastRow rows stationId connectorId = none := by
  rw [Option.eq_none_iff_forall_ne_some]
  intro row hrow
  obtain ⟨hmem, hstation, hconnector⟩ := lastRow_eq_some hrow
  exact h row hmem hstation hconnector

theorem lastRow_append_singleton (log : List StatusRow) (row : StatusRow) (stationId : String) (connectorId : ℤ) :
    lastRow (log ++ [row]) stationId connectorId =
      if (stationId, connectorId) = (row.stationId, row.connectorId) then some row
      else lastRow log stationId connectorId := by
  rw [lastRow_append]
  by_cases hkey : (stationId, connectorId) = (row.stationId, row.connectorId)
  · obtain ⟨rfl, rfl⟩ := Prod.mk.inj hkey
    simp [lastRow]
  · rw [if_neg hkey, lastRow_eq_none, Option.none_or]
    intro row' hrow' hs hc
    obtain rfl := List.mem_singleton.mp hrow'
    exact hkey (Prod.ext hs.symm hc.symm)

section Hook

variable {log : List StatusRow} (hlog : Ordered log) (stationId : String) (p : StatusRow → Bool)
  (status : String) (errorCode : Option String) (now : ℤ)

/-- The rows that a hook appends for the connectors whose latest row meets `p`. -/
def appended (log : List StatusRow) (stationId : String) (p : StatusRow → Bool) (status : String)
    (errorCode : Option String) (now : ℤ) : List StatusRow :=
  ((latest log stationId).filter p).map (statusAt log stationId status errorCode now)

theorem appended_nodup : ((appended log stationId p status errorCode now).map StatusRow.connectorId).Nodup := by
  rw [appended, List.map_map]
  exact (Sql.distinctOn_keys_nodup StatusRow.connectorId _ []).sublist (List.filter_sublist.map _)

include hlog in
theorem mem_appended {row : StatusRow} :
    row ∈ appended log stationId p status errorCode now ↔
      ∃ old, lastRow log stationId old.connectorId = some old ∧ p old ∧
        statusAt log stationId status errorCode now old = row := by
  rw [appended, List.mem_map]
  constructor
  · rintro ⟨old, hold, rfl⟩
    obtain ⟨hlatest, hp⟩ := List.mem_filter.mp hold
    exact ⟨old, (mem_latest_iff hlog).mp hlatest, hp, rfl⟩
  · rintro ⟨old, hlatest, hp, rfl⟩
    exact ⟨old, List.mem_filter.mpr ⟨(mem_latest_iff hlog).mpr hlatest, hp⟩, rfl⟩

include hlog in
/-- **What a hook does to the last row of a connector**: it replaces the ones of the station that it picks. -/
theorem lastRow_append_appended (stationId' : String) (connectorId : ℤ) :
    lastRow (log ++ appended log stationId p status errorCode now) stationId' connectorId =
      (lastRow log stationId' connectorId).map fun row =>
        if stationId' = stationId ∧ p row then statusAt log stationId status errorCode now row else row := by
  rw [lastRow_append]
  cases hlast : lastRow log stationId' connectorId with
  | none =>
    rw [Option.or_none, Option.map_none]
    apply lastRow_eq_none
    rintro row hrow rfl rfl
    obtain ⟨old, hold, -, rfl⟩ := (mem_appended hlog stationId p status errorCode now).mp hrow
    obtain ⟨-, hs, -⟩ := lastRow_eq_some hold
    have : lastRow log old.stationId old.connectorId = none := hlast
    rw [hs, hold] at this
    cases this
  | some last =>
    obtain ⟨-, rfl, rfl⟩ := lastRow_eq_some hlast
    rw [Option.map_some]
    split
    · rename_i h
      have hmem := (mem_appended hlog stationId p status errorCode now).mpr ⟨last, h.1 ▸ hlast, h.2, rfl⟩
      have := lastRow_of_nodup (appended_nodup stationId p status errorCode now) hmem
      rw [show (statusAt log stationId status errorCode now last).stationId = last.stationId from rfl,
        show (statusAt log stationId status errorCode now last).connectorId = last.connectorId from rfl] at this
      rw [this, Option.some_or]
    · rename_i h
      rw [lastRow_eq_none, Option.none_or]
      rintro row hrow hs hc
      obtain ⟨old, hold, hp, rfl⟩ := (mem_appended hlog stationId p status errorCode now).mp hrow
      obtain ⟨-, hstation, -⟩ := lastRow_eq_some hold
      have hs : old.stationId = last.stationId := hs
      have hc : old.connectorId = last.connectorId := hc
      rw [hc, ← hstation, hs, hlast] at hold
      obtain rfl := Option.some.inj hold
      exact h ⟨hstation, hp⟩

include hlog in
theorem Ordered.append_appended (hpast : ∀ row ∈ log, row.createdAt < now) :
    Ordered (log ++ appended log stationId p status errorCode now) := by
  refine List.pairwise_append.mpr ⟨hlog, ?_, ?_⟩
  · have hnodup : ((appended log stationId p status errorCode now).map StatusRow.connectorId).Nodup :=
      appended_nodup stationId p status errorCode now
    rw [List.nodup_iff_pairwise_ne, List.pairwise_map] at hnodup
    exact hnodup.imp fun hne _ hc => absurd hc hne
  · intro a ha b hb _ _
    obtain ⟨old, -, -, rfl⟩ := (mem_appended hlog stationId p status errorCode now).mp hb
    exact hpast a ha

end Hook

theorem markConnectorsUnavailable_eq (log : List StatusRow) (stationId : String) (now : ℤ) :
    markConnectorsUnavailable log stationId now =
      log ++ appended log stationId (fun _ => true) "Unavailable" (some "ConnectionLost") now := by
  rw [markConnectorsUnavailable, appended, List.filter_true]

/-! ## What a reconnect restores -/

/-- After a reconnect the latest row of every connector of the station has the status that the charger has last
reported. -/
def Restores (s : State) (op : Event) : Prop :=
  match op with
  | .reconnect _ stationId => ∀ connectorId status, s.reported.get? (stationId, connectorId) = some status →
      ∃ row ∈ latest (step s op).log stationId, row.connectorId = connectorId ∧ row.status = status
  | _ => True

/-- At a reconnect every connector of the station whose latest row is the marker was last reported `Available`. -/
def WasAvailable (s : State) : Event → Prop
  | .reconnect _ stationId => ∀ row ∈ latest s.log stationId, isMarker row →
      s.reported.get? (stationId, row.connectorId) = some "Available"
  | _ => True

structure Tracked (s : State) : Prop where
  ordered : Ordered s.log
  past : ∀ row ∈ s.log, row.createdAt ≤ s.clock
  known : ∀ stationId connectorId, s.reported.get? (stationId, connectorId) = none ↔
    lastRow s.log stationId connectorId = none
  status : ∀ stationId connectorId row, lastRow s.log stationId connectorId = some row →
    isMarker row ∨ s.reported.get? (stationId, connectorId) = some row.status

theorem Tracked.lt_tick {s : State} (h : Tracked s) (after : ℕ) : ∀ row ∈ s.log, row.createdAt < s.tick after := by
  intro row hrow
  have := h.past row hrow
  unfold State.tick
  omega

theorem Tracked.report {s : State} (h : Tracked s) (after : ℕ) (stationId : String) (connectorId : ℤ) (status : String)
    (errorCode : Option String) (timestamp : ℤ) (organizationId depotId : Option String) :
    Tracked (step s (.report after stationId connectorId status errorCode timestamp organizationId depotId)) := by
  refine ⟨?_, ?_, ?_, ?_⟩
  · refine List.pairwise_append.mpr ⟨h.ordered, List.pairwise_singleton _ _, ?_⟩
    intro a ha b hb _ _
    obtain rfl := List.mem_singleton.mp hb
    exact h.lt_tick after a ha
  · intro row hrow
    rcases List.mem_append.mp hrow with hold | hnew
    · exact (h.lt_tick after row hold).le
    · obtain rfl := List.mem_singleton.mp hnew
      exact le_rfl
  · intro stationId' connectorId'
    show (s.reported.set _ _).get? _ = none ↔ lastRow (s.log ++ [_]) _ _ = none
    rw [Dict.get?_set, lastRow_append_singleton]
    split
    · simp
    · exact h.known stationId' connectorId'
  · intro stationId' connectorId' row hrow
    have hrow : lastRow (s.log ++ [_]) stationId' connectorId' = some row := hrow
    rw [lastRow_append_singleton] at hrow
    show _ ∨ (s.reported.set _ _).get? _ = _
    rw [Dict.get?_set]
    split at hrow
    · rename_i hkey
      obtain rfl := Option.some.inj hrow
      rw [if_pos hkey]
      exact .inr rfl
    · rename_i hkey
      rw [if_neg hkey]
      exact h.status stationId' connectorId' row hrow

theorem Tracked.hook {s : State} (h : Tracked s) (after : ℕ) (stationId : String) (p : StatusRow → Bool)
    (status : String) (errorCode : Option String)
    (hnew : ∀ row ∈ latest s.log stationId, p row →
      isMarker (statusAt s.log stationId status errorCode (s.tick after) row) ∨
        s.reported.get? (stationId, row.connectorId) = some status) :
    Tracked { s with clock := s.tick after
                     log := s.log ++ appended s.log stationId p status errorCode (s.tick after) } := by
  refine ⟨h.ordered.append_appended _ _ _ _ _ (h.lt_tick after), ?_, ?_, ?_⟩
  · intro row hrow
    rcases List.mem_append.mp hrow with hold | hnew
    · exact (h.lt_tick after row hold).le
    · obtain ⟨old, -, -, rfl⟩ := (mem_appended h.ordered _ _ _ _ _).mp hnew
      exact le_rfl
  · intro stationId' connectorId
    rw [lastRow_append_appended h.ordered, Option.map_eq_none_iff]
    exact h.known stationId' connectorId
  · intro stationId' connectorId row hrow
    rw [lastRow_append_appended h.ordered] at hrow
    obtain ⟨old, hold, rfl⟩ := Option.map_eq_some_iff.mp hrow
    obtain ⟨-, -, hconnector⟩ := lastRow_eq_some hold
    split
    · rename_i hpick
      obtain ⟨rfl, hp⟩ := hpick
      have hlatest : old ∈ latest s.log stationId' := (mem_latest_iff h.ordered).mpr (hconnector.symm ▸ hold)
      rw [← hconnector]
      exact hnew old hlatest hp
    · exact h.status stationId' connectorId old hold

theorem restores_iff_wasAvailable {s : State} (h : Tracked s) (op : Event) : Restores s op ↔ WasAvailable s op := by
  cases op with
  | report => exact Iff.rfl
  | drop => exact Iff.rfl
  | reconnect after stationId =>
    have hordered : Ordered (step s (.reconnect after stationId)).log :=
      h.ordered.append_appended stationId isMarker "Available" none (s.tick after) (h.lt_tick after)
    have hlast : ∀ connectorId, lastRow (step s (.reconnect after stationId)).log stationId connectorId =
        (lastRow s.log stationId connectorId).map fun row =>
          if stationId = stationId ∧ isMarker row then
            statusAt s.log stationId "Available" none (s.tick after) row
          else row :=
      fun connectorId => lastRow_append_appended h.ordered stationId isMarker "Available" none _ _ connectorId
    constructor
    · intro hrestores row hrow hmarker
      have hold := (mem_latest_iff h.ordered).mp hrow
      obtain ⟨status, hstatus⟩ := Option.ne_none_iff_exists'.mp
        (mt (h.known stationId row.connectorId).mp (by simp [hold]))
      obtain ⟨row', hrow', hconnector, rfl⟩ := hrestores row.connectorId status hstatus
      have hnew := (mem_latest_iff hordered).mp hrow'
      rw [hconnector, hlast, hold, Option.map_some, if_pos ⟨rfl, hmarker⟩] at hnew
      rw [hstatus, ← Option.some.inj hnew]
      rfl
    · intro havailable connectorId status hstatus
      obtain ⟨row, hrow⟩ := Option.ne_none_iff_exists'.mp
        (mt (h.known stationId connectorId).mpr (by simp [hstatus]))
      obtain ⟨-, -, rfl⟩ := lastRow_eq_some hrow
      have hnew := hlast row.connectorId
      rw [hrow, Option.map_some] at hnew
      by_cases hmarker : isMarker row
      · rw [if_pos ⟨rfl, hmarker⟩] at hnew
        have havail := havailable row ((mem_latest_iff h.ordered).mpr hrow) hmarker
        refine ⟨statusAt s.log stationId "Available" none (s.tick after) row, (mem_latest_iff hordered).mpr hnew, rfl, ?_⟩
        exact Option.some.inj (havail.symm.trans hstatus)
      · rw [if_neg fun hc => hmarker hc.2] at hnew
        refine ⟨row, (mem_latest_iff hordered).mpr hnew, rfl, ?_⟩
        have hsame := (h.status stationId row.connectorId row hrow).resolve_left hmarker
        exact Option.some.inj (hsame.symm.trans hstatus)

theorem Tracked.step {s : State} (h : Tracked s) {op : Event} (hop : WasAvailable s op) : Tracked (step s op) := by
  cases op with
  | report => exact h.report ..
  | drop after stationId =>
    show Tracked { s with clock := _, log := markConnectorsUnavailable _ _ _ }
    rw [markConnectorsUnavailable_eq]
    exact h.hook after stationId _ _ _ fun _ _ _ => .inl rfl
  | reconnect after stationId =>
    exact h.hook after stationId isMarker "Available" none fun row hrow hmarker => .inr (hop row hrow hmarker)

/-- **What a reconnect restores.**  In a run of reports, disconnects and reconnects, every reconnect leaves each
connector of its station with the status that the charger has last reported if and only if at every reconnect each
connector whose latest row is the marker was last reported `Available`. -/
theorem restored_iff_available (ops : List Event) :
    Run.Along step Restores {} ops ↔ Run.Along step WasAvailable {} ops := by
  have hstart : Tracked {} := ⟨List.Pairwise.nil, by simp, by intro _ _; simp [lastRow], by simp [lastRow]⟩
  refine Run.along_iff_along (fun s op h => restores_iff_wasAvailable h op) ?_ hstart
  intro s op hrestores h
  exact h.step ((restores_iff_wasAvailable h op).mp hrestores)

def faultedThenDropped : List Event :=
  [.report 0 "CP1" 1 "Faulted" (some "GroundFailure") 0 none none, .drop 1000 "CP1"]

/-- After the reconnect the faulted connector is `Available`. -/
theorem faulted_connector_becomes_available :
    ¬ Run.Along step Restores {} (faultedThenDropped ++ [Event.reconnect 1000 "CP1"]) := by
  intro h
  obtain ⟨row, hrow, -, hstatus⟩ := h.last 1 "Faulted" (by decide)
  have : (latest (step (Run.run step {} faultedThenDropped) (.reconnect 1000 "CP1")).log "CP1").map StatusRow.status =
      ["Available"] := by
    decide
  have hmem := List.mem_map_of_mem (f := StatusRow.status) hrow
  rw [this, hstatus] at hmem
  revert hmem
  decide

end FavoniusBackend.Ocpp.ConnectorStatus
