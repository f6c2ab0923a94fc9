import FavoniusBackend.Lib.Keyset
import FavoniusBackend.Lib.Sql
import FavoniusBackend.Transactions.Cursor

/-!
# Paging through the transactions

`get_energy_transactions` and `_fetch_transaction_records` of `api/main.py`.  The rows lie in descending order of their start
and their session; a page asks for one row more than it shows, and its cursor is that of its last row.

The cursor keeps the second in which the row starts, and the comparison of the next request starts from there: the rows
between are on no page.  The pages have every row exactly where no page ends right before such a row
(`paging_complete_iff`).  No row is on two pages.
-/

namespace FavoniusBackend.Transactions

open Lib
open Lib.Calendar
open Lib.PyJson
open Lib.DateTime

/-! ## The tables and the request -/

/-- A row of `charging_sessions`. -/
structure ChargingSession where
  sessionId : Uuid
  startTime : Wall
  stationId : Option String
  siteId : Option String
  source : Option String
  vehicleId : Option Uuid
  driverId : Option Uuid
  cardId : Option Uuid

structure ChargingSessions where
  rows : List ChargingSession
  distinct : (rows.map ChargingSession.sessionId).Nodup

/-- What `_load_report_context` returns; `chargers` has the station and the identifier of every charger of the depot. -/
structure Depot where
  depotId : String
  timezone : String
  chargers : List (String × String)

def Depot.ocppIds (d : Depot) : List String := d.chargers.map Prod.fst

def Depot.chargerIdByOcppId (d : Depot) : Dict String String := Dict.ofList d.chargers

/-- The parameters of a request. -/
structure Query where
  fromDate : Date
  toDate : Date
  vehicleId : Option Uuid
  chargerId : Option String
  driverId : Option Uuid
  cardId : Option Uuid
  search : Option String
  limit : ℕ
  cursor : Option (List Char)

/-- What is done outside: whether `strftime` pads the year, the beginning of a day in a zone, `ILIKE` with its escape, and
how the text of a UUID becomes a parameter. -/
structure Platform where
  padsYear : Bool
  midnight : Date → String → ℤ
  ilike : String → String → Bool
  uuid : List Char → Option Uuid
  uuid_text : ∀ u : Uuid, uuid u.text = some u

/-! ## The request -/

def Query.cursorPair (q : Query) : Except Failure (Option (DateTime × List Char)) :=
  match q.cursor.filter (· ≠ []) with
  | some cursor => (decodeTransactionCursor cursor).map some
  | none => .ok none

/-- What the rows are ordered by. -/
def ChargingSession.key (s : ChargingSession) : ℤ ×ₗ Uuid := toLex (s.startTime.val, s.sessionId)

def escapeLike (value : String) : String :=
  ((value.replace "\\" "\\\\").replace "%" "\\%").replace "_" "\\_"

section Request

variable (p : Platform) (sessions : ChargingSessions) (d : Depot) (q : Query)

/-- `search`, without the spaces around it. -/
def searchClean : Option String :=
  (q.search.map fun search => String.ofList (Text.strip search.toList)).filter fun search => search ≠ ""

def searchStationIds (search : String) : List String :=
  (d.chargerIdByOcppId.items.filter fun entry =>
    decide (Text.lower search.toList <:+: Text.lower entry.2.toList)).map Prod.fst

def matchesSearch (search : String) (s : ChargingSession) : Bool :=
  let pattern := "%" ++ escapeLike search ++ "%"
  let like (u : Option Uuid) := u.any fun u => p.ilike (String.ofList u.text) pattern
  like s.vehicleId || like s.driverId || like s.cardId || like (some s.sessionId) ||
    s.stationId.any fun station => decide (station ∈ searchStationIds d search)

/-- `where_parts` without that of the cursor; a comparison with NULL is not true. -/
def whereParts (targetStationId : Option String) (s : ChargingSession) : Bool :=
  ((s.stationId.any fun station => decide (station ∈ d.ocppIds)) ||
    (decide (s.siteId = some d.depotId) && decide (s.source = some "import"))) &&
  decide (p.midnight q.fromDate d.timezone ≤ s.startTime.val) &&
  decide (s.startTime.val < p.midnight (q.toDate.addDays 1) d.timezone) &&
  (q.vehicleId.all fun v => decide (s.vehicleId = some v)) &&
  (targetStationId.all fun station => decide (s.stationId = some station)) &&
  (q.driverId.all fun driver => decide (s.driverId = some driver)) &&
  (q.cardId.all fun card => decide (s.cardId = some card)) &&
  ((searchClean q).all fun search => matchesSearch p d search s)

def fetchTransactionRecords (targetStationId : Option String) (cursor : Option (DateTime × List Char)) (limitPlusOne : ℕ) :
    Except Failure (List ChargingSession) :=
  let select (below : ChargingSession → Bool) :=
    (Sql.orderBy (fun a b : ChargingSession => b.key ≤ a.key)
      (sessions.rows.filter fun s => whereParts p d q targetStationId s && below s)).take limitPlusOne
  match cursor with
  | none => .ok (select fun _ => true)
  | some (startedAt, sessionId) =>
    match p.uuid sessionId with
    | some u => .ok (select fun s => decide (s.key < toLex (startedAt.instant, u)))
    | none => .error (.unhandled .valueError)

/-- The station of the charger that is asked for; the outer `none` stands for a charger of another depot. -/
def targetStation : Option (Option String) :=
  match q.chargerId with
  | none => some none
  | some chargerId =>
    (d.chargerIdByOcppId.items.find? fun entry => decide (entry.2 = chargerId)).map fun entry => some entry.1

/-- The part of the response that depends on the rows. -/
structure Page where
  rows : List ChargingSession
  nextCursor : Option (List Char)

def pageOf (records : List ChargingSession) : Except Failure Page :=
  let page := records.take q.limit
  if q.limit < records.length then
    match page.getLast? with
    | some last =>
      match encodeTransactionCursor p.padsYear (utc last.startTime) last.sessionId.text with
      | .ok cursor => .ok ⟨page, some cursor⟩
      | .error e => .error (.unhandled e)
    | none => .ok ⟨page, none⟩
  else .ok ⟨page, none⟩

def getEnergyTransactions : Except Failure Page := do
  if q.toDate.toOrdinal < q.fromDate.toOrdinal then
    .error (.badRequest "'to' must be on or after 'from'")
  else if 366 ≤ q.toDate.toOrdinal - q.fromDate.toOrdinal then
    .error (.badRequest "Date range cannot exceed 1 year")
  else
    let cursorPair ← q.cursorPair
    match targetStation d q with
    | none => .ok ⟨[], none⟩
    | some targetStationId =>
      let records ← fetchTransactionRecords p sessions d q targetStationId cursorPair (q.limit + 1)
      pageOf p q records

def followPages : ℕ → Option (List Char) → Option (List ChargingSession)
  | 0, _ => none
  | n + 1, cursor =>
    match getEnergyTransactions p sessions d { q with cursor := cursor } with
    | .error _ => none
    | .ok page =>
      match page.nextCursor with
      | none => some page.rows
      | some cursor => (followPages n (some cursor)).map (page.rows ++ ·)

end Request

/-! ## What is meant -/

/-- The request is in order. -/
structure Query.Accepted (q : Query) : Prop where
  dates : q.fromDate.toOrdinal ≤ q.toDate.toOrdinal
  range : q.toDate.toOrdinal - q.fromDate.toOrdinal < 366
  limit : 1 ≤ q.limit ∧ q.limit ≤ 5000

section Meaning

variable (p : Platform) (sessions : ChargingSessions) (d : Depot) (q : Query)

def Matches (s : ChargingSession) : Prop := ∃ target, targetStation d q = some target ∧ whereParts p d q target s = true

/-- The rows that match, each once, the last start first. -/
structure Complete (rows : List ChargingSession) : Prop where
  mem : ∀ s, s ∈ rows ↔ s ∈ sessions.rows ∧ Matches p d q s
  order : rows.Pairwise fun a b => b.key < a.key

/-- No page ends right before a row that starts in the second of the page's last row, unless the last row's second is its
start; and the years at the ends of the pages are written in four digits. -/
def EndsWell (limit : ℕ) (rows : List ChargingSession) : Prop :=
  ∀ k a b, rows[(k + 1) * limit - 1]? = some a → rows[(k + 1) * limit]? = some b →
    (p.padsYear = true ∨ 1000 ≤ year a.startTime) ∧ b.key < toLex ((wholeSecond a.startTime).val, a.sessionId)

end Meaning

def RoundTrips (padsYear : Bool) (t : DateTime) (id : Uuid) : Prop :=
  ∃ cursor t', encodeTransactionCursor padsYear t id.text = .ok cursor ∧
    decodeTransactionCursor cursor = .ok (t', id.text) ∧ t'.instant = t.instant

/-! ## The records -/

instance : Std.Total fun a b : ChargingSession => b.key ≤ a.key := ⟨fun a b => le_total b.key a.key⟩

instance : IsTrans ChargingSession fun a b => b.key ≤ a.key := ⟨fun _ _ _ hab hbc => hbc.trans hab⟩

section Records

variable (p : Platform) (sessions : ChargingSessions) (d : Depot) (q : Query)

def matching (targetStationId : Option String) : List ChargingSession :=
  Sql.orderBy (fun a b : ChargingSession => b.key ≤ a.key) (sessions.rows.filter (whereParts p d q targetStationId))

theorem mem_matching {targetStationId : Option String} {s : ChargingSession} :
    s ∈ matching p sessions d q targetStationId ↔ s ∈ sessions.rows ∧ whereParts p d q targetStationId s = true := by
  unfold matching
  rw [Sql.mem_orderBy, List.mem_filter]

theorem key_injective_on {a b : ChargingSession} (ha : a ∈ sessions.rows) (hb : b ∈ sessions.rows) (h : a.key = b.key) :
    a = b := by
  have hid : a.sessionId = b.sessionId := congrArg (fun k => (ofLex k).2) h
  exact List.inj_on_of_nodup_map sessions.distinct ha hb hid

theorem descending_matching (targetStationId : Option String) :
    Keyset.Descending ChargingSession.key (matching p sessions d q targetStationId) := by
  have hsorted := Sql.orderBy_pairwise (fun a b : ChargingSession => b.key ≤ a.key)
    (sessions.rows.filter (whereParts p d q targetStationId))
  have hnodup : (matching p sessions d q targetStationId).Nodup := by
    refine ((List.perm_insertionSort _ _).nodup_iff).mpr ?_
    exact (List.Nodup.of_map _ sessions.distinct).filter _
  refine (List.Pairwise.and_mem.mp (hsorted.and hnodup)).imp fun {a b} ⟨ha, hb, hle, hne⟩ => ?_
  refine lt_of_le_of_ne hle fun heq => hne ?_
  exact key_injective_on sessions ((mem_matching p sessions d q).mp ha).1 ((mem_matching p sessions d q).mp hb).1 heq.symm

theorem fetch_first (targetStationId : Option String) (n : ℕ) :
    fetchTransactionRecords p sessions d q targetStationId none n =
      .ok ((matching p sessions d q targetStationId).take n) := by
  unfold fetchTransactionRecords matching
  simp only [Bool.and_true]

theorem fetch_below (targetStationId : Option String) (t : DateTime) (id : Uuid) (n : ℕ) :
    fetchTransactionRecords p sessions d q targetStationId (some (t, id.text)) n =
      .ok ((Keyset.below ChargingSession.key (toLex (t.instant, id)) (matching p sessions d q targetStationId)).take n) := by
  have hfilter : ∀ below : ChargingSession → Bool,
      sessions.rows.filter (fun s => whereParts p d q targetStationId s && below s) =
        (sessions.rows.filter (whereParts p d q targetStationId)).filter below := by
    intro below
    rw [List.filter_filter]
    exact List.filter_congr fun s _ => Bool.and_comm _ _
  unfold fetchTransactionRecords matching Keyset.below
  simp only [p.uuid_text, hfilter, Sql.orderBy_filter]

end Records

/-! ## The pages -/

/-- What the cursor of a row stands for. -/
def cut (p : Platform) (s : ChargingSession) : Option (ℤ ×ₗ Uuid) :=
  if p.padsYear = true ∨ 1000 ≤ year s.startTime then some (toLex ((wholeSecond s.startTime).val, s.sessionId)) else none

theorem cut_le (p : Platform) (s : ChargingSession) (c : ℤ ×ₗ Uuid) (h : cut p s = some c) : c ≤ s.key := by
  unfold cut at h
  split at h
  · obtain rfl := Option.some.inj h
    have hle : (wholeSecond s.startTime).val ≤ s.startTime.val := by
      show s.startTime.val - s.startTime.val % 1000000 ≤ s.startTime.val
      omega
    exact Prod.Lex.toLex_mono ⟨hle, le_rfl⟩
  · exact nomatch h

theorem encode_utc (padsYear : Bool) (w : Wall) (id : List Char) :
    encodeTransactionCursor padsYear (utc w) id = .ok (cursorText padsYear w id) := by
  have hinstant : (utc w).instant = w.val := sub_zero _
  have hutc : (utc w).toUtc = some w := by
    unfold toUtc
    simp only [hinstant, w.property, and_self, dite_true]
  rw [encodeTransactionCursor, hutc]

section Pages

variable {p : Platform} {sessions : ChargingSessions} {d : Depot} {q : Query}

theorem pageOf_take (rows : List ChargingSession) :
    pageOf p q (rows.take (q.limit + 1)) = .ok ⟨rows.take q.limit, if q.limit < rows.length then
      (rows.take q.limit).getLast?.map fun s => cursorText p.padsYear s.startTime s.sessionId.text else none⟩ := by
  have hmore : q.limit < (rows.take (q.limit + 1)).length ↔ q.limit < rows.length := by
    rw [List.length_take]
    omega
  unfold pageOf
  simp only [hmore, List.take_take, Nat.min_eq_left (Nat.le_succ q.limit), encode_utc]
  split
  · cases (rows.take q.limit).getLast? with
    | none => rfl
    | some last => rfl
  · rfl

/-- A request that is in order, past the checks of its dates. -/
theorem get_accepted (hq : q.Accepted) (cursor : Option (List Char)) :
    getEnergyTransactions p sessions d { q with cursor := cursor } =
      Query.cursorPair { q with cursor := cursor } >>= fun pair =>
        match targetStation d q with
        | none => .ok ⟨[], none⟩
        | some target => fetchTransactionRecords p sessions d q target pair (q.limit + 1) >>= pageOf p q := by
  have hdates : ¬q.toDate.toOrdinal < q.fromDate.toOrdinal := not_lt.mpr hq.dates
  have hrange : ¬366 ≤ q.toDate.toOrdinal - q.fromDate.toOrdinal := not_le.mpr hq.range
  unfold getEnergyTransactions
  rw [if_neg hdates, if_neg hrange]
  rfl

theorem get_unlisted (hq : q.Accepted) (htarget : targetStation d q = none) :
    getEnergyTransactions p sessions d { q with cursor := none } = .ok ⟨[], none⟩ := by
  rw [get_accepted hq, htarget]
  rfl

theorem get_first (hq : q.Accepted) {target : Option String} (htarget : targetStation d q = some target) :
    getEnergyTransactions p sessions d { q with cursor := none } =
      pageOf p q ((matching p sessions d q target).take (q.limit + 1)) := by
  rw [get_accepted hq, htarget]
  show (fetchTransactionRecords p sessions d q target none (q.limit + 1) >>= pageOf p q) = _
  rw [fetch_first]
  rfl

theorem get_cursor (hq : q.Accepted) {target : Option String} (htarget : targetStation d q = some target) (w : Wall)
    (id : Uuid) : getEnergyTransactions p sessions d { q with cursor := some (cursorText p.padsYear w id.text) } =
      if p.padsYear = true ∨ 1000 ≤ year w then
        pageOf p q ((Keyset.below ChargingSession.key (toLex ((wholeSecond w).val, id))
          (matching p sessions d q target)).take (q.limit + 1))
      else .error (.badRequest "Invalid cursor") := by
  have hfilter : (some (cursorText p.padsYear w id.text)).filter (· ≠ []) = some (cursorText p.padsYear w id.text) :=
    Option.filter_some_pos (decide_eq_true (cursorText_ne_nil p.padsYear w id.text))
  rw [get_accepted hq, htarget, Query.cursorPair, hfilter]
  simp only [decode_cursorText]
  split
  · show (fetchTransactionRecords p sessions d q target (some (utc (wholeSecond w), id.text)) (q.limit + 1) >>=
      pageOf p q) = _
    rw [fetch_below]
    have hinstant : (utc (wholeSecond w)).instant = (wholeSecond w).val := sub_zero _
    rw [hinstant]
    rfl
  · rfl

theorem followPages_eq (hq : q.Accepted) {target : Option String} (htarget : targetStation d q = some target) {n : ℕ}
    {cursor : Option (List Char)} {rows : List ChargingSession}
    (hget : getEnergyTransactions p sessions d { q with cursor := cursor } = pageOf p q (rows.take (q.limit + 1)))
    (hbelow : ∀ a ∈ rows, ∀ c, cut p a = some c → Keyset.below ChargingSession.key c rows =
      Keyset.below ChargingSession.key c (matching p sessions d q target)) :
    followPages p sessions d q n cursor = Keyset.follow ChargingSession.key (cut p) q.limit n rows := by
  induction n generalizing cursor rows with
  | zero => rfl
  | succ n ih =>
    unfold followPages Keyset.follow
    rw [hget, pageOf_take]
    by_cases hshort : rows.length ≤ q.limit
    · rw [if_neg (by omega), if_pos hshort, List.take_of_length_le hshort]
    · rw [if_pos (by omega), if_neg hshort]
      cases hlast : (rows.take q.limit).getLast? with
      | none =>
        have hempty := congrArg List.length (List.getLast?_eq_none_iff.mp hlast)
        rw [List.length_take, List.length_nil] at hempty
        have := hq.limit.1
        omega
      | some last =>
        have hmem : last ∈ rows := List.mem_of_mem_take (List.mem_of_getLast? hlast)
        have hnext := @get_cursor p sessions d q hq target htarget last.startTime last.sessionId
        simp only [Option.map_some, Option.bind_some]
        by_cases hyear : p.padsYear = true ∨ 1000 ≤ year last.startTime
        · have hcut : cut p last = some (toLex ((wholeSecond last.startTime).val, last.sessionId)) := if_pos hyear
          rw [if_pos hyear, ← hbelow last hmem _ hcut] at hnext
          rw [hcut, Option.bind_some, ih hnext]
          intro a ha c hc
          have hlt := of_decide_eq_true (List.mem_filter.mp ha).2
          rw [Keyset.below_below ((cut_le p a c hc).trans hlt.le)]
          exact hbelow a (List.mem_filter.mp ha).1 c hc
        · have hcut : cut p last = none := if_neg hyear
          rw [if_neg hyear] at hnext
          rw [hcut, Option.bind_none]
          cases n with
          | zero => rfl
          | succ n => rw [followPages, hnext, Option.map_none]

end Pages

/-! ## Completeness -/

section Completeness

variable {p : Platform} {sessions : ChargingSessions} {d : Depot} {q : Query}

instance : Std.Irrefl fun a b : ChargingSession => b.key < a.key := ⟨fun _ => lt_irrefl _⟩

theorem Complete.unique {rows rows' : List ChargingSession} (h : Complete p sessions d q rows)
    (h' : Complete p sessions d q rows') : rows = rows' :=
  List.Pairwise.eq_of_mem_iff h.order h'.order fun s => (h.mem s).trans (h'.mem s).symm

theorem complete_matching {target : Option String} (htarget : targetStation d q = some target) :
    Complete p sessions d q (matching p sessions d q target) := by
  refine ⟨fun s => (mem_matching p sessions d q).trans ?_, descending_matching p sessions d q target⟩
  refine and_congr_right fun _ => ⟨fun h => ⟨target, htarget, h⟩, ?_⟩
  rintro ⟨target', htarget', h⟩
  obtain rfl := Option.some.inj (htarget.symm.trans htarget')
  exact h

theorem complete_nil (htarget : targetStation d q = none) : Complete p sessions d q [] := by
  refine ⟨fun s => iff_of_false List.not_mem_nil ?_, List.Pairwise.nil⟩
  rintro ⟨-, target, htarget', -⟩
  exact nomatch htarget.symm.trans htarget'

theorem endsWell_iff {limit : ℕ} {rows : List ChargingSession} :
    EndsWell p limit rows ↔ Keyset.Unskipped ChargingSession.key (cut p) limit rows := by
  have hcut : ∀ a b : ChargingSession, ((p.padsYear = true ∨ 1000 ≤ year a.startTime) ∧
      b.key < toLex ((wholeSecond a.startTime).val, a.sessionId)) ↔ ∃ c, cut p a = some c ∧ b.key < c := by
    intro a b
    unfold cut
    by_cases hyear : p.padsYear = true ∨ 1000 ≤ year a.startTime
    · simp [hyear]
    · simp [hyear]
  unfold EndsWell Keyset.Unskipped
  simp only [hcut]

theorem pages_complete_iff (hq : q.Accepted) :
    (∃ n rows, followPages p sessions d q n none = some rows ∧ Complete p sessions d q rows) ↔
      ∀ rows, Complete p sessions d q rows → EndsWell p q.limit rows := by
  cases htarget : targetStation d q with
  | none =>
    refine iff_of_true ⟨1, [], ?_, complete_nil htarget⟩ fun rows hrows => ?_
    · rw [followPages, get_unlisted hq htarget]
    · rw [hrows.unique (complete_nil htarget)]
      exact fun _ _ _ ha => (nomatch ha)
  | some target =>
    have hall := @complete_matching p sessions d q target htarget
    have hdesc := descending_matching p sessions d q target
    have hpages : ∀ n, followPages p sessions d q n none =
        Keyset.follow ChargingSession.key (cut p) q.limit n (matching p sessions d q target) := fun n =>
      followPages_eq hq htarget (get_first hq htarget) fun _ _ _ _ => rfl
    have hiff := Keyset.exists_follow_iff (cut_le p) hq.limit.1 hdesc
    constructor
    · rintro ⟨n, rows, hfollow, hrows⟩ rows' hrows'
      obtain rfl := hrows.unique hall
      obtain rfl := hrows'.unique hrows
      exact endsWell_iff.mpr (hiff.mp ⟨n, (hpages n).symm.trans hfollow⟩)
    · intro h
      obtain ⟨n, hn⟩ := hiff.mpr (endsWell_iff.mp (h _ hall))
      exact ⟨n, _, (hpages n).trans hn, hall⟩

/-- The time in UTC is one that a `datetime` can have, its year is written in four digits, and it is a full second. -/
def KeepsTime (padsYear : Bool) (t : DateTime) : Prop :=
  ∃ w, t.toUtc = some w ∧ (padsYear = true ∨ 1000 ≤ year w) ∧ w.val % 1000000 = 0

theorem roundTrips_iff (padsYear : Bool) (t : DateTime) (id : Uuid) : RoundTrips padsYear t id ↔ KeepsTime padsYear t := by
  have hinstant : ∀ {w}, t.toUtc = some w → w.val = t.instant := by
    intro w hw
    unfold toUtc at hw
    split at hw
    · obtain rfl := Option.some.inj hw
      rfl
    · exact nomatch hw
  constructor
  · rintro ⟨cursor, t', hencode, hdecode, hsame⟩
    unfold encodeTransactionCursor at hencode
    split at hencode
    · rename_i w hw
      obtain rfl := Except.ok.inj hencode
      rw [decode_cursorText] at hdecode
      split at hdecode
      · rename_i hyear
        obtain ⟨rfl, -⟩ := Prod.mk.inj (Except.ok.inj hdecode)
        refine ⟨w, hw, hyear, ?_⟩
        have hsecond : w.val - w.val % 1000000 - 0 = w.val := hsame.trans (hinstant hw).symm
        omega
      · exact nomatch hdecode
    · exact nomatch hencode
  · rintro ⟨w, hw, hyear, hsecond⟩
    refine ⟨cursorText padsYear w id.text, utc (wholeSecond w), ?_, ?_, ?_⟩
    · rw [encodeTransactionCursor, hw]
    · rw [decode_cursorText, if_pos hyear]
    · show w.val - w.val % 1000000 - 0 = t.instant
      rw [hsecond, ← hinstant hw]
      omega

/-- **Paging and cursors**: the pages of a request have every row that matches, each once and in order, just where no page
ends before a row that its cursor skips; and the cursor of an aware time keeps it just where it is a full second. -/
theorem paging_complete_iff (p : Platform) (sessions : ChargingSessions) (d : Depot) (q : Query) (hq : q.Accepted) :
    ((∃ n rows, followPages p sessions d q n none = some rows ∧ Complete p sessions d q rows) ↔
      ∀ rows, Complete p sessions d q rows → EndsWell p q.limit rows) ∧
    ∀ (t : DateTime) (id : Uuid), t.offset.isSome → (RoundTrips p.padsYear t id ↔ KeepsTime p.padsYear t) :=
  ⟨pages_complete_iff hq, fun t id _ => roundTrips_iff p.padsYear t id⟩

end Completeness

def session (id : Uuid) (micros : ℕ) (h : micros < 1000000) : ChargingSession where
  sessionId := id
  startTime := ⟨738885 * dayLength + 36000000000 + micros, by
    unfold dayLength
    omega⟩
  stationId := some "CS-1"
  siteId := none
  source := none
  vehicleId := none
  driverId := none
  cardId := none

def early : ChargingSession := session 1 500000 (by decide +kernel)

def late : ChargingSession := session 2 900000 (by decide +kernel)

def twoSessions : ChargingSessions := ⟨[early, late], by decide +kernel⟩

def utcPlatform : Platform where
  padsYear := true
  midnight := fun day _ => (day.toOrdinal - 1) * dayLength
  ilike := fun _ _ => false
  uuid := Uuid.parse
  uuid_text := Uuid.parse_text

def utcDepot : Depot := ⟨"D-1", "UTC", [("CS-1", "C-1")]⟩

def dayQuery (limit : ℕ) : Query where
  fromDate := Date.ofOrdinal 738886
  toDate := Date.ofOrdinal 738886
  vehicleId := none
  chargerId := none
  driverId := none
  cardId := none
  search := none
  limit := limit
  cursor := none

theorem dayQuery_accepted {limit : ℕ} (h : 1 ≤ limit ∧ limit ≤ 5000) : (dayQuery limit).Accepted := by
  refine ⟨?_, ?_, h⟩
  · exact le_rfl
  · show (Date.ofOrdinal 738886).toOrdinal - (Date.ofOrdinal 738886).toOrdinal < 366
    omega

theorem complete_twoSessions (limit : ℕ) : Complete utcPlatform twoSessions utcDepot (dayQuery limit) [late, early] := by
  have hmatches : ∀ s ∈ [late, early], Matches utcPlatform utcDepot (dayQuery limit) s := by
    have hwhere : ∀ s ∈ [late, early], whereParts utcPlatform utcDepot (dayQuery 1) none s = true := by decide +kernel
    exact fun s hs => ⟨none, rfl, hwhere s hs⟩
  refine ⟨fun s => ⟨fun hs => ⟨?_, hmatches s hs⟩, fun hs => ?_⟩, by decide +kernel⟩
  · simpa [twoSessions, or_comm] using hs
  · simpa [twoSessions, or_comm] using hs.1

/-- One page has both. -/
theorem two_sessions_on_a_page : ∃ n rows, followPages utcPlatform twoSessions utcDepot (dayQuery 500) n none = some rows ∧
    Complete utcPlatform twoSessions utcDepot (dayQuery 500) rows := by
  refine (paging_complete_iff utcPlatform twoSessions utcDepot (dayQuery 500)
    (dayQuery_accepted ⟨by decide, by decide⟩)).1.mpr fun rows hrows k a b _ hb => ?_
  rw [hrows.unique (complete_twoSessions 500)] at hb
  have hlt : (k + 1) * 500 < 2 := (List.getElem?_eq_some_iff.mp hb).1
  omega

/-- On pages of one row the earlier of the two is skipped. -/
theorem early_session_skipped : ¬ ∀ (p : Platform) (sessions : ChargingSessions) (d : Depot) (q : Query), q.Accepted →
    (∃ n rows, followPages p sessions d q n none = some rows ∧ Complete p sessions d q rows) ∧
      ∀ (t : DateTime) (id : Uuid), t.offset.isSome → RoundTrips p.padsYear t id := by
  intro h
  have haccepted := @dayQuery_accepted 1 ⟨by decide, by decide⟩
  have hends := (pages_complete_iff haccepted).mp (h utcPlatform twoSessions utcDepot (dayQuery 1) haccepted).1
  exact absurd (hends _ (complete_twoSessions 1) 0 late early rfl rfl).2 (by decide +kernel)

end FavoniusBackend.Transactions
