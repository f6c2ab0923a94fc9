import FavoniusBackend.Billing.Tariffs
import FavoniusBackend.Lib.DictViews

/-!
# The rows of a tariff

What a call of `set_tariff` that runs through leaves of each tariff: the rows of other tariffs are untouched, and the
tariff's own are the entries of the data, provided that the call finds no row that it does not name again and draws no id
that is taken (`Fits`).

An entry is known by its `Key`, the id that it gives or the number of its reading, whatever id is drawn for it.
-/

namespace FavoniusBackend.Billing

open Lib
open Lib.Sql
open Lib.Stateful

variable {α β : Type}

/-! ## Rows by owner -/

def columnsOf (table : Table TariffId β) (tariffId : TariffId) : Dict String β :=
  (table.filter fun _ row => row.owner = tariffId).mapValues Row.columns

theorem rowsOf_eq (table : Table TariffId β) (tariffId : TariffId) :
    rowsOf table tariffId = (table.filter fun _ row => row.owner = tariffId).values := by
  unfold rowsOf Dict.values Dict.filter
  rw [List.filter_map]
  rfl

theorem map_columns_rowsOf (table : Table TariffId β) (tariffId : TariffId) :
    (rowsOf table tariffId).map Row.columns = (columnsOf table tariffId).values := by
  rw [rowsOf_eq, columnsOf, Dict.values_mapValues]

def OwnedBy (table : Table TariffId β) (id : String) (tariffId : TariffId) : Prop :=
  ∀ row, table.get? id = some row → row.owner = tariffId

theorem get?_upsert (table : Table TariffId β) (id id' : String) (owner : TariffId) (createdAt : ℤ) (columns : β) :
    (upsert table id owner createdAt columns).get? id' =
      if id' = id then some (match table.get? id with
        | some row => { row with columns := columns }
        | none => ⟨owner, createdAt, columns⟩)
      else table.get? id' := by
  unfold upsert
  cases table.get? id with
  | some row => exact Dict.get?_set table id id' _
  | none => exact Dict.get?_set table id id' _

theorem ownedBy_upsert {table : Table TariffId β} {id id' : String} {owner : TariffId} (h : OwnedBy table id owner)
    (h' : OwnedBy table id' owner) (createdAt : ℤ) (columns : β) :
    OwnedBy (upsert table id owner createdAt columns) id' owner := by
  intro row hrow
  rw [get?_upsert] at hrow
  split at hrow
  · obtain rfl := Option.some.inj hrow
    cases hold : table.get? id with
    | some old => exact h old hold
    | none => rfl
  · exact h' row hrow

theorem filter_owner_pos {table : Table TariffId β} {id : String} {owner tariffId : TariffId} {createdAt : ℤ}
    {columns : β} (hrow : owner = tariffId) (h : OwnedBy table id tariffId) :
    (table.set id ⟨owner, createdAt, columns⟩).filter (fun _ row => row.owner = tariffId) =
      (table.filter fun _ row => row.owner = tariffId).set id ⟨owner, createdAt, columns⟩ :=
  @Dict.filter_set_pos String (Row TariffId β) _ table (fun _ row => decide (row.owner = tariffId)) id _
    (decide_eq_true hrow) fun v hv => decide_eq_true (h v hv)

theorem filter_owner_neg {table : Table TariffId β} {id : String} {owner tariffId other : TariffId} {createdAt : ℤ}
    {columns : β} (hrow : owner ≠ tariffId) (h : OwnedBy table id other) (hne : tariffId ≠ other) :
    (table.set id ⟨owner, createdAt, columns⟩).filter (fun _ row => row.owner = tariffId) =
      table.filter fun _ row => row.owner = tariffId :=
  @Dict.filter_set_neg String (Row TariffId β) _ table (fun _ row => decide (row.owner = tariffId)) id _
    (decide_eq_false hrow) fun v hv => decide_eq_false fun he => hne (he.symm.trans (h v hv))

section Upsert

variable {table : Table TariffId β} {id : String} {owner : TariffId} (h : OwnedBy table id owner) (createdAt : ℤ)
  (columns : β)

include h

theorem columnsOf_upsert (tariffId : TariffId) :
    columnsOf (upsert table id owner createdAt columns) tariffId =
      if tariffId = owner then (columnsOf table owner).set id columns else columnsOf table tariffId := by
  unfold columnsOf upsert
  by_cases ht : tariffId = owner
  · subst ht
    rw [if_pos rfl]
    cases hold : table.get? id with
    | some row =>
      simp only
      rw [filter_owner_pos (h row hold) h, Dict.mapValues_set]
    | none =>
      simp only
      rw [filter_owner_pos rfl h, Dict.mapValues_set]
  · rw [if_neg ht]
    cases hold : table.get? id with
    | some row =>
      simp only
      rw [filter_owner_neg (fun he => ht (he.symm.trans (h row hold))) h ht]
    | none =>
      simp only
      rw [filter_owner_neg (Ne.symm ht) h ht]

theorem createdAt_upsert (tariffId : TariffId) :
    (rowsOf (upsert table id owner createdAt columns) tariffId).map Row.createdAt =
        (rowsOf table tariffId).map Row.createdAt ∨
      tariffId = owner ∧ (rowsOf (upsert table id owner createdAt columns) tariffId).map Row.createdAt =
        (rowsOf table tariffId).map Row.createdAt ++ [createdAt] := by
  simp only [rowsOf_eq]
  unfold upsert
  by_cases ht : tariffId = owner
  · subst ht
    cases hold : table.get? id with
    | some row =>
      left
      have hrow : (table.filter fun _ row => row.owner = tariffId).get? id = some row := by
        rw [Dict.get?_filter, hold]
        exact Option.filter_some_pos (decide_eq_true (h row hold))
      simp only
      rw [filter_owner_pos (h row hold) h]
      exact Dict.map_values_set hrow rfl
    | none =>
      right
      have hrow : (table.filter fun _ row => row.owner = tariffId).get? id = none := by
        rw [Dict.get?_filter, hold]
        rfl
      simp only
      rw [filter_owner_pos rfl h,
        Dict.values_set_of_none _ hrow, List.map_append]
      exact ⟨trivial, rfl⟩
  · left
    cases hold : table.get? id with
    | some row =>
      simp only
      rw [filter_owner_neg (fun he => ht (he.symm.trans (h row hold))) h ht]
    | none =>
      simp only
      rw [filter_owner_neg (Ne.symm ht) h ht]

end Upsert

/-! ## The entries of the data -/

/-- The id that an entry gives, or the number of its reading. -/
abbrev Key := String ⊕ ℕ

structure Entry (β : Type) where
  number : ℕ
  given : Option String
  columns : β
  deriving DecidableEq

def Entry.key (e : Entry β) : Key := e.given.elim (.inr e.number) .inl

def Entry.id (readings : ℕ → Reading) (e : Entry β) : String := e.given.getD (readings e.number).uuid

def idOf (readings : ℕ → Reading) : Key → String := Sum.elim (fun id => id) fun n => (readings n).uuid

@[simp] theorem idOf_key (readings : ℕ → Reading) (e : Entry β) : idOf readings e.key = e.id readings := by
  unfold Entry.key Entry.id
  cases e.given with
  | none => rfl
  | some id => rfl

def entriesOf (id : α → Option String) (columns : α → Option β) : ℕ → List (Option α) → List (Entry β)
  | _, [] => []
  | n, entry :: rest =>
    ((entry.bind fun a => (columns a).map fun c => ⟨n, givenId (id a), c⟩).toList : List (Entry β)) ++
      entriesOf id columns (n + 1) rest

/-- What the entries mean: of those that give the same id the last one counts, at the place of the first. -/
def placed (entries : List (Entry β)) : List β := (Dict.ofList (entries.map fun e => (e.key, e.columns))).values

/-- No exception from the reading of a number, for as many entries as there are, and no entry that cannot be stored. -/
def Runs (readings : ℕ → Reading) (columns : α → Option β) (n : ℕ) (entries : List (Option α)) : Prop :=
  (∀ i < entries.length, (readings (n + i)).raises = none) ∧ ∀ entry ∈ entries, (entry.bind columns).isSome

theorem runs_cons {readings : ℕ → Reading} {columns : α → Option β} {n : ℕ} {entry : Option α}
    {rest : List (Option α)} : Runs readings columns n (entry :: rest) ↔
      ((readings n).raises = none ∧ (entry.bind columns).isSome) ∧ Runs readings columns (n + 1) rest := by
  unfold Runs
  constructor
  · rintro ⟨hraises, hcolumns⟩
    refine ⟨⟨hraises 0 (Nat.succ_pos _), hcolumns entry List.mem_cons_self⟩, fun i hi => ?_, fun e he =>
      hcolumns e (List.mem_cons_of_mem _ he)⟩
    have := hraises (i + 1) (Nat.succ_lt_succ hi)
    rwa [show n + 1 + i = n + (i + 1) by omega]
  · rintro ⟨⟨hraises, hcolumns⟩, hrest, hall⟩
    refine ⟨fun i hi => ?_, fun e he => ?_⟩
    · cases i with
      | zero => exact hraises
      | succ i =>
        have := hrest i (Nat.lt_of_succ_lt_succ hi)
        rwa [show n + (i + 1) = n + 1 + i by omega]
    · rcases List.mem_cons.mp he with rfl | hmem
      · exact hcolumns
      · exact hall e hmem

def storeEntries (readings : ℕ → Reading) (store : String → β → ℤ → TariffDb → TariffDb) (entries : List (Entry β))
    (db : TariffDb) : TariffDb :=
  entries.foldl (fun db e => store (e.id readings) e.columns (readings e.number).now db) db

theorem exec_statement (r : Reading) (f : TariffDb → TariffDb) (db : TariffDb) :
    exec (statement r f) db =
      match r.raises with
      | none => (.ok (), f db)
      | some true => (.error (), f db)
      | some false => (.error (), db) := rfl

theorem exec_statement_ok {r : Reading} (h : r.raises = none) (f : TariffDb → TariffDb) (db : TariffDb) :
    exec (statement r f) db = (.ok (), f db) := by
  rw [exec_statement, h]

theorem exec_statement_error {r : Reading} (h : r.raises ≠ none) (f : TariffDb → TariffDb) (db : TariffDb) :
    (exec (statement r f) db).1 = .error () := by
  rw [exec_statement]
  match hr : r.raises with
  | none => exact absurd hr h
  | some true => rfl
  | some false => rfl

section StoreAll

variable {readings : ℕ → Reading} {id : α → Option String} {columns : α → Option β}
  {store : String → β → ℤ → TariffDb → TariffDb}

/-- A loop whose entries all can be stored, with no exception, stores them. -/
theorem exec_storeAll_ok {n : ℕ} {entries : List (Option α)} (h : Runs readings columns n entries) (db : TariffDb) :
    exec (storeAll readings (storeEntry id columns store) n entries) db =
      (.ok (), storeEntries readings store (entriesOf id columns n entries) db) := by
  induction entries generalizing n db with
  | nil => rfl
  | cons entry rest ih =>
    obtain ⟨⟨hraises, hcolumns⟩, hrest⟩ := runs_cons.mp h
    obtain ⟨c, hc⟩ := Option.isSome_iff_exists.mp hcolumns
    obtain ⟨a, rfl, ha⟩ := Option.bind_eq_some_iff.mp hc
    have hentry : exec (storeEntry id columns store (readings n) (some a)) db =
        (.ok (), store ((givenId (id a)).getD (readings n).uuid) c (readings n).now db) := by
      unfold storeEntry
      rw [Option.bind_some, ha]
      exact exec_statement_ok hraises _ _
    rw [storeAll, exec_bind_ok hentry, ih hrest, entriesOf, Option.bind_some, ha]
    rfl

theorem exec_storeAll_error {n : ℕ} {entries : List (Option α)} (h : ¬ Runs readings columns n entries)
    (db : TariffDb) : (exec (storeAll readings (storeEntry id columns store) n entries) db).1 = .error () := by
  induction entries generalizing n db with
  | nil => exact absurd ⟨fun i hi => absurd hi (Nat.not_lt_zero i), fun e he => absurd he List.not_mem_nil⟩ h
  | cons entry rest ih =>
    rw [runs_cons] at h
    rw [storeAll]
    rcases hr : exec (storeEntry id columns store (readings n) entry) db with ⟨r, db'⟩
    cases r with
    | error e => rw [exec_bind_error hr]
    | ok u =>
      rw [exec_bind_ok hr]
      refine ih (fun hrest => h ⟨?_, hrest⟩) db'
      unfold storeEntry at hr
      cases hc : entry.bind columns with
      | none =>
        have hnone : entry.bind (fun a => (columns a).map fun c => (a, c)) = none := by
          cases entry with
          | none => rfl
          | some a =>
            rw [Option.bind_some] at hc ⊢
            rw [hc]
            rfl
        rw [hnone] at hr
        exact absurd (congrArg Prod.fst hr) (by simp)
      | some c =>
        obtain ⟨a, rfl, ha⟩ := Option.bind_eq_some_iff.mp hc
        rw [Option.bind_some, ha] at hr
        refine ⟨by_contra fun hraises => ?_, rfl⟩
        exact absurd ((exec_statement_error hraises _ _).symm.trans (congrArg Prod.fst hr)) (by simp)

end StoreAll

/-! ## Entries that replace the rows of a tariff -/

def storeRows (readings : ℕ → Reading) (tariffId : TariffId) (entries : List (Entry β)) (table : Table TariffId β) :
    Table TariffId β :=
  entries.foldl (fun table e => upsert table (e.id readings) tariffId (readings e.number).now e.columns) table

/-- The entries and the rows that are there fit together: no two keys have one id, no id belongs to another tariff, and the
tariff has only rows that the entries name again, first and in the order of the rows. -/
structure Fits (readings : ℕ → Reading) (tariffId : TariffId) (entries : List (Entry β)) (table : Table TariffId β) :
    Prop where
  drawn : ∀ e ∈ entries, ∀ e' ∈ entries, e.id readings = e'.id readings → e.key = e'.key
  owned : ∀ e ∈ entries, OwnedBy table (e.id readings) tariffId
  named : (columnsOf table tariffId).keys <+: (Dict.ofList (entries.map fun e => (e.id readings, e.columns))).keys

section StoreRows

variable {readings : ℕ → Reading} {tariffId : TariffId} {entries : List (Entry β)} {table : Table TariffId β}

theorem columnsOf_storeRows (h : ∀ e ∈ entries, OwnedBy table (e.id readings) tariffId) (tariffId' : TariffId) :
    columnsOf (storeRows readings tariffId entries table) tariffId' =
      if tariffId' = tariffId then
        (entries.map fun e => (e.id readings, e.columns)).foldl (fun d p => d.set p.1 p.2) (columnsOf table tariffId)
      else columnsOf table tariffId' := by
  induction entries generalizing table with
  | nil =>
    by_cases ht : tariffId' = tariffId
    · rw [if_pos ht, ht]
      rfl
    · rw [if_neg ht]
      rfl
  | cons e rest ih =>
    have hown : OwnedBy table (e.id readings) tariffId := h e List.mem_cons_self
    have hrest := @ih (upsert table (e.id readings) tariffId (readings e.number).now e.columns) fun e' he' =>
      ownedBy_upsert hown (h e' (List.mem_cons_of_mem _ he')) _ _
    have hcons : storeRows readings tariffId (e :: rest) table = storeRows readings tariffId rest
      (upsert table (e.id readings) tariffId (readings e.number).now e.columns) := rfl
    rw [hcons, hrest, columnsOf_upsert hown, columnsOf_upsert hown]
    by_cases ht : tariffId' = tariffId
    · rw [if_pos ht, if_pos ht, if_pos rfl]
      rfl
    · rw [if_neg ht, if_neg ht, if_neg ht]

theorem Fits.values (h : Fits readings tariffId entries table) :
    (columnsOf (storeRows readings tariffId entries table) tariffId).values = placed entries := by
  rw [columnsOf_storeRows h.owned, if_pos rfl, Dict.foldl_set_eq_ofList h.named, placed]
  have hids : (entries.map fun e => (e.id readings, e.columns)) =
      (entries.map fun e => (e.key, e.columns)).map fun p => (idOf readings p.1, p.2) := by
    rw [List.map_map]
    exact List.map_congr_left fun e _ => by rw [Function.comp, idOf_key]
  rw [hids]
  refine Dict.values_ofList_map_keys _ fun k hk k' hk' heq => ?_
  rw [List.map_map] at hk hk'
  obtain ⟨e, he, rfl⟩ := List.mem_map.mp hk
  obtain ⟨e', he', rfl⟩ := List.mem_map.mp hk'
  simp only [Function.comp, idOf_key] at heq
  exact h.drawn e he e' he' heq

theorem Fits.values_other (h : Fits readings tariffId entries table) {tariffId' : TariffId} (hne : tariffId' ≠ tariffId) :
    (columnsOf (storeRows readings tariffId entries table) tariffId').values = (columnsOf table tariffId').values := by
  rw [columnsOf_storeRows h.owned, if_neg hne]

def createdTimes (table : Table TariffId β) (tariffId : TariffId) : List ℤ := (rowsOf table tariffId).map Row.createdAt

/-- The clock does not go back, behind the rows that are there or between two entries. -/
structure OnTime (readings : ℕ → Reading) (tariffId : TariffId) (entries : List (Entry β)) (table : Table TariffId β) :
    Prop where
  after : ∀ e ∈ entries, ∀ t ∈ createdTimes table tariffId, t ≤ (readings e.number).now
  rising : entries.Pairwise fun e e' => (readings e.number).now ≤ (readings e'.number).now

theorem createdTimes_storeRows (hown : ∀ e ∈ entries, OwnedBy table (e.id readings) tariffId)
    (htime : OnTime readings tariffId entries table) {tariffId' : TariffId}
    (h : (createdTimes table tariffId').Pairwise (· ≤ ·)) :
    (createdTimes (storeRows readings tariffId entries table) tariffId').Pairwise (· ≤ ·) := by
  induction entries generalizing table with
  | nil => exact h
  | cons e rest ih =>
    have hrising := List.pairwise_cons.mp htime.rising
    have hown' : OwnedBy table (e.id readings) tariffId := hown e List.mem_cons_self
    have hafter := htime.after e List.mem_cons_self
    refine ih (fun e' he' => ownedBy_upsert hown' (hown e' (List.mem_cons_of_mem _ he')) _ _) ⟨fun e' he' t ht => ?_,
      hrising.2⟩ ?_
    · rcases createdAt_upsert hown' (readings e.number).now e.columns tariffId with hsame | ⟨-, hnew⟩
      · rw [createdTimes, hsame] at ht
        exact htime.after e' (List.mem_cons_of_mem _ he') t ht
      · rw [createdTimes, hnew] at ht
        rcases List.mem_append.mp ht with hold | hlast
        · exact htime.after e' (List.mem_cons_of_mem _ he') t hold
        · obtain rfl := List.mem_singleton.mp hlast
          exact hrising.1 e' he'
    · rcases createdAt_upsert hown' (readings e.number).now e.columns tariffId' with hsame | ⟨rfl, hnew⟩
      · rw [createdTimes, hsame]
        exact h
      · rw [createdTimes, hnew]
        refine List.pairwise_append.mpr ⟨h, List.pairwise_singleton _ _, fun t ht t' ht' => ?_⟩
        obtain rfl := List.mem_singleton.mp ht'
        exact hafter t ht

end StoreRows

/-! ## A call -/

/-- A call of `set_tariff`. -/
structure Call where
  stationId : StationId
  data : TariffData
  readings : ℕ → Reading

def Call.tariffId (c : Call) : TariffId := (givenId c.data.tariffId).getD (c.readings 0).uuid

def TariffData.elementList (data : TariffData) : List (Option ElementData) := data.elements.getD []

def TariffData.periodList (data : TariffData) : List (Option PeriodData) := data.touPeriods.getD []

def TariffData.elementEntries (data : TariffData) : List (Entry TariffElement) :=
  entriesOf ElementData.elementId ElementData.columns 1 data.elementList

def TariffData.periodEntries (data : TariffData) : List (Entry TouPeriod) :=
  entriesOf PeriodData.periodId PeriodData.columns (1 + data.elementList.length) data.periodList

/-- The data is validated, and nothing after that raises. -/
structure Call.Completes (c : Call) : Prop where
  valid : validateTariffData c.data = true
  tariff : (c.readings 0).raises = none
  elements : Runs c.readings ElementData.columns 1 c.data.elementList
  periods : Runs c.readings PeriodData.columns (1 + c.data.elementList.length) c.data.periodList

def Call.stored (c : Call) (db : TariffDb) : TariffDb where
  tariffs := upsert db.tariffs c.tariffId c.stationId (c.readings 0).now c.data.tariff
  tariffElements := storeRows c.readings c.tariffId c.data.elementEntries db.tariffElements
  touPeriods := storeRows c.readings c.tariffId c.data.periodEntries db.touPeriods

theorem storeEntries_elements (readings : ℕ → Reading) (tariffId : TariffId) (entries : List (Entry TariffElement))
    (db : TariffDb) :
    storeEntries readings (fun id element now => storeTariffElement id tariffId element now) entries db =
      { db with tariffElements := storeRows readings tariffId entries db.tariffElements } := by
  induction entries generalizing db with
  | nil => rfl
  | cons e rest ih => exact ih (storeTariffElement (e.id readings) tariffId e.columns (readings e.number).now db)

theorem storeEntries_periods (readings : ℕ → Reading) (tariffId : TariffId) (entries : List (Entry TouPeriod))
    (db : TariffDb) :
    storeEntries readings (fun id period now => storeTouPeriod id tariffId period now) entries db =
      { db with touPeriods := storeRows readings tariffId entries db.touPeriods } := by
  induction entries generalizing db with
  | nil => rfl
  | cons e rest ih => exact ih (storeTouPeriod (e.id readings) tariffId e.columns (readings e.number).now db)

def Call.statements (c : Call) : Method TariffDb Unit GenericStatus := do
  statement (c.readings 0) (storeTariff c.tariffId c.stationId c.data.tariff (c.readings 0).now)
  storeAll c.readings (storeElementEntry c.tariffId) 1 c.data.elementList
  storeAll c.readings (storePeriodEntry c.tariffId) (1 + c.data.elementList.length) c.data.periodList
  return .accepted

theorem setTariff_eq (c : Call) : setTariff c.stationId c.data c.readings =
    recover (if validateTariffData c.data then c.statements else return .rejected) fun _ => pure .rejected := rfl

theorem exec_setTariff_completes {c : Call} (h : c.Completes) (db : TariffDb) :
    exec (setTariff c.stationId c.data c.readings) db = (.ok .accepted, c.stored db) := by
  rw [setTariff_eq, if_pos h.valid]
  refine exec_recover_ok ?_
  unfold Call.statements
  rw [exec_bind_ok (exec_statement_ok h.tariff _ _), storeElementEntry, exec_bind_ok (exec_storeAll_ok h.elements _),
    storePeriodEntry, exec_bind_ok (exec_storeAll_ok h.periods _), exec_pure, storeEntries_elements,
    storeEntries_periods]
  rfl

/-- A call whose data is validated and that does not complete raises, in one of its three parts. -/
theorem exec_statements_error {c : Call} (hvalid : validateTariffData c.data = true) (h : ¬ c.Completes) (db : TariffDb) :
    (exec c.statements db).1 = .error () := by
  have hbind : ∀ {x : Method TariffDb Unit Unit} {f : Unit → Method TariffDb Unit GenericStatus} {s : TariffDb},
      (exec x s).1 = .error () → (exec (x >>= f) s).1 = .error () := by
    intro x f s hx
    rw [exec_bind_error (Prod.ext hx rfl)]
  unfold Call.statements
  by_cases htariff : (c.readings 0).raises = none
  · rw [exec_bind_ok (exec_statement_ok htariff _ _), storeElementEntry]
    by_cases helements : Runs c.readings ElementData.columns 1 c.data.elementList
    · rw [exec_bind_ok (exec_storeAll_ok helements _), storePeriodEntry]
      exact hbind (exec_storeAll_error (fun hperiods => h ⟨hvalid, htariff, helements, hperiods⟩) _)
    · exact hbind (exec_storeAll_error helements _)
  · exact hbind (exec_statement_error htariff _ _)

theorem accepted_iff {c : Call} {db : TariffDb} :
    (exec (setTariff c.stationId c.data c.readings) db).1 = .ok .accepted ↔ c.Completes := by
  constructor
  · intro haccepted
    by_contra hnot
    rw [setTariff_eq] at haccepted
    by_cases hvalid : validateTariffData c.data
    · rw [if_pos hvalid, exec_recover_error (Prod.ext (exec_statements_error hvalid hnot db) rfl)] at haccepted
      exact absurd haccepted (by simp)
    · rw [if_neg hvalid] at haccepted
      exact absurd haccepted (by simp [exec_recover])
  · intro h
    rw [exec_setTariff_completes h]

end FavoniusBackend.Billing
