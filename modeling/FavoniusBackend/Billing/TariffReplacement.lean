import FavoniusBackend.Billing.TariffRows
import FavoniusBackend.Lib.Run

/-!
# A call replaces a tariff

What a tariff should cost is a function of the data of the last call that was accepted for it (`dataCost`).  The code stores
the tariff, its elements and its periods with one statement each: it never deletes a row, a row without an id is new with
every call, a row of another tariff is overwritten by its id, and what was stored before an exception stays.

`along_costsAsMeant` says of every run of calls that none of them leaves another cost, provided that each fails before it
stored anything or finds only rows that it names again (`ReplacesWhole`).
-/

namespace FavoniusBackend.Billing

open Lib
open Lib.Run
open Lib.Sql
open Lib.Stateful

/-! ## What a tariff should cost -/

/-- `ORDER BY element_type`, where the rows are in the order of their storing. -/
def typeOrder (a b : TariffElement) : Prop :=
  a.elementType.value < b.elementType.value ∨ a.elementType.value = b.elementType.value

instance : DecidableRel typeOrder := fun _ _ => inferInstanceAs (Decidable (_ ∨ _))

def dataCost (data : TariffData) (usage : Usage) (clock : ℕ → ℤ) : CostData :=
  costOf usage data.tariff.tariffCurrency
    (orderBy typeOrder ((placed data.elementEntries).filter fun e => isValid e.validFrom e.validTo (clock 1)))
    (orderBy periodOrder (placed data.periodEntries)) clock

/-- The database, and for each tariff the data of the last call that was accepted. -/
structure TariffWorld where
  db : TariffDb
  latest : TariffId → Option TariffData

def TariffWorld.start : TariffWorld := ⟨TariffDb.empty, fun _ => none⟩

def callStep (w : TariffWorld) (c : Call) : TariffWorld where
  db := (exec (setTariff c.stationId c.data c.readings) w.db).2
  latest :=
    match (exec (setTariff c.stationId c.data c.readings) w.db).1 with
    | .ok .accepted => Function.update w.latest c.tariffId (some c.data)
    | _ => w.latest

/-- Every tariff costs what the data of its last accepted call means, and a tariff that has none costs nothing. -/
def CostsAsMeant (w : TariffWorld) : Prop :=
  ∀ tariffId usage clock, costFor w.db usage clock tariffId = (w.latest tariffId).map fun d => dataCost d usage clock

/-- A call that fails before it stored anything, or completes and finds of its tariff only rows that it names again. -/
def ReplacesWhole (w : TariffWorld) (c : Call) : Prop :=
  validateTariffData c.data = false ∨ (c.readings 0).raises = some false ∨
    c.Completes ∧ Fits c.readings c.tariffId c.data.elementEntries w.db.tariffElements ∧
      OnTime c.readings c.tariffId c.data.elementEntries w.db.tariffElements ∧
        Fits c.readings c.tariffId c.data.periodEntries w.db.touPeriods

/-! ## What is read of a tariff -/

theorem map_orderedInsert {α β : Type} {le : α → α → Prop} {le' : β → β → Prop} [DecidableRel le] [DecidableRel le']
    {f : α → β} {a : α} (l : List α) (h : ∀ b ∈ l, le a b ↔ le' (f a) (f b)) :
    (l.orderedInsert le a).map f = (l.map f).orderedInsert le' (f a) := by
  induction l with
  | nil => rfl
  | cons b rest ih =>
    rw [List.orderedInsert_cons, List.map_cons, List.orderedInsert_cons]
    by_cases hle : le a b
    · rw [if_pos hle, if_pos ((h b List.mem_cons_self).mp hle)]
      rfl
    · rw [if_neg hle, if_neg fun hle' => hle ((h b List.mem_cons_self).mpr hle'), List.map_cons,
        ih fun b' hb' => h b' (List.mem_cons_of_mem _ hb')]

theorem map_orderBy {α β : Type} {le : α → α → Prop} {le' : β → β → Prop} [DecidableRel le] [DecidableRel le']
    {f : α → β} {rows : List α} (h : rows.Pairwise fun a b => le a b ↔ le' (f a) (f b)) :
    (orderBy le rows).map f = orderBy le' (rows.map f) := by
  induction rows with
  | nil => rfl
  | cons a rest ih =>
    obtain ⟨hhead, hrest⟩ := List.pairwise_cons.mp h
    have hinsert := @map_orderedInsert α β le le' _ _ f a (orderBy le rest) fun b hb => hhead b (mem_orderBy.mp hb)
    have hcons : orderBy le (a :: rest) = (orderBy le rest).orderedInsert le a := rfl
    rw [hcons, hinsert, ih hrest]
    rfl

theorem getTariffElements_eq {db : TariffDb} {tariffId : TariffId}
    (h : (createdTimes db.tariffElements tariffId).Pairwise (· ≤ ·)) (timestamp : ℤ) :
    getTariffElements db tariffId timestamp = orderBy typeOrder
      ((columnsOf db.tariffElements tariffId).values.filter fun e => isValid e.validFrom e.validTo timestamp) := by
  have hpairwise : ((rowsOf db.tariffElements tariffId).filter fun row =>
      isValid row.columns.validFrom row.columns.validTo timestamp).Pairwise
        fun a b => elementOrder a b ↔ typeOrder a.columns b.columns := by
    refine List.Pairwise.filter _ ((List.pairwise_map.mp h).imp fun hle => ?_)
    exact ⟨fun hlt => hlt.imp id And.left, fun hlt => hlt.imp id fun heq => ⟨heq, hle⟩⟩
  rw [getTariffElements, map_orderBy hpairwise, ← map_columns_rowsOf, List.filter_map]
  rfl

theorem getTouPeriods_eq (db : TariffDb) (tariffId : TariffId) :
    getTouPeriods db tariffId = orderBy periodOrder (columnsOf db.touPeriods tariffId).values := by
  rw [getTouPeriods, map_columns_rowsOf]

/-! ## The invariant -/

/-- The rows of each tariff are the entries of the data of its last accepted call. -/
structure StoredAsMeant (w : TariffWorld) : Prop where
  tariff : ∀ tariffId, (w.db.tariffs.get? tariffId).map Row.columns = (w.latest tariffId).map TariffData.tariff
  elements : ∀ tariffId, (columnsOf w.db.tariffElements tariffId).values =
    (w.latest tariffId).elim [] fun d => placed d.elementEntries
  periods : ∀ tariffId, (columnsOf w.db.touPeriods tariffId).values =
    (w.latest tariffId).elim [] fun d => placed d.periodEntries
  created : ∀ tariffId, (createdTimes w.db.tariffElements tariffId).Pairwise (· ≤ ·)

theorem storedAsMeant_start : StoredAsMeant TariffWorld.start where
  tariff := fun _ => rfl
  elements := fun _ => rfl
  periods := fun _ => rfl
  created := fun _ => List.Pairwise.nil

theorem StoredAsMeant.costs {w : TariffWorld} (h : StoredAsMeant w) : CostsAsMeant w := by
  intro tariffId usage clock
  have htariff := h.tariff tariffId
  unfold costFor
  cases hlatest : w.latest tariffId with
  | none =>
    rw [hlatest, Option.map_none, Option.map_eq_none_iff] at htariff
    rw [htariff]
    rfl
  | some d =>
    rw [hlatest, Option.map_some] at htariff
    obtain ⟨row, hrow, hcolumns⟩ := Option.map_eq_some_iff.mp htariff
    have helements := h.elements tariffId
    have hperiods := h.periods tariffId
    rw [hlatest, Option.elim_some] at helements hperiods
    rw [hrow, Option.map_some, Option.map_some, tariffCost, getTariffElements_eq (h.created tariffId), helements,
      getTouPeriods_eq, hperiods, hcolumns]
    rfl

theorem get?_upsert_columns {α : Type} (table : Table StationId α) (id id' : String) (owner : StationId) (createdAt : ℤ)
    (columns : α) : ((upsert table id owner createdAt columns).get? id').map Row.columns =
      if id' = id then some columns else (table.get? id').map Row.columns := by
  rw [get?_upsert]
  split
  · rw [Option.map_some]
    cases table.get? id <;> rfl
  · rfl

theorem storedAsMeant_completes {w : TariffWorld} (hinv : StoredAsMeant w) {c : Call} (h : c.Completes)
    (helements : Fits c.readings c.tariffId c.data.elementEntries w.db.tariffElements)
    (htime : OnTime c.readings c.tariffId c.data.elementEntries w.db.tariffElements)
    (hperiods : Fits c.readings c.tariffId c.data.periodEntries w.db.touPeriods) : StoredAsMeant (callStep w c) := by
  have hdb : (callStep w c).db = c.stored w.db := by
    rw [callStep, exec_setTariff_completes h]
  have hlatest : ∀ tariffId, (callStep w c).latest tariffId =
      if tariffId = c.tariffId then some c.data else w.latest tariffId := by
    intro tariffId
    rw [callStep, exec_setTariff_completes h]
    exact Function.update_apply _ _ _ _
  refine ⟨fun tariffId => ?_, fun tariffId => ?_, fun tariffId => ?_, fun tariffId => ?_⟩
  · rw [hdb, hlatest]
    refine (get?_upsert_columns _ _ _ _ _ _).trans ?_
    split
    · rfl
    · exact hinv.tariff tariffId
  · rw [hdb, hlatest]
    split
    · rename_i ht
      rw [ht]
      exact helements.values
    · rename_i ht
      exact (helements.values_other ht).trans (hinv.elements tariffId)
  · rw [hdb, hlatest]
    split
    · rename_i ht
      rw [ht]
      exact hperiods.values
    · rename_i ht
      exact (hperiods.values_other ht).trans (hinv.periods tariffId)
  · rw [hdb]
    exact createdTimes_storeRows helements.owned htime (hinv.created tariffId)

theorem callStep_of_rejected {w : TariffWorld} {c : Call}
    (h : exec (setTariff c.stationId c.data c.readings) w.db = (.ok .rejected, w.db)) : callStep w c = w := by
  rw [callStep, h]

theorem storedAsMeant_callStep {w : TariffWorld} (hinv : StoredAsMeant w) {c : Call} (h : ReplacesWhole w c) :
    StoredAsMeant (callStep w c) := by
  rcases h with hinvalid | hraises | ⟨hcompletes, helements, htime, hperiods⟩
  · rw [callStep_of_rejected]
    · exact hinv
    · rw [setTariff_eq, if_neg (by simp [hinvalid])]
      rfl
  · rw [callStep_of_rejected]
    · exact hinv
    · rw [setTariff_eq]
      split
      · have hstatement : ∀ f, exec (statement (c.readings 0) f) w.db = (.error (), w.db) := by
          intro f
          rw [exec_statement, hraises]
        exact exec_recover_error (exec_bind_error (hstatement _))
      · rfl
  · exact storedAsMeant_completes hinv hcompletes helements htime hperiods

/-! ## Runs -/

/-- **A tariff is replaced as a whole.**  In a run of calls each of which fails before it stored anything, or finds only rows
that it names again, every tariff always costs what its last accepted data means. -/
theorem along_costsAsMeant (calls : List Call) (h : Along callStep ReplacesWhole TariffWorld.start calls) :
    Along callStep (fun w c => CostsAsMeant (callStep w c)) TariffWorld.start calls :=
  h.imp (fun _ _ hwhole hinv =>
    have hnext := storedAsMeant_callStep hinv hwhole
    ⟨hnext.costs, hnext⟩) storedAsMeant_start

/-! ## A call made twice -/

def flatTariff (elementId : Option String) : TariffData where
  tariffId := some "T"
  currency := none
  priority := none
  validFrom := none
  validTo := none
  elements := some [some ⟨elementId, some .energy, some (some (1 / 5)), some "kWh", none, none⟩]
  touPeriods := none

def flatCall (elementId : Option String) (uuid : String) (now : ℤ) : Call where
  stationId := "station-1"
  data := flatTariff elementId
  readings := fun _ => ⟨uuid, now, none⟩

example : validateTariffData (flatTariff none) = true := by decide +kernel

theorem flatTariff_entries : (flatTariff (some "energy")).elementEntries =
    [⟨1, some "energy", ⟨.energy, 1 / 5, "kWh", none, none⟩⟩] := by decide +kernel

theorem flatCall_completes (now : ℤ) : (flatCall (some "energy") "" now).Completes where
  valid := (by decide +kernel : validateTariffData (flatTariff (some "energy")) = true)
  tariff := rfl
  elements := ⟨fun _ _ => rfl, (by decide +kernel :
    ∀ entry ∈ (flatTariff (some "energy")).elementList, (entry.bind ElementData.columns).isSome)⟩
  periods := ⟨fun _ _ => rfl, (by decide +kernel :
    ∀ entry ∈ (flatTariff (some "energy")).periodList, (entry.bind PeriodData.columns).isSome)⟩

theorem flatCall_replacesWhole {w : TariffWorld} {now : ℤ}
    (howned : (w.db.tariffElements.get? "energy").all fun row => row.owner = "T")
    (hnamed : (columnsOf w.db.tariffElements "T").keys <+: ["energy"])
    (htime : ∀ t ∈ createdTimes w.db.tariffElements "T", t ≤ now)
    (hperiods : (columnsOf w.db.touPeriods "T").keys = []) : ReplacesWhole w (flatCall (some "energy") "" now) := by
  have hid : (flatCall (some "energy") "" now).tariffId = "T" := rfl
  have hentries : (flatCall (some "energy") "" now).data.elementEntries = _ := flatTariff_entries
  have hnone : (flatCall (some "energy") "" now).data.periodEntries = [] := rfl
  refine .inr (.inr ⟨flatCall_completes now, ?_, ?_, ?_⟩)
  · rw [hentries, hid]
    refine ⟨fun e he e' he' _ => ?_, fun e he row hrow => ?_, hnamed⟩
    · rw [List.mem_singleton.mp he, List.mem_singleton.mp he']
    · rw [List.mem_singleton.mp he] at hrow
      change w.db.tariffElements.get? "energy" = some row at hrow
      rw [hrow] at howned
      exact of_decide_eq_true howned
  · rw [hentries, hid]
    exact ⟨fun _ _ => htime, List.pairwise_singleton _ _⟩
  · rw [hnone, hid]
    refine ⟨fun e he => absurd he List.not_mem_nil, fun e he => absurd he List.not_mem_nil, ?_⟩
    rw [hperiods]
    exact List.nil_prefix

/-- A tariff whose element has an id is set twice. -/
theorem flat_tariff_set_twice :
    Along callStep (fun w c => CostsAsMeant (callStep w c)) TariffWorld.start
      [flatCall (some "energy") "" 0, flatCall (some "energy") "" 1] := by
  refine along_costsAsMeant _ ⟨flatCall_replacesWhole ?_ ?_ ?_ ?_, flatCall_replacesWhole ?_ ?_ ?_ ?_, trivial⟩ <;>
    decide +kernel

/-- A tariff whose element has no id is set twice, and then a kilowatt hour costs forty cents. -/
theorem flat_tariff_doubled :
    ¬ ∀ calls : List Call, Along callStep (fun w c => CostsAsMeant (callStep w c)) TariffWorld.start calls := by
  intro h
  let again := flatCall none "b" 1
  let w := run callStep TariffWorld.start [flatCall none "a" 0, again]
  have hcosts : CostsAsMeant w := (h ([flatCall none "a" 0] ++ [again])).last
  have hcost := hcosts "T" ⟨1, 0, 0⟩ fun _ => 2
  have hstored : (costFor w.db ⟨1, 0, 0⟩ (fun _ => 2) "T").map CostData.totalCost = some (2 / 5) := by decide +kernel
  have hmeant : (w.latest "T").map (fun d => (dataCost d ⟨1, 0, 0⟩ fun _ => 2).totalCost) = some (1 / 5) := by
    decide +kernel
  rw [hcost, Option.map_map] at hstored
  have heq : some (1 / 5 : ℚ) = some (2 / 5) := hmeant.symm.trans hstored
  exact absurd heq (by decide +kernel)

end FavoniusBackend.Billing
