import FavoniusBackend.Ocpp.RfidAuthorization
import Mathlib.Data.List.Sort

/-!
# The offline authorization list

`list_authorized_id_tags` of `db/queries.py`, what a charger accepts while it is offline, against
`lookup_id_tag` of `websocket_handler/timescale_client.py`, which decides online: one query over the tags of a
site with the access matrix of the charger, and a lookup of one tag in two stages.

Every listed tag is accepted online, none is listed twice, and at an open site that has a status for each of
its vehicles the listed tags are those that are found (`offline_within_online`).
-/

namespace FavoniusBackend.Ocpp.OfflineList

open Lib Ocpp.RfidAuthorization

/-! ### The tables -/

structure Station where
  id : String
  stationId : String
  siteId : Option String
  deriving DecidableEq, Repr

structure Site where
  id : String
  accessMode : Option String
  chargerVehicleAccessDefault : Option String
  deriving DecidableEq, Repr

structure Vehicle where
  id : String
  siteId : Option String
  idTag : Option String
  status : Option String
  externalId : String
  deriving DecidableEq, Repr

structure Card where
  id : String
  siteId : String
  idTag : String
  status : String
  deriving DecidableEq, Repr

structure Driver where
  id : String
  siteId : String
  status : String
  displayName : String
  deriving DecidableEq, Repr

/-- A row of `charger_vehicle_access`. -/
structure Access where
  chargingStationId : String
  vehicleId : String
  isAccessible : Option Bool
  deriving DecidableEq, Repr

/-- The static database, with its two unique indexes. -/
structure Fleet where
  stations : List Station
  sites : List Site
  vehicles : List Vehicle
  cards : List Card
  access : List Access
  drivers : List Driver
  cardVehicles : List (String × String)
  cardDrivers : List (String × String)
  vehicle_tags : (vehicles.filterMap Vehicle.idTag).Nodup
  card_tags : (cards.map Card.idTag).Nodup

/-! ### The list -/

/-- A row of `station_info`. -/
structure StationInfo where
  chargingStationId : String
  siteId : String
  accessMode : Option String
  accessDefault : Option String
  deriving DecidableEq, Repr

inductive Source where
  | vehicle
  | rfidCard
  deriving DecidableEq, Repr

/-- `source_priority`. -/
def Source.priority : Source → ℕ
  | .vehicle => 1
  | .rfidCard => 2

structure TagRow where
  idTag : String
  source : Source
  deriving DecidableEq, Repr

/-- `DISTINCT ON (id_tag)`: the first row of each tag. -/
def distinctOn (seen : List String) : List TagRow → List TagRow
  | [] => []
  | row :: rows => if row.idTag ∈ seen then distinctOn seen rows else row :: distinctOn (row.idTag :: seen) rows

section Queries

-- The collation, which orders the text columns.
variable (le : String → String → Bool)

/-- `ORDER BY id_tag, source_priority`. -/
def rowLe (a b : TagRow) : Bool :=
  if a.idTag = b.idTag then a.source.priority ≤ b.source.priority else le a.idTag b.idTag

variable (db : Fleet) (stationId : String)

def stationInfo : List StationInfo :=
  (db.stations.filter fun ch => ch.stationId = stationId).flatMap fun ch =>
    (db.sites.filter fun s => some s.id = ch.siteId).map fun s =>
      ⟨ch.id, s.id, s.accessMode, s.chargerVehicleAccessDefault⟩

/-- Which of the charger's vehicles count. -/
def Accessible (si : StationInfo) (v : Vehicle) : Prop :=
  si.accessMode = some "open" ∨
    (∃ cva ∈ db.access, cva.chargingStationId = si.chargingStationId ∧ cva.vehicleId = v.id ∧
      cva.isAccessible = some true) ∨
    (si.accessMode = some "restricted" ∧ si.accessDefault = some "all_to_all" ∧
      ¬∃ cva ∈ db.access, cva.chargingStationId = si.chargingStationId ∧ cva.vehicleId = v.id)

instance (si : StationInfo) (v : Vehicle) : Decidable (Accessible db si v) := inferInstanceAs (Decidable (_ ∨ _))

/-- The tags of `accessible_vehicles`. -/
def accessibleVehicles : List String :=
  (stationInfo db stationId).flatMap fun si =>
    (db.vehicles.filter fun v => v.siteId = some si.siteId ∧ v.status = some "active" ∧
      Accessible db si v).filterMap Vehicle.idTag

def activeCards : List String :=
  (stationInfo db stationId).flatMap fun si =>
    (db.cards.filter fun c => c.siteId = si.siteId ∧ c.status = "active").map Card.idTag

def listAuthorizedIdTags : List TagRow :=
  let allTags := (accessibleVehicles db stationId).map (fun t => TagRow.mk t .vehicle) ++
    (activeCards db stationId).map (fun t => TagRow.mk t .rfidCard)
  distinctOn [] (allTags.insertionSort fun a b => rowLe le a b = true)

/-! ### The lookup -/

/-- What `lookup_id_tag` returns. -/
structure Identity where
  vehicleId : Option String
  depotId : Option String
  driverId : Option String
  cardId : Option String
  source : Source
  deriving DecidableEq, Repr

/-- `EXISTS (SELECT 1 FROM charging_stations …)`. -/
def stationFilter (station : Option String) (siteId : Option String) : Prop :=
  match station with
  | none => True
  | some stationId => ∃ ch ∈ db.stations, ch.stationId = stationId ∧ ∃ site ∈ siteId, ch.siteId = some site

instance (station siteId : Option String) : Decidable (stationFilter db station siteId) :=
  match station with
  | none => inferInstanceAs (Decidable True)
  | some stationId => inferInstanceAs
      (Decidable (∃ ch ∈ db.stations, ch.stationId = stationId ∧ ∃ site ∈ siteId, ch.siteId = some site))

def firstBy {α : Type} (column : α → String) (rows : List α) : Option α :=
  (rows.insertionSort fun a b => le (column a) (column b) = true).head?

def lookupCardVehicleAssignment (cardId depotId : String) : Option String :=
  (firstBy le Vehicle.externalId ((db.cardVehicles.filter fun cva => cva.1 = cardId).flatMap fun cva =>
    db.vehicles.filter fun v => v.id = cva.2 ∧ v.siteId = some depotId ∧
      v.status.getD "active" = "active")).map Vehicle.id

def lookupCardDriverAssignment (cardId depotId : String) : Option String :=
  (firstBy le Driver.displayName ((db.cardDrivers.filter fun cda => cda.1 = cardId).flatMap fun cda =>
    db.drivers.filter fun dr => dr.id = cda.2 ∧ dr.siteId = depotId ∧ dr.status = "active")).map Driver.id

def matchingVehicles (idTag : String) (station : Option String) : List Vehicle :=
  db.vehicles.filter fun v => v.idTag = some idTag ∧ v.status.getD "active" = "active" ∧
    stationFilter db station v.siteId

def matchingCards (idTag : String) (station : Option String) : List Card :=
  db.cards.filter fun c => c.idTag = idTag ∧ c.status = "active" ∧ stationFilter db station (some c.siteId)

def lookupIdTag (idTag : String) (station : Option String) : Option Identity :=
  match (matchingVehicles db idTag station).take 2 with
  | _ :: _ :: _ => none
  | [v] => some ⟨some v.id, v.siteId, none, none, .vehicle⟩
  | [] =>
    match (matchingCards db idTag station).take 2 with
    | _ :: _ :: _ => none
    | [] => none
    | [c] => some ⟨lookupCardVehicleAssignment le db c.id c.siteId, some c.siteId,
        lookupCardDriverAssignment le db c.id c.siteId, some c.id, .rfidCard⟩

/-- What `authorize` sees of it. -/
def lookupOutcome (idTag : String) (station : Option String) : Lookup :=
  match lookupIdTag le db idTag station with
  | none => .unknown
  | some identity => .known ⟨identity.vehicleId, identity.driverId, identity.cardId, identity.depotId⟩

/-! ### The list -/

theorem mem_distinctOn {seen : List String} {rows : List TagRow} {tag : String} :
    tag ∈ (distinctOn seen rows).map TagRow.idTag ↔ tag ∈ rows.map TagRow.idTag ∧ tag ∉ seen := by
  induction rows generalizing seen with
  | nil => simp [distinctOn]
  | cons row rows ih =>
    unfold distinctOn
    by_cases hseen : row.idTag ∈ seen
    · rw [if_pos hseen, ih, List.map_cons, List.mem_cons]
      constructor
      · exact fun h => ⟨.inr h.1, h.2⟩
      · intro ⟨hmem, hnot⟩
        rcases hmem with rfl | hmem
        · exact absurd hseen hnot
        · exact ⟨hmem, hnot⟩
    · rw [if_neg hseen, List.map_cons, List.mem_cons, ih, List.map_cons, List.mem_cons, List.mem_cons]
      constructor
      · rintro (rfl | ⟨hmem, hnot⟩)
        · exact ⟨.inl rfl, hseen⟩
        · exact ⟨.inr hmem, fun h => hnot (.inr h)⟩
      · intro ⟨hmem, hnot⟩
        by_cases heq : tag = row.idTag
        · exact .inl heq
        · exact .inr ⟨hmem.resolve_left heq, fun h => h.elim heq hnot⟩

theorem nodup_distinctOn (seen : List String) (rows : List TagRow) :
    ((distinctOn seen rows).map TagRow.idTag).Nodup := by
  induction rows generalizing seen with
  | nil => exact List.nodup_nil
  | cons row rows ih =>
    unfold distinctOn
    split
    · exact ih seen
    · rw [List.map_cons, List.nodup_cons]
      exact ⟨fun hmem => (mem_distinctOn.mp hmem).2 List.mem_cons_self, ih _⟩

theorem mem_listAuthorizedIdTags {tag : String} :
    tag ∈ (listAuthorizedIdTags le db stationId).map TagRow.idTag ↔
      tag ∈ accessibleVehicles db stationId ∨ tag ∈ activeCards db stationId := by
  unfold listAuthorizedIdTags
  rw [mem_distinctOn, ((List.perm_insertionSort _ _).map TagRow.idTag).mem_iff]
  simp [List.map_append, List.map_map, Function.comp_def]

theorem mem_stationInfo {si : StationInfo} :
    si ∈ stationInfo db stationId ↔ ∃ ch ∈ db.stations, ch.stationId = stationId ∧
      ∃ s ∈ db.sites, some s.id = ch.siteId ∧ si = ⟨ch.id, s.id, s.accessMode, s.chargerVehicleAccessDefault⟩ := by
  unfold stationInfo
  simp only [List.mem_flatMap, List.mem_filter, List.mem_map, decide_eq_true_eq]
  constructor
  · intro ⟨ch, ⟨hch, hid⟩, s, ⟨hs, hsite⟩, heq⟩
    exact ⟨ch, hch, hid, s, hs, hsite, heq.symm⟩
  · intro ⟨ch, hch, hid, s, hs, hsite, heq⟩
    exact ⟨ch, ⟨hch, hid⟩, s, ⟨hs, hsite⟩, heq.symm⟩

theorem mem_accessibleVehicles {tag : String} :
    tag ∈ accessibleVehicles db stationId ↔ ∃ si ∈ stationInfo db stationId, ∃ v ∈ db.vehicles,
      v.siteId = some si.siteId ∧ v.status = some "active" ∧ Accessible db si v ∧ v.idTag = some tag := by
  unfold accessibleVehicles
  simp only [List.mem_flatMap, List.mem_filterMap, List.mem_filter, decide_eq_true_eq]
  refine exists_congr fun si => and_congr_right fun _ => exists_congr fun v => ?_
  tauto

theorem mem_activeCards {tag : String} :
    tag ∈ activeCards db stationId ↔ ∃ si ∈ stationInfo db stationId, ∃ c ∈ db.cards,
      c.siteId = si.siteId ∧ c.status = "active" ∧ c.idTag = tag := by
  unfold activeCards
  simp only [List.mem_flatMap, List.mem_map, List.mem_filter, decide_eq_true_eq]
  refine exists_congr fun si => and_congr_right fun _ => exists_congr fun c => ?_
  tauto

/-! ### The lookup -/

theorem length_filter_le_one {α β : Type} {f : α → Option β} {rows : List α} (hunique : (rows.filterMap f).Nodup)
    {q : α → Bool} {k : β} (hq : ∀ row ∈ rows, q row = true → f row = some k) : (rows.filter q).length ≤ 1 := by
  induction rows with
  | nil => exact Nat.zero_le 1
  | cons row rows ih =>
    have hrest : ∀ row' ∈ rows, q row' = true → f row' = some k :=
      fun row' hrow' => hq row' (List.mem_cons_of_mem row hrow')
    by_cases hrow : q row = true
    · have hkey := hq row List.mem_cons_self hrow
      rw [List.filterMap_cons_some hkey, List.nodup_cons] at hunique
      have hnil : rows.filter q = [] := by
        rw [List.filter_eq_nil_iff]
        intro row' hrow' htrue
        exact hunique.1 (List.mem_filterMap.mpr ⟨row', hrow', hrest row' hrow' htrue⟩)
      rw [List.filter_cons_of_pos hrow, hnil]
      exact le_rfl
    · rw [List.filter_cons_of_neg hrow]
      refine ih ?_ hrest
      cases hkey : f row with
      | none => rwa [List.filterMap_cons_none hkey] at hunique
      | some k' =>
        rw [List.filterMap_cons_some hkey, List.nodup_cons] at hunique
        exact hunique.2

theorem matchingVehicles_length (idTag : String) (station : Option String) :
    (matchingVehicles db idTag station).length ≤ 1 := by
  refine length_filter_le_one db.vehicle_tags (k := idTag) fun v _ hv => ?_
  exact (of_decide_eq_true hv).1

theorem matchingCards_length (idTag : String) (station : Option String) :
    (matchingCards db idTag station).length ≤ 1 := by
  have hunique : (db.cards.filterMap fun c => some c.idTag).Nodup := by
    rw [List.filterMap_eq_map']
    exact db.card_tags
  refine length_filter_le_one hunique (k := idTag) fun c _ hc => ?_
  rw [(of_decide_eq_true hc).1]

theorem lookupIdTag_isSome_iff (idTag : String) (station : Option String) :
    (lookupIdTag le db idTag station).isSome = true ↔
      matchingVehicles db idTag station ≠ [] ∨ matchingCards db idTag station ≠ [] := by
  have hvehicles := matchingVehicles_length db idTag station
  have hcards := matchingCards_length db idTag station
  unfold lookupIdTag
  match hv : matchingVehicles db idTag station with
  | v :: v' :: rest =>
    rw [hv] at hvehicles
    exact absurd hvehicles (by simp)
  | [v] => simp
  | [] =>
    match hc : matchingCards db idTag station with
    | c :: c' :: rest =>
      rw [hc] at hcards
      exact absurd hcards (by simp)
    | [c] => simp
    | [] => simp

theorem mem_matchingVehicles {idTag : String} {station : Option String} {v : Vehicle} :
    v ∈ matchingVehicles db idTag station ↔ v ∈ db.vehicles ∧ v.idTag = some idTag ∧
      v.status.getD "active" = "active" ∧ stationFilter db station v.siteId := by
  unfold matchingVehicles
  rw [List.mem_filter, decide_eq_true_eq]

theorem mem_matchingCards {idTag : String} {station : Option String} {c : Card} :
    c ∈ matchingCards db idTag station ↔ c ∈ db.cards ∧ c.idTag = idTag ∧ c.status = "active" ∧
      stationFilter db station (some c.siteId) := by
  unfold matchingCards
  rw [List.mem_filter, decide_eq_true_eq]

/-! ### Both -/

theorem stationFilter_of_mem {si : StationInfo} (h : si ∈ stationInfo db stationId) :
    stationFilter db (some stationId) (some si.siteId) := by
  obtain ⟨ch, hch, hid, s, _, hsite, rfl⟩ := (mem_stationInfo db stationId).mp h
  exact ⟨ch, hch, hid, s.id, rfl, hsite.symm⟩

/-- **What is listed is found.** -/
theorem lookup_of_listed {tag : String} (h : tag ∈ (listAuthorizedIdTags le db stationId).map TagRow.idTag) :
    (lookupIdTag le db tag (some stationId)).isSome = true := by
  rw [lookupIdTag_isSome_iff]
  rcases (mem_listAuthorizedIdTags le db stationId).mp h with hvehicle | hcard
  · obtain ⟨si, hsi, v, hv, hsite, hstatus, _, htag⟩ := (mem_accessibleVehicles db stationId).mp hvehicle
    refine .inl (List.ne_nil_of_mem ((mem_matchingVehicles db).mpr ⟨hv, htag, ?_, ?_⟩))
    · rw [hstatus, Option.getD_some]
    · rw [hsite]
      exact stationFilter_of_mem db stationId hsi
  · obtain ⟨si, hsi, c, hc, hsite, hstatus, htag⟩ := (mem_activeCards db stationId).mp hcard
    refine .inr (List.ne_nil_of_mem ((mem_matchingCards db).mpr ⟨hc, htag, hstatus, ?_⟩))
    rw [hsite]
    exact stationFilter_of_mem db stationId hsi

/-- The station is at open sites, which have a status for each of their vehicles. -/
def OpenSite : Prop :=
  ∀ ch ∈ db.stations, ch.stationId = stationId → ∀ siteId, ch.siteId = some siteId →
    (∃ s ∈ db.sites, s.id = siteId ∧ s.accessMode = some "open") ∧
      ∀ v ∈ db.vehicles, v.siteId = some siteId → v.status.isSome = true

variable {db stationId}

theorem OpenSite.stationInfo (hopen : OpenSite db stationId) {siteId : Option String}
    (h : stationFilter db (some stationId) siteId) : ∃ si ∈ stationInfo db stationId, siteId = some si.siteId ∧
      si.accessMode = some "open" ∧ ∀ v ∈ db.vehicles, v.siteId = siteId → v.status.isSome = true := by
  obtain ⟨ch, hch, hid, site, hsite, hchsite⟩ := h
  obtain rfl := Option.mem_def.mp hsite
  obtain ⟨⟨s, hs, hsid, hmode⟩, hstatus⟩ := hopen ch hch hid site hchsite
  subst hsid
  exact ⟨_, (mem_stationInfo db stationId).mpr ⟨ch, hch, hid, s, hs, hchsite.symm, rfl⟩, rfl, hmode, hstatus⟩

/-- **What is found at an open site is listed.** -/
theorem OpenSite.listed_of_lookup (hopen : OpenSite db stationId) {tag : String}
    (h : (lookupIdTag le db tag (some stationId)).isSome = true) :
    tag ∈ (listAuthorizedIdTags le db stationId).map TagRow.idTag := by
  rw [mem_listAuthorizedIdTags]
  rcases (lookupIdTag_isSome_iff le db tag (some stationId)).mp h with hvehicles | hcards
  · obtain ⟨v, hmem⟩ := List.exists_mem_of_ne_nil _ hvehicles
    obtain ⟨hv, htag, hactive, hfilter⟩ := (mem_matchingVehicles db).mp hmem
    obtain ⟨si, hsi, hsite, hmode, hstatus⟩ := hopen.stationInfo hfilter
    obtain ⟨status, hsome⟩ := Option.isSome_iff_exists.mp (hstatus v hv rfl)
    rw [hsome, Option.getD_some] at hactive
    rw [hactive] at hsome
    exact .inl ((mem_accessibleVehicles db stationId).mpr ⟨si, hsi, v, hv, hsite, hsome, .inl hmode, htag⟩)
  · obtain ⟨c, hmem⟩ := List.exists_mem_of_ne_nil _ hcards
    obtain ⟨hc, htag, hactive, hfilter⟩ := (mem_matchingCards db).mp hmem
    obtain ⟨si, hsi, hsite, _, _⟩ := hopen.stationInfo hfilter
    exact .inr ((mem_activeCards db stationId).mpr ⟨si, hsi, c, hc, Option.some.inj hsite, hactive, htag⟩)

theorem authorize_of_lookup {tag : String} (hblank : Text.strip tag.toList ≠ [])
    (h : (lookupIdTag le db tag (some stationId)).isSome = true) {s : State} {c : Call} (htag : c.idTag = tag.toList)
    (hanswer : c.lookup = lookupOutcome le db tag (some stationId))
    (hfree : (s.isThrottled c.durableCount c.key c.checkedAt).2 = false) :
    (s.authorize c).2.status = .accepted := by
  obtain ⟨identity, hidentity⟩ := Option.isSome_iff_exists.mp h
  have hfound : c.lookup = .known ⟨identity.vehicleId, identity.driverId, identity.cardId, identity.depotId⟩ := by
    rw [hanswer]
    unfold lookupOutcome
    rw [hidentity]
  rw [← htag] at hblank
  unfold State.authorize
  rw [if_neg hblank, hfree, if_neg Bool.false_ne_true]
  unfold State.resolve
  rw [hfound]

end Queries

/-- **The offline list never exceeds what is accepted online.**  For every content of the tables, every
collation and every station: each listed tag that is not blank is accepted by `authorize` at the station, in
every state in which it is not throttled there; no tag is listed twice; and at an open site, where each vehicle
has a status, the listed tags are exactly those that the lookup resolves. -/
theorem offline_within_online (le : String → String → Bool) (db : Fleet) (stationId : String) :
    (∀ tag ∈ (listAuthorizedIdTags le db stationId).map TagRow.idTag, Text.strip tag.toList ≠ [] →
      ∀ (s : State) (c : Call), c.key = (stationId.toList, tag.toList) →
        c.lookup = lookupOutcome le db tag (some stationId) →
        (s.isThrottled c.durableCount c.key c.checkedAt).2 = false → (s.authorize c).2.status = .accepted) ∧
    ((listAuthorizedIdTags le db stationId).map TagRow.idTag).Nodup ∧
    (OpenSite db stationId → ∀ tag, tag ∈ (listAuthorizedIdTags le db stationId).map TagRow.idTag ↔
      (lookupIdTag le db tag (some stationId)).isSome = true) := by
  refine ⟨?_, nodup_distinctOn _ _, ?_⟩
  · intro tag htag hblank s c hkey hanswer hfree
    have hsame : c.idTag = tag.toList := congrArg Prod.snd hkey
    exact authorize_of_lookup le hblank (lookup_of_listed le db stationId htag) hsame hanswer hfree
  · intro hopen tag
    exact ⟨lookup_of_listed le db stationId, hopen.listed_of_lookup le⟩

def depot : Fleet where
  stations := [⟨"ch", "CP-1", some "site"⟩]
  sites := [⟨"site", some "open", some "explicit_matrix"⟩]
  vehicles := [⟨"v", some "site", some "A1", some "active", "bus"⟩]
  cards := [⟨"c1", "site", "A1", "active"⟩, ⟨"c2", "site", "B2", "active"⟩]
  access := []
  drivers := []
  cardVehicles := []
  cardDrivers := []
  vehicle_tags := by decide +kernel
  card_tags := by decide +kernel

def codePoints (a b : String) : Bool := decide (a ≤ b)

/-- The shared tag is listed once, as that of the vehicle, and each of the listed tags is found. -/
theorem depot_list :
    listAuthorizedIdTags codePoints depot "CP-1" = [⟨"A1", .vehicle⟩, ⟨"B2", .rfidCard⟩] ∧
    (lookupIdTag codePoints depot "A1" (some "CP-1")).isSome = true ∧
    (lookupIdTag codePoints depot "B2" (some "CP-1")).isSome = true := by
  have hlist : listAuthorizedIdTags codePoints depot "CP-1" = [⟨"A1", .vehicle⟩, ⟨"B2", .rfidCard⟩] := by
    decide +kernel
  have hopen : OpenSite depot "CP-1" := by
    intro ch hch _ siteId hsite
    obtain rfl := List.mem_singleton.mp hch
    obtain rfl := Option.some.inj hsite
    refine ⟨⟨_, List.mem_singleton_self _, rfl, rfl⟩, fun v hv _ => ?_⟩
    obtain rfl := List.mem_singleton.mp hv
    rfl
  have hexact := (offline_within_online codePoints depot "CP-1").2.2 hopen
  rw [hlist] at hexact
  exact ⟨hlist, (hexact "A1").mp (by decide), (hexact "B2").mp (by decide)⟩

end FavoniusBackend.Ocpp.OfflineList
