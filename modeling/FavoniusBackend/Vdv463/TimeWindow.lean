import FavoniusBackend.Lib.DateTime
import FavoniusBackend.Vdv463.ItemReading

/-!
# The time window of an item

The handler compares the two times of an item as they are written, and `_parse_iso` stores the instants that they name.
`verdict_timed` says what becomes of an item, and `times_turn` which times its turn leaves in the table.  The two orders
are the same exactly when either both or neither of two things hold (`comparesInstants_iff`): the texts do not sort as
the clocks that they show, and the offsets reach across what lies between these clocks.
-/

namespace FavoniusBackend.Vdv463

open Lib
open Lib.PyJson
open Lib.Stateful

/-! ## Items with two times -/

/-- The text that `_parse_iso` hands on. -/
def isoText (s : PyStr) : PyStr := if s.getLast? = some 90 then s.dropLast ++ py "+00:00" else s

/-- The repository stores the instants that the parser of the standard library reads. -/
def Setting.reading (setting : Setting) (iso : PyStr → Option DateTime) : Setting :=
  { setting with fromisoformat := fun s => (iso s).map fun t => (t.instant : ℚ) }

/-- A text that `_parse_iso` reads as an aware datetime. -/
structure AwareText (iso : PyStr → Option DateTime) where
  text : PyStr
  nonempty : text ≠ []
  wall : DateTime.Wall
  offset : ℤ
  reads : iso (isoText text) = some ⟨wall, some offset⟩

def AwareText.instant {iso : PyStr → Option DateTime} (t : AwareText iso) : ℤ := t.wall.val - t.offset

/-- An item of which a charging request is made, with two times that are read as aware datetimes. -/
structure TimedItem (iso : PyStr → Option DateTime) where
  fields : List (PyStr × Json)
  data : List (PyStr × Json)
  hasData : dataOf fields = .obj data
  socs : PyFloat × PyFloat × Option PyFloat
  readsSocs : socsOf data = .ok socs
  arrival : AwareText iso
  departure : AwareText iso
  hasArrival : arrivalOf data = .str arrival.text
  hasDeparture : departureOf data = .str departure.text

/-- What `parse_charging_request_item` makes of it. -/
def TimedItem.request {iso : PyStr → Option DateTime} (item : TimedItem iso) (envelope : VDVMessageEnvelope) :
    ChargingRequest :=
  requestOf item.fields item.data (if envelope.validationStatus = "" then "ok" else envelope.validationStatus) item.socs

def windowError (setting : Setting) (envelope : VDVMessageEnvelope) (req : ChargingRequest) : Reply :=
  buildError setting envelope "InvalidTimeWindow"
    (py "expectedArrivalTimeAtChargingPoint must be before requestedTimeForDeparture")
    [(py "chargingRequestId", req.chargingRequestId)]

/-! ## The frames of a turn -/

variable {setting : Setting} {self : VDV463Handler} {c : Circumstances} {envelope : VDVMessageEnvelope}

theorem errorCode_of_buildError {code code' : String} {description description' : PyStr} {id : Json}
    (h : buildError setting envelope code description [(py "chargingRequestId", id)] =
      buildError setting envelope code' description' [(py "chargingRequestId", id)]) : py code = py code' := by
  have hpayload := congrArg Reply.payload h
  have hcode := congrArg (fun fields => Json.lookup fields (py "errorCode")) hpayload
  exact Json.str.inj (Option.some.inj hcode)

/-- The frame of an accepted item comes with the confirmation of its message. -/
theorem sent_persist (i : ℕ) (req : ChargingRequest) (vehicleId : PyStr) (point : Option PyStr) (w : World) :
    (exec (persist setting self c envelope i req vehicleId point) w).2.sent = w.sent := by
  rcases hstored : self.stored with _ | depotId
  · rw [persist, hstored]
    rfl
  · rw [exec_persist_stored setting self c envelope hstored]
    split
    · rfl
    · rfl

theorem sent_reject {i : ℕ} (hsends : c.fails (.send (some i)) = false) (req : ChargingRequest) (code : String)
    (description : PyStr) (w : World) :
    (exec (reject setting self c envelope i req code description) w).2.sent =
      w.sent ++ [buildError setting envelope code description [(py "chargingRequestId", req.chargingRequestId)]] := by
  rw [exec_reject, if_neg (by rw [hsends]; exact Bool.false_ne_true)]

theorem sent_resolve_ne {i : ℕ} (hsends : c.fails (.send (some i)) = false) (req : ChargingRequest) (w : World) :
    (exec (settle setting self c envelope i (resolveVerdict setting self c i req)) w).2.sent ≠
      w.sent ++ [windowError setting envelope req] := by
  have hcodes : ∀ (code : String) (description : PyStr), py code ≠ py "InvalidTimeWindow" →
      (exec (reject setting self c envelope i req code description) w).2.sent ≠
        w.sent ++ [windowError setting envelope req] := by
    intro code description hne h
    rw [sent_reject hsends] at h
    exact hne (errorCode_of_buildError (List.singleton_inj.mp (List.append_cancel_left h)))
  have hkept : ∀ (vehicleId : PyStr) (point : Option PyStr),
      (exec (persist setting self c envelope i req vehicleId point) w).2.sent ≠
        w.sent ++ [windowError setting envelope req] := by
    intro vehicleId point h
    rw [sent_persist] at h
    exact List.cons_ne_nil _ _ (List.self_eq_append_right.mp h)
  unfold resolveVerdict
  split
  · exact hcodes _ _ (by decide)
  · split
    · split
      · exact hcodes _ _ (by decide)
      · exact hkept _ _
    · exact hkept _ _

/-! ## The verdict on an item with two times -/

variable {iso : PyStr → Option DateTime} (item : TimedItem iso)

theorem invalidTimeWindow_request : invalidTimeWindow (item.request envelope) =
    .ok (decide (item.departure.text ≤ item.arrival.text)) := by
  have hne : ∀ t : AwareText iso, (Json.str t.text).truthy = true := by
    intro t
    simp [Json.truthy, t.nonempty]
  have harrival : (item.request envelope).arrivalTime = .str item.arrival.text := item.hasArrival
  have hdeparture : (item.request envelope).departureTime = .str item.departure.text := item.hasDeparture
  rw [invalidTimeWindow, harrival, hdeparture, hne, hne]
  rfl

theorem verdict_timed (i : ℕ) : verdict setting self c envelope i (.obj item.fields) =
    if item.departure.text ≤ item.arrival.text then
      .rejected (item.request envelope) "InvalidTimeWindow"
        (py "expectedArrivalTimeAtChargingPoint must be before requestedTimeForDeparture")
    else resolveVerdict setting self c i (item.request envelope) := by
  have hparse : parseChargingRequestItem (.obj item.fields)
      (if envelope.validationStatus = "" then "ok" else envelope.validationStatus) =
        .ok (item.request envelope) := by
    rw [parse_of_data item.hasData, item.readsSocs]
    rfl
  unfold verdict
  rw [hparse]
  simp only [invalidTimeWindow_request]
  by_cases h : item.departure.text ≤ item.arrival.text
  · rw [if_pos h, decide_eq_true h]
  · rw [if_neg h, decide_eq_false h]

/-- **The check reads the texts**: an item is refused for its window exactly when the text of its departure does not sort
after the text of its arrival. -/
theorem sent_iff {i : ℕ} (hsends : c.fails (.send (some i)) = false) (w : World) :
    (exec (processRequest setting self c envelope i (.obj item.fields)) w).2.sent =
        w.sent ++ [windowError setting envelope (item.request envelope)] ↔
      item.departure.text ≤ item.arrival.text := by
  rw [exec_processRequest_eq, verdict_timed]
  by_cases h : item.departure.text ≤ item.arrival.text
  · rw [if_pos h]
    exact iff_of_true (sent_reject hsends _ _ _ w) h
  · rw [if_neg h]
    exact iff_of_false (sent_resolve_ne hsends _ w) h

/-! ## The row of an item -/

theorem parseIsoIf_aware (t : AwareText iso) :
    parseIsoIf (setting.reading iso).fromisoformat (.str t.text) = .ok (some (t.instant : ℚ)) := by
  rw [parseIsoIf, if_pos (by simp [Json.truthy, t.nonempty])]
  show Except.ok ((iso (isoText t.text)).map _) = _
  rw [t.reads]
  rfl

theorem requestRow_times {fromisoformat : PyStr → Option ℚ} {req : ChargingRequest} {vehicleId : PyStr}
    {chargingPointId : Option PyStr} {messageId : Json} {row : RequestRow}
    (h : requestRow fromisoformat req vehicleId chargingPointId messageId = .ok row) :
    parseIsoIf fromisoformat req.arrivalTime = .ok row.expectedArrival ∧
      parseIsoIf fromisoformat req.departureTime = .ok row.requestedDeparture := by
  unfold requestRow at h
  simp only [Guard.bind_eq_ok] at h
  obtain ⟨_, -, _, -, _, -, _, -, _, -, _, -, a, ha, d, hd, _, -, _, -, _, -, h⟩ := h
  cases h
  exact ⟨ha, hd⟩

def KeepsTimes (store : Requests) (key : RequestKey) (row : RequestRow) : Prop :=
  ∃ old, store.get? key = some old ∧ old.expectedArrival = row.expectedArrival ∧
    old.requestedDeparture = row.requestedDeparture

def HasTimes (row : RequestRow) : Prop :=
  row.expectedArrival = some (item.arrival.instant : ℚ) ∧ row.requestedDeparture = some (item.departure.instant : ℚ)

theorem times_persistEffect {depotId : PyStr} {i : ℕ} {vehicleId : PyStr} {point : Option PyStr}
    {effect : Requests → Requests}
    (h : persistEffect (setting.reading iso) self c envelope depotId i (item.request envelope) vehicleId point =
      some effect)
    {store : Requests} {key : RequestKey} {row : RequestRow} (hrow : (effect store).get? key = some row) :
    KeepsTimes store key row ∨ HasTimes item row := by
  unfold persistEffect at h
  simp only at h
  split at h
  · exact nomatch h
  · split at h
    · -- a request that is terminated keeps its times
      cases h
      rw [setChargingRequestTerminated, Dict.get?_mapWithKey] at hrow
      obtain ⟨old, hold, rfl⟩ := Option.map_eq_some_iff.mp hrow
      refine .inl ⟨old, hold, ?_⟩
      split
      · exact ⟨rfl, rfl⟩
      · exact ⟨rfl, rfl⟩
    · split at h
      · rename_i new hnew
        cases h
        rw [upsertChargingRequest, Dict.get?_set] at hrow
        split at hrow
        · obtain rfl := Option.some.inj hrow
          obtain ⟨harrival, hdeparture⟩ := requestRow_times hnew
          have ha : (item.request envelope).arrivalTime = .str item.arrival.text := item.hasArrival
          have hd : (item.request envelope).departureTime = .str item.departure.text := item.hasDeparture
          rw [ha, parseIsoIf_aware] at harrival
          rw [hd, parseIsoIf_aware] at hdeparture
          exact .inr ⟨(Except.ok.inj harrival).symm, (Except.ok.inj hdeparture).symm⟩
        · exact .inl ⟨row, hrow, rfl, rfl⟩
      · exact nomatch h

theorem times_turn (i : ℕ) (w : World) {key : RequestKey} {row : RequestRow}
    (hrow : (exec (processRequest (setting.reading iso) self c envelope i (.obj item.fields)) w).2.store.get? key =
      some row) :
    KeepsTimes w.store key row ∨ ¬ item.departure.text ≤ item.arrival.text ∧ HasTimes item row := by
  have hsame : ∀ (req : ChargingRequest) (code : String) (description : PyStr),
      (exec (reject (setting.reading iso) self c envelope i req code description) w).2.store = w.store := by
    intro req code description
    rw [exec_reject]
    split
    · rfl
    · rfl
  rw [exec_processRequest_eq, verdict_timed] at hrow
  by_cases h : item.departure.text ≤ item.arrival.text
  · rw [if_pos h, settle, hsame] at hrow
    exact .inl ⟨row, hrow, rfl, rfl⟩
  · rw [if_neg h] at hrow
    have hkept : ∀ (vehicleId : PyStr) (point : Option PyStr),
        (exec (persist (setting.reading iso) self c envelope i (item.request envelope) vehicleId point) w).2.store.get?
          key = some row → KeepsTimes w.store key row ∨ HasTimes item row := by
      intro vehicleId point hrow
      rcases hstored : self.stored with _ | depotId
      · rw [persist, hstored] at hrow
        exact .inl ⟨row, hrow, rfl, rfl⟩
      · rw [exec_persist_stored (setting.reading iso) self c envelope hstored] at hrow
        split at hrow
        · rename_i effect heffect
          exact times_persistEffect item heffect hrow
        · exact .inl ⟨row, hrow, rfl, rfl⟩
    have hcases : KeepsTimes w.store key row ∨ HasTimes item row := by
      unfold resolveVerdict at hrow
      split at hrow
      · rw [settle, hsame] at hrow
        exact .inl ⟨row, hrow, rfl, rfl⟩
      · split at hrow
        · split at hrow
          · rw [settle, hsame] at hrow
            exact .inl ⟨row, hrow, rfl, rfl⟩
          · exact hkept _ _ hrow
        · exact hkept _ _ hrow
    exact hcases.imp_right fun htimes => ⟨h, htimes⟩

/-! ## Texts and instants -/

variable (setting) in
/-- The check compares instants: whoever sends the item, it is refused for its window exactly when it arrives at or after
the time of its departure, and what its turn stores arrives before it departs. -/
structure ComparesInstants : Prop where
  refused : ∀ (self : VDV463Handler) (c : Circumstances) (envelope : VDVMessageEnvelope) (i : ℕ) (w : World),
    c.fails (.send (some i)) = false →
      ((exec (processRequest (setting.reading iso) self c envelope i (.obj item.fields)) w).2.sent =
          w.sent ++ [windowError (setting.reading iso) envelope (item.request envelope)] ↔
        item.departure.instant ≤ item.arrival.instant)
  stored : ∀ (self : VDV463Handler) (c : Circumstances) (envelope : VDVMessageEnvelope) (i : ℕ) (w : World)
    (key : RequestKey) (row : RequestRow),
    (exec (processRequest (setting.reading iso) self c envelope i (.obj item.fields)) w).2.store.get? key = some row →
      KeepsTimes w.store key row ∨
        ∃ a d : ℚ, row.expectedArrival = some a ∧ row.requestedDeparture = some d ∧ a < d

theorem comparesInstants_iff_order : ComparesInstants setting item ↔
    (item.departure.text ≤ item.arrival.text ↔ item.departure.instant ≤ item.arrival.instant) := by
  constructor
  · intro h
    let self : VDV463Handler := ⟨[], none, false, .soft, 0⟩
    let c : Circumstances := ⟨none, fun _ => none, fun _ => none, fun _ => false⟩
    let envelope : VDVMessageEnvelope := ⟨.null, .null, .null, .null, .null, .null, .null, "", []⟩
    exact (sent_iff item rfl _).symm.trans (h.refused self c envelope 0 ⟨Dict.empty, [], Dict.empty, []⟩ rfl)
  · intro h
    refine ⟨fun self c envelope i w hsends => (sent_iff item hsends w).trans h, ?_⟩
    intro self c envelope i w key row hrow
    refine (times_turn item i w hrow).imp_right ?_
    rintro ⟨hnot, harrival, hdeparture⟩
    have hlt : item.arrival.instant < item.departure.instant := not_le.mp fun hle => hnot (h.mpr hle)
    exact ⟨_, _, harrival, hdeparture, by exact_mod_cast hlt⟩

/-- The two texts do not sort as the clocks that they show. -/
def TextsMislead : Prop :=
  ¬ (item.departure.text ≤ item.arrival.text ↔ item.departure.wall.val ≤ item.arrival.wall.val)

/-- The offsets turn the order of the clocks around: the arrival shows no earlier clock and its offset is ahead by more
than that, or it shows an earlier one and its offset is behind by no less. -/
def OffsetsDecide : Prop :=
  let clocks := item.arrival.wall.val - item.departure.wall.val
  let offsets := item.arrival.offset - item.departure.offset
  0 ≤ clocks ∧ clocks < offsets ∨ offsets ≤ clocks ∧ clocks < 0

/-- **When the check compares instants**: the texts sort as the clocks and the offsets do not matter, or they do not sort
so and the offsets turn the clocks around. -/
theorem comparesInstants_iff : ComparesInstants setting item ↔ (TextsMislead item ↔ OffsetsDecide item) := by
  have hdecide : OffsetsDecide item ↔
      ¬ (item.departure.wall.val ≤ item.arrival.wall.val ↔ item.departure.instant ≤ item.arrival.instant) := by
    unfold OffsetsDecide AwareText.instant
    simp only
    omega
  have hswap : ∀ p q r : Prop, (p ↔ r) ↔ (¬ (p ↔ q) ↔ ¬ (q ↔ r)) := by
    intro p q r
    by_cases hq : q
    · rw [iff_true_right hq, iff_true_left hq, not_iff_not]
    · rw [iff_false_right hq, iff_false_left hq, not_not, not_not]
  rw [comparesInstants_iff_order, hdecide, TextsMislead]
  exact hswap _ _ _

/-! ## Two offsets -/

deriving instance DecidableEq for DateTime

/-- The reading of `YYYY-MM-DDTHH:MM:SS±HH:MM`. -/
def isoSeconds (s : PyStr) : Option DateTime :=
  let cs := s.map Char.ofNat
  match DateTime.strptime DateTime.secondsFormat (cs.take 19 ++ ['Z']), (cs.drop 19).map Text.decimal with
  | some wall, [none, some h, some h', none, some m, some m'] =>
    let offset : ℤ := ((10 * h + h') * 60 + (10 * m + m')) * 60000000
    if cs[19]? = some '+' ∧ cs[22]? = some ':' then some ⟨wall, some offset⟩
    else if cs[19]? = some '-' ∧ cs[22]? = some ':' then some ⟨wall, some (-offset)⟩
    else none
  | _, _ => none

/-- Ten o'clock two hours east of Greenwich is eight o'clock there, but its text sorts after nine o'clock. -/
theorem earlier_arrival_refused :
    ¬ ∀ (setting : Setting) (iso : PyStr → Option DateTime) (item : TimedItem iso), ComparesInstants setting item := by
  intro h
  let data : List (PyStr × Json) := [
    (py "expectedArrivalTimeAtChargingPoint", .str (py "2025-01-01T10:00:00+02:00")),
    (py "requestedTimeForDeparture", .str (py "2025-01-01T09:00:00Z")),
    (py "minTargetSoc", .int 80), (py "maxTargetSoc", .int 100)]
  let item : TimedItem isoSeconds := {
    fields := [(py "chargingRequestId", .str (py "r1")), (py "vehicleId", .str (py "bus_7")),
      (py "chargingRequestData", .obj data)]
    data := data
    hasData := by decide +kernel
    socs := (.finite (4 / 5), .finite 1, none)
    readsSocs := by decide +kernel
    arrival := {
      text := py "2025-01-01T10:00:00+02:00"
      nonempty := by decide
      wall := ⟨63871322400000000, by decide⟩
      offset := 7200000000
      reads := by decide +kernel }
    departure := {
      text := py "2025-01-01T09:00:00Z"
      nonempty := by decide
      wall := ⟨63871318800000000, by decide⟩
      offset := 0
      reads := by decide +kernel }
    hasArrival := by decide +kernel
    hasDeparture := by decide +kernel }
  let setting : Setting := {
    production := false
    defaultMode := .soft
    decodeDepth := 9000
    copyDepth := 490
    schemas := Dict.empty
    validate := fun _ _ => .ok ()
    str := strOfStr
    decodeErrorText := fun _ => []
    fromisoformat := fun _ => none }
  have horder := (comparesInstants_iff_order item).mp (h setting isoSeconds item)
  exact absurd (horder.mp (by decide +kernel)) (by decide)

end FavoniusBackend.Vdv463
