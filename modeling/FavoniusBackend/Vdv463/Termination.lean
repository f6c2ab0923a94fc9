import FavoniusBackend.Lib.Run
import FavoniusBackend.Vdv463.Turns

/-!
# Which requests a message terminates

A message lists all requests of its presystem, and those that it lacks are to be terminated.  The handler terminates what
is not in the list of the ids that it has just written, so an item that it passes over, refuses or fails to write counts
as absent.

`along_terminatesOnlyAbsent_iff`: in a run of messages, each step terminates only requests that are really absent if and
only if each item that names an active request is written, or the step does not get to the terminating statement.
-/

namespace FavoniusBackend.Vdv463

open Lib
open Lib.Run
open Lib.PyJson
open Lib.Stateful

/-! ## Runs of messages -/

/-- A message, the handler that takes it and what its surroundings do meanwhile. -/
structure Message where
  handler : VDV463Handler
  circumstances : Circumstances
  envelope : VDVMessageEnvelope

variable (setting : Setting)

/-- One message: an exception is swallowed further up. -/
def provide (w : World) (m : Message) : World :=
  (exec (handleProvideChargingRequests setting m.handler m.circumstances m.envelope) w).2

def Names (item id : Json) : Prop := item.get "chargingRequestId" (.str []) = .ok id

def SaysTerminate (item : Json) : Prop :=
  item.get "chargingInstruction" (.str (py "Normal")) = .ok (.str (py "Terminate"))

/-- An active request that the message terminates does not occur in it, or occurs with `Terminate`. -/
def TerminatesOnlyAbsent (w : World) (m : Message) : Prop :=
  ∀ key items, chargingRequestList m.envelope.payload = .ok items → statusOf w.store key = some .active →
    statusOf (provide setting w m).store key = some .terminated →
    (∀ item ∈ items, ¬ Names item key.chargingRequestId) ∨
      ∃ item ∈ items, Names item key.chargingRequestId ∧ SaysTerminate item

/-! ## The condition -/

def TurnReturns (self : VDV463Handler) (c : Circumstances) (envelope : VDVMessageEnvelope) (depotId : PyStr) (i : ℕ)
    (reqData : Json) : Prop :=
  match verdict setting self c envelope i reqData with
  | .skipped => True
  | .raises _ => False
  | .rejected _ _ _ => c.fails (.send (some i)) = false ∧ c.fails (.log (some i)) = false
  | .accepted req vehicleId chargingPointId =>
    (persistEffect setting self c envelope depotId i req vehicleId chargingPointId).isSome ∨
      c.fails (.log (some i)) = false

/-- The message gets to the statement that terminates: no id comes twice, no turn raises, and the statement succeeds. -/
structure Terminating (m : Message) (depotId : PyStr) (items : List Json) : Prop where
  stored : m.handler.stored = some depotId
  list : chargingRequestList m.envelope.payload = .ok items
  unique : duplicateRequestId [] items = .ok none
  returns : ∀ i item, items[i]? = some item → TurnReturns setting m.handler m.circumstances m.envelope depotId i item
  succeeds : m.circumstances.fails .terminate = false

def IsWritten (m : Message) (depotId : PyStr) (items : List Json) (id : Json) : Prop :=
  ∃ (i : ℕ) (item : Json) (req : ChargingRequest), items[i]? = some item ∧
    written setting m.handler m.circumstances m.envelope depotId i item = some req ∧ req.chargingRequestId = id

/-- Of a message that gets to that statement, each item with the id of an active request, and no `Terminate` for it, has
an item of that id that is written. -/
def NamedIsWritten (w : World) (m : Message) : Prop :=
  ∀ depotId items, Terminating setting m depotId items → ∀ item ∈ items, ∀ id, Names item id →
    statusOf w.store ⟨depotId, m.handler.presystemId, id⟩ = some .active →
    (∃ item' ∈ items, Names item' id ∧ SaysTerminate item') ∨ IsWritten setting m depotId items id

/-! ## The loop -/

section Loop

variable {setting} {self : VDV463Handler} {c : Circumstances} {envelope : VDVMessageEnvelope} {depotId : PyStr}

theorem turnReturns_iff (hstored : self.stored = some depotId) {i : ℕ} {reqData : Json} :
    TurnReturns setting self c envelope depotId i reqData ↔
      ∃ kept, turnResult setting self c envelope i reqData = .ok kept := by
  unfold TurnReturns turnResult logFails
  rcases verdict setting self c envelope i reqData with _ | e | ⟨req, code, description⟩ | ⟨req, vehicleId, point⟩
  · simp
  · simp
  · cases c.fails (.send (some i)) <;> cases c.fails (.log (some i)) <;> simp [hstored]
  · simp only [hstored]
    cases persistEffect setting self c envelope depotId i req vehicleId point <;>
      cases c.fails (.log (some i)) <;> simp

theorem exec_processRequests_ok {items : List Json} {n : ℕ}
    (h : ∀ i item, items[i]? = some item → ∃ kept, turnResult setting self c envelope (n + i) item = .ok kept)
    (w : World) : ∃ ids w', exec (processRequests setting self c envelope n items) w = (.ok ids, w') := by
  induction items generalizing n w with
  | nil => exact ⟨[], w, rfl⟩
  | cons item rest ih =>
    obtain ⟨kept, hkept⟩ := h 0 item rfl
    have hturn := exec_processRequest_fst setting self c envelope n item { w with begun := w.begun ++ [item] }
    obtain ⟨ids, w', hrest⟩ := @ih (n + 1)
      (fun i item' hi => by
        have := h (i + 1) item' hi
        rwa [← Nat.add_assoc, Nat.add_right_comm] at this)
      (exec (processRequest setting self c envelope n item) { w with begun := w.begun ++ [item] }).2
    refine ⟨kept.toList ++ ids, w', ?_⟩
    rw [processRequests, exec_modify_bind, exec_bind_ok (Prod.ext (hturn.trans hkept) rfl), exec_bind_ok hrest]
    rfl

theorem of_exec_processRequests {items ids : List Json} {n : ℕ} {w w' : World}
    (h : exec (processRequests setting self c envelope n items) w = (.ok ids, w')) :
    (∀ i item, items[i]? = some item → ∃ kept, turnResult setting self c envelope (n + i) item = .ok kept) ∧
      ∀ id, id ∈ ids ↔
        ∃ i item, items[i]? = some item ∧ turnResult setting self c envelope (n + i) item = .ok (some id) := by
  induction items generalizing n ids w with
  | nil =>
    obtain rfl : [] = ids := Except.ok.inj (Prod.mk.inj h).1
    exact ⟨nofun, by simp⟩
  | cons item rest ih =>
    rw [processRequests, exec_modify_bind] at h
    obtain ⟨kept, w₁, hturn, h⟩ := (exec_bind_eq_ok _ _ _ _ _).mp h
    obtain ⟨ids', w₂, hrest, h⟩ := (exec_bind_eq_ok _ _ _ _ _).mp h
    obtain ⟨hok, rfl⟩ := Prod.mk.inj h
    obtain rfl := Except.ok.inj hok
    have hkept : turnResult setting self c envelope n item = .ok kept := by
      rw [← exec_processRequest_fst, hturn]
    obtain ⟨hreturns, hids⟩ := ih hrest
    constructor
    · intro i item' hi
      cases i with
      | zero =>
        cases hi
        exact ⟨kept, hkept⟩
      | succ i =>
        have := hreturns i item' hi
        rwa [Nat.add_right_comm] at this
    · intro id
      rw [List.mem_append, hids]
      constructor
      · rintro (hid | ⟨i, item', hi, hresult⟩)
        · obtain rfl := Option.mem_toList.mp hid
          exact ⟨0, item, rfl, hkept⟩
        · exact ⟨i + 1, item', hi, by rwa [Nat.add_right_comm] at hresult⟩
      · rintro ⟨i, item', hi, hresult⟩
        cases i with
        | zero =>
          cases hi
          rw [Nat.add_zero, hkept] at hresult
          cases hresult
          exact .inl (by simp)
        | succ i => exact .inr ⟨i, item', hi, by rwa [Nat.add_right_comm]⟩

theorem active_turn (hstored : self.stored = some depotId) {i : ℕ} {reqData : Json} {w : World} {key : RequestKey}
    (hactive : statusOf w.store key = some .active)
    (hterm : ¬ (Names reqData key.chargingRequestId ∧ SaysTerminate reqData)) :
    statusOf (exec (processRequest setting self c envelope i reqData) w).2.store key = some .active := by
  rw [statusOf_turn hstored]
  split
  · rename_i req hwritten
    obtain ⟨hid, hinstruction⟩ := get_of_written hwritten
    split
    · rename_i hkey
      rw [if_neg]
      intro h
      rw [h] at hinstruction
      refine hterm ⟨?_, hinstruction⟩
      rw [hkey]
      exact hid
    · exact hactive
  · exact hactive

theorem active_processRequests (hstored : self.stored = some depotId) {key : RequestKey} {items : List Json}
    (hterm : ¬ ∃ item ∈ items, Names item key.chargingRequestId ∧ SaysTerminate item) {n : ℕ} {w : World}
    (hactive : statusOf w.store key = some .active) :
    statusOf (exec (processRequests setting self c envelope n items) w).2.store key = some .active := by
  induction items generalizing n w with
  | nil => exact hactive
  | cons item rest ih =>
    have hturn : statusOf (exec (processRequest setting self c envelope n item)
        { w with begun := w.begun ++ [item] }).2.store key = some .active :=
      active_turn hstored hactive fun h => hterm ⟨item, List.mem_cons_self, h⟩
    have hrest : ¬ ∃ item ∈ rest, Names item key.chargingRequestId ∧ SaysTerminate item :=
      fun ⟨item', hmem, h⟩ => hterm ⟨item', List.mem_cons_of_mem _ hmem, h⟩
    rw [processRequests, exec_modify_bind, exec_bind]
    split
    · rename_i kept w₁ heq
      rw [heq] at hturn
      have hloop := @ih hrest (n + 1) w₁ hturn
      rw [exec_bind]
      split
      · rename_i ids w₂ heq'
        rw [heq'] at hloop
        exact hloop
      · rename_i e w₂ heq'
        rw [heq'] at hloop
        exact hloop
    · rename_i e w₁ heq
      rw [heq] at hturn
      exact hturn

end Loop

/-! ## The terminating statement -/

section Statement

variable {setting} {self : VDV463Handler} {c : Circumstances} {envelope : VDVMessageEnvelope} {depotId : PyStr}

def absentTerminated (self : VDV463Handler) (c : Circumstances) (depotId : PyStr) (ids : List Json)
    (store : Requests) : Requests :=
  if c.fails .terminate then store else terminateRequestsNotInList depotId self.presystemId ids store

theorem store_terminateAbsent (hstored : self.stored = some depotId) (ids : List Json) (w : World) :
    ∃ w', exec (terminateAbsent self c ids) w = (.ok (), w') ∧
      w'.store = absentTerminated self c depotId ids w.store := by
  rw [terminateAbsent, hstored]
  unfold absentTerminated
  have hexecute := exec_execute c .terminate (terminateRequestsNotInList depotId self.presystemId ids) w
  by_cases hfails : c.fails .terminate
  · rw [if_pos hfails] at hexecute ⊢
    exact ⟨w, exec_recover_error (exec_bind_error hexecute), rfl⟩
  · rw [if_neg hfails] at hexecute ⊢
    refine ⟨{ w with store := terminateRequestsNotInList depotId self.presystemId ids w.store }, ?_, rfl⟩
    rw [exec_recover, exec_bind_ok hexecute, exec_perform]
    split
    · rename_i heq
      split at heq <;> cases heq
      rfl
    · rename_i heq
      split at heq <;> cases heq
      rfl

theorem store_send (op : Operation) (reply : Reply) (w : World) : (exec (send c op reply) w).2.store = w.store := by
  rw [exec_send]
  split
  · rfl
  · rfl

theorem store_processMessage_ok (hstored : self.stored = some depotId) {items ids : List Json} {w w' : World}
    (h : exec (processRequests setting self c envelope 0 items) w = (.ok ids, w')) :
    (exec (processMessage setting self c envelope items) w).2.store =
      absentTerminated self c depotId ids w'.store := by
  obtain ⟨w'', hterminate, hstore⟩ := @store_terminateAbsent self c depotId hstored ids w'
  rw [processMessage, exec_bind_ok h, exec_bind_ok hterminate, store_send, hstore]

theorem store_turn (hstored : self.stored = none) (i : ℕ) (reqData : Json) (w : World) :
    (exec (processRequest setting self c envelope i reqData) w).2.store = w.store := by
  rw [exec_processRequest_eq]
  rcases verdict setting self c envelope i reqData with _ | e | ⟨req, code, description⟩ | ⟨req, vehicleId, point⟩
  · rfl
  · rfl
  · rw [settle, exec_reject]
    split
    · rfl
    · rfl
  · rw [settle, persist, hstored]
    rfl

theorem store_processRequests (hstored : self.stored = none) (items : List Json) (n : ℕ) (w : World) :
    (exec (processRequests setting self c envelope n items) w).2.store = w.store := by
  induction items generalizing n w with
  | nil => rfl
  | cons item rest ih =>
    have hturn : (exec (processRequest setting self c envelope n item)
        { w with begun := w.begun ++ [item] }).2.store = w.store := store_turn hstored n item _
    rw [processRequests, exec_modify_bind, exec_bind]
    split
    · rename_i kept w₁ heq
      rw [heq] at hturn
      have hloop := ih (n + 1) w₁
      rw [exec_bind]
      split
      · rename_i ids w₂ heq'
        rw [heq'] at hloop
        exact hloop.trans hturn
      · rename_i e w₂ heq'
        rw [heq'] at hloop
        exact hloop.trans hturn
    · rename_i e w₁ heq
      rw [heq] at hturn
      exact hturn

theorem store_processMessage_unstored (hstored : self.stored = none) (items : List Json) (w : World) :
    (exec (processMessage setting self c envelope items) w).2.store = w.store := by
  have hloop : (exec (processRequests setting self c envelope 0 items) w).2.store = w.store :=
    store_processRequests hstored items 0 w
  rw [processMessage, exec_bind]
  split
  · rename_i ids w' heq
    rw [heq] at hloop
    rw [terminateAbsent, hstored, exec_bind_ok (exec_pure () w'), store_send]
    exact hloop
  · rename_i e w' heq
    rw [heq] at hloop
    exact hloop

theorem store_refuseDuplicate (crid : Json) (w : World) :
    (exec (refuseDuplicate setting self c envelope crid) w).2.store = w.store := by
  rw [refuseDuplicate, exec_bind, exec_send]
  split
  · rename_i heq
    split at heq
    · exact nomatch heq
    · cases heq
      rw [exec_logError]
  · rename_i heq
    split at heq
    · cases heq
      rfl
    · exact nomatch heq

end Statement

/-! ## One message -/

section Step

variable {setting} {w : World} {m : Message} {items : List Json}

theorem store_provide {depotId : PyStr} (h : Terminating setting m depotId items) :
    ∃ ids w', exec (processRequests setting m.handler m.circumstances m.envelope 0 items) w = (.ok ids, w') ∧
      (provide setting w m).store = terminateRequestsNotInList depotId m.handler.presystemId ids w'.store := by
  have hreturns : ∀ i item, items[i]? = some item →
      ∃ kept, turnResult setting m.handler m.circumstances m.envelope (0 + i) item = .ok kept := fun i item hi => by
    rw [Nat.zero_add]
    exact (turnReturns_iff h.stored).mp (h.returns i item hi)
  obtain ⟨ids, w', hloop⟩ := exec_processRequests_ok hreturns w
  refine ⟨ids, w', hloop, ?_⟩
  rw [provide, world_handleProvideChargingRequests h.list, h.unique]
  have hstore := store_processMessage_ok h.stored hloop
  rw [absentTerminated, if_neg (by simp [h.succeeds])] at hstore
  exact hstore

theorem mem_kept_iff {depotId : PyStr} (hstored : m.handler.stored = some depotId) {ids : List Json} {w' : World}
    (hloop : exec (processRequests setting m.handler m.circumstances m.envelope 0 items) w = (.ok ids, w'))
    (id : Json) : id ∈ ids ↔ IsWritten setting m depotId items id := by
  rw [(of_exec_processRequests hloop).2 id]
  simp only [Nat.zero_add, turnResult_eq_some hstored, IsWritten, exists_and_left]

theorem statusOf_provide {depotId : PyStr} (h : Terminating setting m depotId items) {key : RequestKey}
    (hterm : ¬ ∃ item ∈ items, Names item key.chargingRequestId ∧ SaysTerminate item)
    (hactive : statusOf w.store key = some .active) :
    statusOf (provide setting w m).store key = some .terminated ↔
      key.depotId = depotId ∧ key.presystemId = m.handler.presystemId ∧
        ¬ IsWritten setting m depotId items key.chargingRequestId := by
  obtain ⟨ids, w', hloop, hstore⟩ := store_provide (w := w) h
  have hkept : statusOf (exec (processRequests setting m.handler m.circumstances m.envelope 0 items) w).2.store key =
      some .active := active_processRequests h.stored hterm hactive
  rw [hloop] at hkept
  rw [hstore, statusOf_terminateRequestsNotInList, ← mem_kept_iff h.stored hloop]
  split
  · rename_i hcond
    exact iff_of_true rfl ⟨hcond.1, hcond.2.1, hcond.2.2.2⟩
  · rename_i hcond
    refine iff_of_false (by simp [hkept]) fun hown => hcond ⟨hown.1, hown.2.1, hkept, hown.2.2⟩

theorem terminating_of_terminated {key : RequestKey} (hlist : chargingRequestList m.envelope.payload = .ok items)
    (hterm : ¬ ∃ item ∈ items, Names item key.chargingRequestId ∧ SaysTerminate item)
    (hactive : statusOf w.store key = some .active)
    (hafter : statusOf (provide setting w m).store key = some .terminated) :
    ∃ depotId, Terminating setting m depotId items := by
  have hchanged : (provide setting w m).store ≠ w.store := by
    intro heq
    rw [heq, hactive] at hafter
    exact nomatch hafter
  rw [provide, world_handleProvideChargingRequests hlist] at hafter hchanged
  rcases hunique : duplicateRequestId [] items with e | crid
  · rw [hunique] at hchanged
    exact absurd rfl hchanged
  · cases crid with
    | some crid =>
      rw [hunique] at hchanged
      exact absurd (store_refuseDuplicate crid w) hchanged
    | none =>
      rw [hunique] at hafter hchanged
      cases hstored : m.handler.stored with
      | none => exact absurd (store_processMessage_unstored hstored items w) hchanged
      | some depotId =>
        have hkept : statusOf (exec (processRequests setting m.handler m.circumstances m.envelope 0 items)
            w).2.store key = some .active := active_processRequests hstored hterm hactive
        rcases hloop : exec (processRequests setting m.handler m.circumstances m.envelope 0 items) w with ⟨r, w'⟩
        rw [hloop] at hkept
        cases r with
        | error e =>
          rw [processMessage, exec_bind_error hloop, hkept] at hafter
          exact nomatch hafter
        | ok ids =>
          rw [store_processMessage_ok hstored hloop, absentTerminated] at hafter
          have hsucceeds : m.circumstances.fails .terminate = false := by
            by_contra hfails
            rw [if_pos (by simpa using hfails), hkept] at hafter
            exact nomatch hafter
          have hreturns := (of_exec_processRequests hloop).1
          simp only [Nat.zero_add] at hreturns
          exact ⟨depotId, hstored, hlist, hunique,
            fun i item hi => (turnReturns_iff hstored).mpr (hreturns i item hi), hsucceeds⟩

theorem terminatesOnlyAbsent_iff : TerminatesOnlyAbsent setting w m ↔ NamedIsWritten setting w m := by
  constructor
  · intro h depotId items hterminating item hitem id hnames hactive
    by_contra hnot
    obtain ⟨hterm, hwritten⟩ := not_or.mp hnot
    have hafter : statusOf (provide setting w m).store ⟨depotId, m.handler.presystemId, id⟩ = some .terminated :=
      (statusOf_provide hterminating hterm hactive).mpr ⟨rfl, rfl, hwritten⟩
    rcases h _ items hterminating.list hactive hafter with habsent | hsays
    · exact habsent item hitem hnames
    · exact hterm hsays
  · intro h key items hlist hactive hafter
    by_contra hnot
    obtain ⟨hpresent, hterm⟩ := not_or.mp hnot
    push Not at hpresent
    obtain ⟨item, hitem, hnames⟩ := hpresent
    obtain ⟨depotId, hterminating⟩ := terminating_of_terminated hlist hterm hactive hafter
    obtain ⟨hdepot, hpresystem, hwritten⟩ := (statusOf_provide hterminating hterm hactive).mp hafter
    obtain ⟨kd, kp, kid⟩ := key
    subst hdepot hpresystem
    rcases h _ items hterminating item hitem kid hnames hactive with hsays | hkept
    · exact hterm hsays
    · exact hwritten hkept

end Step

/-! ## Runs -/

/-- In a run of messages, every step terminates only what is absent if and only if every step writes what it names. -/
theorem along_terminatesOnlyAbsent_iff (w : World) (messages : List Message) :
    Along (provide setting) (TerminatesOnlyAbsent setting) w messages ↔
      Along (provide setting) (NamedIsWritten setting) w messages :=
  @along_iff_along World Message (provide setting) _ _ (fun _ => True) (fun _ _ _ => terminatesOnlyAbsent_iff)
    (fun _ _ _ _ => trivial) w messages trivial

/-! ## A lookup that fails once -/

/-- The vehicle of a request is looked up, stored, and at the next message the lookup fails. -/
theorem refused_is_terminated :
    ¬ ∀ (setting : Setting) (w : World) (messages : List Message),
      Along (provide setting) (TerminatesOnlyAbsent setting) w messages := by
  intro h
  let setting : Setting := {
    production := false
    defaultMode := .soft
    decodeDepth := 9000
    copyDepth := 490
    schemas := Dict.empty
    validate := fun _ _ => .ok ()
    str := strOfStr
    decodeErrorText := fun _ => []
    fromisoformat := fun _ => none }
  let handler : VDV463Handler := {
    presystemId := py "bms-1"
    depotId := some (py "depot-1")
    dbPool := true
    validationMode := .soft
    maxMessageSize := 1048576 }
  let found : Circumstances := {
    refusal := none
    vehicle := fun _ => some (py "vehicle-7")
    chargingPoint := fun _ => none
    fails := fun _ => false }
  let item : Json := .obj [(py "chargingRequestId", .str (py "r1")), (py "vehicleId", .str (py "bus_7")),
    (py "chargingRequestData", .obj [(py "minTargetSoc", .int 80), (py "maxTargetSoc", .int 100)])]
  let envelope : VDVMessageEnvelope := {
    messageType := .int 1
    source := .str (py "BMS")
    presystemId := .str (py "bms-1")
    timestamp := .str (py "2025-03-01T04:00:00Z")
    messageId := .str (py "m1")
    messageAction := .str (py "ProvideChargingRequests")
    payload := .obj [(py "chargingRequestList", .arr [item])] }
  let w : World := { store := Dict.empty, sent := [], chargingRequests := Dict.empty, begun := [] }
  have hsecond := (h setting w [⟨handler, found, envelope⟩,
    ⟨handler, { found with vehicle := fun _ => none }, envelope⟩]).2.1
  have hrow := hsecond ⟨py "depot-1", py "bms-1", .str (py "r1")⟩ [item] rfl (by decide +kernel) (by decide +kernel)
  rcases hrow with habsent | ⟨item', hitem', -, hterm⟩
  · exact habsent item List.mem_cons_self rfl
  · obtain rfl := List.mem_singleton.mp hitem'
    have hinstruction : item.get "chargingInstruction" (.str (py "Normal")) = .ok (.str (py "Normal")) := rfl
    rw [SaysTerminate, hinstruction] at hterm
    exact absurd (Except.ok.inj hterm) (by decide)

end FavoniusBackend.Vdv463
