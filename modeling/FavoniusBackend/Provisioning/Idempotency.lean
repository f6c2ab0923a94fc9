import FavoniusBackend.Lib.PyJson
import FavoniusBackend.Lib.Run
import FavoniusBackend.Lib.Tasks
import FavoniusBackend.Lib.Text

/-!
# Idempotent provisioning

`create_charger_onboarding` and `_depot_setup_endpoint` of `api/main.py` over the table
`charger_onboarding_idempotency` (`db/queries.py`): a request deletes the expired records, begins a
transaction, takes the lock of its key, looks for a record, and otherwise creates its charger or depot and
stores the record of it.

An expired record may outlive the deletion.  If it is of another body, the new record is not stored
(`record_is_not_stored`); and a record may be deleted or overwritten while a request waits for the lock
whose `NOW()` is older than the expiry.  Without these a key provisions once (`provisioning_idempotent`).
-/

namespace FavoniusBackend.Provisioning.Idempotency

open Lib Lib.Run Lib.PyJson Lib.Tasks

/-! ### What is created -/

/-- The row of a new charger, as far as the response reads it. -/
structure Charger where
  id : Json
  displayName : Json
  depotId : Json
  ocppId : Json

/-- The row of a new depot, likewise. -/
structure Depot where
  depotId : Json
  organizationId : Json
  name : Json
  timezone : Json
  currency : Json
  maxGridKw : Json

inductive Created where
  | charger (charger : Charger) (password : String)
  | depot (depot : Depot) (readiness : Json)

/-- The `charger` of both responses. -/
def chargerFields (charger : Charger) : Json :=
  .obj [(py "id", charger.id), (py "display_name", charger.displayName), (py "depot_id", charger.depotId),
    (py "ocpp_id", charger.ocppId)]

def formatChargerOnboardingFirstResponse (charger : Charger) (password : String) : Json :=
  .obj [(py "charger", chargerFields charger),
    (py "credentials", .obj [(py "username", charger.ocppId), (py "password", .str (py password)),
      (py "scheme", .str (py "basic")), (py "shown_once", .bool true)])]

def formatChargerOnboardingReplayResponse (charger : Charger) : Json :=
  .obj [(py "charger", chargerFields charger),
    (py "credentials", .obj [(py "username", charger.ocppId), (py "scheme", .str (py "basic")),
      (py "shown_once", .bool true)]),
    (py "replayed", .bool true),
    (py "detail", .str (py ("Credentials are returned exactly once. " ++
      "Use POST /admin/depots/\x7bdepot_id\x7d/chargers/\x7bcharger_id\x7d/rotate_credentials " ++
      "to obtain new credentials.")))]

def depotSetupResponsePayload (depot : Depot) (readiness : Json) : Json :=
  .obj [(py "depot", .obj [(py "id", depot.depotId), (py "depot_id", depot.depotId),
      (py "organization_id", depot.organizationId), (py "name", depot.name), (py "timezone", depot.timezone),
      (py "currency", depot.currency), (py "max_grid_kw", depot.maxGridKw)]),
    (py "readiness_checklist", readiness)]

def Created.firstResponse : Created → ℕ × Json
  | .charger row password => (201, formatChargerOnboardingFirstResponse row password)
  | .depot row readiness => (200, depotSetupResponsePayload row readiness)

/-- What is stored for the others. -/
def Created.replayResponse : Created → Json
  | .charger row _ => formatChargerOnboardingReplayResponse row
  | .depot row readiness => depotSetupResponsePayload row readiness

def NoPassword : Json → Prop
  | .obj fields => ∀ credentials, fields.lookup (py "credentials") = some (.obj credentials) →
      py "password" ∉ credentials.map Prod.fst
  | _ => True

theorem noPassword_replayResponse (created : Created) : NoPassword created.replayResponse := by
  cases created with
  | charger row password =>
    show ∀ credentials, _ → _
    intro credentials h
    obtain rfl := Json.obj.inj (Option.some.inj h)
    show py "password" ∉ [py "username", py "scheme", py "shown_once"]
    decide
  | depot row readiness =>
    show ∀ credentials, _ → _
    intro credentials h
    cases h

theorem firstResponse_shows_password (charger : Charger) (password : String) :
    ¬NoPassword (Created.charger charger password).firstResponse.2 := by
  intro h
  refine h _ rfl ?_
  show py "password" ∈ [py "username", py "password", py "scheme", py "shown_once"]
  decide

/-! ### The table -/

inductive Endpoint where
  | chargers (depotId : String)
  | depots
  deriving DecidableEq, Repr

def Endpoint.text : Endpoint → String
  | .chargers depotId => "POST /admin/depots/" ++ depotId ++ "/chargers"
  | .depots => "POST /admin/depots"

/-- What a record is unique for. -/
structure Slot where
  organizationId : String
  endpoint : String
  idempotencyKey : String
  deriving DecidableEq, Repr

/-- A row of `charger_onboarding_idempotency`.  Times are in microseconds. -/
structure Record where
  userId : String
  requestHash : String
  responseJson : Json
  statusCode : ℕ
  expiresAt : ℕ

/-- 30 minutes. -/
def ttl : ℕ := 1800000000

/-- A request that has deleted the expired records; `start` is the `NOW()` of its transaction, once that
has begun. -/
structure Request where
  organizationId : String
  userId : String
  endpoint : Endpoint
  idempotencyKey : String
  body : String
  start : Option ℕ
  deriving DecidableEq, Repr

def Request.slot (q : Request) : Slot := ⟨q.organizationId, q.endpoint.text, q.idempotencyKey⟩

/-- A request that has the lock and found no record. -/
structure Holder where
  userId : String
  body : String
  start : ℕ

/-- What was created, for which request, in a transaction that began at `start`. -/
structure Creation where
  slot : Slot
  body : String
  start : ℕ
  created : Created

/-- The database, the requests under way, and the record of what was created. -/
structure World where
  now : ℕ
  table : Slot → Option Record
  waiting : List Request
  holder : Slot → Option Holder
  creations : List Creation

/-- A table at some time, with nothing under way. -/
def World.start (now : ℕ) (table : Slot → Option Record) : World := ⟨now, table, [], fun _ => none, []⟩

/-- `delete_expired_charger_onboarding_idempotency`. -/
def World.deleteExpired (w : World) : World :=
  { w with table := fun slot => (w.table slot).filter fun record => decide (w.now < record.expiresAt) }

/-- `get_charger_onboarding_idempotency`, with `NOW()`. -/
def World.get (w : World) (slot : Slot) (now : ℕ) : Option Record :=
  (w.table slot).filter fun record => decide (now < record.expiresAt)

inductive Answer where
  | conflict (detail : Json)
  | replay (statusCode : ℕ) (content : Json)
  | proceed

/-- The request goes on to create. -/
def Answer.proceeds : Answer → Bool
  | .proceed => true
  | _ => false

/-- The detail of the 409. -/
def Endpoint.keyReused : Endpoint → Json
  | .chargers _ => .str (py ("Idempotency-Key was already used with a different " ++
      "request body (error_code=IDEMPOTENCY_KEY_REUSED)"))
  | .depots => .obj [(py "error_code", .str (py "IDEMPOTENCY_KEY_REUSED")),
      (py "message", .str (py "Idempotency-Key was already used with a different request body"))]

inductive Event where
  | tick (d : ℕ)
  /-- A valid request comes in and deletes the expired records. -/
  | arrive (q : Request)
  /-- Its transaction begins. -/
  | begin (i : ℕ)
  /-- It gets the lock, if that is free, and looks for a record. -/
  | enter (i : ℕ)
  /-- The holder of a lock creates something and commits, or is rolled back. -/
  | finish (slot : Slot) (outcome : Option Created)
  /-- A request is given up while it waits. -/
  | abort (i : ℕ)

section System

-- `_canonical_request_hash`, of the canonical text of a body.
variable (canonicalRequestHash : String → String)

/-- What the handler does after the lookup. -/
def World.answer (w : World) (q : Request) (start : ℕ) : Answer :=
  match w.get q.slot start with
  | none => .proceed
  | some existing =>
    if existing.requestHash ≠ canonicalRequestHash q.body then .conflict q.endpoint.keyReused
    else .replay (if existing.statusCode = 0 then 200 else existing.statusCode) existing.responseJson

/-- `store_charger_onboarding_idempotency`, on the record of the slot. -/
def storedRecord (holder : Holder) (created : Created) (old : Option Record) : Option Record :=
  let excluded : Record := {
    userId := holder.userId
    requestHash := canonicalRequestHash holder.body
    responseJson := created.replayResponse
    statusCode := 200
    expiresAt := holder.start + ttl }
  match old with
  | none => some excluded
  | some record =>
    if record.requestHash = excluded.requestHash then some { excluded with userId := record.userId }
    else some record

def World.step (w : World) : Event → World
  | .tick d => { w with now := w.now + d }
  | .arrive q =>
    if Text.strip q.idempotencyKey.toList = [] then w
    else { w.deleteExpired with waiting := w.waiting ++ [{ q with start := none }] }
  | .begin i =>
    match w.waiting[i]? with
    | some q => if q.start = none then { w with waiting := w.waiting.set i { q with start := some w.now } } else w
    | none => w
  | .enter i =>
    match w.waiting[i]? with
    | none => w
    | some q =>
      match q.start with
      | none => w
      | some start =>
        if (w.holder q.slot).isSome then w
        else
          match w.answer canonicalRequestHash q start with
          | .proceed => { w with
              waiting := w.waiting.eraseIdx i
              holder := Function.update w.holder q.slot (some ⟨q.userId, q.body, start⟩) }
          | _ => { w with waiting := w.waiting.eraseIdx i }
  | .finish slot outcome =>
    match w.holder slot with
    | none => w
    | some holder =>
      let released := Function.update w.holder slot none
      match outcome with
      | none => { w with holder := released }
      | some created => { w with
          holder := released
          table := Function.update w.table slot
            (storedRecord canonicalRequestHash holder created (w.table slot))
          creations := w.creations ++ [⟨slot, holder.body, holder.start, created⟩] }
  | .abort i => { w with waiting := w.waiting.eraseIdx i }

/-- **The promise.**  A request that gets its lock while a creation of its key is in force is answered with
the stored response, or refused if its body is another one. -/
def World.Provides (w : World) : Event → Prop
  | .enter i => ∀ q start, w.waiting[i]? = some q → q.start = some start → w.holder q.slot = none →
      ∀ c ∈ w.creations, c.slot = q.slot → start < c.start + ttl →
        w.answer canonicalRequestHash q start =
          if q.body = c.body then .replay 200 c.created.replayResponse else .conflict q.endpoint.keyReused
  | _ => True

def World.Unawaited (w : World) (slot : Slot) (record : Record) : Prop :=
  ∀ q ∈ w.waiting, q.slot = slot → ∀ start, q.start = some start → record.expiresAt ≤ start

/-- The condition on a step: the record of a creation is not deleted or overwritten while a request waits that
would still find it, and a new record meets no old one of another body. -/
def World.Calm (w : World) : Event → Prop
  | .arrive _ => ∀ c ∈ w.creations, ∀ record, w.table c.slot = some record → record.expiresAt ≤ w.now →
      w.Unawaited c.slot record
  | .finish slot (some _) => ∀ holder record, w.holder slot = some holder → w.table slot = some record →
      record.requestHash = canonicalRequestHash holder.body ∧
        ∀ c ∈ w.creations, c.slot = slot → w.Unawaited slot record
  | _ => True

/-! ### What holds along a calm run -/

def World.Recorded (w : World) (c : Creation) : Prop :=
  ∃ record, w.table c.slot = some record ∧ record.requestHash = canonicalRequestHash c.body ∧
    record.responseJson = c.created.replayResponse ∧ record.statusCode = 200 ∧ record.expiresAt = c.start + ttl

def World.Lapsed (w : World) (c : Creation) : Prop :=
  c.start + ttl ≤ w.now ∧ ∀ q ∈ w.waiting, q.slot = c.slot → ∀ start, q.start = some start → c.start + ttl ≤ start

structure World.Kept (w : World) : Prop where
  creations : ∀ c ∈ w.creations, w.Recorded canonicalRequestHash c ∨ w.Lapsed c
  begun : ∀ q ∈ w.waiting, ∀ start, q.start = some start → start ≤ w.now
  held : ∀ slot holder, w.holder slot = some holder →
    holder.start ≤ w.now ∧ ∀ record, w.table slot = some record → record.expiresAt ≤ holder.start

variable {canonicalRequestHash}

theorem World.Lapsed.mono {w w' : World} {c : Creation} (h : w.Lapsed c) (hnow : w.now ≤ w'.now)
    (hwaiting : ∀ q ∈ w'.waiting, q ∈ w.waiting) : w'.Lapsed c :=
  ⟨h.1.trans hnow, fun q hq => h.2 q (hwaiting q hq)⟩

theorem World.Kept.drop {w : World} (h : w.Kept canonicalRequestHash) (i : ℕ) :
    ({ w with waiting := w.waiting.eraseIdx i } : World).Kept canonicalRequestHash := by
  have hsub : ∀ q ∈ w.waiting.eraseIdx i, q ∈ w.waiting := fun q hq => List.mem_of_mem_eraseIdx hq
  refine ⟨fun c hc => ?_, fun q hq => h.begun q (hsub q hq), h.held⟩
  rcases h.creations c hc with hrecorded | hlapsed
  · exact .inl hrecorded
  · exact .inr (World.Lapsed.mono hlapsed le_rfl hsub)

theorem World.get_eq_none {w : World} {slot : Slot} {now : ℕ} (h : w.get slot now = none) {record : Record}
    (hrecord : w.table slot = some record) : record.expiresAt ≤ now := by
  unfold World.get at h
  rw [hrecord, Option.filter_eq_none_iff] at h
  simpa using h record rfl

theorem World.answer_proceed {w : World} {q : Request} {start : ℕ}
    (h : w.answer canonicalRequestHash q start = .proceed) : w.get q.slot start = none := by
  unfold World.answer at h
  cases hget : w.get q.slot start with
  | none => rfl
  | some existing =>
    rw [hget] at h
    dsimp only at h
    split at h
    · cases h
    · cases h

theorem storedRecord_spec (created : Created) {holder : Holder} {old : Option Record}
    (hold : ∀ record, old = some record → record.requestHash = canonicalRequestHash holder.body) :
    ∃ record, storedRecord canonicalRequestHash holder created old = some record ∧
      record.requestHash = canonicalRequestHash holder.body ∧ record.responseJson = created.replayResponse ∧
      record.statusCode = 200 ∧ record.expiresAt = holder.start + ttl := by
  cases old with
  | none => exact ⟨_, rfl, rfl, rfl, rfl, rfl⟩
  | some record =>
    unfold storedRecord
    dsimp only
    rw [if_pos (hold record rfl)]
    exact ⟨_, rfl, rfl, rfl, rfl, rfl⟩

/-! ### One step -/

theorem kept_arrive {w : World} (h : w.Kept canonicalRequestHash) {q : Request}
    (hcalm : w.Calm canonicalRequestHash (.arrive q)) :
    ({ w.deleteExpired with waiting := w.waiting ++ [{ q with start := none }] } :
      World).Kept canonicalRequestHash := by
  have hwaiting {q' : Request} {start : ℕ} (hq' : q' ∈ w.waiting ++ [{ q with start := none }])
      (hstart : q'.start = some start) : q' ∈ w.waiting := by
    rcases List.mem_append.mp hq' with hold | hnew
    · exact hold
    · rw [List.mem_singleton.mp hnew] at hstart
      cases hstart
  refine ⟨fun c hc => ?_, fun q' hq' start hstart => h.begun q' (hwaiting hq' hstart) start hstart, ?_⟩
  · rcases h.creations c hc with ⟨record, hrecord, hhash, hresponse, hstatus, hexpires⟩ | hlapsed
    · by_cases hexpired : record.expiresAt ≤ w.now
      · refine .inr ⟨hexpires ▸ hexpired, fun q' hq' hslot start hstart => ?_⟩
        rw [← hexpires]
        exact hcalm c hc record hrecord hexpired q' (hwaiting hq' hstart) hslot start hstart
      · refine .inl ⟨record, ?_, hhash, hresponse, hstatus, hexpires⟩
        show (w.table c.slot).filter _ = some record
        rw [hrecord, Option.filter_some, if_pos (decide_eq_true (Nat.not_le.mp hexpired))]
    · exact .inr ⟨hlapsed.1, fun q' hq' hslot start hstart => hlapsed.2 q' (hwaiting hq' hstart) hslot start hstart⟩
  · intro slot holder hholder
    obtain ⟨hstart, hrecords⟩ := h.held slot holder hholder
    exact ⟨hstart, fun record hrecord => hrecords record (Option.filter_eq_some_iff.mp hrecord).1⟩

theorem kept_begin {w : World} (h : w.Kept canonicalRequestHash) (i : ℕ) (q : Request) :
    ({ w with waiting := w.waiting.set i { q with start := some w.now } } : World).Kept canonicalRequestHash := by
  refine ⟨fun c hc => ?_, ?_, h.held⟩
  · rcases h.creations c hc with hrecorded | hlapsed
    · exact .inl hrecorded
    · refine .inr ⟨hlapsed.1, forall_set hlapsed.2 ?_⟩
      intro _ start hstart
      rw [← Option.some.inj hstart]
      exact hlapsed.1
  · refine forall_set h.begun ?_
    intro start hstart
    exact (Option.some.inj hstart).ge

theorem kept_enter {w : World} (h : w.Kept canonicalRequestHash) {i : ℕ} {q : Request} {start : ℕ}
    (hq : w.waiting[i]? = some q) (hstart : q.start = some start)
    (hproceed : w.answer canonicalRequestHash q start = .proceed) :
    ({ w with
      waiting := w.waiting.eraseIdx i
      holder := Function.update w.holder q.slot (some ⟨q.userId, q.body, start⟩) } :
        World).Kept canonicalRequestHash := by
  have hdrop := h.drop i
  refine ⟨hdrop.creations, hdrop.begun, fun slot holder hholder => ?_⟩
  by_cases hslot : slot = q.slot
  · subst hslot
    have heq : Function.update w.holder q.slot (some ⟨q.userId, q.body, start⟩) q.slot = some holder := hholder
    rw [Function.update_self] at heq
    obtain rfl := Option.some.inj heq
    refine ⟨h.begun q (List.mem_of_getElem? hq) start hstart, fun record hrecord => ?_⟩
    exact World.get_eq_none (World.answer_proceed hproceed) hrecord
  · refine h.held slot holder ?_
    rw [← hholder]
    exact (Function.update_of_ne hslot ..).symm

theorem kept_release {w : World} (h : w.Kept canonicalRequestHash) (slot : Slot) :
    ({ w with holder := Function.update w.holder slot none } : World).Kept canonicalRequestHash := by
  refine ⟨h.creations, h.begun, fun slot' holder hholder => ?_⟩
  by_cases hslot : slot' = slot
  · subst hslot
    have heq : Function.update w.holder slot' none slot' = some holder := hholder
    rw [Function.update_self] at heq
    cases heq
  · refine h.held slot' holder ?_
    rw [← hholder]
    exact (Function.update_of_ne hslot ..).symm

theorem kept_finish {w : World} (h : w.Kept canonicalRequestHash) {slot : Slot} {created : Created} {holder : Holder}
    (hholder : w.holder slot = some holder) (hcalm : w.Calm canonicalRequestHash (.finish slot (some created))) :
    ({ w with
      holder := Function.update w.holder slot none
      table := Function.update w.table slot (storedRecord canonicalRequestHash holder created (w.table slot))
      creations := w.creations ++ [⟨slot, holder.body, holder.start, created⟩] } :
        World).Kept canonicalRequestHash := by
  obtain ⟨hstart, hrecords⟩ := h.held slot holder hholder
  have hrelease := kept_release h slot
  refine ⟨?_, h.begun, fun slot' holder' hholder' => ?_⟩
  · refine forall_concat (fun c hc => ?_) ?_
    · rcases h.creations c hc with ⟨record, hrecord, hhash, hresponse, hstatus, hexpires⟩ | hlapsed
      · by_cases hslot : c.slot = slot
        · -- its record is overwritten, and nobody can miss it
          rw [hslot] at hrecord
          refine .inr ⟨?_, fun q hq hqslot start hqstart => ?_⟩
          · rw [← hexpires]
            exact (hrecords record hrecord).trans hstart
          · rw [← hexpires]
            exact (hcalm holder record hholder hrecord).2 c hc hslot q hq (hqslot.trans hslot) start hqstart
        · refine .inl ⟨record, ?_, hhash, hresponse, hstatus, hexpires⟩
          rw [← hrecord]
          exact Function.update_of_ne hslot ..
      · exact .inr hlapsed
    · obtain ⟨record, hrecord, hfields⟩ := storedRecord_spec created
        fun record hrecord => (hcalm holder record hholder hrecord).1
      refine .inl ⟨record, ?_, hfields⟩
      rw [← hrecord]
      exact Function.update_self ..
  · by_cases hslot : slot' = slot
    · subst hslot
      have heq : Function.update w.holder slot' none slot' = some holder' := hholder'
      rw [Function.update_self] at heq
      cases heq
    · obtain ⟨hstart', hrecords'⟩ := hrelease.held slot' holder' hholder'
      refine ⟨hstart', fun record hrecord => hrecords' record ?_⟩
      rw [← hrecord]
      exact (Function.update_of_ne hslot ..).symm

theorem kept_step {w : World} {e : Event} (hcalm : w.Calm canonicalRequestHash e)
    (h : w.Kept canonicalRequestHash) : (w.step canonicalRequestHash e).Kept canonicalRequestHash := by
  cases e with
  | tick d =>
    refine ⟨fun c hc => ?_, fun q hq start hstart => ?_, fun slot holder hholder => ?_⟩
    · rcases h.creations c hc with hrecorded | hlapsed
      · exact .inl hrecorded
      · exact .inr (World.Lapsed.mono hlapsed (Nat.le_add_right w.now d) fun q hq => hq)
    · exact (h.begun q hq start hstart).trans (Nat.le_add_right w.now d)
    · obtain ⟨hstart, hrecords⟩ := h.held slot holder hholder
      exact ⟨hstart.trans (Nat.le_add_right w.now d), hrecords⟩
  | arrive q =>
    unfold World.step
    dsimp only
    split
    · exact h
    · exact kept_arrive h hcalm
  | begin i =>
    unfold World.step
    dsimp only
    split
    · rename_i q hq
      split
      · exact kept_begin h i q
      · exact h
    · exact h
  | enter i =>
    unfold World.step
    dsimp only
    split
    · exact h
    · rename_i q hq
      split
      · exact h
      · rename_i start hstart
        split
        · exact h
        · split
          · rename_i hproceed
            exact kept_enter h hq hstart hproceed
          · exact h.drop i
  | finish slot outcome =>
    unfold World.step
    dsimp only
    split
    · exact h
    · rename_i holder hholder
      cases outcome with
      | none => exact kept_release h slot
      | some created => exact kept_finish h hholder hcalm
  | abort i => exact h.drop i

theorem provides_of_kept (hhash : Function.Injective canonicalRequestHash) {w : World}
    (h : w.Kept canonicalRequestHash) (e : Event) : w.Provides canonicalRequestHash e := by
  cases e with
  | enter i =>
    intro q start hq hstart _ c hc hslot hforce
    rcases h.creations c hc with ⟨record, hrecord, hrequest, hresponse, hstatus, hexpires⟩ | hlapsed
    · have hget : w.get q.slot start = some record := by
        unfold World.get
        rw [← hslot, hrecord, Option.filter_some, if_pos (decide_eq_true (hexpires ▸ hforce))]
      unfold World.answer
      rw [hget]
      dsimp only
      rw [hrequest, hresponse, hstatus]
      by_cases hbody : q.body = c.body
      · rw [if_pos hbody, hbody, if_neg (not_not_intro rfl)]
        rfl
      · rw [if_neg hbody, if_pos fun heq => hbody (hhash heq).symm]
    · exact absurd (hlapsed.2 q (List.mem_of_getElem? hq) hslot.symm start hstart) (Nat.not_le.mpr hforce)
  | tick _ | arrive _ | begin _ | finish _ _ | abort _ => trivial

end System

/-- **A key provisions once.**  For every interleaving of requests, from any table and where the hash tells
bodies apart: along a calm run, a request that gets its lock after a creation under its key was committed, and
whose transaction began less than 30 minutes after that creation's, is answered with the stored response, in
which there is no password, or refused with 409 if its body is another one. -/
theorem provisioning_idempotent (canonicalRequestHash : String → String)
    (hhash : Function.Injective canonicalRequestHash) (now : ℕ) (table : Slot → Option Record) (events : List Event)
    (hcalm : Along (World.step canonicalRequestHash) (World.Calm canonicalRequestHash) (.start now table) events) :
    Along (World.step canonicalRequestHash) (World.Provides canonicalRequestHash) (.start now table) events ∧
      ∀ created : Created, NoPassword created.replayResponse := by
  refine ⟨?_, noPassword_replayResponse⟩
  have hstart : (World.start now table).Kept canonicalRequestHash := by
    refine ⟨fun _ h => absurd h List.not_mem_nil, fun _ h => absurd h List.not_mem_nil, fun _ _ h => ?_⟩
    cases h
  have hstep (w : World) (e : Event) (hcalm : w.Calm canonicalRequestHash e) (h : w.Kept canonicalRequestHash) :
      w.Provides canonicalRequestHash e ∧ (w.step canonicalRequestHash e).Kept canonicalRequestHash :=
    ⟨provides_of_kept hhash h e, kept_step hcalm h⟩
  exact Along.imp hstep hstart hcalm

/-! ### One client -/

def forCharger : Request := ⟨"org", "user", .chargers "depot", "key", "body", none⟩

def newCharger : Created := .charger ⟨.str (py "id"), .null, .str (py "depot"), .str (py "ocpp")⟩ "secret"

/-- A request from its arrival to its lookup, when no other one waits. -/
def lookedUp : List Event := [.arrive forCharger, .begin 0, .enter 0]

def sentTwice : List Event := lookedUp ++ .finish forCharger.slot (some newCharger) :: lookedUp

theorem calm_arrive {hash : String → String} {w : World} (h : w.waiting = []) (q : Request) :
    w.Calm hash (.arrive q) := by
  intro c _ record _ _ q' hq'
  rw [h] at hq'
  cases hq'

/-- The second one is answered from the record. -/
theorem sent_twice_provides :
    Along (World.step id) (World.Provides id) (.start 0 fun _ => none) sentTwice ∧
      ∀ created : Created, NoPassword created.replayResponse := by
  refine provisioning_idempotent id Function.injective_id 0 (fun _ => none) sentTwice ?_
  have hfree : ((run (World.step id) (.start 0 fun _ => none) lookedUp).table forCharger.slot).isNone = true := by
    decide +kernel
  refine ⟨calm_arrive rfl _, trivial, trivial, ?_, calm_arrive (by decide +kernel) _, trivial, trivial, trivial⟩
  intro holder record _ hrecord
  rw [Option.isNone_iff_eq_none] at hfree
  cases hfree.symm.trans hrecord

/-- A table with a record of another body under the key, that expires after a millisecond. -/
def otherBody : World := .start 0 fun slot =>
  if slot = forCharger.slot then some ⟨"user", "other", .null, 200, 1000⟩ else none

/-- The record expires between the deletion and the transaction of the first request. -/
def expiresMeanwhile : List Event :=
  [.tick 999, .arrive forCharger, .tick 1, .begin 0, .enter 0, .finish forCharger.slot (some newCharger),
    .arrive forCharger, .begin 0]

/-- **Its own record is not stored**, and the same request a moment later creates a second charger. -/
theorem record_is_not_stored :
    (run (World.step id) otherBody (expiresMeanwhile ++
        [.enter 0, .finish forCharger.slot (some newCharger)])).creations.map (fun c => (c.slot, c.body, c.start)) =
      [(forCharger.slot, "body", 1000), (forCharger.slot, "body", 1000)] ∧
    ¬Along (World.step id) (World.Provides id) otherBody (expiresMeanwhile ++ [.enter 0]) := by
  refine ⟨by decide +kernel, fun h => ?_⟩
  have hwaiting : (run (World.step id) otherBody expiresMeanwhile).waiting[0]? =
      some { forCharger with start := some 1000 } := by decide +kernel
  have hheld : ((run (World.step id) otherBody expiresMeanwhile).holder forCharger.slot).isNone = true := by
    decide +kernel
  have hcreated : (forCharger.slot, 1000) ∈
      (run (World.step id) otherBody expiresMeanwhile).creations.map (fun c => (c.slot, c.start)) := by
    decide +kernel
  have hproceed : ((run (World.step id) otherBody expiresMeanwhile).answer id
      { forCharger with start := some 1000 } 1000).proceeds = true := by decide +kernel
  obtain ⟨c, hc, heq⟩ := List.mem_map.mp hcreated
  obtain ⟨hslot, hstart⟩ := Prod.mk.inj heq
  have hanswer := h.last { forCharger with start := some 1000 } 1000 hwaiting rfl (Option.isNone_iff_eq_none.mp hheld)
    c hc hslot (by rw [hstart]; decide)
  rw [hanswer] at hproceed
  split at hproceed
  · cases hproceed
  · cases hproceed

-- A request that waits for the lock past the expiry of the record, which another one deletes meanwhile.
example : (run (World.step id) (.start 0 fun _ => none) (lookedUp ++ [.finish forCharger.slot (some newCharger),
    .tick (ttl - 1), .arrive forCharger, .begin 0, .tick 1, .arrive { forCharger with idempotencyKey := "other" },
    .enter 0, .finish forCharger.slot (some newCharger)])).creations.map (fun c => (c.slot, c.body, c.start)) =
    [(forCharger.slot, "body", 0), (forCharger.slot, "body", ttl - 1)] := by decide +kernel

end FavoniusBackend.Provisioning.Idempotency
