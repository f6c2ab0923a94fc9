import FavoniusBackend.Lib.Run
import FavoniusBackend.Lib.Tasks
import Mathlib.Data.List.Nodup
import Mathlib.Data.List.Pairwise

/-!
# The ledger of report deliveries

`_deliver_to_recipients` of `api/report_schedules.py` writes a row for each report that it sent, after the
provider accepted it; `append_delivery_status_from_webhook` adds a row for each callback of the provider,
unless it would put a success behind a failure.  What is shown of a recipient is the last row.

The handler reads the last row of its message and inserts its own in two statements, and a callback may
come before the row of the send.  The handler's check keeps a failure visible where none of this overlaps and no
success of an older message comes late (`failure_stays_of_clear`).
-/

namespace FavoniusBackend.Reports.DeliveryLedger

open Lib.Run Lib.Tasks

/-! ### The ledger -/

inductive Status where
  | sent
  | failed
  | bounced
  | suppressed
  deriving DecidableEq, Repr

inductive Format where
  | pdf
  | csv
  deriving DecidableEq, Repr

def mapProviderStatusToWire (providerStatus : String) : Status :=
  match [("sent", Status.sent), ("delivered", .sent), ("bounced", .bounced), ("complained", .suppressed),
    ("suppressed", .suppressed), ("failed", .failed)].lookup providerStatus with
  | some status => status
  | none => .failed

/-- A row of `schedule_run_deliveries`. -/
structure Delivery where
  runId : String
  recipientId : Option String
  emailAddress : String
  format : Format
  status : Status
  providerMessageId : Option String
  error : Option String
  deriving DecidableEq, Repr

/-- The rows in the order of `attempted_at`, which is that of their insertion. -/
abbrev Ledger := List Delivery

/-- `ORDER BY attempted_at DESC LIMIT 1`. -/
def latest (p : Delivery → Bool) (ledger : Ledger) : Option Delivery := (ledger.filter p).getLast?

theorem latest_append (p : Delivery → Bool) (ledger : Ledger) (row : Delivery) :
    latest p (ledger ++ [row]) = if p row = true then some row else latest p ledger := by
  unfold latest
  rw [List.filter_append]
  by_cases h : p row = true
  · rw [if_pos h, List.filter_cons_of_pos h, List.filter_nil, List.getLast?_concat]
  · rw [if_neg h, List.filter_cons_of_neg h, List.filter_nil, List.append_nil]

theorem mem_of_latest {p : Delivery → Bool} {ledger : Ledger} {row : Delivery} (h : latest p ledger = some row) :
    row ∈ ledger ∧ p row = true := List.mem_filter.mp (List.mem_of_getLast? h)

/-- `provider_message_id = $1`. -/
def ofMessage (messageId : String) (row : Delivery) : Bool := row.providerMessageId = some messageId

theorem ofMessage_iff {messageId : String} {row : Delivery} :
    ofMessage messageId row = true ↔ row.providerMessageId = some messageId := decide_eq_true_iff

/-- Whom a report goes to. -/
structure Addressee where
  scheduleId : String
  emailAddress : String
  format : Format
  deriving DecidableEq, Repr

section Ledger

-- `schedule_runs.schedule_id`.
variable (scheduleOf : String → String)

def Delivery.addressee (row : Delivery) : Addressee := ⟨scheduleOf row.runId, row.emailAddress, row.format⟩

def ofAddressee (addressee : Addressee) (row : Delivery) : Bool := row.addressee scheduleOf = addressee

theorem ofAddressee_iff {addressee : Addressee} {row : Delivery} :
    ofAddressee scheduleOf addressee row = true ↔ row.addressee scheduleOf = addressee := decide_eq_true_iff

/-- What `_last_deliveries_by_schedule` returns for an addressee. -/
def lastDelivery (ledger : Ledger) (addressee : Addressee) : Option Status :=
  (latest (ofAddressee scheduleOf addressee) ledger).map Delivery.status

end Ledger

/-! ### Senders and callbacks -/

structure Recipient where
  id : String
  emailAddress : String
  format : Format
  deriving DecidableEq, Repr

/-- What became of rendering and sending one report. -/
inductive Outcome where
  | accepted (providerMessageId : Option String)
  | failed (error : String)
  deriving DecidableEq, Repr

/-- A `_deliver_to_recipients` that is under way: the recipients it has left, and the row of the last
report where it is not written yet. -/
structure Sender where
  runId : String
  recipientRows : List Recipient
  row : Option Delivery
  allSent : Bool
  deriving DecidableEq, Repr

/-- The database, what is under way in the processes, and two records of what happened: the accepted messages
in their order, with their ids and addressees, and the messages with a negative callback that was handled. -/
structure World where
  ledger : Ledger
  senders : List Sender
  webhooks : List Delivery
  accepted : List (Option String × Addressee)
  refuted : List String

def World.start : World := ⟨[], [], [], [], []⟩

def Outcome.row (outcome : Outcome) (runId : String) (rec : Recipient) : Delivery where
  runId := runId
  recipientId := some rec.id
  emailAddress := rec.emailAddress
  format := rec.format
  status := match outcome with
    | .accepted _ => .sent
    | .failed _ => .failed
  providerMessageId := match outcome with
    | .accepted providerMessageId => providerMessageId
    | .failed _ => none
  error := match outcome with
    | .accepted _ => none
    | .failed error => some error

inductive Event where
  /-- `_deliver_to_recipients` starts and reads who has the report already. -/
  | deliver (runId : String) (recipientRows : List Recipient)
  /-- A sender gets the answer for its next recipient. -/
  | send (i : ℕ) (outcome : Outcome)
  /-- It writes the row. -/
  | record (i : ℕ)
  /-- A callback arrives and its handler reads the last row. -/
  | callback (messageId providerStatus : String) (detail : Option String)
  /-- A handler writes its row. -/
  | append (i : ℕ)
  | stopSender (i : ℕ)
  | stopWebhook (i : ℕ)

def alreadySent (ledger : Ledger) (runId : String) : List String :=
  (ledger.filter fun row => row.runId = runId ∧ row.status = .sent).filterMap Delivery.recipientId

def World.fresh (w : World) (messageId : Option String) : Prop :=
  messageId = none ∨ messageId ∉ w.accepted.map Prod.fst

instance (w : World) (messageId : Option String) : Decidable (w.fresh messageId) :=
  inferInstanceAs (Decidable (messageId = none ∨ messageId ∉ w.accepted.map Prod.fst))

section System

variable (scheduleOf : String → String)

def World.insert (w : World) (row : Delivery) : World := { w with ledger := w.ledger ++ [row] }

def World.refute (w : World) (messageId : Option String) (status : Status) : World :=
  if status = .sent then w else { w with refuted := messageId.toList ++ w.refuted }

/-- The record of an answer. -/
def World.accept (w : World) (row : Delivery) : World :=
  if row.status = .sent then { w with accepted := w.accepted ++ [(row.providerMessageId, row.addressee scheduleOf)] }
  else w

def World.step (w : World) : Event → World
  | .deliver runId recipientRows =>
    let sender : Sender := {
      runId := runId
      recipientRows := recipientRows.filter fun rec => rec.id ∉ alreadySent w.ledger runId
      row := none
      allSent := true }
    { w with senders := w.senders ++ [sender] }
  | .send i outcome =>
    match w.senders[i]? with
    | some ⟨runId, rec :: rest, none, allSent⟩ =>
      let row := outcome.row runId rec
      if w.fresh row.providerMessageId then
        let sender : Sender := ⟨runId, rest, some row, allSent && row.status = .sent⟩
        { w.accept scheduleOf row with senders := w.senders.set i sender }
      else w
    | _ => w
  | .record i =>
    match w.senders[i]? with
    | some ⟨runId, rest, some row, allSent⟩ =>
      { w.insert row with senders := w.senders.set i ⟨runId, rest, none, allSent⟩ }
    | _ => w
  | .callback messageId providerStatus detail =>
    let mapped := mapProviderStatusToWire providerStatus
    match latest (ofMessage messageId) w.ledger with
    | none => w.refute (some messageId) mapped
    | some row =>
      if row.status ∈ [.bounced, .suppressed, .failed] ∧ mapped = .sent then w
      else { w with webhooks := w.webhooks ++ [{ row with
        status := mapped, providerMessageId := some messageId, error := detail }] }
  | .append i =>
    match w.webhooks[i]? with
    | none => w
    | some row => { (w.insert row).refute row.providerMessageId row.status with webhooks := w.webhooks.eraseIdx i }
  | .stopSender i => { w with senders := w.senders.eraseIdx i }
  | .stopWebhook i => { w with webhooks := w.webhooks.eraseIdx i }

def World.newest (w : World) (addressee : Addressee) : Option String :=
  ((w.accepted.filter fun m => m.2 = addressee).getLast?).bind Prod.fst

def World.ShowsFailure (w : World) (addressee : Addressee) : Prop :=
  ∃ status, lastDelivery scheduleOf w.ledger addressee = some status ∧ status ≠ .sent

/-- **The promise.**  The last row of a message with a handled negative callback is no success, and its
addressee is shown a failure until a newer message is accepted. -/
structure World.FailureStays (w : World) : Prop where
  message : ∀ m ∈ w.refuted, ∀ row, latest (ofMessage m) w.ledger = some row → row.status ≠ .sent
  addressee : ∀ a m, w.newest a = some m → m ∈ w.refuted → w.ShowsFailure scheduleOf a

/-! ### The condition -/

/-- A success is written before a failure of a newer message to its addressee is handled. -/
def World.UpToDate (w : World) (row : Delivery) : Prop :=
  row.status = .sent → ∀ m ∈ w.newest (row.addressee scheduleOf), row.providerMessageId ≠ some m → m ∉ w.refuted

instance (w : World) (row : Delivery) : Decidable (w.UpToDate scheduleOf row) :=
  inferInstanceAs (Decidable (row.status = .sent →
    ∀ m ∈ w.newest (row.addressee scheduleOf), row.providerMessageId ≠ some m → m ∉ w.refuted))

/-- The condition on a step: a negative callback of a message is not handled before the row of its send is
written, its row is not written while a positive one of the same message is between its check and its row, and no
success of an older message comes after it. -/
def World.Clear (w : World) : Event → Bool
  | .send _ (.accepted (some m)) => decide (m ∉ w.refuted)
  | .record i => decide (∀ sender ∈ w.senders[i]?, ∀ row ∈ sender.row, w.UpToDate scheduleOf row)
  | .callback messageId providerStatus _ =>
    decide (mapProviderStatusToWire providerStatus ≠ .sent → some messageId ∈ w.accepted.map Prod.fst →
      latest (ofMessage messageId) w.ledger ≠ none)
  | .append i =>
    decide (∀ row ∈ w.webhooks[i]?, w.UpToDate scheduleOf row ∧
      (row.status ≠ .sent → ∀ other ∈ w.webhooks, other.status = .sent →
        other.providerMessageId ≠ row.providerMessageId))
  | _ => true

/-! ### What holds in every world -/

def World.Known (w : World) (row : Delivery) : Prop :=
  ∀ m, row.providerMessageId = some m → (some m, row.addressee scheduleOf) ∈ w.accepted

def Sender.unwritten (sender : Sender) : Option String := sender.row.bind Delivery.providerMessageId

/-- The messages whose rows are not written yet. -/
def World.unwritten (w : World) : List String := w.senders.filterMap Sender.unwritten

/-- Messages have different ids, each has one send with one row, and callbacks are about messages with a row. -/
structure World.Recorded (w : World) : Prop where
  ledger : ∀ row ∈ w.ledger, w.Known scheduleOf row
  senders : ∀ sender ∈ w.senders, ∀ row, sender.row = some row → w.Known scheduleOf row
  webhooks : ∀ row ∈ w.webhooks, w.Known scheduleOf row
  distinct : w.accepted.Pairwise fun entry entry' => ∀ m, entry.1 = some m → entry'.1 ≠ some m
  nodup : w.unwritten.Nodup
  apart : ∀ row ∈ w.ledger, ∀ m, row.providerMessageId = some m → m ∉ w.unwritten
  answered : ∀ row ∈ w.webhooks, ∀ m, row.providerMessageId = some m →
    ∃ row' ∈ w.ledger, row'.providerMessageId = some m

/-- A failure stays visible, the row of its send is written, and no success of its message is under way. -/
structure World.Guarded (w : World) : Prop where
  stays : w.FailureStays scheduleOf
  written : ∀ m ∈ w.refuted, m ∉ w.unwritten
  webhooks : ∀ row ∈ w.webhooks, row.status = .sent → ∀ m, row.providerMessageId = some m → m ∉ w.refuted

variable {scheduleOf}

theorem World.Recorded.addressee_unique {w : World} (h : w.Recorded scheduleOf) {m : String} {a a' : Addressee}
    (ha : (some m, a) ∈ w.accepted) (ha' : (some m, a') ∈ w.accepted) : a = a' := by
  have hsymm : Std.Symm fun entry entry' : Option String × Addressee => ∀ m, entry.1 = some m → entry'.1 ≠ some m :=
    ⟨fun _ _ hne m h' h => hne m h h'⟩
  by_contra hne
  exact h.distinct.forall ha ha' (fun heq => hne (Prod.mk.inj heq).2) m rfl rfl

theorem World.newest_mem {w : World} {a : Addressee} {m : String} (h : w.newest a = some m) :
    (some m, a) ∈ w.accepted := by
  obtain ⟨⟨id, a'⟩, hlast, rfl⟩ := Option.bind_eq_some_iff.mp h
  obtain ⟨hmem, ha⟩ := List.mem_filter.mp (List.mem_of_getLast? hlast)
  rw [← of_decide_eq_true ha]
  exact hmem

theorem World.Recorded.accepted_of_unwritten {w : World} (h : w.Recorded scheduleOf) {m : String}
    (hm : m ∈ w.unwritten) : some m ∈ w.accepted.map Prod.fst := by
  obtain ⟨sender, hsender, hid⟩ := List.mem_filterMap.mp hm
  obtain ⟨row, hrow, hid⟩ := Option.bind_eq_some_iff.mp hid
  exact List.mem_map.mpr ⟨_, h.senders sender hsender row hrow m hid, rfl⟩

theorem lastDelivery_append (ledger : Ledger) (row : Delivery) (a : Addressee) :
    lastDelivery scheduleOf (ledger ++ [row]) a =
      if row.addressee scheduleOf = a then some row.status else lastDelivery scheduleOf ledger a := by
  unfold lastDelivery
  rw [latest_append]
  by_cases h : row.addressee scheduleOf = a
  · rw [if_pos h, if_pos ((ofAddressee_iff scheduleOf).mpr h), Option.map_some]
  · rw [if_neg h, if_neg (mt (ofAddressee_iff scheduleOf).mp h)]

theorem known_callback {w : World} (hr : w.Recorded scheduleOf) {m : String} {row : Delivery}
    (hlast : latest (ofMessage m) w.ledger = some row) (status : Status) (error : Option String) :
    w.Known scheduleOf { row with status := status, providerMessageId := some m, error := error } := by
  obtain ⟨hmem, hof⟩ := mem_of_latest hlast
  intro m' hm'
  obtain rfl := Option.some.inj hm'
  exact hr.ledger row hmem m (ofMessage_iff.mp hof)

/-- The negative callback that is handled changes the record alone. -/
theorem World.refute_eq (w : World) (m : Option String) (status : Status) :
    ∃ refuted, w.refute m status = { w with refuted := refuted } ∧
      ∀ m', m' ∈ refuted ↔ m' ∈ w.refuted ∨ status ≠ .sent ∧ m = some m' := by
  unfold World.refute
  split
  · rename_i hsent
    exact ⟨w.refuted, rfl, fun m' => ⟨.inl, fun h => h.resolve_right fun h => h.1 hsent⟩⟩
  · rename_i hfailure
    refine ⟨m.toList ++ w.refuted, rfl, fun m' => ?_⟩
    rw [List.mem_append, Option.mem_toList, or_comm]
    exact or_congr_right (and_iff_right hfailure).symm

section Sending

variable {w : World} {i : ℕ} {sender next : Sender}

theorem unwritten_set (h : w.senders[i]? = some sender) (next : Sender) :
    ((w.senders.set i next).filterMap Sender.unwritten).Perm
      (next.unwritten.toList ++ (w.senders.eraseIdx i).filterMap Sender.unwritten) := by
  refine ((set_perm_cons_eraseIdx h next).filterMap Sender.unwritten).trans ?_
  rw [List.filterMap_cons]
  cases next.unwritten with
  | none => exact .refl _
  | some m => exact .refl _

theorem unwritten_perm (h : w.senders[i]? = some sender) :
    w.unwritten.Perm (sender.unwritten.toList ++ (w.senders.eraseIdx i).filterMap Sender.unwritten) := by
  refine ((perm_cons_eraseIdx h).filterMap Sender.unwritten).trans ?_
  rw [List.filterMap_cons]
  cases sender.unwritten with
  | none => exact .refl _
  | some m => exact .refl _

theorem recorded_send (hr : w.Recorded scheduleOf) (i : ℕ) (outcome : Outcome) :
    (w.step scheduleOf (.send i outcome)).Recorded scheduleOf := by
  unfold World.step
  dsimp only
  split
  · rename_i runId rec rest allSent hsender
    split
    · rename_i hfresh
      have hold := unwritten_perm hsender
      have hnew := unwritten_set hsender ⟨runId, rest, some (outcome.row runId rec),
        allSent && decide ((outcome.row runId rec).status = .sent)⟩
      cases outcome with
      | failed error =>
        refine ⟨hr.ledger, forall_set hr.senders ?_, hr.webhooks, hr.distinct, ?_, fun row hrow m hm hmem => ?_,
          hr.answered⟩
        · intro row hrow m hm
          obtain rfl := Option.some.inj hrow
          cases hm
        · exact hnew.nodup_iff.mpr (hold.nodup_iff.mp hr.nodup)
        · exact hr.apart row hrow m hm (hold.mem_iff.mpr (hnew.mem_iff.mp hmem))
      | accepted messageId =>
        have hmono : ∀ row, w.Known scheduleOf row →
            (w.accept scheduleOf (Outcome.row (.accepted messageId) runId rec)).Known scheduleOf row :=
          fun row hrow m hm => List.mem_append_left _ (hrow m hm)
        have hother : ∀ m, messageId = some m → some m ∉ w.accepted.map Prod.fst := by
          rintro m rfl
          exact hfresh.resolve_left (by rintro ⟨⟩)
        have hrest : ∀ m, messageId = some m → m ∉ w.unwritten :=
          fun m hm hmem => hother m hm (hr.accepted_of_unwritten hmem)
        refine ⟨fun row hrow => hmono row (hr.ledger row hrow), ?_, fun row hrow => hmono row (hr.webhooks row hrow),
          ?_, ?_, fun row hrow m hm hmem => ?_, hr.answered⟩
        · refine forall_set (fun sender hsender row hrow => hmono row (hr.senders sender hsender row hrow)) ?_
          intro row hrow m hm
          obtain rfl := Option.some.inj hrow
          refine List.mem_append_right _ ?_
          rw [← hm]
          exact List.mem_singleton_self _
        · refine List.pairwise_append.mpr ⟨hr.distinct, List.pairwise_singleton _ _, ?_⟩
          intro entry hentry entry' hentry' m hm hm'
          rw [List.mem_singleton.mp hentry'] at hm'
          exact hother m hm' (List.mem_map.mpr ⟨entry, hentry, hm⟩)
        · refine hnew.nodup_iff.mpr (List.Nodup.append ?_ (hold.nodup_iff.mp hr.nodup) ?_)
          · cases messageId with
            | none => exact List.nodup_nil
            | some m => exact List.nodup_singleton m
          · intro m hm hmem
            exact hrest m (Option.mem_toList.mp hm) (hold.mem_iff.mpr hmem)
        · rcases List.mem_append.mp (hnew.mem_iff.mp hmem) with hown | hothers
          · exact hother m (Option.mem_toList.mp hown) (List.mem_map.mpr ⟨_, hr.ledger row hrow m hm, rfl⟩)
          · exact hr.apart row hrow m hm (hold.mem_iff.mpr hothers)
    · exact hr
  · exact hr

theorem recorded_record (hr : w.Recorded scheduleOf) (i : ℕ) :
    (w.step scheduleOf (.record i)).Recorded scheduleOf := by
  unfold World.step
  dsimp only
  split
  · rename_i runId rest row allSent hsender
    have hold := unwritten_perm hsender
    have hnew := unwritten_set hsender ⟨runId, rest, none, allSent⟩
    have hnodup := hold.nodup_iff.mp hr.nodup
    refine ⟨forall_concat hr.ledger (hr.senders _ (List.mem_of_getElem? hsender) row rfl), forall_set hr.senders ?_,
      hr.webhooks, hr.distinct, hnew.nodup_iff.mpr hnodup.of_append_right, ?_, fun row' hrow' m hm => ?_⟩
    · intro row' hrow'
      cases hrow'
    · refine forall_concat (fun row' hrow' m hm hmem => ?_) fun m hm hmem => ?_
      · exact hr.apart row' hrow' m hm (hold.mem_iff.mpr (List.mem_append_right _ (hnew.mem_iff.mp hmem)))
      · exact (List.nodup_append.mp hnodup).2.2 m (Option.mem_toList.mpr hm) m (hnew.mem_iff.mp hmem) rfl
    · obtain ⟨read, hread, hid⟩ := hr.answered row' hrow' m hm
      exact ⟨read, List.mem_append_left _ hread, hid⟩
  · exact hr

end Sending

theorem recorded_refute {w : World} (hr : w.Recorded scheduleOf) (m : Option String) (status : Status) :
    (w.refute m status).Recorded scheduleOf := by
  obtain ⟨refuted, heq, -⟩ := w.refute_eq m status
  rw [heq]
  exact ⟨hr.ledger, hr.senders, hr.webhooks, hr.distinct, hr.nodup, hr.apart, hr.answered⟩

theorem recorded_append {w : World} (hr : w.Recorded scheduleOf) (i : ℕ) :
    (w.step scheduleOf (.append i)).Recorded scheduleOf := by
  unfold World.step
  dsimp only
  split
  · exact hr
  · rename_i row hrow
    have hmem := List.mem_of_getElem? hrow
    obtain ⟨refuted, heq, -⟩ := (w.insert row).refute_eq row.providerMessageId row.status
    rw [heq]
    refine ⟨forall_concat hr.ledger (hr.webhooks row hmem), hr.senders,
      fun row' hrow' => hr.webhooks row' (List.mem_of_mem_eraseIdx hrow'), hr.distinct, hr.nodup,
      forall_concat hr.apart fun m hm => ?_, fun row' hrow' m hm => ?_⟩
    · obtain ⟨read, hread, hid⟩ := hr.answered row hmem m hm
      exact hr.apart read hread m hid
    · obtain ⟨read, hread, hid⟩ := hr.answered row' (List.mem_of_mem_eraseIdx hrow') m hm
      exact ⟨read, List.mem_append_left _ hread, hid⟩

theorem recorded_step {w : World} (hr : w.Recorded scheduleOf) (e : Event) :
    (w.step scheduleOf e).Recorded scheduleOf := by
  cases e with
  | deliver runId recipientRows =>
    have hsame : (w.step scheduleOf (.deliver runId recipientRows)).unwritten = w.unwritten := by
      show (w.senders ++ [_]).filterMap Sender.unwritten = _
      rw [List.filterMap_append]
      exact List.append_nil _
    refine ⟨hr.ledger, forall_concat hr.senders ?_, hr.webhooks, hr.distinct, hsame ▸ hr.nodup, hsame ▸ hr.apart,
      hr.answered⟩
    intro row hrow
    cases hrow
  | send i outcome => exact recorded_send hr i outcome
  | record i => exact recorded_record hr i
  | callback messageId providerStatus detail =>
    unfold World.step
    dsimp only
    split
    · exact recorded_refute hr _ _
    · rename_i row hlast
      split
      · exact hr
      · refine ⟨hr.ledger, hr.senders, forall_concat hr.webhooks (known_callback hr hlast _ detail), hr.distinct,
          hr.nodup, hr.apart, forall_concat hr.answered fun m hm => ?_⟩
        obtain ⟨hmem, hof⟩ := mem_of_latest hlast
        exact ⟨row, hmem, (ofMessage_iff.mp hof).trans hm⟩
  | append i => exact recorded_append hr i
  | stopSender i =>
    have hsub : (w.step scheduleOf (.stopSender i)).unwritten.Sublist w.unwritten :=
      (List.eraseIdx_sublist w.senders i).filterMap Sender.unwritten
    exact ⟨hr.ledger, fun sender hsender => hr.senders sender (List.mem_of_mem_eraseIdx hsender), hr.webhooks,
      hr.distinct, hr.nodup.sublist hsub, fun row hrow m hm hmem => hr.apart row hrow m hm (hsub.subset hmem),
      hr.answered⟩
  | stopWebhook i =>
    exact ⟨hr.ledger, hr.senders, fun row hrow => hr.webhooks row (List.mem_of_mem_eraseIdx hrow), hr.distinct,
      hr.nodup, hr.apart, fun row hrow => hr.answered row (List.mem_of_mem_eraseIdx hrow)⟩

/-! ### A row is written -/

section Written

variable {w : World} {row : Delivery}

theorem insert_sent (h : w.FailureStays scheduleOf) (hmessage : ∀ m, row.providerMessageId = some m → m ∉ w.refuted)
    (haddressee : ∀ m, w.newest (row.addressee scheduleOf) = some m → m ∉ w.refuted) :
    (w.insert row).FailureStays scheduleOf := by
  refine ⟨fun m hrefuted row' hlast => ?_, fun a m hm hrefuted => ?_⟩
  · rw [show (w.insert row).ledger = w.ledger ++ [row] from rfl, latest_append] at hlast
    split at hlast
    · rename_i hof
      exact absurd hrefuted (hmessage m (ofMessage_iff.mp hof))
    · exact h.message m hrefuted row' hlast
  · obtain ⟨status, hlast, hne⟩ := h.addressee a m hm hrefuted
    refine ⟨status, ?_, hne⟩
    rw [show (w.insert row).ledger = w.ledger ++ [row] from rfl, lastDelivery_append, if_neg, hlast]
    rintro rfl
    exact haddressee m hm hrefuted

theorem insert_failure (hr : w.Recorded scheduleOf) (hknown : w.Known scheduleOf row) (hfailure : row.status ≠ .sent)
    (h : w.FailureStays scheduleOf) {refuted : List String}
    (hrefuted : ∀ m ∈ refuted, m ∈ w.refuted ∨ row.providerMessageId = some m) :
    ({ w.insert row with refuted := refuted } : World).FailureStays scheduleOf := by
  refine ⟨fun m hm row' hlast => ?_, fun a m hm hmem => ?_⟩
  · change latest (ofMessage m) (w.ledger ++ [row]) = some row' at hlast
    rw [latest_append] at hlast
    split at hlast
    · rw [← Option.some.inj hlast]
      exact hfailure
    · rename_i hof
      rcases hrefuted m hm with hold | hnew
      · exact h.message m hold row' hlast
      · exact absurd (ofMessage_iff.mpr hnew) hof
  · have hnewest : w.newest a = some m := hm
    unfold World.ShowsFailure
    change ∃ status, lastDelivery scheduleOf (w.ledger ++ [row]) a = some status ∧ status ≠ .sent
    rw [lastDelivery_append]
    by_cases ha : row.addressee scheduleOf = a
    · rw [if_pos ha]
      exact ⟨row.status, rfl, hfailure⟩
    · rw [if_neg ha]
      rcases hrefuted m hmem with hold | hnew
      · exact h.addressee a m hnewest hold
      · exact absurd (hr.addressee_unique (hknown m hnew) (World.newest_mem hnewest)) ha

theorem insert_failureStays (hr : w.Recorded scheduleOf) (hknown : w.Known scheduleOf row)
    (h : w.FailureStays scheduleOf)
    (hmessage : row.status = .sent → ∀ m, row.providerMessageId = some m → m ∉ w.refuted)
    (htime : w.UpToDate scheduleOf row) : (w.insert row).FailureStays scheduleOf := by
  by_cases hsent : row.status = .sent
  · refine insert_sent h (hmessage hsent) fun m hm => ?_
    by_cases hown : row.providerMessageId = some m
    · exact hmessage hsent m hown
    · exact htime hsent m hm hown
  · exact insert_failure hr hknown hsent h fun m hm => .inl hm

end Written

/-! ### One step -/

theorem newest_accept (w : World) (row : Delivery) (a : Addressee) :
    (w.accept scheduleOf row).newest a =
      if row.status = .sent ∧ row.addressee scheduleOf = a then row.providerMessageId else w.newest a := by
  unfold World.accept
  by_cases hsent : row.status = .sent
  · rw [if_pos hsent]
    unfold World.newest
    rw [List.filter_append]
    by_cases ha : row.addressee scheduleOf = a
    · rw [if_pos ⟨hsent, ha⟩, List.filter_cons_of_pos (by simpa using ha), List.filter_nil, List.getLast?_concat]
      rfl
    · rw [if_neg (fun h => ha h.2), List.filter_cons_of_neg (by simpa using ha), List.filter_nil, List.append_nil]
  · rw [if_neg hsent, if_neg (fun h => hsent h.1)]

theorem accept_parts (scheduleOf : String → String) (w : World) (row : Delivery) :
    (w.accept scheduleOf row).ledger = w.ledger ∧ (w.accept scheduleOf row).webhooks = w.webhooks ∧
      (w.accept scheduleOf row).refuted = w.refuted := by
  unfold World.accept
  split
  · exact ⟨rfl, rfl, rfl⟩
  · exact ⟨rfl, rfl, rfl⟩

/-- A message that is accepted has no handled failure. -/
theorem guarded_send {w : World} (h : w.Guarded scheduleOf) (i : ℕ) (outcome : Outcome)
    (hclear : w.Clear scheduleOf (.send i outcome) = true) :
    (w.step scheduleOf (.send i outcome)).Guarded scheduleOf := by
  unfold World.step
  dsimp only
  split
  · rename_i runId rec rest allSent hsender
    split
    · have hnone : ∀ m, (outcome.row runId rec).providerMessageId = some m → m ∉ w.refuted := by
        cases outcome with
        | failed error => rintro m ⟨⟩
        | accepted messageId =>
          rintro m rfl
          exact of_decide_eq_true hclear
      obtain ⟨hledger, hwebhooks, hrefuted⟩ := accept_parts scheduleOf w (outcome.row runId rec)
      refine ⟨⟨fun m hm row hrow => ?_, fun a m hm hmem => ?_⟩, fun m hm hunwritten => ?_, fun row hrow => ?_⟩
      · rw [hrefuted] at hm
        rw [hledger] at hrow
        exact h.stays.message m hm row hrow
      · have hmem' : m ∈ w.refuted := hrefuted ▸ hmem
        have hnewest := (newest_accept w (outcome.row runId rec) a).symm.trans hm
        split at hnewest
        · exact absurd hmem' (hnone m hnewest)
        · obtain ⟨status, hlast, hne⟩ := h.stays.addressee a m hnewest hmem'
          exact ⟨status, hledger.symm ▸ hlast, hne⟩
      · rw [hrefuted] at hm
        rcases List.mem_append.mp ((unwritten_set hsender _).mem_iff.mp hunwritten) with hown | hothers
        · exact hnone m (Option.mem_toList.mp hown) hm
        · exact h.written m hm ((unwritten_perm hsender).mem_iff.mpr (List.mem_append_right _ hothers))
      · rw [hwebhooks] at hrow
        rw [hrefuted]
        exact h.webhooks row hrow
    · exact h
  · exact h

/-- The row of a send is written before a failure of its message is handled. -/
theorem guarded_record {w : World} (hr : w.Recorded scheduleOf) (h : w.Guarded scheduleOf) (i : ℕ)
    (hclear : w.Clear scheduleOf (.record i) = true) :
    (w.step scheduleOf (.record i)).Guarded scheduleOf := by
  unfold World.step
  dsimp only
  split
  · rename_i runId rest row allSent hsender
    have hold := unwritten_perm hsender
    have hstays := insert_failureStays hr (hr.senders _ (List.mem_of_getElem? hsender) row rfl) h.stays
      (fun _ m hm hrefuted => h.written m hrefuted
        (hold.mem_iff.mpr (List.mem_append_left _ (Option.mem_toList.mpr hm))))
      (of_decide_eq_true hclear _ hsender row rfl)
    refine ⟨⟨hstays.message, hstays.addressee⟩, fun m hm hunwritten => ?_, h.webhooks⟩
    have hrest := (unwritten_set hsender ⟨runId, rest, none, allSent⟩).mem_iff.mp hunwritten
    exact h.written m hm (hold.mem_iff.mpr (List.mem_append_right _ hrest))
  · exact h

/-- **The check of the handler** drops a success that would come after a failure of its message. -/
theorem guarded_callback {w : World} (hr : w.Recorded scheduleOf) (h : w.Guarded scheduleOf)
    (messageId providerStatus : String) (detail : Option String)
    (hclear : w.Clear scheduleOf (.callback messageId providerStatus detail) = true) :
    (w.step scheduleOf (.callback messageId providerStatus detail)).Guarded scheduleOf := by
  unfold World.step
  dsimp only
  split
  · rename_i hnone
    obtain ⟨refuted, heq, hmem⟩ := w.refute_eq (some messageId) (mapProviderStatusToWire providerStatus)
    rw [heq]
    have hunknown : ∀ m ∈ refuted, m ∈ w.refuted ∨ m = messageId ∧ some m ∉ w.accepted.map Prod.fst := by
      intro m hm
      refine ((hmem m).mp hm).imp_right fun hnew => ?_
      obtain rfl := Option.some.inj hnew.2
      exact ⟨rfl, fun haccepted => of_decide_eq_true hclear hnew.1 haccepted hnone⟩
    refine ⟨⟨fun m hm row hrow => ?_, fun a m hm hrefuted => ?_⟩, fun m hm hunwritten => ?_,
      fun row hrow hsent m hm hrefuted => ?_⟩
    · rcases hunknown m hm with hold | ⟨rfl, -⟩
      · exact h.stays.message m hold row hrow
      · cases hnone.symm.trans hrow
    · rcases hunknown m hrefuted with hold | ⟨-, hnew⟩
      · exact h.stays.addressee a m hm hold
      · exact absurd (List.mem_map.mpr ⟨_, World.newest_mem hm, rfl⟩) hnew
    · rcases hunknown m hm with hold | ⟨-, hnew⟩
      · exact h.written m hold hunwritten
      · exact hnew (hr.accepted_of_unwritten hunwritten)
    · rcases hunknown m hrefuted with hold | ⟨-, hnew⟩
      · exact h.webhooks row hrow hsent m hm hold
      · exact hnew (List.mem_map.mpr ⟨_, hr.webhooks row hrow m hm, rfl⟩)
  · rename_i row hlast
    split
    · exact h
    · rename_i hpasses
      refine ⟨⟨h.stays.message, h.stays.addressee⟩, h.written,
        forall_concat h.webhooks fun hsent m hm hrefuted => ?_⟩
      obtain rfl := Option.some.inj hm
      have hfailure := h.stays.message messageId hrefuted row hlast
      refine hpasses ⟨?_, hsent⟩
      cases hstatus : row.status with
      | sent => exact absurd hstatus hfailure
      | failed => decide
      | bounced => decide
      | suppressed => decide

/-- The row of a callback is written, and no success that passed its check before a failure comes after it. -/
theorem guarded_append {w : World} (hr : w.Recorded scheduleOf) (h : w.Guarded scheduleOf) (i : ℕ)
    (hclear : w.Clear scheduleOf (.append i) = true) :
    (w.step scheduleOf (.append i)).Guarded scheduleOf := by
  unfold World.step
  dsimp only
  split
  · exact h
  · rename_i row hrow
    have hmem := List.mem_of_getElem? hrow
    obtain ⟨htime, halone⟩ := of_decide_eq_true hclear row hrow
    obtain ⟨refuted, heq, hrefuted⟩ := (w.insert row).refute_eq row.providerMessageId row.status
    rw [heq]
    have hcases : ∀ m ∈ refuted, m ∈ w.refuted ∨ row.status ≠ .sent ∧ row.providerMessageId = some m :=
      fun m hm => (hrefuted m).mp hm
    have hstays : ({ w.insert row with refuted := refuted } : World).FailureStays scheduleOf := by
      by_cases hsent : row.status = .sent
      · have hinsert := insert_failureStays hr (hr.webhooks row hmem) h.stays (fun _ => h.webhooks row hmem hsent) htime
        have hsame : ∀ m ∈ refuted, m ∈ w.refuted := fun m hm => (hcases m hm).resolve_right fun hnew => hnew.1 hsent
        exact ⟨fun m hm => hinsert.message m (hsame m hm), fun a m hm hm' => hinsert.addressee a m hm (hsame m hm')⟩
      · exact insert_failure hr (hr.webhooks row hmem) hsent h.stays fun m hm => (hcases m hm).imp_right And.right
    refine ⟨⟨hstays.message, hstays.addressee⟩, fun m hm => ?_, fun other hother hsent m hm hm' => ?_⟩
    · rcases hcases m hm with hold | ⟨-, hnew⟩
      · exact h.written m hold
      · obtain ⟨read, hread, hid⟩ := hr.answered row hmem m hnew
        exact hr.apart read hread m hid
    · have hother' := List.mem_of_mem_eraseIdx hother
      rcases hcases m hm' with hold | ⟨hfailure, hnew⟩
      · exact h.webhooks other hother' hsent m hm hold
      · exact halone hfailure other hother' hsent (hm.trans hnew.symm)

/-- **One step.** -/
theorem guarded_step {w : World} (hr : w.Recorded scheduleOf) (h : w.Guarded scheduleOf) {e : Event}
    (hclear : w.Clear scheduleOf e = true) : (w.step scheduleOf e).Guarded scheduleOf := by
  cases e with
  | deliver runId recipientRows =>
    refine ⟨⟨h.stays.message, h.stays.addressee⟩, fun m hm hunwritten => h.written m hm ?_, h.webhooks⟩
    obtain ⟨sender, hsender, hid⟩ := List.mem_filterMap.mp hunwritten
    rcases List.mem_append.mp hsender with hold | hnew
    · exact List.mem_filterMap.mpr ⟨sender, hold, hid⟩
    · rw [List.mem_singleton.mp hnew] at hid
      cases hid
  | send i outcome => exact guarded_send h i outcome hclear
  | record i => exact guarded_record hr h i hclear
  | callback messageId providerStatus detail => exact guarded_callback hr h messageId providerStatus detail hclear
  | append i => exact guarded_append hr h i hclear
  | stopSender i =>
    have hsub := (List.eraseIdx_sublist w.senders i).filterMap Sender.unwritten
    exact ⟨⟨h.stays.message, h.stays.addressee⟩, fun m hm hmem => h.written m hm (hsub.subset hmem), h.webhooks⟩
  | stopWebhook i =>
    exact ⟨⟨h.stays.message, h.stays.addressee⟩, h.written,
      fun row hrow => h.webhooks row (List.mem_of_mem_eraseIdx hrow)⟩

theorem recorded_start : World.start.Recorded scheduleOf where
  ledger := List.forall_mem_nil _
  senders := List.forall_mem_nil _
  webhooks := List.forall_mem_nil _
  distinct := .nil
  nodup := .nil
  apart := List.forall_mem_nil _
  answered := List.forall_mem_nil _

theorem guarded_start : World.start.Guarded scheduleOf where
  stays := ⟨List.forall_mem_nil _, fun _ _ _ hrefuted => absurd hrefuted List.not_mem_nil⟩
  written := List.forall_mem_nil _
  webhooks := List.forall_mem_nil _

end System

/-- **A failure stays visible along the clear runs.**  For every interleaving of sends, of their rows and of the
reads and inserts of callbacks, from an empty ledger: after every step the last row of each message with a handled
failure is no success, and its addressee is shown a failure until a newer message is accepted, if no negative
callback is handled before the row of its message's send is written, none writes its row while a positive one of
the same message is between its check and its row, and no success of an older message is written after a failure
of a newer one to the same addressee. -/
theorem failure_stays_of_clear (scheduleOf : String → String) (events : List Event)
    (h : Along (World.step scheduleOf) (fun w e => w.Clear scheduleOf e = true) .start events) :
    Along (World.step scheduleOf) (fun w e => (w.step scheduleOf e).FailureStays scheduleOf) .start events := by
  have hstep (w : World) (e : Event) (hclear : w.Clear scheduleOf e = true)
      (hinv : w.Recorded scheduleOf ∧ w.Guarded scheduleOf) :
      (w.step scheduleOf e).FailureStays scheduleOf ∧
        (w.step scheduleOf e).Recorded scheduleOf ∧ (w.step scheduleOf e).Guarded scheduleOf := by
    have hguarded := guarded_step hinv.1 hinv.2 hclear
    exact ⟨hguarded.stays, recorded_step hinv.1 e, hguarded⟩
  exact h.imp hstep ⟨recorded_start, guarded_start⟩

def monthly : Recipient := ⟨"r1", "m@depot.example", .pdf⟩

def lateSuccess : List Event :=
  [.deliver "run" [monthly], .send 0 (.accepted (some "m1")), .record 0, .callback "m1" "delivered" none, .append 0,
    .callback "m1" "bounced" none, .append 0, .callback "m1" "delivered" none, .append 0]

theorem lateSuccess_failure_stays :
    Along (World.step id) (fun w e => (w.step id e).FailureStays id) .start lateSuccess :=
  failure_stays_of_clear id lateSuccess (by decide +kernel)

/-- The bounce is handled between the answer of the provider and the row of the send. -/
def earlyBounce : List Event :=
  [.deliver "run" [monthly], .send 0 (.accepted (some "m1")), .callback "m1" "bounced" none, .record 0]

/-- **A bounce is masked by its own send.** -/
theorem bounce_is_masked :
    "m1" ∈ (run (World.step id) .start earlyBounce).refuted ∧
    (latest (ofMessage "m1") (run (World.step id) .start earlyBounce).ledger).map Delivery.status = some .sent ∧
    ¬Along (World.step id) (fun w e => (w.step id e).FailureStays id) .start earlyBounce := by
  have hrefuted : "m1" ∈ (run (World.step id) .start earlyBounce).refuted := by decide
  have hlast : (latest (ofMessage "m1") (run (World.step id) .start earlyBounce).ledger).map Delivery.status =
      some .sent := by decide
  refine ⟨hrefuted, hlast, fun h => ?_⟩
  obtain ⟨row, hrow, hsent⟩ := Option.map_eq_some_iff.mp hlast
  have hstays : (run (World.step id) .start earlyBounce).FailureStays id := h.2.2.2.1
  exact hstays.message "m1" hrefuted row hrow hsent

end FavoniusBackend.Reports.DeliveryLedger
