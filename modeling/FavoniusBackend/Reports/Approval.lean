import FavoniusBackend.Reports.DeliveryLedger

/-!
# Approving and rejecting a scheduled report

`_handle_agent_action_approve` and `_handle_agent_action_reject` of `api/main.py` on the `report_draft` action
of a schedule's run, with `deliver_pending_run` and `_deliver_to_recipients` of `api/report_schedules.py`.

A rejection locks the action and resolves it together with its run.  An approval holds the lock for its check
only; it sends the report, then resolves the run, then the action, in statements of their own.  So a rejection
may come before its e-mails, or between the run and the action, and two approvals may send to one recipient.
Where no two overlap so, and no approval stops half-way, the check of the run and the look at the ledger make them
exclude each other (`exclusive_of_clear`).
-/

namespace FavoniusBackend.Reports.Approval

open Lib.Run Lib.Tasks Reports.DeliveryLedger

/-! ### The system -/

inductive ActionStatus where
  | pending
  | shadow
  | executed
  | rejected
  deriving DecidableEq, Repr

inductive RunStatus where
  | succeeded
  | failed
  | skipped
  | pendingApproval
  deriving DecidableEq, Repr

/-- `status IN ('pending', 'shadow')`. -/
def ActionStatus.Open (status : ActionStatus) : Prop := status = .pending ∨ status = .shadow

instance (status : ActionStatus) : Decidable status.Open := inferInstanceAs (Decidable (_ ∨ _))

/-- Where an approval has got to. -/
inductive Stage where
  /-- Its check is done and the lock released. -/
  | checked
  /-- `deliver_pending_run` found the run pending, with a report. -/
  | found
  /-- It found it otherwise. -/
  | resolved
  /-- The recipients and the report are read. -/
  | fetched (recipientRows : List Recipient)
  /-- `_deliver_to_recipients`: the recipients it has left, and the row of the last report where it is not
  written yet. -/
  | sending (recipientRows : List Recipient) (row : Option Delivery) (allSent : Bool)
  /-- `delivery_succeeded`. -/
  | confirmed
  deriving DecidableEq, Repr

/-- An e-mail that the provider accepted, with the status of the action at that time. -/
structure Mail where
  recipientId : String
  action : ActionStatus
  deriving DecidableEq, Repr

/-- Rows of `report_schedule_recipients`, whose ids are its primary key. -/
structure RecipientRows where
  rows : List Recipient
  nodup : (rows.map Recipient.id).Nodup

/-- The action, its run with the ledger, the approvals under way, and the record of the e-mails. -/
structure World where
  runId : String
  reportId : Option String
  action : ActionStatus
  run : RunStatus
  ledger : Ledger
  approvals : List Stage
  mails : List Mail
  deriving DecidableEq

inductive Event where
  /-- An approve command checks the action. -/
  | approve
  /-- `fetch_run`. -/
  | fetchRun (i : ℕ)
  /-- `serialize_run` of a run that is not pending. -/
  | serializeRun (i : ℕ)
  /-- The report row and the recipients are read. -/
  | fetchRows (i : ℕ) (recipientRows : RecipientRows) (reportFound : Bool)
  /-- `_deliver_to_recipients` reads who has the report already. -/
  | readSent (i : ℕ)
  | send (i : ℕ) (outcome : Outcome)
  | record (i : ℕ)
  /-- The run is updated. -/
  | finishRun (i : ℕ)
  /-- The action is updated. -/
  | execute (i : ℕ)
  | reject
  /-- An approval ends early: a process stops, or a statement fails. -/
  | stop (i : ℕ)

def World.goOn (w : World) (i : ℕ) (stage : Stage) : World :=
  { w with approvals := w.approvals.set i stage }

def World.finish (w : World) (i : ℕ) : World := { w with approvals := w.approvals.eraseIdx i }

def World.mailed (w : World) (rec : Recipient) : Outcome → List Mail
  | .accepted _ => [⟨rec.id, w.action⟩]
  | .failed _ => []

def World.step (w : World) : Event → World
  | .approve => if w.action.Open then { w with approvals := w.approvals ++ [.checked] } else w
  | .fetchRun i =>
    match w.approvals[i]? with
    | some .checked =>
      w.goOn i (if w.run ≠ .pendingApproval ∨ w.reportId = none then .resolved else .found)
    | _ => w
  | .serializeRun i =>
    match w.approvals[i]? with
    | some .resolved => if w.run = .succeeded then w.goOn i .confirmed else w.finish i
    | _ => w
  | .fetchRows i recipientRows reportFound =>
    match w.approvals[i]? with
    | some .found =>
      w.goOn i (if recipientRows.rows = [] then .sending [] none true
        else if reportFound = false then .sending [] none false else .fetched recipientRows.rows)
    | _ => w
  | .readSent i =>
    match w.approvals[i]? with
    | some (.fetched recipientRows) =>
      w.goOn i (.sending (recipientRows.filter fun rec => rec.id ∉ alreadySent w.ledger w.runId) none true)
    | _ => w
  | .send i outcome =>
    match w.approvals[i]? with
    | some (.sending (rec :: rest) none allSent) =>
      let row := outcome.row w.runId rec
      { w.goOn i (.sending rest (some row) (allSent && row.status = .sent)) with
        mails := w.mails ++ w.mailed rec outcome }
    | _ => w
  | .record i =>
    match w.approvals[i]? with
    | some (.sending rest (some row) allSent) =>
      { w.goOn i (.sending rest none allSent) with ledger := w.ledger ++ [row] }
    | _ => w
  | .finishRun i =>
    match w.approvals[i]? with
    | some (.sending [] none allSent) =>
      if allSent then
        { w.goOn i .confirmed with run := if w.run = .pendingApproval then .succeeded else w.run }
      else w.finish i
    | _ => w
  | .execute i =>
    match w.approvals[i]? with
    | some .confirmed =>
      if w.action.Open then { w.finish i with action := .executed } else w.finish i
    | _ => w
  | .reject =>
    if w.action.Open then
      { w with
        run := if w.run = .pendingApproval then .skipped else w.run
        action := .rejected }
    else w
  | .stop i => w.finish i

def World.start (runId : String) (reportId : Option String) (action : ActionStatus) : World :=
  ⟨runId, reportId, action, .pendingApproval, [], [], []⟩

/-- **The promise**: no e-mail after the rejection, none twice, and a resolved action agrees with its run. -/
structure World.Exclusive (w : World) : Prop where
  rejected : ∀ mail ∈ w.mails, mail.action ≠ .rejected
  once : (w.mails.map Mail.recipientId).Nodup
  executed_succeeded : w.action = .executed → w.run = .succeeded
  rejected_skipped : w.action = .rejected → w.run = .skipped

/-! ### The condition -/

/-- It found the run pending and has not ended. -/
def Stage.delivering : Stage → Bool
  | .checked | .resolved => false
  | _ => true

def Stage.left : Stage → List String
  | .sending recipientRows _ _ => recipientRows.map Recipient.id
  | _ => []

def Stage.unwritten : Stage → List String
  | .sending _ (some row) _ => if row.status = .sent then row.recipientId.toList else []
  | _ => []

/-- The condition on a step: an action is not rejected while an approval delivers its run, no approval reads the
ledger while another one is sending, and none stops between an e-mail and its row or between its two updates. -/
def World.Clear (w : World) : Event → Bool
  | .reject => decide (w.action.Open → ∀ stage ∈ w.approvals, stage.delivering = false)
  | .readSent _ => decide (∀ stage ∈ w.approvals, stage.left = [] ∧ stage.unwritten = [])
  | .stop i => decide (∀ stage ∈ w.approvals[i]?, stage.unwritten = [] ∧ (w.action.Open → stage ≠ .confirmed))
  | _ => true

/-! ### The action and its run -/

/-- A resolved action agrees with its run, and nothing is delivered for a rejected one. -/
structure World.Consistent (w : World) : Prop where
  failed : w.run ≠ .failed
  skipped : w.run = .skipped → w.action = .rejected
  rejected : w.action = .rejected → w.run = .skipped ∧ ∀ stage ∈ w.approvals, stage.delivering = false
  executed : w.action = .executed → w.run = .succeeded
  confirmed : .confirmed ∈ w.approvals → w.run = .succeeded
  succeeded : w.run = .succeeded → w.action.Open → .confirmed ∈ w.approvals

theorem ActionStatus.Open.ne_rejected {status : ActionStatus} (h : status.Open) : status ≠ .rejected := by
  rcases h with rfl | rfl
  · decide
  · decide

theorem ActionStatus.Open.ne_executed {status : ActionStatus} (h : status.Open) : status ≠ .executed := by
  rcases h with rfl | rfl
  · decide
  · decide

theorem run_cases {w : World} (h : w.Consistent) :
    w.run = .pendingApproval ∨ w.run = .succeeded ∨ w.run = .skipped := by
  cases hrun : w.run with
  | pendingApproval => exact .inl rfl
  | succeeded => exact .inr (.inl rfl)
  | skipped => exact .inr (.inr rfl)
  | failed => exact absurd hrun h.failed

section Consistent

variable {w : World} {i : ℕ} {stage : Stage}

theorem World.Consistent.ne_rejected (h : w.Consistent) (hstage : w.approvals[i]? = some stage)
    (hdelivering : stage.delivering = true) : w.action ≠ .rejected := by
  intro haction
  have hnone := (h.rejected haction).2 stage (List.mem_of_getElem? hstage)
  rw [hdelivering] at hnone
  cases hnone

theorem World.Consistent.goOn (h : w.Consistent) (hstage : w.approvals[i]? = some stage) (hne : stage ≠ .confirmed)
    {next : Stage} (hnext : next = .confirmed → w.run = .succeeded)
    (hdelivering : next.delivering = true → w.action ≠ .rejected) : (w.goOn i next).Consistent := by
  have hold := perm_cons_eraseIdx hstage
  have hnew := set_perm_cons_eraseIdx hstage next
  refine ⟨h.failed, h.skipped, fun haction => ⟨(h.rejected haction).1, fun s hs => ?_⟩, h.executed, fun hmem => ?_,
    fun hsucceeded hopen => ?_⟩
  · rcases List.mem_cons.mp (hnew.mem_iff.mp hs) with rfl | hrest
    · rw [Bool.eq_false_iff]
      exact fun hs => hdelivering hs haction
    · exact (h.rejected haction).2 s (hold.mem_iff.mpr (List.mem_cons_of_mem _ hrest))
  · rcases List.mem_cons.mp (hnew.mem_iff.mp hmem) with heq | hrest
    · exact hnext heq.symm
    · exact h.confirmed (hold.mem_iff.mpr (List.mem_cons_of_mem _ hrest))
  · rcases List.mem_cons.mp (hold.mem_iff.mp (h.succeeded hsucceeded hopen)) with heq | hrest
    · exact absurd heq.symm hne
    · exact hnew.mem_iff.mpr (List.mem_cons_of_mem _ hrest)

theorem World.Consistent.finish (h : w.Consistent) (hstage : w.approvals[i]? = some stage)
    (hne : w.action.Open → stage ≠ .confirmed) : (w.finish i).Consistent := by
  have hold := perm_cons_eraseIdx hstage
  refine ⟨h.failed, h.skipped, fun haction => ⟨(h.rejected haction).1, fun s hs => ?_⟩, h.executed, fun hmem => ?_,
    fun hsucceeded hopen => ?_⟩
  · exact (h.rejected haction).2 s (List.mem_of_mem_eraseIdx hs)
  · exact h.confirmed (List.mem_of_mem_eraseIdx hmem)
  · rcases List.mem_cons.mp (hold.mem_iff.mp (h.succeeded hsucceeded hopen)) with heq | hrest
    · exact absurd heq.symm (hne hopen)
    · exact hrest

theorem World.finish_of_none (hstage : w.approvals[i]? = none) : w.finish i = w := by
  have hsame : w.approvals.eraseIdx i = w.approvals :=
    List.eraseIdx_of_length_le (List.getElem?_eq_none_iff.mp hstage)
  rw [World.finish, hsame]

theorem World.Consistent.approve (h : w.Consistent) : (w.step .approve).Consistent := by
  unfold World.step
  dsimp only
  split
  · refine ⟨h.failed, h.skipped, fun haction => ⟨(h.rejected haction).1, ?_⟩, h.executed, fun hmem => ?_,
      fun hsucceeded hopen => List.mem_append_left _ (h.succeeded hsucceeded hopen)⟩
    · exact forall_concat (h.rejected haction).2 rfl
    · rcases List.mem_append.mp hmem with hold | hnew
      · exact h.confirmed hold
      · cases List.mem_singleton.mp hnew
  · exact h

theorem World.Consistent.fetchRun (h : w.Consistent) (i : ℕ) : (w.step (.fetchRun i)).Consistent := by
  unfold World.step
  dsimp only
  split
  · rename_i hchecked
    split
    · exact h.goOn hchecked (by decide) (by rintro ⟨⟩) (by rintro ⟨⟩)
    · rename_i hpending
      refine h.goOn hchecked (by decide) (by rintro ⟨⟩) fun _ haction => hpending (.inl ?_)
      rw [(h.rejected haction).1]
      decide
  · exact h

theorem World.Consistent.serializeRun (h : w.Consistent) (i : ℕ) : (w.step (.serializeRun i)).Consistent := by
  unfold World.step
  dsimp only
  split
  · rename_i hresolved
    split
    · rename_i hsucceeded
      refine h.goOn hresolved (by decide) (fun _ => hsucceeded) fun _ haction => ?_
      cases hsucceeded.symm.trans (h.rejected haction).1
    · exact h.finish hresolved fun _ => by decide
  · exact h

theorem World.Consistent.fetchRows (h : w.Consistent) (i : ℕ) (recipientRows : RecipientRows) (reportFound : Bool) :
    (w.step (.fetchRows i recipientRows reportFound)).Consistent := by
  unfold World.step
  dsimp only
  split
  · rename_i hfound
    refine h.goOn hfound (by decide) ?_ fun _ => h.ne_rejected hfound rfl
    split
    · rintro ⟨⟩
    · split
      · rintro ⟨⟩
      · rintro ⟨⟩
  · exact h

theorem World.Consistent.finishRun (h : w.Consistent) (i : ℕ) : (w.step (.finishRun i)).Consistent := by
  unfold World.step
  dsimp only
  split
  · rename_i allSent hsending
    have hne := h.ne_rejected hsending rfl
    have hnew := set_perm_cons_eraseIdx hsending .confirmed
    split
    · have hsucceeded : (if w.run = .pendingApproval then .succeeded else w.run) = RunStatus.succeeded := by
        rcases run_cases h with hrun | hrun | hrun
        · rw [if_pos hrun]
        · rw [hrun]
          rfl
        · exact absurd (h.skipped hrun) hne
      refine ⟨?_, ?_, fun haction => absurd haction hne, fun _ => hsucceeded, fun _ => hsucceeded,
        fun _ _ => hnew.mem_iff.mpr List.mem_cons_self⟩
      · dsimp only
        rw [hsucceeded]
        decide
      · dsimp only
        rw [hsucceeded]
        rintro ⟨⟩
    · exact h.finish hsending fun _ => by rintro ⟨⟩
  · exact h

theorem World.Consistent.execute (h : w.Consistent) (i : ℕ) : (w.step (.execute i)).Consistent := by
  unfold World.step
  dsimp only
  split
  · rename_i hconfirmed
    have hsucceeded := h.confirmed (List.mem_of_getElem? hconfirmed)
    split
    · refine ⟨h.failed, fun hskipped => ?_, by rintro ⟨⟩, fun _ => hsucceeded, fun _ => hsucceeded, fun _ hopen => ?_⟩
      · cases hsucceeded.symm.trans hskipped
      · exact absurd rfl hopen.ne_executed
    · rename_i hclosed
      exact h.finish hconfirmed fun hopen => absurd hopen hclosed
  · exact h

/-- An open action that nothing delivers has a pending run. -/
theorem World.Consistent.reject (h : w.Consistent) (hclear : w.Clear .reject = true) :
    (w.step .reject).Consistent := by
  unfold World.step
  dsimp only
  split
  · rename_i hopen
    have hnone := of_decide_eq_true hclear hopen
    have hskipped : (if w.run = .pendingApproval then .skipped else w.run) = RunStatus.skipped := by
      rcases run_cases h with hrun | hrun | hrun
      · rw [if_pos hrun]
      · cases hnone .confirmed (h.succeeded hrun hopen)
      · rw [hrun]
        rfl
    refine ⟨?_, fun _ => rfl, fun _ => ⟨hskipped, hnone⟩, by rintro ⟨⟩, fun hmem => ?_, fun _ hopen => ?_⟩
    · dsimp only
      rw [hskipped]
      decide
    · cases hnone .confirmed hmem
    · exact absurd rfl hopen.ne_rejected
  · exact h

theorem World.Consistent.step (h : w.Consistent) {e : Event} (hclear : w.Clear e = true) : (w.step e).Consistent := by
  cases e with
  | approve => exact h.approve
  | fetchRun i => exact h.fetchRun i
  | serializeRun i => exact h.serializeRun i
  | fetchRows i recipientRows reportFound => exact h.fetchRows i recipientRows reportFound
  | readSent i =>
    unfold World.step
    dsimp only
    split
    · rename_i hfetched
      exact h.goOn hfetched (by rintro ⟨⟩) (by rintro ⟨⟩) fun _ => h.ne_rejected hfetched rfl
    · exact h
  | send i outcome =>
    unfold World.step
    dsimp only
    split
    · rename_i rec rest allSent hsending
      have hnext : (w.goOn i (.sending rest (some (outcome.row w.runId rec))
          (allSent && (outcome.row w.runId rec).status = .sent))).Consistent :=
        h.goOn hsending (by rintro ⟨⟩) (by rintro ⟨⟩) fun _ => h.ne_rejected hsending rfl
      exact ⟨hnext.failed, hnext.skipped, hnext.rejected, hnext.executed, hnext.confirmed, hnext.succeeded⟩
    · exact h
  | record i =>
    unfold World.step
    dsimp only
    split
    · rename_i rest row allSent hsending
      have hnext : (w.goOn i (.sending rest none allSent)).Consistent :=
        h.goOn hsending (by rintro ⟨⟩) (by rintro ⟨⟩) fun _ => h.ne_rejected hsending rfl
      exact ⟨hnext.failed, hnext.skipped, hnext.rejected, hnext.executed, hnext.confirmed, hnext.succeeded⟩
    · exact h
  | finishRun i => exact h.finishRun i
  | execute i => exact h.execute i
  | reject => exact h.reject hclear
  | stop i =>
    cases hstage : w.approvals[i]? with
    | none =>
      show (w.finish i).Consistent
      rw [World.finish_of_none hstage]
      exact h
    | some stage => exact h.finish hstage (of_decide_eq_true hclear stage hstage).2

end Consistent

/-! ### The e-mails -/

/-- What an approval was given: recipients with different ids, and a row of its run. -/
def Stage.WellFormed (runId : String) : Stage → Prop
  | .fetched recipientRows => (recipientRows.map Recipient.id).Nodup
  | .sending _ (some row) _ => row.runId = runId
  | _ => True

/-- No recipient has two e-mails or is about to get a second one, every e-mail has its row or a sender that is about
to write it, and none was sent for a rejected action. -/
structure World.Counted (w : World) : Prop where
  stages : ∀ stage ∈ w.approvals, stage.WellFormed w.runId
  nodup : (w.mails.map Mail.recipientId ++ w.approvals.flatMap Stage.left).Nodup
  covered : ∀ r ∈ w.mails.map Mail.recipientId,
    r ∈ alreadySent w.ledger w.runId ∨ r ∈ w.approvals.flatMap Stage.unwritten
  rejected : ∀ mail ∈ w.mails, mail.action ≠ .rejected

theorem alreadySent_append (ledger : Ledger) (row : Delivery) (runId : String) :
    alreadySent (ledger ++ [row]) runId = alreadySent ledger runId ++ alreadySent [row] runId := by
  unfold alreadySent
  rw [List.filter_append, List.filterMap_append]

section Counted

variable {w : World} {i : ℕ} {stage : Stage}

theorem World.Counted.goOn (h : w.Counted) (hstage : w.approvals[i]? = some stage) (hwritten : stage.unwritten = [])
    {next : Stage} (hnext : next.WellFormed w.runId) (hleft : next.left.Sublist stage.left) :
    (w.goOn i next).Counted := by
  have hold := perm_cons_eraseIdx hstage
  have hnew := set_perm_cons_eraseIdx hstage next
  refine ⟨forall_set h.stages hnext, ?_, fun r hr => ?_, h.rejected⟩
  · have hnodup := ((hold.flatMap_right Stage.left).append_left _).nodup_iff.mp h.nodup
    refine ((hnew.flatMap_right Stage.left).append_left _).nodup_iff.mpr (hnodup.sublist ?_)
    rw [List.flatMap_cons, List.flatMap_cons]
    exact (List.Sublist.refl _).append (hleft.append (.refl _))
  · refine (h.covered r hr).imp_right fun hmem => (hnew.flatMap_right _).mem_iff.mpr ?_
    have hrest := (hold.flatMap_right _).mem_iff.mp hmem
    rw [List.flatMap_cons, hwritten, List.nil_append] at hrest
    rw [List.flatMap_cons]
    exact List.mem_append_right _ hrest

theorem World.Counted.finish (h : w.Counted) (hstage : w.approvals[i]? = some stage)
    (hwritten : stage.unwritten = []) : (w.finish i).Counted := by
  have hold := perm_cons_eraseIdx hstage
  refine ⟨fun s hs => h.stages s (List.mem_of_mem_eraseIdx hs), ?_, fun r hr => ?_, h.rejected⟩
  · have hnodup := ((hold.flatMap_right Stage.left).append_left _).nodup_iff.mp h.nodup
    refine hnodup.sublist ((List.Sublist.refl _).append ?_)
    rw [List.flatMap_cons]
    exact List.sublist_append_right _ _
  · refine (h.covered r hr).imp_right fun hmem => ?_
    have hrest := (hold.flatMap_right _).mem_iff.mp hmem
    rw [List.flatMap_cons, hwritten, List.nil_append] at hrest
    exact hrest

/-- **The look at the ledger.**  When nothing else is being sent, every e-mail has its row, and whoever has one is
left out. -/
theorem World.Counted.readSent (h : w.Counted) (i : ℕ) (hclear : w.Clear (.readSent i) = true) :
    (w.step (.readSent i)).Counted := by
  unfold World.step
  dsimp only
  split
  · rename_i recipientRows hfetched
    have hquiet := of_decide_eq_true hclear
    have hnew := set_perm_cons_eraseIdx hfetched
      (.sending (recipientRows.filter fun rec => rec.id ∉ alreadySent w.ledger w.runId) none true)
    have hunwritten : w.approvals.flatMap Stage.unwritten = [] :=
      List.flatMap_eq_nil_iff.mpr fun s hs => (hquiet s hs).2
    have hrest : (w.approvals.eraseIdx i).flatMap Stage.left = [] :=
      List.flatMap_eq_nil_iff.mpr fun s hs => (hquiet s (List.mem_of_mem_eraseIdx hs)).1
    have hsent : ∀ r ∈ w.mails.map Mail.recipientId, r ∈ alreadySent w.ledger w.runId := by
      intro r hr
      refine (h.covered r hr).resolve_right ?_
      rw [hunwritten]
      exact List.not_mem_nil
    refine ⟨forall_set h.stages trivial, ?_, fun r hr => .inl (hsent r hr), h.rejected⟩
    refine ((hnew.flatMap_right Stage.left).append_left _).nodup_iff.mpr ?_
    rw [List.flatMap_cons, hrest, List.append_nil]
    have hids := h.stages _ (List.mem_of_getElem? hfetched)
    refine List.Nodup.append (h.nodup.sublist (List.sublist_append_left _ _))
      (List.Nodup.sublist (List.filter_sublist.map _) hids) ?_
    intro r hr hr'
    obtain ⟨rec, hrec, rfl⟩ := List.mem_map.mp hr'
    exact of_decide_eq_true (List.mem_filter.mp hrec).2 (hsent _ hr)
  · exact h

/-- **An e-mail** is for one of the recipients that were left, of an action that is not rejected. -/
theorem World.Counted.send (h : w.Counted) (hc : w.Consistent) (i : ℕ) (outcome : Outcome) :
    (w.step (.send i outcome)).Counted := by
  unfold World.step
  dsimp only
  split
  · rename_i rec rest allSent hsending
    have hnext (next : Stage) (hnext : next.WellFormed w.runId) (hleft : next.left = rest.map Recipient.id) :
        (w.goOn i next).Counted := by
      refine h.goOn hsending rfl hnext ?_
      rw [hleft]
      exact List.sublist_cons_self _ _
    cases outcome with
    | failed error =>
      have hfailed := hnext (.sending rest (some (Outcome.row (.failed error) w.runId rec)) (allSent && false)) rfl rfl
      refine ⟨hfailed.stages, ?_, ?_, ?_⟩
      · dsimp only [World.mailed]
        rw [List.append_nil]
        exact hfailed.nodup
      · dsimp only [World.mailed]
        rw [List.append_nil]
        exact hfailed.covered
      · dsimp only [World.mailed]
        rw [List.append_nil]
        exact hfailed.rejected
    | accepted messageId =>
      have hold := perm_cons_eraseIdx hsending
      have hnew := set_perm_cons_eraseIdx hsending
        (.sending rest (some (Outcome.row (.accepted messageId) w.runId rec)) (allSent && true))
      refine ⟨forall_set h.stages rfl, ?_, ?_, forall_concat h.rejected (hc.ne_rejected hsending rfl)⟩
      · refine ((hnew.flatMap_right Stage.left).append_left _).nodup_iff.mpr ?_
        have hnodup := ((hold.flatMap_right Stage.left).append_left _).nodup_iff.mp h.nodup
        rw [List.flatMap_cons] at hnodup ⊢
        show (List.map Mail.recipientId (w.mails ++ [⟨rec.id, w.action⟩]) ++ _).Nodup
        rw [List.map_append, List.append_assoc]
        exact hnodup
      · intro r hr
        dsimp only [World.mailed] at hr
        rw [List.map_append] at hr
        refine (List.mem_append.mp hr).elim (fun hmem => (h.covered r hmem).imp_right fun hunwritten => ?_)
          fun hmem => .inr ?_
        · have hrest := (hold.flatMap_right _).mem_iff.mp hunwritten
          exact (hnew.flatMap_right _).mem_iff.mpr (List.mem_append_right _ hrest)
        · exact (hnew.flatMap_right _).mem_iff.mpr (List.mem_append_left _ hmem)
  · exact h

/-- A row that is written stands for its e-mail from then on. -/
theorem World.Counted.record (h : w.Counted) (i : ℕ) : (w.step (.record i)).Counted := by
  unfold World.step
  dsimp only
  split
  · rename_i rest row allSent hsending
    have hold := perm_cons_eraseIdx hsending
    have hnew := set_perm_cons_eraseIdx hsending (.sending rest none allSent)
    refine ⟨forall_set h.stages trivial, ?_, fun r hr => ?_, h.rejected⟩
    · have hnodup := ((hold.flatMap_right Stage.left).append_left _).nodup_iff.mp h.nodup
      exact ((hnew.flatMap_right Stage.left).append_left _).nodup_iff.mpr hnodup
    · show r ∈ alreadySent (w.ledger ++ [row]) w.runId ∨ _
      rw [alreadySent_append, List.mem_append]
      rcases h.covered r hr with hwritten | hunwritten
      · exact .inl (.inl hwritten)
      · rcases List.mem_append.mp ((hold.flatMap_right _).mem_iff.mp hunwritten) with hown | hrest
        · refine .inl (.inr ?_)
          have hrun : row.runId = w.runId := h.stages _ (List.mem_of_getElem? hsending)
          simp only [Stage.unwritten] at hown
          split at hown
          · rename_i hsent
            simpa [alreadySent, hrun, hsent] using hown
          · cases hown
        · exact .inr ((hnew.flatMap_right _).mem_iff.mpr (List.mem_append_right _ hrest))
  · exact h

theorem World.Counted.step (h : w.Counted) (hc : w.Consistent) {e : Event} (hclear : w.Clear e = true) :
    (w.step e).Counted := by
  cases e with
  | approve =>
    unfold World.step
    dsimp only
    split
    · refine ⟨forall_concat h.stages trivial, ?_, fun r hr => ?_, h.rejected⟩
      · rw [List.flatMap_append]
        exact (List.append_nil (w.approvals.flatMap Stage.left)).symm ▸ h.nodup
      · rw [List.flatMap_append]
        exact (h.covered r hr).imp_right (List.mem_append_left _)
    · exact h
  | fetchRun i =>
    unfold World.step
    dsimp only
    split
    · rename_i hchecked
      split
      · exact h.goOn hchecked rfl trivial (.refl _)
      · exact h.goOn hchecked rfl trivial (.refl _)
    · exact h
  | serializeRun i =>
    unfold World.step
    dsimp only
    split
    · rename_i hresolved
      split
      · exact h.goOn hresolved rfl trivial (.refl _)
      · exact h.finish hresolved rfl
    · exact h
  | fetchRows i recipientRows reportFound =>
    unfold World.step
    dsimp only
    split
    · rename_i hfound
      split
      · exact h.goOn hfound rfl trivial (.refl _)
      · split
        · exact h.goOn hfound rfl trivial (.refl _)
        · exact h.goOn hfound rfl recipientRows.nodup (.refl _)
    · exact h
  | readSent i => exact h.readSent i hclear
  | send i outcome => exact h.send hc i outcome
  | record i => exact h.record i
  | finishRun i =>
    unfold World.step
    dsimp only
    split
    · rename_i hsending
      split
      · have hnext : (w.goOn i .confirmed).Counted := h.goOn hsending rfl trivial (.refl _)
        exact ⟨hnext.stages, hnext.nodup, hnext.covered, hnext.rejected⟩
      · exact h.finish hsending rfl
    · exact h
  | execute i =>
    unfold World.step
    dsimp only
    split
    · rename_i hconfirmed
      have hnext := h.finish hconfirmed rfl
      split
      · exact ⟨hnext.stages, hnext.nodup, hnext.covered, hnext.rejected⟩
      · exact hnext
    · exact h
  | reject =>
    unfold World.step
    dsimp only
    split
    · exact ⟨h.stages, h.nodup, h.covered, h.rejected⟩
    · exact h
  | stop i =>
    cases hstage : w.approvals[i]? with
    | none =>
      show (w.finish i).Counted
      rw [World.finish_of_none hstage]
      exact h
    | some stage => exact h.finish hstage (of_decide_eq_true hclear stage hstage).1

theorem World.Counted.exclusive (h : w.Counted) (hc : w.Consistent) : w.Exclusive where
  rejected := h.rejected
  once := h.nodup.sublist (List.sublist_append_left _ _)
  executed_succeeded := hc.executed
  rejected_skipped haction := (hc.rejected haction).1

end Counted

/-! ### Whole runs -/

/-- A resolved action stays as it is, and no approval of it begins. -/
def World.Settled (w : World) (e : Event) : Prop :=
  ¬ w.action.Open → (w.step e).action = w.action ∧ (w.step e).approvals.length ≤ w.approvals.length

theorem settled (w : World) (e : Event) : w.Settled e := by
  intro hclosed
  cases e with
  | approve =>
    rw [World.step, if_neg hclosed]
    exact ⟨rfl, le_rfl⟩
  | reject =>
    rw [World.step, if_neg hclosed]
    exact ⟨rfl, le_rfl⟩
  | stop i => exact ⟨rfl, List.length_eraseIdx_le _ _⟩
  | _ =>
    unfold World.step
    dsimp only
    repeat' split
    all_goals first
      | exact absurd ‹_› hclosed
      | exact ⟨rfl, le_rfl⟩
      | exact ⟨rfl, (List.length_set ..).le⟩
      | exact ⟨rfl, List.length_eraseIdx_le _ _⟩

/-- **Approval and rejection exclude each other along the clear runs.**  For every interleaving of approvals and
rejections of an open action whose run is pending: a resolved action stays as it is and no approval of it begins.
If no action is rejected while an approval delivers its run, no approval reads the ledger while another one is
sending, and none stops between an e-mail and its row or between its two updates, then after every step no e-mail
was sent after the rejection, no recipient has two, and a resolved action agrees with its run. -/
theorem exclusive_of_clear (runId : String) (reportId : Option String) (action : ActionStatus) (hopen : action.Open)
    (events : List Event) :
    Along World.step World.Settled (.start runId reportId action) events ∧
      (Along World.step (fun w e => w.Clear e = true) (.start runId reportId action) events →
        Along World.step (fun w e => (w.step e).Exclusive) (.start runId reportId action) events) := by
  refine ⟨.of_forall settled, fun h => ?_⟩
  have hconsistent : (World.start runId reportId action).Consistent :=
    ⟨by rintro ⟨⟩, by rintro ⟨⟩, fun h => absurd h hopen.ne_rejected, fun h => absurd h hopen.ne_executed,
      fun h => absurd h List.not_mem_nil, by rintro ⟨⟩⟩
  have hcounted : (World.start runId reportId action).Counted :=
    ⟨fun _ h => absurd h List.not_mem_nil, List.nodup_nil, fun _ h => absurd h List.not_mem_nil,
      fun _ h => absurd h List.not_mem_nil⟩
  have hstep (w : World) (e : Event) (hclear : w.Clear e = true) (hinv : w.Consistent ∧ w.Counted) :
      (w.step e).Exclusive ∧ (w.step e).Consistent ∧ (w.step e).Counted := by
    have hconsistent' := hinv.1.step hclear
    have hcounted' := hinv.2.step hinv.1 hclear
    exact ⟨hcounted'.exclusive hconsistent', hconsistent', hcounted'⟩
  exact h.imp hstep ⟨hconsistent, hcounted⟩

theorem nodup_monthly : ([monthly].map Recipient.id).Nodup := List.nodup_singleton _

/-- An approval until it sends to its one recipient. -/
def upToSend (i : ℕ) : List Event := [.approve, .fetchRun i, .fetchRows i ⟨[monthly], nodup_monthly⟩ true, .readSent i]

def accepted : Outcome := .accepted (some "m1")

/-- An approval whose e-mail fails, its repetition, and a rejection that comes too late. -/
def repeated : List Event :=
  upToSend 0 ++ [.send 0 (.failed "timeout"), .record 0, .finishRun 0] ++
    upToSend 0 ++ [.send 0 accepted, .record 0, .finishRun 0, .execute 0, .reject, .approve]

/-- They keep the promise. -/
theorem repeated_exclusive :
    Along World.step (fun w e => (w.step e).Exclusive) (.start "run" (some "report") .pending) repeated :=
  (exclusive_of_clear "run" (some "report") .pending (.inl rfl) repeated).2 (by decide +kernel)

def rejectedMeanwhile : List Event := upToSend 0 ++ [.reject, .send 0 accepted]

/-- **An e-mail after the rejection.** -/
theorem mail_after_rejection :
    (run World.step (.start "run" (some "report") .pending) rejectedMeanwhile).mails = [⟨"r1", .rejected⟩] ∧
    ¬Along World.step (fun w e => (w.step e).Exclusive) (.start "run" (some "report") .pending)
      rejectedMeanwhile := by
  have hmails : (run World.step (.start "run" (some "report") .pending) rejectedMeanwhile).mails =
      [⟨"r1", .rejected⟩] := by decide
  refine ⟨hmails, fun h => ?_⟩
  have hexclusive : (run World.step (.start "run" (some "report") .pending) rejectedMeanwhile).Exclusive :=
    h.2.2.2.2.2.1
  refine hexclusive.rejected ⟨"r1", .rejected⟩ ?_ rfl
  rw [hmails]
  exact List.mem_singleton_self _

-- Two approvals read the ledger before either writes its row.
example : (run World.step (.start "run" (some "report") .pending)
    (upToSend 0 ++ upToSend 1 ++ [.send 0 accepted, .send 1 accepted])).mails =
    [⟨"r1", .pending⟩, ⟨"r1", .pending⟩] := by decide +kernel

end FavoniusBackend.Reports.Approval
