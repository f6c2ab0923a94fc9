import FavoniusBackend.Ocpp.QueuePushes

/-!
# Rows and disconnections

A row is to be marked as failed only if the charger answered with a rejection; if the connection dropped, it
is to stay pending for a later replay.  But what the calls of a charger raise does not get as far as the
place that marks the row: `set_charging_profile` takes an error for a call without success, and after its
last call it returns the same value as after a rejection.
-/

namespace FavoniusBackend.Ocpp.CommandQueue

open Lib

/-! ### What a drainer knows -/

/-- A push that does not succeed has been rejected by the charger in one of its calls; and a profile that is
refused before it is sent is left pending. -/
def Queue.answered (s : Queue) (d : Drainer) (e : DrainEvent) : Bool :=
  match d.phase, e with
  | .pushing _ command session attempt rejected _, .reply reply =>
    match s.sessions[session]? with
    | some found => found.refuses command.payload ||
        decide (found.returns attempt reply = some false → rejected = true ∨ reply = .rejected)
    | none => true
  | .pushing _ command session _ _ _, .raises =>
    match s.sessions[session]? with
    | some found => !found.refuses command.payload ||
        decide (d.source = .consumer ∧ s.registry command.chargePointId = none)
    | none => true
  | _, _ => true

/-- The batch of a drainer consists of rows of the table, the other commands are other commands, and what it
is about to mark the charger has answered. -/
structure Drainer.Honest (rows : List Row) (d : Drainer) : Prop where
  batch : ∀ p ∈ d.phase.rest, ∃ row, rows[p.1]? = some row ∧ row.command = p.2
  other : ∀ queueId rest, d.phase = .other queueId rest →
    ∃ row, rows[queueId]? = some row ∧ row.command.commandType = .other
  marking : ∀ queueId status error answered rest,
    d.phase = .marking queueId status error answered rest → answered = true

def SameCommands (rows rows' : List Row) : Prop :=
  ∀ (queueId : ℕ) (row : Row), rows[queueId]? = some row →
    ∃ row', rows'[queueId]? = some row' ∧ row'.command = row.command

theorem SameCommands.refl (rows : List Row) : SameCommands rows rows := fun _ row h => ⟨row, h, rfl⟩

theorem sameCommands_concat (rows : List Row) (row : Row) : SameCommands rows (rows ++ [row]) := by
  intro queueId old hold
  refine ⟨old, ?_, rfl⟩
  rw [List.getElem?_append_left (List.getElem?_eq_some_iff.1 hold).1]
  exact hold

theorem mark_command (row : Row) (status : Status) (error : Option String) :
    (row.mark status error).command = row.command := by
  rw [Row.mark]
  split
  · rfl
  · rfl

theorem sameCommands_modify_mark (rows : List Row) (queueId : ℕ) (status : Status)
    (error : Option String) : SameCommands rows (rows.modify queueId (Row.mark status error)) := by
  intro k row hrow
  rw [List.getElem?_modify, hrow]
  refine ⟨if queueId = k then row.mark status error else row, rfl, ?_⟩
  split
  · exact mark_command row status error
  · rfl

theorem sameCommands_map_expire (rows : List Row) (now : ℤ) :
    SameCommands rows (rows.map (Row.expire now)) := by
  intro queueId row hrow
  refine ⟨row.expire now, ?_, ?_⟩
  · rw [List.getElem?_map, hrow]
    rfl
  · rw [Row.expire]
    split
    · rfl
    · rfl

theorem Drainer.Honest.later {rows rows' : List Row} {d : Drainer} (h : d.Honest rows)
    (hsame : SameCommands rows rows') : d.Honest rows' := by
  constructor
  · intro p hp
    obtain ⟨row, hrow, hcommand⟩ := h.batch p hp
    obtain ⟨row', hrow', hkept⟩ := hsame p.1 row hrow
    exact ⟨row', hrow', hkept.trans hcommand⟩
  · intro queueId rest hphase
    obtain ⟨row, hrow, hother⟩ := h.other queueId rest hphase
    obtain ⟨row', hrow', hkept⟩ := hsame queueId row hrow
    exact ⟨row', hrow', hkept ▸ hother⟩
  · exact h.marking

theorem honest_ready {rows : List Row} {d : Drainer} (h : d.Honest rows) {rest : List (ℕ × Command)}
    (hrest : rest <:+ d.phase.rest) : Drainer.Honest rows { d with phase := .ready rest } :=
  ⟨fun p hp => h.batch p (hrest.subset hp), nofun, nofun⟩

theorem honest_pushing {rows : List Row} {d : Drainer} (h : d.Honest rows) {rest : List (ℕ × Command)}
    (hrest : rest <:+ d.phase.rest) (queueId : ℕ) (command : Command) (session attempt : ℕ)
    (rejected : Bool) :
    Drainer.Honest rows { d with phase := .pushing queueId command session attempt rejected rest } :=
  ⟨fun p hp => h.batch p (hrest.subset hp), nofun, nofun⟩

theorem honest_marking {rows : List Row} {d : Drainer} (h : d.Honest rows) {rest : List (ℕ × Command)}
    (hrest : rest <:+ d.phase.rest) (queueId : ℕ) (status : Status) (error : Option String)
    {answered : Bool} (hanswered : answered = true) :
    Drainer.Honest rows { d with phase := .marking queueId status error answered rest } := by
  refine ⟨fun p hp => h.batch p (hrest.subset hp), nofun, ?_⟩
  rintro _ _ _ _ _ ⟨⟩
  exact hanswered

theorem honest_finished {rows : List Row} (d : Drainer) : Drainer.Honest rows { d with phase := .finished } :=
  ⟨fun _ hp => (List.not_mem_nil hp).elim, nofun, nofun⟩

/-! ### One step of a drainer -/

/-- The drainer at position `i` goes on to a phase that is honest, or the drainers are as they were. -/
def GoesOn (s : Queue) (i : ℕ) (d : Drainer) (drainers : List Drainer) : Prop :=
  drainers = s.drainers ∨ ∃ phase, drainers = s.drainers.set i { d with phase := phase } ∧
    Drainer.Honest s.rows { d with phase := phase }

theorem takeRow_goesOn {s : Queue} {i : ℕ} {d : Drainer} {queueId : ℕ} {command : Command}
    {rest : List (ℕ × Command)} (h : d.Honest s.rows)
    (hphase : d.phase = .ready ((queueId, command) :: rest)) :
    GoesOn s i d (s.takeRow i d queueId command rest).drainers := by
  have hrest : rest <:+ d.phase.rest := by
    rw [hphase]
    exact List.suffix_cons _ _
  unfold Queue.takeRow
  split
  · split
    · exact Or.inr ⟨.ready rest, rfl, honest_ready h hrest⟩
    · split
      · exact Or.inr ⟨_, rfl, honest_pushing h hrest queueId command _ 0 false⟩
      · rename_i hother
        refine Or.inr ⟨.other queueId rest, rfl, fun p hp => h.batch p (hrest.subset hp), ?_, nofun⟩
        rintro _ _ ⟨⟩
        obtain ⟨row, hrow, hcommand⟩ := h.batch (queueId, command) (by rw [hphase]; exact List.mem_cons_self)
        exact ⟨row, hrow, by rw [hcommand]; exact hother⟩
  · split
    · exact Or.inr ⟨_, rfl, honest_pushing h hrest queueId command _ 0 false⟩
    · exact Or.inr ⟨.ready rest, rfl, honest_ready h hrest⟩

theorem takeReply_goesOn {s : Queue} {i : ℕ} {d : Drainer} {queueId : ℕ} {command : Command}
    {session attempt : ℕ} {rejected : Bool} {rest : List (ℕ × Command)} (h : d.Honest s.rows)
    (hphase : d.phase = .pushing queueId command session attempt rejected rest) {reply : Reply}
    (hanswered : s.answered d (.reply reply) = true) :
    GoesOn s i d (s.takeReply i d queueId command session attempt rejected rest reply).drainers := by
  have hrest : rest <:+ d.phase.rest := by
    rw [hphase]
    exact List.suffix_refl rest
  simp only [Queue.answered, hphase] at hanswered
  unfold Queue.takeReply
  cases hfound : s.sessions[session]? with
  | none => exact Or.inl rfl
  | some found =>
    simp only [hfound] at hanswered ⊢
    split
    · exact Or.inl rfl
    · rename_i hcalled
      have hallowed : found.refuses command.payload = false := by
        cases hrefused : found.refuses command.payload with
        | false => rfl
        | true => exact absurd (by rw [hrefused]; rfl) hcalled
      rw [hallowed, Bool.false_or, decide_eq_true_eq] at hanswered
      split
      · exact Or.inr ⟨_, rfl, honest_pushing h hrest queueId command session (attempt + 1) _⟩
      · exact Or.inr ⟨_, rfl, honest_marking h hrest queueId _ none rfl⟩
      · rename_i hfalse
        refine Or.inr ⟨_, rfl, honest_marking h hrest queueId .failed _ ?_⟩
        rcases hanswered hfalse with hbefore | hnow
        · rw [hbefore]
          rfl
        · rw [hnow]
          exact Bool.or_true _

theorem takeRaise_goesOn {s : Queue} {i : ℕ} {d : Drainer} {queueId : ℕ} {command : Command}
    {session attempt : ℕ} {rejected : Bool} {rest : List (ℕ × Command)} (h : d.Honest s.rows)
    (hphase : d.phase = .pushing queueId command session attempt rejected rest)
    (hanswered : s.answered d .raises = true) :
    GoesOn s i d (s.takeRaise i d queueId command session rest).drainers := by
  have hrest : rest <:+ d.phase.rest := by
    rw [hphase]
    exact List.suffix_refl rest
  simp only [Queue.answered, hphase] at hanswered
  unfold Queue.takeRaise
  cases hfound : s.sessions[session]? with
  | none => exact Or.inl rfl
  | some found =>
    simp only [hfound] at hanswered ⊢
    split
    · rename_i hrefused
      rw [hrefused, Bool.not_true, Bool.false_or, decide_eq_true_eq] at hanswered
      rw [if_pos hanswered]
      exact Or.inr ⟨.ready rest, rfl, honest_ready h hrest⟩
    · exact Or.inl rfl

theorem stepDrainer_goesOn {s : Queue} {i : ℕ} {d : Drainer} {e : DrainEvent} (h : d.Honest s.rows)
    (hanswered : s.answered d e = true) : GoesOn s i d (s.stepDrainer i d e).drainers := by
  unfold Queue.stepDrainer
  split
  · exact Or.inr ⟨.finished, rfl, honest_finished d⟩
  · exact takeRow_goesOn h ‹_›
  · exact takeReply_goesOn h ‹_› hanswered
  · exact takeRaise_goesOn h ‹_› hanswered
  · rename_i hphase
    have hrest := congrArg Phase.rest hphase
    exact Or.inr ⟨_, rfl, honest_ready h (hrest ▸ List.suffix_refl _)⟩
  · rename_i hphase
    have hrest := congrArg Phase.rest hphase
    exact Or.inr ⟨_, rfl, honest_ready h (hrest ▸ List.suffix_refl _)⟩
  · rename_i rest status hphase
    have hrest : rest <:+ d.phase.rest := by
      rw [hphase]
      exact List.suffix_refl rest
    refine Or.inr ⟨_, ?_, honest_ready h hrest⟩
    cases status with
    | none => rfl
    | some status => rfl
  · exact Or.inr ⟨.finished, rfl, honest_finished d⟩
  · exact Or.inl rfl

/-! ### Runs -/

def answering (s : Queue) : Event → Bool
  | .drainer i e =>
    match s.drainers[i]? with
    | some d => s.answered d e
    | none => true
  | _ => true

/-- A profile row that leaves `pending` has expired, or is marked by a drainer to which the charger has
answered: with an acceptance, or with a rejection where the row is marked as failed. -/
def LeavesAnswered (s : Queue) (e : Event) : Prop :=
  ∀ (queueId : ℕ) (row row' : Row), s.rows[queueId]? = some row →
    row.command.commandType = .setChargingProfile → row.status = .pending →
    (step s e).rows[queueId]? = some row' → row'.status ≠ .pending →
    (row'.status = .expired ∧ row.expiresAt ≤ s.now) ∨
      ∃ d ∈ s.drainers, ∃ error rest, d.phase = .marking queueId row'.status error true rest

/-- A replay fetches every profile row of its charge point that is pending and has not expired, and pushes
what it has fetched. -/
def Redelivers (s : Queue) (e : Event) : Prop :=
  (∀ session found, e = .replay session → s.sessions[session]? = some found → found.version = .ocpp16 →
    ∃ batch, (step s e).drainers = s.drainers ++ [{ source := .replay session, phase := .ready batch }] ∧
      ∀ (queueId : ℕ) (row : Row), s.rows[queueId]? = some row → row.status = .pending →
        s.now < row.expiresAt → row.command.chargePointId = found.chargePointId →
        (queueId, row.command) ∈ batch) ∧
    ∀ i session queueId command rest, e = .drainer i .next →
      s.drainers[i]? = some { source := .replay session, phase := .ready ((queueId, command) :: rest) } →
      command.commandType = .setChargingProfile →
      (step s e).pushes = s.pushes ++ [{ queueId := queueId, source := .replay session }]

theorem redelivers (s : Queue) (e : Event) : Redelivers s e := by
  constructor
  · rintro session found rfl hfound hversion
    refine ⟨s.fetchPendingCommands found.chargePointId, ?_, ?_⟩
    · simp only [step, hfound, if_pos hversion]
    · intro queueId row hrow hpending hdue hcharge
      refine mem_select.2 ⟨row, hrow, ?_, rfl⟩
      simp [Row.isDue, hpending, hdue, hcharge]
  · rintro i session queueId command rest rfl hd hprofile
    simp only [step, hd, Queue.stepDrainer, Queue.takeRow, hprofile]
    rfl

def Honest (s : Queue) : Prop := ∀ d ∈ s.drainers, d.Honest s.rows

theorem Honest.table {s t : Queue} (h : Honest s) (hsame : SameCommands s.rows t.rows)
    (hdrainers : t.drainers = s.drainers) : Honest t := by
  rw [Honest, hdrainers]
  exact fun d hd => (h d hd).later hsame

theorem Honest.fetches {s : Queue} (h : Honest s) (source : Source) {batch : List (ℕ × Command)}
    (hbatch : ∀ item ∈ batch, ∃ row, s.rows[item.1]? = some row ∧ row.command = item.2) :
    Honest { s with drainers := s.drainers ++ [{ source := source, phase := .ready batch }] } :=
  Tasks.forall_concat h ⟨hbatch, nofun, nofun⟩

theorem command_of_mem_select {rows : List Row} {p : Row → Bool} {item : ℕ × Command}
    (h : item ∈ select rows p) : ∃ row, rows[item.1]? = some row ∧ row.command = item.2 := by
  obtain ⟨row, hrow, -, hcommand⟩ := mem_select.1 h
  exact ⟨row, hrow, hcommand⟩

theorem stepDrainer_sameCommands (s : Queue) (i : ℕ) (d : Drainer) (e : DrainEvent) :
    SameCommands s.rows (s.stepDrainer i d e).rows := by
  rcases stepDrainer_rows s i d e with hsame | ⟨_, _, _, _, _, -, hmark⟩ | ⟨_, _, _, -, hmark⟩
  · rw [hsame]
    exact SameCommands.refl s.rows
  · rw [hmark]
    exact sameCommands_modify_mark s.rows _ _ _
  · rw [hmark]
    exact sameCommands_modify_mark s.rows _ _ _

theorem Honest.step {s : Queue} (h : Honest s) (e : Event) (hanswering : answering s e = true) :
    Honest (step s e) := by
  cases e with
  | enqueue command expiresInMin => exact h.table (sameCommands_concat s.rows _) rfl
  | expire => exact h.table (sameCommands_map_expire s.rows s.now) rfl
  | drain => exact h.fetches .consumer fun item hitem => command_of_mem_select (List.mem_of_mem_take hitem)
  | replay session =>
    rw [CommandQueue.step]
    split
    · split
      · exact h.fetches (.replay session) fun item hitem => command_of_mem_select hitem
      · exact h
    · exact h
  | drainer i e =>
    rw [answering] at hanswering
    rw [CommandQueue.step]
    split
    · rename_i d hd
      simp only [hd] at hanswering
      have hsame := stepDrainer_sameCommands s i d e
      rcases stepDrainer_goesOn (h d (List.mem_of_getElem? hd)) hanswering (i := i) with
        hkept | ⟨phase, hmoved, hhonest⟩
      · exact h.table hsame hkept
      · rw [Honest, hmoved]
        intro d' hd'
        exact (Tasks.forall_set h hhonest d' hd').later hsame
    · exact h
  | _ => exact h

theorem mark_pending {row : Row} (h : row.status = .pending) (status : Status) (error : Option String) :
    (row.mark status error).status = status := by
  rw [Row.mark, if_pos h]

theorem of_modify_mark {rows : List Row} {queueId k : ℕ} {status : Status} {error : Option String}
    {row row' : Row} (hrow : rows[k]? = some row) (hpending : row.status = .pending)
    (hrow' : (rows.modify queueId (Row.mark status error))[k]? = some row')
    (hleft : row'.status ≠ .pending) : queueId = k ∧ row'.status = status := by
  rw [List.getElem?_modify, hrow] at hrow'
  by_cases hk : queueId = k
  · obtain rfl : row.mark status error = row' := by simpa [hk] using hrow'
    exact ⟨hk, mark_pending hpending status error⟩
  · obtain rfl : row = row' := by simpa [hk] using hrow'
    exact absurd hpending hleft

theorem leavesAnswered_expire (s : Queue) : LeavesAnswered s .expire := by
  intro queueId row row' hrow _ hpending hrow' hleft
  have hexpired : (s.rows.map (Row.expire s.now))[queueId]? = some row' := hrow'
  rw [List.getElem?_map, hrow] at hexpired
  obtain rfl : row.expire s.now = row' := Option.some.inj hexpired
  by_cases hdue : row.status = .pending ∧ row.expiresAt ≤ s.now
  · left
    rw [Row.expire, if_pos hdue]
    exact ⟨rfl, hdue.2⟩
  · rw [Row.expire, if_neg hdue] at hleft
    exact absurd hpending hleft

theorem leavesAnswered_of_rows_eq {s : Queue} {e : Event} (h : (step s e).rows = s.rows) :
    LeavesAnswered s e := by
  intro queueId row row' hrow _ hpending hrow' hleft
  rw [h, hrow, Option.some.injEq] at hrow'
  exact absurd (hrow' ▸ hpending) hleft

theorem leavesAnswered_drainer {s : Queue} (h : Honest s) (i : ℕ) (e : DrainEvent) :
    LeavesAnswered s (.drainer i e) := by
  cases hd : s.drainers[i]? with
  | none =>
    refine leavesAnswered_of_rows_eq ?_
    rw [step, hd]
  | some d =>
    have hstep : step s (.drainer i e) = s.stepDrainer i d e := by rw [step, hd]
    have hhonest := h d (List.mem_of_getElem? hd)
    rcases stepDrainer_rows s i d e with hsame | ⟨k, status, error, answered, rest, hphase, hmark⟩ |
      ⟨k, status, rest, hphase, hmark⟩
    · exact leavesAnswered_of_rows_eq (hstep ▸ hsame)
    · intro queueId row row' hrow _ hpending hrow' hleft
      rw [hstep, hmark] at hrow'
      obtain ⟨rfl, hstatus⟩ := of_modify_mark hrow hpending hrow' hleft
      right
      refine ⟨d, List.mem_of_getElem? hd, error, rest, ?_⟩
      rw [hphase, hstatus, hhonest.marking k status error answered rest hphase]
    · intro queueId row row' hrow hprofile hpending hrow' hleft
      rw [hstep, hmark] at hrow'
      obtain ⟨rfl, -⟩ := of_modify_mark hrow hpending hrow' hleft
      obtain ⟨other, hother, htype⟩ := hhonest.other k rest hphase
      rw [hrow, Option.some.injEq] at hother
      rw [← hother, hprofile] at htype
      exact absurd htype (by decide)

theorem leavesAnswered_of_honest {s : Queue} (h : Honest s) (e : Event) : LeavesAnswered s e := by
  cases e with
  | enqueue command expiresInMin =>
    intro queueId row row' hrow _ hpending hrow' hleft
    have hlt := (List.getElem?_eq_some_iff.1 hrow).1
    have hsame : (s.rows ++ [_])[queueId]? = some row' := hrow'
    rw [List.getElem?_append_left hlt, hrow, Option.some.injEq] at hsame
    exact absurd (hsame ▸ hpending) hleft
  | expire => exact leavesAnswered_expire s
  | replay session =>
    refine leavesAnswered_of_rows_eq ?_
    rw [step]
    split
    · split
      · rfl
      · rfl
    · rfl
  | drainer i e => exact leavesAnswered_drainer h i e
  | _ => exact leavesAnswered_of_rows_eq rfl

theorem honest_init : Honest Queue.init := fun _ hd => (List.not_mem_nil hd).elim

/-- **No row is lost to a disconnection** in a run in which every push that does not succeed has been rejected
by the charger in one of its calls: a row leaves `pending` when it expires or when the charger has answered,
and until then a replay fetches and pushes it. -/
theorem rows_wait_for_answer (events : List Event)
    (h : Run.Along step (fun s e => answering s e = true) Queue.init events) :
    Run.Along step (fun s e => LeavesAnswered s e ∧ Redelivers s e) Queue.init events := by
  refine Run.Along.imp (fun s e hanswering hs => ?_) honest_init h
  exact ⟨⟨leavesAnswered_of_honest hs e, redelivers s e⟩, hs.step e hanswering⟩

/-- The charger rejects the profile once before the connection drops. -/
theorem rejected_row_waits_for_answer :
    Run.Along step (fun s e => LeavesAnswered s e ∧ Redelivers s e) Queue.init
      (enqueuedAndConnected ++ [.drain, .drainer 0 .next, .drainer 0 (.reply .rejected), .drop 0,
        .drainer 0 (.reply .error), .drainer 0 (.reply .error), .drainer 0 .mark]) :=
  rows_wait_for_answer _ (by decide)

/-- The connection drops during the push: all three calls raise, and the row is marked as failed. -/
theorem dropped_row_marked_failed :
    ¬ Run.Along step (fun s e => LeavesAnswered s e ∧ Redelivers s e) Queue.init
      (enqueuedAndConnected ++ [.drain, .drainer 0 .next, .drop 0, .drainer 0 (.reply .error),
        .drainer 0 (.reply .error), .drainer 0 (.reply .error), .drainer 0 .mark]) := by
  rintro ⟨-, -, -, -, -, -, -, -, ⟨hmarked, -⟩, -⟩
  rcases hmarked 0 _ _ rfl rfl rfl rfl (by decide) with ⟨hexpired, -⟩ | ⟨d, hd, error, rest, hphase⟩
  · exact absurd hexpired (by decide)
  · have hdrainer : d ∈ [({
        source := .consumer
        phase := .marking 0 .failed (some "charger Rejected SetChargingProfile") false [] } : Drainer)] := hd
    rw [List.mem_singleton.1 hdrainer] at hphase
    cases hphase

end FavoniusBackend.Ocpp.CommandQueue
