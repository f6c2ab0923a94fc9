import Mathlib.Data.List.Nodup
import FavoniusBackend.Ocpp.CommandQueue

/-!
# How often a row is pushed

The updates of a row are guarded by its status, so that a row leaves `pending` once and is not changed
afterwards.  The pushes are not guarded: a drainer pushes every row it has fetched, whatever has become of it
in the meantime.  A row is pushed at most once as long as no fetch returns a row that another drainer still
holds, and no push ends without its row being marked.
-/

namespace FavoniusBackend.Ocpp.CommandQueue

open Lib

/-! ### The rows -/

def Later (rows rows' : List Row) : Prop :=
  ∀ (queueId : ℕ) (row : Row), rows[queueId]? = some row → row.status ≠ .pending →
    rows'[queueId]? = some row

theorem Later.refl (rows : List Row) : Later rows rows := fun _ _ h _ => h

theorem later_concat (rows : List Row) (row : Row) : Later rows (rows ++ [row]) := by
  intro queueId old hold _
  rw [List.getElem?_append_left (List.getElem?_eq_some_iff.1 hold).1]
  exact hold

theorem mark_of_not_pending {row : Row} (h : row.status ≠ .pending) (status : Status)
    (error : Option String) : row.mark status error = row := if_neg h

theorem later_modify_mark (rows : List Row) (queueId : ℕ) (status : Status) (error : Option String) :
    Later rows (rows.modify queueId (Row.mark status error)) := by
  intro k row hrow hdone
  rw [List.getElem?_modify, hrow]
  show some (if queueId = k then row.mark status error else row) = some row
  rw [mark_of_not_pending hdone, ite_self]

theorem later_map_expire (rows : List Row) (now : ℤ) : Later rows (rows.map (Row.expire now)) := by
  intro queueId row hrow hdone
  rw [List.getElem?_map, hrow]
  show some (row.expire now) = some row
  rw [Row.expire, if_neg fun h => hdone h.1]

/-! ### What a drainer can do -/

/-- The rows that a drainer still has to take. -/
def Phase.rest : Phase → List (ℕ × Command)
  | .ready rest | .pushing _ _ _ _ _ rest | .marking _ _ _ _ rest | .other _ rest => rest
  | .finished => []

def Phase.current : Phase → Option ℕ
  | .pushing queueId _ _ _ _ _ | .marking queueId _ _ _ _ => some queueId
  | _ => none

/-- A push does not end without its row being marked: the update does not fail, the task is not cancelled
between the push and the update, and the push does not raise when the charge point has gone. -/
def Queue.settles (s : Queue) (d : Drainer) (e : DrainEvent) : Bool :=
  match d.phase, e with
  | .marking _ _ _ _ _, .markFails => false
  | .marking _ _ _ _ _, .cancel | .pushing _ _ _ _ _ _, .cancel => false
  | .pushing _ command _ _ _ _, .raises =>
    decide (¬ (d.source = .consumer ∧ s.registry command.chargePointId = none))
  | _, _ => true

/-- What becomes of a drainer at position `i` whose pushes are marked: it does nothing, goes on or ends
without a push, pushes a row, is still at the row it has pushed, or marks this row. -/
inductive Moves (s : Queue) (i : ℕ) (d : Drainer) : Queue → Prop
  | stays : Moves s i d s
  | skips (t : Queue) (phase : Phase) (hold : d.phase.current = none) (hnew : phase.current = none)
      (hrest : phase.rest <:+ d.phase.rest) (hrows : Later s.rows t.rows)
      (hlength : t.rows.length = s.rows.length) (hdrainers : t.drainers = s.drainers)
      (hpushes : t.pushes = s.pushes) : Moves s i d (t.setPhase i d phase)
  | pushes (queueId : ℕ) (command : Command) (session : ℕ) (rest : List (ℕ × Command))
      (hphase : d.phase = .ready ((queueId, command) :: rest))
      (hprofile : command.commandType = .setChargingProfile) :
      Moves s i d (s.startPush i d queueId command session rest)
  | keeps (phase : Phase) (hcurrent : phase.current = d.phase.current)
      (hsome : d.phase.current.isSome = true) (hrest : phase.rest = d.phase.rest)
      (hstatus : ∀ queueId status error answered rest,
        phase = .marking queueId status error answered rest → status ≠ .pending) :
      Moves s i d (s.setPhase i d phase)
  | marks (queueId : ℕ) (status : Status) (error : Option String) (answered : Bool)
      (rest : List (ℕ × Command)) (hphase : d.phase = .marking queueId status error answered rest) :
      Moves s i d ((s.markRow queueId status error).setPhase i d (.ready rest))

theorem moves_skips {s : Queue} {i : ℕ} {d : Drainer} {phase : Phase} (hold : d.phase.current = none)
    (hnew : phase.current = none) (hrest : phase.rest <:+ d.phase.rest) :
    Moves s i d (s.setPhase i d phase) :=
  .skips s phase hold hnew hrest (Later.refl s.rows) rfl rfl rfl

theorem moves_finished {s : Queue} {i : ℕ} {d : Drainer} (hold : d.phase.current = none) :
    Moves s i d (s.setPhase i d .finished) := moves_skips hold rfl List.nil_suffix

theorem takeRow_moves {s : Queue} {i : ℕ} {d : Drainer} {queueId : ℕ} {command : Command}
    {rest : List (ℕ × Command)} (hphase : d.phase = .ready ((queueId, command) :: rest)) :
    Moves s i d (s.takeRow i d queueId command rest) := by
  have hnone : d.phase.current = none := by
    rw [hphase]
    rfl
  have hrest : rest <:+ d.phase.rest := by
    rw [hphase]
    exact List.suffix_cons _ _
  unfold Queue.takeRow
  split
  · split
    · exact .skips (s.markOffline command.chargePointId) (.ready rest) hnone rfl hrest (Later.refl s.rows) rfl
        rfl rfl
    · split
      · exact .pushes queueId command _ rest hphase ‹_›
      · exact moves_skips hnone rfl hrest
  · split
    · exact .pushes queueId command _ rest hphase ‹_›
    · exact moves_skips hnone rfl hrest

theorem takeReply_moves {s : Queue} {i : ℕ} {d : Drainer} {queueId : ℕ} {command : Command}
    {session attempt : ℕ} {rejected : Bool} {rest : List (ℕ × Command)}
    (hphase : d.phase = .pushing queueId command session attempt rejected rest) (reply : Reply) :
    Moves s i d (s.takeReply i d queueId command session attempt rejected rest reply) := by
  have hsome : d.phase.current = some queueId := by
    rw [hphase]
    rfl
  have hrest : d.phase.rest = rest := by
    rw [hphase]
    rfl
  unfold Queue.takeReply
  split
  · exact .stays
  · split
    · exact .stays
    · split
      · refine .keeps _ hsome.symm (by rw [hsome]; rfl) hrest.symm ?_
        intro _ _ _ _ _ heq
        cases heq
      · refine .keeps _ hsome.symm (by rw [hsome]; rfl) hrest.symm ?_
        rintro _ _ _ _ _ ⟨⟩
        cases d.source with
        | consumer => exact nofun
        | replay => exact nofun
      · refine .keeps _ hsome.symm (by rw [hsome]; rfl) hrest.symm ?_
        rintro _ _ _ _ _ ⟨⟩
        exact nofun

theorem takeRaise_moves {s : Queue} {i : ℕ} {d : Drainer} {queueId : ℕ} {command : Command}
    {session attempt : ℕ} {rejected : Bool} {rest : List (ℕ × Command)}
    (hphase : d.phase = .pushing queueId command session attempt rejected rest)
    (hstays : ¬ (d.source = .consumer ∧ s.registry command.chargePointId = none)) :
    Moves s i d (s.takeRaise i d queueId command session rest) := by
  have hsome : d.phase.current = some queueId := by
    rw [hphase]
    rfl
  have hrest : d.phase.rest = rest := by
    rw [hphase]
    rfl
  simp only [Queue.takeRaise, if_neg hstays]
  split
  · exact .stays
  · split
    · refine .keeps _ hsome.symm (by rw [hsome]; rfl) hrest.symm ?_
      rintro _ _ _ _ _ ⟨⟩
      exact nofun
    · exact .stays

theorem stepDrainer_moves {s : Queue} {i : ℕ} {d : Drainer} {e : DrainEvent} (h : s.settles d e = true) :
    Moves s i d (s.stepDrainer i d e) := by
  obtain ⟨source, phase⟩ := d
  cases phase with
  | ready rest =>
    cases rest with
    | nil =>
      cases e with
      | next => exact moves_finished rfl
      | cancel => exact moves_finished rfl
      | _ => exact .stays
    | cons item rest =>
      cases e with
      | next => exact takeRow_moves rfl
      | cancel => exact moves_finished rfl
      | _ => exact .stays
  | pushing queueId command session attempt rejected rest =>
    cases e with
    | reply reply => exact takeReply_moves rfl reply
    | raises => exact takeRaise_moves rfl (of_decide_eq_true h)
    | cancel => exact absurd h Bool.false_ne_true
    | _ => exact .stays
  | marking queueId status error answered rest =>
    cases e with
    | mark => exact .marks queueId status error answered rest rfl
    | markFails => exact absurd h Bool.false_ne_true
    | cancel => exact absurd h Bool.false_ne_true
    | _ => exact .stays
  | other queueId rest =>
    cases e with
    | otherDone status =>
      cases status with
      | none => exact moves_skips rfl rfl (List.suffix_refl rest)
      | some status =>
        exact .skips (s.markRow queueId status none) (.ready rest) rfl rfl (List.suffix_refl rest)
          (later_modify_mark s.rows queueId status none) (List.length_modify _ _ _) rfl rfl
    | cancel => exact moves_finished rfl
    | _ => exact .stays
  | finished =>
    cases e with
    | cancel => exact moves_finished rfl
    | _ => exact .stays

/-! ### Counting -/

def Drainer.waits (queueId : ℕ) (d : Drainer) : ℕ :=
  d.phase.rest.countP fun p => decide (p.1 = queueId ∧ p.2.commandType = .setChargingProfile)

def Drainer.serves (queueId : ℕ) (d : Drainer) : ℕ := if d.phase.current = some queueId then 1 else 0

def Queue.waiting (s : Queue) (queueId : ℕ) : ℕ := Tasks.total (Drainer.waits queueId) s.drainers

def Queue.serving (s : Queue) (queueId : ℕ) : ℕ := Tasks.total (Drainer.serves queueId) s.drainers

def Queue.pushCount (s : Queue) (queueId : ℕ) : ℕ :=
  s.pushes.countP fun push => decide (push.queueId = queueId)

def Done (rows : List Row) (queueId : ℕ) : Prop :=
  ∃ row, rows[queueId]? = some row ∧ row.status ≠ .pending

/-- Where a row stands: it is in one batch or has been pushed once; and once it has been pushed it is not
pending any more, or the drainer that pushed it has not marked it yet. -/
structure Once (s : Queue) (queueId : ℕ) : Prop where
  atMost : s.pushCount queueId + s.waiting queueId ≤ 1
  marked : s.pushCount queueId = 0 ∨ 0 < s.serving queueId ∨ Done s.rows queueId

/-- The rows of a drainer are in the table, and what it marks a row with is final. -/
structure Drainer.Valid (length : ℕ) (d : Drainer) : Prop where
  rest : ∀ p ∈ d.phase.rest, p.1 < length
  current : ∀ queueId, d.phase.current = some queueId → queueId < length
  status : ∀ queueId status error answered rest,
    d.phase = .marking queueId status error answered rest → status ≠ .pending

structure Accounted (s : Queue) : Prop where
  once : ∀ queueId, Once s queueId
  valid : ∀ d ∈ s.drainers, d.Valid s.rows.length

theorem Done.later {rows rows' : List Row} {queueId : ℕ} (h : Done rows queueId)
    (hrows : Later rows rows') : Done rows' queueId := by
  obtain ⟨row, hrow, hdone⟩ := h
  exact ⟨row, hrows queueId row hrow hdone, hdone⟩

theorem done_mark {rows : List Row} {queueId : ℕ} (hlt : queueId < rows.length) {status : Status}
    (hstatus : status ≠ .pending) (error : Option String) :
    Done (rows.modify queueId (Row.mark status error)) queueId := by
  refine ⟨rows[queueId].mark status error, ?_, ?_⟩
  · rw [List.getElem?_modify, List.getElem?_eq_getElem hlt]
    exact congrArg some (if_pos rfl)
  · rw [Row.mark]
    split
    · exact hstatus
    · assumption

theorem waiting_setPhase {s t : Queue} {i : ℕ} {d : Drainer} (hd : s.drainers[i]? = some d)
    (hdrainers : t.drainers = s.drainers) (phase : Phase) (queueId : ℕ) :
    (t.setPhase i d phase).waiting queueId + d.waits queueId =
      s.waiting queueId + Drainer.waits queueId { d with phase := phase } := by
  rw [Queue.waiting, Queue.setPhase, hdrainers]
  exact Tasks.total_set (Drainer.waits queueId) hd _

theorem serving_setPhase {s t : Queue} {i : ℕ} {d : Drainer} (hd : s.drainers[i]? = some d)
    (hdrainers : t.drainers = s.drainers) (phase : Phase) (queueId : ℕ) :
    (t.setPhase i d phase).serving queueId + d.serves queueId =
      s.serving queueId + Drainer.serves queueId { d with phase := phase } := by
  rw [Queue.serving, Queue.setPhase, hdrainers]
  exact Tasks.total_set (Drainer.serves queueId) hd _

theorem serves_of_none {d : Drainer} (h : d.phase.current = none) (queueId : ℕ) :
    d.serves queueId = 0 := if_neg (by rw [h]; exact nofun)

theorem Once.pushes {s : Queue} {i : ℕ} {d : Drainer} {k : ℕ} (h : Once s k)
    (hd : s.drainers[i]? = some d) {queueId : ℕ} {command : Command} {rest : List (ℕ × Command)}
    (hphase : d.phase = .ready ((queueId, command) :: rest))
    (hprofile : command.commandType = .setChargingProfile) (session : ℕ) :
    Once (s.startPush i d queueId command session rest) k := by
  have hwaiting := waiting_setPhase hd (t := s) rfl (.pushing queueId command session 0 false rest) k
  have hserving := serving_setPhase hd (t := s) rfl (.pushing queueId command session 0 false rest) k
  have hwaits : d.waits k = Drainer.waits k
      { d with phase := .pushing queueId command session 0 false rest } + if queueId = k then 1 else 0 := by
    rw [Drainer.waits, hphase, Phase.rest, List.countP_cons]
    simp only [hprofile, and_true, decide_eq_true_eq]
    rfl
  have hserves : d.serves k = 0 := serves_of_none (by rw [hphase]; rfl) k
  have hserves' : Drainer.serves k { d with phase := .pushing queueId command session 0 false rest } =
      if queueId = k then 1 else 0 := by
    simp only [Drainer.serves, Phase.current, Option.some.injEq]
  have hpushes : (s.startPush i d queueId command session rest).pushCount k =
      s.pushCount k + if queueId = k then 1 else 0 := by
    rw [Queue.pushCount, Queue.startPush, List.countP_append, List.countP_singleton]
    simp only [decide_eq_true_eq]
    rfl
  have hbefore := h.atMost
  constructor
  · show _ + (s.setPhase i d _).waiting k ≤ 1
    omega
  · show _ ∨ 0 < (s.setPhase i d _).serving k ∨ Done s.rows k
    by_cases hk : queueId = k
    · rw [if_pos hk] at hserves'
      right; left
      omega
    · rw [if_neg hk] at hpushes hserves'
      rcases h.marked with hzero | hserved | hdone
      · left
        omega
      · right; left
        omega
      · right; right
        exact hdone

theorem Once.goesOn {s t : Queue} {i : ℕ} {d : Drainer} {k : ℕ} (h : Once s k)
    (hd : s.drainers[i]? = some d) {phase : Phase} (hdrainers : t.drainers = s.drainers)
    (hpushes : t.pushes = s.pushes) (hrows : Later s.rows t.rows) (hrest : phase.rest <:+ d.phase.rest)
    (hmarked : d.phase.current = some k → phase.current = some k ∨ Done t.rows k) :
    Once (t.setPhase i d phase) k := by
  have hwaiting := waiting_setPhase hd hdrainers phase k
  have hserving := serving_setPhase hd hdrainers phase k
  have hwaits : Drainer.waits k { d with phase := phase } ≤ d.waits k := hrest.sublist.countP_le
  have hcount : (t.setPhase i d phase).pushCount k = s.pushCount k := by
    show t.pushes.countP _ = _
    rw [hpushes]
    rfl
  have hbefore := h.atMost
  constructor
  · omega
  · rw [hcount]
    by_cases hcurrent : d.phase.current = some k
    · rcases hmarked hcurrent with hsame | hdone
      · right; left
        have hserves : Drainer.serves k { d with phase := phase } = 1 := if_pos hsame
        have hserves' : d.serves k = 1 := if_pos hcurrent
        have hold : 0 < s.serving k := by
          have hset := serving_setPhase hd (t := s) rfl .finished k
          have hover : Drainer.serves k { d with phase := .finished } = 0 := serves_of_none rfl k
          omega
        omega
      · exact Or.inr (Or.inr hdone)
    · have hserves : d.serves k = 0 := if_neg hcurrent
      rcases h.marked with hzero | hserved | hdone
      · exact Or.inl hzero
      · right; left
        omega
      · exact Or.inr (Or.inr (hdone.later hrows))

theorem Drainer.Valid.mono {n m : ℕ} {d : Drainer} (h : d.Valid n) (hle : n ≤ m) : d.Valid m :=
  ⟨fun p hp => (h.rest p hp).trans_le hle, fun k hk => (h.current k hk).trans_le hle, h.status⟩

theorem valid_of_suffix {n : ℕ} {d : Drainer} (h : d.Valid n) {phase : Phase}
    (hnone : phase.current = none) (hrest : phase.rest <:+ d.phase.rest) :
    Drainer.Valid n { d with phase := phase } where
  rest := fun p hp => h.rest p (hrest.subset hp)
  current := fun k hk => absurd (hnone.symm.trans hk) nofun
  status := by
    rintro queueId status error answered rest rfl
    exact absurd hnone nofun

/-- **One step of a drainer** whose pushes are marked. -/
theorem Accounted.moves {s s' : Queue} {i : ℕ} {d : Drainer} (h : Accounted s)
    (hd : s.drainers[i]? = some d) (hmoves : Moves s i d s') : Accounted s' := by
  have hvalid := h.valid d (List.mem_of_getElem? hd)
  cases hmoves with
  | stays => exact h
  | skips t phase hold hnew hrest hrows hlength hdrainers hpushes =>
    constructor
    · intro k
      exact (h.once k).goesOn hd hdrainers hpushes hrows hrest
        fun hcurrent => absurd (hold.symm.trans hcurrent) nofun
    · show ∀ d' ∈ t.drainers.set i _, Drainer.Valid t.rows.length d'
      rw [hdrainers, hlength]
      exact Tasks.forall_set h.valid (valid_of_suffix hvalid hnew hrest)
  | pushes queueId command session rest hphase hprofile =>
    have hlt : queueId < s.rows.length := hvalid.rest (queueId, command) (by rw [hphase]; simp [Phase.rest])
    constructor
    · exact fun k => (h.once k).pushes hd hphase hprofile session
    · refine Tasks.forall_set h.valid ⟨?_, ?_, nofun⟩
      · intro p hp
        exact hvalid.rest p (by rw [hphase]; exact List.mem_cons_of_mem _ hp)
      · intro k hk
        obtain rfl : queueId = k := Option.some.inj hk
        exact hlt
  | keeps phase hcurrent hsome hrest hstatus =>
    constructor
    · intro k
      exact (h.once k).goesOn hd rfl rfl (Later.refl s.rows) (hrest ▸ List.suffix_refl _)
        fun hk => Or.inl (hcurrent.trans hk)
    · refine Tasks.forall_set h.valid ⟨?_, ?_, hstatus⟩
      · intro p hp
        exact hvalid.rest p (hrest ▸ hp)
      · intro k hk
        exact hvalid.current k (hcurrent ▸ hk)
  | marks queueId status error answered rest hphase =>
    have hrest : (Phase.ready rest).rest <:+ d.phase.rest := by
      rw [hphase]
      exact List.suffix_refl rest
    constructor
    · intro k
      refine (h.once k).goesOn hd rfl rfl (later_modify_mark s.rows queueId status error) hrest ?_
      intro hcurrent
      rw [hphase] at hcurrent
      obtain rfl : queueId = k := Option.some.inj hcurrent
      right
      exact done_mark (hvalid.current queueId (by rw [hphase]; rfl))
        (hvalid.status queueId status error answered rest hphase) error
    · show ∀ d' ∈ s.drainers.set i _, Drainer.Valid (s.rows.modify _ _).length d'
      rw [List.length_modify]
      exact Tasks.forall_set h.valid (valid_of_suffix hvalid rfl hrest)

/-! ### Fetches -/

theorem mem_select {rows : List Row} {p : Row → Bool} {item : ℕ × Command} :
    item ∈ select rows p ↔ ∃ row, rows[item.1]? = some row ∧ p row = true ∧ row.command = item.2 := by
  rw [select, List.mem_map]
  constructor
  · rintro ⟨⟨row, k⟩, hmem, rfl⟩
    obtain ⟨hrow, hp⟩ := List.mem_filter.1 hmem
    exact ⟨row, List.mem_zipIdx_iff_getElem?.1 hrow, hp, rfl⟩
  · rintro ⟨row, hrow, hp, hcommand⟩
    exact ⟨(row, item.1), List.mem_filter.2 ⟨List.mem_zipIdx_iff_getElem?.2 hrow, hp⟩,
      Prod.ext rfl hcommand⟩

theorem countP_select_le (rows : List Row) (p : Row → Bool) (queueId : ℕ) :
    (select rows p).countP (fun q => decide (q.1 = queueId)) ≤ 1 := by
  have hnodup : ((select rows p).map Prod.fst).Nodup := by
    rw [select, List.map_map]
    have hindices : (rows.zipIdx.map Prod.snd).Nodup := by
      rw [List.zipIdx_map_snd]
      exact List.nodup_range'
    exact hindices.sublist (List.filter_sublist.map Prod.snd)
  have hcount := List.nodup_iff_count_le_one.1 hnodup queueId
  rw [List.count, List.countP_map] at hcount
  exact hcount

/-- The drainer has the row in its batch, or has pushed it and not marked it. -/
def Drainer.holds (d : Drainer) (queueId : ℕ) : Bool :=
  decide (d.phase.current = some queueId) ||
    d.phase.rest.any fun p => decide (p.1 = queueId ∧ p.2.commandType = .setChargingProfile)

def Queue.unheld (s : Queue) (batch : List (ℕ × Command)) : Bool :=
  batch.all fun p => decide (p.2.commandType = .setChargingProfile → ∀ d ∈ s.drainers, d.holds p.1 = false)

theorem waits_of_not_holds {d : Drainer} {queueId : ℕ} (h : d.holds queueId = false) :
    d.waits queueId = 0 := by
  rw [Drainer.holds, Bool.or_eq_false_iff] at h
  rw [Drainer.waits, List.countP_eq_zero]
  intro p hp hmatch
  exact absurd (List.any_eq_true.2 ⟨p, hp, hmatch⟩) (by rw [h.2]; exact Bool.false_ne_true)

theorem serves_of_not_holds {d : Drainer} {queueId : ℕ} (h : d.holds queueId = false) :
    d.serves queueId = 0 := by
  rw [Drainer.holds, Bool.or_eq_false_iff] at h
  exact if_neg (of_decide_eq_false h.1)

theorem Accounted.unpushed {s : Queue} (h : Accounted s) {k : ℕ} (hfree : ∀ d ∈ s.drainers, d.holds k = false)
    {row : Row} (hrow : s.rows[k]? = some row) (hpending : row.status = .pending) : s.pushCount k = 0 := by
  have hidle : s.serving k = 0 := Tasks.total_eq_zero fun d hd => serves_of_not_holds (hfree d hd)
  rcases (h.once k).marked with hzero | hserved | ⟨row', hrow', hdone⟩
  · exact hzero
  · omega
  · rw [hrow, Option.some.injEq] at hrow'
    exact absurd (hrow' ▸ hpending) hdone

theorem Accounted.fetches {s : Queue} (h : Accounted s) {batch : List (ℕ × Command)}
    (hunheld : s.unheld batch = true) (source : Source)
    (honce : ∀ queueId, batch.countP (fun q => decide (q.1 = queueId)) ≤ 1)
    (hpending : ∀ p ∈ batch, ∃ row, s.rows[p.1]? = some row ∧ row.status = .pending) :
    Accounted { s with drainers := s.drainers ++ [{ source := source, phase := .ready batch }] } := by
  constructor
  · intro k
    have hwaiting : Tasks.total (Drainer.waits k)
        (s.drainers ++ [{ source := source, phase := .ready batch }]) =
        s.waiting k + Drainer.waits k { source := source, phase := .ready batch } := Tasks.total_concat _ _ _
    have hserving : Tasks.total (Drainer.serves k)
        (s.drainers ++ [{ source := source, phase := .ready batch }]) = s.serving k := by
      rw [Tasks.total_concat, serves_of_none rfl, add_zero]
      rfl
    refine ⟨?_, ?_⟩
    · show s.pushCount k + Tasks.total (Drainer.waits k) _ ≤ 1
      rw [hwaiting]
      by_cases hin : ∃ p ∈ batch, p.1 = k ∧ p.2.commandType = .setChargingProfile
      · obtain ⟨p, hp, rfl, hprofile⟩ := hin
        have hfree := of_decide_eq_true (List.all_eq_true.1 hunheld p hp) hprofile
        have hnone : s.waiting p.1 = 0 :=
          Tasks.total_eq_zero fun d hd => waits_of_not_holds (hfree d hd)
        have hnew : Drainer.waits p.1 { source := source, phase := .ready batch } ≤ 1 := by
          refine (List.countP_mono_left fun q _ hq => ?_).trans (honce p.1)
          exact decide_eq_true (of_decide_eq_true hq).1
        obtain ⟨row, hrow, hstatus⟩ := hpending p hp
        have hpushed := h.unpushed hfree hrow hstatus
        omega
      · have hnew : Drainer.waits k { source := source, phase := .ready batch } = 0 := by
          refine List.countP_eq_zero.2 fun q hq hmatch => hin ⟨q, hq, of_decide_eq_true hmatch⟩
        have hbefore := (h.once k).atMost
        omega
    · rcases (h.once k).marked with hzero | hserved | hdone
      · exact Or.inl hzero
      · right; left
        exact hserved.trans_eq hserving.symm
      · exact Or.inr (Or.inr hdone)
  · refine Tasks.forall_concat h.valid ⟨?_, nofun, nofun⟩
    intro p hp
    obtain ⟨row, hrow, -⟩ := hpending p hp
    exact (List.getElem?_eq_some_iff.1 hrow).1

/-! ### Runs -/

/-- Fetches return no row that another drainer holds, and pushes end with their row being marked. -/
def exclusive (s : Queue) : Event → Bool
  | .drain => s.unheld s.fetchPendingCommandsAll
  | .replay session =>
    match s.sessions[session]? with
    | some found => decide (found.version ≠ .ocpp16) || s.unheld (s.fetchPendingCommands found.chargePointId)
    | none => true
  | .drainer i e =>
    match s.drainers[i]? with
    | some d => s.settles d e
    | none => true
  | _ => true

theorem pending_of_isDue {now : ℤ} {row : Row} (h : row.isDue now = true) : row.status = .pending :=
  (of_decide_eq_true h).1

theorem pending_of_mem_select {s : Queue} {p : Row → Bool} (hp : ∀ row, p row = true → row.isDue s.now = true)
    {item : ℕ × Command} (hitem : item ∈ select s.rows p) :
    ∃ row, s.rows[item.1]? = some row ∧ row.status = .pending := by
  obtain ⟨row, hrow, hselected, -⟩ := mem_select.1 hitem
  exact ⟨row, hrow, pending_of_isDue (hp row hselected)⟩

theorem Accounted.drains {s : Queue} (h : Accounted s)
    (hunheld : s.unheld s.fetchPendingCommandsAll = true) : Accounted (CommandQueue.step s .drain) := by
  refine h.fetches hunheld .consumer (fun k => ?_) fun p hp => ?_
  · exact ((List.take_sublist _ _).countP_le).trans (countP_select_le s.rows _ k)
  · refine pending_of_mem_select (fun row hrow => ?_) (List.mem_of_mem_take hp)
    exact (Bool.and_eq_true_iff.1 hrow).2

theorem Accounted.replays {s : Queue} (h : Accounted s) {session : ℕ} {chargePointId : String}
    (hunheld : s.unheld (s.fetchPendingCommands chargePointId) = true) :
    Accounted { s with drainers := s.drainers ++
      [{ source := .replay session, phase := .ready (s.fetchPendingCommands chargePointId) }] } := by
  refine h.fetches hunheld (.replay session) (countP_select_le s.rows _) fun p hp => ?_
  exact pending_of_mem_select (fun row hrow => (Bool.and_eq_true_iff.1 hrow).2) hp

theorem Accounted.rows {s t : Queue} (h : Accounted s) (hrows : Later s.rows t.rows)
    (hlength : s.rows.length ≤ t.rows.length) (hdrainers : t.drainers = s.drainers)
    (hpushes : t.pushes = s.pushes) : Accounted t := by
  constructor
  · intro k
    constructor
    · rw [Queue.pushCount, Queue.waiting, hpushes, hdrainers]
      exact (h.once k).atMost
    · rw [Queue.pushCount, Queue.serving, hpushes, hdrainers]
      exact (h.once k).marked.imp id fun hlater => hlater.imp id fun hdone => hdone.later hrows
  · rw [hdrainers]
    exact fun d hd => (h.valid d hd).mono hlength

theorem Accounted.step {s : Queue} (h : Accounted s) (e : Event) (hexclusive : exclusive s e = true) :
    Accounted (step s e) := by
  cases e with
  | enqueue command expiresInMin =>
    exact h.rows (later_concat s.rows _) (by simp [CommandQueue.step]) rfl rfl
  | notify payload => exact h.rows (Later.refl s.rows) le_rfl rfl rfl
  | pass seconds => exact h.rows (Later.refl s.rows) le_rfl rfl rfl
  | connect chargePointId version => exact h.rows (Later.refl s.rows) le_rfl rfl rfl
  | drop session => exact h.rows (Later.refl s.rows) le_rfl rfl rfl
  | cleanUp session => exact h.rows (Later.refl s.rows) le_rfl rfl rfl
  | drain => exact h.drains hexclusive
  | replay session =>
    rw [exclusive] at hexclusive
    rw [CommandQueue.step]
    split
    · rename_i found hfound
      rw [hfound] at hexclusive
      split
      · rename_i hversion
        refine h.replays ?_
        simpa [hversion] using hexclusive
      · exact h
    · exact h
  | expire => exact h.rows (later_map_expire s.rows s.now) (by simp [CommandQueue.step]) rfl rfl
  | drainer i e =>
    rw [exclusive] at hexclusive
    rw [CommandQueue.step]
    split
    · rename_i d hd
      rw [hd] at hexclusive
      exact h.moves hd (stepDrainer_moves hexclusive)
    · exact h

theorem takeRow_rows (s : Queue) (i : ℕ) (d : Drainer) (queueId : ℕ) (command : Command)
    (rest : List (ℕ × Command)) : (s.takeRow i d queueId command rest).rows = s.rows := by
  unfold Queue.takeRow
  split
  · split
    · rfl
    · split
      · rfl
      · rfl
  · split
    · rfl
    · rfl

theorem takeReply_rows (s : Queue) (i : ℕ) (d : Drainer) (queueId : ℕ) (command : Command)
    (session attempt : ℕ) (rejected : Bool) (rest : List (ℕ × Command)) (reply : Reply) :
    (s.takeReply i d queueId command session attempt rejected rest reply).rows = s.rows := by
  unfold Queue.takeReply
  split
  · rfl
  · split
    · rfl
    · split
      · rfl
      · rfl
      · rfl

theorem takeRaise_rows (s : Queue) (i : ℕ) (d : Drainer) (queueId : ℕ) (command : Command)
    (session : ℕ) (rest : List (ℕ × Command)) :
    (s.takeRaise i d queueId command session rest).rows = s.rows := by
  unfold Queue.takeRaise
  split
  · rfl
  · split
    · split
      · rfl
      · rfl
    · rfl

theorem stepDrainer_rows (s : Queue) (i : ℕ) (d : Drainer) (e : DrainEvent) :
    (s.stepDrainer i d e).rows = s.rows ∨
      (∃ queueId status error answered rest, d.phase = .marking queueId status error answered rest ∧
        (s.stepDrainer i d e).rows = s.rows.modify queueId (Row.mark status error)) ∨
      ∃ queueId status rest, d.phase = .other queueId rest ∧
        (s.stepDrainer i d e).rows = s.rows.modify queueId (Row.mark status none) := by
  unfold Queue.stepDrainer
  split
  · exact Or.inl rfl
  · exact Or.inl (takeRow_rows s i d _ _ _)
  · exact Or.inl (takeReply_rows s i d _ _ _ _ _ _ _)
  · exact Or.inl (takeRaise_rows s i d _ _ _ _)
  · rename_i queueId status error answered rest hphase
    exact Or.inr (Or.inl ⟨queueId, status, error, answered, rest, hphase, rfl⟩)
  · exact Or.inl rfl
  · rename_i queueId rest status hphase
    cases status with
    | none => exact Or.inl rfl
    | some status => exact Or.inr (Or.inr ⟨queueId, status, rest, hphase, rfl⟩)
  · exact Or.inl rfl
  · exact Or.inl rfl

theorem step_later (s : Queue) (e : Event) : Later s.rows (step s e).rows := by
  cases e with
  | enqueue command expiresInMin => exact later_concat s.rows _
  | expire => exact later_map_expire s.rows s.now
  | replay session =>
    rw [step]
    split
    · split
      · exact Later.refl s.rows
      · exact Later.refl s.rows
    · exact Later.refl s.rows
  | drainer i e =>
    rw [step]
    split
    · rename_i d _
      rcases stepDrainer_rows s i d e with hsame | ⟨_, _, _, _, _, -, hmark⟩ | ⟨_, _, _, -, hmark⟩
      · rw [hsame]
        exact Later.refl s.rows
      · rw [hmark]
        exact later_modify_mark s.rows _ _ _
      · rw [hmark]
        exact later_modify_mark s.rows _ _ _
    · exact Later.refl s.rows
  | _ => exact Later.refl s.rows

theorem accounted_init : Accounted Queue.init where
  once := fun _ => ⟨Nat.zero_le 1, Or.inl rfl⟩
  valid := fun _ hd => (List.not_mem_nil hd).elim

/-- Every row has been pushed at most once, by the consumer and by all replays together. -/
def PushedOnce (s : Queue) : Prop := ∀ queueId, s.pushCount queueId ≤ 1

/-- **The queue.**  In every run a row that has left `pending` is not changed any more.  In every run in which
no fetch returns a profile row that a drainer still holds, and no push ends without its row being marked,
every row is pushed at most once. -/
theorem rows_final_and_pushed_once (events : List Event) :
    Run.Along step (fun s e => Later s.rows (step s e).rows) Queue.init events ∧
      (Run.Along step (fun s e => exclusive s e = true) Queue.init events →
        Run.Along step (fun s e => PushedOnce (step s e)) Queue.init events) := by
  constructor
  · exact Run.Along.of_forall fun s e => step_later s e
  · refine Run.Along.imp (fun s e hexclusive hs => ?_) accounted_init
    have hnext := hs.step e hexclusive
    refine ⟨fun k => ?_, hnext⟩
    exact (Nat.le_add_right _ _).trans (hnext.once k).atMost

def enqueuedAndConnected : List Event :=
  [.enqueue { chargePointId := "depot-1", connectorId := 1 } 60, .connect "depot-1" .ocpp16]

/-- The replay pushes and marks the row before the consumer fetches. -/
theorem replayed_row_pushed_once :
    Run.Along step (fun s e => PushedOnce (step s e)) Queue.init
      (enqueuedAndConnected ++ [.replay 0, .drainer 0 .next, .drainer 0 (.reply .accepted), .drainer 0 .mark,
        .drain, .drainer 1 .next]) :=
  (rows_final_and_pushed_once _).2 (by decide)

/-- The consumer and the replay of the boot both fetch the row, and both push it. -/
theorem consumer_and_replay_both_push :
    ¬ Run.Along step (fun s e => PushedOnce (step s e)) Queue.init
      (enqueuedAndConnected ++ [.drain, .replay 0, .drainer 0 .next, .drainer 1 .next]) := by
  rintro ⟨-, -, -, -, -, hpushed, -⟩
  exact absurd (hpushed 0) (by decide)

end FavoniusBackend.Ocpp.CommandQueue
