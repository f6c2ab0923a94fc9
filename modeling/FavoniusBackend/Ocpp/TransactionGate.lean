import FavoniusBackend.Lib.Dict
import FavoniusBackend.Lib.Run

/-!
# One transaction per connector

A StartTransaction of an OCPP 1.6 charge point is accepted if no transaction is under way on its connector.
The session keeps the transactions of its connectors in memory and asks the database whether the one it
remembers is still open; if not, it forgets it.  A transaction whose row could not be written is remembered
as one that is in memory only.

The messages of a charge point are processed one after another, so that a message is one step; which calls of
the database fail is part of the message.  Beside the state stands what has been accepted, and what has become
of it.
-/

namespace FavoniusBackend.Ocpp.TransactionGate

open Lib

/-- The answers to a StartTransaction; `refused` stands for the ones that the authorization gives. -/
inductive AuthorizationStatus
  | accepted
  | concurrentTx
  | refused
  deriving DecidableEq, Repr

/-- How `authorize` ends. -/
inductive Authorization
  | accepts
  | refuses
  | raises
  deriving DecidableEq, Repr

/-- A row of `charging_sessions` of this station with source `live`; it is open while it has no end time. -/
structure SessionRow where
  transactionId : ℕ
  connectorId : ℕ
  isOpen : Bool := true
  deriving DecidableEq, Repr

/-- An accepted transaction: whether its id came from the sequence with the start stashed, whether its row was
written, and whether it has been stopped by the charger or closed in the database. -/
structure Accepted where
  connectorId : ℕ
  transactionId : ℕ
  sequenced : Bool
  durable : Bool
  stopped : Bool := false
  closed : Bool := false
  deriving DecidableEq, Repr

/-- `FleetChargePoint` with its session, the rows of the station, the sequence `ocpp_transaction_id` and the
counter of `TransactionIdGenerator`. -/
structure Station where
  transactions : Dict ℕ ℕ := .empty
  currentTransactionId : Option ℕ := none
  inMemoryOnlyTxIds : List ℕ := []
  rows : List SessionRow := []
  sequence : ℕ
  counter : ℕ
  accepted : List Accepted := []

/-- The station connects: the boot reload has filled `transactions` from the rows. -/
def Station.init (transactions : Dict ℕ ℕ) (rows : List SessionRow) (sequence counter : ℕ) : Station :=
  { transactions := transactions, rows := rows, sequence := sequence, counter := counter }

/-- A StartTransaction, with whether `is_transaction_open` works, how `authorize` ends, how many ids other
charge points have taken from the sequence and from the counter (`nextId` is `none` if `next_transaction_id`
fails) and whether `insert_open_session` works. -/
structure Start where
  connectorId : ℕ
  checkWorks : Bool := true
  authorization : Authorization := .accepts
  nextId : Option ℕ := some 0
  counterAhead : ℕ := 0
  insertWorks : Bool := true
  deriving DecidableEq, Repr

def Station.isTransactionOpen (s : Station) (transactionId : ℕ) : Bool :=
  s.rows.any fun row => decide (row.transactionId = transactionId) && row.isOpen

def Station.heal (s : Station) (connectorId staleTxId : ℕ) : Station :=
  { s with
    transactions := s.transactions.erase connectorId
    currentTransactionId := if s.currentTransactionId = some staleTxId then none else s.currentTransactionId
    inMemoryOnlyTxIds := s.inMemoryOnlyTxIds.filter fun id => id ≠ staleTxId }

/-- The first check of `_on_transaction_start`; `none` is ConcurrentTx. -/
def Station.gate (s : Station) (m : Start) : Option Station :=
  match s.transactions.get? m.connectorId with
  | none => some s
  | some staleTxId =>
    if !m.checkWorks then none
    else if s.isTransactionOpen staleTxId then none
    else if staleTxId ∈ s.inMemoryOnlyTxIds then none
    else some (s.heal m.connectorId staleTxId)

/-- How `_on_transaction_start` ends: it answers, or it has stashed the start and accepts, or it raises. -/
inductive Callback
  | answers (status : AuthorizationStatus)
  | stashes
  | raises
  deriving DecidableEq, Repr

def Station.onTransactionStart (s : Station) (m : Start) : Station × Callback :=
  match s.gate m with
  | none => (s, .answers .concurrentTx)
  | some healed =>
    match m.authorization with
    | .refuses => (healed, .answers .refused)
    | .raises => (healed, .raises)
    | .accepts =>
      if m.connectorId ∈ healed.transactions then (healed, .answers .concurrentTx)
      else (healed, .stashes)

/-- `insert_open_session`: a row that is open already is not inserted again. -/
def Station.insertOpenSession (s : Station) (transactionId connectorId : ℕ) : Station :=
  if s.isTransactionOpen transactionId then s
  else { s with rows := s.rows ++ [{ transactionId := transactionId, connectorId := connectorId }] }

def Station.addInMemoryOnly (s : Station) (transactionId : ℕ) : Station :=
  { s with inMemoryOnlyTxIds := transactionId :: s.inMemoryOnlyTxIds }

def Station.discardInMemoryOnly (s : Station) (transactionId : ℕ) : Station :=
  { s with inMemoryOnlyTxIds := s.inMemoryOnlyTxIds.filter fun id => id ≠ transactionId }

def Station.nextTransactionId (s : Station) (m : Start) (stashed : Bool) : Station × Option ℕ :=
  match m.nextId with
  | none =>
    if stashed then
      match s.transactions.get? m.connectorId with
      | some fallbackTxId => (s.addInMemoryOnly fallbackTxId, none)
      | none => (s, none)
    else (s, none)
  | some ahead =>
    let txId := s.sequence + ahead
    let drawn := { s with sequence := txId + 1 }
    if stashed then
      if m.insertWorks then
        ((drawn.insertOpenSession txId m.connectorId).discardInMemoryOnly txId, some txId)
      else (drawn.addInMemoryOnly txId, some txId)
    else (drawn, some txId)

def Station.newest (s : Station) (m : Start) (stashed : Bool) : Accepted :=
  let next := s.nextTransactionId m stashed
  { connectorId := m.connectorId
    transactionId := next.2.getD (next.1.counter + m.counterAhead + 1)
    sequenced := stashed && next.2.isSome
    durable := stashed && next.2.isSome && m.insertWorks }

def Station.accept (s : Station) (m : Start) (stashed : Bool) : Station :=
  let next := s.nextTransactionId m stashed
  let txId := (s.newest m stashed).transactionId
  { next.1 with
    counter := if next.2.isSome then next.1.counter else txId
    transactions := next.1.transactions.set m.connectorId txId
    currentTransactionId := some txId
    accepted := next.1.accepted ++ [s.newest m stashed] }

/-- `on_start_transaction`: if the callback raises, the start is accepted. -/
def Station.onStartTransaction (s : Station) (m : Start) : Station × AuthorizationStatus :=
  match s.onTransactionStart m with
  | (s', .answers status) => (s', status)
  | (s', .stashes) => (s'.accept m true, .accepted)
  | (s', .raises) => (s'.accept m false, .accepted)

def Station.closeRows (s : Station) (transactionId : ℕ) : Station :=
  { s with rows := s.rows.map fun row =>
      if row.transactionId = transactionId then { row with isOpen := false } else row }

/-- The loop of `on_stop_transaction`: the first connector with the transaction loses it. -/
def Station.forget (s : Station) (transactionId : ℕ) : Station :=
  match s.transactions.items.find? fun p => decide (p.2 = transactionId) with
  | some p => { s with transactions := s.transactions.erase p.1 }
  | none => s

/-- `on_stop_transaction` and `_on_transaction_stop`, with whether `close_open_session` works. -/
def Station.onStopTransaction (s : Station) (transactionId : ℕ) (closeWorks : Bool) : Station :=
  let forgotten := s.forget transactionId
  let closed := if closeWorks then forgotten.closeRows transactionId else forgotten
  { closed.discardInMemoryOnly transactionId with
    currentTransactionId :=
      if s.currentTransactionId = some transactionId then none else s.currentTransactionId
    accepted := s.accepted.map fun a =>
      if a.transactionId = transactionId then { a with stopped := true } else a }

def Station.recover (s : Station) (transactionId : ℕ) : Station :=
  { s.closeRows transactionId with
    accepted := s.accepted.map fun a =>
      if a.transactionId = transactionId ∧ a.durable = true then { a with closed := true } else a }

inductive Event
  | start (m : Start)
  | stop (transactionId : ℕ) (closeWorks : Bool)
  | recover (transactionId : ℕ)
  deriving DecidableEq, Repr

def step (s : Station) : Event → Station
  | .start m => (s.onStartTransaction m).1
  | .stop transactionId closeWorks => s.onStopTransaction transactionId closeWorks
  | .recover transactionId => s.recover transactionId

/-! ## What is known of an accepted transaction -/

def Accepted.Live (a : Accepted) : Prop := a.stopped = false ∧ a.closed = false

instance (a : Accepted) : Decidable a.Live :=
  inferInstanceAs (Decidable (a.stopped = false ∧ a.closed = false))

/-- The station remembers a live transaction; if its id came from the sequence, the gate can see that it is
live: its row is open, or it is known as one that is in memory only. -/
structure Sound (s : Station) (a : Accepted) : Prop where
  drawn : a.sequenced = true → a.transactionId < s.sequence
  remembered : a.Live → s.transactions.get? a.connectorId = some a.transactionId
  written : a.Live → a.sequenced = true → a.durable = true → s.isTransactionOpen a.transactionId = true
  unwritten : a.Live → a.sequenced = true → a.durable = false → a.transactionId ∈ s.inMemoryOnlyTxIds

def Inv (s : Station) : Prop := ∀ a ∈ s.accepted, Sound s a

variable {s s' : Station} {m : Start} {a : Accepted} {transactionId connectorId : ℕ}

theorem Sound.seen (h : Sound s a) (hlive : a.Live) (hseq : a.sequenced = true) :
    s.isTransactionOpen a.transactionId = true ∨ a.transactionId ∈ s.inMemoryOnlyTxIds := by
  cases hdurable : a.durable with
  | true => exact Or.inl (h.written hlive hseq hdurable)
  | false => exact Or.inr (h.unwritten hlive hseq hdurable)

theorem isTransactionOpen_iff : s.isTransactionOpen transactionId = true ↔
    ∃ row ∈ s.rows, row.transactionId = transactionId ∧ row.isOpen = true := by
  simp [Station.isTransactionOpen]

/-! ## The gate -/

theorem gate_cases (h : s.gate m = some s') :
    (s.transactions.get? m.connectorId = none ∧ s' = s) ∨
    ∃ staleTxId, s.transactions.get? m.connectorId = some staleTxId ∧ m.checkWorks = true ∧
      s.isTransactionOpen staleTxId = false ∧ staleTxId ∉ s.inMemoryOnlyTxIds ∧
      s' = s.heal m.connectorId staleTxId := by
  rw [Station.gate] at h
  cases htx : s.transactions.get? m.connectorId with
  | none =>
    rw [htx] at h
    exact Or.inl ⟨rfl, (Option.some.inj h).symm⟩
  | some staleTxId =>
    rw [htx] at h
    dsimp only at h
    split at h
    · cases h
    · rename_i hcheck
      split at h
      · cases h
      · rename_i hopen
        split at h
        · cases h
        · rename_i hmem
          exact Or.inr ⟨staleTxId, rfl, by simpa using hcheck, by simpa using hopen, hmem,
            (Option.some.inj h).symm⟩

/-- Forgetting a transaction that the gate does not see does no harm to the others. -/
theorem Sound.heal (h : Sound s a) {staleTxId : ℕ} (hmem : staleTxId ∉ s.inMemoryOnlyTxIds)
    (hother : a.connectorId = connectorId → ¬ a.Live) :
    Sound (s.heal connectorId staleTxId) a where
  drawn := h.drawn
  remembered hlive := by
    have hne : a.connectorId ≠ connectorId := fun he => hother he hlive
    show (s.transactions.erase connectorId).get? a.connectorId = some a.transactionId
    rw [Dict.get?_erase, if_neg hne]
    exact h.remembered hlive
  written := h.written
  unwritten hlive hseq hdurable := by
    have hin := h.unwritten hlive hseq hdurable
    have hne : a.transactionId ≠ staleTxId := fun he => hmem (he ▸ hin)
    exact List.mem_filter.2 ⟨hin, decide_eq_true hne⟩

/-- What the answer of the gate rests on: when the check works, no transaction of the connector whose id did not
come from the sequence is still under way. -/
def GateKnows (s : Station) : Event → Bool
  | .start m => !m.checkWorks || s.accepted.all fun a =>
    decide (a.connectorId ≠ m.connectorId) || a.sequenced || a.stopped
  | _ => true

theorem gateKnows_start (h : GateKnows s (.start m) = true) (hcheck : m.checkWorks = true)
    (ha : a ∈ s.accepted) (hc : a.connectorId = m.connectorId) (hseq : a.sequenced = false) :
    a.stopped = true := by
  simp only [GateKnows, hcheck, Bool.not_true, Bool.false_or, List.all_eq_true] at h
  simpa [hc, hseq] using h a ha

/-- **The gate.**  What passes it finds no live transaction on the connector. -/
theorem Inv.not_live (hinv : Inv s) (hknows : GateKnows s (.start m) = true) (h : s.gate m = some s')
    (ha : a ∈ s.accepted) (hc : a.connectorId = m.connectorId) : ¬ a.Live := by
  intro hlive
  have hsome := (hinv a ha).remembered hlive
  rw [hc] at hsome
  obtain ⟨hnone, -⟩ | ⟨staleTxId, hstale, hcheck, hopen, hmem, -⟩ := gate_cases h
  · rw [hnone] at hsome
    cases hsome
  · have hid : staleTxId = a.transactionId := Option.some.inj (hstale.symm.trans hsome)
    subst hid
    cases hseq : a.sequenced with
    | false =>
      have hstopped := gateKnows_start hknows hcheck ha hc hseq
      exact Bool.false_ne_true (hlive.1.symm.trans hstopped)
    | true =>
      rcases (hinv a ha).seen hlive hseq with hrow | hin
      · exact Bool.false_ne_true (hopen.symm.trans hrow)
      · exact hmem hin

theorem gate_accepted (h : s.gate m = some s') : s'.accepted = s.accepted := by
  obtain ⟨-, rfl⟩ | ⟨_, -, -, -, -, rfl⟩ := gate_cases h
  · rfl
  · rfl

theorem Inv.gate (hinv : Inv s) (hknows : GateKnows s (.start m) = true) (h : s.gate m = some s') :
    Inv s' := by
  intro a ha
  rw [gate_accepted h] at ha
  have hother := fun hc => hinv.not_live hknows h ha hc
  obtain ⟨-, rfl⟩ | ⟨staleTxId, -, -, -, hmem, rfl⟩ := gate_cases h
  · exact hinv a ha
  · exact (hinv a ha).heal hmem hother

/-! ## The id of an accepted start -/

theorem Sound.addInMemoryOnly (h : Sound s a) : Sound (s.addInMemoryOnly transactionId) a where
  drawn := h.drawn
  remembered := h.remembered
  written := h.written
  unwritten hlive hseq hdurable := List.mem_cons_of_mem _ (h.unwritten hlive hseq hdurable)

theorem Sound.discardInMemoryOnly (h : Sound s a)
    (hne : a.Live → a.sequenced = true → a.transactionId ≠ transactionId) :
    Sound (s.discardInMemoryOnly transactionId) a where
  drawn := h.drawn
  remembered := h.remembered
  written := h.written
  unwritten hlive hseq hdurable :=
    List.mem_filter.2 ⟨h.unwritten hlive hseq hdurable, decide_eq_true (hne hlive hseq)⟩

theorem insertOpenSession_opens (s : Station) (transactionId connectorId : ℕ) :
    (s.insertOpenSession transactionId connectorId).isTransactionOpen transactionId = true := by
  rw [Station.insertOpenSession]
  split
  · assumption
  · exact isTransactionOpen_iff.2 ⟨_, List.mem_append_right _ (List.mem_singleton_self _), rfl, rfl⟩

theorem insertOpenSession_eq (s : Station) (transactionId connectorId : ℕ) :
    ∃ rows, s.insertOpenSession transactionId connectorId = { s with rows := s.rows ++ rows } := by
  rw [Station.insertOpenSession]
  split
  · exact ⟨[], by rw [List.append_nil]⟩
  · exact ⟨_, rfl⟩

theorem Sound.insertOpenSession (h : Sound s a) : Sound (s.insertOpenSession transactionId connectorId) a := by
  obtain ⟨rows, heq⟩ := insertOpenSession_eq s transactionId connectorId
  rw [heq]
  refine ⟨h.drawn, h.remembered, ?_, h.unwritten⟩
  intro hlive hseq hdurable
  obtain ⟨row, hrow, hid⟩ := isTransactionOpen_iff.1 (h.written hlive hseq hdurable)
  exact isTransactionOpen_iff.2 ⟨row, List.mem_append_left _ hrow, hid⟩

theorem Sound.draw (h : Sound s a) {sequence : ℕ} (hle : s.sequence ≤ sequence) :
    Sound { s with sequence := sequence } a where
  drawn hseq := Nat.lt_of_lt_of_le (h.drawn hseq) hle
  remembered := h.remembered
  written := h.written
  unwritten := h.unwritten

theorem nextTransactionId_keeps (s : Station) (m : Start) (stashed : Bool) :
    (s.nextTransactionId m stashed).1.transactions = s.transactions ∧
      (s.nextTransactionId m stashed).1.accepted = s.accepted := by
  rw [Station.nextTransactionId]
  cases m.nextId with
  | none =>
    dsimp only
    split
    · cases s.transactions.get? m.connectorId with
      | none => exact ⟨rfl, rfl⟩
      | some fallbackTxId => exact ⟨rfl, rfl⟩
    · exact ⟨rfl, rfl⟩
  | some ahead =>
    dsimp only
    split
    · split
      · obtain ⟨rows, heq⟩ := insertOpenSession_eq { s with sequence := s.sequence + ahead + 1 }
          (s.sequence + ahead) m.connectorId
        rw [heq]
        exact ⟨rfl, rfl⟩
      · exact ⟨rfl, rfl⟩
    · exact ⟨rfl, rfl⟩

theorem Sound.nextTransactionId (h : Sound s a) (stashed : Bool) :
    Sound (s.nextTransactionId m stashed).1 a := by
  rw [Station.nextTransactionId]
  cases m.nextId with
  | none =>
    dsimp only
    split
    · cases s.transactions.get? m.connectorId with
      | none => exact h
      | some fallbackTxId => exact h.addInMemoryOnly
    · exact h
  | some ahead =>
    have hdrawn : Sound { s with sequence := s.sequence + ahead + 1 } a := h.draw (by omega)
    dsimp only
    split
    · split
      · refine hdrawn.insertOpenSession.discardInMemoryOnly ?_
        intro _ hseq
        have hlt := h.drawn hseq
        omega
      · exact hdrawn.addInMemoryOnly
    · exact hdrawn

theorem nextTransactionId_seen {ahead : ℕ} (hnext : m.nextId = some ahead) :
    (s.nextTransactionId m true).2 = some (s.sequence + ahead) ∧
      s.sequence + ahead < (s.nextTransactionId m true).1.sequence ∧
      (m.insertWorks = true → (s.nextTransactionId m true).1.isTransactionOpen (s.sequence + ahead) = true) ∧
      (m.insertWorks = false → s.sequence + ahead ∈ (s.nextTransactionId m true).1.inMemoryOnlyTxIds) := by
  have hopens := insertOpenSession_opens { s with sequence := s.sequence + ahead + 1 } (s.sequence + ahead)
    m.connectorId
  obtain ⟨rows, heq⟩ := insertOpenSession_eq { s with sequence := s.sequence + ahead + 1 }
    (s.sequence + ahead) m.connectorId
  rw [heq] at hopens
  rw [Station.nextTransactionId, hnext]
  cases m.insertWorks with
  | true =>
    simp only [if_true, heq]
    exact ⟨trivial, Nat.lt_succ_self _, fun _ => hopens, fun h => absurd h (by decide)⟩
  | false =>
    exact ⟨rfl, Nat.lt_succ_self _, fun h => absurd h (by decide), fun _ => List.mem_cons_self⟩

theorem Sound.remember (h : Sound s a) {counter txId : ℕ} {currentTransactionId : Option ℕ}
    {accepted : List Accepted} (hother : a.connectorId = connectorId → ¬ a.Live) :
    Sound { s with
      counter := counter
      transactions := s.transactions.set connectorId txId
      currentTransactionId := currentTransactionId
      accepted := accepted } a where
  drawn := h.drawn
  remembered hlive := by
    have hne : a.connectorId ≠ connectorId := fun he => hother he hlive
    show (s.transactions.set connectorId txId).get? a.connectorId = some a.transactionId
    rw [Dict.get?_set_ne _ _ hne]
    exact h.remembered hlive
  written := h.written
  unwritten := h.unwritten

/-- The new transaction is remembered, and seen by the gate if its id came from the sequence. -/
theorem sound_newest (s : Station) (m : Start) (stashed : Bool) :
    Sound (s.accept m stashed) (s.newest m stashed) := by
  have hremembered : (s.accept m stashed).transactions.get? m.connectorId =
      some (s.newest m stashed).transactionId := Dict.get?_set_self _ _ _
  cases stashed with
  | false => exact ⟨nofun, fun _ => hremembered, nofun, nofun⟩
  | true =>
    cases hnext : m.nextId with
    | none =>
      have hnone : (s.newest m true).sequenced = false := by
        rw [Station.newest, Station.nextTransactionId, hnext]
        cases s.transactions.get? m.connectorId with
        | none => rfl
        | some fallbackTxId => rfl
      refine ⟨?_, fun _ => hremembered, ?_, ?_⟩
      · intro hseq
        exact absurd (hnone.symm.trans hseq) (by decide)
      · intro _ hseq
        exact absurd (hnone.symm.trans hseq) (by decide)
      · intro _ hseq
        exact absurd (hnone.symm.trans hseq) (by decide)
    | some ahead =>
      obtain ⟨hid, hlt, hopens, hadds⟩ := nextTransactionId_seen (s := s) hnext
      have htx : (s.newest m true).transactionId = s.sequence + ahead := by
        show (s.nextTransactionId m true).2.getD _ = _
        rw [hid]
        rfl
      have hdurable : (s.newest m true).durable = m.insertWorks := by
        show (true && (s.nextTransactionId m true).2.isSome && m.insertWorks) = _
        rw [hid]
        rfl
      refine ⟨fun _ => ?_, fun _ => hremembered, fun _ _ h => ?_, fun _ _ h => ?_⟩
      · rw [htx]
        exact hlt
      · rw [htx]
        exact hopens (hdurable ▸ h)
      · rw [htx]
        exact hadds (hdurable ▸ h)

/-- **An accepted start.**  Where no live transaction is on the connector, the new one joins them. -/
theorem Inv.accept (hinv : Inv s) (stashed : Bool)
    (hfree : ∀ a ∈ s.accepted, a.connectorId = m.connectorId → ¬ a.Live) : Inv (s.accept m stashed) := by
  intro a ha
  obtain ⟨-, hacc⟩ := nextTransactionId_keeps s m stashed
  rcases List.mem_append.1 ha with hold | hnew
  · rw [hacc] at hold
    exact ((hinv a hold).nextTransactionId stashed).remember (hfree a hold)
  · rw [List.mem_singleton.1 hnew]
    exact sound_newest s m stashed

/-! ## Stops and closed rows -/

theorem Sound.closeRows (h : Sound s a) (hne : a.Live → a.transactionId ≠ transactionId) :
    Sound (s.closeRows transactionId) a where
  drawn := h.drawn
  remembered := h.remembered
  written hlive hseq hdurable := by
    obtain ⟨row, hrow, hid, hopen⟩ := isTransactionOpen_iff.1 (h.written hlive hseq hdurable)
    have hother : row.transactionId ≠ transactionId := by
      rw [hid]
      exact hne hlive
    refine isTransactionOpen_iff.2 ⟨row, ?_, hid, hopen⟩
    exact List.mem_map.2 ⟨row, hrow, if_neg hother⟩
  unwritten := h.unwritten

theorem Sound.forget (h : Sound s a) (hne : a.Live → a.transactionId ≠ transactionId) :
    Sound (s.forget transactionId) a := by
  rw [Station.forget]
  cases hfind : s.transactions.items.find? fun p => decide (p.2 = transactionId) with
  | none => exact h
  | some p =>
    have hforgotten : s.transactions.get? p.1 = some p.2 := Dict.mem_items_iff.1 (List.mem_of_find?_eq_some hfind)
    have htx : p.2 = transactionId := by simpa using List.find?_some hfind
    refine ⟨h.drawn, ?_, h.written, h.unwritten⟩
    intro hlive
    have hsome := h.remembered hlive
    have hother : a.connectorId ≠ p.1 := by
      intro he
      rw [he, hforgotten, htx] at hsome
      exact hne hlive (Option.some.inj hsome).symm
    show (s.transactions.erase p.1).get? a.connectorId = some a.transactionId
    rw [Dict.get?_erase, if_neg hother]
    exact hsome

theorem Sound.of_not_live (hdrawn : a.sequenced = true → a.transactionId < s.sequence) (hdead : ¬ a.Live) :
    Sound s a where
  drawn := hdrawn
  remembered hlive := absurd hlive hdead
  written hlive := absurd hlive hdead
  unwritten hlive := absurd hlive hdead

theorem forget_sequence (s : Station) (transactionId : ℕ) : (s.forget transactionId).sequence = s.sequence := by
  rw [Station.forget]
  split
  · rfl
  · rfl

theorem Inv.onStopTransaction (hinv : Inv s) (closeWorks : Bool) :
    Inv (s.onStopTransaction transactionId closeWorks) := by
  intro a' ha'
  obtain ⟨a, ha, rfl⟩ := List.mem_map.1 ha'
  have hsound := hinv a ha
  have hseq : (s.onStopTransaction transactionId closeWorks).sequence = s.sequence := by
    have hforget := forget_sequence s transactionId
    cases closeWorks with
    | true => exact hforget
    | false => exact hforget
  by_cases hid : a.transactionId = transactionId
  · rw [if_pos hid]
    exact Sound.of_not_live (fun h => hseq ▸ hsound.drawn h) (fun h => Bool.noConfusion (show true = false from h.1))
  · rw [if_neg hid]
    have hforget := hsound.forget (fun _ => hid)
    cases closeWorks with
    | true =>
      have hclosed := (hforget.closeRows (fun _ => hid)).discardInMemoryOnly (fun _ _ => hid)
      exact ⟨hclosed.drawn, hclosed.remembered, hclosed.written, hclosed.unwritten⟩
    | false =>
      have hdiscarded := hforget.discardInMemoryOnly (fun _ _ => hid)
      exact ⟨hdiscarded.drawn, hdiscarded.remembered, hdiscarded.written, hdiscarded.unwritten⟩

theorem Inv.recover (hinv : Inv s) : Inv (s.recover transactionId) := by
  intro a' ha'
  obtain ⟨a, ha, rfl⟩ := List.mem_map.1 ha'
  have hsound := hinv a ha
  by_cases hid : a.transactionId = transactionId ∧ a.durable = true
  · rw [if_pos hid]
    exact Sound.of_not_live hsound.drawn (fun h => Bool.noConfusion (show true = false from h.2))
  · rw [if_neg hid]
    refine ⟨hsound.drawn, hsound.remembered, ?_, hsound.unwritten⟩
    intro hlive hseq hdurable
    have hclosed := hsound.closeRows (fun _ he => hid ⟨he, hdurable⟩)
    exact hclosed.written hlive hseq hdurable

/-! ## Whole runs -/

/-- No start is accepted while an earlier transaction of its connector is live. -/
def StartsAlone (s : Station) : Event → Prop
  | .start m => (s.onStartTransaction m).2 = .accepted →
      ∀ a ∈ s.accepted, a.connectorId = m.connectorId → a.stopped = true ∨ a.closed = true
  | _ => True

theorem onStartTransaction_cases (s : Station) (m : Start) :
    (s.gate m = none ∧ s.onStartTransaction m = (s, .concurrentTx)) ∨
    ∃ s', s.gate m = some s' ∧ ((s.onStartTransaction m).1 = s' ∨
      ∃ stashed, (s.onStartTransaction m).1 = s'.accept m stashed) := by
  rw [Station.onStartTransaction, Station.onTransactionStart]
  cases hgate : s.gate m with
  | none => exact Or.inl ⟨rfl, rfl⟩
  | some s' =>
    refine Or.inr ⟨s', rfl, ?_⟩
    cases m.authorization with
    | refuses => exact Or.inl rfl
    | raises => exact Or.inr ⟨false, rfl⟩
    | accepts =>
      by_cases hrace : m.connectorId ∈ s'.transactions
      · simp only [if_pos hrace]
        exact Or.inl trivial
      · simp only [if_neg hrace]
        exact Or.inr ⟨true, rfl⟩

theorem not_live_iff : ¬ a.Live ↔ a.stopped = true ∨ a.closed = true := by
  rw [Accepted.Live]
  cases a.stopped <;> cases a.closed <;> decide

theorem Inv.onStartTransaction (hinv : Inv s) (hknows : GateKnows s (.start m) = true) :
    StartsAlone s (.start m) ∧ Inv (s.onStartTransaction m).1 := by
  obtain ⟨-, heq⟩ | ⟨s', hgate, hend⟩ := onStartTransaction_cases s m
  · rw [StartsAlone, heq]
    exact ⟨nofun, hinv⟩
  · have hfree := fun a ha hc => hinv.not_live (a := a) hknows hgate ha hc
    refine ⟨fun _ a ha hc => not_live_iff.1 (hfree a ha hc), ?_⟩
    have hinv' := hinv.gate hknows hgate
    rcases hend with hend | ⟨stashed, hend⟩
    · rw [hend]
      exact hinv'
    · rw [hend]
      refine hinv'.accept stashed ?_
      rw [gate_accepted hgate]
      exact hfree

theorem Inv.step (hinv : Inv s) (e : Event) (hknows : GateKnows s e = true) :
    StartsAlone s e ∧ Inv (step s e) := by
  cases e with
  | start m => exact hinv.onStartTransaction hknows
  | stop transactionId closeWorks => exact ⟨trivial, hinv.onStopTransaction closeWorks⟩
  | recover transactionId => exact ⟨trivial, hinv.recover⟩

/-- **One transaction per connector.**  Along every run whose gate never meets, with a check that works, a
transaction under way whose id is not from the sequence, no start is accepted while an earlier transaction of
its connector has been neither stopped nor closed. -/
theorem starts_alone_of_gateKnows (transactions : Dict ℕ ℕ) (rows : List SessionRow) (sequence counter : ℕ)
    (events : List Event)
    (h : Run.Along step (fun s e => GateKnows s e = true) (.init transactions rows sequence counter) events) :
    Run.Along step StartsAlone (.init transactions rows sequence counter) events := by
  have hinit : Inv (.init transactions rows sequence counter) := nofun
  exact h.imp (fun s e hknows hinv => hinv.step e hknows) hinit

/-- The insert of the first transaction fails; a second start is refused, and accepted after the stop. -/
theorem unwritten_transaction_starts_alone :
    Run.Along step StartsAlone (.init .empty [] 1 100)
      [.start { connectorId := 1, insertWorks := false }, .start { connectorId := 1 }, .stop 1 true,
        .start { connectorId := 1 }] :=
  starts_alone_of_gateKnows .empty [] 1 100 _ (by decide)

/-- `next_transaction_id` fails at the first start, whose transaction is neither stopped nor closed when the
second one is accepted. -/
theorem second_start_accepted :
    ¬ ∀ (transactions : Dict ℕ ℕ) (rows : List SessionRow) (sequence counter : ℕ) (events : List Event),
      Run.Along step StartsAlone (.init transactions rows sequence counter) events := by
  intro hall
  have h := hall .empty [] 1 100 [.start { connectorId := 1, nextId := none }, .start { connectorId := 1 }]
  obtain ⟨-, hsecond, -⟩ := h
  have hended := hsecond (by decide) ⟨1, 101, false, false, false, false⟩ (by decide) rfl
  exact absurd hended (by decide)

end FavoniusBackend.Ocpp.TransactionGate
