import FavoniusBackend.Lib.Dict
import FavoniusBackend.Lib.Run
import FavoniusBackend.Lib.Tasks

/-!
# The cache of active transactions

The transaction manager of OCPP 2.0.1 keeps one slot for every EVSE.  A remote start fills the slot of its
EVSE, and so does a Started event; a remote stop and an Ended event empty it.  Only the remote start holds a
lock while it waits, and only it looks at the slot before it writes.

A call is cut where it waits for the authorization or for the database: what it does between two such points is
one step, and the calls that are under way may take their steps in any order.  Beside the manager stands which
transactions have been started on which EVSE and have not ended.

The lock and the look at the slot keep remote starts apart.  Stops and charger events are the ones that can
interfere: an end that comes late, and a Started event beside a remote start or another transaction.
-/

namespace FavoniusBackend.Ocpp.TransactionCache

open Lib

inductive TransactionEventType
  | started
  | updated
  | ended
  deriving DecidableEq, Repr

structure TransactionInfo where
  transactionId : String
  evseId : Option ℕ
  deriving DecidableEq, Repr

def evseText : Option ℕ → String
  | none => "None"
  | some evseId => toString evseId

def cacheKey (stationId : String) (evseId : Option ℕ) : String := stationId ++ ":" ++ evseText evseId

/-- The reason codes of the answers; `idToken` stands for the ones of the two validations and of the
authorization. -/
inductive ReasonCode
  | idToken
  | concurrentTx
  | evseUnavailable
  | unknownTransaction
  | internalError
  deriving DecidableEq, Repr

inductive Response
  | accepted
  | rejected (reasonCode : ReasonCode)
  deriving DecidableEq, Repr

/-- A call that waits: a remote start that holds the lock of its EVSE, a remote stop that asks the database for
its transaction or that has found it, and an event that is being stored. -/
inductive Call
  | starting (stationId : String) (evseId : ℕ)
  | finding (stationId transactionId : String)
  | stopping (stationId : String) (info : TransactionInfo)
  | storing (eventType : TransactionEventType) (stationId : String) (info : TransactionInfo)
  deriving DecidableEq, Repr

def Call.lock : Call → Option String
  | .starting stationId evseId => some (cacheKey stationId (some evseId))
  | _ => none

/-- `TransactionManager`, with the rows of `transactions` and the calls that wait. -/
structure Manager where
  activeTransactions : Dict String TransactionInfo := .empty
  transactions : Dict (String × String) (Option ℕ) := .empty
  calls : List Call := []

/-- `evse_id or transaction_info.evse_id`: zero counts as absent. -/
def orEvse : Option ℕ → Option ℕ → Option ℕ
  | some (evseId + 1), _ => some (evseId + 1)
  | _, other => other

namespace Manager

def begin (s : Manager) (call : Call) : Manager := { s with calls := s.calls ++ [call] }

def finish (s : Manager) (i : ℕ) : Manager := { s with calls := s.calls.eraseIdx i }

def setActive (s : Manager) (key : String) (info : TransactionInfo) : Manager :=
  { s with activeTransactions := s.activeTransactions.set key info }

def popActive (s : Manager) (key : String) : Manager :=
  { s with activeTransactions := s.activeTransactions.erase key }

def locks (s : Manager) : List String := s.calls.filterMap Call.lock

/-- `request_start_transaction` until it waits for the authorization, with the error of its validations; while
the lock is held it waits for it and has done nothing. -/
def requestStartTransaction (s : Manager) (stationId : String) (evseId : ℕ) (error : Option ReasonCode) :
    Manager × Option Response :=
  match error with
  | some reasonCode => (s, some (.rejected reasonCode))
  | none =>
    if cacheKey stationId (some evseId) ∈ s.locks then (s, none)
    else if cacheKey stationId (some evseId) ∈ s.activeTransactions then (s, some (.rejected .concurrentTx))
    else (s.begin (.starting stationId evseId), none)

/-- `_store_transaction`: a row that is there keeps its EVSE. -/
def storeTransaction (s : Manager) (stationId transactionId : String) (evseId : Option ℕ) : Manager :=
  if (stationId, transactionId) ∈ s.transactions then s
  else { s with transactions := s.transactions.set (stationId, transactionId) evseId }

/-- The rest of `request_start_transaction`: it is refused, or gets an id and fills the slot. -/
def populate (s : Manager) (i : ℕ) (outcome : Except ReasonCode String) : Manager × Option Response :=
  match s.calls[i]? with
  | some (.starting stationId evseId) =>
    match outcome with
    | .error reasonCode => (s.finish i, some (.rejected reasonCode))
    | .ok transactionId =>
      (((s.finish i).storeTransaction stationId transactionId (some evseId)).setActive
        (cacheKey stationId (some evseId)) { transactionId := transactionId, evseId := some evseId },
        some .accepted)
  | _ => (s, none)

/-- The loop of `_find_transaction`. -/
def findActive (s : Manager) (stationId transactionId : String) : Option TransactionInfo :=
  (s.activeTransactions.items.find? fun p =>
    (stationId ++ ":").toList.isPrefixOf p.1.toList && decide (p.2.transactionId = transactionId)).map Prod.snd

def requestStopTransaction (s : Manager) (stationId transactionId : String) : Manager × Option Response :=
  match s.findActive stationId transactionId with
  | some info => (s.begin (.stopping stationId info), none)
  | none => (s.begin (.finding stationId transactionId), none)

/-- The database answers to `_find_transaction`, or fails. -/
def lookUp (s : Manager) (i : ℕ) (works : Bool) : Manager × Option Response :=
  match s.calls[i]? with
  | some (.finding stationId transactionId) =>
    if !works then (s.finish i, some (.rejected .internalError))
    else
      match s.transactions.get? (stationId, transactionId) with
      | some evseId =>
        ((s.finish i).begin (.stopping stationId { transactionId := transactionId, evseId := evseId }), none)
      | none => (s.finish i, some (.rejected .unknownTransaction))
  | _ => (s, none)

/-- The end of `request_stop_transaction`, after `_update_transaction`, which may fail. -/
def popStopped (s : Manager) (i : ℕ) (works : Bool) : Manager × Option Response :=
  match s.calls[i]? with
  | some (.stopping stationId info) =>
    if !works then (s.finish i, some (.rejected .internalError))
    else ((s.finish i).popActive (cacheKey stationId info.evseId), some .accepted)
  | _ => (s, none)

def handleTransactionEvent (s : Manager) (stationId : String) (eventType : TransactionEventType)
    (info : TransactionInfo) (evseId : Option ℕ) : Manager × Option Response :=
  (s.begin (.storing eventType stationId { info with evseId := orEvse evseId info.evseId }), none)

/-- The rest of `handle_transaction_event`, with whether the event was stored and whether its costs are. -/
def updateActive (s : Manager) (i : ℕ) (stored costed : Bool) : Manager × Option Response :=
  match s.calls[i]? with
  | some (.storing eventType stationId info) =>
    if !stored then (s.finish i, some (.rejected .internalError))
    else
      let answer := if costed then .accepted else .rejected .internalError
      match eventType with
      | .started => ((s.finish i).setActive (cacheKey stationId info.evseId) info, some .accepted)
      | .updated => (s.finish i, some answer)
      | .ended => ((s.finish i).popActive (cacheKey stationId info.evseId), some answer)
  | _ => (s, none)

end Manager

/-- A call begins, or the `i`-th of those that wait goes on. -/
inductive Event
  | requestStart (stationId : String) (evseId : ℕ) (error : Option ReasonCode)
  | authorized (i : ℕ) (outcome : Except ReasonCode String)
  | requestStop (stationId transactionId : String)
  | lookedUp (i : ℕ) (works : Bool)
  | updated (i : ℕ) (works : Bool)
  | transactionEvent (stationId : String) (eventType : TransactionEventType) (info : TransactionInfo)
      (evseId : Option ℕ)
  | stored (i : ℕ) (works costed : Bool)

def Manager.handle (s : Manager) : Event → Manager × Option Response
  | .requestStart stationId evseId error => s.requestStartTransaction stationId evseId error
  | .authorized i outcome => s.populate i outcome
  | .requestStop stationId transactionId => s.requestStopTransaction stationId transactionId
  | .lookedUp i works => s.lookUp i works
  | .updated i works => s.popStopped i works
  | .transactionEvent stationId eventType info evseId => s.handleTransactionEvent stationId eventType info evseId
  | .stored i works costed => s.updateActive i works costed

/-! ## What has been started and has not ended -/

structure Active where
  stationId : String
  evseId : Option ℕ
  transactionId : String
  deriving DecidableEq, Repr

def Active.key (a : Active) : String := cacheKey a.stationId a.evseId

/-- What a step says of a transaction: it has been started, by a remote start that is accepted or by a Started
event, or it has ended, by a remote stop that is accepted or by an Ended event. -/
inductive Effect
  | starts (a : Active)
  | ends (a : Active)
  deriving DecidableEq, Repr

def Call.startsAs : Call → String → Option Effect
  | .starting stationId evseId, transactionId => some (.starts ⟨stationId, some evseId, transactionId⟩)
  | _, _ => none

def Call.stops : Call → Option Effect
  | .stopping stationId info => some (.ends ⟨stationId, info.evseId, info.transactionId⟩)
  | _ => none

def Call.reports : Call → Option Effect
  | .storing .started stationId info => some (.starts ⟨stationId, info.evseId, info.transactionId⟩)
  | .storing .ended stationId info => some (.ends ⟨stationId, info.evseId, info.transactionId⟩)
  | _ => none

def Manager.effect (s : Manager) : Event → Option Effect
  | .authorized i (.ok transactionId) => s.calls[i]?.bind fun call => call.startsAs transactionId
  | .updated i true => s.calls[i]?.bind Call.stops
  | .stored i true _ => s.calls[i]?.bind Call.reports
  | _ => none

structure World where
  manager : Manager := {}
  active : List Active := []

def World.record (w : World) : Option Effect → List Active
  | some (.starts a) => a :: w.active
  | some (.ends a) => w.active.filter fun b =>
    !(decide (b.stationId = a.stationId) && decide (b.transactionId = a.transactionId))
  | none => w.active

def step (w : World) (e : Event) : World :=
  { manager := (w.manager.handle e).1, active := w.record (w.manager.effect e) }

def World.slot (w : World) (key : String) : Option String :=
  (w.manager.activeTransactions.get? key).map TransactionInfo.transactionId

/-! ## What a step does to the slots -/

section Slots

variable {s : Manager} {w : World} {a b : Active} {e : Event}

theorem storeTransaction_activeTransactions (stationId transactionId : String) (evseId : Option ℕ) :
    (s.storeTransaction stationId transactionId evseId).activeTransactions = s.activeTransactions := by
  rw [Manager.storeTransaction]
  split
  · rfl
  · rfl

/-- What an effect does to the slots: a start fills the slot of its EVSE and an end empties it, whatever it
holds. -/
def fill (slots : Dict String TransactionInfo) : Option Effect → Dict String TransactionInfo
  | some (.starts a) => slots.set a.key { transactionId := a.transactionId, evseId := a.evseId }
  | some (.ends a) => slots.erase a.key
  | none => slots

theorem requestStartTransaction_activeTransactions (stationId : String) (evseId : ℕ) (error : Option ReasonCode) :
    (s.requestStartTransaction stationId evseId error).1.activeTransactions = s.activeTransactions := by
  cases error with
  | some reasonCode => rfl
  | none =>
    rw [Manager.requestStartTransaction]
    split
    · rfl
    · split
      · rfl
      · rfl

theorem populate_activeTransactions (i : ℕ) (outcome : Except ReasonCode String) :
    (s.populate i outcome).1.activeTransactions =
      fill s.activeTransactions (s.effect (.authorized i outcome)) := by
  rw [Manager.populate]
  cases outcome with
  | error reasonCode =>
    rcases s.calls[i]? with _ | (_ | _ | _ | _)
    all_goals rfl
  | ok transactionId =>
    rw [Manager.effect]
    rcases s.calls[i]? with _ | (⟨stationId, evseId⟩ | _ | _ | _)
    · rfl
    · exact congrArg (fun slots => Dict.set slots _ _)
        (storeTransaction_activeTransactions stationId transactionId (some evseId))
    · rfl
    · rfl
    · rfl

theorem requestStopTransaction_activeTransactions (stationId transactionId : String) :
    (s.requestStopTransaction stationId transactionId).1.activeTransactions = s.activeTransactions := by
  rw [Manager.requestStopTransaction]
  cases s.findActive stationId transactionId with
  | some info => rfl
  | none => rfl

theorem lookUp_activeTransactions (i : ℕ) (works : Bool) :
    (s.lookUp i works).1.activeTransactions = s.activeTransactions := by
  rw [Manager.lookUp]
  rcases s.calls[i]? with _ | (_ | ⟨stationId, transactionId⟩ | _ | _)
  · rfl
  · rfl
  · dsimp only
    split
    · rfl
    · cases s.transactions.get? (stationId, transactionId) with
      | some evseId => rfl
      | none => rfl
  · rfl
  · rfl

theorem popStopped_activeTransactions (i : ℕ) (works : Bool) :
    (s.popStopped i works).1.activeTransactions = fill s.activeTransactions (s.effect (.updated i works)) := by
  rw [Manager.popStopped]
  cases works with
  | false =>
    rcases s.calls[i]? with _ | (_ | _ | _ | _)
    all_goals rfl
  | true =>
    rw [Manager.effect]
    rcases s.calls[i]? with _ | (_ | _ | _ | _)
    all_goals rfl

theorem updateActive_activeTransactions (i : ℕ) (stored costed : Bool) :
    (s.updateActive i stored costed).1.activeTransactions =
      fill s.activeTransactions (s.effect (.stored i stored costed)) := by
  rw [Manager.updateActive]
  cases stored with
  | false =>
    rcases s.calls[i]? with _ | (_ | _ | _ | _)
    all_goals rfl
  | true =>
    rw [Manager.effect]
    rcases s.calls[i]? with _ | (_ | _ | _ | ⟨_ | _ | _, stationId, info⟩)
    all_goals rfl

/-- **One step.**  The slots change by the effect of the step and in no other way. -/
theorem handle_activeTransactions (s : Manager) (e : Event) :
    (s.handle e).1.activeTransactions = fill s.activeTransactions (s.effect e) := by
  cases e with
  | requestStart stationId evseId error =>
    exact requestStartTransaction_activeTransactions stationId evseId error
  | authorized i outcome => exact populate_activeTransactions i outcome
  | requestStop stationId transactionId => exact requestStopTransaction_activeTransactions stationId transactionId
  | lookedUp i works => exact lookUp_activeTransactions i works
  | updated i works => exact popStopped_activeTransactions i works
  | transactionEvent stationId eventType info evseId => rfl
  | stored i works costed => exact updateActive_activeTransactions i works costed

theorem slot_step (w : World) (e : Event) (key : String) : (step w e).slot key =
    ((fill w.manager.activeTransactions (w.manager.effect e)).get? key).map TransactionInfo.transactionId := by
  rw [World.slot, step, handle_activeTransactions]

theorem slot_starts (h : w.manager.effect e = some (.starts a)) (key : String) :
    (step w e).slot key = if key = a.key then some a.transactionId else w.slot key := by
  rw [slot_step, h, fill, Dict.get?_set]
  split
  · rfl
  · rfl

theorem slot_ends (h : w.manager.effect e = some (.ends a)) (key : String) :
    (step w e).slot key = if key = a.key then none else w.slot key := by
  rw [slot_step, h, fill, Dict.get?_erase]
  split
  · rfl
  · rfl

theorem slot_idle (h : w.manager.effect e = none) (key : String) : (step w e).slot key = w.slot key := by
  rw [slot_step, h]
  rfl

end Slots

/-! ## What a step does to the locks -/

section Locks

variable {s : Manager} {i : ℕ} {call : Call}

theorem locks_begin (s : Manager) (h : call.lock = none) : (s.begin call).locks.Sublist s.locks := by
  have heq : (s.begin call).locks = s.locks := by
    show (s.calls ++ [call]).filterMap Call.lock = s.locks
    rw [List.filterMap_append, List.filterMap_cons, h]
    exact List.append_nil _
  exact heq ▸ .refl _

theorem locks_finish (s : Manager) (i : ℕ) : (s.finish i).locks.Sublist s.locks :=
  (List.eraseIdx_sublist s.calls i).filterMap Call.lock

theorem locks_storeTransaction (stationId transactionId : String) (evseId : Option ℕ) :
    (s.storeTransaction stationId transactionId evseId).locks = s.locks := by
  rw [Manager.storeTransaction]
  split
  · rfl
  · rfl

/-- **What a step does to the locks**: a remote start takes a free one and finds its slot empty, a remote start
fills its slot and gives the lock back, or no lock is taken and no remote start fills a slot. -/
inductive Locked (s : Manager) (e : Event) (s' : Manager) : Prop
  | takes (key : String) (free : key ∉ s.locks) (empty : key ∉ s.activeTransactions)
      (locks : s'.locks = s.locks ++ [key]) (effect : s.effect e = none)
  | fills (a : Active) (effect : s.effect e = some (.starts a)) (locks : s.locks.Perm (a.key :: s'.locks))
  | keeps (locks : s'.locks.Sublist s.locks) (others : ∀ i outcome, e = .authorized i outcome → s.effect e = none)

theorem requestStartTransaction_locks (stationId : String) (evseId : ℕ) (error : Option ReasonCode) :
    Locked s (.requestStart stationId evseId error) (s.requestStartTransaction stationId evseId error).1 := by
  cases error with
  | some reasonCode => exact .keeps (.refl _) (by rintro _ _ ⟨⟩)
  | none =>
    rw [Manager.requestStartTransaction]
    split
    · exact .keeps (.refl _) (by rintro _ _ ⟨⟩)
    · rename_i hfree
      split
      · exact .keeps (.refl _) (by rintro _ _ ⟨⟩)
      · rename_i hempty
        refine .takes _ hfree hempty ?_ rfl
        exact List.filterMap_append

theorem populate_locks (i : ℕ) (outcome : Except ReasonCode String) :
    Locked s (.authorized i outcome) (s.populate i outcome).1 := by
  rw [Manager.populate]
  cases hcall : s.calls[i]? with
  | none =>
    refine .keeps (.refl _) fun _ _ _ => ?_
    cases outcome with
    | error reasonCode => rfl
    | ok transactionId => rw [Manager.effect, hcall]; rfl
  | some call =>
    cases outcome with
    | error reasonCode =>
      cases call with
      | starting stationId evseId => exact .keeps (locks_finish s i) fun _ _ _ => rfl
      | _ => exact .keeps (.refl _) fun _ _ _ => rfl
    | ok transactionId =>
      cases call with
      | starting stationId evseId =>
        refine .fills ⟨stationId, some evseId, transactionId⟩ ?_ ?_
        · rw [Manager.effect, hcall]
          rfl
        · have hstored := locks_storeTransaction (s := s.finish i) stationId transactionId (some evseId)
          exact ((Tasks.perm_cons_eraseIdx hcall).filterMap Call.lock).trans
            (.of_eq (congrArg (List.cons _) hstored.symm))
      | _ =>
        refine .keeps (.refl _) fun _ _ _ => ?_
        rw [Manager.effect, hcall]
        rfl

theorem lookUp_locks (i : ℕ) (works : Bool) : (s.lookUp i works).1.locks.Sublist s.locks := by
  rw [Manager.lookUp]
  split
  · split
    · exact locks_finish s i
    · split
      · exact .trans (locks_begin (s.finish i) rfl) (locks_finish s i)
      · exact locks_finish s i
  · exact .refl _

theorem popStopped_locks (i : ℕ) (works : Bool) : (s.popStopped i works).1.locks.Sublist s.locks := by
  rw [Manager.popStopped]
  split
  · split
    · exact locks_finish s i
    · exact locks_finish s i
  · exact .refl _

theorem updateActive_locks (i : ℕ) (stored costed : Bool) :
    (s.updateActive i stored costed).1.locks.Sublist s.locks := by
  rw [Manager.updateActive]
  split
  · rename_i eventType _ _ _
    split
    · exact locks_finish s i
    · cases eventType with
      | started => exact locks_finish s i
      | updated => exact locks_finish s i
      | ended => exact locks_finish s i
  · exact .refl _

theorem handle_locks (s : Manager) (e : Event) : Locked s e (s.handle e).1 := by
  cases e with
  | requestStart stationId evseId error => exact requestStartTransaction_locks stationId evseId error
  | authorized i outcome => exact populate_locks i outcome
  | requestStop stationId transactionId =>
    refine .keeps ?_ (by rintro _ _ ⟨⟩)
    rw [Manager.handle, Manager.requestStopTransaction]
    split
    · exact locks_begin s rfl
    · exact locks_begin s rfl
  | lookedUp i works => exact .keeps (lookUp_locks i works) (by rintro _ _ ⟨⟩)
  | updated i works => exact .keeps (popStopped_locks i works) (by rintro _ _ ⟨⟩)
  | transactionEvent stationId eventType info evseId => exact .keeps (locks_begin s rfl) (by rintro _ _ ⟨⟩)
  | stored i works costed => exact .keeps (updateActive_locks i works costed) (by rintro _ _ ⟨⟩)

end Locks

/-! ## A slot belongs to one EVSE -/

theorem colon_not_mem_evseText (evseId : Option ℕ) : ':' ∉ (evseText evseId).toList := by
  cases evseId with
  | none => decide
  | some evseId =>
    intro hmem
    have hdigits : (evseText (some evseId)).toList = Nat.toDigits 10 evseId := Nat.toList_repr
    rw [hdigits] at hmem
    exact absurd (Nat.isDigit_of_mem_toDigits (by decide) (by decide) hmem) (by decide)

/-- The text before the last colon is determined by the whole. -/
theorem eq_of_append_cons_eq {x x' y y' : List Char} {c : Char} (hy : c ∉ y) (hy' : c ∉ y')
    (h : x ++ c :: y = x' ++ c :: y') : x = x' := by
  rcases List.append_eq_append_iff.1 h with ⟨z, hx, hz⟩ | ⟨z, hx, hz⟩
  · cases z with
    | nil => rw [hx, List.append_nil]
    | cons d z =>
      have htail : y = z ++ c :: y' := (List.cons.inj hz).2
      exact absurd (htail ▸ List.mem_append_right z List.mem_cons_self) hy
  · cases z with
    | nil => rw [hx, List.append_nil]
    | cons d z =>
      have htail : y' = z ++ c :: y := (List.cons.inj hz).2
      exact absurd (htail ▸ List.mem_append_right z List.mem_cons_self) hy'

theorem evseText_injective : Function.Injective evseText := by
  have hdigits : ∀ n : ℕ, (evseText (some n)).toList = Nat.toDigits 10 n := fun n => Nat.toList_repr
  have hnone : ∀ n : ℕ, evseText (some n) ≠ evseText none := by
    intro n h
    have hletter : 'N' ∈ (evseText (some n)).toList := by
      rw [h]
      decide
    rw [hdigits] at hletter
    exact absurd (Nat.isDigit_of_mem_toDigits (by decide) (by decide) hletter) (by decide)
  intro e f h
  cases e with
  | none =>
    cases f with
    | none => rfl
    | some n => exact absurd h.symm (hnone n)
  | some m =>
    cases f with
    | none => exact absurd h (hnone m)
    | some n =>
      have hlists : Nat.toDigits 10 m = Nat.toDigits 10 n := by
        rw [← hdigits, ← hdigits, h]
      rw [← Nat.ofDigitChars_toDigits (n := m) (by decide : 1 < 10) le_rfl, hlists,
        Nat.ofDigitChars_toDigits (by decide) le_rfl]

def Active.SameEvse (a b : Active) : Prop := a.stationId = b.stationId ∧ a.evseId = b.evseId

instance (a b : Active) : Decidable (a.SameEvse b) :=
  inferInstanceAs (Decidable (a.stationId = b.stationId ∧ a.evseId = b.evseId))

theorem sameEvse_of_key_eq {a b : Active} (h : a.key = b.key) : a.SameEvse b := by
  have hlists : a.stationId.toList ++ ':' :: (evseText a.evseId).toList =
      b.stationId.toList ++ ':' :: (evseText b.evseId).toList := by
    simpa [Active.key, cacheKey] using congrArg String.toList h
  have hstation := eq_of_append_cons_eq (colon_not_mem_evseText _) (colon_not_mem_evseText _) hlists
  rw [hstation] at hlists
  have hevse := (List.cons.inj (List.append_cancel_left hlists)).2
  exact ⟨String.toList_inj.1 hstation, evseText_injective (String.toList_inj.1 hevse)⟩

/-! ## Whole runs -/

theorem Active.SameEvse.key_eq {a b : Active} (h : a.SameEvse b) : a.key = b.key := by
  rw [Active.key, Active.key, h.1, h.2]

/-- What is asked of a step: a transaction that ends takes no other one of its EVSE out of its slot, none is
started beside another one on its EVSE, a remote start not even beside itself, and at most one transaction is
active on an EVSE afterwards. -/
structure OneAtATime (w : World) (e : Event) : Prop where
  kept : ∀ a, w.manager.effect e = some (.ends a) → ∀ b ∈ w.active, b.SameEvse a →
    b.transactionId ≠ a.transactionId → (step w e).slot b.key = some b.transactionId
  alone : ∀ a, w.manager.effect e = some (.starts a) → ∀ b ∈ w.active, b.SameEvse a →
    b.transactionId = a.transactionId
  free : ∀ a i outcome, e = .authorized i outcome → w.manager.effect e = some (.starts a) →
    ∀ b ∈ w.active, ¬ b.SameEvse a
  one : ∀ a ∈ (step w e).active, ∀ b ∈ (step w e).active, a.SameEvse b → a.transactionId = b.transactionId

def World.Alone (w : World) (a : Active) : Prop := ∀ b ∈ w.active, b.SameEvse a → b.transactionId = a.transactionId

instance (w : World) (a : Active) : Decidable (w.Alone a) :=
  inferInstanceAs (Decidable (∀ b ∈ w.active, b.SameEvse a → b.transactionId = a.transactionId))

/-- The charger and the stops come in order: a transaction is stopped or ends while it is active, or it has ended
already and none is active on its EVSE; one is reported as started only where no other one is active and no
remote start is under way.  Nothing is asked of the remote starts. -/
def InOrder (w : World) (e : Event) : Bool :=
  match w.manager.effect e with
  | none => true
  | some (.ends a) => decide (a ∈ w.active ∨ ∀ b ∈ w.active, ¬ b.SameEvse a)
  | some (.starts a) =>
    match e with
    | .authorized _ _ => true
    | _ => decide (a.key ∉ w.manager.locks ∧ w.Alone a)

def Cached (w : World) : Prop := ∀ a ∈ w.active, w.slot a.key = some a.transactionId

/-- The remote starts that are under way are on different EVSEs, and the slots that they will fill are empty. -/
structure Guarded (w : World) : Prop where
  cached : Cached w
  apart : w.manager.locks.Nodup
  empty : ∀ key ∈ w.manager.locks, w.slot key = none

section Steps

variable {w : World} {a b : Active} {e : Event}

theorem inOrder_ends (h : InOrder w e = true) (heffect : w.manager.effect e = some (.ends a)) :
    a ∈ w.active ∨ ∀ b ∈ w.active, ¬ b.SameEvse a := by
  simp only [InOrder, heffect] at h
  exact of_decide_eq_true h

theorem Cached.one (hcached : Cached w) (ha : a ∈ w.active) (hb : b ∈ w.active) (h : a.SameEvse b) :
    a.transactionId = b.transactionId := by
  have hslot := hcached a ha
  rw [h.key_eq] at hslot
  exact Option.some.inj (hslot.symm.trans (hcached b hb))

theorem Cached.alone_of_ends (hcached : Cached w) (horder : InOrder w e = true)
    (heffect : w.manager.effect e = some (.ends a)) : w.Alone a := by
  intro b hb hsame
  rcases inOrder_ends horder heffect with ha | hidle
  · exact hcached.one hb ha hsame
  · exact absurd hsame (hidle b hb)

theorem Cached.step (hcached : Cached w)
    (halone : ∀ a, w.manager.effect e = some (.starts a) ∨ w.manager.effect e = some (.ends a) → w.Alone a) :
    Cached (step w e) := by
  intro b hb
  cases heffect : w.manager.effect e with
  | none =>
    rw [slot_idle heffect]
    refine hcached b ?_
    simpa [TransactionCache.step, heffect, World.record] using hb
  | some effect =>
    cases effect with
    | starts a =>
      rw [slot_starts heffect]
      have hmem : b = a ∨ b ∈ w.active := by
        simpa [TransactionCache.step, heffect, World.record] using hb
      rcases hmem with rfl | hmem
      · exact if_pos rfl
      · by_cases hkey : b.key = a.key
        · rw [if_pos hkey, halone a (.inl heffect) b hmem (sameEvse_of_key_eq hkey)]
        · rw [if_neg hkey]
          exact hcached b hmem
    | ends a =>
      have hmem : b ∈ w.active ∧ (b.stationId ≠ a.stationId ∨ b.transactionId ≠ a.transactionId) := by
        simpa [TransactionCache.step, heffect, World.record] using hb
      have hkey : b.key ≠ a.key := by
        intro hkey
        have hsame := sameEvse_of_key_eq hkey
        rcases hmem.2 with hstation | hid
        · exact hstation hsame.1
        · exact hid (halone a (.inr heffect) b hmem.1 hsame)
      rw [slot_ends heffect, if_neg hkey]
      exact hcached b hmem.1

theorem Cached.idle (hcached : Cached w) (hslot : w.slot a.key = none) : ∀ b ∈ w.active, ¬ b.SameEvse a := by
  intro b hb hsame
  have hown := hcached b hb
  rw [hsame.key_eq, hslot] at hown
  cases hown

theorem Guarded.empty_of_authorized (h : Guarded w) {i : ℕ} {outcome : Except ReasonCode String}
    (heffect : w.manager.effect (.authorized i outcome) = some (.starts a)) : w.slot a.key = none := by
  rcases handle_locks w.manager (.authorized i outcome) with
    ⟨_, _, _, _, hnone⟩ | ⟨a', heffect', hlocks⟩ | ⟨_, hothers⟩
  · rw [hnone] at heffect
    cases heffect
  · obtain rfl : a' = a := by
      rw [heffect'] at heffect
      cases heffect
      rfl
    exact h.empty a'.key (hlocks.mem_iff.mpr List.mem_cons_self)
  · rw [hothers i outcome rfl] at heffect
    cases heffect

theorem Guarded.alone (h : Guarded w) (horder : InOrder w e = true)
    (heffect : w.manager.effect e = some (.starts a) ∨ w.manager.effect e = some (.ends a)) : w.Alone a := by
  rcases heffect with heffect | heffect
  · cases e with
    | authorized i outcome =>
      exact fun b hb hsame => absurd hsame (h.cached.idle (h.empty_of_authorized heffect) b hb)
    | _ =>
      simp only [InOrder, heffect] at horder
      exact (of_decide_eq_true horder).2
  · exact h.cached.alone_of_ends horder heffect

theorem slot_eq_none_of_step {key : String} (hslot : w.slot key = none)
    (hfree : ∀ a, w.manager.effect e = some (.starts a) → key ≠ a.key) : (step w e).slot key = none := by
  cases heffect : w.manager.effect e with
  | none => rw [slot_idle heffect, hslot]
  | some effect =>
    cases effect with
    | starts a => rw [slot_starts heffect, if_neg (hfree a heffect), hslot]
    | ends a =>
      rw [slot_ends heffect]
      split
      · rfl
      · exact hslot

/-- **One step.**  The lock and the look at the slot keep the remote starts apart. -/
theorem Guarded.step (h : Guarded w) (horder : InOrder w e = true) : Guarded (step w e) := by
  have hcached := h.cached.step fun a heffect => h.alone horder heffect
  rcases handle_locks w.manager e with ⟨key, hfree, hempty, hlocks, hnone⟩ | ⟨a, heffect, hlocks⟩ | ⟨hlocks, hothers⟩
  · have hstill : ∀ key, w.slot key = none → (TransactionCache.step w e).slot key = none := by
      intro key hslot
      rw [slot_idle hnone, hslot]
    refine ⟨hcached, ?_, ?_⟩
    · exact hlocks ▸ List.nodup_append.mpr ⟨h.apart, List.nodup_singleton key, by
        intro k hk k' hk' heq
        exact hfree (List.mem_singleton.mp hk' ▸ heq ▸ hk)⟩
    · intro key' hkey'
      rcases List.mem_append.mp (hlocks ▸ hkey' : key' ∈ w.manager.locks ++ [key]) with hold | hnew
      · exact hstill key' (h.empty key' hold)
      · refine hstill key' ?_
        rw [List.mem_singleton.mp hnew, World.slot]
        cases hget : w.manager.activeTransactions.get? key with
        | none => rfl
        | some info => exact absurd (Dict.mem_of_get? hget) hempty
  · obtain ⟨hfirst, hrest⟩ := List.nodup_cons.mp (hlocks.nodup_iff.mp h.apart)
    refine ⟨hcached, hrest, ?_⟩
    intro key hkey
    refine slot_eq_none_of_step (h.empty key (hlocks.mem_iff.mpr (List.mem_cons_of_mem _ hkey))) ?_
    intro b hb hkeyb
    rw [heffect] at hb
    cases hb
    exact hfirst (hkeyb ▸ hkey)
  · refine ⟨hcached, h.apart.sublist hlocks, ?_⟩
    intro key hkey
    refine slot_eq_none_of_step (h.empty key (hlocks.subset hkey)) ?_
    intro a heffect hkeya
    have hfree : a.key ∉ w.manager.locks := by
      cases e with
      | authorized i outcome =>
        rw [hothers i outcome rfl] at heffect
        cases heffect
      | _ =>
        simp only [InOrder, heffect] at horder
        exact (of_decide_eq_true horder).1
    exact hfree (hkeya ▸ hlocks.subset hkey)

theorem Guarded.oneAtATime (h : Guarded w) (horder : InOrder w e = true) : OneAtATime w e where
  kept a heffect b hb hsame hne := absurd (h.alone horder (.inr heffect) b hb hsame) hne
  alone a heffect b hb hsame := h.alone horder (.inl heffect) b hb hsame
  free a i outcome he heffect := by
    subst he
    exact h.cached.idle (h.empty_of_authorized heffect)
  one a ha b hb hsame := (h.step horder).cached.one ha hb hsame

end Steps

/-- **One transaction at a time.**  Along every run in which the stops and the charger's events come in order, a
transaction that ends leaves every other one in its slot, and no EVSE has two active transactions or accepts a
start beside one. -/
theorem oneAtATime_of_inOrder (transactions : Dict (String × String) (Option ℕ)) (events : List Event)
    (h : Run.Along step (fun w e => InOrder w e = true) { manager := { transactions := transactions } } events) :
    Run.Along step OneAtATime { manager := { transactions := transactions } } events := by
  have hinit : Guarded { manager := { transactions := transactions } } :=
    ⟨fun _ ha => absurd ha List.not_mem_nil, List.nodup_nil, fun _ hkey => absurd hkey List.not_mem_nil⟩
  exact h.imp (fun w e horder hguarded => ⟨hguarded.oneAtATime horder, hguarded.step horder⟩) hinit

/-- A remote start and its stop, the late Ended event of the stopped transaction, and the next starts, of which one
waits for the lock and one finds the slot taken. -/
theorem stopped_transaction_oneAtATime :
    Run.Along step OneAtATime { manager := { transactions := .empty } }
      [.requestStart "CP" 1 none, .authorized 0 (.ok "X"), .requestStop "CP" "X", .updated 0 true,
        .transactionEvent "CP" .ended ⟨"X", some 1⟩ none, .stored 0 true true,
        .requestStart "CP" 1 none, .requestStart "CP" 1 none, .authorized 0 (.ok "Y"),
        .requestStart "CP" 1 none] :=
  oneAtATime_of_inOrder .empty _ (by decide)

/-- The Ended event of the stopped transaction comes after the next start, whose transaction loses its slot. -/
theorem late_ended_removes_active :
    ¬ ∀ (transactions : Dict (String × String) (Option ℕ)) (events : List Event),
      Run.Along step OneAtATime { manager := { transactions := transactions } } events := by
  intro hall
  have h := hall .empty
    [.requestStart "CP" 1 none, .authorized 0 (.ok "X"), .requestStop "CP" "X", .updated 0 true,
      .requestStart "CP" 1 none, .authorized 0 (.ok "Y"),
      .transactionEvent "CP" .ended ⟨"X", some 1⟩ none, .stored 0 true true]
  obtain ⟨-, -, -, -, -, -, -, hstored, -⟩ := h
  have hkept := hstored.kept ⟨"CP", some 1, "X"⟩ (by decide) ⟨"CP", some 1, "Y"⟩ (by decide) ⟨rfl, rfl⟩ (by decide)
  exact absurd hkept (by decide)

end FavoniusBackend.Ocpp.TransactionCache
