import Mathlib.Tactic
import FavoniusBackend.Ocpp.RfidAuthorization

/-!
# Operator overrides

An operator mints a synthetic id tag for a charger.  The authorization service accepts it, for an Authorize and for a
StartTransaction, where the fleet lookup finds nothing: `consume_operator_override` claims the unconsumed row of the
tag before it expires, or else finds a row that was consumed within the last 120 seconds, so that a charger may send
both messages.  The second branch asks neither for the kind of the request nor for the expiry, and a row that is to
start one transaction starts several, also after it has expired.

A row is claimed once, before it expires, and starts one transaction at most, and none after it expires, as long as no
StartTransaction finds a row again that has expired or that an earlier one has asked for (`oneShot_of_clear`).
-/

namespace FavoniusBackend.Ocpp.OperatorOverride

open Lib
open Ocpp.RfidAuthorization (Call RFIDAuthDecision)

/-- A row of `operator_authorization_overrides`. -/
structure Override where
  id : ℕ
  stationId : List Char
  idTag : List Char
  connectorId : ℤ
  depotId : String := ""
  expiresAt : ℚ
  consumedAt : Option ℚ := none
  deriving DecidableEq, Repr

/-! ### `consume_operator_override` -/

/-- The `WHERE` clause of the claim. -/
def claimable (stationId idTag : List Char) (now : ℚ) (row : Override) : Bool :=
  decide (row.stationId = stationId ∧ row.idTag = idTag ∧ row.consumedAt = none ∧ now < row.expiresAt)

def claim (now : ℚ) (row : Override) : Override := { row with consumedAt := some now }

/-- The window in which a consumed row is found again, in seconds. -/
def reuseWindow : ℚ := 120

/-- The `WHERE` clause of the reuse. -/
def reusable (stationId idTag : List Char) (now : ℚ) (row : Override) : Bool :=
  decide (row.stationId = stationId ∧ row.idTag = idTag) &&
    row.consumedAt.any fun consumedAt => decide (now - reuseWindow < consumedAt)

/-- `consume_operator_override`.  The second branch of the union reads the table as it was before the claim. -/
def consumeOperatorOverride (rows : List Override) (stationId idTag : List Char) (now : ℚ) :
    List Override × Option Override :=
  (rows.map fun row => if claimable stationId idTag now row then claim now row else row,
    match (rows.filter (claimable stationId idTag now)).map (claim now) with
    | row :: _ => some row
    | [] => rows.find? (reusable stationId idTag now))

/-! ### Requests -/

/-- An accepted request, with the row through which it was accepted. -/
structure Acceptance where
  startTransaction : Bool
  stationId : List Char
  connectorId : Option ℤ
  idTag : List Char
  time : ℚ
  overrideId : ℕ
  deriving DecidableEq, Repr

/-- A StartTransaction that has asked for an override. -/
structure Start where
  stationId : List Char
  idTag : List Char
  time : ℚ
  deriving DecidableEq, Repr

structure State where
  clock : ℚ := 0
  overrides : List Override := []
  rfid : RfidAuthorization.State := {}
  starts : List Start := []
  accepted : List Acceptance := []

/-- A call of `authorize`, and whether the statement works if it comes to it. -/
structure Request where
  call : Call
  consumeWorks : Bool := true
  deriving DecidableEq, Repr

namespace State

/-- The request gets as far as `consume_operator_override`, and it works. -/
def reaches (s : State) (r : Request) : Bool := s.rfid.asksOverride r.call && r.consumeWorks

def consume (s : State) (r : Request) : List Override × Option Override :=
  if s.reaches r then consumeOperatorOverride s.overrides r.call.stationId r.call.idTag s.clock
  else (s.overrides, none)

def authorize (s : State) (r : Request) : State × RFIDAuthDecision :=
  let call := { r.call with override := (s.consume r).2.map fun row => { depotId := some row.depotId } }
  ({ s with overrides := (s.consume r).1, rfid := (s.rfid.authorize call).1 }, (s.rfid.authorize call).2)

def answer (s : State) (r : Request) (startTransaction : Bool) (connectorId : Option ℤ) : State :=
  match (s.consume r).2 with
  | none => (s.authorize r).1
  | some row =>
    { (s.authorize r).1 with
      accepted := s.accepted ++
        [Acceptance.mk startTransaction r.call.stationId connectorId r.call.idTag s.clock row.id] }

def ask (s : State) (r : Request) : State :=
  if s.reaches r then { s with starts := s.starts ++ [Start.mk r.call.stationId r.call.idTag s.clock] } else s

end State

/-- A StartTransaction has two checks of its connector, one before and one after the authorization. -/
inductive Event
  | elapse (seconds : ℚ)
  | mint (id : ℕ) (stationId idTag : List Char) (connectorId : ℤ) (depotId : String) (expiresInSeconds : ℚ)
  | authorize (r : Request)
  | startTransaction (r : Request) (connectorId : ℤ) (free freeStill : Bool)

/-- The insert of `manual_authorize`: the id is a primary key, and an unconsumed row is unique for its station and
tag. -/
def mintOverride (rows : List Override) (row : Override) : List Override :=
  if rows.any fun r => decide (r.id = row.id ∨
      r.stationId = row.stationId ∧ r.idTag = row.idTag ∧ r.consumedAt = none) then rows
  else rows ++ [row]

def step (s : State) : Event → State
  | .elapse seconds => { s with clock := s.clock + |seconds| }
  | .mint id stationId idTag connectorId depotId expiresInSeconds =>
    { s with
      overrides := mintOverride s.overrides
        { id, stationId, idTag, connectorId, depotId, expiresAt := s.clock + expiresInSeconds } }
  | .authorize r => s.answer r false none
  | .startTransaction r connectorId free freeStill =>
    if !free then s
    else if freeStill then (s.ask r).answer r true (some connectorId)
    else (s.authorize r).1

/-! ## What a call claims -/

/-- What a call does to a row: nothing, or it claims it, before it expires. -/
def Claims (now : ℚ) (row row' : Override) : Prop :=
  row' = row ∨ row.consumedAt = none ∧ now < row.expiresAt ∧ row' = claim now row

theorem Claims.id {now : ℚ} {row row' : Override} (h : Claims now row row') : row'.id = row.id := by
  rcases h with rfl | ⟨-, -, rfl⟩ <;> rfl

theorem Claims.expiresAt {now : ℚ} {row row' : Override} (h : Claims now row row') :
    row'.expiresAt = row.expiresAt := by
  rcases h with rfl | ⟨-, -, rfl⟩ <;> rfl

theorem Claims.eq_of_consumed {now : ℚ} {row row' : Override} (h : Claims now row row')
    (hconsumed : row.consumedAt ≠ none) : row' = row := by
  rcases h with rfl | ⟨hnone, -, -⟩
  · rfl
  · exact absurd hnone hconsumed

/-- The row that a call gets: one that it claims, or one that it finds again because there is none to claim. -/
def Gets (s : State) (r : Request) (row : Override) : Prop :=
  (∃ old ∈ s.overrides, claimable r.call.stationId r.call.idTag s.clock old = true ∧ row = claim s.clock old) ∨
    row ∈ s.overrides ∧ reusable r.call.stationId r.call.idTag s.clock row = true ∧
      ∀ old ∈ s.overrides, claimable r.call.stationId r.call.idTag s.clock old = false

namespace State

variable {s : State} {r : Request}

theorem claims_consume {j : ℕ} {row : Override} (hrow : s.overrides[j]? = some row) :
    ∃ row', (s.consume r).1[j]? = some row' ∧ Claims s.clock row row' := by
  unfold consume
  split
  · rw [consumeOperatorOverride, List.getElem?_map, hrow, Option.map_some]
    split
    · rename_i h
      have h := of_decide_eq_true h
      exact ⟨_, rfl, .inr ⟨h.2.2.1, h.2.2.2, rfl⟩⟩
    · exact ⟨row, rfl, .inl rfl⟩
  · exact ⟨row, hrow, .inl rfl⟩

theorem length_consume : (s.consume r).1.length = s.overrides.length := by
  unfold consume
  split
  · exact List.length_map _
  · rfl

theorem reaches_of_consume {row : Override} (h : (s.consume r).2 = some row) : s.reaches r = true := by
  unfold consume at h
  split at h
  · assumption
  · cases h

theorem gets_consume {row : Override} (h : (s.consume r).2 = some row) : Gets s r row := by
  rw [consume, if_pos (reaches_of_consume h)] at h
  unfold consumeOperatorOverride at h
  dsimp only at h
  split at h
  · rename_i first rest hclaimed
    obtain rfl : first = row := Option.some.inj h
    have hmem : first ∈ (s.overrides.filter (claimable r.call.stationId r.call.idTag s.clock)).map (claim s.clock) := by
      rw [hclaimed]
      exact List.mem_cons_self
    obtain ⟨old, hold, rfl⟩ := List.mem_map.mp hmem
    obtain ⟨hin, hclaimable⟩ := List.mem_filter.mp hold
    exact .inl ⟨old, hin, hclaimable, rfl⟩
  · rename_i hclaimed
    refine .inr ⟨List.mem_of_find?_eq_some h, List.find?_some h, ?_⟩
    have hnone := List.filter_eq_nil_iff.mp (List.map_eq_nil_iff.mp hclaimed)
    intro old hold
    exact Bool.eq_false_of_not_eq_true (hnone old hold)

theorem mem_consume {row : Override} (h : (s.consume r).2 = some row) : row ∈ (s.consume r).1 := by
  have hgets := gets_consume h
  rw [consume, if_pos (reaches_of_consume h)]
  rcases hgets with ⟨old, hold, hclaimable, rfl⟩ | ⟨hin, -, hnone⟩
  · exact List.mem_map.mpr ⟨old, hold, if_pos hclaimable⟩
  · refine List.mem_map.mpr ⟨row, hin, if_neg ?_⟩
    rw [hnone row hin]
    exact Bool.false_ne_true

end State

theorem reusable_iff {stationId idTag : List Char} {now : ℚ} {row : Override} :
    reusable stationId idTag now row = true ↔ row.stationId = stationId ∧ row.idTag = idTag ∧
      ∃ consumedAt, row.consumedAt = some consumedAt ∧ now - reuseWindow < consumedAt := by
  rw [reusable, Bool.and_eq_true, decide_eq_true_iff, Option.any_eq_true, and_assoc]
  simp only [decide_eq_true_iff]

def AcceptedThrough (a : Acceptance) (row : Override) : Prop :=
  row.id = a.overrideId ∧ row.stationId = a.stationId ∧ row.idTag = a.idTag ∧
    ∃ consumedAt, row.consumedAt = some consumedAt ∧ a.time - reuseWindow < consumedAt

theorem acceptedThrough_of_gets {s : State} {r : Request} {row : Override} (h : Gets s r row)
    (startTransaction : Bool) (connectorId : Option ℤ) :
    AcceptedThrough (Acceptance.mk startTransaction r.call.stationId connectorId r.call.idTag s.clock row.id) row := by
  rcases h with ⟨old, -, hclaimable, rfl⟩ | ⟨-, hreusable, -⟩
  · have hfields := of_decide_eq_true hclaimable
    refine ⟨rfl, hfields.1, hfields.2.1, s.clock, rfl, ?_⟩
    unfold reuseWindow
    linarith
  · obtain ⟨hstation, htag, hwindow⟩ := reusable_iff.mp hreusable
    exact ⟨rfl, hstation, htag, hwindow⟩

/-! ## What a step does -/

/-- **What a step does**: it claims rows and mints them, and it accepts at most one request through an override. -/
structure Touches (s s' : State) : Prop where
  clock : s.clock ≤ s'.clock
  claims : ∀ (j : ℕ) (row : Override), s.overrides[j]? = some row →
    ∃ row', s'.overrides[j]? = some row' ∧ Claims s.clock row row'
  minted : ∀ (j : ℕ) (row' : Override), s'.overrides[j]? = some row' → s.overrides[j]? = none →
    row'.consumedAt = none ∧ ∀ row ∈ s.overrides, row.id ≠ row'.id
  atMostOne : s'.overrides.length ≤ s.overrides.length + 1
  accepted : s'.accepted = s.accepted ∨ ∃ a, s'.accepted = s.accepted ++ [a] ∧ a.time = s.clock ∧
    ∃ row ∈ s'.overrides, AcceptedThrough a row

theorem touches_of_same {s s' : State} (hclock : s.clock ≤ s'.clock) (hoverrides : s'.overrides = s.overrides)
    (haccepted : s'.accepted = s.accepted) : Touches s s' := by
  refine ⟨hclock, ?_, ?_, by rw [hoverrides]; omega, .inl haccepted⟩
  · intro j row hrow
    exact ⟨row, by rw [hoverrides]; exact hrow, .inl rfl⟩
  · intro j row' hrow' hnone
    rw [hoverrides, hnone] at hrow'
    cases hrow'

theorem touches_consume {s s' : State} {r : Request} (hclock : s'.clock = s.clock)
    (hoverrides : s'.overrides = (s.consume r).1)
    (haccepted : s'.accepted = s.accepted ∨ ∃ a, s'.accepted = s.accepted ++ [a] ∧ a.time = s.clock ∧
      ∃ row ∈ s'.overrides, AcceptedThrough a row) : Touches s s' := by
  have hlength : s'.overrides.length = s.overrides.length := by rw [hoverrides, State.length_consume]
  refine ⟨hclock.ge, ?_, ?_, by omega, haccepted⟩
  · intro j row hrow
    rw [hoverrides]
    exact State.claims_consume hrow
  · intro j row' hrow' hnone
    have hlt := (List.getElem?_eq_some_iff.mp hrow').1
    rw [hlength] at hlt
    exact absurd hlt (not_lt.mpr (List.getElem?_eq_none_iff.mp hnone))

theorem touches_answer (s : State) (r : Request) (startTransaction : Bool) (connectorId : Option ℤ) :
    Touches s (s.answer r startTransaction connectorId) := by
  unfold State.answer
  split
  · exact touches_consume (r := r) rfl rfl (.inl rfl)
  · rename_i row hrow
    exact touches_consume (r := r) rfl rfl (.inr ⟨_, rfl, rfl, row, State.mem_consume hrow,
      acceptedThrough_of_gets (State.gets_consume hrow) startTransaction connectorId⟩)

theorem touches_mint (s : State) (row : Override) (hrow : row.consumedAt = none) :
    Touches s { s with overrides := mintOverride s.overrides row } := by
  unfold mintOverride
  split
  · exact touches_of_same le_rfl rfl rfl
  · rename_i hfresh
    refine ⟨le_rfl, ?_, ?_, by simp, .inl rfl⟩
    · intro j old hold
      refine ⟨old, ?_, .inl rfl⟩
      rw [List.getElem?_append_left (List.getElem?_eq_some_iff.mp hold).1]
      exact hold
    · intro j row' hrow' hnone
      rw [List.getElem?_append_right (List.getElem?_eq_none_iff.mp hnone)] at hrow'
      obtain rfl := List.mem_singleton.mp (List.mem_of_getElem? hrow')
      refine ⟨hrow, ?_⟩
      intro old hold hid
      exact hfresh (List.any_eq_true.mpr ⟨old, hold, decide_eq_true (.inl hid)⟩)

namespace State

@[simp] theorem ask_clock (s : State) (r : Request) : (s.ask r).clock = s.clock := by
  unfold ask
  split <;> rfl

@[simp] theorem ask_overrides (s : State) (r : Request) : (s.ask r).overrides = s.overrides := by
  unfold ask
  split <;> rfl

@[simp] theorem ask_accepted (s : State) (r : Request) : (s.ask r).accepted = s.accepted := by
  unfold ask
  split <;> rfl

@[simp] theorem ask_rfid (s : State) (r : Request) : (s.ask r).rfid = s.rfid := by
  unfold ask
  split <;> rfl

theorem starts_ask (s : State) (r : Request) {start : Start} (h : start ∈ s.starts) : start ∈ (s.ask r).starts := by
  unfold ask
  split
  · exact List.mem_append_left _ h
  · exact h

theorem mem_starts_ask (s : State) {r : Request} (h : s.reaches r = true) :
    Start.mk r.call.stationId r.call.idTag s.clock ∈ (s.ask r).starts := by
  rw [ask, if_pos h]
  exact List.mem_append_right _ (List.mem_singleton_self _)

@[simp] theorem ask_consume (s : State) (r : Request) : (s.ask r).consume r = s.consume r := by
  unfold consume reaches
  rw [ask_rfid, ask_overrides, ask_clock]

end State

theorem Touches.of_ask {s s' : State} {r : Request} (h : Touches (s.ask r) s') : Touches s s' := by
  constructor
  · simpa using h.clock
  · simpa using h.claims
  · simpa using h.minted
  · simpa using h.atMostOne
  · simpa using h.accepted

theorem touches_step (s : State) (e : Event) : Touches s (step s e) := by
  cases e with
  | elapse seconds => exact touches_of_same (le_add_of_nonneg_right (abs_nonneg seconds)) rfl rfl
  | mint id stationId idTag connectorId depotId expiresInSeconds => exact touches_mint s _ rfl
  | authorize r => exact touches_answer s r false none
  | startTransaction r connectorId free freeStill =>
    rw [step]
    split
    · exact touches_of_same le_rfl rfl rfl
    · split
      · exact (touches_answer (s.ask r) r true (some connectorId)).of_ask
      · exact touches_consume (r := r) rfl rfl (.inl rfl)

/-! ## Every run -/

/-- A row is claimed before it expires and not in the future; the rows have their ids to themselves; what was accepted
was accepted through a row after its claim and within the window. -/
structure Used (s : State) : Prop where
  claimed : ∀ row ∈ s.overrides, ∀ consumedAt, row.consumedAt = some consumedAt →
    consumedAt < row.expiresAt ∧ consumedAt ≤ s.clock
  unique : ∀ (i j : ℕ) (row row' : Override), s.overrides[i]? = some row → s.overrides[j]? = some row' →
    row.id = row'.id → i = j
  accepted : ∀ a ∈ s.accepted, ∃ row ∈ s.overrides, AcceptedThrough a row ∧
    ∀ consumedAt, row.consumedAt = some consumedAt → consumedAt ≤ a.time

theorem Used.eq_of_id {s : State} (h : Used s) {row row' : Override} (hrow : row ∈ s.overrides)
    (hrow' : row' ∈ s.overrides) (hid : row.id = row'.id) : row = row' := by
  obtain ⟨i, hi⟩ := List.mem_iff_getElem?.mp hrow
  obtain ⟨j, hj⟩ := List.mem_iff_getElem?.mp hrow'
  obtain rfl := h.unique i j row row' hi hj hid
  exact Option.some.inj (hi.symm.trans hj)

theorem Used.unique_of_touches {s s' : State} (h : Used s) (htouches : Touches s s') (i j : ℕ) (row row' : Override)
    (hi : s'.overrides[i]? = some row) (hj : s'.overrides[j]? = some row') (hid : row.id = row'.id) : i = j := by
  -- Each of the two is an old row, as it was or claimed, or the new one.
  have hlast (k : ℕ) (row'' : Override) (hk : s'.overrides[k]? = some row'') (hnone : s.overrides[k]? = none) :
      k = s.overrides.length := by
    have hlt := (List.getElem?_eq_some_iff.mp hk).1
    have hle := List.getElem?_eq_none_iff.mp hnone
    have := htouches.atMostOne
    omega
  cases hold : s.overrides[i]? with
  | none =>
    cases hold' : s.overrides[j]? with
    | none => rw [hlast i row hi hold, hlast j row' hj hold']
    | some old' =>
      obtain ⟨_, hj', hclaims⟩ := htouches.claims j old' hold'
      obtain rfl := Option.some.inj (hj'.symm.trans hj)
      exact absurd (hclaims.id.symm.trans hid.symm)
        ((htouches.minted i row hi hold).2 old' (List.mem_of_getElem? hold'))
  | some old =>
    obtain ⟨_, hi', hclaims⟩ := htouches.claims i old hold
    obtain rfl := Option.some.inj (hi'.symm.trans hi)
    cases hold' : s.overrides[j]? with
    | none =>
      exact absurd (hclaims.id.symm.trans hid) ((htouches.minted j row' hj hold').2 old (List.mem_of_getElem? hold))
    | some old' =>
      obtain ⟨_, hj', hclaims'⟩ := htouches.claims j old' hold'
      obtain rfl := Option.some.inj (hj'.symm.trans hj)
      exact h.unique i j old old' hold hold' (hclaims.id.symm.trans (hid.trans hclaims'.id))

theorem Used.of_touches {s s' : State} (h : Used s) (htouches : Touches s s') : Used s' := by
  have hclaimed : ∀ row ∈ s'.overrides, ∀ consumedAt, row.consumedAt = some consumedAt →
      consumedAt < row.expiresAt ∧ consumedAt ≤ s.clock := by
    intro row' hrow' consumedAt hconsumed
    obtain ⟨j, hj⟩ := List.mem_iff_getElem?.mp hrow'
    cases hold : s.overrides[j]? with
    | none => simp [(htouches.minted j row' hj hold).1] at hconsumed
    | some row =>
      obtain ⟨row'', hrow'', hclaims⟩ := htouches.claims j row hold
      obtain rfl : row'' = row' := Option.some.inj (hrow''.symm.trans hj)
      rcases hclaims with rfl | ⟨-, hlt, rfl⟩
      · exact h.claimed row'' (List.mem_of_getElem? hold) consumedAt hconsumed
      · obtain rfl : s.clock = consumedAt := Option.some.inj hconsumed
        exact ⟨hlt, le_rfl⟩
  have hold : ∀ a ∈ s.accepted, ∃ row ∈ s'.overrides, AcceptedThrough a row ∧
      ∀ consumedAt, row.consumedAt = some consumedAt → consumedAt ≤ a.time := by
    intro a ha
    obtain ⟨row, hrow, hthrough, htime⟩ := h.accepted a ha
    obtain ⟨j, hj⟩ := List.mem_iff_getElem?.mp hrow
    obtain ⟨row', hrow', hclaims⟩ := htouches.claims j row hj
    obtain ⟨-, -, -, consumedAt, hconsumed, -⟩ := id hthrough
    obtain rfl := hclaims.eq_of_consumed (by simp [hconsumed])
    exact ⟨row', List.mem_of_getElem? hrow', hthrough, htime⟩
  refine ⟨?_, h.unique_of_touches htouches, ?_⟩
  · intro row hrow consumedAt hconsumed
    obtain ⟨hlt, hle⟩ := hclaimed row hrow consumedAt hconsumed
    exact ⟨hlt, hle.trans htouches.clock⟩
  · intro a ha
    rcases htouches.accepted with hsame | ⟨new, hnew, htime, row, hrow, hthrough⟩
    · exact hold a (hsame ▸ ha)
    · rw [hnew] at ha
      rcases List.mem_append.mp ha with ha | ha
      · exact hold a ha
      · obtain rfl := List.mem_singleton.mp ha
        refine ⟨row, hrow, hthrough, ?_⟩
        intro consumedAt hconsumed
        rw [htime]
        exact (hclaimed row hrow consumedAt hconsumed).2

theorem used_init : Used {} := ⟨by simp, by simp, by simp⟩

/-! ## One transaction for each row -/

/-- At most one StartTransaction is accepted through a row, and none after it expires. -/
def OneShot (s : State) : Prop :=
  ∀ row ∈ s.overrides,
    (s.accepted.filter fun a => a.startTransaction && decide (a.overrideId = row.id)).length ≤ 1 ∧
      ∀ a ∈ s.accepted, a.startTransaction → a.overrideId = row.id → a.time ≤ row.expiresAt

instance (s : State) : Decidable (OneShot s) :=
  inferInstanceAs (Decidable (∀ row ∈ s.overrides,
    (s.accepted.filter fun a => a.startTransaction && decide (a.overrideId = row.id)).length ≤ 1 ∧
      ∀ a ∈ s.accepted, a.startTransaction → a.overrideId = row.id → a.time ≤ row.expiresAt))

/-- A row that a StartTransaction may find again: it has not expired, and no StartTransaction of the station and tag
has asked since it was consumed. -/
def unasked (s : State) (r : Request) (row : Override) : Bool :=
  decide (s.clock ≤ row.expiresAt) && s.starts.all fun start =>
    !decide (start.stationId = r.call.stationId ∧ start.idTag = r.call.idTag) ||
      row.consumedAt.all fun consumedAt => decide (start.time < consumedAt)

/-- A StartTransaction that has nothing to claim finds no row again that has expired or was asked for. -/
def Clear (s : State) : Event → Bool
  | .startTransaction r _ free freeStill =>
    !(free && freeStill && s.reaches r) || s.overrides.any (claimable r.call.stationId r.call.idTag s.clock) ||
      s.overrides.all fun row => !reusable r.call.stationId r.call.idTag s.clock row || unasked s r row
  | _ => true

/-- What has been used so far: every accepted StartTransaction is among those that asked, came before its row expired,
and has its row to itself. -/
structure Counted (s : State) : Prop where
  used : Used s
  asked : ∀ a ∈ s.accepted, a.startTransaction = true → Start.mk a.stationId a.idTag a.time ∈ s.starts
  inTime : ∀ a ∈ s.accepted, a.startTransaction = true → ∀ row ∈ s.overrides, row.id = a.overrideId →
    a.time ≤ row.expiresAt
  once : ((s.accepted.filter (·.startTransaction)).map (·.overrideId)).Nodup

theorem Counted.oneShot {s : State} (h : Counted s) : OneShot s := by
  intro row hrow
  refine ⟨?_, fun a ha hstart hid => h.inTime a ha hstart row hrow hid.symm⟩
  have hcount := List.nodup_iff_count_le_one.mp h.once row.id
  rw [List.count_eq_length_filter, List.filter_map, List.length_map, List.filter_filter] at hcount
  refine le_of_eq_of_le (congrArg List.length (List.filter_congr ?_)) hcount
  intro a _
  rw [Bool.and_comm]
  rfl

theorem Counted.unserved {s : State} (h : Counted s) {r : Request} {connectorId : ℤ} {row : Override}
    (hclear : Clear s (.startTransaction r connectorId true true) = true) (hrow : (s.consume r).2 = some row) :
    (∀ a ∈ s.accepted, a.startTransaction = true → a.overrideId ≠ row.id) ∧ s.clock ≤ row.expiresAt := by
  have hreaches := State.reaches_of_consume hrow
  rcases State.gets_consume hrow with ⟨old, hold, hclaimable, rfl⟩ | ⟨hin, hreusable, hnone⟩
  · have hfields := of_decide_eq_true hclaimable
    refine ⟨?_, hfields.2.2.2.le⟩
    -- Whatever was accepted was accepted through a consumed row, and this one was not consumed.
    intro a ha _ hid
    obtain ⟨row', hrow', ⟨hid', -, -, consumedAt, hconsumed, -⟩, -⟩ := h.used.accepted a ha
    obtain rfl := h.used.eq_of_id hrow' hold (hid'.trans hid)
    rw [hfields.2.2.1] at hconsumed
    cases hconsumed
  · have hany : s.overrides.any (claimable r.call.stationId r.call.idTag s.clock) = false :=
      List.any_eq_false.mpr fun old hold => by simp [hnone old hold]
    have hunasked : unasked s r row = true := by
      rw [Clear, hreaches, hany, Bool.and_self, Bool.and_self, Bool.not_true, Bool.false_or, Bool.false_or] at hclear
      have hall := List.all_eq_true.mp hclear row hin
      rwa [hreusable, Bool.not_true, Bool.false_or] at hall
    obtain ⟨hexpires, hstarts⟩ := Bool.and_eq_true_iff.mp hunasked
    refine ⟨?_, of_decide_eq_true hexpires⟩
    intro a ha hstart hid
    obtain ⟨row', hrow', ⟨hid', hstation, htag, consumedAt, hconsumed, -⟩, hafter⟩ := h.used.accepted a ha
    obtain rfl := h.used.eq_of_id hrow' hin (hid'.trans hid)
    obtain ⟨hstation', htag', -⟩ := reusable_iff.mp hreusable
    have hbefore := List.all_eq_true.mp hstarts _ (h.asked a ha hstart)
    have hlt : a.time < consumedAt := by
      simpa [← hstation, ← htag, hstation', htag', hconsumed] using hbefore
    exact absurd (hafter consumedAt hconsumed) (not_le.mpr hlt)

/-- The acceptance that a step adds: if it is a StartTransaction, then it has asked, before its row expires, and no
other one has the row. -/
structure Serves (s s' : State) (a : Acceptance) : Prop where
  asked : Start.mk a.stationId a.idTag a.time ∈ s'.starts
  alone : ∀ b ∈ s.accepted, b.startTransaction = true → b.overrideId ≠ a.overrideId
  inTime : ∀ row ∈ s'.overrides, row.id = a.overrideId → a.time ≤ row.expiresAt

theorem Counted.of_touches {s s' : State} (h : Counted s) (htouches : Touches s s')
    (hstarts : ∀ start ∈ s.starts, start ∈ s'.starts)
    (haccepted : s'.accepted = s.accepted ∨
      ∃ a, s'.accepted = s.accepted ++ [a] ∧ (a.startTransaction = true → Serves s s' a)) : Counted s' := by
  have hused := h.used.of_touches htouches
  have hinTime : ∀ a ∈ s.accepted, a.startTransaction = true → ∀ row ∈ s'.overrides, row.id = a.overrideId →
      a.time ≤ row.expiresAt := by
    intro a ha hstart row hrow hid
    obtain ⟨old, hold, hthrough, -⟩ := h.used.accepted a ha
    obtain ⟨j, hj⟩ := List.mem_iff_getElem?.mp hold
    obtain ⟨row', hrow', hclaims⟩ := htouches.claims j old hj
    obtain rfl := hused.eq_of_id (List.mem_of_getElem? hrow') hrow (hclaims.id.trans (hthrough.1.trans hid.symm))
    rw [hclaims.expiresAt]
    exact h.inTime a ha hstart old hold hthrough.1
  rcases haccepted with hsame | ⟨new, hnew, hserves⟩
  · refine ⟨hused, ?_, ?_, by rw [hsame]; exact h.once⟩
    · intro a ha hstart
      exact hstarts _ (h.asked a (hsame ▸ ha) hstart)
    · intro a ha hstart
      exact hinTime a (hsame ▸ ha) hstart
  · refine ⟨hused, ?_, ?_, ?_⟩
    · intro a ha hstart
      rcases List.mem_append.mp (hnew ▸ ha) with ha | ha
      · exact hstarts _ (h.asked a ha hstart)
      · obtain rfl := List.mem_singleton.mp ha
        exact (hserves hstart).asked
    · intro a ha hstart
      rcases List.mem_append.mp (hnew ▸ ha) with ha | ha
      · exact hinTime a ha hstart
      · obtain rfl := List.mem_singleton.mp ha
        exact (hserves hstart).inTime
    · rw [hnew, List.filter_append, List.map_append]
      cases hstart : new.startTransaction with
      | false => simpa [hstart] using h.once
      | true =>
        have halone : new.overrideId ∉ (s.accepted.filter (·.startTransaction)).map (·.overrideId) := by
          intro hmem
          obtain ⟨b, hb, hid⟩ := List.mem_map.mp hmem
          exact (hserves hstart).alone b (List.mem_filter.mp hb).1 (List.mem_filter.mp hb).2 hid
        simp only [List.filter_cons, hstart, if_true, List.filter_nil, List.map_cons, List.map_nil]
        refine List.nodup_append.mpr ⟨h.once, List.nodup_singleton _, ?_⟩
        intro x hx y hy hxy
        obtain rfl := List.mem_singleton.mp hy
        exact halone (hxy ▸ hx)

namespace State

theorem starts_answer (s : State) (r : Request) (startTransaction : Bool) (connectorId : Option ℤ) :
    (s.answer r startTransaction connectorId).starts = s.starts := by
  unfold answer
  split <;> rfl

theorem overrides_answer (s : State) (r : Request) (startTransaction : Bool) (connectorId : Option ℤ) :
    (s.answer r startTransaction connectorId).overrides = (s.consume r).1 := by
  unfold answer
  split <;> rfl

theorem accepted_answer (s : State) (r : Request) (startTransaction : Bool) (connectorId : Option ℤ) :
    (s.answer r startTransaction connectorId).accepted = s.accepted ∨
      ∃ row, (s.consume r).2 = some row ∧ (s.answer r startTransaction connectorId).accepted = s.accepted ++
        [Acceptance.mk startTransaction r.call.stationId connectorId r.call.idTag s.clock row.id] := by
  unfold answer
  split
  · exact .inl rfl
  · rename_i row hrow
    exact .inr ⟨row, hrow, rfl⟩

end State

theorem Counted.step {s : State} (h : Counted s) (e : Event) (hclear : Clear s e = true) :
    Counted (OperatorOverride.step s e) := by
  have htouches := touches_step s e
  cases e with
  | elapse seconds => exact h.of_touches htouches (fun _ hstart => hstart) (.inl rfl)
  | mint id stationId idTag connectorId depotId expiresInSeconds =>
    exact h.of_touches htouches (fun _ hstart => hstart) (.inl rfl)
  | authorize r =>
    refine h.of_touches htouches (fun start hstart => ?_) ?_
    · rw [OperatorOverride.step, State.starts_answer]
      exact hstart
    · rcases State.accepted_answer s r false none with hsame | ⟨row, -, hnew⟩
      · exact .inl hsame
      · exact .inr ⟨_, hnew, fun hstart => absurd hstart Bool.false_ne_true⟩
  | startTransaction r connectorId free freeStill =>
    cases free with
    | false => exact h
    | true =>
      cases freeStill with
      | false => exact h.of_touches htouches (fun _ hstart => hstart) (.inl rfl)
      | true =>
        have hstarts := State.starts_answer (s.ask r) r true (some connectorId)
        refine h.of_touches htouches ?_ ?_
        · intro start hstart
          show start ∈ ((s.ask r).answer r true (some connectorId)).starts
          rw [hstarts]
          exact s.starts_ask r hstart
        · rcases State.accepted_answer (s.ask r) r true (some connectorId) with hsame | ⟨row, hrow, hnew⟩
          · exact .inl (hsame.trans (s.ask_accepted r))
          · rw [State.ask_accepted] at hnew
            rw [State.ask_consume] at hrow
            obtain ⟨halone, hexpires⟩ := h.unserved hclear hrow
            refine .inr ⟨_, hnew, fun _ => ⟨?_, halone, ?_⟩⟩
            · show Start.mk r.call.stationId r.call.idTag (s.ask r).clock ∈
                ((s.ask r).answer r true (some connectorId)).starts
              rw [hstarts, State.ask_clock]
              exact s.mem_starts_ask (State.reaches_of_consume hrow)
            · intro row' hrow' hid
              -- The row that the request got is the only one with its id.
              have hmem : row ∈ (OperatorOverride.step s (.startTransaction r connectorId true true)).overrides := by
                show row ∈ ((s.ask r).answer r true (some connectorId)).overrides
                rw [State.overrides_answer, State.ask_consume]
                exact State.mem_consume hrow
              obtain rfl := (h.used.of_touches htouches).eq_of_id hrow' hmem hid
              rw [State.ask_clock]
              exact hexpires

/-- **One transaction for each override.**  In every run in which no StartTransaction finds a row again that has expired
or that an earlier StartTransaction of its station and tag has asked for since it was consumed, every row starts one
transaction at most, and none after it expires; whatever the times, the connectors and the Authorize requests. -/
theorem oneShot_of_clear (events : List Event) (h : Run.Along step (fun s e => Clear s e = true) {} events) :
    OneShot (Run.run step {} events) := by
  have hinit : Counted {} := ⟨used_init, by simp, by simp, List.nodup_nil⟩
  exact (Run.run_invariant_along (fun s e hclear hs => hs.step e hclear) hinit h).oneShot

def overrideRequest (source : String) (now : ℚ) : Request where
  call :=
    { stationId := "CP1".toList, idTag := "OP-1".toList, source, lookup := .unknown, checkedAt := now
      recordedAt := now }

/-- An override that serves for 60 seconds is authorized after 20 of them and starts a transaction 30 seconds later. -/
theorem authorized_start_oneShot :
    OneShot (Run.run step {}
      [.mint 1 "CP1".toList "OP-1".toList 1 "depot-1" 60, .elapse 20, .authorize (overrideRequest "Authorize" 20),
        .elapse 30, .startTransaction (overrideRequest "StartTransaction" 50) 1 true true]) :=
  oneShot_of_clear _ (by decide +kernel)

/-- The same override starts a transaction at once on connector 1, and after 100 seconds another one on connector 2. -/
theorem override_starts_twice :
    ¬ OneShot (Run.run step {}
      [.mint 1 "CP1".toList "OP-1".toList 1 "depot-1" 60,
        .startTransaction (overrideRequest "StartTransaction" 0) 1 true true, .elapse 100,
        .startTransaction (overrideRequest "StartTransaction" 100) 2 true true]) := by
  decide +kernel

end FavoniusBackend.Ocpp.OperatorOverride
