import FavoniusBackend.Agent.BudgetBound

/-!
# Whether reservations balance

`check_and_reserve` adds its estimate to what its counter has reserved, waits for the ceiling of the
organization and compares then.  What is reserved at a key is always what the calls that wait have added and
what the accepted ones have not recorded yet, and a call that is refused, fails or is cancelled takes back
what it has added.  But a call is compared with the estimates of the others that wait as well, and two calls
of which one would fit are both refused.

An eviction may drop a counter while calls of no tokens wait for their ceiling: these calls go on with the
counter they refer to.
-/

namespace FavoniusBackend.Agent.Budget

open Lib

/-! ### The calls -/

/-- The tracker, and the counters that calls still refer to after an eviction has dropped them. -/
structure Calls where
  tracker : Tracker
  dropped : ℕ → Option Counter := fun _ => none

def Calls.init (table : Key → Option Tokens) : Calls := { tracker := Tracker.init table }

/-- `check_and_reserve` of any estimate, up to its first await. -/
def Tracker.startCall (s : Tracker) (key : Key) (estTokens : ℤ) : Tracker :=
  let turn : Turn := { key := key, est := estTokens.toNat, phase := .waitingLock }
  let started := { s with turns := s.turns ++ [turn] }
  if key ∈ s.hydrated then started.pin s.turns.length turn else started

theorem startTurn_eq_startCall (s : Tracker) (key : Key) (promptLength : ℕ) :
    s.startTurn key promptLength = s.startCall key (estimateTurnTokens promptLength) := rfl

def Calls.counterOf (s : Calls) (i : ℕ) (turn : Turn) : Counter :=
  (s.dropped i).getD (s.tracker.counters.getD turn.key {})

/-- After a step of the tracker, a call that waits for its ceiling still refers to the counter that the step
has dropped. -/
def Calls.after (s : Calls) (t : Tracker) : Calls where
  tracker := t
  dropped := fun i =>
    match s.dropped i, t.turns[i]? with
    | some c, _ => some c
    | none, some turn =>
      if turn.phase = .deciding ∧ turn.key ∉ t.counters then s.tracker.counters.get? turn.key else none
    | none, none => none

/-- `check_and_reserve` behind its await, with a counter that has been dropped.  Nothing was reserved there,
so there is nothing to take back. -/
def Tracker.stepDropped (s : Tracker) (i : ℕ) (turn : Turn) (c : Counter) (e : TurnEvent) : Tracker :=
  match turn.phase, e with
  | .deciding, .ceiling ceiling =>
    if ceiling < c.total then s.setTurn i turn .finished
    else
      { s.setTurn i turn .finished with
        reservations := s.reservations ++ [{ key := turn.key, est := turn.est }] }
  | .deciding, .raises | .deciding, .cancel => s.setTurn i turn .finished
  | _, _ => s

/-- A call is made, of any estimate, or an event of the tracker happens. -/
inductive Call
  | start (key : Key) (estTokens : ℤ)
  | event (e : Event)
  deriving DecidableEq, Repr

def Calls.stepTracker (s : Calls) : Call → Tracker
  | .start key estTokens => s.tracker.startCall key estTokens
  | .event (.turnEvent i e) =>
    match s.dropped i, s.tracker.turns[i]? with
    | some c, some turn => s.tracker.stepDropped i turn c e
    | _, _ => step s.tracker (.turnEvent i e)
  | .event e => step s.tracker e

def Calls.step (s : Calls) (e : Call) : Calls := s.after (s.stepTracker e)

/-! ### The balance of a step -/

/-- What is reserved at a key is what the undecided calls have added and what the accepted ones hold. -/
def Tracker.Booked (s : Tracker) (key : Key) : Prop := s.reservedOf key = s.pinned key + s.outstanding key

/-- A step that changes neither the calls nor what is reserved. -/
structure SameHolds (s t : Tracker) : Prop where
  turns : t.turns = s.turns
  reservations : t.reservations = s.reservations
  reserved : ∀ key, t.reservedOf key = s.reservedOf key

theorem SameHolds.refl (s : Tracker) : SameHolds s s := ⟨rfl, rfl, fun _ => rfl⟩

theorem SameHolds.trans {s t u : Tracker} (h : SameHolds s t) (h' : SameHolds t u) : SameHolds s u where
  turns := h'.turns.trans h.turns
  reservations := h'.reservations.trans h.reservations
  reserved := fun key => (h'.reserved key).trans (h.reserved key)

theorem sameHolds_zeroed (s : Tracker) : SameHolds s s.zeroed :=
  ⟨rfl, rfl, fun key => (sameBooks_zeroed key s).reserved⟩

theorem sameHolds_rollBack (s : Tracker) (pending : List (Key × Tokens)) :
    SameHolds s (s.rollBack pending) := by
  obtain ⟨counters, heq⟩ := rollBack_eq s pending
  refine ⟨?_, ?_, fun key => (sameBooks_rollBack key s pending).reserved⟩
  · rw [heq]
  · rw [heq]

theorem sameHolds_onCounter (s : Tracker) (key : Key) {f : Counter → Counter}
    (hf : ∀ c, (f c).reserved = c.reserved) : SameHolds s (s.onCounter key f) := by
  obtain ⟨counters, heq⟩ := onCounter_eq s key f
  refine ⟨by rw [heq], by rw [heq], fun k => ?_⟩
  rw [Tracker.reservedOf, Tracker.reservedOf, Dict.getD, Dict.getD, get?_onCounter]
  by_cases hk : k = key
  · rw [if_pos hk, hk]
    cases s.counters.get? key with
    | none => rfl
    | some c => exact hf c
  · rw [if_neg hk]

theorem sameHolds_evict (s : Tracker) (current : String) : SameHolds s (s.evict current) := by
  refine ⟨rfl, rfl, fun key => ?_⟩
  have hget : (s.evict current).counters.get? key = (s.counters.get? key).filter (s.keeps current key) :=
    Dict.get?_filter (s.keeps current) s.counters key
  rw [Tracker.reservedOf, Tracker.reservedOf, Dict.getD, Dict.getD, hget]
  cases hc : s.counters.get? key with
  | none => rfl
  | some c =>
    by_cases hkept : s.keeps current key c = true
    · rw [Option.filter_some_pos hkept]
    · have hzero : c.reserved = 0 := by
        by_contra hne
        exact hkept (decide_eq_true (Or.inr (Or.inr (Or.inl hne))))
      rw [Option.filter_some_neg (Bool.eq_false_of_not_eq_true hkept)]
      exact hzero.symm

theorem sameHolds_stepWork (s : Tracker) (i : ℕ) (work : Work) (e : WorkEvent) :
    SameHolds s (s.stepWork i work e) := by
  have hset : ∀ (t : Tracker) (w : Work), SameHolds s t → SameHolds s (t.setWork i w) :=
    fun t w h => ⟨h.turns, h.reservations, h.reserved⟩
  unfold Tracker.stepWork
  split
  · exact ⟨rfl, rfl, fun _ => rfl⟩
  · rename_i pending reconciles current
    have hback := sameHolds_rollBack s pending
    split
    · exact hset _ _ (hback.trans (sameHolds_evict _ current))
    · exact hset _ _ hback
  · exact hset _ _ (sameHolds_evict s _)
  · exact hset _ _ (SameHolds.refl s)
  · exact hset _ _ (SameHolds.refl s)
  · exact hset _ _ (sameHolds_onCounter s _ fun _ => rfl)
  · exact SameHolds.refl s

theorem sameHolds_startFlush (s : Tracker) : SameHolds s s.startFlush := by
  have hzeroed := sameHolds_zeroed s
  rw [Tracker.startFlush]
  split
  · exact SameHolds.refl s
  · exact ⟨hzeroed.turns, hzeroed.reservations, hzeroed.reserved⟩

theorem sameHolds_startReconcile (s : Tracker) (current : String) :
    SameHolds s (s.startReconcile current) := by
  have hzeroed := sameHolds_zeroed s
  have hevicted := sameHolds_evict s current
  rw [Tracker.startReconcile]
  split
  · exact ⟨hevicted.turns, hevicted.reservations, hevicted.reserved⟩
  · exact ⟨hzeroed.turns, hzeroed.reservations, hzeroed.reserved⟩

theorem Tracker.Booked.of_same {s t : Tracker} {key : Key} (h : s.Booked key) (hsame : SameHolds s t) :
    t.Booked key := by
  rw [Tracker.Booked, hsame.reserved, Tracker.pinned, Tracker.outstanding, hsame.turns, hsame.reservations]
  exact h

/-! ### The balance of a call -/

theorem Moves.turns {s s' : Tracker} {i : ℕ} {turn : Turn} (h : Moves s i turn s')
    (hturn : s.turns[i]? = some turn) : ∃ phase, s'.turns = s.turns.set i { turn with phase := phase } := by
  cases h with
  | stays =>
    refine ⟨turn.phase, (List.ext_getElem? fun j => ?_).symm⟩
    by_cases hij : i = j
    · subst hij
      rw [List.getElem?_set_self', hturn]
      rfl
    · rw [List.getElem?_set_ne hij]
  | unpins hphase release =>
    obtain ⟨counters, heq⟩ := onCounter_eq s turn.key fun c => { c with reserved := release c.reserved }
    rw [heq]
    exact ⟨.finished, rfl⟩
  | pins => exact ⟨.deciding, rfl⟩
  | locks => exact ⟨.reading, rfl⟩
  | reads => exact ⟨.readRow (s.table turn.key), rfl⟩
  | fails => exact ⟨.deciding, rfl⟩
  | startsEmpty => exact ⟨.deciding, rfl⟩
  | seeds => exact ⟨.deciding, rfl⟩
  | leaves => exact ⟨.finished, rfl⟩
  | accepts => exact ⟨.finished, rfl⟩

/-- The estimate is added, in a state with the same calls. -/
theorem Tracker.Booked.pin {s t : Tracker} {i : ℕ} {turn : Turn} (h : s.Booked turn.key)
    (hturn : s.turns[i]? = some turn) (hphase : turn.phase ≠ .deciding) (hturns : t.turns = s.turns)
    (hreservations : t.reservations = s.reservations)
    (hreserved : t.reservedOf turn.key = s.reservedOf turn.key) : (t.pin i turn).Booked turn.key := by
  have hpinned := pinned_set hturn { turn with phase := .deciding } turn.key
  rw [pins_of_phase hphase, pins_deciding] at hpinned
  have hcounter := getD_withCounter t turn.key fun c => { c with reserved := c.reserved + turn.est }
  have hreserved' : (t.pin i turn).reservedOf turn.key = s.reservedOf turn.key + turn.est := by
    rw [← hreserved]
    exact congrArg Counter.reserved hcounter
  have hpinned' : (t.pin i turn).pinned turn.key = s.pinned turn.key + turn.est := by
    rw [Tracker.pinned, Tracker.pin, Tracker.setTurn, Tracker.withCounter, hturns]
    exact hpinned
  have houtstanding : (t.pin i turn).outstanding turn.key = s.outstanding turn.key :=
    congrArg (Tasks.total (Reservation.share turn.key)) hreservations
  have hbooked : s.reservedOf turn.key = s.pinned turn.key + s.outstanding turn.key := h
  rw [Tracker.Booked, hreserved', hpinned', houtstanding]
  push_cast
  omega

/-- A call that has added nothing goes on to a phase in which it has added nothing. -/
theorem Tracker.Booked.setTurn {s t : Tracker} {i : ℕ} {turn : Turn} {phase : TurnPhase} {key : Key}
    (h : s.Booked key) (hturn : s.turns[i]? = some turn) (hphase : turn.phase ≠ .deciding)
    (hnew : phase ≠ .deciding) (hturns : t.turns = s.turns) (hreservations : t.reservations = s.reservations)
    (hreserved : t.reservedOf key = s.reservedOf key) : (t.setTurn i turn phase).Booked key := by
  have hpinned : (t.setTurn i turn phase).pinned key = s.pinned key := by
    rw [← pinned_setTurn hturn hphase hnew key, Tracker.pinned, Tracker.pinned, Tracker.setTurn,
      Tracker.setTurn, hturns]
  have houtstanding : (t.setTurn i turn phase).outstanding key = s.outstanding key :=
    congrArg (Tasks.total (Reservation.share key)) hreservations
  rw [Tracker.Booked, hpinned, houtstanding]
  exact hreserved.trans h

/-- What the calls have added, once one that waited for its ceiling is over. -/
theorem pinned_finished {s : Tracker} {i : ℕ} {turn : Turn} (hturn : s.turns[i]? = some turn) (key : Key) :
    (s.setTurn i turn .finished).pinned key + turn.pins key = s.pinned key := by
  have hset := pinned_set hturn { turn with phase := .finished } key
  have hover : Turn.pins key { turn with phase := .finished } = 0 := pins_of_phase (by simp) key
  rw [hover, Nat.add_zero] at hset
  exact hset

theorem outstanding_accepted (s : Tracker) (turn : Turn) (key : Key) :
    Tasks.total (Reservation.share key) (s.reservations ++ [{ key := turn.key, est := turn.est }]) =
      s.outstanding key + if turn.key = key then turn.est else 0 :=
  Tasks.total_concat (Reservation.share key) s.reservations _

theorem Tracker.Booked.accepts {s : Tracker} {i : ℕ} {turn : Turn} {key : Key} (h : s.Booked key)
    (hturn : s.turns[i]? = some turn) (hphase : turn.phase = .deciding) :
    ({ s.setTurn i turn .finished with
      reservations := s.reservations ++ [{ key := turn.key, est := turn.est }] } : Tracker).Booked key := by
  have hpinned := pinned_finished hturn key
  have hpins : turn.pins key = if turn.key = key then turn.est else 0 := by
    rw [Turn.pins, hphase]
    simp only [and_true]
  have hbooked : s.reservedOf key = s.pinned key + s.outstanding key := h
  show s.reservedOf key = ((s.setTurn i turn .finished).pinned key : ℤ) +
    (Tasks.total (Reservation.share key) (s.reservations ++ [_]) : ℕ)
  rw [outstanding_accepted]
  omega

/-- A call that ends without a reservation takes back its estimate. -/
theorem Tracker.Booked.unpins {s : Tracker} {i : ℕ} {turn : Turn} (h : s.Booked turn.key)
    (hturn : s.turns[i]? = some turn) (hphase : turn.phase = .deciding) {release : ℤ → ℤ}
    (hrelease : ∀ x : ℤ, turn.est ≤ x → release x = x - turn.est) :
    ((s.onCounter turn.key fun c => { c with reserved := release c.reserved }).setTurn i turn
      .finished).Booked turn.key := by
  have hpinned := pinned_finished hturn turn.key
  rw [show turn.pins turn.key = turn.est from if_pos ⟨rfl, hphase⟩] at hpinned
  have hbooked : s.reservedOf turn.key = s.pinned turn.key + s.outstanding turn.key := h
  by_cases hin : turn.key ∈ s.counters
  · have hnew := getD_withCounter s turn.key fun c => { c with reserved := release c.reserved }
    rw [onCounter_eq_withCounter hin]
    refine (congrArg Counter.reserved hnew).trans ?_
    show release (s.reservedOf turn.key) =
      ((s.setTurn i turn .finished).pinned turn.key : ℤ) + (s.outstanding turn.key : ℕ)
    rw [hrelease (s.reservedOf turn.key) (by omega)]
    omega
  · have habsent : s.counters.get? turn.key = none := by
      rw [← Option.not_isSome_iff_eq_none, ← Dict.mem_iff_isSome]
      exact hin
    have hzero : s.reservedOf turn.key = 0 := by
      rw [Tracker.reservedOf, Dict.getD, habsent]
      rfl
    rw [Tracker.onCounter, habsent]
    show s.reservedOf turn.key =
      ((s.setTurn i turn .finished).pinned turn.key : ℤ) + (s.outstanding turn.key : ℕ)
    omega

theorem Tracker.Booked.moves_own {s s' : Tracker} {i : ℕ} {turn : Turn} (h : s.Booked turn.key)
    (hturn : s.turns[i]? = some turn) (hmoves : Moves s i turn s') : s'.Booked turn.key := by
  cases hmoves with
  | stays => exact h
  | pins hphase => exact h.pin hturn (by rw [hphase]; decide) rfl rfl rfl
  | locks hphase =>
    exact h.setTurn (t := s.withCounter turn.key id) hturn (by rw [hphase]; decide) (by decide) rfl rfl
      (congrArg Counter.reserved (getD_withCounter s turn.key id))
  | reads hphase =>
    exact h.setTurn (t := s.beginBase turn.key _) hturn (by rw [hphase]; decide) (by simp) rfl rfl rfl
  | fails hphase => exact h.pin hturn (by rw [hphase]; decide) rfl rfl rfl
  | startsEmpty hphase => exact h.pin hturn (by rw [hphase]; simp) rfl rfl rfl
  | seeds tokens hphase =>
    have hreserved := congrArg Counter.reserved
      (getD_withCounter s turn.key fun c => { c with committed := tokens })
    exact h.pin hturn (by rw [hphase]; simp) rfl rfl hreserved
  | leaves hphase => exact h.setTurn hturn hphase (by decide) rfl rfl rfl
  | unpins hphase release hrelease => exact h.unpins hturn hphase hrelease
  | accepts hphase => exact h.accepts hturn hphase

theorem Tracker.Booked.moves {s s' : Tracker} {i : ℕ} {turn : Turn} {key : Key} (h : s.Booked key)
    (hturn : s.turns[i]? = some turn) (hmoves : Moves s i turn s') : s'.Booked key := by
  by_cases hkey : turn.key = key
  · subst hkey
    exact h.moves_own hturn hmoves
  · have hsame := sameBooks_of_ne hmoves hturn hkey
    rw [Tracker.Booked, hsame.reserved, hsame.pinned, hsame.outstanding]
    exact h

theorem mem_counters_of_moves {s s' : Tracker} {i : ℕ} {turn : Turn} (hmoves : Moves s i turn s') {key : Key}
    (hkey : key ∈ s.counters) : key ∈ s'.counters := by
  have hpin : ∀ {t : Tracker}, key ∈ t.counters → key ∈ (t.pin i turn).counters :=
    fun h => Dict.mem_set.2 (Or.inr h)
  cases hmoves with
  | stays => exact hkey
  | pins => exact hpin hkey
  | locks => exact Dict.mem_set.2 (Or.inr hkey)
  | reads => exact hkey
  | fails => exact hpin hkey
  | startsEmpty => exact hpin hkey
  | seeds tokens => exact hpin (Dict.mem_set.2 (Or.inr hkey))
  | leaves => exact hkey
  | unpins => exact mem_onCounter.2 hkey
  | accepts => exact hkey

theorem Tracker.Booked.recordActual {s : Tracker} {key : Key} (h : s.Booked key) (i : ℕ) (actual : Tokens) :
    (s.recordActual i actual).Booked key := by
  cases hr : s.reservations[i]? with
  | none =>
    rw [Tracker.recordActual, hr]
    exact h
  | some r =>
    have herase : Tasks.total (Reservation.share key) (s.reservations.eraseIdx i) + r.share key =
        s.outstanding key := Tasks.total_eraseIdx (Reservation.share key) hr
    have hbooked : s.reservedOf key = s.pinned key + s.outstanding key := h
    rw [Tracker.recordActual, hr]
    by_cases hkey : r.key = key
    · subst hkey
      rw [show r.share r.key = r.est from if_pos rfl] at herase
      refine (congrArg Counter.reserved (getD_withCounter s r.key (Counter.settle r.est actual))).trans ?_
      show max 0 (s.reservedOf r.key - r.est) =
        (s.pinned r.key : ℤ) + (Tasks.total (Reservation.share r.key) (s.reservations.eraseIdx i) : ℕ)
      omega
    · rw [show r.share key = 0 from if_neg hkey] at herase
      have hcounter : (s.withCounter r.key (Counter.settle r.est actual)).reservedOf key =
          s.reservedOf key := by
        rw [Tracker.reservedOf, Tracker.reservedOf, Dict.getD, Dict.getD, get?_withCounter,
          if_neg (Ne.symm hkey)]
      refine hcounter.trans ?_
      show s.reservedOf key =
        (s.pinned key : ℤ) + (Tasks.total (Reservation.share key) (s.reservations.eraseIdx i) : ℕ)
      omega

end FavoniusBackend.Agent.Budget
