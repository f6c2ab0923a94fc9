import FavoniusBackend.Agent.Reservations

/-!
# Which calls are refused

What holds in every interleaving of calls, records, flushes and reconciliations: what is reserved is what
the calls hold, and a call that still waits refers to a counter, its key's or one that was dropped with
nothing reserved.  With it, a call is refused only if what is committed, what accepted calls hold and its own
estimate exceed the ceiling, as long as the other calls that wait do not lift a sum that fits above it.
-/

namespace FavoniusBackend.Agent.Budget

open Lib

/-! ### What a step does to the calls -/

/-- A step of the tracker: it keeps the balance and the calls, a call that has come to wait for its ceiling
has a counter, and a counter is lost only with nothing reserved. -/
structure Steps (s t : Tracker) : Prop where
  booked : ∀ key, t.Booked key
  persists : ∀ (i : ℕ) (turn : Turn), s.turns[i]? = some turn →
    ∃ phase, t.turns[i]? = some { turn with phase := phase }
  waits : ∀ (i : ℕ) (turn : Turn), t.turns[i]? = some turn → turn.phase = .deciding →
    s.turns[i]? = some turn ∨ turn.key ∈ t.counters
  lost : ∀ key ∈ s.counters, key ∉ t.counters → s.reservedOf key = 0

theorem reservedOf_of_absent {s : Tracker} {key : Key} (h : key ∉ s.counters) : s.reservedOf key = 0 := by
  have habsent : s.counters.get? key = none := by
    rw [← Option.not_isSome_iff_eq_none, ← Dict.mem_iff_isSome]
    exact h
  rw [Tracker.reservedOf, Dict.getD, habsent]
  rfl

theorem SameHolds.steps {s t : Tracker} (h : SameHolds s t) (hbooked : ∀ key, s.Booked key) : Steps s t where
  booked := fun key => (hbooked key).of_same h
  persists := fun i turn hturn => ⟨turn.phase, by rw [h.turns, hturn]⟩
  waits := fun i turn hturn _ => Or.inl (by rw [← h.turns, hturn])
  lost := fun key _ hgone => by rw [← h.reserved, reservedOf_of_absent hgone]

theorem steps_of_set {s t : Tracker} {i : ℕ} {turn : Turn} {phase : TurnPhase}
    (hturn : s.turns[i]? = some turn) (hturns : t.turns = s.turns.set i { turn with phase := phase })
    (hbooked : ∀ key, t.Booked key) (hcounters : ∀ key ∈ s.counters, key ∈ t.counters)
    (hwaits : phase = .deciding → phase = turn.phase ∨ turn.key ∈ t.counters) : Steps s t := by
  have hself : (s.turns.set i { turn with phase := phase })[i]? = some { turn with phase := phase } := by
    rw [List.getElem?_set_self', hturn]
    rfl
  refine ⟨hbooked, ?_, ?_, fun key hin hgone => absurd (hcounters key hin) hgone⟩
  · intro j other hother
    rw [hturns]
    by_cases hij : i = j
    · subst hij
      obtain rfl : turn = other := by simpa [hturn] using hother
      exact ⟨phase, hself⟩
    · exact ⟨other.phase, by rw [List.getElem?_set_ne hij, hother]⟩
  · intro j other hother hdeciding
    rw [hturns] at hother
    by_cases hij : i = j
    · subst hij
      rw [hself] at hother
      obtain rfl := Option.some.inj hother
      rcases hwaits hdeciding with hsame | hin
      · left
        rw [hturn, hsame]
      · exact Or.inr hin
    · rw [List.getElem?_set_ne hij] at hother
      exact Or.inl hother

theorem mem_pin (s : Tracker) (i : ℕ) (turn : Turn) : turn.key ∈ (s.pin i turn).counters :=
  mem_withCounter s turn.key fun c => { c with reserved := c.reserved + turn.est }

theorem steps_of_moves {s s' : Tracker} {i : ℕ} {turn : Turn} (hbooked : ∀ key, s.Booked key)
    (hturn : s.turns[i]? = some turn) (hmoves : Moves s i turn s') : Steps s s' := by
  obtain ⟨phase, hturns⟩ := hmoves.turns hturn
  refine steps_of_set hturn hturns (fun key => (hbooked key).moves hturn hmoves)
    (fun key => mem_counters_of_moves hmoves) fun hdeciding => ?_
  have hself : s'.turns[i]? = some { turn with phase := phase } := by
    rw [hturns, List.getElem?_set_self', hturn]
    rfl
  have hphase : ∀ {p : TurnPhase}, s'.turns = s.turns.set i { turn with phase := p } → p = phase := by
    intro p hp
    rw [hp, List.getElem?_set_self', hturn] at hself
    exact congrArg Turn.phase (Option.some.inj hself)
  cases hmoves with
  | stays =>
    rw [hturn] at hself
    exact Or.inl (congrArg Turn.phase (Option.some.inj hself)).symm
  | pins => exact Or.inr (mem_pin _ i turn)
  | locks => exact absurd ((hphase rfl).trans hdeciding) (by decide)
  | reads => exact absurd ((hphase rfl).trans hdeciding) (by simp)
  | fails => exact Or.inr (mem_pin _ i turn)
  | startsEmpty => exact Or.inr (mem_pin _ i turn)
  | seeds => exact Or.inr (mem_pin _ i turn)
  | leaves => exact absurd ((hphase rfl).trans hdeciding) (by decide)
  | unpins hp release =>
    obtain ⟨counters, heq⟩ := onCounter_eq s turn.key fun c => { c with reserved := release c.reserved }
    rw [heq] at hphase
    exact absurd ((hphase rfl).trans hdeciding) (by decide)
  | accepts => exact absurd ((hphase rfl).trans hdeciding) (by decide)

theorem Tracker.Booked.waits {s : Tracker} {key : Key} (h : s.Booked key) {turn : Turn}
    (hphase : turn.phase = .waitingLock) : Tracker.Booked { s with turns := s.turns ++ [turn] } key := by
  have hpinned : Tasks.total (Turn.pins key) (s.turns ++ [turn]) = s.pinned key := by
    rw [Tasks.total_concat, pins_of_phase (by rw [hphase]; decide), add_zero]
    rfl
  show s.reservedOf key = ((Tasks.total (Turn.pins key) (s.turns ++ [turn]) : ℕ) : ℤ) + s.outstanding key
  rw [hpinned]
  exact h

theorem steps_startCall {s : Tracker} (hbooked : ∀ key, s.Booked key) (key : Key) (estTokens : ℤ) :
    Steps s (s.startCall key estTokens) := by
  set turn : Turn := { key := key, est := estTokens.toNat, phase := .waitingLock } with hturn
  set started : Tracker := { s with turns := s.turns ++ [turn] } with hstarted
  have hlast : started.turns[s.turns.length]? = some turn := by simp [hstarted]
  have hold : ∀ {i : ℕ} {other : Turn}, s.turns[i]? = some other → started.turns[i]? = some other := by
    intro i other hother
    exact (List.getElem?_append_left (List.getElem?_eq_some_iff.1 hother).1).trans hother
  have hnew : ∀ {i : ℕ} {other : Turn}, started.turns[i]? = some other → other.phase = .deciding →
      s.turns[i]? = some other := by
    intro i other hother hdeciding
    by_cases hi : i < s.turns.length
    · rwa [hstarted, List.getElem?_append_left hi] at hother
    · rw [hstarted, List.getElem?_append_right (not_lt.1 hi)] at hother
      have hphase : other = turn := by
        obtain ⟨hzero, heq⟩ := List.getElem?_eq_some_iff.1 hother
        simpa using heq.symm
      rw [hphase] at hdeciding
      cases hdeciding
  have hwaits : ∀ k, started.Booked k := fun k => (hbooked k).waits rfl
  by_cases hhydrated : key ∈ s.hydrated
  · have hsteps : Steps started (started.pin s.turns.length turn) :=
      steps_of_moves hwaits hlast (.pins rfl hhydrated)
    have heq : s.startCall key estTokens = started.pin s.turns.length turn := if_pos hhydrated
    rw [heq]
    refine ⟨hsteps.booked, fun i other hother => hsteps.persists i other (hold hother), ?_, hsteps.lost⟩
    intro i other hother hdeciding
    exact (hsteps.waits i other hother hdeciding).imp (fun h => hnew h hdeciding) id
  · have heq : s.startCall key estTokens = started := if_neg hhydrated
    rw [heq]
    refine ⟨hwaits, fun i other hother => ⟨other.phase, hold hother⟩, ?_, fun k hin hgone => absurd hin hgone⟩
    exact fun i other hother hdeciding => Or.inl (hnew hother hdeciding)

theorem steps_recordActual {s : Tracker} (hbooked : ∀ key, s.Booked key) (i : ℕ) (actual : Tokens) :
    Steps s (s.recordActual i actual) := by
  have hturns : (s.recordActual i actual).turns = s.turns := by
    rw [Tracker.recordActual]
    split
    · rfl
    · rfl
  have hcounters : ∀ key ∈ s.counters, key ∈ (s.recordActual i actual).counters := by
    intro key hkey
    rw [Tracker.recordActual]
    split
    · exact Dict.mem_set.2 (Or.inr hkey)
    · exact hkey
  constructor
  · exact fun key => (hbooked key).recordActual i actual
  · exact fun j turn hturn => ⟨turn.phase, by rw [hturns, hturn]⟩
  · exact fun j turn hturn _ => Or.inl (by rw [← hturns, hturn])
  · exact fun key hin hgone => absurd (hcounters key hin) hgone

theorem stepDropped_cases (s : Tracker) (i : ℕ) (turn : Turn) (c : Counter) (e : TurnEvent) :
    s.stepDropped i turn c e = s ∨ turn.phase = .deciding ∧
      (s.stepDropped i turn c e = s.setTurn i turn .finished ∨
        s.stepDropped i turn c e = { s.setTurn i turn .finished with
          reservations := s.reservations ++ [{ key := turn.key, est := turn.est }] }) := by
  unfold Tracker.stepDropped
  split
  · rename_i hphase
    split
    · exact Or.inr ⟨hphase, Or.inl rfl⟩
    · exact Or.inr ⟨hphase, Or.inr rfl⟩
  · exact Or.inr ⟨‹_›, Or.inl rfl⟩
  · exact Or.inr ⟨‹_›, Or.inl rfl⟩
  · exact Or.inl rfl

theorem steps_stepDropped {s : Tracker} {i : ℕ} {turn : Turn} (hbooked : ∀ key, s.Booked key)
    (hturn : s.turns[i]? = some turn) (hest : turn.est = 0) (c : Counter) (e : TurnEvent) :
    Steps s (s.stepDropped i turn c e) := by
  rcases stepDropped_cases s i turn c e with hstays | ⟨hphase, hends | haccepts⟩
  · rw [hstays]
    exact (SameHolds.refl s).steps hbooked
  · rw [hends]
    refine steps_of_set hturn rfl (fun key => ?_) (fun key hkey => hkey) fun h => by cases h
    have hpinned := pinned_finished hturn key
    have hpins : turn.pins key = 0 := by
      rw [Turn.pins, hest]
      exact ite_self 0
    have hbook : s.reservedOf key = s.pinned key + s.outstanding key := hbooked key
    show s.reservedOf key = ((s.setTurn i turn .finished).pinned key : ℤ) + s.outstanding key
    omega
  · rw [haccepts]
    exact steps_of_set hturn rfl (fun key => (hbooked key).accepts hturn hphase) (fun key hkey => hkey)
      fun h => by cases h

/-! ### What holds along every run -/

/-- The balance of every key, and a counter for every call that waits for its ceiling: the one of its key,
or one that was dropped with nothing reserved, for no tokens. -/
structure Held (s : Calls) : Prop where
  booked : ∀ key, s.tracker.Booked key
  kept : ∀ (i : ℕ) (turn : Turn), s.tracker.turns[i]? = some turn → turn.phase = .deciding →
    s.dropped i = none → turn.key ∈ s.tracker.counters
  dropped : ∀ i c, s.dropped i = some c →
    c.reserved = 0 ∧ ∃ turn, s.tracker.turns[i]? = some turn ∧ turn.est = 0

theorem held_init (table : Key → Option Tokens) : Held (Calls.init table) where
  booked := fun _ => rfl
  kept := fun i turn hturn => by cases hturn
  dropped := fun i c hc => by cases hc

theorem dropped_after (s : Calls) (t : Tracker) (i : ℕ) :
    (s.after t).dropped i = match s.dropped i, t.turns[i]? with
      | some c, _ => some c
      | none, some turn =>
        if turn.phase = .deciding ∧ turn.key ∉ t.counters then s.tracker.counters.get? turn.key else none
      | none, none => none := rfl

/-- A call that waits for its ceiling has added no more than is reserved. -/
theorem est_le_pinned {s : Tracker} {i : ℕ} {turn : Turn} (hturn : s.turns[i]? = some turn)
    (hphase : turn.phase = .deciding) : turn.est ≤ s.pinned turn.key := by
  have hpinned := pinned_finished hturn turn.key
  rw [show turn.pins turn.key = turn.est from if_pos ⟨rfl, hphase⟩] at hpinned
  omega

theorem lost_zero {s t : Tracker} (hsteps : Steps s t) {i : ℕ} {turn : Turn} {c : Counter}
    (hturn : t.turns[i]? = some turn) (hphase : turn.phase = .deciding) (hgone : turn.key ∉ t.counters)
    (hc : s.counters.get? turn.key = some c) : c.reserved = 0 ∧ turn.est = 0 := by
  have hbefore := hsteps.lost turn.key (Dict.mem_iff_isSome.2 (by rw [hc]; rfl)) hgone
  have hreserved : s.reservedOf turn.key = c.reserved := by
    rw [Tracker.reservedOf, Dict.getD, hc]
    rfl
  have hbook : t.reservedOf turn.key = t.pinned turn.key + t.outstanding turn.key := hsteps.booked turn.key
  have hzero := reservedOf_of_absent hgone
  have hle := est_le_pinned hturn hphase
  omega

theorem Held.kept_after {s : Calls} {t : Tracker} (h : Held s) (hsteps : Steps s.tracker t) {i : ℕ} {turn : Turn}
    (hturn : t.turns[i]? = some turn) (hphase : turn.phase = .deciding) (hnone : (s.after t).dropped i = none) :
    turn.key ∈ t.counters := by
  by_contra hgone
  rw [dropped_after, hturn] at hnone
  cases hd : s.dropped i with
  | some c =>
    rw [hd] at hnone
    cases hnone
  | none =>
    rw [hd] at hnone
    simp only [hphase, hgone, not_false_eq_true, and_self, if_true] at hnone
    rcases hsteps.waits i turn hturn hphase with hold | hin
    · have hkept := h.kept i turn hold hphase hd
      rw [Dict.mem_iff_isSome, hnone] at hkept
      cases hkept
    · exact hgone hin

theorem Held.dropped_after {s : Calls} {t : Tracker} (h : Held s) (hsteps : Steps s.tracker t) {i : ℕ} {c : Counter}
    (hc : (s.after t).dropped i = some c) :
    c.reserved = 0 ∧ ∃ turn, t.turns[i]? = some turn ∧ turn.est = 0 := by
  rw [Budget.dropped_after] at hc
  cases hd : s.dropped i with
  | some c' =>
    rw [hd] at hc
    obtain rfl := Option.some.inj hc
    obtain ⟨hzero, turn, hturn, hest⟩ := h.dropped i c' hd
    obtain ⟨phase, hnew⟩ := hsteps.persists i turn hturn
    exact ⟨hzero, _, hnew, hest⟩
  | none =>
    rw [hd] at hc
    cases hturn : t.turns[i]? with
    | none =>
      rw [hturn] at hc
      cases hc
    | some turn =>
      rw [hturn] at hc
      change (if turn.phase = .deciding ∧ turn.key ∉ t.counters then s.tracker.counters.get? turn.key
        else none) = some c at hc
      by_cases hlost : turn.phase = .deciding ∧ turn.key ∉ t.counters
      · rw [if_pos hlost] at hc
        obtain ⟨hzero, hest⟩ := lost_zero hsteps hturn hlost.1 hlost.2 hc
        exact ⟨hzero, turn, rfl, hest⟩
      · rw [if_neg hlost] at hc
        cases hc

theorem Held.after {s : Calls} {t : Tracker} (h : Held s) (hsteps : Steps s.tracker t) : Held (s.after t) where
  booked := hsteps.booked
  kept := fun _ _ hturn hphase hnone => h.kept_after hsteps hturn hphase hnone
  dropped := fun _ _ hc => h.dropped_after hsteps hc

theorem steps_step {s : Tracker} (hbooked : ∀ key, s.Booked key) (e : Event) : Steps s (step s e) := by
  cases e with
  | turn key promptLength =>
    rw [Budget.step, startTurn_eq_startCall]
    exact steps_startCall hbooked key _
  | turnEvent i e =>
    rw [Budget.step]
    cases hturn : s.turns[i]? with
    | some turn => exact steps_of_moves hbooked hturn (stepTurn_moves s i turn e)
    | none => exact (SameHolds.refl s).steps hbooked
  | record i actual => exact steps_recordActual hbooked i actual
  | flush => exact (sameHolds_startFlush s).steps hbooked
  | reconcile current => exact (sameHolds_startReconcile s current).steps hbooked
  | workEvent i e =>
    rw [Budget.step]
    cases hwork : s.works[i]? with
    | some work => exact (sameHolds_stepWork s i work e).steps hbooked
    | none => exact (SameHolds.refl s).steps hbooked

theorem Held.stepTracker {s : Calls} (h : Held s) (e : Call) : Steps s.tracker (s.stepTracker e) := by
  unfold Calls.stepTracker
  split
  · exact steps_startCall h.booked _ _
  · split
    · rename_i i e _ _ c turn hdropped hturn
      obtain ⟨-, turn', hturn', hest⟩ := h.dropped i c hdropped
      obtain rfl : turn = turn' := by simpa [hturn] using hturn'
      exact steps_stepDropped h.booked hturn hest c e
    · exact steps_step h.booked _
  · exact steps_step h.booked _

/-- **The invariant.**  Every step keeps it. -/
theorem Held.step {s : Calls} (h : Held s) (e : Call) : Held (s.step e) := h.after (h.stepTracker e)

/-! ### The calls that end without a reservation -/

/-- A call is refused, fails or is cancelled: it is over, and there is no reservation. -/
def Calls.Ends (s : Calls) (i : ℕ) (turn : Turn) (e : TurnEvent) : Prop :=
  s.tracker.turns[i]? = some turn ∧ turn.phase ≠ .finished ∧
    (s.stepTracker (.event (.turnEvent i e))).turns[i]? = some { turn with phase := .finished } ∧
    (s.stepTracker (.event (.turnEvent i e))).reservations = s.tracker.reservations

def Calls.committed (s : Calls) (i : ℕ) (turn : Turn) : ℕ :=
  (s.counterOf i turn).committed.1 + (s.counterOf i turn).committed.2

/-- What is reserved is what the undecided calls have added and what the accepted ones have not recorded; a
call that ends without a reservation takes back what it has added; and a call is refused only if what is
committed, what the accepted calls hold and its own estimate exceed the ceiling. -/
structure Exact (s : Calls) (e : Call) : Prop where
  balances : ∀ key, (s.step e).tracker.reservedOf key =
    (s.step e).tracker.pinned key + (s.step e).tracker.outstanding key
  givesBack : ∀ i turn event, e = .event (.turnEvent i event) → s.Ends i turn event →
    ∀ key, (s.step e).tracker.reservedOf key + turn.pins key = s.tracker.reservedOf key
  refusesOver : ∀ i turn ceiling, e = .event (.turnEvent i (.ceiling ceiling)) →
    s.Ends i turn (.ceiling ceiling) →
      ceiling < s.committed i turn + s.tracker.outstanding turn.key + turn.est

/-- Where a call is decided, the others that wait do not lift a sum above the ceiling that fits without
them. -/
def Uncrowded (s : Calls) (e : Call) : Prop :=
  ∀ i turn ceiling, e = .event (.turnEvent i (.ceiling ceiling)) → s.tracker.turns[i]? = some turn →
    turn.phase = .deciding → s.dropped i = none →
      s.committed i turn + s.tracker.outstanding turn.key + turn.est ≤ ceiling →
        s.committed i turn + s.tracker.outstanding turn.key + s.tracker.pinned turn.key ≤ ceiling

theorem stepTracker_of_kept {s : Calls} {i : ℕ} {turn : Turn} (hturn : s.tracker.turns[i]? = some turn)
    (hdropped : s.dropped i = none) (e : TurnEvent) :
    s.stepTracker (.event (.turnEvent i e)) = s.tracker.stepTurn i turn e := by
  unfold Calls.stepTracker
  dsimp only
  rw [hdropped, Budget.step, hturn]

theorem stepTracker_of_dropped {s : Calls} {i : ℕ} {turn : Turn} {c : Counter}
    (hturn : s.tracker.turns[i]? = some turn) (hdropped : s.dropped i = some c) (e : TurnEvent) :
    s.stepTracker (.event (.turnEvent i e)) = s.tracker.stepDropped i turn c e := by
  unfold Calls.stepTracker
  dsimp only
  rw [hdropped, hturn]

theorem Held.total_eq {s : Calls} (h : Held s) (i : ℕ) (turn : Turn) :
    (s.counterOf i turn).total = s.committed i turn +
      if s.dropped i = none then (s.tracker.pinned turn.key + s.tracker.outstanding turn.key : ℤ) else 0 := by
  have hbook : s.tracker.reservedOf turn.key = s.tracker.pinned turn.key + s.tracker.outstanding turn.key :=
    h.booked turn.key
  rw [Counter.total, Calls.committed, ← hbook]
  push_cast
  cases hd : s.dropped i with
  | none =>
    rw [if_pos rfl, Calls.counterOf, hd]
    rfl
  | some c =>
    obtain ⟨hzero, -⟩ := h.dropped i c hd
    rw [if_neg (by simp), Calls.counterOf, hd]
    show (c.committed.1 : ℤ) + c.committed.2 + c.reserved = c.committed.1 + c.committed.2 + 0
    rw [hzero]

theorem Held.stepTracker_ceiling {s : Calls} (h : Held s) {i : ℕ} {turn : Turn} (ceiling : ℤ)
    (hturn : s.tracker.turns[i]? = some turn) (hphase : turn.phase = .deciding) :
    ∃ t : Tracker, t.turns = s.tracker.turns ∧ t.reservations = s.tracker.reservations ∧
      s.stepTracker (.event (.turnEvent i (.ceiling ceiling))) =
        if ceiling < (s.counterOf i turn).total then t.setTurn i turn .finished
        else { s.tracker.setTurn i turn .finished with
          reservations := s.tracker.reservations ++ [{ key := turn.key, est := turn.est }] } := by
  obtain ⟨key, est, phase⟩ := turn
  change phase = .deciding at hphase
  subst hphase
  cases hd : s.dropped i with
  | some c =>
    refine ⟨s.tracker, rfl, rfl, ?_⟩
    rw [stepTracker_of_dropped hturn hd, Calls.counterOf, hd]
    rfl
  | none =>
    have hkept := h.kept i _ hturn rfl hd
    obtain ⟨c, hc⟩ := Option.isSome_iff_exists.1 (Dict.mem_iff_isSome.1 hkept)
    obtain ⟨counters, heq⟩ := onCounter_eq s.tracker key fun c => { c with reserved := c.reserved - est }
    refine ⟨{ s.tracker with counters := counters }, rfl, rfl, ?_⟩
    have hcounter : s.counterOf i ⟨key, est, .deciding⟩ = c := by
      rw [Calls.counterOf, hd, Dict.getD, hc]
      rfl
    rw [stepTracker_of_kept hturn hd, hcounter, ← heq]
    simp only [Tracker.stepTurn, hc]

theorem stepTracker_ceiling_of_phase {s : Calls} {i : ℕ} {turn : Turn} (ceiling : ℤ)
    (hturn : s.tracker.turns[i]? = some turn) (hphase : turn.phase ≠ .deciding) :
    s.stepTracker (.event (.turnEvent i (.ceiling ceiling))) = s.tracker := by
  obtain ⟨key, est, phase⟩ := turn
  cases hd : s.dropped i with
  | some c =>
    rw [stepTracker_of_dropped hturn hd]
    cases phase with
    | deciding => exact absurd rfl hphase
    | _ => rfl
  | none =>
    rw [stepTracker_of_kept hturn hd]
    cases phase with
    | deciding => exact absurd rfl hphase
    | _ => rfl

theorem Held.refused_iff {s : Calls} (h : Held s) {i : ℕ} {turn : Turn} {ceiling : ℤ}
    (hturn : s.tracker.turns[i]? = some turn) :
    s.Ends i turn (.ceiling ceiling) ↔ turn.phase = .deciding ∧ ceiling < (s.counterOf i turn).total := by
  by_cases hphase : turn.phase = .deciding
  · obtain ⟨t, hturns, hreservations, hstep⟩ := h.stepTracker_ceiling ceiling hturn hphase
    rw [Calls.Ends, hstep, and_iff_right hturn, and_iff_right hphase]
    by_cases hover : ceiling < (s.counterOf i turn).total
    · rw [if_pos hover]
      refine iff_of_true ⟨by rw [hphase]; decide, ?_, hreservations⟩ hover
      show (t.turns.set i _)[i]? = _
      rw [hturns, List.getElem?_set_self', hturn]
      rfl
    · rw [if_neg hover]
      refine iff_of_false ?_ hover
      rintro ⟨-, -, hsame⟩
      exact absurd hsame (by simp)
  · rw [Calls.Ends, stepTracker_ceiling_of_phase ceiling hturn hphase]
    refine iff_of_false ?_ fun hends => hphase hends.1
    rintro ⟨-, hrunning, hends, -⟩
    rw [hturn] at hends
    exact hrunning (congrArg Turn.phase (Option.some.inj hends))

theorem stepTracker_turns {s : Calls} {i : ℕ} {turn : Turn} (hturn : s.tracker.turns[i]? = some turn)
    (e : TurnEvent) : ∃ phase, (s.stepTracker (.event (.turnEvent i e))).turns =
      s.tracker.turns.set i { turn with phase := phase } := by
  cases hd : s.dropped i with
  | none =>
    rw [stepTracker_of_kept hturn hd]
    exact (stepTurn_moves s.tracker i turn e).turns hturn
  | some c =>
    rw [stepTracker_of_dropped hturn hd]
    rcases stepDropped_cases s.tracker i turn c e with hstays | ⟨-, hends | haccepts⟩
    · rw [hstays]
      exact (@Moves.stays s.tracker i turn).turns hturn
    · rw [hends]
      exact ⟨.finished, rfl⟩
    · rw [haccepts]
      exact ⟨.finished, rfl⟩

theorem Held.givesBack {s : Calls} (h : Held s) {i : ℕ} {turn : Turn} {e : TurnEvent}
    (hends : s.Ends i turn e) (key : Key) :
    (s.step (.event (.turnEvent i e))).tracker.reservedOf key + turn.pins key =
      s.tracker.reservedOf key := by
  obtain ⟨hturn, -, hover, hreservations⟩ := hends
  obtain ⟨phase, hturns⟩ := stepTracker_turns hturn e
  have hphase : phase = .finished := by
    rw [hturns, List.getElem?_set_self', hturn] at hover
    exact congrArg Turn.phase (Option.some.inj hover)
  subst hphase
  set t := s.stepTracker (.event (.turnEvent i e)) with ht
  have hpinned : t.pinned key + turn.pins key = s.tracker.pinned key := by
    rw [Tracker.pinned, hturns]
    exact pinned_finished hturn key
  have houtstanding : t.outstanding key = s.tracker.outstanding key :=
    congrArg (Tasks.total (Reservation.share key)) hreservations
  have hbefore : s.tracker.reservedOf key = s.tracker.pinned key + s.tracker.outstanding key := h.booked key
  have hafter : t.reservedOf key = t.pinned key + t.outstanding key :=
    (h.stepTracker (.event (.turnEvent i e))).booked key
  show t.reservedOf key + turn.pins key = s.tracker.reservedOf key
  omega

theorem Held.exact_iff {s : Calls} (h : Held s) (e : Call) : Exact s e ↔ Uncrowded s e := by
  constructor
  · rintro hexact i turn ceiling rfl hturn hphase hkept hfits
    by_contra hcrowded
    have htotal := h.total_eq i turn
    rw [if_pos hkept] at htotal
    have hrefused : s.Ends i turn (.ceiling ceiling) := (h.refused_iff hturn).2 ⟨hphase, by omega⟩
    have hover := hexact.refusesOver i turn ceiling rfl hrefused
    omega
  · intro huncrowded
    refine ⟨(h.step e).booked, ?_, ?_⟩
    · rintro i turn event rfl hends
      exact h.givesBack hends
    · rintro i turn ceiling rfl hends
      have hturn := hends.1
      obtain ⟨hphase, hover⟩ := (h.refused_iff hturn).1 hends
      have htotal := h.total_eq i turn
      by_contra hfits
      cases hd : s.dropped i with
      | some c =>
        rw [if_neg (by rw [hd]; simp)] at htotal
        omega
      | none =>
        rw [if_pos hd] at htotal
        have hle := huncrowded i turn ceiling rfl hturn hphase hd (by omega)
        omega

/-- **Which calls are refused.**  Along every run of calls, records, flushes and reconciliations, what is
reserved is what the undecided calls and the outstanding reservations hold, and the refusals are exact as
long as, wherever a call is decided, the other calls that wait do not lift a sum above the ceiling that fits
without them. -/
theorem refusals_exact_iff (table : Key → Option Tokens) (events : List Call) :
    Run.Along Calls.step Exact (Calls.init table) events ↔
      Run.Along Calls.step Uncrowded (Calls.init table) events :=
  Run.along_iff_along (fun _ e h => h.exact_iff e) (fun _ e _ h => h.step e) (held_init table)

/-- Two calls of 60 tokens wait for their ceiling, 1000, when 900 tokens are committed. -/
def crowdedCalls : List Call :=
  [.start january 60, .event (.turnEvent 0 .lock), .event (.turnEvent 0 .read),
    .event (.turnEvent 0 .resume), .start january 60, .event (.turnEvent 0 (.ceiling 1000))]

/-- The first call is refused, and it fits. -/
theorem fitting_call_refused :
    ¬ Run.Along Calls.step Exact (Calls.init fun _ => some (900, 0)) crowdedCalls := by
  intro h
  obtain ⟨-, -, -, -, -, hexact, -⟩ := h
  have hover := hexact.refusesOver 0 { key := january, est := 60, phase := .deciding } 1000 rfl
    ⟨by decide, by decide, by decide, by decide⟩
  exact absurd hover (by decide)

end FavoniusBackend.Agent.Budget
