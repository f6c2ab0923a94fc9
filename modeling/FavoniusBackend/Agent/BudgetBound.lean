import Mathlib.Algebra.Order.Monoid.Prod
import FavoniusBackend.Agent.BudgetConservation

/-!
# Whether the budget under-counts

The committed tokens of a hydrated key are to cover the base that was read at its hydration and everything
recorded since, so that a turn is accepted only if this usage and the reservations stay below the ceiling.
Records keep this, and so does every step of a turn, a flush or an eviction.  A reconciliation replaces the
committed tokens by the row it has read and the deltas not flushed yet: what a flush took out of the counter
and had not brought into that row is missing then.
-/

namespace FavoniusBackend.Agent.Budget

open Lib

/-! ### What a turn can do -/

/-- What becomes of a turn at position `i`. -/
inductive Moves (s : Tracker) (i : ℕ) (turn : Turn) : Tracker → Prop
  | stays : Moves s i turn s
  | pins (hphase : turn.phase = .waitingLock) (hhydrated : turn.key ∈ s.hydrated) :
      Moves s i turn (s.pin i turn)
  | locks (hphase : turn.phase = .waitingLock) (hhydrated : turn.key ∉ s.hydrated)
      (hfree : ∀ t ∈ s.turns, t.phase.holdsLock = false) :
      Moves s i turn ((s.withCounter turn.key id).setTurn i turn .reading)
  | reads (hphase : turn.phase = .reading) :
      Moves s i turn ((s.beginBase turn.key ((s.table turn.key).getD 0)).setTurn i turn
        (.readRow (s.table turn.key)))
  | fails (hphase : turn.phase = .reading) :
      Moves s i turn ({ s.beginBase turn.key 0 with hydrated := turn.key :: s.hydrated }.pin i turn)
  | startsEmpty (hphase : turn.phase = .readRow none) :
      Moves s i turn ({ s with hydrated := turn.key :: s.hydrated }.pin i turn)
  | seeds (tokens : Tokens) (hphase : turn.phase = .readRow (some tokens)) :
      Moves s i turn ({ s.withCounter turn.key fun c => { c with committed := tokens } with
        hydrated := turn.key :: s.hydrated }.pin i turn)
  | leaves (hphase : turn.phase ≠ .deciding) : Moves s i turn (s.setTurn i turn .finished)
  | unpins (hphase : turn.phase = .deciding) (release : ℤ → ℤ)
      (hrelease : ∀ x : ℤ, turn.est ≤ x → release x = x - turn.est) :
      Moves s i turn
        ((s.onCounter turn.key fun c => { c with reserved := release c.reserved }).setTurn i turn .finished)
  | accepts (hphase : turn.phase = .deciding) :
      Moves s i turn { s.setTurn i turn .finished with
        reservations := s.reservations ++ [{ key := turn.key, est := turn.est }] }

theorem stepTurn_moves (s : Tracker) (i : ℕ) (turn : Turn) (e : TurnEvent) :
    Moves s i turn (s.stepTurn i turn e) := by
  unfold Tracker.stepTurn
  split
  · rename_i hphase
    split
    · exact .stays
    · rename_i hfree
      split
      · exact .pins hphase ‹_›
      · refine .locks hphase ‹_› fun t ht => ?_
        by_contra hholds
        exact hfree (List.any_eq_true.2 ⟨t, ht, by simpa using hholds⟩)
  · exact .reads ‹_›
  · exact .fails ‹_›
  · rename_i row hphase
    cases row with
    | none => exact .startsEmpty hphase
    | some tokens => exact .seeds tokens hphase
  · rename_i ceiling hphase
    split
    · split
      · exact .unpins hphase (fun x => x - turn.est) fun _ _ => rfl
      · exact .accepts hphase
    · exact .stays
  · exact .unpins ‹_› (fun x => max 0 (x - turn.est)) fun x hx => max_eq_right (by omega)
  · exact .unpins ‹_› (fun x => max 0 (x - turn.est)) fun x hx => max_eq_right (by omega)
  · rename_i hphase
    exact .leaves (by simp [hphase])
  · rename_i hphase
    exact .leaves (by simp [hphase])
  · rename_i hphase
    exact .leaves (by simp [hphase])
  · exact .stays

/-! ### The books of a key -/

def Tracker.usage (s : Tracker) (key : Key) : Tokens := s.base key + s.since key

def Tracker.committedOf (s : Tracker) (key : Key) : Tokens := (s.counters.getD key {}).committed

def Tracker.reservedOf (s : Tracker) (key : Key) : ℤ := (s.counters.getD key {}).reserved

def Turn.pins (key : Key) (turn : Turn) : ℕ :=
  if turn.key = key ∧ turn.phase = .deciding then turn.est else 0

def Turn.reads (key : Key) (turn : Turn) : ℕ :=
  if turn.key = key ∧ turn.phase.holdsLock = true then 1 else 0

def Reservation.share (key : Key) (r : Reservation) : ℕ := if r.key = key then r.est else 0

def Tracker.pinned (s : Tracker) (key : Key) : ℕ := Tasks.total (Turn.pins key) s.turns

def Tracker.readers (s : Tracker) (key : Key) : ℕ := Tasks.total (Turn.reads key) s.turns

/-- The reservations of accepted turns that have not been recorded. -/
def Tracker.outstanding (s : Tracker) (key : Key) : ℕ := Tasks.total (Reservation.share key) s.reservations

/-- The books of a key, with the account it has: a hydrated key covers its usage, what is reserved is what
the turns have reserved, and a key that is being hydrated has a counter and, once its row has been read, the
usage that the row says. -/
structure Sound (key : Key) (account : Tokens) (s : Tracker) : Prop where
  counted : key ∈ s.hydrated → key ∈ s.counters ∧ s.readers key = 0 ∧ s.usage key ≤ s.committedOf key ∧
    s.usage key ≤ account
  reserved : s.reservedOf key = s.pinned key + s.outstanding key
  idle : key ∉ s.hydrated → s.pinned key = 0 ∧ s.outstanding key = 0
  reading : s.readers key ≤ 1 ∧ (0 < s.readers key → key ∈ s.counters)
  row : ∀ t ∈ s.turns, t.key = key → ∀ row, t.phase = .readRow row →
    s.usage key = row.getD 0 ∧ s.usage key ≤ account

theorem zero_le_tokens (tokens : Tokens) : 0 ≤ tokens := ⟨Nat.zero_le _, Nat.zero_le _⟩

structure Positive (s : Tracker) : Prop where
  turns : ∀ t ∈ s.turns, 0 < t.est
  reservations : ∀ r ∈ s.reservations, 0 < r.est

theorem pinned_set {s : Tracker} {i : ℕ} {turn : Turn} (hturn : s.turns[i]? = some turn) (new : Turn)
    (key : Key) :
    Tasks.total (Turn.pins key) (s.turns.set i new) + turn.pins key = s.pinned key + new.pins key :=
  Tasks.total_set (Turn.pins key) hturn new

theorem readers_set {s : Tracker} {i : ℕ} {turn : Turn} (hturn : s.turns[i]? = some turn) (new : Turn)
    (key : Key) :
    Tasks.total (Turn.reads key) (s.turns.set i new) + turn.reads key = s.readers key + new.reads key :=
  Tasks.total_set (Turn.reads key) hturn new

theorem readers_pos {s : Tracker} {t : Turn} (ht : t ∈ s.turns) (hlock : t.phase.holdsLock = true) :
    0 < s.readers t.key := by
  obtain ⟨i, hi⟩ := List.mem_iff_getElem?.1 ht
  have hset := readers_set hi { t with phase := .finished } t.key
  have hreads : t.reads t.key = 1 := if_pos ⟨rfl, hlock⟩
  have hover : Turn.reads t.key { t with phase := .finished } = 0 := by simp [Turn.reads, TurnPhase.holdsLock]
  omega

structure SameBooks (key : Key) (s s' : Tracker) : Prop where
  hydrated : key ∈ s'.hydrated ↔ key ∈ s.hydrated
  member : key ∈ s'.counters ↔ key ∈ s.counters
  committed : s'.committedOf key = s.committedOf key
  reserved : s'.reservedOf key = s.reservedOf key
  usage : s'.usage key = s.usage key
  pinned : s'.pinned key = s.pinned key
  readers : s'.readers key = s.readers key
  outstanding : s'.outstanding key = s.outstanding key
  turns : ∀ t ∈ s'.turns, t.key = key → ∀ row, t.phase = .readRow row → t ∈ s.turns

theorem SameBooks.refl (key : Key) (s : Tracker) : SameBooks key s s :=
  ⟨Iff.rfl, Iff.rfl, rfl, rfl, rfl, rfl, rfl, rfl, fun _ ht _ _ _ => ht⟩

theorem SameBooks.trans {key : Key} {s t u : Tracker} (h : SameBooks key s t) (h' : SameBooks key t u) :
    SameBooks key s u where
  hydrated := h'.hydrated.trans h.hydrated
  member := h'.member.trans h.member
  committed := h'.committed.trans h.committed
  reserved := h'.reserved.trans h.reserved
  usage := h'.usage.trans h.usage
  pinned := h'.pinned.trans h.pinned
  readers := h'.readers.trans h.readers
  outstanding := h'.outstanding.trans h.outstanding
  turns := fun t ht hkey row hrow => h.turns t (h'.turns t ht hkey row hrow) hkey row hrow

theorem sameBooks_counters {key : Key} {s : Tracker} {counters : Dict Key Counter} {f : Counter → Counter}
    (hget : counters.get? key = (s.counters.get? key).map f)
    (hcommitted : ∀ c, (f c).committed = c.committed) (hreserved : ∀ c, (f c).reserved = c.reserved) :
    SameBooks key s { s with counters := counters } := by
  have hmember : key ∈ counters ↔ key ∈ s.counters := by
    rw [Dict.mem_iff_isSome, hget, Option.isSome_map, ← Dict.mem_iff_isSome]
  have hfields : (counters.getD key {}).committed = s.committedOf key ∧
      (counters.getD key {}).reserved = s.reservedOf key := by
    rw [Dict.getD, hget, Tracker.committedOf, Tracker.reservedOf, Dict.getD]
    cases s.counters.get? key with
    | none => exact ⟨rfl, rfl⟩
    | some c => exact ⟨hcommitted c, hreserved c⟩
  exact ⟨Iff.rfl, hmember, hfields.1, hfields.2, rfl, rfl, rfl, rfl, fun _ ht _ _ _ => ht⟩

theorem Sound.of_same {key : Key} {account : Tokens} {s s' : Tracker} (h : Sound key account s)
    (hsame : SameBooks key s s') : Sound key account s' := by
  constructor
  · rw [hsame.hydrated, hsame.member, hsame.readers, hsame.usage, hsame.committed]
    exact h.counted
  · rw [hsame.reserved, hsame.pinned, hsame.outstanding]
    exact h.reserved
  · rw [hsame.hydrated, hsame.pinned, hsame.outstanding]
    exact h.idle
  · rw [hsame.readers, hsame.member]
    exact h.reading
  · intro t ht hkey row hphase
    rw [hsame.usage]
    exact h.row t (hsame.turns t ht hkey row hphase) hkey row hphase

/-! ### A turn of another key -/

theorem pins_of_ne {turn : Turn} {key : Key} (hne : turn.key ≠ key) : turn.pins key = 0 :=
  if_neg fun h => hne h.1

theorem reads_of_ne {turn : Turn} {key : Key} (hne : turn.key ≠ key) : turn.reads key = 0 :=
  if_neg fun h => hne h.1

theorem sameBooks_setTurn {s t : Tracker} {i : ℕ} {turn : Turn} {key : Key}
    (hturn : s.turns[i]? = some turn) (hne : turn.key ≠ key) (phase : TurnPhase)
    (hturns : t.turns = s.turns) (hhydrated : key ∈ t.hydrated ↔ key ∈ s.hydrated)
    (hcounter : t.counters.get? key = s.counters.get? key) (husage : t.usage key = s.usage key)
    (houtstanding : t.outstanding key = s.outstanding key) :
    SameBooks key s (t.setTurn i turn phase) := by
  have hpinned := pinned_set hturn { turn with phase := phase } key
  have hreaders := readers_set hturn { turn with phase := phase } key
  have hpins : Turn.pins key { turn with phase := phase } = 0 := pins_of_ne hne
  have hreads : Turn.reads key { turn with phase := phase } = 0 := reads_of_ne hne
  rw [pins_of_ne hne, hpins] at hpinned
  rw [reads_of_ne hne, hreads] at hreaders
  constructor
  · exact hhydrated
  · show key ∈ t.counters ↔ key ∈ s.counters
    rw [Dict.mem_iff_isSome, Dict.mem_iff_isSome, hcounter]
  · exact congrArg (fun c : Option Counter => (c.getD {}).committed) hcounter
  · exact congrArg (fun c : Option Counter => (c.getD {}).reserved) hcounter
  · exact husage
  · rw [Tracker.pinned, Tracker.setTurn, hturns]
    exact hpinned
  · rw [Tracker.readers, Tracker.setTurn, hturns]
    exact hreaders
  · exact houtstanding
  · intro u hu hkey row hphase
    rw [Tracker.setTurn, hturns] at hu
    rcases List.mem_or_eq_of_mem_set hu with hold | hnew
    · exact hold
    · rw [hnew] at hkey
      exact absurd hkey hne

theorem sameBooks_pin {s t : Tracker} {i : ℕ} {turn : Turn} {key : Key}
    (hturn : s.turns[i]? = some turn) (hne : turn.key ≠ key)
    (hturns : t.turns = s.turns) (hhydrated : key ∈ t.hydrated ↔ key ∈ s.hydrated)
    (hcounter : t.counters.get? key = s.counters.get? key) (husage : t.usage key = s.usage key)
    (houtstanding : t.outstanding key = s.outstanding key) : SameBooks key s (t.pin i turn) := by
  refine sameBooks_setTurn hturn hne .deciding hturns hhydrated ?_ husage houtstanding
  rw [get?_withCounter, if_neg hne.symm]
  exact hcounter

theorem usage_beginBase_ne (s : Tracker) {key other : Key} (hne : other ≠ key) (base : Tokens) :
    (s.beginBase other base).usage key = s.usage key := by
  show (if key = other then base else s.base key) + (if key = other then 0 else s.since key) = _
  rw [if_neg hne.symm, if_neg hne.symm]
  rfl

theorem sameBooks_of_ne {s s' : Tracker} {i : ℕ} {turn : Turn} {key : Key} (h : Moves s i turn s')
    (hturn : s.turns[i]? = some turn) (hne : turn.key ≠ key) : SameBooks key s s' := by
  have hcons : key ∈ turn.key :: s.hydrated ↔ key ∈ s.hydrated := by
    rw [List.mem_cons]
    exact or_iff_right hne.symm
  have hother : ∀ f, (s.withCounter turn.key f).counters.get? key = s.counters.get? key := by
    intro f
    rw [get?_withCounter, if_neg hne.symm]
  cases h with
  | stays => exact SameBooks.refl key s
  | pins => exact sameBooks_pin hturn hne rfl Iff.rfl rfl rfl rfl
  | locks => exact sameBooks_setTurn hturn hne .reading rfl Iff.rfl (hother id) rfl rfl
  | reads =>
    exact sameBooks_setTurn hturn hne _ rfl Iff.rfl rfl (usage_beginBase_ne s hne _) rfl
  | fails => exact sameBooks_pin hturn hne rfl hcons rfl (usage_beginBase_ne s hne 0) rfl
  | startsEmpty => exact sameBooks_pin hturn hne rfl hcons rfl rfl rfl
  | seeds tokens =>
    exact sameBooks_pin hturn hne rfl hcons (hother fun c => { c with committed := tokens }) rfl rfl
  | leaves => exact sameBooks_setTurn hturn hne .finished rfl Iff.rfl rfl rfl rfl
  | unpins hphase release =>
    have hcounter : (s.onCounter turn.key fun c => { c with reserved := release c.reserved }).counters.get?
        key = s.counters.get? key := by
      rw [get?_onCounter, if_neg hne.symm]
    obtain ⟨counters, heq⟩ := onCounter_eq s turn.key fun c => { c with reserved := release c.reserved }
    rw [heq] at hcounter ⊢
    exact sameBooks_setTurn hturn hne .finished rfl Iff.rfl hcounter rfl rfl
  | accepts =>
    refine sameBooks_setTurn (t := { s with
      reservations := s.reservations ++ [{ key := turn.key, est := turn.est }] }) hturn hne .finished rfl
      Iff.rfl rfl rfl ?_
    show Tasks.total (Reservation.share key) (s.reservations ++ [_]) = s.outstanding key
    rw [Tasks.total_concat, Reservation.share, if_neg hne, add_zero]
    rfl

/-! ### A turn of the key itself -/

theorem getD_withCounter (s : Tracker) (key : Key) (f : Counter → Counter) :
    (s.withCounter key f).counters.getD key {} = f (s.counters.getD key {}) := by
  rw [Dict.getD, get?_withCounter, if_pos rfl]
  rfl

theorem onCounter_eq_withCounter {s : Tracker} {key : Key} (hkey : key ∈ s.counters)
    (f : Counter → Counter) : s.onCounter key f = s.withCounter key f := by
  obtain ⟨c, hc⟩ := Option.isSome_iff_exists.1 (Dict.mem_iff_isSome.1 hkey)
  rw [Tracker.onCounter, Tracker.withCounter, Dict.getD, hc]
  rfl

theorem mem_withCounter (s : Tracker) (key : Key) (f : Counter → Counter) :
    key ∈ (s.withCounter key f).counters := Dict.mem_set.2 (Or.inl rfl)

theorem pins_deciding (turn : Turn) : Turn.pins turn.key { turn with phase := .deciding } = turn.est :=
  if_pos ⟨rfl, rfl⟩

theorem pins_of_phase {turn : Turn} (hphase : turn.phase ≠ .deciding) (key : Key) : turn.pins key = 0 :=
  if_neg fun h => hphase h.2

theorem reads_of_phase {turn : Turn} (hphase : turn.phase.holdsLock = false) (key : Key) :
    turn.reads key = 0 :=
  if_neg fun h => absurd h.2 (by rw [hphase]; decide)

theorem no_row_of_readers {s : Tracker} {t : Turn} (hnone : s.readers t.key = 0) (ht : t ∈ s.turns)
    {row : Option Tokens} (hphase : t.phase = .readRow row) : False := by
  have hpos := readers_pos ht (by rw [hphase]; rfl)
  omega

theorem Sound.pin {account : Tokens} {s t : Tracker} {i : ℕ} {turn : Turn}
    (h : Sound turn.key account s) (hturn : s.turns[i]? = some turn) (hphase : turn.phase ≠ .deciding)
    (hturns : t.turns = s.turns) (hreservations : t.reservations = s.reservations)
    (hhydrated : turn.key ∈ t.hydrated) (hreserved : t.reservedOf turn.key = s.reservedOf turn.key)
    (hcommitted : t.usage turn.key ≤ t.committedOf turn.key) (haccount : t.usage turn.key ≤ account)
    (hlast : s.readers turn.key = turn.reads turn.key) : Sound turn.key account (t.pin i turn) := by
  have hpinned := pinned_set hturn { turn with phase := .deciding } turn.key
  rw [pins_of_phase hphase, pins_deciding] at hpinned
  have hpinned' : (t.pin i turn).pinned turn.key = s.pinned turn.key + turn.est := by
    rw [Tracker.pinned, Tracker.pin, Tracker.setTurn, Tracker.withCounter, hturns]
    exact hpinned
  have hreaders := readers_set hturn { turn with phase := .deciding } turn.key
  have hreads : Turn.reads turn.key { turn with phase := .deciding } = 0 := reads_of_phase rfl _
  rw [hreads, hlast, add_zero] at hreaders
  have hreaders' : (t.pin i turn).readers turn.key = 0 := by
    rw [Tracker.readers, Tracker.pin, Tracker.setTurn, Tracker.withCounter, hturns]
    exact Nat.add_eq_right.1 hreaders
  have hcounter : (t.pin i turn).counters.getD turn.key {} =
      { t.counters.getD turn.key {} with reserved := t.reservedOf turn.key + turn.est } :=
    getD_withCounter t turn.key fun c => { c with reserved := c.reserved + turn.est }
  have hin : turn.key ∈ (t.pin i turn).counters :=
    mem_withCounter t turn.key fun c => { c with reserved := c.reserved + turn.est }
  constructor
  · intro _
    refine ⟨hin, hreaders', ?_, haccount⟩
    rw [Tracker.committedOf, hcounter]
    exact hcommitted
  · have hbooked := h.reserved
    have hout : (t.pin i turn).outstanding turn.key = s.outstanding turn.key := by
      show Tasks.total _ t.reservations = _
      rw [hreservations]
      rfl
    rw [Tracker.reservedOf, hcounter, hpinned', hout]
    show t.reservedOf turn.key + turn.est = _
    push_cast
    omega
  · exact fun hnot => absurd hhydrated hnot
  · exact ⟨by omega, fun _ => hin⟩
  · intro u hu hkey row hrow
    rw [← hkey] at hreaders'
    exact (no_row_of_readers hreaders' hu hrow).elim

theorem pinned_setTurn {s : Tracker} {i : ℕ} {turn : Turn} {phase : TurnPhase}
    (hturn : s.turns[i]? = some turn) (hphase : turn.phase ≠ .deciding) (hnew : phase ≠ .deciding)
    (key : Key) : (s.setTurn i turn phase).pinned key = s.pinned key := by
  have hset := pinned_set hturn { turn with phase := phase } key
  have hpins : Turn.pins key { turn with phase := phase } = 0 := pins_of_phase hnew key
  rw [pins_of_phase hphase, hpins] at hset
  exact hset

theorem readers_finished {s : Tracker} {i : ℕ} {turn : Turn} (hturn : s.turns[i]? = some turn) (key : Key) :
    (s.setTurn i turn .finished).readers key + turn.reads key = s.readers key := by
  have hset := readers_set hturn { turn with phase := .finished } key
  have hreads : Turn.reads key { turn with phase := .finished } = 0 := reads_of_phase rfl key
  rw [hreads] at hset
  exact hset

theorem row_of_set {s : Tracker} {i : ℕ} {turn t : Turn} {phase : TurnPhase} {row : Option Tokens}
    (ht : t ∈ (s.setTurn i turn phase).turns) (hphase : t.phase = .readRow row)
    (hnew : phase.holdsLock = false) : t ∈ s.turns := by
  rcases List.mem_or_eq_of_mem_set ht with hold | hmoved
  · exact hold
  · rw [hmoved] at hphase
    have hphase' : phase = .readRow row := hphase
    rw [hphase'] at hnew
    cases hnew

theorem Sound.leaves {account : Tokens} {s : Tracker} {i : ℕ} {turn : Turn} {key : Key}
    (h : Sound key account s) (hturn : s.turns[i]? = some turn) (hphase : turn.phase ≠ .deciding) :
    Sound key account (s.setTurn i turn .finished) := by
  have hpinned := pinned_setTurn hturn hphase (by decide : TurnPhase.finished ≠ .deciding) key
  have hreaders := readers_finished hturn key
  constructor
  · intro hhydrated
    obtain ⟨hin, hnone, hcovers⟩ := h.counted hhydrated
    exact ⟨hin, by omega, hcovers⟩
  · rw [hpinned]
    exact h.reserved
  · rw [hpinned]
    exact h.idle
  · obtain ⟨hone, hcounter⟩ := h.reading
    exact ⟨by omega, fun hpos => hcounter (by omega)⟩
  · intro t ht hkey row hrow
    exact h.row t (row_of_set ht hrow rfl) hkey row hrow

theorem Sound.locks {account : Tokens} {s : Tracker} {i : ℕ} {turn : Turn}
    (h : Sound turn.key account s) (hturn : s.turns[i]? = some turn) (hphase : turn.phase = .waitingLock)
    (hhydrated : turn.key ∉ s.hydrated) (hfree : ∀ t ∈ s.turns, t.phase.holdsLock = false) :
    Sound turn.key account ((s.withCounter turn.key id).setTurn i turn .reading) := by
  have hpinned : ((s.withCounter turn.key id).setTurn i turn .reading).pinned turn.key =
      s.pinned turn.key :=
    pinned_setTurn (s := s.withCounter turn.key id) hturn (by rw [hphase]; decide) (by decide) turn.key
  have hnone : s.readers turn.key = 0 :=
    Tasks.total_eq_zero fun t ht => reads_of_phase (hfree t ht) turn.key
  have hreaders := readers_set hturn { turn with phase := .reading } turn.key
  have hreads : Turn.reads turn.key { turn with phase := .reading } = 1 := if_pos ⟨rfl, rfl⟩
  have hreaders' : ((s.withCounter turn.key id).setTurn i turn .reading).readers turn.key ≤ 1 := by
    show Tasks.total _ (s.turns.set i _) ≤ 1
    omega
  constructor
  · exact fun hin => absurd hin hhydrated
  · rw [hpinned]
    exact (congrArg Counter.reserved (getD_withCounter s turn.key id)).trans h.reserved
  · rw [hpinned]
    exact fun _ => h.idle hhydrated
  · exact ⟨hreaders', fun _ => mem_withCounter s turn.key id⟩
  · intro t ht hkey row hrow
    rcases List.mem_or_eq_of_mem_set ht with hold | hnew
    · exact h.row t hold hkey row hrow
    · rw [hnew] at hrow
      cases hrow

theorem mem_set_of_mem_set {l : List Turn} {i : ℕ} {a t : Turn} (ht : t ∈ l.set i a) (b : Turn) :
    t = a ∨ t ∈ l.set i b := by
  obtain ⟨j, hj⟩ := List.mem_iff_getElem?.1 ht
  by_cases hij : i = j
  · subst hij
    rw [List.getElem?_set_self'] at hj
    left
    cases hl : l[i]? with
    | none => simp [hl] at hj
    | some c => simpa [hl] using hj.symm
  · right
    rw [List.getElem?_set_ne hij] at hj
    exact List.mem_iff_getElem?.2 ⟨j, by rw [List.getElem?_set_ne hij, hj]⟩

theorem usage_beginBase (s : Tracker) (key : Key) (base : Tokens) :
    (s.beginBase key base).usage key = base := by
  show (if key = key then base else s.base key) + (if key = key then 0 else s.since key) = base
  rw [if_pos rfl, if_pos rfl, add_zero]

theorem Sound.reads {account : Tokens} {s : Tracker} {i : ℕ} {turn : Turn}
    (h : Sound turn.key account s) (hturn : s.turns[i]? = some turn) (hphase : turn.phase = .reading)
    (htable : (s.table turn.key).getD 0 ≤ account) :
    Sound turn.key account ((s.beginBase turn.key ((s.table turn.key).getD 0)).setTurn i turn
      (.readRow (s.table turn.key))) := by
  have hpinned : (s.setTurn i turn (.readRow (s.table turn.key))).pinned turn.key = s.pinned turn.key :=
    pinned_setTurn hturn (by rw [hphase]; decide) (by simp) turn.key
  have hreads : turn.reads turn.key = 1 := if_pos ⟨rfl, by rw [hphase]; rfl⟩
  have hreaders := readers_set hturn { turn with phase := .readRow (s.table turn.key) } turn.key
  have hreads' : Turn.reads turn.key { turn with phase := .readRow (s.table turn.key) } = 1 :=
    if_pos ⟨rfl, rfl⟩
  have hone := h.reading.1
  have hpos : 0 < s.readers turn.key := readers_pos (List.mem_of_getElem? hturn) (by rw [hphase]; rfl)
  have hnot : turn.key ∉ s.hydrated := by
    intro hin
    obtain ⟨-, hzero, -⟩ := h.counted hin
    omega
  constructor
  · exact fun hin => absurd hin hnot
  · exact h.reserved.trans (by rw [← hpinned]; rfl)
  · exact fun _ => (h.idle hnot).imp hpinned.trans id
  · refine ⟨?_, fun _ => h.reading.2 hpos⟩
    show Tasks.total _ (s.turns.set i _) ≤ 1
    omega
  · intro t ht hkey row hrow
    have husage := usage_beginBase s turn.key ((s.table turn.key).getD 0)
    rcases mem_set_of_mem_set ht { turn with phase := .finished } with hnew | hother
    · rw [hnew] at hrow
      obtain rfl : s.table turn.key = row := by simpa using hrow
      exact ⟨husage, husage.trans_le htable⟩
    · have hover := readers_finished hturn turn.key
      have hnone : (s.setTurn i turn .finished).readers t.key = 0 := by
        rw [hkey]
        omega
      exact (no_row_of_readers hnone hother hrow).elim

theorem Sound.deciding {account : Tokens} {s : Tracker} {i : ℕ} {turn : Turn}
    (h : Sound turn.key account s) (hturn : s.turns[i]? = some turn) (hphase : turn.phase = .deciding)
    (hpos : 0 < turn.est) :
    turn.key ∈ s.hydrated ∧ (s.setTurn i turn .finished).pinned turn.key + turn.est = s.pinned turn.key := by
  have hset := pinned_set hturn { turn with phase := .finished } turn.key
  have hpins : turn.pins turn.key = turn.est := if_pos ⟨rfl, hphase⟩
  have hover : Turn.pins turn.key { turn with phase := .finished } = 0 := pins_of_phase (by simp) turn.key
  rw [hpins, hover] at hset
  refine ⟨?_, hset⟩
  by_contra hnot
  obtain ⟨hzero, -⟩ := h.idle hnot
  omega

theorem Sound.finished {account : Tokens} {s t : Tracker} {i : ℕ} {turn : Turn}
    (h : Sound turn.key account s) (hturn : s.turns[i]? = some turn)
    (hhydrated : turn.key ∈ s.hydrated) (hturns : t.turns = s.turns) (hsame : t.hydrated = s.hydrated)
    (husage : t.usage turn.key = s.usage turn.key) (hcounter : turn.key ∈ t.counters)
    (hcommitted : t.committedOf turn.key = s.committedOf turn.key)
    (hreserved : t.reservedOf turn.key =
      (s.setTurn i turn .finished).pinned turn.key + t.outstanding turn.key) :
    Sound turn.key account (t.setTurn i turn .finished) := by
  obtain ⟨-, hnone, hcovers, haccount⟩ := h.counted hhydrated
  have hreaders := readers_finished hturn turn.key
  have hreaders' : (t.setTurn i turn .finished).readers turn.key = 0 := by
    rw [Tracker.readers, Tracker.setTurn, hturns]
    exact Nat.eq_zero_of_le_zero (by rw [← hnone, ← hreaders]; exact Nat.le_add_right _ _)
  constructor
  · intro _
    refine ⟨hcounter, hreaders', ?_, ?_⟩
    · show t.usage turn.key ≤ t.committedOf turn.key
      rw [husage, hcommitted]
      exact hcovers
    · show t.usage turn.key ≤ account
      rw [husage]
      exact haccount
  · show t.reservedOf turn.key = _
    rw [hreserved, Tracker.pinned, Tracker.pinned, Tracker.setTurn, Tracker.setTurn, hturns]
    rfl
  · intro hnot
    exact absurd (hsame ▸ hhydrated) hnot
  · exact ⟨by omega, fun _ => hcounter⟩
  · intro u hu hkey row hrow
    rw [← hkey] at hreaders'
    exact (no_row_of_readers hreaders' hu hrow).elim

theorem Sound.unpins {account : Tokens} {s : Tracker} {i : ℕ} {turn : Turn}
    (h : Sound turn.key account s) (hturn : s.turns[i]? = some turn) (hphase : turn.phase = .deciding)
    (hpos : 0 < turn.est) {release : ℤ → ℤ}
    (hrelease : ∀ x : ℤ, turn.est ≤ x → release x = x - turn.est) :
    Sound turn.key account
      ((s.onCounter turn.key fun c => { c with reserved := release c.reserved }).setTurn i turn .finished) := by
  obtain ⟨hhydrated, hpinned⟩ := h.deciding hturn hphase hpos
  have hin := (h.counted hhydrated).1
  have hbooked := h.reserved
  have hnew := getD_withCounter s turn.key fun c => { c with reserved := release c.reserved }
  rw [onCounter_eq_withCounter hin]
  refine h.finished hturn hhydrated rfl rfl rfl (mem_withCounter s turn.key _) ?_ ?_
  · rw [Tracker.committedOf, hnew]
    rfl
  · rw [Tracker.reservedOf, hnew]
    show release (s.reservedOf turn.key) = _ + (s.outstanding turn.key : ℤ)
    rw [hrelease (s.reservedOf turn.key) (by omega)]
    omega

theorem Sound.accepts {account : Tokens} {s : Tracker} {i : ℕ} {turn : Turn}
    (h : Sound turn.key account s) (hturn : s.turns[i]? = some turn) (hphase : turn.phase = .deciding)
    (hpos : 0 < turn.est) :
    Sound turn.key account { s.setTurn i turn .finished with
      reservations := s.reservations ++ [{ key := turn.key, est := turn.est }] } := by
  obtain ⟨hhydrated, hpinned⟩ := h.deciding hturn hphase hpos
  have hbooked := h.reserved
  have houtstanding : Tasks.total (Reservation.share turn.key)
      (s.reservations ++ [{ key := turn.key, est := turn.est }]) = s.outstanding turn.key + turn.est := by
    rw [Tasks.total_concat, Reservation.share, if_pos rfl]
    rfl
  refine h.finished (t := { s with
    reservations := s.reservations ++ [{ key := turn.key, est := turn.est }] }) hturn hhydrated rfl rfl rfl
    (h.counted hhydrated).1 rfl ?_
  show s.reservedOf turn.key = _ + ((Tasks.total (Reservation.share turn.key) _ : ℕ) : ℤ)
  rw [houtstanding]
  push_cast
  omega

theorem Sound.lastReader {account : Tokens} {s : Tracker} {i : ℕ} {turn : Turn}
    (h : Sound turn.key account s) (hturn : s.turns[i]? = some turn)
    (hlock : turn.phase.holdsLock = true) : s.readers turn.key = turn.reads turn.key := by
  have hone := h.reading.1
  have hpos := readers_pos (List.mem_of_getElem? hturn) hlock
  have hreads : turn.reads turn.key = 1 := if_pos ⟨rfl, hlock⟩
  omega

theorem Sound.moves {account : Tokens} {s s' : Tracker} {i : ℕ} {turn : Turn}
    (h : Sound turn.key account s) (hturn : s.turns[i]? = some turn) (hpos : 0 < turn.est)
    (htable : (s.table turn.key).getD 0 ≤ account) (hmoves : Moves s i turn s') :
    Sound turn.key account s' := by
  cases hmoves with
  | stays => exact h
  | pins hphase hhydrated =>
    obtain ⟨-, hnone, hcovers, haccount⟩ := h.counted hhydrated
    refine h.pin hturn (by rw [hphase]; decide) rfl rfl hhydrated rfl hcovers haccount ?_
    rw [hnone, reads_of_phase (by rw [hphase]; rfl)]
  | locks hphase hhydrated hfree => exact h.locks hturn hphase hhydrated hfree
  | reads hphase => exact h.reads hturn hphase htable
  | fails hphase =>
    have husage : (s.beginBase turn.key 0).usage turn.key = 0 := usage_beginBase s turn.key 0
    exact h.pin hturn (by rw [hphase]; decide) rfl rfl List.mem_cons_self rfl
      (husage.trans_le (zero_le_tokens _)) (husage.trans_le (zero_le_tokens _))
      (h.lastReader hturn (by rw [hphase]; rfl))
  | startsEmpty hphase =>
    obtain ⟨husage, haccount⟩ := h.row turn (List.mem_of_getElem? hturn) rfl none hphase
    exact h.pin hturn (by rw [hphase]; simp) rfl rfl List.mem_cons_self rfl
      (husage.trans_le (zero_le_tokens _)) haccount (h.lastReader hturn (by rw [hphase]; rfl))
  | seeds tokens hphase =>
    obtain ⟨husage, haccount⟩ := h.row turn (List.mem_of_getElem? hturn) rfl (some tokens) hphase
    have hseeded := getD_withCounter s turn.key fun c => { c with committed := tokens }
    have hreserved := congrArg Counter.reserved hseeded
    have hcommitted := congrArg Counter.committed hseeded
    exact h.pin hturn (by rw [hphase]; simp) rfl rfl List.mem_cons_self hreserved
      (husage.trans_le hcommitted.ge) haccount (h.lastReader hturn (by rw [hphase]; rfl))
  | leaves hphase => exact h.leaves hturn hphase
  | unpins hphase release hrelease => exact h.unpins hturn hphase hpos hrelease
  | accepts hphase => exact h.accepts hturn hphase hpos

/-! ### Records -/

theorem Sound.recordOther {account : Tokens} {s : Tracker} {i : ℕ} {r : Reservation} {key : Key}
    (h : Sound key account s) (hr : s.reservations[i]? = some r) (hne : r.key ≠ key) (actual : Tokens) :
    Sound key account (s.recordActual i actual) := by
  have herase := Tasks.total_eraseIdx (Reservation.share key) hr
  rw [show r.share key = 0 from if_neg hne, add_zero] at herase
  have hcounter : (s.withCounter r.key (Counter.settle r.est actual)).counters.get? key =
      s.counters.get? key := by
    rw [get?_withCounter, if_neg hne.symm]
  refine h.of_same ?_
  rw [Tracker.recordActual, hr]
  constructor
  · exact Iff.rfl
  · exact Dict.mem_iff_isSome.trans ((congrArg (fun c => c.isSome = true) hcounter).to_iff.trans
      Dict.mem_iff_isSome.symm)
  · exact congrArg (fun c : Option Counter => (c.getD {}).committed) hcounter
  · exact congrArg (fun c : Option Counter => (c.getD {}).reserved) hcounter
  · show s.base key + post s.since r.key actual key = _
    rw [post, if_neg hne.symm]
    rfl
  · rfl
  · rfl
  · exact herase
  · exact fun _ ht _ _ _ => ht

theorem Sound.recordOwn {account : Tokens} {s : Tracker} {i : ℕ} {r : Reservation}
    (h : Sound r.key account s) (hr : s.reservations[i]? = some r) (hpos : 0 < r.est) (actual : Tokens) :
    Sound r.key (account + actual) (s.recordActual i actual) := by
  have herase := Tasks.total_eraseIdx (Reservation.share r.key) hr
  rw [show r.share r.key = r.est from if_pos rfl] at herase
  have herase' : Tasks.total (Reservation.share r.key) (s.reservations.eraseIdx i) + r.est =
      s.outstanding r.key := herase
  have hhydrated : r.key ∈ s.hydrated := by
    by_contra hnot
    have hzero := (h.idle hnot).2
    omega
  obtain ⟨-, hnone, hcovers, haccount⟩ := h.counted hhydrated
  have hnew := getD_withCounter s r.key (Counter.settle r.est actual)
  have hin := mem_withCounter s r.key (Counter.settle r.est actual)
  have husage : s.base r.key + post s.since r.key actual r.key = s.usage r.key + actual := by
    rw [post, if_pos rfl, ← add_assoc]
    rfl
  rw [Tracker.recordActual, hr]
  constructor
  · intro _
    refine ⟨hin, hnone, ?_, ?_⟩
    · refine husage.trans_le ((add_le_add_left hcovers actual).trans_eq ?_)
      exact (congrArg Counter.committed hnew).symm
    · exact husage.trans_le (add_le_add_left haccount actual)
  · refine (congrArg Counter.reserved hnew).trans ?_
    have hbooked := h.reserved
    show max 0 (s.reservedOf r.key - r.est) =
      (s.pinned r.key : ℤ) + (Tasks.total (Reservation.share r.key) (s.reservations.eraseIdx i) : ℕ)
    omega
  · exact fun hnot => absurd hhydrated hnot
  · exact ⟨h.reading.1, fun _ => hin⟩
  · intro t ht hkey row hrow
    exact (no_row_of_readers (by rw [hkey]; exact hnone) ht hrow).elim

/-! ### Flushes and reconciliations -/

theorem sameBooks_zeroed (key : Key) (s : Tracker) : SameBooks key s s.zeroed :=
  sameBooks_counters (Dict.get?_mapValues _ s.counters key) (fun _ => rfl) fun _ => rfl

theorem sameBooks_rollBack (key : Key) (s : Tracker) (pending : List (Key × Tokens)) :
    SameBooks key s (s.rollBack pending) := by
  induction pending generalizing s with
  | nil => exact SameBooks.refl key s
  | cons p rest ih =>
    rw [rollBack_cons]
    refine SameBooks.trans ?_ (ih _)
    have hget := get?_onCounter s p.1 (fun c => { c with unflushed := c.unflushed + p.2 }) key
    obtain ⟨counters, heq⟩ := onCounter_eq s p.1 fun c => { c with unflushed := c.unflushed + p.2 }
    rw [heq] at hget ⊢
    by_cases hkey : key = p.1
    · rw [if_pos hkey, ← hkey] at hget
      exact sameBooks_counters hget (fun _ => rfl) fun _ => rfl
    · rw [if_neg hkey] at hget
      exact sameBooks_counters (f := id) (by rw [Option.map_id]; exact hget) (fun _ => rfl) fun _ => rfl

theorem sameBooks_evict {key : Key} {s : Tracker} {current : String}
    (hkept : (s.counters.get? key).all (s.keeps current key) = true) :
    SameBooks key s (s.evict current) := by
  have hget := Dict.get?_filter (s.keeps current) s.counters key
  have hsame : SameBooks key s { s with counters := s.counters.filter (s.keeps current) } := by
    refine sameBooks_counters (f := id) ?_ (fun _ => rfl) fun _ => rfl
    rw [hget, Option.map_id]
    cases hc : s.counters.get? key with
    | none => rfl
    | some c =>
      rw [hc] at hkept
      exact Option.filter_some_pos hkept
  refine hsame.trans ⟨?_, Iff.rfl, rfl, rfl, rfl, rfl, rfl, rfl, fun _ ht _ _ _ => ht⟩
  show key ∈ s.hydrated.filter _ ↔ key ∈ s.hydrated
  rw [List.mem_filter]
  exact and_iff_left hkept

theorem Sound.evict {key : Key} {account : Tokens} {s : Tracker} (h : Sound key account s)
    (current : String) : Sound key account (s.evict current) := by
  by_cases hkept : (s.counters.get? key).all (s.keeps current key) = true
  · exact h.of_same (sameBooks_evict hkept)
  have hget := Dict.get?_filter (s.keeps current) s.counters key
  cases hc : s.counters.get? key with
  | none =>
    rw [hc] at hkept
    exact absurd rfl hkept
  | some c =>
    rw [hc] at hkept hget
    have hdropped : ¬ (key.period = current ∨ key ∉ s.hydrated ∨ c.reserved ≠ 0 ∨ c.unflushed ≠ 0) :=
      fun hkeeps => hkept (decide_eq_true hkeeps)
    simp only [not_or, not_not] at hdropped
    obtain ⟨-, hhydrated, hzero, -⟩ := hdropped
    have hnone : (s.evict current).counters.get? key = none :=
      hget.trans (Option.filter_some_neg (Bool.eq_false_of_not_eq_true hkept))
    have hbooked := h.reserved
    rw [Tracker.reservedOf, Dict.getD, hc, show (some c).getD {} = c from rfl, hzero] at hbooked
    have hsettled : s.pinned key = 0 ∧ s.outstanding key = 0 := by omega
    have hreaders := (h.counted hhydrated).2.1
    have hgone : key ∉ (s.evict current).hydrated := by
      intro hin
      have hall := (List.mem_filter.1 hin).2
      rw [hc] at hall
      exact hkept hall
    constructor
    · exact fun hin => absurd hin hgone
    · rw [Tracker.reservedOf, Dict.getD, hnone]
      show (0 : ℤ) = s.pinned key + s.outstanding key
      omega
    · exact fun _ => hsettled
    · show s.readers key ≤ 1 ∧ (0 < s.readers key → _)
      rw [hreaders]
      exact ⟨Nat.zero_le 1, fun hpos => absurd hpos (Nat.lt_irrefl 0)⟩
    · intro t ht hkey row hrow
      exact (no_row_of_readers (s := s) (by rw [hkey]; exact hreaders) ht hrow).elim

theorem Sound.of_absent {key : Key} {account : Tokens} {s : Tracker} (h : Sound key account s)
    (habsent : key ∉ s.counters) (account' : Tokens) : Sound key account' s := by
  constructor
  · exact fun hin => absurd (h.counted hin).1 habsent
  · exact h.reserved
  · exact h.idle
  · exact h.reading
  · intro t ht hkey row hrow
    have hpos := readers_pos ht (by rw [hrow]; rfl)
    rw [hkey] at hpos
    exact absurd (h.reading.2 hpos) habsent

theorem Sound.assign {account : Tokens} {s : Tracker} {key : Key} (next : Key) (tokens : Tokens)
    (h : Sound key account s) (hfresh : next = key → tokens + s.unflushedOf key = account) :
    Sound key account (s.onCounter next fun c => { c with committed := tokens + c.unflushed }) := by
  by_cases hkey : next = key
  · subst hkey
    by_cases hin : next ∈ s.counters
    · have hnew := getD_withCounter s next fun c => { c with committed := tokens + c.unflushed }
      have hmem := mem_withCounter s next fun c => { c with committed := tokens + c.unflushed }
      rw [onCounter_eq_withCounter hin]
      constructor
      · intro hhydrated
        obtain ⟨-, hreaders, -, haccount⟩ := h.counted hhydrated
        refine ⟨hmem, hreaders, ?_, haccount⟩
        rw [Tracker.committedOf, hnew]
        exact haccount.trans (hfresh rfl).ge
      · exact (congrArg Counter.reserved hnew).trans h.reserved
      · exact h.idle
      · exact ⟨h.reading.1, fun _ => hmem⟩
      · exact h.row
    · have habsent : s.counters.get? next = none := by
        rw [← Option.not_isSome_iff_eq_none, ← Dict.mem_iff_isSome]
        exact hin
      rw [Tracker.onCounter, habsent]
      exact h
  · have hget := get?_onCounter s next (fun c => { c with committed := tokens + c.unflushed }) key
    obtain ⟨counters, heq⟩ := onCounter_eq s next fun c => { c with committed := tokens + c.unflushed }
    rw [heq] at hget ⊢
    rw [if_neg (Ne.symm hkey)] at hget
    refine h.of_same (sameBooks_counters (f := id) ?_ (fun _ => rfl) fun _ => rfl)
    rw [Option.map_id]
    exact hget

theorem Sound.setWork {key : Key} {account : Tokens} {s : Tracker} (h : Sound key account s) (i : ℕ)
    (work : Work) : Sound key account (s.setWork i work) :=
  ⟨h.counted, h.reserved, h.idle, h.reading, h.row⟩

/-! ### Runs -/

/-- Where a reconciliation goes on with a row, the row is still what the table holds and no flush in flight
holds deltas of its key. -/
def Tracker.UpToDate (s : Tracker) : Work → WorkEvent → Prop
  | .readRow key row _, .assign => row.getD 0 = (s.table key).getD 0 ∧ s.held key = 0
  | _, _ => True

def Fresh (s : Tracker) : Event → Prop
  | .workEvent i e =>
    match s.works[i]? with
    | some work => s.UpToDate work e
    | none => True
  | _ => True

structure Balanced (s : Tracker) : Prop where
  positive : Positive s
  sound : ∀ key, Sound key (s.account key) s

theorem Sound.fail {key : Key} {account : Tokens} {s : Tracker} (h : Sound key account s) (i : ℕ)
    (pending : List (Key × Tokens)) (reconciles : Bool) (current : String) :
    Sound key account (s.stepWork i (.writing pending reconciles) (.fail current)) := by
  have hback := h.of_same (sameBooks_rollBack key s pending)
  rw [Tracker.stepWork]
  split
  · exact (hback.evict current).setWork i _
  · exact hback.setWork i .finished

theorem stepWork_sound {s : Tracker} {i : ℕ} {work : Work} {key : Key}
    (h : Sound key (s.account key) s) (e : WorkEvent)
    (hfresh : s.UpToDate work e) : Sound key (s.account key) (s.stepWork i work e) := by
  unfold Tracker.stepWork
  split
  · refine Sound.setWork ?_ i _
    exact ⟨h.counted, h.reserved, h.idle, h.reading, h.row⟩
  · exact h.fail i _ _ _
  · exact (h.evict _).setWork i _
  · exact h.setWork i _
  · exact h.setWork i _
  · rename_i next row rest
    refine (Sound.assign next (row.getD 0) h ?_).setWork i _
    rintro rfl
    rw [Tracker.account, hfresh.1, hfresh.2, add_zero]
  · exact h

theorem table_le_account (s : Tracker) (key : Key) : (s.table key).getD 0 ≤ s.account key :=
  (le_add_of_nonneg_right (zero_le_tokens _)).trans (le_add_of_nonneg_right (zero_le_tokens _))

theorem moves_sound {s s' : Tracker} {i : ℕ} {turn : Turn} {key : Key}
    (h : Sound key (s.account key) s) (hturn : s.turns[i]? = some turn) (hpos : 0 < turn.est)
    (hmoves : Moves s i turn s') : Sound key (s.account key) s' := by
  by_cases hkey : turn.key = key
  · subst hkey
    exact h.moves hturn hpos (table_le_account s turn.key) hmoves
  · exact h.of_same (sameBooks_of_ne hmoves hturn hkey)

theorem Positive.moves {s s' : Tracker} {i : ℕ} {turn : Turn} (h : Positive s)
    (hturn : s.turns[i]? = some turn) (hmoves : Moves s i turn s') : Positive s' := by
  have hpos := h.turns turn (List.mem_of_getElem? hturn)
  have hturns : ∀ phase, ∀ t ∈ s.turns.set i { turn with phase := phase }, 0 < t.est :=
    fun phase => Tasks.forall_set h.turns hpos
  cases hmoves with
  | stays => exact h
  | unpins hphase release =>
    obtain ⟨counters, heq⟩ := onCounter_eq s turn.key fun c => { c with reserved := release c.reserved }
    rw [heq]
    exact ⟨hturns _, h.reservations⟩
  | accepts => exact ⟨hturns _, Tasks.forall_concat h.reservations hpos⟩
  | _ => exact ⟨hturns _, h.reservations⟩

theorem Balanced.moves {s s' : Tracker} {i : ℕ} {turn : Turn} (h : Balanced s)
    (hturn : s.turns[i]? = some turn) (hmoves : Moves s i turn s')
    (haccount : ∀ key, s'.account key = s.account key) : Balanced s' := by
  refine ⟨h.positive.moves hturn hmoves, fun key => ?_⟩
  rw [haccount]
  exact moves_sound (h.sound key) hturn (h.positive.turns turn (List.mem_of_getElem? hturn)) hmoves

theorem Balanced.waits {s : Tracker} (h : Balanced s) {turn : Turn} (hphase : turn.phase = .waitingLock)
    (hpos : 0 < turn.est) : Balanced { s with turns := s.turns ++ [turn] } := by
  refine ⟨⟨Tasks.forall_concat h.positive.turns hpos, h.positive.reservations⟩, fun key => ?_⟩
  refine (h.sound key).of_same ⟨Iff.rfl, Iff.rfl, rfl, rfl, rfl, ?_, ?_, rfl, ?_⟩
  · show Tasks.total (Turn.pins key) (s.turns ++ [turn]) = _
    rw [Tasks.total_concat, pins_of_phase (by rw [hphase]; decide), add_zero]
    rfl
  · show Tasks.total (Turn.reads key) (s.turns ++ [turn]) = _
    rw [Tasks.total_concat, reads_of_phase (by rw [hphase]; rfl), add_zero]
    rfl
  · intro t ht hkey row hrow
    rcases List.mem_append.1 ht with hold | hnew
    · exact hold
    · rw [List.mem_singleton.1 hnew, hphase] at hrow
      cases hrow

theorem Balanced.startTurn {s : Tracker} (h : Balanced s) (key : Key) (promptLength : ℕ) :
    Balanced (s.startTurn key promptLength) := by
  have hwaits : Balanced { s with
      turns := s.turns ++ [{ key := key, est := estimateTurnTokens promptLength, phase := .waitingLock }] } :=
    h.waits rfl (Nat.lt_of_lt_of_le (by decide) (Nat.le_add_left perTurnOverheadTokens _))
  rw [Tracker.startTurn]
  split
  · rename_i hhydrated
    refine hwaits.moves (by simp) (.pins rfl hhydrated) fun k => ?_
    exact SameUsage.account (SameUsage.pin (SameUsage.refl _) _ _) k
  · exact hwaits

theorem Balanced.recordActual {s : Tracker} (h : Balanced s) (i : ℕ) (actual : Tokens) :
    Balanced (s.recordActual i actual) := by
  cases hr : s.reservations[i]? with
  | none =>
    rw [Tracker.recordActual, hr]
    exact h
  | some r =>
    have hpos := h.positive.reservations r (List.mem_of_getElem? hr)
    refine ⟨?_, fun key => ?_⟩
    · rw [Tracker.recordActual, hr]
      exact ⟨h.positive.turns, fun r' hr' => h.positive.reservations r' (List.mem_of_mem_eraseIdx hr')⟩
    · have haccount := account_recordActual s i actual key
      rw [show (s.recordActual i actual).recorded = post s.recorded r.key actual by
        rw [Tracker.recordActual, hr], post] at haccount
      by_cases hkey : r.key = key
      · subst hkey
        rw [if_pos rfl, ← add_assoc, add_right_comm] at haccount
        rw [add_right_cancel haccount]
        exact (h.sound r.key).recordOwn hr hpos actual
      · rw [if_neg (Ne.symm hkey)] at haccount
        rw [add_right_cancel haccount]
        exact (h.sound key).recordOther hr hkey actual

theorem Balanced.startWriting {s : Tracker} (h : Balanced s) (reconciles : Bool) :
    Balanced { s.zeroed with works := s.works ++ [.writing s.deltas reconciles] } := by
  refine ⟨⟨h.positive.turns, h.positive.reservations⟩, fun key => ?_⟩
  have hzeroed := (h.sound key).of_same (sameBooks_zeroed key s)
  rw [account_startWriting]
  exact ⟨hzeroed.counted, hzeroed.reserved, hzeroed.idle, hzeroed.reading, hzeroed.row⟩

theorem Balanced.startReconcile {s : Tracker} (h : Balanced s) (current : String) :
    Balanced (s.startReconcile current) := by
  by_cases hnone : s.deltas = []
  · refine ⟨?_, fun key => ?_⟩
    · rw [Tracker.startReconcile, if_pos hnone]
      exact ⟨h.positive.turns, h.positive.reservations⟩
    · rw [account_startReconcile, Tracker.startReconcile, if_pos hnone]
      have hevicted := (h.sound key).evict current
      exact ⟨hevicted.counted, hevicted.reserved, hevicted.idle, hevicted.reading, hevicted.row⟩
  · rw [Tracker.startReconcile, if_neg hnone]
    exact h.startWriting true

theorem Positive.stepWork {s : Tracker} (h : Positive s) (i : ℕ) (work : Work) (e : WorkEvent) :
    Positive (s.stepWork i work e) := by
  unfold Tracker.stepWork
  split
  · exact ⟨h.turns, h.reservations⟩
  · rename_i pending reconciles _
    obtain ⟨counters, heq⟩ := rollBack_eq s pending
    rw [heq]
    cases reconciles with
    | true => exact ⟨h.turns, h.reservations⟩
    | false => exact ⟨h.turns, h.reservations⟩
  · exact ⟨h.turns, h.reservations⟩
  · exact ⟨h.turns, h.reservations⟩
  · exact ⟨h.turns, h.reservations⟩
  · rename_i next row rest
    obtain ⟨counters, heq⟩ :=
      onCounter_eq s next fun c => { c with committed := row.getD 0 + c.unflushed }
    rw [heq]
    exact ⟨h.turns, h.reservations⟩
  · exact h

theorem drops_cases (s : Tracker) (key : Key) (work : Work) (e : WorkEvent) :
    s.drops key work e = 0 ∨ key ∉ s.counters ∧
      ∃ pending reconciles current, work = .writing pending reconciles ∧ e = .fail current := by
  unfold Tracker.drops
  split
  · split
    · exact Or.inl rfl
    · exact Or.inr ⟨‹_›, _, _, _, rfl, rfl⟩
  · exact Or.inl rfl

theorem Balanced.stepWork {s : Tracker} (h : Balanced s) {i : ℕ} {work : Work}
    (hwork : s.works[i]? = some work) (e : WorkEvent) (hfresh : s.UpToDate work e) :
    Balanced (s.stepWork i work e) := by
  refine ⟨h.positive.stepWork i work e, fun key => ?_⟩
  rcases drops_cases s key work e with hdrops | ⟨habsent, pending, reconciles, current, rfl, rfl⟩
  · have haccount := account_stepWork hwork e key
    rw [hdrops, add_zero] at haccount
    rw [haccount]
    exact stepWork_sound (h.sound key) e hfresh
  · exact ((h.sound key).of_absent habsent _).fail i pending reconciles current

theorem Balanced.step {s : Tracker} (h : Balanced s) (e : Event) (hfresh : Fresh s e) :
    Balanced (step s e) := by
  cases e with
  | turn key promptLength => exact h.startTurn key promptLength
  | turnEvent i e =>
    rw [Budget.step]
    split
    · rename_i turn hturn
      exact h.moves hturn (stepTurn_moves s i turn e) (stepTurn_sameUsage s i turn e).account
    · exact h
  | record i actual => exact h.recordActual i actual
  | flush =>
    rw [Budget.step, Tracker.startFlush]
    split
    · exact h
    · exact h.startWriting false
  | reconcile current => exact h.startReconcile current
  | workEvent i e =>
    rw [Budget.step]
    rw [Fresh] at hfresh
    cases hwork : s.works[i]? with
    | some work =>
      rw [hwork] at hfresh
      exact h.stepWork hwork e hfresh
    | none => exact h

theorem balanced_init (table : Key → Option Tokens) : Balanced (Tracker.init table) where
  positive := ⟨fun t ht => (List.not_mem_nil ht).elim, fun r hr => (List.not_mem_nil hr).elim⟩
  sound := fun key =>
    { counted := fun hin => by cases hin
      reserved := rfl
      idle := fun _ => ⟨rfl, rfl⟩
      reading := ⟨Nat.zero_le 1, fun hpos => absurd hpos (Nat.lt_irrefl 0)⟩
      row := fun t ht => by cases ht }

/-- Every hydrated key covers its usage; and where a turn is accepted, the usage of its key and all that is
reserved for it stay below the ceiling. -/
def NeverUnderCounts (s : Tracker) (e : Event) : Prop :=
  (∀ key ∈ (step s e).hydrated, (step s e).usage key ≤ (step s e).committedOf key) ∧
    ∀ i ceiling r, e = .turnEvent i (.ceiling ceiling) → (step s e).reservations = s.reservations ++ [r] →
      ((step s e).usage r.key).1 + ((step s e).usage r.key).2 + (step s e).outstanding r.key +
        (step s e).pinned r.key ≤ ceiling

theorem stepTurn_accepts {s : Tracker} {i : ℕ} {turn : Turn} {ceiling : ℤ} {r : Reservation}
    (h : (s.stepTurn i turn (.ceiling ceiling)).reservations = s.reservations ++ [r]) :
    ((s.stepTurn i turn (.ceiling ceiling)).counters.getD r.key {}).total ≤ ceiling := by
  have hsame : s.reservations ≠ s.reservations ++ [r] := by simp
  obtain ⟨key, est, phase⟩ := turn
  cases phase with
  | deciding =>
    simp only [Tracker.stepTurn] at h ⊢
    cases hc : s.counters.get? key with
    | none =>
      rw [hc] at h
      exact absurd h hsame
    | some c =>
      simp only [hc] at h ⊢
      by_cases hover : ceiling < c.total
      · rw [if_pos hover] at h
        obtain ⟨counters, heq⟩ := onCounter_eq s key fun c => { c with reserved := c.reserved - est }
        rw [heq] at h
        exact absurd h hsame
      · rw [if_neg hover] at h ⊢
        have hr : r = { key := key, est := est } := by
          have hlast := List.append_cancel_left h
          simpa using hlast.symm
        show (s.counters.getD r.key {}).total ≤ ceiling
        rw [hr, Dict.getD, hc]
        exact not_lt.1 hover
  | _ => exact absurd h hsame

theorem Balanced.covers {s : Tracker} (h : Balanced s) {r : Reservation} (hr : r ∈ s.reservations) :
    s.usage r.key ≤ s.committedOf r.key := by
  obtain ⟨i, hi⟩ := List.mem_iff_getElem?.1 hr
  have herase := Tasks.total_eraseIdx (Reservation.share r.key) hi
  have hshare : r.share r.key = r.est := if_pos rfl
  have houtstanding : s.outstanding r.key = Tasks.total (Reservation.share r.key) s.reservations := rfl
  have hpos := h.positive.reservations r hr
  have hhydrated : r.key ∈ s.hydrated := by
    by_contra hnot
    have hzero := ((h.sound r.key).idle hnot).2
    omega
  exact ((h.sound r.key).counted hhydrated).2.2.1

theorem step_neverUnderCounts {s : Tracker} {e : Event} (h : Balanced (step s e)) :
    NeverUnderCounts s e := by
  refine ⟨fun key hkey => ((h.sound key).counted hkey).2.2.1, ?_⟩
  rintro i ceiling r rfl haccepts
  have hcovers := h.covers (r := r) (by rw [haccepts]; simp)
  have hbooked := (h.sound r.key).reserved
  have hfits : ((step s (.turnEvent i (.ceiling ceiling))).counters.getD r.key {}).total ≤ ceiling := by
    cases hturn : s.turns[i]? with
    | none =>
      simp only [step, hturn] at haccepts
      exact absurd haccepts (by simp)
    | some turn =>
      simp only [step, hturn] at haccepts ⊢
      exact stepTurn_accepts haccepts
  obtain ⟨hinput, houtput⟩ := hcovers
  have htotal : ((step s (.turnEvent i (.ceiling ceiling))).committedOf r.key).1 +
      ((step s (.turnEvent i (.ceiling ceiling))).committedOf r.key).2 +
      (step s (.turnEvent i (.ceiling ceiling))).reservedOf r.key ≤ ceiling := hfits
  omega

/-- **The budget does not under-count.**  Throughout every run in which no reconciliation goes on with a row
that is out of date or whose key has deltas in flight, a hydrated key covers its usage and no accepted turn
brings the usage and the reservations above the ceiling. -/
theorem never_underCounts_of_fresh (table : Key → Option Tokens) (events : List Event)
    (h : Run.Along step Fresh (Tracker.init table) events) :
    Run.Along step NeverUnderCounts (Tracker.init table) events := by
  refine Run.Along.imp (fun s e hfresh hs => ?_) (balanced_init table) h
  have hnext := hs.step e hfresh
  exact ⟨step_neverUnderCounts hnext, hnext⟩

def january : Key := { organization := "fleet", period := "202601" }

def recordedTurn : List Event :=
  [.turn january 800, .turnEvent 0 .lock, .turnEvent 0 .read, .turnEvent 0 .resume,
    .turnEvent 0 (.ceiling 10000), .record 0 (3000, 1000)]

/-- A reconciliation flushes the turn, reads the row and uses it, and the next turn is accepted. -/
def reconciledTurn : List Event :=
  recordedTurn ++ ([.reconcile "202601", .workEvent 0 .commit, .workEvent 0 (.resume "202601"),
    .workEvent 0 .read, .workEvent 0 .assign, .turn january 800, .turnEvent 1 (.ceiling 10000)] : List Event)

theorem reconciled_turn_not_underCounted :
    Run.Along step NeverUnderCounts (Tracker.init fun _ => some (100, 50)) reconciledTurn := by
  refine never_underCounts_of_fresh _ _ ?_
  exact ⟨trivial, trivial, trivial, trivial, trivial, trivial, trivial, trivial, trivial, trivial,
    ⟨rfl, rfl⟩, trivial, trivial, trivial⟩

/-- The flush of the turn is under way when a reconciliation reads the row and uses it. -/
def flushInFlight : List Event :=
  recordedTurn ++ ([.flush, .reconcile "202601", .workEvent 1 .read, .workEvent 1 .assign,
    .turn january 800, .turnEvent 1 (.ceiling 5000)] : List Event)

/-- The recorded turn is not counted any more, and the next one is accepted above the ceiling. -/
theorem flush_in_flight_underCounts :
    ¬ Run.Along step NeverUnderCounts (Tracker.init fun _ => some (100, 50)) flushInFlight := by
  rintro ⟨-, -, -, -, -, -, -, -, -, hassigned, -⟩
  exact absurd (hassigned.1 january (by decide)) (by decide)

end FavoniusBackend.Agent.Budget
