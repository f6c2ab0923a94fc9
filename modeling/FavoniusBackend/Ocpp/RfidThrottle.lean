import FavoniusBackend.Ocpp.RfidAuthorization

/-!
# When a card is blocked

Runs of `authorize` in one process, from empty maps, where the durable counter is not available.  A call is blocked if
and only if some attempt of its pair in the 120 seconds before it was the eighth unknown-tag attempt within 60 seconds
since the last lookup that found the tag (`blocked_iff`).  An accepted lookup starts the count again.
-/

namespace FavoniusBackend.Ocpp.RfidAuthorization

open Lib

abbrev Entry := Call × RFIDAuthDecision

/-- The process, at the time of its last call. -/
structure Process where
  clock : ℚ := 0
  state : State := {}

namespace Process

def step (p : Process) (c : Call) : Process × RFIDAuthDecision :=
  ({ clock := c.recordedAt, state := (p.state.authorize c).1 }, (p.state.authorize c).2)

/-- The clock does not go back, and the durable counter is not available. -/
def Timely (p : Process) (c : Call) : Prop :=
  p.clock ≤ c.checkedAt ∧ c.checkedAt ≤ c.recordedAt ∧ c.durableCount = none

instance (p : Process) (c : Call) : Decidable (p.Timely c) := inferInstanceAs (Decidable (_ ∧ _ ∧ _))

end Process

def authorizeAll (calls : List Call) : List Entry := Answers.answers Process.step {} calls

def InOrder (calls : List Call) : Prop := Run.Along (Answers.next Process.step) Process.Timely {} calls

instance (calls : List Call) : Decidable (InOrder calls) := inferInstanceAs (Decidable (Run.Along _ _ _ _))

/-! ## The unknown-tag attempts of a pair -/

/-- One call of a pair for its unknown-tag attempts: an accepted lookup forgets them. -/
def track (key : Key) (attempts : List ℚ) (e : Entry) : List ℚ :=
  if key = e.1.key then
    match e.2.reason with
    | .identityMatched => []
    | .unknownIdTag => attempts ++ [e.1.recordedAt]
    | _ => attempts
  else attempts

/-- The times of the unknown-tag attempts of a pair since the last lookup that found the tag. -/
def streak (key : Key) (log : List Entry) : List ℚ := log.foldl (track key) []

/-- The log ends with an unknown-tag attempt of the pair, at `t`, and with it there are eight within 60 seconds since
the last lookup that found the tag. -/
def Triggers (key : Key) (log : List Entry) (t : ℚ) : Prop :=
  (∃ init e, log = init ++ [e] ∧ e.1.key = key ∧ e.2.reason = .unknownIdTag ∧ e.1.recordedAt = t) ∧
    invalidAttemptThreshold ≤ ((streak key log).filter (fresh t)).length

/-- The pair is to be blocked at `now`: less than 120 seconds ago there was an eighth attempt. -/
def Blocks (key : Key) (log : List Entry) (now : ℚ) : Prop :=
  ∃ past later t, log = past ++ later ∧ Triggers key past t ∧ now < t + throttleDurationS

@[simp] theorem streak_append (key : Key) (log : List Entry) (e : Entry) :
    streak key (log ++ [e]) = track key (streak key log) e := List.foldl_append

theorem not_triggers_nil (key : Key) (t : ℚ) : ¬ Triggers key [] t := by
  intro h
  obtain ⟨⟨init, e, heq, -⟩, -⟩ := h
  cases init <;> cases heq

theorem not_blocks_nil (key : Key) (now : ℚ) : ¬ Blocks key [] now := by
  intro h
  obtain ⟨past, later, t, heq, htriggers, -⟩ := h
  obtain ⟨rfl, -⟩ := List.append_eq_nil_iff.mp heq.symm
  exact not_triggers_nil key t htriggers

theorem Blocks.mono {key : Key} {log : List Entry} {now later : ℚ} (h : Blocks key log later) (hle : now ≤ later) :
    Blocks key log now := by
  obtain ⟨past, rest, t, heq, htriggers, hlt⟩ := h
  exact ⟨past, rest, t, heq, htriggers, lt_of_le_of_lt hle hlt⟩

theorem blocks_append {key : Key} {log : List Entry} {e : Entry} {now : ℚ} :
    Blocks key (log ++ [e]) now ↔
      Blocks key log now ∨ ∃ t, Triggers key (log ++ [e]) t ∧ now < t + throttleDurationS := by
  constructor
  · intro h
    obtain ⟨past, later, t, heq, htriggers, hlt⟩ := h
    cases later using List.reverseRecOn with
    | nil =>
      rw [List.append_nil] at heq
      exact .inr ⟨t, heq ▸ htriggers, hlt⟩
    | append_singleton later e' =>
      rw [← List.append_assoc] at heq
      exact .inl ⟨past, later, t, (List.append_inj_left' heq rfl), htriggers, hlt⟩
  · intro h
    obtain ⟨past, later, t, rfl, htriggers, hlt⟩ | ⟨t, htriggers, hlt⟩ := h
    · exact ⟨past, later ++ [e], t, (List.append_assoc ..), htriggers, hlt⟩
    · exact ⟨log ++ [e], [], t, (List.append_nil _).symm, htriggers, hlt⟩

theorem triggers_append {key : Key} {log : List Entry} {e : Entry} {t : ℚ} :
    Triggers key (log ++ [e]) t ↔
      key = e.1.key ∧ e.2.reason = .unknownIdTag ∧ e.1.recordedAt = t ∧
        invalidAttemptThreshold ≤ ((streak key log ++ [t]).filter (fresh t)).length := by
  constructor
  · intro h
    obtain ⟨⟨init, e', heq, hkey, hreason, ht⟩, hmany⟩ := h
    obtain ⟨-, rfl⟩ := List.append_inj' heq rfl |>.imp_right List.singleton_inj.mp
    rw [streak_append, track, if_pos hkey.symm, hreason, ht] at hmany
    exact ⟨hkey.symm, hreason, ht, hmany⟩
  · intro h
    obtain ⟨hkey, hreason, ht, hmany⟩ := h
    refine ⟨⟨log, e, rfl, hkey.symm, hreason, ht⟩, ?_⟩
    rw [streak_append, track, if_pos hkey, hreason, ht]
    exact hmany

/-! ## What the process knows -/

/-- The maps agree with the log, from the time of the last call on. -/
structure Knows (log : List Entry) (p : Process) : Prop where
  epoch : 0 ≤ p.clock
  past : ∀ e ∈ log, e.1.checkedAt ≤ p.clock
  tags : ∀ e ∈ log, e.2.reason = .unknownIdTag → Text.strip e.1.idTag ≠ []
  recent : ∀ key, p.state.recent key p.clock = (streak key log).filter (fresh p.clock)
  throttled : ∀ key now, p.clock ≤ now → (p.state.throttledAt key now ↔ Blocks key log now)

/-- A call is blocked just where its pair is to be, and comes after the ones before it. -/
def Fits (log : List Entry) (e : Entry) : Prop :=
  (e.2.status = .blocked ↔ Blocks e.1.key log e.1.checkedAt) ∧ ∀ e' ∈ log, e'.1.checkedAt ≤ e.1.checkedAt

namespace Knows

variable {log : List Entry} {p : Process} {c : Call}

theorem start : Knows [] {} where
  epoch := le_rfl
  past := fun _ he => nomatch he
  tags := fun _ he => nomatch he
  recent := fun _ => rfl
  throttled := fun key now _ => iff_of_false Bool.false_ne_true (not_blocks_nil key now)

theorem not_blocks_of_blank (h : Knows log p) (hblank : Text.strip c.idTag = []) (now : ℚ) :
    ¬ Blocks c.key log now := by
  intro hblocks
  obtain ⟨past, later, t, rfl, ⟨⟨init, e, rfl, hkey, hreason, -⟩, -⟩, -⟩ := hblocks
  have htag : e.1.idTag = c.idTag := congrArg Prod.snd hkey
  exact h.tags e (by simp) hreason (htag ▸ hblank)

theorem fits (h : Knows log p) (htimely : p.Timely c) : Fits log (c, (p.step c).2) := by
  obtain ⟨hnow, -, hdurable⟩ := htimely
  refine ⟨?_, fun e he => (h.past e he).trans hnow⟩
  show (p.state.authorize c).2.status = .blocked ↔ Blocks c.key log c.checkedAt
  rw [p.state.authorize_snd hdurable, ← h.throttled c.key c.checkedAt hnow, State.answer]
  split
  · rename_i hblank
    have hnot := mt (h.throttled c.key c.checkedAt hnow).mp (h.not_blocks_of_blank hblank _)
    simp [hnot]
  · split
    · rename_i hthrottled
      simp [hthrottled]
    · rename_i hthrottled
      refine iff_of_false ?_ hthrottled
      unfold State.resolve
      split <;> exact RFIDAuthStatus.noConfusion

/-- A decision that was reached after the throttle says that the pair was not to be blocked. -/
theorem not_blocks_of_reason (h : Knows log p) (htimely : p.Timely c)
    (hreason : (p.step c).2.reason = .identityMatched ∨ (p.step c).2.reason = .unknownIdTag) {now : ℚ}
    (hle : c.checkedAt ≤ now) : ¬ Blocks c.key log now := by
  intro hblocks
  have hthrottled := (h.throttled c.key c.checkedAt htimely.1).mpr (hblocks.mono hle)
  have hanswer : (p.step c).2 = _ := p.state.authorize_snd htimely.2.2
  rw [hanswer, hthrottled, State.answer] at hreason
  split at hreason <;> obtain hreason | hreason := hreason <;> cases hreason

theorem recent_eq (h : Knows log p) (key : Key) {now : ℚ} (hle : p.clock ≤ now) :
    p.state.recent key now = (streak key log).filter (fresh now) := by
  rw [← p.state.recent_recent hle, h.recent key, filter_fresh_fresh hle]

theorem recent_step (h : Knows log p) (htimely : p.Timely c) (key : Key) :
    (Answers.next Process.step p c).state.recent key c.recordedAt =
      (streak key (log ++ [(c, (p.step c).2)])).filter (fresh c.recordedAt) := by
  obtain ⟨hnow, hchecked, -⟩ := htimely
  have hkeep := h.recent_eq key (hnow.trans hchecked)
  have hstep : (Answers.next Process.step p c).state.recent key c.recordedAt =
      if key = c.key then
        match (p.step c).2.reason with
        | .identityMatched => []
        | .unknownIdTag => (p.state.recent key c.recordedAt ++ [c.recordedAt]).filter (fresh c.recordedAt)
        | _ => p.state.recent key c.recordedAt
      else p.state.recent key c.recordedAt := p.state.recent_authorize hchecked le_rfl
  rw [hstep, streak_append, track]
  dsimp only
  split
  · cases (p.step c).2.reason with
    | identityMatched => rfl
    | unknownIdTag =>
      dsimp only
      rw [hkeep, List.filter_append, List.filter_append, filter_fresh_fresh le_rfl]
    | _ => exact hkeep
  · exact hkeep

theorem triggers_iff (h : Knows log p) (htimely : p.Timely c) {key : Key} {t : ℚ} :
    Triggers key (log ++ [(c, (p.step c).2)]) t ↔
      key = c.key ∧ (p.step c).2.reason = .unknownIdTag ∧ c.recordedAt = t ∧
        invalidAttemptThreshold ≤ (p.state.recent key c.recordedAt ++ [c.recordedAt]).length := by
  have hfresh : fresh c.recordedAt c.recordedAt = true := by
    rw [fresh, sub_self]
    decide +kernel
  rw [triggers_append]
  refine and_congr_right fun _ => and_congr_right fun _ => and_congr_right fun ht => ?_
  dsimp only at ht
  rw [← ht, h.recent_eq key (htimely.1.trans htimely.2.1), List.filter_append, List.filter_cons_of_pos hfresh,
    List.filter_nil]

theorem throttled_step (h : Knows log p) (htimely : p.Timely c) (key : Key) {now : ℚ} (hle : c.recordedAt ≤ now) :
    (Answers.next Process.step p c).state.throttledAt key now ↔ Blocks key (log ++ [(c, (p.step c).2)]) now := by
  have hnow := htimely.1
  have hchecked := htimely.2.1
  have hkeep := h.throttled key now (hnow.trans (hchecked.trans hle))
  have hstep : (Answers.next Process.step p c).state.throttledAt key now =
      if key = c.key then
        match (p.step c).2.reason with
        | .identityMatched => false
        | .unknownIdTag =>
          if invalidAttemptThreshold ≤ (p.state.recent key c.recordedAt ++ [c.recordedAt]).length then
            decide (now < c.recordedAt + throttleDurationS)
          else p.state.throttledAt key now
        | _ => p.state.throttledAt key now
      else p.state.throttledAt key now :=
    p.state.throttledAt_authorize hchecked hle (h.epoch.trans (hnow.trans hchecked))
  rw [hstep, blocks_append]
  simp only [h.triggers_iff htimely]
  by_cases hkey : key = c.key
  · subst hkey
    rw [if_pos rfl]
    have hnot := fun hreason => @not_blocks_of_reason _ _ _ h htimely hreason now
    cases hreason : (p.step c).2.reason with
    | identityMatched =>
      have := hnot (.inl hreason) (hchecked.trans hle)
      simp [this]
    | unknownIdTag =>
      have hfree := hnot (.inr hreason) (hchecked.trans hle)
      generalize (p.state.recent c.key c.recordedAt ++ [c.recordedAt]).length = attempts
      dsimp only
      split
      · rename_i hmany
        simp [hfree, hmany]
      · rename_i hfew
        simp [hkeep, hfree, hfew]
    | _ => simp [hkeep]
  · simp [hkey, hkeep]

theorem step (h : Knows log p) (htimely : p.Timely c) :
    Knows (log ++ [(c, (p.step c).2)]) (Answers.next Process.step p c) where
  epoch := h.epoch.trans (htimely.1.trans htimely.2.1)
  past := by
    intro e he
    obtain he | he := List.mem_append.mp he
    · exact (h.past e he).trans (htimely.1.trans htimely.2.1)
    · rw [List.mem_singleton.mp he]
      exact htimely.2.1
  tags := by
    intro e he
    obtain he | he := List.mem_append.mp he
    · exact h.tags e he
    · rw [List.mem_singleton.mp he]
      intro hreason hblank
      have hanswer : (p.step c).2 = _ := p.state.authorize_snd htimely.2.2
      rw [hanswer, State.answer, if_pos hblank] at hreason
      cases hreason
  recent := h.recent_step htimely
  throttled := fun key _ hle => h.throttled_step htimely key hle

end Knows

/-! ## Runs -/

theorem fits_of_inOrder {calls : List Call} (h : InOrder calls) {past rest : List Entry} {e : Entry}
    (heq : authorizeAll calls = past ++ e :: rest) : Fits past e := by
  have hstep : ∀ (log : List Entry) (p : Process) (c : Call), p.Timely c → Knows log p →
      Fits log (c, (p.step c).2) ∧ Knows (log ++ [(c, (p.step c).2)]) (Answers.next Process.step p c) :=
    fun log p c htimely hknows => ⟨hknows.fits htimely, hknows.step htimely⟩
  exact (Answers.answers_rule hstep h Knows.start).1 past e rest heq

def Call.counts (c : Call) : Bool :=
  match c.lookup, c.override with
  | .known _, _ => true
  | .unknown, none => true
  | _, _ => false

/-- Two processes agree on a pair from the time of the first on. -/
structure Agree (key : Key) (p p' : Process) : Prop where
  epoch : 0 ≤ p.clock
  recent : ∀ now, p.clock ≤ now → p.state.recent key now = p'.state.recent key now
  throttled : ∀ now, p.clock ≤ now → p.state.throttledAt key now = p'.state.throttledAt key now

namespace Agree

variable {key : Key} {p p' : Process} {c : Call}

theorem step (h : Agree key p p') (htimely : p.Timely c) (hkey : c.key = key) :
    (p.step c).2 = (p'.step c).2 ∧ Agree key (Answers.next Process.step p c) (Answers.next Process.step p' c) := by
  obtain ⟨hnow, hchecked, hdurable⟩ := htimely
  have hpos : 0 ≤ c.recordedAt := h.epoch.trans (hnow.trans hchecked)
  have hsame : (p.state.authorize c).2 = (p'.state.authorize c).2 := by
    rw [p.state.authorize_snd hdurable, p'.state.authorize_snd hdurable, hkey, h.throttled c.checkedAt hnow]
  have hrecent := h.recent c.recordedAt (hnow.trans hchecked)
  refine ⟨hsame, hpos, ?_, ?_⟩
  · intro now hle
    show (p.state.authorize c).1.recent key now = (p'.state.authorize c).1.recent key now
    rw [p.state.recent_authorize hchecked hle, p'.state.recent_authorize hchecked hle, hsame, hrecent,
      h.recent now (hnow.trans (hchecked.trans hle))]
  · intro now hle
    show (p.state.authorize c).1.throttledAt key now = (p'.state.authorize c).1.throttledAt key now
    rw [p.state.throttledAt_authorize hchecked hle hpos, p'.state.throttledAt_authorize hchecked hle hpos, hsame,
      hrecent, h.throttled now (hnow.trans (hchecked.trans hle))]

theorem skip (h : Agree key p p') (htimely : p.Timely c) (hskip : c.key ≠ key ∨ c.counts = false) :
    Agree key (Answers.next Process.step p c) p' := by
  obtain ⟨hnow, hchecked, hdurable⟩ := htimely
  have hpos : 0 ≤ c.recordedAt := h.epoch.trans (hnow.trans hchecked)
  have hreason : key = c.key →
      (p.state.authorize c).2.reason ≠ .identityMatched ∧ (p.state.authorize c).2.reason ≠ .unknownIdTag := by
    intro hkey
    have hcounts := hskip.resolve_left fun hne => hne hkey.symm
    rw [p.state.authorize_snd hdurable, State.answer]
    split
    · exact ⟨Reason.noConfusion, Reason.noConfusion⟩
    · split
      · exact ⟨Reason.noConfusion, Reason.noConfusion⟩
      · rw [State.resolve]
        rw [Call.counts] at hcounts
        cases hlookup : c.lookup with
        | known row => simp [hlookup] at hcounts
        | unknown => cases hoverride : c.override with
          | none => simp [hlookup, hoverride] at hcounts
          | some override => exact ⟨Reason.noConfusion, Reason.noConfusion⟩
        | error =>
          cases hoverride : c.override <;> exact ⟨Reason.noConfusion, Reason.noConfusion⟩
  refine ⟨hpos, ?_, ?_⟩
  · intro now hle
    show (p.state.authorize c).1.recent key now = p'.state.recent key now
    rw [p.state.recent_authorize hchecked hle, ← h.recent now (hnow.trans (hchecked.trans hle))]
    split
    · rename_i hkey
      obtain ⟨hidentity, hunknown⟩ := hreason hkey
      split <;> first | contradiction | rfl
    · rfl
  · intro now hle
    show (p.state.authorize c).1.throttledAt key now = p'.state.throttledAt key now
    rw [p.state.throttledAt_authorize hchecked hle hpos, ← h.throttled now (hnow.trans (hchecked.trans hle))]
    split
    · rename_i hkey
      obtain ⟨hidentity, hunknown⟩ := hreason hkey
      split <;> first | contradiction | rfl
    · rfl

end Agree

/-- Of the calls of a pair, those that count, and any others, are decided as they would be with nothing in between. -/
theorem authorizeAll_filter {calls : List Call} (h : InOrder calls) (key : Key) (keep : Call → Bool)
    (hkeep : ∀ c, c.counts → keep c) :
    ((authorizeAll calls).filter fun e => decide (e.1.key = key) && keep e.1) =
      authorizeAll (calls.filter fun c => decide (c.key = key) && keep c) := by
  have hmine : ∀ (p p' : Process) (c : Call), p.Timely c → Agree key p p' → (decide (c.key = key) && keep c) = true →
      (p.step c).2 = (p'.step c).2 ∧
        Agree key (Answers.next Process.step p c) (Answers.next Process.step p' c) := by
    intro p p' c htimely hagree hmine
    rw [Bool.and_eq_true, decide_eq_true_eq] at hmine
    exact hagree.step htimely hmine.1
  have hother : ∀ (p p' : Process) (c : Call), p.Timely c → Agree key p p' →
      (decide (c.key = key) && keep c) = false → Agree key (Answers.next Process.step p c) p' := by
    intro p p' c htimely hagree hother
    rw [Bool.and_eq_false_iff, decide_eq_false_iff_not] at hother
    apply hagree.skip htimely
    obtain hne | hdropped := hother
    · exact .inl hne
    · apply Or.inr
      rw [← Bool.not_eq_true]
      intro hcounts
      rw [hkeep c hcounts] at hdropped
      cases hdropped
  exact Answers.answers_filter hmine hother h ⟨le_rfl, fun _ _ => rfl, fun _ _ => rfl⟩

/-- **When a card is blocked.**  In every run: a call is blocked where, less than 120 seconds ago, there was the eighth
unknown-tag attempt of its pair within 60 seconds, with no accepted lookup among them; it is blocked only there, all of
these attempts lie in the last 180 seconds, and no call of the pair has been accepted after them; and neither calls of
other pairs nor lookup errors and accepted overrides make a difference. -/
theorem blocked_iff (calls : List Call) (h : InOrder calls) :
    (∀ past e rest, authorizeAll calls = past ++ e :: rest →
      (Blocks e.1.key past e.1.checkedAt → e.2.status = .blocked) ∧
      (e.2.status = .blocked → ∃ before after t, past = before ++ after ∧ Triggers e.1.key before t ∧
        e.1.checkedAt < t + throttleDurationS ∧
        (∀ s ∈ (streak e.1.key before).filter (fresh t), e.1.checkedAt - 180 < s) ∧
        ∀ e' ∈ after, e'.1.key = e.1.key → e'.2.status ≠ .accepted)) ∧
    (∀ key, ((authorizeAll calls).filter fun e => e.1.key = key) =
      authorizeAll (calls.filter fun c => c.key = key)) ∧
    ∀ key, ((authorizeAll calls).filter fun e => decide (e.1.key = key) && e.1.counts) =
      authorizeAll (calls.filter fun c => decide (c.key = key) && c.counts) := by
  refine ⟨?_, ?_, fun key => authorizeAll_filter h key Call.counts fun _ hcounts => hcounts⟩
  · intro past e rest heq
    have hfits := fits_of_inOrder h heq
    refine ⟨hfits.1.mpr, ?_⟩
    intro hblocked
    obtain ⟨before, after, t, rfl, htriggers, hlt⟩ := hfits.1.mp hblocked
    refine ⟨before, after, t, rfl, htriggers, hlt, ?_, ?_⟩
    · intro s hs
      have hfresh := of_decide_eq_true (List.mem_filter.mp hs).2
      rw [invalidAttemptWindowS] at hfresh
      rw [throttleDurationS] at hlt
      linarith
    · intro e' he' hkey haccepted
      -- the later call came before this one, so it was blocked as well
      obtain ⟨middle, last, rfl⟩ := List.append_of_mem he'
      have hsplit : authorizeAll calls = (before ++ middle) ++ e' :: (last ++ e :: rest) := by
        rw [heq]
        simp only [List.append_assoc, List.cons_append]
      have hearlier := hfits.2 e' (by simp)
      have hblocks : Blocks e'.1.key (before ++ middle) e'.1.checkedAt :=
        ⟨before, middle, t, rfl, hkey ▸ htriggers, lt_of_le_of_lt hearlier hlt⟩
      have := (fits_of_inOrder h hsplit).1.mpr hblocks
      rw [haccepted] at this
      cases this
  · intro key
    simpa using authorizeAll_filter h key (fun _ => true) fun _ _ => rfl

def attempt (lookup : Lookup) (now : ℚ) : Call :=
  { stationId := ['s'], idTag := ['t'], source := "Authorize", lookup := lookup, checkedAt := now, recordedAt := now }

theorem blocked_iff_nine :
    ((authorizeAll ((List.range 9).map fun i : ℕ => attempt .unknown i)).filter fun e => e.1.key = (['s'], ['t'])) =
      authorizeAll (((List.range 9).map fun i : ℕ => attempt .unknown i).filter fun c => c.key = (['s'], ['t'])) :=
  (blocked_iff _ (by decide +kernel)).2.1 _

def unknownTagAttempts (key : Key) (log : List Entry) : List ℚ :=
  (log.filter fun e => e.1.key = key ∧ e.2.reason = .unknownIdTag).map fun e => e.1.recordedAt

def acceptedBetween : List Call :=
  ((List.range 7).map fun i : ℕ => attempt .unknown i) ++ [attempt (.known {}) 7, attempt .unknown 8]

/-- Eight attempts within 60 seconds do not block a pair whose tag was found in between. -/
theorem accepted_lookup_forgets :
    ¬ ∀ calls, InOrder calls → ∀ past e rest t, authorizeAll calls = past ++ e :: rest →
      invalidAttemptThreshold ≤
          ((unknownTagAttempts e.1.key past).filter fun s => decide (t - 60 ≤ s ∧ s ≤ t)).length →
        t ≤ e.1.checkedAt → e.1.checkedAt < t + throttleDurationS → e.2.status = .blocked := by
  intro h
  have hblocked := h (acceptedBetween ++ [attempt .unknown 9]) (by decide +kernel) (authorizeAll acceptedBetween)
    (attempt .unknown 9, { status := .invalid, source := "Authorize", reason := .unknownIdTag }) [] 8
    (by decide +kernel) (by decide +kernel) (by decide +kernel) (by decide +kernel)
  cases hblocked

end FavoniusBackend.Ocpp.RfidAuthorization
