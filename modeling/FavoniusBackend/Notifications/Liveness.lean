import FavoniusBackend.Lib.DateTime
import FavoniusBackend.Lib.Guard
import FavoniusBackend.Lib.JsonWrite
import FavoniusBackend.Lib.Run
import FavoniusBackend.Lib.SheddingQueue

/-!
# The fan-out of liveness events

`LivenessHub` of `api/liveness_hub.py`: every notification on the channel goes to the queues of the subscribers of its
organization, and its time into a cache that is asked for the last interaction with a station.  None of `_on_notify`,
`subscribe`, `unsubscribe` and a consumer's `get` contains an await after its first effect, so each is one step, and the
steps come in any order.

The queue of a subscriber is a shedding queue (`World.view`).  Which subscribers hear of a notification is said beside the
hub (`Seen`), and `Hears` says that the hub agrees.
-/

namespace FavoniusBackend.Notifications.Liveness

open Lib Lib.PyJson Lib.Run
open Lib.JsonText (loads)

def subscriberQueueMaxsize : ℕ := 50

/-- What a subscriber is sent. -/
structure Outbound where
  stationId : Json
  lastInteractionAt : Json
  serverTime : Json
  deriving DecidableEq

/-! ### The hub -/

/-- A `LivenessHub`.  Its queues are numbered in the order in which they were made. -/
structure LivenessHub where
  subscribers : Dict PyStr (Finset ℕ) := .empty
  lastInteraction : Dict PyStr DateTime := .empty
  queues : ℕ → List Outbound := fun _ => []
  nextQueue : ℕ := 0

namespace LivenessHub

def bucket (hub : LivenessHub) (organizationId : PyStr) : Finset ℕ := hub.subscribers.getD organizationId ∅

def subscribe (hub : LivenessHub) (organizationId : PyStr) : LivenessHub :=
  { hub with
    subscribers := hub.subscribers.set organizationId (insert hub.nextQueue (hub.bucket organizationId))
    queues := Function.update hub.queues hub.nextQueue []
    nextQueue := hub.nextQueue + 1 }

def unsubscribe (hub : LivenessHub) (organizationId : PyStr) (queue : ℕ) : LivenessHub :=
  match hub.subscribers.get? organizationId with
  | none => hub
  | some bucket =>
    if bucket.erase queue = ∅ then { hub with subscribers := hub.subscribers.erase organizationId }
    else { hub with subscribers := hub.subscribers.set organizationId (bucket.erase queue) }

def getLastInteraction (hub : LivenessHub) (stationId : PyStr) : Option DateTime := hub.lastInteraction.get? stationId

end LivenessHub

/-- `put_nowait`; `none` when it raises `QueueFull`. -/
def putNowait (queue : List Outbound) (outbound : Outbound) : Option (List Outbound) :=
  if subscriberQueueMaxsize ≤ queue.length then none else some (queue ++ [outbound])

/-- An event is put into a queue; a full one drops its oldest entry first. -/
def offer (queue : List Outbound) (outbound : Outbound) : List Outbound :=
  match putNowait queue outbound with
  | some queue => queue
  | none => (putNowait queue.tail outbound).getD queue.tail

/-- The functions of the interpreter: `str`, and `datetime.fromisoformat` with `none` for its `ValueError`. -/
structure Interpreter where
  str : Json → PyStr
  str_str : ∀ s, str (.str s) = s
  fromisoformat : PyStr → Option DateTime

variable (python : Interpreter)

/-- The organization that a notification names, and what it has to say; only a dictionary has a `get`. -/
def readEvent (payload : String) : Except PyError (Json × Outbound) := do
  let event ← loads payload
  let stationId ← event.get "station_id" .null
  let interactionIso ← event.get "last_interaction_at" .null
  let orgId ← event.get "organization_id" .null
  let serverTime ← event.get "server_time" .null
  return (orgId, ⟨stationId, interactionIso, serverTime⟩)

def parseInteraction (now : DateTime.Wall) : Json → Except PyError DateTime
  | .str text =>
    let parsed := (python.fromisoformat text).getD (.utc now)
    .ok (if parsed.offset = none then { parsed with offset := some 0 } else parsed)
  | _ => .error .typeError

namespace LivenessHub

/-- The queues after each of a set got an event, in whatever order. -/
def fanOut (hub : LivenessHub) (bucket : Finset ℕ) (outbound : Outbound) (q : ℕ) : List Outbound :=
  if q ∈ bucket then offer (hub.queues q) outbound else hub.queues q

/-- The body of `_on_notify`; after the cache is written it raises nothing. -/
def dispatch (hub : LivenessHub) (payload : String) (now : DateTime.Wall) : Except PyError LivenessHub := do
  let (orgId, outbound) ← readEvent payload
  let lastInteraction ←
    if outbound.stationId.truthy ∧ outbound.lastInteractionAt.truthy then do
      let parsed ← parseInteraction python now outbound.lastInteractionAt
      pure (hub.lastInteraction.set (python.str outbound.stationId) parsed)
    else pure hub.lastInteraction
  if ¬ orgId.truthy then
    return { hub with lastInteraction }
  let bucket := hub.bucket (python.str orgId)
  if bucket = ∅ then
    return { hub with lastInteraction }
  return { hub with lastInteraction, queues := hub.fanOut bucket outbound }

/-- `_on_notify`: what cannot be dispatched is logged and dropped. -/
def onNotify (hub : LivenessHub) (payload : String) (now : DateTime.Wall) : LivenessHub :=
  (hub.dispatch python payload now).toOption.getD hub

end LivenessHub

/-! ### What a notification says -/

def interaction (payload : String) (now : DateTime.Wall) : Option (PyStr × DateTime) := do
  let (_, e) ← (readEvent payload).toOption
  if e.stationId.truthy ∧ e.lastInteractionAt.truthy then
    let parsed ← (parseInteraction python now e.lastInteractionAt).toOption
    return (python.str e.stationId, parsed)
  else none

def announced (payload : String) : Option (PyStr × Outbound) := do
  let (orgId, e) ← (readEvent payload).toOption
  if orgId.truthy then return (python.str orgId, e) else none

/-- A station's time of interaction is a text; any other is an error that the hub logs. -/
def Outbound.Readable (e : Outbound) : Prop :=
  e.stationId.truthy ∧ e.lastInteractionAt.truthy → ∃ text, e.lastInteractionAt = .str text

instance (e : Outbound) : Decidable e.Readable :=
  have : Decidable (∃ text, e.lastInteractionAt = .str text) :=
    match e.lastInteractionAt with
    | .str text => isTrue ⟨text, rfl⟩
    | .null | .bool _ | .int _ | .float _ | .arr _ | .obj _ => isFalse (by rintro ⟨_, ⟨⟩⟩)
  decidable_of_iff (e.stationId.truthy ∧ e.lastInteractionAt.truthy → ∃ text, e.lastInteractionAt = .str text) Iff.rfl

/-! ### The hub with its subscribers -/

/-- What is known of a subscriber: the notifications for any organization since it subscribed and before it
unsubscribed, and the events it took from its queue. -/
structure Seen where
  organizationId : PyStr := []
  subscribed : Bool := false
  notified : List (PyStr × Outbound) := []
  received : List Outbound := []

def Seen.own (v : Seen) : List Outbound := (v.notified.filter fun n => n.1 = v.organizationId).map Prod.snd

structure World where
  hub : LivenessHub := {}
  seen : ℕ → Seen := fun _ => {}

inductive Step
  -- A payload arrives on the channel.
  | notify (payload : String) (now : DateTime.Wall)
  | subscribe (organizationId : PyStr)
  | unsubscribe (organizationId : PyStr) (queue : ℕ)
  -- The next event for the consumer of a queue; with an empty queue it goes on waiting.
  | get (queue : ℕ)

def Seen.hear (v : Seen) (notice : Option (PyStr × Outbound)) : Seen :=
  if v.subscribed then { v with notified := v.notified ++ notice.toList } else v

def Seen.leave (v : Seen) (organizationId : PyStr) : Seen :=
  if v.organizationId = organizationId then { v with subscribed := false } else v

def World.step (w : World) : Step → World
  | .notify payload now =>
    { hub := w.hub.onNotify python payload now, seen := fun q => (w.seen q).hear (announced python payload) }
  | .subscribe organizationId =>
    { hub := w.hub.subscribe organizationId
      seen := Function.update w.seen w.hub.nextQueue { organizationId := organizationId, subscribed := true } }
  | .unsubscribe organizationId q =>
    { hub := w.hub.unsubscribe organizationId q
      seen := Function.update w.seen q ((w.seen q).leave organizationId) }
  | .get q =>
    { hub := { w.hub with queues := Function.update w.hub.queues q (w.hub.queues q).tail }
      seen := Function.update w.seen q
        { w.seen q with received := (w.seen q).received ++ (w.hub.queues q).head?.toList } }

/-! ### What a subscriber may expect -/

/-- A subscriber receives events of its own organization, in the order of the notifications; its queue is bounded; and
with what is left in the queue it has the last event of each station. -/
structure Delivers (w : World) (q : ℕ) : Prop where
  ordered : ((w.seen q).received ++ w.hub.queues q).Sublist (w.seen q).own
  bounded : (w.hub.queues q).length ≤ 50
  newest : ∀ station, SheddingQueue.lastOf Outbound.stationId station ((w.seen q).received ++ w.hub.queues q) =
    SheddingQueue.lastOf Outbound.stationId station (w.seen q).own

/-- After a step every subscriber is served, and the last interaction with no station is earlier than before. -/
def Meets (w : World) (op : Step) : Prop :=
  (∀ station t, w.hub.getLastInteraction station = some t →
    ∃ t', (w.step python op).hub.getLastInteraction station = some t' ∧ t.instant ≤ t'.instant) ∧
  ∀ q, Delivers (w.step python op) q

/-! ### Notifications -/

variable {python}

theorem fanOut_empty (hub : LivenessHub) (e : Outbound) : hub.fanOut ∅ e = hub.queues := by
  funext q
  exact if_neg (Finset.notMem_empty q)

variable (python) in
/-- **What a notification does**: nothing, when its time is no text; else its time goes into the cache, and its event to
its organization. -/
theorem onNotify_cases (hub : LivenessHub) (payload : String) (now : DateTime.Wall) :
    (hub.onNotify python payload now = hub ∧ interaction python payload now = none ∧
      ∀ o e, announced python payload = some (o, e) → ¬ e.Readable) ∨
    (hub.onNotify python payload now =
      { hub with
        lastInteraction :=
          match interaction python payload now with
          | some (station, t) => hub.lastInteraction.set station t
          | none => hub.lastInteraction
        queues :=
          match announced python payload with
          | some (o, e) => hub.fanOut (hub.bucket o) e
          | none => hub.queues } ∧
      ∀ o e, announced python payload = some (o, e) → e.Readable) := by
  unfold LivenessHub.onNotify LivenessHub.dispatch interaction announced
  rcases readEvent payload with err | ⟨orgId, outbound⟩
  · exact Or.inl ⟨rfl, rfl, nofun⟩
  · simp only [Except.toOption, bind, Option.bind, Except.bind, pure, Except.pure]
    have hevent : ∀ {o e}, (if orgId.truthy = true then some (python.str orgId, outbound) else none) = some (o, e) →
        e = outbound := by
      intro o e hsome
      split at hsome
      · cases hsome
        rfl
      · cases hsome
    -- what follows the cache
    have hlast : ∀ lastInteraction : Dict PyStr DateTime,
        (if ¬ orgId.truthy = true then Except.ok { hub with lastInteraction := lastInteraction }
          else if hub.bucket (python.str orgId) = ∅ then Except.ok { hub with lastInteraction := lastInteraction }
          else Except.ok { hub with
            lastInteraction := lastInteraction, queues := hub.fanOut (hub.bucket (python.str orgId)) outbound }) =
        (Except.ok { hub with
          lastInteraction := lastInteraction
          queues := match if orgId.truthy = true then some (python.str orgId, outbound) else none with
            | some (o, e) => hub.fanOut (hub.bucket o) e
            | none => hub.queues } : Except PyError LivenessHub) := by
      intro lastInteraction
      by_cases horg : orgId.truthy = true
      · by_cases hbucket : hub.bucket (python.str orgId) = ∅
        · simp [horg, hbucket, fanOut_empty]
        · simp [horg, hbucket]
      · simp [horg]
    by_cases hboth : outbound.stationId.truthy = true ∧ outbound.lastInteractionAt.truthy = true
    · simp only [if_pos hboth]
      cases hparse : parseInteraction python now outbound.lastInteractionAt with
      | error err =>
        refine Or.inl ⟨rfl, rfl, fun o e hannounced hreadable => ?_⟩
        rw [hevent hannounced] at hreadable
        obtain ⟨text, htext⟩ := hreadable hboth
        rw [htext] at hparse
        cases hparse
      | ok t =>
        refine Or.inr ⟨?_, fun o e hannounced _ => ?_⟩
        · simp only [hlast, Option.getD_some]
        · rw [hevent hannounced]
          cases htime : outbound.lastInteractionAt with
          | str text => exact ⟨text, rfl⟩
          | _ =>
            rw [htime] at hparse
            cases hparse
    · simp only [if_neg hboth]
      refine Or.inr ⟨?_, fun o e hannounced hreadable => ?_⟩
      · simp only [hlast, Option.getD_some]
      · rw [hevent hannounced] at hreadable
        exact absurd hreadable hboth

/-! ### The subscribers of an organization -/

theorem bucket_subscribe (hub : LivenessHub) (organizationId o : PyStr) :
    (hub.subscribe organizationId).bucket o =
      if o = organizationId then insert hub.nextQueue (hub.bucket o) else hub.bucket o := by
  unfold LivenessHub.bucket LivenessHub.subscribe Dict.getD
  rw [Dict.get?_set]
  split
  · subst o
    rfl
  · rfl

theorem bucket_unsubscribe (hub : LivenessHub) (organizationId o : PyStr) (q : ℕ) :
    (hub.unsubscribe organizationId q).bucket o =
      if o = organizationId then (hub.bucket o).erase q else hub.bucket o := by
  cases hbucket : hub.subscribers.get? organizationId with
  | none =>
    have hstay : hub.unsubscribe organizationId q = hub := by rw [LivenessHub.unsubscribe, hbucket]
    rw [hstay]
    split
    · subst o
      rw [LivenessHub.bucket, Dict.getD, hbucket]
      rfl
    · rfl
  | some bucket =>
    simp only [LivenessHub.bucket, LivenessHub.unsubscribe, Dict.getD, hbucket]
    by_cases ho : o = organizationId
    · subst o
      rw [if_pos rfl, hbucket]
      split
      · rename_i hempty
        rw [Dict.get?_erase, if_pos rfl]
        exact hempty.symm
      · rw [Dict.get?_set_self]
        rfl
    · rw [if_neg ho]
      split
      · rw [Dict.get?_erase, if_neg ho]
      · rw [Dict.get?_set_ne _ _ ho]

/-- The hub agrees with its subscribers on who hears of an organization. -/
structure Hears (w : World) : Prop where
  mem_bucket_iff (q : ℕ) (o : PyStr) :
    q ∈ w.hub.bucket o ↔ (w.seen q).subscribed = true ∧ (w.seen q).organizationId = o
  lt_nextQueue (q : ℕ) : (w.seen q).subscribed = true → q < w.hub.nextQueue

theorem hears_start : Hears {} where
  mem_bucket_iff _ _ := iff_of_false (Finset.notMem_empty _) fun h => Bool.false_ne_true h.1
  lt_nextQueue _ h := absurd h Bool.false_ne_true

theorem hear_subscribed (v : Seen) (notice : Option (PyStr × Outbound)) : (v.hear notice).subscribed = v.subscribed := by
  unfold Seen.hear
  split <;> rfl

theorem hear_organizationId (v : Seen) (notice : Option (PyStr × Outbound)) :
    (v.hear notice).organizationId = v.organizationId := by
  unfold Seen.hear
  split <;> rfl

theorem hear_received (v : Seen) (notice : Option (PyStr × Outbound)) : (v.hear notice).received = v.received := by
  unfold Seen.hear
  split <;> rfl

theorem leave_organizationId (v : Seen) (o : PyStr) : (v.leave o).organizationId = v.organizationId := by
  unfold Seen.leave
  split <;> rfl

theorem leave_subscribed_iff (v : Seen) (o : PyStr) :
    (v.leave o).subscribed = true ↔ v.subscribed = true ∧ v.organizationId ≠ o := by
  unfold Seen.leave
  split
  · simp [*]
  · simp [*]

theorem hears_notify {w : World} (h : Hears w) (payload : String) (now : DateTime.Wall) :
    Hears (w.step python (.notify payload now)) := by
  have hsame : (w.hub.onNotify python payload now).subscribers = w.hub.subscribers ∧
      (w.hub.onNotify python payload now).nextQueue = w.hub.nextQueue := by
    rcases onNotify_cases python w.hub payload now with ⟨hdrop, -⟩ | ⟨hnotify, -⟩
    · rw [hdrop]
      exact ⟨rfl, rfl⟩
    · rw [hnotify]
      exact ⟨rfl, rfl⟩
  refine ⟨fun q o => ?_, fun q => ?_⟩
  · simp only [World.step, LivenessHub.bucket, hsame.1, hear_subscribed, hear_organizationId]
    exact h.mem_bucket_iff q o
  · simp only [World.step, hsame.2, hear_subscribed]
    exact h.lt_nextQueue q

theorem hears_subscribe {w : World} (h : Hears w) (organizationId : PyStr) :
    Hears (w.step python (.subscribe organizationId)) := by
  refine ⟨fun q o => ?_, fun q => ?_⟩
  · have hnew : w.hub.nextQueue ∉ w.hub.bucket o := fun hmem =>
      (h.lt_nextQueue _ ((h.mem_bucket_iff _ o).mp hmem).1).false
    dsimp only [World.step]
    rw [bucket_subscribe]
    by_cases hq : q = w.hub.nextQueue
    · subst hq
      rw [Function.update_self]
      by_cases ho : o = organizationId
      · simp [ho]
      · simp [ho, hnew, Ne.symm ho]
    · rw [Function.update_of_ne hq, ← h.mem_bucket_iff]
      split
      · simp [hq]
      · rfl
  · show (Function.update w.seen _ _ q).subscribed = true → q < w.hub.nextQueue + 1
    by_cases hq : q = w.hub.nextQueue
    · omega
    · rw [Function.update_of_ne hq]
      exact fun hsubscribed => (h.lt_nextQueue q hsubscribed).trans (Nat.lt_succ_self _)

theorem hears_unsubscribe {w : World} (h : Hears w) (organizationId : PyStr) (queue : ℕ) :
    Hears (w.step python (.unsubscribe organizationId queue)) := by
  have hnext : (w.hub.unsubscribe organizationId queue).nextQueue = w.hub.nextQueue := by
    unfold LivenessHub.unsubscribe
    split
    · rfl
    · split <;> rfl
  refine ⟨fun q o => ?_, fun q => ?_⟩
  · dsimp only [World.step]
    rw [bucket_unsubscribe]
    by_cases hq : q = queue
    · subst hq
      rw [Function.update_self, leave_organizationId, leave_subscribed_iff]
      split
      · subst o
        simp
      · rename_i ho
        rw [h.mem_bucket_iff]
        constructor
        · rintro ⟨hs, rfl⟩
          exact ⟨⟨hs, ho⟩, rfl⟩
        · rintro ⟨⟨hs, -⟩, rfl⟩
          exact ⟨hs, rfl⟩
    · rw [Function.update_of_ne hq, ← h.mem_bucket_iff]
      split
      · simp [hq]
      · rfl
  · dsimp only [World.step]
    rw [hnext]
    by_cases hq : q = queue
    · subst hq
      rw [Function.update_self, leave_subscribed_iff]
      exact fun hs => h.lt_nextQueue q hs.1
    · rw [Function.update_of_ne hq]
      exact h.lt_nextQueue q

/-- **Every step keeps the agreement.** -/
theorem hears_step {w : World} (h : Hears w) (op : Step) : Hears (w.step python op) := by
  cases op with
  | notify payload now => exact hears_notify h payload now
  | subscribe organizationId => exact hears_subscribe h organizationId
  | unsubscribe organizationId queue => exact hears_unsubscribe h organizationId queue
  | get queue =>
    have hsame : ∀ q, ((w.step python (.get queue)).seen q).subscribed = (w.seen q).subscribed ∧
        ((w.step python (.get queue)).seen q).organizationId = (w.seen q).organizationId := by
      intro q
      dsimp only [World.step]
      by_cases hq : q = queue
      · subst hq
        rw [Function.update_self]
        exact ⟨rfl, rfl⟩
      · rw [Function.update_of_ne hq]
        exact ⟨rfl, rfl⟩
    refine ⟨fun q o => ?_, fun q => ?_⟩
    · rw [(hsame q).1, (hsame q).2]
      exact h.mem_bucket_iff q o
    · rw [(hsame q).1]
      exact h.lt_nextQueue q

/-! ### The queue of a subscriber -/

/-- The events that a subscriber's queue was offered. -/
def Seen.heard (v : Seen) : List Outbound := v.own.filter fun e => e.Readable

def World.view (w : World) (q : ℕ) : SheddingQueue Outbound where
  buffer := w.hub.queues q
  pushed := (w.seen q).heard
  taken := (w.seen q).received
  shed := (w.seen q).heard.length - (w.seen q).received.length - (w.hub.queues q).length

/-- What holds at any time. -/
structure Inv (w : World) : Prop where
  hears : Hears w
  sound (q : ℕ) : (w.view q).Sound 50

theorem inv_start : Inv {} where
  hears := hears_start
  sound _ := SheddingQueue.sound_empty

theorem offer_of_lt {queue : List Outbound} (h : queue.length < 50) (e : Outbound) : offer queue e = queue ++ [e] := by
  have hput : putNowait queue e = some (queue ++ [e]) := if_neg (not_le.mpr h)
  rw [offer, hput]

theorem offer_of_eq {queue : List Outbound} (h : queue.length = 50) (e : Outbound) :
    offer queue e = queue.tail ++ [e] := by
  have hfull : putNowait queue e = none := if_pos h.ge
  have hput : putNowait queue.tail e = some (queue.tail ++ [e]) := by
    apply if_neg
    rw [List.length_tail, h]
    decide
  rw [offer, hfull, hput]
  rfl

theorem view_offer {w w' : World} {q : ℕ} {e : Outbound} (hsound : (w.view q).Sound 50) (hreadable : e.Readable)
    (hqueue : w'.hub.queues q = offer (w.hub.queues q) e) (hown : (w'.seen q).own = (w.seen q).own ++ [e])
    (hreceived : (w'.seen q).received = (w.seen q).received) : w'.view q = (w.view q).push 50 e := by
  have hheard : (w'.seen q).heard = (w.seen q).heard ++ [e] := by
    rw [Seen.heard, hown, List.filter_append, List.filter_cons_of_pos (by simpa using hreadable)]
    rfl
  have hcount := hsound.count
  have hlength := hsound.length_le
  simp only [World.view] at hcount hlength
  by_cases hfull : 50 ≤ (w.hub.queues q).length
  · have hpush : (w.view q).push 50 e = ⟨(w.hub.queues q).tail ++ [e], (w.seen q).heard ++ [e], (w.seen q).received,
        (w.seen q).heard.length - (w.seen q).received.length - (w.hub.queues q).length + 1⟩ := if_pos hfull
    rw [hpush, World.view, hqueue, hheard, hreceived, offer_of_eq (le_antisymm hlength hfull)]
    simp only [SheddingQueue.mk.injEq, List.length_append, List.length_tail, List.length_singleton, true_and]
    omega
  · have hpush : (w.view q).push 50 e = ⟨w.hub.queues q ++ [e], (w.seen q).heard ++ [e], (w.seen q).received,
        (w.seen q).heard.length - (w.seen q).received.length - (w.hub.queues q).length⟩ := if_neg hfull
    rw [hpush, World.view, hqueue, hheard, hreceived, offer_of_lt (not_le.mp hfull)]
    simp only [SheddingQueue.mk.injEq, List.length_append, List.length_singleton, true_and]
    omega

theorem own_hear {v : Seen} {o : PyStr} (hv : v.subscribed = true ∧ v.organizationId = o) (e : Outbound) :
    (v.hear (some (o, e))).own = v.own ++ [e] := by
  rw [Seen.hear, if_pos hv.1]
  simp [Seen.own, hv.2]

theorem own_hear_of_not {v : Seen} {notice : Option (PyStr × Outbound)}
    (hv : ∀ o e, notice = some (o, e) → ¬ (v.subscribed = true ∧ v.organizationId = o)) : (v.hear notice).own = v.own := by
  unfold Seen.hear
  split
  · rename_i hsubscribed
    cases notice with
    | none => simp [Seen.own]
    | some n =>
      have hne : ¬ n.1 = v.organizationId := fun hn => hv n.1 n.2 rfl ⟨hsubscribed, hn.symm⟩
      simp [Seen.own, hne]
  · rfl

theorem queues_onNotify (hub : LivenessHub) (payload : String) (now : DateTime.Wall) (q : ℕ) :
    (hub.onNotify python payload now).queues q =
      match announced python payload with
      | some (o, e) => if q ∈ hub.bucket o ∧ e.Readable then offer (hub.queues q) e else hub.queues q
      | none => hub.queues q := by
  rcases onNotify_cases python hub payload now with ⟨hdrop, -, hannounced⟩ | ⟨hnotify, hannounced⟩
  · rw [hdrop]
    cases hnotice : announced python payload with
    | none => rfl
    | some n => exact (if_neg fun hboth => hannounced n.1 n.2 hnotice hboth.2).symm
  · rw [hnotify]
    cases hnotice : announced python payload with
    | none => rfl
    | some n => simp [LivenessHub.fanOut, hannounced n.1 n.2 hnotice]

variable (python) in
/-- **What a notification does to a subscriber's queue**: a subscriber of its organization is offered the event, unless it
is not readable; any other hears nothing of it. -/
theorem view_notify {w : World} (h : Inv w) (payload : String) (now : DateTime.Wall) (q : ℕ) :
    (∃ o e, announced python payload = some (o, e) ∧ q ∈ w.hub.bucket o ∧
      ((w.step python (.notify payload now)).seen q).own = (w.seen q).own ++ [e] ∧
      (w.step python (.notify payload now)).view q = if e.Readable then (w.view q).push 50 e else w.view q) ∨
    ((∀ o e, announced python payload = some (o, e) → q ∉ w.hub.bucket o) ∧
      ((w.step python (.notify payload now)).seen q).own = (w.seen q).own ∧
      (w.step python (.notify payload now)).view q = w.view q) := by
  have hqueue : (w.step python (.notify payload now)).hub.queues q = _ := queues_onNotify w.hub payload now q
  have hreceived : ((w.step python (.notify payload now)).seen q).received = (w.seen q).received := hear_received _ _
  by_cases hhears : ∃ o e, announced python payload = some (o, e) ∧ q ∈ w.hub.bucket o
  · obtain ⟨o, e, hannounced, hq⟩ := hhears
    have hown : ((w.step python (.notify payload now)).seen q).own = (w.seen q).own ++ [e] := by
      dsimp only [World.step]
      rw [hannounced]
      exact own_hear ((h.hears.mem_bucket_iff q o).mp hq) e
    refine Or.inl ⟨o, e, hannounced, hq, hown, ?_⟩
    rw [hannounced] at hqueue
    split
    · rename_i hreadable
      exact view_offer (h.sound q) hreadable (hqueue.trans (if_pos ⟨hq, hreadable⟩)) hown hreceived
    · rename_i hreadable
      have hheard : ((w.step python (.notify payload now)).seen q).heard = (w.seen q).heard := by
        rw [Seen.heard, hown, List.filter_append, List.filter_cons_of_neg (by simpa using hreadable)]
        exact List.append_nil _
      rw [World.view, World.view, hheard, hreceived, hqueue.trans (if_neg fun hboth => hreadable hboth.2)]
  · have hnot : ∀ o e, announced python payload = some (o, e) → q ∉ w.hub.bucket o :=
      fun o e hannounced hq => hhears ⟨o, e, hannounced, hq⟩
    have hown : ((w.step python (.notify payload now)).seen q).own = (w.seen q).own :=
      own_hear_of_not fun o e hannounced hv => hnot o e hannounced ((h.hears.mem_bucket_iff q o).mpr hv)
    have hsame : (w.step python (.notify payload now)).hub.queues q = w.hub.queues q := by
      rw [hqueue]
      cases hannounced : announced python payload with
      | none => rfl
      | some n => exact if_neg fun hboth => hnot n.1 n.2 hannounced hboth.1
    refine Or.inr ⟨hnot, hown, ?_⟩
    rw [World.view, World.view, Seen.heard, Seen.heard, hown, hreceived, hsame]

variable (python) in
/-- **Any other step** leaves a subscriber's queue as it is, takes its oldest event, or makes it. -/
theorem view_other {w : World} {op : Step} (hop : ∀ payload now, op ≠ .notify payload now) (q : ℕ) :
    (((w.step python op).seen q).own = (w.seen q).own ∧
      ((w.step python op).view q = w.view q ∨ (w.step python op).view q = (w.view q).pop)) ∨
    (((w.step python op).seen q).own = [] ∧ (w.step python op).view q = {}) := by
  cases op with
  | notify payload now => exact absurd rfl (hop payload now)
  | subscribe organizationId =>
    by_cases hq : q = w.hub.nextQueue
    · refine Or.inr ?_
      simp [World.step, World.view, LivenessHub.subscribe, Seen.heard, Seen.own, hq]
    · refine Or.inl ⟨?_, Or.inl ?_⟩
      · simp [World.step, Function.update_of_ne hq]
      · simp [World.step, World.view, LivenessHub.subscribe, Function.update_of_ne hq]
  | unsubscribe organizationId queue =>
    have hqueues : (w.hub.unsubscribe organizationId queue).queues = w.hub.queues := by
      unfold LivenessHub.unsubscribe
      split
      · rfl
      · split <;> rfl
    have hleave : ∀ v : Seen, (v.leave organizationId).own = v.own ∧ (v.leave organizationId).received = v.received := by
      intro v
      unfold Seen.leave
      split <;> exact ⟨rfl, rfl⟩
    have hseen : ((w.step python (.unsubscribe organizationId queue)).seen q).own = (w.seen q).own ∧
        ((w.step python (.unsubscribe organizationId queue)).seen q).received = (w.seen q).received := by
      dsimp only [World.step]
      by_cases hq : q = queue
      · subst hq
        rw [Function.update_self]
        exact hleave _
      · rw [Function.update_of_ne hq]
        exact ⟨rfl, rfl⟩
    refine Or.inl ⟨hseen.1, Or.inl ?_⟩
    rw [World.view, World.view, Seen.heard, Seen.heard, hseen.1, hseen.2]
    simp only [World.step, hqueues]
  | get queue =>
    by_cases hq : q = queue
    · subst hq
      refine Or.inl ⟨?_, ?_⟩
      · dsimp only [World.step]
        rw [Function.update_self]
        rfl
      · cases hqueue : w.hub.queues q with
        | nil =>
          refine Or.inl ?_
          simp [World.step, World.view, Seen.heard, Seen.own, hqueue]
        | cons e rest =>
          refine Or.inr ?_
          have hpop : (w.view q).pop = ⟨rest, (w.seen q).heard, (w.seen q).received ++ [e],
              (w.seen q).heard.length - (w.seen q).received.length - (rest.length + 1)⟩ := by
            simp only [SheddingQueue.pop, World.view, hqueue, List.length_cons]
          rw [hpop]
          simp only [World.step, World.view, Seen.heard, Seen.own, Function.update_self, hqueue, List.tail_cons,
            List.head?_cons, Option.toList_some, SheddingQueue.mk.injEq, List.length_append, List.length_singleton,
            true_and]
          omega
    · refine Or.inl ⟨?_, Or.inl ?_⟩
      · simp [World.step, Function.update_of_ne hq]
      · simp [World.step, World.view, Function.update_of_ne hq]

/-- **Every step keeps the invariant.** -/
theorem inv_step {w : World} (h : Inv w) (op : Step) : Inv (w.step python op) := by
  refine ⟨hears_step h.hears op, fun q => ?_⟩
  by_cases hop : ∃ payload now, op = .notify payload now
  · obtain ⟨payload, now, rfl⟩ := hop
    rcases view_notify python h payload now q with ⟨o, e, -, -, -, hview⟩ | ⟨-, -, hview⟩
    · rw [hview]
      split
      · exact SheddingQueue.sound_push (by decide) (h.sound q) e
      · exact h.sound q
    · rw [hview]
      exact h.sound q
  · rcases view_other python (fun payload now hnotify => hop ⟨payload, now, hnotify⟩) q with
      ⟨-, hview | hview⟩ | ⟨-, hview⟩
    · rw [hview]
      exact h.sound q
    · rw [hview]
      exact SheddingQueue.sound_pop (h.sound q)
    · rw [hview]
      exact SheddingQueue.sound_empty

variable (python) in
/-- **In every run** a subscriber receives events of its own organization in the order of the notifications, of which at
most 50 wait in its queue. -/
theorem ordered_run (ops : List Step) (q : ℕ) :
    let w := run (World.step python) {} ops
    ((w.seen q).received ++ w.hub.queues q).Sublist (w.seen q).own ∧ (w.hub.queues q).length ≤ 50 := by
  have hsound := (run_invariant (World.step python) Inv ops (fun _ op _ h => inv_step h op) {} inv_start).sound q
  exact ⟨hsound.sublist.trans List.filter_sublist, hsound.length_le⟩

/-! ### The newest events -/

/-- Every event of a subscriber's organization could be read, and the last one of each station was taken or waits. -/
def Served (w : World) : Prop :=
  ∀ q, (∀ e ∈ (w.seen q).own, e.Readable) ∧ (w.view q).Latest Outbound.stationId

theorem served_start : Served {} := fun _ => ⟨nofun, SheddingQueue.latest_empty _⟩

theorem heard_eq_own {v : Seen} (h : ∀ e ∈ v.own, e.Readable) : v.heard = v.own :=
  List.filter_eq_self.mpr fun e he => decide_eq_true (h e he)

theorem delivers_of_served {w : World} (h : Inv w) (hserved : Served w) (q : ℕ) : Delivers w q := by
  have hheard : (w.view q).pushed = (w.seen q).own := heard_eq_own (hserved q).1
  refine ⟨hheard ▸ (h.sound q).sublist, (h.sound q).length_le, fun station => ?_⟩
  rw [← hheard]
  exact (hserved q).2 station

variable (python) in
/-- The time of a notification is not before the one in the cache, and where its event makes a full queue drop its oldest
one, that one is superseded. -/
def Supersedes (w : World) : Step → Prop
  | .notify payload now =>
    (∀ station t, interaction python payload now = some (station, t) →
      ∀ t' ∈ w.hub.getLastInteraction station, t'.instant ≤ t.instant) ∧
    ∀ o e, announced python payload = some (o, e) → ∀ q ∈ w.hub.bucket o,
      e.Readable ∧ (w.view q).Superseded Outbound.stationId 50 e
  | _ => True

theorem getLastInteraction_notify (w : World) (payload : String) (now : DateTime.Wall) (station : PyStr) :
    (w.step python (.notify payload now)).hub.getLastInteraction station =
      match interaction python payload now with
      | some (station', t) => if station = station' then some t else w.hub.getLastInteraction station
      | none => w.hub.getLastInteraction station := by
  show (w.hub.onNotify python payload now).lastInteraction.get? station = _
  rcases onNotify_cases python w.hub payload now with ⟨hdrop, hnone, -⟩ | ⟨hnotify, -⟩
  · rw [hdrop, hnone]
    rfl
  · rw [hnotify]
    cases interaction python payload now with
    | none => rfl
    | some written => exact Dict.get?_set _ _ _ _

theorem getLastInteraction_other {w : World} {op : Step} (hop : ∀ payload now, op ≠ .notify payload now)
    (station : PyStr) : (w.step python op).hub.getLastInteraction station = w.hub.getLastInteraction station := by
  cases op with
  | notify payload now => exact absurd rfl (hop payload now)
  | subscribe organizationId => rfl
  | unsubscribe organizationId queue =>
    show (w.hub.unsubscribe organizationId queue).lastInteraction.get? station = _
    unfold LivenessHub.unsubscribe
    split
    · rfl
    · split <;> rfl
  | get queue => rfl

/-- **A step that supersedes what it drops** keeps every subscriber served. -/
theorem served_step {w : World} {op : Step} (hop : Supersedes python w op) (h : Inv w) (hserved : Served w) :
    Served (w.step python op) := by
  intro q
  obtain ⟨hreadable, hlatest⟩ := hserved q
  by_cases hnotify : ∃ payload now, op = .notify payload now
  · obtain ⟨payload, now, rfl⟩ := hnotify
    rcases view_notify python h payload now q with
      ⟨o, e, hannounced, hq, hown, hview⟩ | ⟨-, hown, hview⟩
    · obtain ⟨he, hsuperseded⟩ := hop.2 o e hannounced q hq
      rw [hown, hview, if_pos he]
      refine ⟨fun e' he' => ?_, (SheddingQueue.latest_push_iff _ hlatest e).mpr hsuperseded⟩
      rcases List.mem_append.mp he' with hold | hnew
      · exact hreadable e' hold
      · rw [List.mem_singleton.mp hnew]
        exact he
    · rw [hown, hview]
      exact ⟨hreadable, hlatest⟩
  · rcases view_other python (fun payload now hn => hnotify ⟨payload, now, hn⟩) q with
      ⟨hown, hview | hview⟩ | ⟨hown, hview⟩
    · rw [hown, hview]
      exact ⟨hreadable, hlatest⟩
    · rw [hown, hview]
      exact ⟨hreadable, SheddingQueue.latest_pop _ hlatest⟩
    · rw [hown, hview]
      exact ⟨nofun, SheddingQueue.latest_empty _⟩

theorem meets_of_supersedes {w : World} {op : Step} (hop : Supersedes python w op) (h : Inv w) (hserved : Served w) :
    Meets python w op := by
  refine ⟨fun station t ht => ?_, fun q => delivers_of_served (inv_step h op) (served_step hop h hserved) q⟩
  by_cases hnotify : ∃ payload now, op = .notify payload now
  · obtain ⟨payload, now, rfl⟩ := hnotify
    rw [getLastInteraction_notify]
    split
    · rename_i station' t' hinteraction
      split
      · subst station
        exact ⟨t', rfl, hop.1 _ _ hinteraction t ht⟩
      · exact ⟨t, ht, le_rfl⟩
    · exact ⟨t, ht, le_rfl⟩
  · rw [getLastInteraction_other fun payload now hn => hnotify ⟨payload, now, hn⟩]
    exact ⟨t, ht, le_rfl⟩

theorem superseded_of_delivers {w : World} (h : Inv w) (hserved : Served w) {payload : String} {now : DateTime.Wall}
    {o : PyStr} {e : Outbound} (hannounced : announced python payload = some (o, e)) {q : ℕ} (hq : q ∈ w.hub.bucket o)
    (hdelivers : Delivers (w.step python (.notify payload now)) q) :
    e.Readable ∧ (w.view q).Superseded Outbound.stationId 50 e := by
  obtain ⟨hreadable, hlatest⟩ := hserved q
  rcases view_notify python h payload now q with ⟨o', e', hannounced', -, hown, hview⟩ | ⟨hnot, -, -⟩
  · rw [hannounced] at hannounced'
    cases hannounced'
    have hnewest := hdelivers.newest
    by_cases he : e.Readable
    · rw [if_pos he] at hview
      refine ⟨he, (SheddingQueue.latest_push_iff _ hlatest e).mp fun station => ?_⟩
      have hall : ∀ e' ∈ ((w.step python (.notify payload now)).seen q).own, e'.Readable := by
        intro e' he'
        rw [hown] at he'
        rcases List.mem_append.mp he' with hold | hnew
        · exact hreadable e' hold
        · rw [List.mem_singleton.mp hnew]
          exact he
      have hlast := hnewest station
      rw [← heard_eq_own hall] at hlast
      rw [← hview]
      exact hlast
    · rw [if_neg he] at hview
      -- the queue has only readable events, so this one is not the last of its station
      have hlast := hnewest e.stationId
      rw [hown, SheddingQueue.lastOf_concat, if_pos rfl] at hlast
      have hmem := List.mem_of_mem_filter (List.mem_of_getLast? hlast)
      have hheard : e ∈ (w.view q).pushed := (h.sound q).sublist.subset (by rw [← hview]; exact hmem)
      exact absurd (by simpa using (List.mem_filter.mp hheard).2) he
  · exact absurd hq (hnot o e hannounced)

theorem supersedes_of_meets {w : World} {op : Step} (hop : Meets python w op) (h : Inv w) (hserved : Served w) :
    Supersedes python w op := by
  cases op with
  | notify payload now =>
    refine ⟨fun station t hinteraction t' ht' => ?_, fun o e hannounced q hq =>
      superseded_of_delivers h hserved hannounced hq (hop.2 q)⟩
    obtain ⟨t'', ht'', hle⟩ := hop.1 station t' ht'
    rw [getLastInteraction_notify, hinteraction] at ht''
    dsimp only at ht''
    rw [if_pos rfl] at ht''
    cases ht''
    exact hle
  | subscribe organizationId => trivial
  | unsubscribe organizationId queue => trivial
  | get queue => trivial

/-- **Exactly the runs whose notifications supersede what they drop** and do not go back in time meet what a subscriber
and the reader of the cache may expect, at every step. -/
theorem meets_iff_supersedes (python : Interpreter) (ops : List Step) :
    Along (World.step python) (Meets python) {} ops ↔ Along (World.step python) (Supersedes python) {} ops := by
  have hiff : ∀ (w : World) (op : Step), Inv w ∧ Served w → (Meets python w op ↔ Supersedes python w op) :=
    fun w op hw => ⟨fun hop => supersedes_of_meets hop hw.1 hw.2, fun hop => meets_of_supersedes hop hw.1 hw.2⟩
  have hstep : ∀ (w : World) (op : Step), Meets python w op → Inv w ∧ Served w →
      Inv (w.step python op) ∧ Served (w.step python op) :=
    fun w op hop hw => ⟨inv_step hw.1 op, served_step ((hiff w op hw).mp hop) hw.1 hw.2⟩
  exact along_iff_along hiff hstep ⟨inv_start, served_start⟩

/-! ### A depot of two stations -/

/-- The same notification again and again, while the consumer takes nothing. -/
theorem run_notify {payload : String} {now : DateTime.Wall} {o : PyStr} {e : Outbound} {q : ℕ}
    (hannounced : announced python payload = some (o, e)) (n : ℕ) :
    ∀ w, Inv w → q ∈ w.hub.bucket o →
      let w' := run (World.step python) w (List.replicate n (.notify payload now))
      ((w'.seen q).own = (w.seen q).own ++ List.replicate n e ∧ (w'.seen q).received = (w.seen q).received) ∧
        Inv w' ∧ q ∈ w'.hub.bucket o := by
  induction n with
  | zero => exact fun w h hq => ⟨⟨(List.append_nil _).symm, rfl⟩, h, hq⟩
  | succ n ih =>
    intro w h hq
    have hnext := @inv_step python _ h (.notify payload now)
    have hsubscribed := (h.hears.mem_bucket_iff q o).mp hq
    have hmem : q ∈ (w.step python (.notify payload now)).hub.bucket o := by
      rw [hnext.hears.mem_bucket_iff]
      simp only [World.step, hear_subscribed, hear_organizationId]
      exact hsubscribed
    have hown : ((w.step python (.notify payload now)).seen q).own = (w.seen q).own ++ [e] := by
      dsimp only [World.step]
      rw [hannounced]
      exact own_hear hsubscribed e
    have hreceived : ((w.step python (.notify payload now)).seen q).received = (w.seen q).received := hear_received _ _
    obtain ⟨hlater, hinv, hstay⟩ := ih _ hnext hmem
    rw [hown, hreceived, List.append_assoc] at hlater
    exact ⟨hlater, hinv, hstay⟩

/-- **The one event of a station is lost** when fifty of another one follow it. -/
theorem not_meets_of_fifty {o : PyStr} {payload payload' : String} {e e' : Outbound} (now : DateTime.Wall)
    (hannounced : announced python payload = some (o, e)) (hannounced' : announced python payload' = some (o, e'))
    (he : e.Readable) (he' : e'.Readable) (hne : e'.stationId ≠ e.stationId) :
    ¬ Along (World.step python) (Meets python) {}
      (.subscribe o :: .notify payload now :: List.replicate 50 (.notify payload' now)) := by
  rintro ⟨-, -, hrun⟩
  have hstart : Inv (World.step python {} (.subscribe o)) := inv_step inv_start _
  have hmem : 0 ∈ (World.step python {} (.subscribe o)).hub.bucket o := (hstart.hears.mem_bucket_iff 0 o).mpr ⟨rfl, rfl⟩
  obtain ⟨⟨hown, hreceived⟩, hinv, hstay⟩ := @run_notify python _ now _ _ 0 hannounced 1 _ hstart hmem
  obtain ⟨⟨hown', hreceived'⟩, hinv', -⟩ := @run_notify python _ now _ _ 0 hannounced' 50 _ hinv hstay
  rw [hown] at hown'
  rw [hreceived] at hreceived'
  have hsound := hinv'.sound 0
  have hdelivers : Delivers (run (World.step python) (run (World.step python) (World.step python {} (.subscribe o))
      (List.replicate 1 (.notify payload now))) (List.replicate 50 (.notify payload' now))) 0 := by
    rw [List.replicate_succ'] at hrun ⊢
    rw [run_append]
    exact hrun.last.2 0
  generalize run (World.step python) (run (World.step python) (World.step python {} (.subscribe o))
      (List.replicate 1 (.notify payload now))) (List.replicate 50 (.notify payload' now)) = w
    at hown' hreceived' hsound hdelivers
  have howns : (w.seen 0).own = e :: List.replicate 50 e' := hown'
  have hheard : (w.view 0).pushed = e :: List.replicate 50 e' := by
    refine (heard_eq_own fun x hx => ?_).trans howns
    rw [howns] at hx
    rcases List.mem_cons.mp hx with rfl | hrest
    · exact he
    · rw [List.eq_of_mem_replicate hrest]
      exact he'
  have hsuffix := hsound.suffix
  have hlength := hsound.length_le
  rw [hheard, List.suffix_cons_iff] at hsuffix
  rcases hsuffix with hall | hlater
  · rw [hall, List.length_cons, List.length_replicate] at hlength
    omega
  · have hnewest := hdelivers.newest e.stationId
    have hsome : (SheddingQueue.lastOf Outbound.stationId e.stationId (w.seen 0).own).isSome :=
      (SheddingQueue.lastOf_isSome_iff _).mpr ⟨e, by rw [howns]; exact List.mem_cons_self, rfl⟩
    rw [← hnewest, hreceived'] at hsome
    obtain ⟨x, hx, hstation⟩ := (SheddingQueue.lastOf_isSome_iff _).mp hsome
    rw [List.eq_of_mem_replicate (hlater.subset hx)] at hstation
    exact hne hstation

def sampleTime : List Char := "2026-05-06T10:00:00+00:00".toList

def sampleInterpreter : Interpreter where
  str v := match v with
    | .str s => s
    | _ => []
  str_str _ := rfl
  fromisoformat text :=
    if text = sampleTime.map Char.toNat then some (.utc ⟨63913658400000000, by decide +kernel⟩) else none

def samplePayload (station : List Char) : String :=
  String.ofList (JsonText.dumps [("station_id".toList, station), ("organization_id".toList, "org-A".toList),
    ("last_interaction_at".toList, sampleTime), ("server_time".toList, sampleTime)])

def sampleEvent (station : List Char) : Outbound :=
  ⟨.str (station.map Char.toNat), .str (sampleTime.map Char.toNat), .str (sampleTime.map Char.toNat)⟩

theorem announced_sample {station : List Char} (h : (station.all fun c => decide (JsonText.Plain c)) = true) :
    announced sampleInterpreter (samplePayload station) = some (py "org-A", sampleEvent station) := by
  have hplain : ∀ f ∈ [("station_id".toList, station), ("organization_id".toList, "org-A".toList),
      ("last_interaction_at".toList, sampleTime), ("server_time".toList, sampleTime)], JsonText.PlainField f := by
    simp only [List.forall_mem_cons]
    exact ⟨⟨JsonText.plain_of_all rfl, JsonText.plain_of_all h⟩, ⟨JsonText.plain_of_all rfl, JsonText.plain_of_all rfl⟩,
      ⟨JsonText.plain_of_all rfl, JsonText.plain_of_all rfl⟩, ⟨JsonText.plain_of_all rfl, JsonText.plain_of_all rfl⟩,
      nofun⟩
  have hloads := JsonText.loads_dumps hplain (by
    show ([py "station_id", py "organization_id", py "last_interaction_at", py "server_time"] : List PyStr).Nodup
    decide)
  rw [announced, readEvent, samplePayload, hloads]
  rfl

theorem readable_sample (station : List Char) : (sampleEvent station).Readable := fun _ => ⟨_, rfl⟩

/-- After the event of one station come fifty of another; the first is dropped, though no newer event of its station
supersedes it. -/
theorem only_event_dropped : ¬ ∀ (python : Interpreter) (ops : List Step),
    Along (World.step python) (Meets python) {} ops := by
  intro h
  let now : DateTime.Wall := ⟨63913658400000000, by decide⟩
  exact not_meets_of_fifty now (announced_sample rfl) (announced_sample rfl) (readable_sample ['A']) (readable_sample ['B'])
    (by decide) (h sampleInterpreter _)

end FavoniusBackend.Notifications.Liveness
