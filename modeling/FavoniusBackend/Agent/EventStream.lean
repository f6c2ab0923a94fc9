import FavoniusBackend.Lib.Guard
import FavoniusBackend.Lib.Run
import FavoniusBackend.Lib.SheddingQueue

/-!
# The event stream of the chat agent

`SSEEventStream` of `api/agent/stream.py`: a detached producer emits events and closes the stream, a consumer takes the
encoded chunks from the queue until it finds the sentinel, or is cancelled.  None of `emit`, `close` and the consumer's
`get_nowait` contains an await, so each is one step, and the steps come in any order.

The chunks in the queue are a shedding queue whose capacity is one less than that of the `asyncio.Queue` (`Session.view`);
the last place is the sentinel's, which is in the queue from `close` until the consumer takes it (`Framed`).
-/

namespace FavoniusBackend.Agent.EventStream

open Lib Lib.Guard Lib.Run

inductive StreamError
  | valueError (name : String)
  -- Raised by `json.dumps`.
  | notSerializable
  deriving DecidableEq, Repr

/-- `_SSE_QUEUE_MAXSIZE`, from the number in `AGENT_SSE_QUEUE_MAXSIZE`. -/
def queueMaxsize (setting : ℤ) : ℕ := (max 1 setting).toNat

def putNowait {α : Type} (maxsize : ℕ) (queue : List α) (item : α) : Option (List α) :=
  if maxsize ≤ queue.length then none else some (queue ++ [item])

/-- An `SSEEventStream`; the sentinel is `none`. -/
structure SSEEventStream where
  queue : List (Option ByteArray) := []
  closed : Bool := false
  dropped : ℕ := 0

section Stream

-- `json.dumps(data, default=str, sort_keys=True)`.
variable {Data : Type} (dumps : Data → Except StreamError String)

def formatSseEvent (name : String) (data : Data) : Except StreamError ByteArray := do
  require (¬ ('\n' ∈ name.toList ∨ '\r' ∈ name.toList)) (.valueError name)
  let payload ← dumps data
  return ("event: " ++ name ++ "\ndata: " ++ payload ++ "\n\n").toUTF8

variable (maxsize : ℕ)

/-- The oldest chunk makes room when the chunks have reached their bound. -/
def SSEEventStream.shed (s : SSEEventStream) : SSEEventStream :=
  if maxsize ≤ s.queue.length then
    match s.queue with
    | [] => s
    | _ :: rest => { s with queue := rest, dropped := s.dropped + 1 }
  else s

def SSEEventStream.put (s : SSEEventStream) (item : Option ByteArray) : SSEEventStream :=
  match putNowait (maxsize + 1) s.queue item with
  | some queue => { s with queue := queue }
  | none => s

def SSEEventStream.emit (s : SSEEventStream) (name : String) (data : Data) : Except StreamError SSEEventStream :=
  if s.closed then .ok s
  else do
    let chunk ← formatSseEvent dumps name data
    return (s.shed maxsize).put maxsize (some chunk)

def SSEEventStream.close (s : SSEEventStream) : SSEEventStream :=
  if s.closed then s else { s with closed := true }.put maxsize none

/-! ### A stream with its producer and its consumer -/

inductive Consumer
  | reading
  -- Has taken the sentinel.
  | finished
  | cancelled
  deriving DecidableEq, Repr

/-- A stream, the chunks emitted into it while it was open, and the chunks its consumer has yielded. -/
structure Session where
  stream : SSEEventStream := {}
  consumer : Consumer := .reading
  emitted : List ByteArray := []
  delivered : List ByteArray := []

inductive Step (Data : Type)
  | emit (name : String) (data : Data)
  | close
  -- The consumer's next chunk; with an empty queue it goes on waiting.
  | get
  -- The consumer's task is cancelled.
  | cancel

def SSEEventStream.accepts (s : SSEEventStream) (name : String) (data : Data) : List ByteArray :=
  if s.closed then [] else (formatSseEvent dumps name data).toOption.toList

def Session.step (s : Session) : Step Data → Session
  | .emit name data =>
    match s.stream.emit dumps maxsize name data with
    | .ok stream => { s with stream := stream, emitted := s.emitted ++ s.stream.accepts dumps name data }
    | .error _ => s
  | .close => { s with stream := s.stream.close maxsize }
  | .get =>
    if s.consumer = .reading then
      match s.stream.queue with
      | [] => s
      | some chunk :: rest =>
        { s with stream := { s.stream with queue := rest }, delivered := s.delivered ++ [chunk] }
      | none :: rest =>
        { s with stream := { s.stream with queue := rest }.close maxsize, consumer := .finished }
    else s
  | .cancel =>
    if s.consumer = .reading then { s with stream := s.stream.close maxsize, consumer := .cancelled } else s

end Stream

def SSEEventStream.chunks (s : SSEEventStream) : List ByteArray := s.queue.filterMap id

def Session.view (s : Session) : SheddingQueue ByteArray where
  buffer := s.stream.chunks
  pushed := s.emitted
  taken := s.delivered
  shed := s.stream.dropped

/-! ### The place of the sentinel -/

/-- The chunks come first, and the sentinel follows from the close on, until the consumer has taken it. -/
structure Framed (s : Session) : Prop where
  queue : s.stream.queue = s.stream.chunks.map some ++
    if s.stream.closed ∧ s.consumer ≠ .finished then [none] else []
  finished : s.consumer = .finished → s.stream.closed = true ∧ s.stream.chunks = []

@[simp] theorem filterMap_id_map_some (chunks : List ByteArray) : (chunks.map some).filterMap id = chunks := by
  simp [List.filterMap_map]

section Steps

variable {Data : Type} {dumps : Data → Except StreamError String} {maxsize : ℕ}

theorem putNowait_of_lt {α : Type} {queue : List α} {item : α} (h : queue.length < maxsize) :
    putNowait maxsize queue item = some (queue ++ [item]) := if_neg (by omega)

/-- **The sentinel always fits**: closing an open stream puts it behind the chunks. -/
theorem close_of_open {s : Session} (hframed : Framed s) (hlength : s.stream.chunks.length ≤ maxsize)
    (hopen : s.stream.closed = false) :
    s.stream.close maxsize = { s.stream with closed := true, queue := s.stream.queue ++ [none] } := by
  have hqueue : s.stream.queue.length < maxsize + 1 := by
    rw [hframed.queue, hopen]
    simp only [Bool.false_eq_true, false_and, if_false, List.append_nil, List.length_map]
    omega
  rw [SSEEventStream.close, if_neg (by rw [hopen]; exact Bool.false_ne_true), SSEEventStream.put, putNowait_of_lt hqueue]

theorem close_of_closed {s : SSEEventStream} (hclosed : s.closed = true) : s.close maxsize = s := if_pos hclosed

theorem queue_of_open {s : Session} (hframed : Framed s) (hopen : s.stream.closed = false) :
    s.stream.queue = s.stream.chunks.map some := by
  have hqueue := hframed.queue
  rwa [hopen, if_neg (by simp), List.append_nil] at hqueue

/-- **An emit into an open stream** pushes its chunk. -/
theorem shed_put {s : Session} (hframed : Framed s) (hlength : s.stream.chunks.length ≤ maxsize)
    (hopen : s.stream.closed = false) (hmaxsize : 0 < maxsize) (chunk : ByteArray) :
    ((s.stream.shed maxsize).put maxsize (some chunk)).queue =
        ((s.view.push maxsize chunk).buffer).map some ∧
      ((s.stream.shed maxsize).put maxsize (some chunk)).dropped = (s.view.push maxsize chunk).shed ∧
        ((s.stream.shed maxsize).put maxsize (some chunk)).closed = false := by
  have hqueue := queue_of_open hframed hopen
  have hqueuelen : s.stream.queue.length = s.stream.chunks.length := by rw [hqueue, List.length_map]
  by_cases hfull : maxsize ≤ s.stream.chunks.length
  · cases hchunks : s.stream.chunks with
    | nil =>
      rw [hchunks, List.length_nil] at hfull
      omega
    | cons oldest rest =>
      have hshed : s.stream.shed maxsize = { s.stream with queue := rest.map some, dropped := s.stream.dropped + 1 } := by
        rw [SSEEventStream.shed, if_pos (by omega), hqueue, hchunks]
        rfl
      have hroom : (rest.map some).length < maxsize + 1 := by
        rw [hchunks, List.length_cons] at hlength
        rw [List.length_map]
        omega
      have hpush : s.view.push maxsize chunk =
          ⟨s.stream.chunks.tail ++ [chunk], s.emitted ++ [chunk], s.delivered, s.stream.dropped + 1⟩ := if_pos hfull
      rw [hshed, SSEEventStream.put, putNowait_of_lt hroom, hpush, hchunks]
      refine ⟨?_, rfl, hopen⟩
      show rest.map some ++ [some chunk] = (rest ++ [chunk]).map some
      rw [List.map_append]
      rfl
  · have hshed : s.stream.shed maxsize = s.stream := if_neg (by omega)
    have hroom : s.stream.queue.length < maxsize + 1 := by omega
    have hpush : s.view.push maxsize chunk =
        ⟨s.stream.chunks ++ [chunk], s.emitted ++ [chunk], s.delivered, s.stream.dropped⟩ := if_neg hfull
    rw [hshed, SSEEventStream.put, putNowait_of_lt hroom, hpush]
    refine ⟨?_, rfl, hopen⟩
    show s.stream.queue ++ [some chunk] = (s.stream.chunks ++ [chunk]).map some
    rw [hqueue, List.map_append]
    rfl

/-- What holds at any time. -/
structure Inv (maxsize : ℕ) (s : Session) : Prop where
  framed : Framed s
  sound : s.view.Sound maxsize

theorem inv_start : Inv maxsize {} where
  framed := ⟨rfl, fun h => (nomatch h)⟩
  sound := SheddingQueue.sound_empty

theorem inv_emit {s : Session} (h : Inv maxsize s) (hmaxsize : 0 < maxsize) (name : String) (data : Data) :
    Inv maxsize (s.step dumps maxsize (.emit name data)) := by
  cases hclosed : s.stream.closed with
  | true =>
    have hstay : s.step dumps maxsize (.emit name data) = s := by
      simp [Session.step, SSEEventStream.emit, SSEEventStream.accepts, hclosed]
    rw [hstay]
    exact h
  | false =>
    cases hformat : formatSseEvent dumps name data with
    | error e =>
      have hstay : s.step dumps maxsize (.emit name data) = s := by
        simp [Session.step, SSEEventStream.emit, hclosed, hformat, bind, Except.bind]
      rw [hstay]
      exact h
    | ok chunk =>
      have hstep : s.step dumps maxsize (.emit name data) =
          { s with
            stream := (s.stream.shed maxsize).put maxsize (some chunk), emitted := s.emitted ++ [chunk] } := by
        simp [Session.step, SSEEventStream.emit, SSEEventStream.accepts, hclosed, hformat, bind, Except.bind, pure,
          Except.pure, Except.toOption]
      obtain ⟨hqueue, hdropped, hopen⟩ := shed_put h.framed h.sound.length_le hclosed hmaxsize chunk
      have hchunks : ((s.stream.shed maxsize).put maxsize (some chunk)).chunks =
          (s.view.push maxsize chunk).buffer := by
        rw [SSEEventStream.chunks, hqueue, filterMap_id_map_some]
      have hview : (s.step dumps maxsize (.emit name data)).view = s.view.push maxsize chunk := by
        rw [hstep, Session.view, hchunks, hdropped]
        unfold SheddingQueue.push
        split <;> rfl
      refine ⟨⟨?_, ?_⟩, hview ▸ SheddingQueue.sound_push hmaxsize h.sound chunk⟩
      · rw [hstep]
        show ((s.stream.shed maxsize).put maxsize (some chunk)).queue = _
        rw [hchunks, hopen, if_neg (by simp), List.append_nil, hqueue]
      · intro hfinished
        rw [hstep] at hfinished
        have hshut := (h.framed.finished hfinished).1
        rw [hclosed] at hshut
        cases hshut

/-- Closing, by the producer or by a consumer that goes away before the sentinel. -/
theorem inv_close {s : Session} (h : Inv maxsize s) (consumer : Consumer)
    (hconsumer : consumer = s.consumer ∨ (s.consumer ≠ .finished ∧ consumer ≠ .finished)) :
    Inv maxsize { s with stream := s.stream.close maxsize, consumer := consumer } := by
  cases hclosed : s.stream.closed with
  | true =>
    rw [close_of_closed hclosed]
    refine ⟨⟨?_, ?_⟩, h.sound⟩
    · have hqueue := h.framed.queue
      rcases hconsumer with rfl | ⟨hold, hnew⟩
      · exact hqueue
      · rw [hclosed, if_pos ⟨rfl, hold⟩] at hqueue
        rw [hclosed, if_pos ⟨rfl, hnew⟩]
        exact hqueue
    · intro hfinished
      rcases hconsumer with rfl | ⟨_, hnew⟩
      · exact h.framed.finished hfinished
      · exact absurd hfinished hnew
  | false =>
    have hnot : s.consumer ≠ .finished := by
      intro hfinished
      have hshut := (h.framed.finished hfinished).1
      rw [hclosed] at hshut
      cases hshut
    have hnew : consumer ≠ .finished := by
      rcases hconsumer with rfl | ⟨_, hnew⟩
      · exact hnot
      · exact hnew
    rw [close_of_open h.framed h.sound.length_le hclosed]
    have hchunks : (s.stream.queue ++ [none]).filterMap id = s.stream.chunks := by
      simp [SSEEventStream.chunks]
    refine ⟨⟨?_, fun hfinished => absurd hfinished hnew⟩, ?_⟩
    · show s.stream.queue ++ [none] = ((s.stream.queue ++ [none]).filterMap id).map some ++ _
      rw [hchunks, if_pos ⟨rfl, hnew⟩, queue_of_open h.framed hclosed]
    · show SheddingQueue.Sound maxsize
        ⟨(s.stream.queue ++ [none]).filterMap id, s.emitted, s.delivered, s.stream.dropped⟩
      rw [hchunks]
      exact h.sound

/-- Nothing but the sentinel, or nothing at all, is left. -/
theorem inv_get_nil {s : Session} (h : Inv maxsize s) (hreading : s.consumer = .reading)
    (hchunks : s.stream.chunks = []) : Inv maxsize (s.step dumps maxsize .get) := by
  have hqueue := h.framed.queue
  rw [hchunks, List.map_nil, List.nil_append] at hqueue
  cases hclosed : s.stream.closed with
  | false =>
    rw [hclosed, if_neg (by simp)] at hqueue
    have hstay : s.step dumps maxsize .get = s := by simp [Session.step, hreading, hqueue]
    rw [hstay]
    exact h
  | true =>
    rw [hclosed, hreading, if_pos ⟨rfl, by simp⟩] at hqueue
    have hstep : s.step dumps maxsize .get =
        { s with stream := { s.stream with queue := [] }, consumer := .finished } := by
      simp [Session.step, hreading, hqueue, SSEEventStream.close, hclosed]
    rw [hstep]
    refine ⟨⟨?_, fun _ => ⟨hclosed, rfl⟩⟩, ?_⟩
    · simp [SSEEventStream.chunks]
    · have hsound := h.sound
      rw [Session.view, hchunks] at hsound
      exact hsound

theorem inv_get_cons {s : Session} (h : Inv maxsize s) (hreading : s.consumer = .reading) {chunk : ByteArray}
    {rest : List ByteArray} (hchunks : s.stream.chunks = chunk :: rest) :
    Inv maxsize (s.step dumps maxsize .get) := by
  -- the sentinel, or nothing
  set back : List (Option ByteArray) := if s.stream.closed ∧ s.consumer ≠ .finished then [none] else [] with hback
  have hqueue : s.stream.queue = some chunk :: (rest.map some ++ back) := by
    rw [h.framed.queue, hchunks]
    rfl
  have hstep : s.step dumps maxsize .get =
      { s with
        stream := { s.stream with queue := rest.map some ++ back }
        delivered := s.delivered ++ [chunk] } := by
    rw [Session.step, if_pos hreading, hqueue]
  have hrest : (rest.map some ++ back).filterMap id = rest := by
    rw [hback]
    split <;> simp
  rw [hstep]
  refine ⟨⟨?_, ?_⟩, ?_⟩
  · show rest.map some ++ back = ((rest.map some ++ back).filterMap id).map some ++ back
    rw [hrest]
  · intro hfinished
    rw [hreading] at hfinished
    cases hfinished
  · have hsound := SheddingQueue.sound_pop h.sound
    have hpop : s.view.pop = ⟨rest, s.emitted, s.delivered ++ [chunk], s.stream.dropped⟩ := by
      simp only [SheddingQueue.pop, Session.view, hchunks]
    rw [hpop] at hsound
    show SheddingQueue.Sound maxsize
      ⟨(rest.map some ++ back).filterMap id, s.emitted, s.delivered ++ [chunk], s.stream.dropped⟩
    rw [hrest]
    exact hsound

theorem inv_get {s : Session} (h : Inv maxsize s) : Inv maxsize (s.step dumps maxsize .get) := by
  by_cases hreading : s.consumer = .reading
  · cases hchunks : s.stream.chunks with
    | nil => exact inv_get_nil h hreading hchunks
    | cons chunk rest => exact inv_get_cons h hreading hchunks
  · have hstay : s.step dumps maxsize .get = s := if_neg hreading
    rw [hstay]
    exact h

/-- **Every step keeps the invariant.** -/
theorem inv_step (hmaxsize : 0 < maxsize) {s : Session} (h : Inv maxsize s) (step : Step Data) :
    Inv maxsize (s.step dumps maxsize step) := by
  cases step with
  | emit name data => exact inv_emit h hmaxsize name data
  | close => exact inv_close h s.consumer (Or.inl rfl)
  | get => exact inv_get h
  | cancel =>
    by_cases hreading : s.consumer = .reading
    · have hstep : s.step dumps maxsize .cancel =
          { s with stream := s.stream.close maxsize, consumer := .cancelled } := if_pos hreading
      rw [hstep]
      exact inv_close h .cancelled (Or.inr ⟨by rw [hreading]; exact nofun, nofun⟩)
    · have hstay : s.step dumps maxsize .cancel = s := if_neg hreading
      rw [hstay]
      exact h

theorem inv_run (hmaxsize : 0 < maxsize) (steps : List (Step Data)) :
    Inv maxsize (run (Session.step dumps maxsize) {} steps) :=
  run_invariant (Session.step dumps maxsize) (Inv maxsize) steps (fun _ step _ hs => inv_step hmaxsize hs step) _ inv_start

/-! ### Draining -/

theorem finished_of_drain (n : ℕ) :
    ∀ s : Session, Inv maxsize s → s.stream.closed = true → s.consumer = .reading → s.stream.chunks.length = n →
      (run (Session.step dumps maxsize) s (List.replicate (n + 1) (.get : Step Data))).consumer = .finished := by
  induction n with
  | zero =>
    intro s h hclosed hreading hlength
    have hqueue := h.framed.queue
    rw [List.length_eq_zero_iff.mp hlength, hclosed, hreading, if_pos ⟨rfl, nofun⟩] at hqueue
    show (s.step dumps maxsize .get).consumer = .finished
    rw [Session.step, if_pos hreading, hqueue]
    rfl
  | succ n ih =>
    intro s h hclosed hreading hlength
    rw [List.replicate_succ, run_cons]
    have hnext : Inv maxsize (s.step dumps maxsize .get) := inv_get h
    have hqueue := h.framed.queue
    cases hchunks : s.stream.chunks with
    | nil =>
      rw [hchunks, List.length_nil] at hlength
      omega
    | cons chunk rest =>
      rw [hchunks, hclosed, hreading, if_pos ⟨rfl, nofun⟩, List.map_cons, List.cons_append] at hqueue
      have hstep : s.step dumps maxsize .get =
          { s with stream := { s.stream with queue := rest.map some ++ [none] }
                   delivered := s.delivered ++ [chunk] } := by
        rw [Session.step, if_pos hreading, hqueue]
      rw [hstep] at hnext ⊢
      apply ih _ hnext hclosed hreading
      rw [hchunks, List.length_cons] at hlength
      show ((rest.map some ++ [none]).filterMap id).length = n
      rw [List.filterMap_append, filterMap_id_map_some]
      simp only [List.filterMap_cons, List.filterMap_nil, id, List.append_nil]
      omega

/-- **The stream**, after any steps: what is delivered comes in order from what was emitted; the chunks stay within the
bound; the sentinel is put into the queue when the stream is closed and stays there, last, until the consumer takes it; a
consumer that has taken it has been delivered the last chunks, as many as fit; and one that goes on reading after the close
gets that far. -/
theorem stream_delivers (setting : ℤ) (steps : List (Step Data)) :
    let s := run (Session.step dumps (queueMaxsize setting)) {} steps
    s.delivered.Sublist s.emitted ∧
      s.stream.chunks.length ≤ queueMaxsize setting ∧
      (s.stream.closed = false → (s.stream.close (queueMaxsize setting)).queue = s.stream.queue ++ [none]) ∧
      (s.stream.closed = true → s.consumer ≠ .finished → s.stream.queue = s.stream.chunks.map some ++ [none]) ∧
      (s.consumer = .finished →
        s.stream.closed = true ∧ s.emitted.rtake (queueMaxsize setting) <:+ s.delivered) ∧
      (s.stream.closed = true → s.consumer = .reading →
        (run (Session.step dumps (queueMaxsize setting)) s
          (List.replicate (s.stream.chunks.length + 1) (.get : Step Data))).consumer = .finished) := by
  intro s
  have hmaxsize : 0 < queueMaxsize setting := by
    unfold queueMaxsize
    omega
  have h : Inv (queueMaxsize setting) s := inv_run hmaxsize steps
  refine ⟨?_, h.sound.length_le, ?_, ?_, ?_, ?_⟩
  · exact (List.sublist_append_left _ _).trans h.sound.sublist
  · intro hopen
    rw [close_of_open h.framed h.sound.length_le hopen]
  · intro hclosed hnot
    have hqueue := h.framed.queue
    rwa [if_pos ⟨hclosed, hnot⟩] at hqueue
  · intro hfinished
    obtain ⟨hclosed, hempty⟩ := h.framed.finished hfinished
    refine ⟨hclosed, ?_⟩
    have hnewest := h.sound.newest
    have htotal : s.view.taken ++ s.view.buffer = s.delivered := by
      show s.delivered ++ s.stream.chunks = s.delivered
      rw [hempty, List.append_nil]
    rwa [htotal] at hnewest
  · intro hclosed hreading
    exact finished_of_drain _ s h hclosed hreading rfl

end Steps

end FavoniusBackend.Agent.EventStream
