import Gmaker.Net.TcpConnection

/-!
# Gmaker.Net.AsyncConnection — backpressure and closing, call by call

The write side of `AsyncTCPConnection` and `WebSocketConnection` in small steps. `Send`
may be called from any thread and is not one step: the buffers are queued under the lock,
then reading is stopped, then the writing is started; the loop goes on between. Only the
sizes of buffers are kept. `step_of_next` says what a step does, `processWriteQueue_eq`
what is left of the queue, and `Flow` is the invariant of the byte count. The machine of
`Gmaker.Net.TcpConnection`, in which a call is one step, is part of this one (`run_ofTcp`).
-/

namespace Gmaker.Net.Async

open Gmaker.Lib
open Gmaker.Net.Tcp (Handle maxWriteQueueBytes writeResumeThreshold)

/-! ## State -/

/-- The two classes. -/
inductive Kind where
  | tcp
  | ws
deriving DecidableEq

/-- `MAX_BATCH` of `ProcessWriteQueue`. -/
def Kind.maxBatch : Kind → ℕ
  | .tcp => Tcp.maxBatch
  | .ws => 128

/-- What is posted to the loop. -/
inductive Task where
  | processWriteQueue
  | doClose
  /-- `uv_read_stop`, of a WebSocket -/
  | readStop
deriving DecidableEq

/-- Where a call of `Send` or `CloseAfterWrite` is. -/
inductive Pc where
  /-- it has found the connection open -/
  | queue (buffers : List ℕ)
  /-- it has paused reading, and stops it now -/
  | pause
  /-- it starts the writing now -/
  | trigger
deriving DecidableEq

/-- A call that has not returned, and whether it was made on the loop's thread. -/
structure Call where
  onLoop : Bool
  pc : Pc
deriving DecidableEq

/-- A connection; `reading` is libuv's, `closes` counts the calls of `uv_close`. -/
structure Conn where
  handle : Handle := .open_
  closed : Bool := false
  closing : Bool := false
  closeAfterWrite : Bool := false
  writing : Bool := false
  readPaused : Bool := false
  reading : Bool := true
  /-- the sizes of the buffers -/
  writeQueue : List ℕ := []
  writeQueueBytes : ℕ := 0
  /-- `write_req_->buffers` while `uv_write` has them -/
  inFlight : Option (List ℕ) := none
  calls : List Call := []
  tasks : List Task := []
  closes : ℕ := 0
deriving DecidableEq

/-! ## The operations -/

section Operations

variable (k : Kind)

/-- `DoClose`. -/
def Conn.doClose (c : Conn) : Conn :=
  let c := if k = .ws then { c with closing := true } else c
  if c.handle = .open_ then { c with handle := .closing, closes := c.closes + 1 } else c

/-- `Close`. -/
def Conn.close (c : Conn) (onLoop : Bool) : Conn :=
  if c.closed then c
  else
    let c := { c with closed := true }
    if c.closing then c
    else
      let c := { c with closing := true }
      if onLoop then c.doClose k else { c with tasks := c.tasks ++ [.doClose] }

/-- The lock section of `ProcessWriteQueue` when the queue is not empty, and the
`uv_read_start` that may follow. -/
def Conn.takeBatch (c : Conn) : Conn :=
  let bytes := c.writeQueueBytes - (c.writeQueue.take k.maxBatch).sum
  let resume := c.readPaused && decide (bytes < writeResumeThreshold)
  { c with
    writeQueue := c.writeQueue.drop k.maxBatch
    writeQueueBytes := bytes
    readPaused := c.readPaused && !resume
    reading := c.reading || resume }

/-- `ProcessWriteQueue` when the queue is empty. -/
def Conn.idle (c : Conn) : Conn :=
  let c := { c with writing := false }
  if c.closeAfterWrite then
    let c := { c with closeAfterWrite := false }
    match k with
    | .tcp => c.close k true
    | .ws => c.doClose k
  else c

variable (uvOk : Bool)

/-- `uv_write` of a batch. -/
def Conn.uvWrite (c : Conn) (batch : List ℕ) : Conn :=
  if uvOk then { c with inFlight := some batch } else { c with writing := false }.close k true

/-- `ProcessWriteQueue`, which for a WebSocket starts over after a batch of empty buffers;
as often as the first argument says. -/
def processLoop : ℕ → Conn → Conn
  | 0, c => c
  | n + 1, c =>
    if c.handle ≠ .open_ then if k = .ws then { c with writing := false } else c
    else
      let batch := c.writeQueue.take k.maxBatch
      if batch = [] then c.idle k
      else if k = .ws ∧ ∀ b ∈ batch, b = 0 then processLoop n (c.takeBatch k)
      else (c.takeBatch k).uvWrite k uvOk batch

/-- `ProcessWriteQueue`. -/
def Conn.processWriteQueue (c : Conn) : Conn := processLoop k uvOk (c.writeQueue.length + 1) c

/-- `if (writing_.compare_exchange_strong(false, true)) loop_->Post(..)`. -/
def Conn.triggerWrite (c : Conn) (onLoop : Bool) : Conn :=
  if c.writing then c
  else
    let c := { c with writing := true }
    if onLoop then c.processWriteQueue k uvOk
    else { c with tasks := c.tasks ++ [.processWriteQueue] }

/-- `uv_read_stop`. -/
def Conn.readStop (c : Conn) : Conn :=
  { c with reading := if c.handle = .gone then c.reading else false }

/-- `uv_read_stop` by the sender, or posted by it. -/
def Conn.stopReading (c : Conn) (onLoop : Bool) : Conn :=
  if c.handle = .gone then c
  else if k = .tcp ∨ onLoop then c.readStop
  else { c with tasks := c.tasks ++ [.readStop] }

/-- The lock section of `Send`, and whether reading is to be stopped. -/
def Conn.queue (c : Conn) (buffers : List ℕ) : Conn × Bool :=
  let bytes := c.writeQueueBytes + buffers.sum
  let pause := decide (maxWriteQueueBytes < bytes) && !c.readPaused
  ({ c with
    writeQueue := c.writeQueue ++ buffers
    writeQueueBytes := bytes
    readPaused := c.readPaused || pause }, pause)

/-- A call goes on. -/
def Conn.callStep (c : Conn) (i : ℕ) (call : Call) : Conn :=
  match call.pc with
  | .queue buffers =>
    -- `QueueFrameParts` looks once more
    if k = .ws ∧ (c.closed || c.closing || c.handle = .gone) then
      { c with calls := c.calls.eraseIdx i }
    else
      let (c, pause) := c.queue buffers
      { c with calls := c.calls.set i { call with pc := if pause then .pause else .trigger } }
  | .pause => { c with calls := c.calls.set i { call with pc := .trigger } }.stopReading k call.onLoop
  | .trigger => { c with calls := c.calls.eraseIdx i }.triggerWrite k uvOk call.onLoop

/-- `Send`, `SendBatch`, `SendMessage`, up to the lock. -/
def Conn.send (c : Conn) (onLoop : Bool) (buffers : List ℕ) : Conn :=
  if c.closed || c.closing || c.closeAfterWrite || c.handle = .gone || buffers.isEmpty then c
  else { c with calls := c.calls ++ [⟨onLoop, .queue buffers⟩] }

/-- `CloseAfterWrite`, up to the start of the writing. -/
def Conn.doCloseAfterWrite (c : Conn) (onLoop : Bool) : Conn :=
  if c.closed || c.closing || c.closeAfterWrite || c.handle = .gone then c
  else { c with
    closed := true, closeAfterWrite := true, calls := c.calls ++ [⟨onLoop, .trigger⟩] }

/-- `QueueFrame` of a WebSocket, on the loop. -/
def Conn.queueFrame (c : Conn) (frame : ℕ) : Conn :=
  let (c, pause) := c.queue [frame]
  (if pause then c.readStop else c).triggerWrite k uvOk true

/-- `SendCloseAndDrain` of a WebSocket, on the loop; the close frame has this size. -/
def Conn.sendCloseAndDrain (c : Conn) (frame : ℕ) : Conn :=
  if c.closed || c.closing then c
  else if c.handle = .gone then c.close k true
  else
    let c := { c.queueFrame k uvOk frame with closed := true, closeAfterWrite := true }
    if c.writing then c else c.doClose k

/-- `OnWriteDone` with `status >= 0` or not. -/
def Conn.onWriteDone (c : Conn) (ok : Bool) : Conn :=
  let c := { c with inFlight := none }
  if ok then c.processWriteQueue k uvOk else c.close k true

end Operations

/-! ## Steps -/

/-- What can happen to a connection. `uvOk` is what `uv_write` returns if it gets called. -/
inductive Event where
  | send (onLoop : Bool) (buffers : List ℕ)
  | closeAfterWrite (onLoop : Bool)
  /-- the `i`-th of the calls goes on -/
  | call (i : ℕ) (uvOk : Bool)
  | close (onLoop : Bool)
  | sendCloseAndDrain (frame : ℕ) (uvOk : Bool)
  /-- an error or the end of the stream -/
  | readError
  /-- the loop runs the `i`-th of the posted tasks -/
  | task (i : ℕ) (uvOk : Bool)
  | writeDone (ok uvOk : Bool)
  | closeDone
deriving DecidableEq

/-- Whether the loop's thread is free, or in one of the calls. -/
def Conn.loopFree (c : Conn) : Bool := c.calls.all fun call => !call.onLoop

/-- A step of the loop's thread. -/
def Event.byLoop : Event → Bool
  | .send onLoop _ | .closeAfterWrite onLoop | .close onLoop => onLoop
  | .call _ _ => false
  | _ => true

def next (k : Kind) (c : Conn) (e : Event) : Option Conn :=
  if e.byLoop && !c.loopFree then none
  else
    match e with
    | .send onLoop buffers => some (c.send onLoop buffers)
    | .closeAfterWrite onLoop => some (c.doCloseAfterWrite onLoop)
    | .call i uvOk => (c.calls[i]?).map (c.callStep k uvOk i)
    | .close onLoop => some (c.close k onLoop)
    | .sendCloseAndDrain frame uvOk =>
      if k = .ws then some (c.sendCloseAndDrain k uvOk frame) else none
    | .readError => if c.handle = .open_ then some (c.close k true) else none
    | .task i uvOk =>
      (c.tasks[i]?).map fun t =>
        let c := { c with tasks := c.tasks.eraseIdx i }
        match t with
        | .processWriteQueue => c.processWriteQueue k uvOk
        | .doClose => c.doClose k
        | .readStop => c.readStop
    | .writeDone ok uvOk =>
      -- a write that `uv_close` finds in flight is cancelled
      if c.inFlight.isNone ∨ (ok ∧ c.handle ≠ .open_) then none
      else some (c.onWriteDone k uvOk ok)
    | .closeDone =>
      if c.handle = .closing ∧ c.inFlight = none then some { c with handle := .gone } else none

/-- What a step does, with what it finds. -/
inductive Step (k : Kind) (c : Conn) : Event → Conn → Prop
  | send (onLoop : Bool) (buffers : List ℕ) : Step k c (.send onLoop buffers) (c.send onLoop buffers)
  | closeAfterWrite (onLoop : Bool) :
    Step k c (.closeAfterWrite onLoop) (c.doCloseAfterWrite onLoop)
  | call {i : ℕ} {call : Call} (hi : c.calls[i]? = some call) (uvOk : Bool) :
    Step k c (.call i uvOk) (c.callStep k uvOk i call)
  | close (onLoop : Bool) : Step k c (.close onLoop) (c.close k onLoop)
  | sendCloseAndDrain (hk : k = .ws) (frame : ℕ) (uvOk : Bool) :
    Step k c (.sendCloseAndDrain frame uvOk) (c.sendCloseAndDrain k uvOk frame)
  | readError : Step k c .readError (c.close k true)
  | process {i : ℕ} (hi : c.tasks[i]? = some .processWriteQueue) (uvOk : Bool) :
    Step k c (.task i uvOk) ({ c with tasks := c.tasks.eraseIdx i }.processWriteQueue k uvOk)
  | doClose {i : ℕ} (hi : c.tasks[i]? = some .doClose) (uvOk : Bool) :
    Step k c (.task i uvOk) ({ c with tasks := c.tasks.eraseIdx i }.doClose k)
  | readStop {i : ℕ} (hi : c.tasks[i]? = some .readStop) (uvOk : Bool) :
    Step k c (.task i uvOk) { c with tasks := c.tasks.eraseIdx i }.readStop
  | written {batch : List ℕ} (hflight : c.inFlight = some batch) (hopen : c.handle = .open_)
      (uvOk : Bool) :
    Step k c (.writeDone true uvOk) ({ c with inFlight := none }.processWriteQueue k uvOk)
  | writeFailed {batch : List ℕ} (hflight : c.inFlight = some batch) (uvOk : Bool) :
    Step k c (.writeDone false uvOk) ({ c with inFlight := none }.close k true)
  | closeDone (hclosing : c.handle = .closing) (hflight : c.inFlight = none) :
    Step k c .closeDone { c with handle := .gone }

theorem step_of_next {k : Kind} {c c' : Conn} {e : Event} (h : next k c e = some c') :
    Step k c e c' := by
  unfold next at h
  by_cases hbusy : (e.byLoop && !c.loopFree) = true
  · rw [if_pos hbusy] at h
    cases h
  · rw [if_neg hbusy] at h
    cases e with
    | send onLoop buffers =>
      cases h
      exact .send onLoop buffers
    | closeAfterWrite onLoop =>
      cases h
      exact .closeAfterWrite onLoop
    | call i uvOk =>
      obtain ⟨call, hi, rfl⟩ := Option.map_eq_some_iff.mp h
      exact .call hi uvOk
    | close onLoop =>
      cases h
      exact .close onLoop
    | sendCloseAndDrain frame uvOk =>
      simp only at h
      split_ifs at h with hk
      cases h
      exact .sendCloseAndDrain hk frame uvOk
    | readError =>
      simp only at h
      split_ifs at h
      cases h
      exact .readError
    | task i uvOk =>
      obtain ⟨t, hi, rfl⟩ := Option.map_eq_some_iff.mp h
      cases t with
      | processWriteQueue => exact .process hi uvOk
      | doClose => exact .doClose hi uvOk
      | readStop => exact .readStop hi uvOk
    | writeDone ok uvOk =>
      simp only at h
      split_ifs at h with hnot
      cases h
      obtain ⟨hflight, hopen⟩ := not_or.mp hnot
      rw [Option.isNone_iff_eq_none] at hflight
      obtain ⟨batch, hbatch⟩ := Option.ne_none_iff_exists'.mp hflight
      cases ok with
      | true => exact .written hbatch (not_not.mp fun hclosed => hopen ⟨rfl, hclosed⟩) uvOk
      | false => exact .writeFailed hbatch uvOk
    | closeDone =>
      simp only at h
      split_ifs at h with hclosing
      cases h
      exact .closeDone hclosing.1 hclosing.2

/-- No call has to return, no posted task to run and no write to complete. -/
structure Quiescent (c : Conn) : Prop where
  calls : c.calls = []
  tasks : c.tasks = []
  idle : c.inFlight = none

instance (c : Conn) : Decidable (Quiescent c) :=
  decidable_of_iff (c.calls = [] ∧ c.tasks = [] ∧ c.inFlight = none)
    ⟨fun ⟨h₁, h₂, h₃⟩ => ⟨h₁, h₂, h₃⟩, fun ⟨h₁, h₂, h₃⟩ => ⟨h₁, h₂, h₃⟩⟩

/-! ## What `ProcessWriteQueue` does -/

section Process

variable {k : Kind} {c c' : Conn} {uvOk : Bool}

/-- The queue without the batches of empty buffers that a WebSocket drops at its front. -/
def skipEmpty (k : Kind) : ℕ → List ℕ → List ℕ
  | 0, q => q
  | n + 1, q =>
    if k = .ws ∧ q ≠ [] ∧ ∀ b ∈ q.take k.maxBatch, b = 0 then skipEmpty k n (q.drop k.maxBatch)
    else q

/-- The queue from the batch on that `ProcessWriteQueue` writes. -/
def Conn.toWrite (k : Kind) (c : Conn) : List ℕ := skipEmpty k c.writeQueue.length c.writeQueue

/-- What is left in the queue after it. -/
def Conn.rest (k : Kind) (c : Conn) : List ℕ := (c.toWrite k).drop k.maxBatch

theorem Kind.maxBatch_pos (k : Kind) : 0 < k.maxBatch := by
  cases k <;> decide

theorem sum_take_eq_zero {q : List ℕ} {n : ℕ} (h : ∀ b ∈ q.take n, b = 0) : (q.take n).sum = 0 :=
  List.sum_eq_zero h

theorem sum_drop {q : List ℕ} (n : ℕ) : (q.drop n).sum = q.sum - (q.take n).sum := by
  have hsum : (q.take n).sum + (q.drop n).sum = q.sum := by
    rw [← List.sum_append, List.take_append_drop]
  omega

theorem sum_skipEmpty (n : ℕ) (q : List ℕ) : (skipEmpty k n q).sum = q.sum := by
  induction n generalizing q with
  | zero => rfl
  | succ n ih =>
    unfold skipEmpty
    split_ifs with hempty
    · rw [ih, sum_drop, sum_take_eq_zero hempty.2.2, Nat.sub_zero]
    · rfl

theorem skipEmpty_nil (n : ℕ) : skipEmpty k n [] = [] := by
  cases n with
  | zero => rfl
  | succ n => exact if_neg fun h => h.2.1 rfl

/-- The count is that of the queue, and reading is paused only while the queue is long. -/
structure Flow (c : Conn) : Prop where
  bytes : c.writeQueueBytes = c.writeQueue.sum
  paused : c.readPaused = true → writeResumeThreshold ≤ c.writeQueueBytes

/-- A batch of empty buffers changes nothing but the queue. -/
theorem Flow.takeBatch_empty (h : Flow c) (hempty : ∀ b ∈ c.writeQueue.take k.maxBatch, b = 0) :
    c.takeBatch k = { c with writeQueue := c.writeQueue.drop k.maxBatch } := by
  unfold Conn.takeBatch
  rw [sum_take_eq_zero hempty, Nat.sub_zero]
  have hstay : (c.readPaused && decide (c.writeQueueBytes < writeResumeThreshold)) = false := by
    cases hp : c.readPaused with
    | false => rfl
    | true =>
      have hlong := h.paused hp
      simpa using hlong
  simp only [hstay, Bool.not_false, Bool.and_true, Bool.or_false]

/-- `ProcessWriteQueue` on an open handle, without the loop: nothing is left to write, or
one batch is written. -/
theorem processLoop_eq (h : Flow c) (hopen : c.handle = .open_) {n : ℕ}
    (hn : c.writeQueue.length ≤ n) :
    processLoop k uvOk (n + 1) c =
      if skipEmpty k n c.writeQueue = [] then
        { c with writeQueue := [], writeQueueBytes := 0 }.idle k
      else ({ c with writeQueue := skipEmpty k n c.writeQueue }.takeBatch k).uvWrite k uvOk
        ((skipEmpty k n c.writeQueue).take k.maxBatch) := by
  have hbatch : ∀ q : List ℕ, q.take k.maxBatch = [] ↔ q = [] := by
    intro q
    rw [List.take_eq_nil_iff]
    exact or_iff_right k.maxBatch_pos.ne'
  induction n generalizing c with
  | zero =>
    have hq : c.writeQueue = [] := List.length_eq_zero_iff.mp (Nat.le_zero.mp hn)
    have hzero : c.writeQueueBytes = 0 := by rw [h.bytes, hq, List.sum_nil]
    have hsame : { c with writeQueue := [], writeQueueBytes := 0 } = c := by
      rw [← hq, ← hzero]
    unfold processLoop skipEmpty
    rw [if_neg (not_not.mpr hopen), if_pos ((hbatch _).mpr hq), if_pos hq, hsame]
  | succ n ih =>
    unfold processLoop
    rw [if_neg (not_not.mpr hopen)]
    by_cases hq : c.writeQueue = []
    · have hzero : c.writeQueueBytes = 0 := by rw [h.bytes, hq, List.sum_nil]
      have hsame : { c with writeQueue := [], writeQueueBytes := 0 } = c := by
        rw [← hq, ← hzero]
      have hskip : skipEmpty k (n + 1) c.writeQueue = [] := by rw [hq, skipEmpty_nil]
      rw [if_pos ((hbatch _).mpr hq), if_pos hskip, hsame]
    · rw [if_neg (mt (hbatch _).mp hq)]
      by_cases hempty : k = .ws ∧ ∀ b ∈ c.writeQueue.take k.maxBatch, b = 0
      · have hskip : k = .ws ∧ c.writeQueue ≠ [] ∧ ∀ b ∈ c.writeQueue.take k.maxBatch, b = 0 :=
          ⟨hempty.1, hq, hempty.2⟩
        have hnext : skipEmpty k (n + 1) c.writeQueue =
            skipEmpty k n (c.writeQueue.drop k.maxBatch) := if_pos hskip
        rw [if_pos hempty, hnext, h.takeBatch_empty hempty.2]
        have hflow : Flow { c with writeQueue := c.writeQueue.drop k.maxBatch } := by
          refine ⟨?_, h.paused⟩
          change c.writeQueueBytes = (c.writeQueue.drop k.maxBatch).sum
          rw [sum_drop, sum_take_eq_zero hempty.2, Nat.sub_zero, h.bytes]
        have hlen : (c.writeQueue.drop k.maxBatch).length ≤ n := by
          rw [List.length_drop]
          have hpos := k.maxBatch_pos
          omega
        exact ih hflow hopen hlen
      · have hskip : ¬ (k = .ws ∧ c.writeQueue ≠ [] ∧ ∀ b ∈ c.writeQueue.take k.maxBatch, b = 0) :=
          fun hall => hempty ⟨hall.1, hall.2.2⟩
        have hstop : skipEmpty k (n + 1) c.writeQueue = c.writeQueue := if_neg hskip
        rw [if_neg hempty, hstop, if_neg hq]

theorem processWriteQueue_eq (h : Flow c) (hopen : c.handle = .open_) :
    c.processWriteQueue k uvOk =
      if c.toWrite k = [] then { c with writeQueue := [], writeQueueBytes := 0 }.idle k
      else ({ c with writeQueue := c.toWrite k }.takeBatch k).uvWrite k uvOk
        ((c.toWrite k).take k.maxBatch) :=
  processLoop_eq h hopen le_rfl

theorem processWriteQueue_closed (hopen : c.handle ≠ .open_) :
    c.processWriteQueue k uvOk = if k = .ws then { c with writing := false } else c := by
  unfold Conn.processWriteQueue processLoop
  rw [if_pos hopen]

end Process

/-! ## Tasks and calls -/

/-- Taking one out of a list. -/
theorem countP_eraseIdx {α : Type} {ts : List α} {i : ℕ} {t : α} (hi : ts[i]? = some t)
    (p : α → Bool) : ts.countP p = (ts.eraseIdx i).countP p + if p t then 1 else 0 := by
  obtain ⟨hlt, rfl⟩ := List.getElem?_eq_some_iff.mp hi
  rw [← (List.getElem_cons_eraseIdx_perm hlt).countP_eq, List.countP_cons]

theorem countP_set {α : Type} {ts : List α} {i : ℕ} {t : α} (hi : ts[i]? = some t) (u : α)
    (p : α → Bool) :
    (ts.set i u).countP p + (if p t then 1 else 0) = ts.countP p + if p u then 1 else 0 := by
  obtain ⟨hlt, rfl⟩ := List.getElem?_eq_some_iff.mp hi
  have hset : (ts.set i u)[i]? = some u := List.getElem?_set_self hlt
  rw [countP_eraseIdx hset, countP_eraseIdx hi, List.eraseIdx_set_eq]
  omega

theorem mem_eraseIdx {α : Type} [DecidableEq α] {ts : List α} {i : ℕ} {t u : α}
    (hi : ts[i]? = some t) (hne : t ≠ u) (hmem : u ∈ ts) : u ∈ ts.eraseIdx i := by
  have hcount := countP_eraseIdx hi (· == u)
  simp only [beq_iff_eq, hne, if_false, Nat.add_zero] at hcount
  have hpos : 0 < ts.countP (· == u) := List.countP_pos_iff.mpr ⟨u, hmem, beq_self_eq_true u⟩
  rw [hcount] at hpos
  obtain ⟨v, hv, heq⟩ := List.countP_pos_iff.mp hpos
  rwa [beq_iff_eq.mp heq] at hv

/-- The parties at work on the queue. -/
def Conn.pending (c : Conn) : ℕ :=
  c.tasks.count .processWriteQueue + if c.inFlight.isSome then 1 else 0

theorem Conn.pending_of_posted {c : Conn} {i : ℕ} (hi : c.tasks[i]? = some .processWriteQueue) :
    c.pending = (c.tasks.eraseIdx i).count .processWriteQueue + 1 +
      if c.inFlight.isSome then 1 else 0 := by
  have hcount : c.tasks.count .processWriteQueue =
      (c.tasks.eraseIdx i).count .processWriteQueue + 1 := countP_eraseIdx hi (· == .processWriteQueue)
  rw [Conn.pending, hcount]

theorem Conn.pending_of_inFlight {c : Conn} {batch : List ℕ} (hflight : c.inFlight = some batch) :
    c.pending = c.tasks.count .processWriteQueue + 1 := by
  rw [Conn.pending, hflight]
  rfl

/-- Whoever is at work on the queue is alone, and `writing` says so. -/
theorem Conn.writing_of_pending {c : Conn} (hbusy : c.pending ≤ if c.writing then 1 else 0)
    (hpos : 0 < c.pending) : c.writing = true ∧ c.pending = 1 := by
  by_cases hwriting : c.writing = true
  · rw [if_pos hwriting] at hbusy
    exact ⟨hwriting, le_antisymm hbusy hpos⟩
  · rw [if_neg hwriting] at hbusy
    exact absurd hbusy hpos.not_ge

/-- A call that will start the writing. -/
def Call.late (call : Call) : Bool :=
  match call.pc with
  | .queue _ => false
  | _ => true

/-! ## The byte count -/

section Bytes

variable {k : Kind} {c c' : Conn} {uvOk : Bool}

@[simp] theorem doClose_closed : (c.doClose k).closed = c.closed := by
  unfold Conn.doClose
  dsimp only
  split_ifs <;> rfl

theorem close_closed (onLoop : Bool) : (c.close k onLoop).closed = true := by
  unfold Conn.close
  dsimp only
  split_ifs with hclosed
  · exact hclosed
  · rfl
  · exact doClose_closed
  · rfl

theorem Flow.doClose (h : Flow c) : Flow (c.doClose k) := by
  unfold Conn.doClose
  dsimp only
  split_ifs <;> exact ⟨h.bytes, h.paused⟩

theorem Flow.close (h : Flow c) (onLoop : Bool) : Flow (c.close k onLoop) := by
  unfold Conn.close
  dsimp only
  split_ifs
  · exact h
  · exact ⟨h.bytes, h.paused⟩
  · refine Flow.doClose ?_
    exact ⟨h.bytes, h.paused⟩
  · exact ⟨h.bytes, h.paused⟩

theorem Flow.idle (h : Flow c) : Flow (c.idle k) := by
  unfold Conn.idle
  dsimp only
  split_ifs
  · cases k with
    | tcp =>
      refine Flow.close ?_ true
      exact ⟨h.bytes, h.paused⟩
    | ws =>
      refine Flow.doClose ?_
      exact ⟨h.bytes, h.paused⟩
  · exact ⟨h.bytes, h.paused⟩

theorem Flow.uvWrite (h : Flow c) (batch : List ℕ) : Flow (c.uvWrite k uvOk batch) := by
  unfold Conn.uvWrite
  split_ifs
  · exact ⟨h.bytes, h.paused⟩
  · refine Flow.close ?_ true
    exact ⟨h.bytes, h.paused⟩

theorem Flow.takeBatch (h : Flow c) : Flow (c.takeBatch k) := by
  unfold Conn.takeBatch
  constructor
  · change c.writeQueueBytes - (c.writeQueue.take k.maxBatch).sum = (c.writeQueue.drop k.maxBatch).sum
    rw [sum_drop, h.bytes]
  · intro hpaused
    simp only [Bool.and_eq_true, Bool.not_eq_true', Bool.and_eq_false_iff, decide_eq_false_iff_not,
      not_lt] at hpaused
    rcases hpaused with ⟨hpaused, hfalse | hlong⟩
    · rw [hpaused] at hfalse
      cases hfalse
    · exact hlong

/-- Dropping empty buffers keeps the count right. -/
theorem Flow.toWrite (h : Flow c) : Flow { c with writeQueue := c.toWrite k } :=
  ⟨h.bytes.trans (sum_skipEmpty _ _).symm, h.paused⟩

theorem Flow.processWriteQueue (h : Flow c) : Flow (c.processWriteQueue k uvOk) := by
  by_cases hopen : c.handle = .open_
  · rw [processWriteQueue_eq h hopen]
    split_ifs with hempty
    · refine Flow.idle ⟨rfl, fun hpaused => ?_⟩
      -- nothing left to write is nothing queued, and then reading is not paused
      have hzero : c.writeQueueBytes = 0 := by
        rw [h.bytes, ← sum_skipEmpty (k := k) c.writeQueue.length, ← Conn.toWrite, hempty,
          List.sum_nil]
      have hlong := h.paused hpaused
      rw [hzero] at hlong
      exact hlong
    · exact (Flow.takeBatch h.toWrite).uvWrite _
  · rw [processWriteQueue_closed hopen]
    split_ifs
    · exact ⟨h.bytes, h.paused⟩
    · exact h

theorem Flow.triggerWrite (h : Flow c) (onLoop : Bool) : Flow (c.triggerWrite k uvOk onLoop) := by
  unfold Conn.triggerWrite
  dsimp only
  split_ifs
  · exact h
  · refine Flow.processWriteQueue ?_
    exact ⟨h.bytes, h.paused⟩
  · exact ⟨h.bytes, h.paused⟩

theorem Flow.readStop (h : Flow c) : Flow c.readStop := ⟨h.bytes, h.paused⟩

theorem Flow.stopReading (h : Flow c) (onLoop : Bool) : Flow (c.stopReading k onLoop) := by
  unfold Conn.stopReading
  split_ifs
  · exact h
  · exact h.readStop
  · exact ⟨h.bytes, h.paused⟩

theorem Flow.queue (h : Flow c) (buffers : List ℕ) : Flow (c.queue buffers).1 := by
  unfold Conn.queue
  constructor
  · change c.writeQueueBytes + buffers.sum = (c.writeQueue ++ buffers).sum
    rw [List.sum_append, h.bytes]
  · intro hpaused
    change writeResumeThreshold ≤ c.writeQueueBytes + buffers.sum
    simp only [Bool.or_eq_true, Bool.and_eq_true, decide_eq_true_eq] at hpaused
    rcases hpaused with hold | ⟨hlong, -⟩
    · exact (h.paused hold).trans (Nat.le_add_right _ _)
    · have hbounds : writeResumeThreshold ≤ maxWriteQueueBytes := by decide
      omega

theorem Flow.callStep (h : Flow c) (i : ℕ) (call : Call) : Flow (c.callStep k uvOk i call) := by
  unfold Conn.callStep
  cases call.pc with
  | queue buffers =>
    dsimp only
    split_ifs
    · exact ⟨h.bytes, h.paused⟩
    · have hq := h.queue buffers
      exact ⟨hq.bytes, hq.paused⟩
    · have hq := h.queue buffers
      exact ⟨hq.bytes, hq.paused⟩
  | pause =>
    refine Flow.stopReading ?_ call.onLoop
    exact ⟨h.bytes, h.paused⟩
  | trigger =>
    refine Flow.triggerWrite ?_ call.onLoop
    exact ⟨h.bytes, h.paused⟩

theorem Flow.queueFrame (h : Flow c) (frame : ℕ) : Flow (c.queueFrame k uvOk frame) := by
  unfold Conn.queueFrame
  refine Flow.triggerWrite ?_ true
  split_ifs
  · exact (h.queue [frame]).readStop
  · exact h.queue [frame]

theorem Flow.sendCloseAndDrain (h : Flow c) (frame : ℕ) :
    Flow (c.sendCloseAndDrain k uvOk frame) := by
  have hq : Flow (c.queueFrame k uvOk frame) := h.queueFrame frame
  unfold Conn.sendCloseAndDrain
  dsimp only
  split_ifs
  · exact h
  · exact h.close true
  · exact ⟨hq.bytes, hq.paused⟩
  · refine Flow.doClose ?_
    exact ⟨hq.bytes, hq.paused⟩

theorem Flow.step (h : Flow c) {e : Event} (hstep : Step k c e c') : Flow c' := by
  have hcalls : ∀ calls, Flow { c with calls } := fun _ => ⟨h.bytes, h.paused⟩
  have htasks : ∀ tasks, Flow { c with tasks } := fun _ => ⟨h.bytes, h.paused⟩
  have hflown : Flow { c with inFlight := none } := ⟨h.bytes, h.paused⟩
  cases hstep with
  | send onLoop buffers =>
    unfold Conn.send
    split_ifs
    · exact h
    · exact hcalls _
  | closeAfterWrite onLoop =>
    unfold Conn.doCloseAfterWrite
    split_ifs
    · exact h
    · exact ⟨h.bytes, h.paused⟩
  | call hi uvOk => exact h.callStep _ _
  | close onLoop => exact h.close onLoop
  | sendCloseAndDrain hk frame uvOk => exact h.sendCloseAndDrain frame
  | readError => exact h.close true
  | process hi uvOk => exact (htasks _).processWriteQueue
  | doClose hi uvOk => exact (htasks _).doClose
  | readStop hi uvOk => exact (htasks _).readStop
  | written hflight hopen uvOk => exact hflown.processWriteQueue
  | writeFailed hflight uvOk => exact hflown.close true
  | closeDone hclosing hflight => exact ⟨h.bytes, h.paused⟩

end Bytes

theorem flow_init : Flow {} := ⟨rfl, nofun⟩

/-- One byte is being written. -/
def oneByte : List Event :=
  [.send false [1], .call 0 true, .call 0 true, .task 0 true]

/-! ## Calls that run through -/

/-- A task of the coarse machine. -/
def ofTask : Tcp.Task → Task
  | .processWriteQueue => .processWriteQueue
  | .doClose => .doClose

/-- The connection of the coarse machine, whose calls are one step, by its sizes. -/
def ofTcp (c : Tcp.Conn) (reading : Bool) : Conn where
  handle := c.handle
  closed := c.closed
  closing := c.closing
  closeAfterWrite := c.closeAfterWrite
  writing := c.writing
  readPaused := c.readPaused
  reading := reading
  writeQueue := c.writeQueue.map List.length
  writeQueueBytes := c.writeQueueBytes
  inFlight := c.inFlight.map (·.map List.length)
  tasks := c.tasks.map ofTask
  closes := c.closes

section Coarse

variable (c : Tcp.Conn) (reading : Bool) (uvOk onLoop : Bool)

theorem ofTcp_doClose : (ofTcp c reading).doClose .tcp = ofTcp c.doClose reading := by
  unfold Conn.doClose Tcp.Conn.doClose ofTcp
  simp only [reduceCtorEq, if_false]
  split_ifs <;> rfl

theorem ofTcp_close : (ofTcp c reading).close .tcp onLoop = ofTcp (c.close onLoop) reading := by
  have hclose := ofTcp_doClose { c with closed := true, closing := true, keepAlive := true } reading
  unfold Conn.close Tcp.Conn.close
  by_cases hclosed : c.closed = true
  · rw [if_pos hclosed]
    exact if_pos hclosed
  by_cases hclosing : c.closing = true
  · rw [if_neg hclosed, if_pos hclosing]
    exact (if_neg hclosed).trans (if_pos hclosing)
  rw [if_neg hclosed, if_neg hclosing]
  refine (if_neg hclosed).trans ((if_neg hclosing).trans ?_)
  cases onLoop with
  | true => exact hclose
  | false =>
    simp only [ofTcp, List.map_append, Bool.false_eq_true, if_false]
    rfl

theorem ofTcp_processWriteQueue : ∃ reading',
    (ofTcp c reading).processWriteQueue .tcp uvOk = ofTcp (c.processWriteQueue uvOk) reading' := by
  have hbatch : ((c.writeQueue.map List.length).take Kind.tcp.maxBatch) =
      (c.writeQueue.take Tcp.maxBatch).map List.length := List.map_take.symm
  unfold Conn.processWriteQueue processLoop Tcp.Conn.processWriteQueue
  simp only [reduceCtorEq, false_and, if_false]
  change ∃ reading', (if c.handle ≠ .open_ then ofTcp c reading else _) = _
  by_cases hopen : c.handle ≠ .open_
  · rw [if_pos hopen, if_pos hopen]
    exact ⟨reading, rfl⟩
  rw [if_neg hopen, if_neg hopen]
  change ∃ reading', (if (c.writeQueue.map List.length).take Kind.tcp.maxBatch = [] then _ else _) = _
  by_cases hempty : c.writeQueue.take Tcp.maxBatch = []
  · rw [if_pos (by rw [hbatch, hempty]; rfl), if_pos hempty]
    refine ⟨reading, ?_⟩
    unfold Conn.idle
    dsimp only [ofTcp]
    split_ifs
    · exact ofTcp_close { c with writing := false, closeAfterWrite := false } reading true
    · rfl
  · rw [if_neg (by rw [hbatch, List.map_eq_nil_iff]; exact hempty), if_neg hempty]
    have htake : (ofTcp c reading).takeBatch .tcp = ofTcp
        { c with
          writeQueue := c.writeQueue.drop Tcp.maxBatch
          writeQueueBytes := c.writeQueueBytes - Tcp.size (c.writeQueue.take Tcp.maxBatch)
          readPaused := c.readPaused && !decide
            (c.writeQueueBytes - Tcp.size (c.writeQueue.take Tcp.maxBatch) < writeResumeThreshold) }
        (reading || (c.readPaused && decide
          (c.writeQueueBytes - Tcp.size (c.writeQueue.take Tcp.maxBatch) < writeResumeThreshold))) := by
      unfold Conn.takeBatch
      dsimp only [ofTcp]
      rw [hbatch, List.map_drop]
      have hpaused : ∀ p b : Bool, (p && !(p && b)) = (p && !b) := by decide
      simp only [hpaused]
      rfl
    generalize (reading || (c.readPaused && decide
      (c.writeQueueBytes - Tcp.size (c.writeQueue.take Tcp.maxBatch) < writeResumeThreshold))) =
        reading' at htake
    refine ⟨reading', ?_⟩
    rw [htake]
    unfold Conn.uvWrite
    cases uvOk with
    | true =>
      rw [if_pos rfl, if_pos rfl]
      rw [show (ofTcp c reading).writeQueue.take Kind.tcp.maxBatch = _ from hbatch]
      rfl
    | false =>
      rw [if_neg Bool.false_ne_true, if_neg Bool.false_ne_true]
      exact ofTcp_close { c with
        writeQueue := c.writeQueue.drop Tcp.maxBatch
        writeQueueBytes := c.writeQueueBytes - Tcp.size (c.writeQueue.take Tcp.maxBatch)
        readPaused := c.readPaused && !decide
          (c.writeQueueBytes - Tcp.size (c.writeQueue.take Tcp.maxBatch) < writeResumeThreshold)
        writing := false, failed := true } _ true

theorem ofTcp_triggerWrite : ∃ reading',
    (ofTcp c reading).triggerWrite .tcp uvOk onLoop = ofTcp (c.triggerWrite onLoop uvOk) reading' := by
  unfold Conn.triggerWrite Tcp.Conn.triggerWrite
  by_cases hwriting : c.writing = true
  · rw [if_pos hwriting]
    exact ⟨reading, if_pos hwriting⟩
  · rw [if_neg hwriting]
    obtain ⟨reading', hprocess⟩ := ofTcp_processWriteQueue { c with writing := true } reading uvOk
    cases onLoop with
    | true => exact ⟨reading', (if_neg hwriting).trans hprocess⟩
    | false =>
      refine ⟨reading, (if_neg hwriting).trans ?_⟩
      simp only [ofTcp, List.map_append, Bool.false_eq_true, if_false]
      rfl

/-- The last step of a call. -/
theorem run_trigger : ∃ reading',
    run (next .tcp) { ofTcp c reading with calls := [⟨onLoop, .trigger⟩] } [.call 0 uvOk] =
      some (ofTcp (c.triggerWrite onLoop uvOk) reading') := by
  obtain ⟨reading', htrigger⟩ := ofTcp_triggerWrite c reading uvOk onLoop
  exact ⟨reading', run_cons_eq_some.mpr ⟨_, rfl, congrArg some htrigger⟩⟩

/-- `SendBatch`, from the check to the end. -/
theorem run_sendBatch (buffers : List Bytes) : ∃ es reading',
    run (next .tcp) (ofTcp c reading) es = some (ofTcp (c.sendBatch onLoop uvOk buffers) reading') := by
  have hsend : ∀ d : Conn, (ofTcp c reading).send onLoop (buffers.map List.length) = d →
      next .tcp (ofTcp c reading) (.send onLoop (buffers.map List.length)) = some d := by
    rintro d rfl
    exact if_neg (by simp [Conn.loopFree, ofTcp])
  unfold Tcp.Conn.sendBatch
  by_cases hrefused : (c.closed || c.closing || c.closeAfterWrite || decide (c.handle = .gone) ||
      buffers.isEmpty) = true
  · rw [if_pos hrefused]
    refine ⟨[.send onLoop (buffers.map List.length)], reading, run_cons_eq_some.mpr ⟨_, ?_, rfl⟩⟩
    refine hsend _ (if_pos ?_)
    rwa [List.isEmpty_map]
  rw [if_neg hrefused]
  dsimp only
  generalize hq : { c with
      writeQueue := c.writeQueue ++ buffers
      writeQueueBytes := c.writeQueueBytes + Tcp.size buffers
      readPaused := c.readPaused || decide (maxWriteQueueBytes < c.writeQueueBytes + Tcp.size buffers)
      sent := c.sent ++ buffers } = q
  have hgone : c.handle ≠ .gone := by
    intro hg
    simp [hg] at hrefused
  -- the call is accepted, and its buffers are queued
  have haccept : next .tcp (ofTcp c reading) (.send onLoop (buffers.map List.length)) =
      some { ofTcp c reading with calls := [⟨onLoop, .queue (buffers.map List.length)⟩] } := by
    refine hsend _ (if_neg ?_)
    rwa [List.isEmpty_map]
  have hqueue : ((ofTcp c reading).queue (buffers.map List.length)).1 = ofTcp q reading := by
    rw [← hq]
    unfold Conn.queue
    dsimp only [ofTcp]
    rw [List.map_append]
    have hpaused : ∀ p b : Bool, (p || (b && !p)) = (p || b) := by decide
    simp only [hpaused]
    rfl
  have hlock : ∀ pc, (if ((ofTcp c reading).queue (buffers.map List.length)).2 then Pc.pause
      else .trigger) = pc → next .tcp
        { ofTcp c reading with calls := [⟨onLoop, .queue (buffers.map List.length)⟩] } (.call 0 uvOk) =
          some { ofTcp q reading with calls := [⟨onLoop, pc⟩] } := by
    rintro pc rfl
    rw [← hqueue]
    rfl
  cases hpause : ((ofTcp c reading).queue (buffers.map List.length)).2 with
  | false =>
    obtain ⟨reading', htrigger⟩ := run_trigger q reading uvOk onLoop
    refine ⟨[.send onLoop (buffers.map List.length), .call 0 uvOk, .call 0 uvOk], reading', ?_⟩
    refine run_cons_eq_some.mpr ⟨_, haccept, run_cons_eq_some.mpr ⟨_, hlock .trigger ?_, htrigger⟩⟩
    rw [hpause]
    rfl
  | true =>
    obtain ⟨reading', htrigger⟩ := run_trigger q false uvOk onLoop
    refine ⟨[.send onLoop (buffers.map List.length), .call 0 uvOk, .call 0 uvOk, .call 0 uvOk],
      reading', ?_⟩
    refine run_cons_eq_some.mpr ⟨_, haccept, run_cons_eq_some.mpr ⟨_, hlock .pause ?_,
      run_cons_eq_some.mpr ⟨_, ?_, htrigger⟩⟩⟩
    · rw [hpause]
      rfl
    · have hgone' : (ofTcp q reading).handle ≠ .gone := by
        rw [← hq]
        exact hgone
      change some (Conn.stopReading .tcp
        { ofTcp q reading with calls := [⟨onLoop, .trigger⟩] } onLoop) = _
      unfold Conn.stopReading Conn.readStop
      rw [if_neg hgone', if_pos (.inl rfl), if_neg hgone']
      rfl

/-- A step of the coarse machine is a run of this one, in which the call runs through. -/
theorem run_ofTcp {c c' : Tcp.Conn} {e : Tcp.Event} (hstep : Tcp.next c e = some c') :
    ∃ es reading', run (next .tcp) (ofTcp c reading) es = some (ofTcp c' reading') := by
  have hfree : (ofTcp c reading).loopFree = true := rfl
  have hloop : ∀ e : Event, ¬ (e.byLoop && !(ofTcp c reading).loopFree) = true := by
    intro e
    rw [hfree, Bool.not_true, Bool.and_false]
    exact Bool.false_ne_true
  have hone : ∀ (e : Event) (d : Conn) reading', next .tcp (ofTcp c reading) e = some d →
      d = ofTcp c' reading' →
      ∃ es reading', run (next .tcp) (ofTcp c reading) es = some (ofTcp c' reading') := by
    rintro e d reading' hnext rfl
    exact ⟨[e], reading', run_cons_eq_some.mpr ⟨_, hnext, rfl⟩⟩
  cases e with
  | send onLoop uvOk data =>
    cases hstep
    exact run_sendBatch c reading uvOk onLoop [data]
  | sendBatch onLoop uvOk buffers =>
    cases hstep
    exact run_sendBatch c reading uvOk onLoop buffers
  | closeAfterWrite onLoop uvOk =>
    cases hstep
    have hmark : ∀ d, (ofTcp c reading).doCloseAfterWrite onLoop = d →
        next .tcp (ofTcp c reading) (.closeAfterWrite onLoop) = some d := by
      rintro d rfl
      exact if_neg (hloop _)
    unfold Tcp.Conn.doCloseAfterWrite at hone ⊢
    by_cases hrefused : (c.closed || c.closing || c.closeAfterWrite || decide (c.handle = .gone)) = true
    · rw [if_pos hrefused] at hone ⊢
      exact hone (.closeAfterWrite onLoop) _ reading (hmark _ (if_pos hrefused)) rfl
    · rw [if_neg hrefused]
      obtain ⟨reading', htrigger⟩ := run_trigger
        { c with keepAlive := true, closed := true, closeAfterWrite := true } reading uvOk onLoop
      exact ⟨[.closeAfterWrite onLoop, .call 0 uvOk], reading',
        run_cons_eq_some.mpr ⟨_, hmark _ (if_neg hrefused), htrigger⟩⟩
  | close onLoop =>
    cases hstep
    exact hone (.close onLoop) _ reading (if_neg (hloop _)) (ofTcp_close c reading onLoop)
  | task i uvOk =>
    have hrest : ∀ t, c.tasks[i]? = some t → (ofTcp c reading).tasks[i]? = some (ofTask t) ∧
        { ofTcp c reading with tasks := (ofTcp c reading).tasks.eraseIdx i } =
          ofTcp { c with tasks := c.tasks.eraseIdx i } reading := by
      intro t hi
      unfold ofTcp
      rw [List.getElem?_map, hi, List.eraseIdx_map]
      exact ⟨rfl, rfl⟩
    simp only [Tcp.next] at hstep
    split at hstep
    · rename_i hi
      cases hstep
      obtain ⟨htask, herase⟩ := hrest _ hi
      obtain ⟨reading', hprocess⟩ :=
        ofTcp_processWriteQueue { c with tasks := c.tasks.eraseIdx i } reading uvOk
      refine hone (.task i uvOk) _ reading' ((if_neg (hloop _)).trans ?_) hprocess
      simp only [htask, Option.map_some, ofTask, herase]
    · rename_i hi
      cases hstep
      obtain ⟨htask, herase⟩ := hrest _ hi
      refine hone (.task i uvOk) _ reading ((if_neg (hloop _)).trans ?_)
        (ofTcp_doClose { c with tasks := c.tasks.eraseIdx i } reading)
      simp only [htask, Option.map_some, ofTask, herase]
    · cases hstep
  | writeDone ok uvOk =>
    simp only [Tcp.next] at hstep
    split at hstep
    · rename_i batch hflight
      split_ifs at hstep with hcancelled
      cases hstep
      have hdone : ¬ ((ofTcp c reading).inFlight.isNone ∨ (ok = true ∧ (ofTcp c reading).handle ≠ .open_)) := by
        rintro (hnone | hclosed)
        · unfold ofTcp at hnone
          rw [hflight] at hnone
          cases hnone
        · exact hcancelled hclosed
      have hnext : next .tcp (ofTcp c reading) (.writeDone ok uvOk) =
          some ((ofTcp c reading).onWriteDone .tcp uvOk ok) :=
        (if_neg (hloop _)).trans (if_neg hdone)
      cases ok with
      | true =>
        obtain ⟨reading', hprocess⟩ := ofTcp_processWriteQueue
          { c with inFlight := none, written := c.written ++ batch } reading uvOk
        exact hone _ _ reading' hnext hprocess
      | false =>
        exact hone _ _ reading hnext (ofTcp_close { c with inFlight := none, failed := true } reading true)
    · cases hstep
  | closeDone =>
    simp only [Tcp.next] at hstep
    split_ifs at hstep with hclosing
    cases hstep
    refine hone .closeDone _ reading ((if_neg (hloop _)).trans (if_pos ⟨hclosing.1, ?_⟩)) rfl
    unfold ofTcp
    rw [hclosing.2]
    rfl

/-- What the coarse machine comes to, this one comes to. -/
theorem run_of_coarse {c c' : Tcp.Conn} {es : List Tcp.Event}
    (hrun : run Tcp.next c es = some c') :
    ∃ es' reading', run (next .tcp) (ofTcp c reading) es' = some (ofTcp c' reading') := by
  induction es generalizing c reading with
  | nil =>
    cases hrun
    exact ⟨[], reading, rfl⟩
  | cons e es ih =>
    obtain ⟨d, hstep, hrest⟩ := run_cons_eq_some.mp hrun
    obtain ⟨es₁, reading₁, hfirst⟩ := run_ofTcp reading hstep
    obtain ⟨es₂, reading₂, hlater⟩ := ih reading₁ hrest
    exact ⟨es₁ ++ es₂, reading₂, run_append_eq_some.mpr ⟨_, hfirst, hlater⟩⟩

/-- A buffer is sent and the connection closed before it is written. -/
theorem run_of_coarse_closed : ∃ c es' reading',
    run Tcp.next Tcp.init [.send false true [1], .task 0 true, .close true] = some c ∧
      run (next .tcp) (ofTcp Tcp.init true) es' = some (ofTcp c reading') := by
  have hrun : run Tcp.next Tcp.init [.send false true [1], .task 0 true, .close true] = some _ := rfl
  obtain ⟨es', reading', h⟩ := run_of_coarse true hrun
  exact ⟨_, es', reading', hrun, h⟩

end Coarse
end Gmaker.Net.Async
