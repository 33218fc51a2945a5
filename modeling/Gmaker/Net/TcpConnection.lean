import Gmaker.Lib.Machine
import Gmaker.Net.Packet

/-!
# Gmaker.Net.TcpConnection — the write side of `AsyncTCPConnection`

A connection queues buffers, hands them to `uv_write` in batches from the loop
thread, one batch at a time, and is closed by `Close` (now) or `CloseAfterWrite`
(once the queue is empty). A call from the loop thread runs what it posts at
once, a call from elsewhere leaves a task behind; tasks may run in any order.

In every run `uv_close` and the close callback run at most once, there is at most
one write under way, and unless a write fails the buffers are written in the order
in which they were queued (`inv_run`). But `CloseAfterWrite` on an open connection
never closes it (`closesAfterWrite_iff`): it marks the connection closed, and
`Close`, which the last completion calls, returns on that mark.
-/

namespace Gmaker.Net.Tcp

open Gmaker.Lib

/-! ## State -/

/-- `MAX_WRITE_QUEUE_BYTES`: 16 MB. -/
def maxWriteQueueBytes : ℕ := 16 * 1024 * 1024

/-- `WRITE_RESUME_THRESHOLD`: 8 MB. -/
def writeResumeThreshold : ℕ := 8 * 1024 * 1024

/-- `MAX_BATCH` of `ProcessWriteQueue`. -/
def maxBatch : ℕ := 64

/-- What is posted to the loop. -/
inductive Task where
  | processWriteQueue
  | doClose
deriving DecidableEq

/-- The `uv_tcp_t`: open, between `uv_close` and its callback, or deleted. -/
inductive Handle where
  | open_
  | closing
  | gone
deriving DecidableEq

/-- A connected connection. `sent`, `written`, `closes` and `onCloses` record the
buffers accepted by `Send`, the buffers whose write completed, the calls of
`uv_close` and of the close callback; `failed` whether a write has failed. -/
structure Conn where
  handle : Handle := .open_
  closed : Bool := false
  closing : Bool := false
  closeAfterWrite : Bool := false
  writing : Bool := false
  readPaused : Bool := false
  writeQueue : List Bytes := []
  writeQueueBytes : ℕ := 0
  /-- `write_req_->buffers` while `uv_write` has them -/
  inFlight : Option (List Bytes) := none
  keepAlive : Bool := false
  tasks : List Task := []
  sent : List Bytes := []
  written : List Bytes := []
  closes : ℕ := 0
  onCloses : ℕ := 0
  failed : Bool := false
deriving DecidableEq

/-! ## The operations

`onLoop` says whether the caller is on the loop thread, `uvOk` what `uv_write`
returns if it gets called. -/

/-- The sum of the sizes. -/
def size (buffers : List Bytes) : ℕ := (buffers.map List.length).sum

/-- `DoClose`. -/
def Conn.doClose (c : Conn) : Conn :=
  if c.handle = .open_ then { c with handle := .closing, closes := c.closes + 1 } else c

/-- `Close`. -/
def Conn.close (c : Conn) (onLoop : Bool) : Conn :=
  if c.closed then c
  else
    let c := { c with closed := true }
    if c.closing then c
    else
      let c := { c with closing := true, keepAlive := true }
      if onLoop then c.doClose else { c with tasks := c.tasks ++ [.doClose] }

/-- `ProcessWriteQueue`. -/
def Conn.processWriteQueue (c : Conn) (uvOk : Bool) : Conn :=
  if c.handle ≠ .open_ then c
  else
    let batch := c.writeQueue.take maxBatch
    if batch = [] then
      let c := { c with writing := false }
      if c.closeAfterWrite then { c with closeAfterWrite := false }.close true else c
    else
      let bytes := c.writeQueueBytes - size batch
      let c := { c with
        writeQueue := c.writeQueue.drop maxBatch
        writeQueueBytes := bytes
        readPaused := c.readPaused && !decide (bytes < writeResumeThreshold) }
      if uvOk then { c with inFlight := some batch }
      else { c with writing := false, failed := true }.close true

/-- `if (writing_.compare_exchange_strong(false, true)) loop_->Post(..)`. -/
def Conn.triggerWrite (c : Conn) (onLoop uvOk : Bool) : Conn :=
  if c.writing then c
  else
    let c := { c with writing := true }
    if onLoop then c.processWriteQueue uvOk
    else { c with tasks := c.tasks ++ [.processWriteQueue] }

/-- `SendBatch`; the list is not empty. -/
def Conn.sendBatch (c : Conn) (onLoop uvOk : Bool) (buffers : List Bytes) : Conn :=
  if c.closed || c.closing || c.closeAfterWrite || c.handle = .gone || buffers.isEmpty then c
  else
    let bytes := c.writeQueueBytes + size buffers
    { c with
      writeQueue := c.writeQueue ++ buffers
      writeQueueBytes := bytes
      readPaused := c.readPaused || decide (maxWriteQueueBytes < bytes)
      sent := c.sent ++ buffers }.triggerWrite onLoop uvOk

/-- `Send`. -/
def Conn.send (c : Conn) (onLoop uvOk : Bool) (data : Bytes) : Conn :=
  c.sendBatch onLoop uvOk [data]

/-- `CloseAfterWrite`. -/
def Conn.doCloseAfterWrite (c : Conn) (onLoop uvOk : Bool) : Conn :=
  if c.closed || c.closing || c.closeAfterWrite || c.handle = .gone then c
  else { c with keepAlive := true, closed := true, closeAfterWrite := true }.triggerWrite onLoop uvOk

/-- `OnWriteDone` with `status >= 0` or not. -/
def Conn.onWriteDone (c : Conn) (batch : List Bytes) (ok uvOk : Bool) : Conn :=
  let c := { c with inFlight := none }
  if ok then { c with written := c.written ++ batch }.processWriteQueue uvOk
  else { c with failed := true }.close true

/-- What can happen to a connection. -/
inductive Event where
  | send (onLoop uvOk : Bool) (data : Bytes)
  | sendBatch (onLoop uvOk : Bool) (buffers : List Bytes)
  | closeAfterWrite (onLoop uvOk : Bool)
  | close (onLoop : Bool)
  /-- the loop runs the `i`-th of the posted tasks -/
  | task (i : ℕ) (uvOk : Bool)
  | writeDone (ok uvOk : Bool)
  /-- libuv reports the end of `uv_close`, all writes having been reported before -/
  | closeDone
deriving DecidableEq

def next (c : Conn) : Event → Option Conn
  | .send onLoop uvOk data => some (c.send onLoop uvOk data)
  | .sendBatch onLoop uvOk buffers => some (c.sendBatch onLoop uvOk buffers)
  | .closeAfterWrite onLoop uvOk => some (c.doCloseAfterWrite onLoop uvOk)
  | .close onLoop => some (c.close onLoop)
  | .task i uvOk =>
    match c.tasks[i]? with
    | some .processWriteQueue =>
      some ({ c with tasks := c.tasks.eraseIdx i }.processWriteQueue uvOk)
    | some .doClose => some { c with tasks := c.tasks.eraseIdx i }.doClose
    | none => none
  | .writeDone ok uvOk =>
    match c.inFlight with
    | some batch =>
      -- a write that `uv_close` finds in flight is cancelled
      if ok ∧ c.handle ≠ .open_ then none else some (c.onWriteDone batch ok uvOk)
    | none => none
  | .closeDone =>
    if c.handle = .closing ∧ c.inFlight = none then
      some { c with handle := .gone, keepAlive := false, onCloses := c.onCloses + 1 }
    else none

/-- A freshly accepted connection. -/
def init : Conn := {}

/-! ## What holds in every run -/

/-- The tasks and writes that will go on with the queue. -/
def Conn.pending (c : Conn) : ℕ :=
  c.tasks.count .processWriteQueue + if c.inFlight.isSome then 1 else 0

/-- Whoever is at work on the queue is alone, and `writing` says so. -/
theorem Conn.writing_of_pending {c : Conn} (hbusy : c.pending ≤ if c.writing then 1 else 0)
    (hpos : 0 < c.pending) : c.writing = true ∧ c.pending = 1 := by
  by_cases hwriting : c.writing = true
  · rw [if_pos hwriting] at hbusy
    exact ⟨hwriting, le_antisymm hbusy hpos⟩
  · rw [if_neg hwriting] at hbusy
    exact absurd hbusy hpos.not_ge

/-- `uv_close` has been called exactly if the handle is not open, its callback has
run exactly if the handle is gone; at most one party is at work on the queue, and
only while `writing` says so; and the buffers pass through in order. -/
structure Inv (c : Conn) : Prop where
  closes : c.closes = if c.handle = .open_ then 0 else 1
  onCloses : c.onCloses = if c.handle = .gone then 1 else 0
  busy : c.pending ≤ if c.writing then 1 else 0
  fifo : c.failed = false → c.sent = c.written ++ c.inFlight.getD [] ++ c.writeQueue

section Invariant

variable {c c' : Conn}

theorem Inv.doClose (h : Inv c) : Inv c.doClose := by
  unfold Conn.doClose
  split_ifs with hopen
  · have hc := h.closes
    have ho := h.onCloses
    simp only [hopen, if_true, reduceCtorEq, if_false] at hc ho
    exact ⟨by simp [hc], by simp [ho], h.busy, h.fifo⟩
  · exact h

theorem Inv.close (h : Inv c) (onLoop : Bool) : Inv (c.close onLoop) := by
  unfold Conn.close
  dsimp only
  split_ifs
  · exact h
  · exact ⟨h.closes, h.onCloses, h.busy, h.fifo⟩
  · refine Inv.doClose ?_
    exact ⟨h.closes, h.onCloses, h.busy, h.fifo⟩
  · refine ⟨h.closes, h.onCloses, ?_, h.fifo⟩
    have hbusy := h.busy
    simpa [Conn.pending, List.count_append] using hbusy

/-- The party that goes on with the queue is the only one. -/
theorem Inv.processWriteQueue (h : Inv c) (hpending : c.pending = 0) (hwriting : c.writing)
    (uvOk : Bool) : Inv (c.processWriteQueue uvOk) := by
  have hidle : c.inFlight = none := by
    cases hflight : c.inFlight with
    | none => rfl
    | some batch => simp [Conn.pending, hflight] at hpending
  have htasks : c.tasks.count .processWriteQueue = 0 := by
    simpa [Conn.pending, hidle] using hpending
  unfold Conn.processWriteQueue
  dsimp only
  split_ifs
  · exact h
  · refine Inv.close ?_ true
    exact ⟨h.closes, h.onCloses, by simp [Conn.pending, hidle, htasks], h.fifo⟩
  · exact ⟨h.closes, h.onCloses, by simp [Conn.pending, hidle, htasks], h.fifo⟩
  · refine ⟨h.closes, h.onCloses, by simp [Conn.pending, htasks, hwriting], fun hok => ?_⟩
    have hfifo := h.fifo hok
    rw [hidle] at hfifo
    simpa [List.append_assoc] using hfifo
  · refine Inv.close ?_ true
    exact ⟨h.closes, h.onCloses, by simp [Conn.pending, hidle, htasks], fun hok => by cases hok⟩

theorem Inv.triggerWrite (h : Inv c) (onLoop uvOk : Bool) : Inv (c.triggerWrite onLoop uvOk) := by
  unfold Conn.triggerWrite
  dsimp only
  split_ifs with hwriting
  · exact h
  · have hpending : c.pending = 0 := by simpa [hwriting] using h.busy
    refine Inv.processWriteQueue ?_ ?_ ?_ uvOk
    · exact ⟨h.closes, h.onCloses, hpending.trans_le (Nat.zero_le _), h.fifo⟩
    · exact hpending
    · rfl
  · have hpending : c.pending = 0 := by simpa [hwriting] using h.busy
    refine ⟨h.closes, h.onCloses, ?_, h.fifo⟩
    simp only [Conn.pending, Nat.add_eq_zero_iff] at hpending
    simp [Conn.pending, List.count_append, hpending.1, hpending.2]

theorem Inv.sendBatch (h : Inv c) (onLoop uvOk : Bool) (buffers : List Bytes) :
    Inv (c.sendBatch onLoop uvOk buffers) := by
  unfold Conn.sendBatch
  dsimp only
  split_ifs
  · exact h
  · refine Inv.triggerWrite ?_ onLoop uvOk
    refine ⟨h.closes, h.onCloses, h.busy, fun hok => ?_⟩
    have hfifo := h.fifo hok
    simp [hfifo, List.append_assoc]

/-- Taking a posted task off the list. -/
theorem count_eraseIdx {ts : List Task} {i : ℕ} {t : Task} (hi : ts[i]? = some t) (u : Task) :
    ts.count u = (ts.eraseIdx i).count u + if t = u then 1 else 0 := by
  obtain ⟨hlt, rfl⟩ := List.getElem?_eq_some_iff.mp hi
  rw [← (List.getElem_cons_eraseIdx_perm hlt).count_eq u, List.count_cons]
  simp only [beq_iff_eq]

theorem Inv.next (h : Inv c) {e : Event} (hstep : next c e = some c') : Inv c' := by
  have hbusy := h.busy
  cases e with
  | send onLoop uvOk data =>
    cases hstep
    exact h.sendBatch onLoop uvOk [data]
  | sendBatch onLoop uvOk buffers =>
    cases hstep
    exact h.sendBatch onLoop uvOk buffers
  | closeAfterWrite onLoop uvOk =>
    cases hstep
    unfold Conn.doCloseAfterWrite
    split_ifs
    · exact h
    · refine Inv.triggerWrite ?_ onLoop uvOk
      exact ⟨h.closes, h.onCloses, h.busy, h.fifo⟩
  | close onLoop =>
    cases hstep
    exact h.close onLoop
  | task i uvOk =>
    simp only [Tcp.next] at hstep
    split at hstep
    · rename_i hi
      cases hstep
      have hcount := count_eraseIdx hi .processWriteQueue
      rw [if_pos rfl] at hcount
      have hwork : c.pending = (c.tasks.eraseIdx i).count .processWriteQueue + 1 +
          if c.inFlight.isSome then 1 else 0 := by
        rw [Conn.pending, hcount]
      rcases Conn.writing_of_pending hbusy (by omega) with ⟨hwriting, halone⟩
      refine Inv.processWriteQueue ?_ ?_ ?_ uvOk
      · refine ⟨h.closes, h.onCloses, ?_, h.fifo⟩
        simp only [Conn.pending, hwriting, if_true]
        omega
      · simp only [Conn.pending]
        omega
      · exact hwriting
    · rename_i hi
      cases hstep
      have hcount := count_eraseIdx hi .processWriteQueue
      refine Inv.doClose ?_
      refine ⟨h.closes, h.onCloses, ?_, h.fifo⟩
      simp only [reduceCtorEq, if_false, Nat.add_zero] at hcount
      simpa only [Conn.pending, hcount] using hbusy
    · cases hstep
  | writeDone ok uvOk =>
    simp only [Tcp.next] at hstep
    split at hstep
    · rename_i batch hflight
      split_ifs at hstep
      cases hstep
      have hwork : c.pending = c.tasks.count .processWriteQueue + 1 := by
        rw [Conn.pending, hflight]
        rfl
      rcases Conn.writing_of_pending hbusy (by omega) with ⟨hwriting, halone⟩
      have htasks : c.tasks.count .processWriteQueue = 0 := by omega
      unfold Conn.onWriteDone
      dsimp only
      split_ifs
      · refine Inv.processWriteQueue ?_ ?_ ?_ uvOk
        · refine ⟨h.closes, h.onCloses, by simp [Conn.pending, htasks], fun hok => ?_⟩
          have hfifo := h.fifo hok
          rw [hflight] at hfifo
          simpa using hfifo
        · simp [Conn.pending, htasks]
        · exact hwriting
      · refine Inv.close ?_ true
        exact ⟨h.closes, h.onCloses, by simp [Conn.pending, htasks], fun hok => by cases hok⟩
    · cases hstep
  | closeDone =>
    simp only [Tcp.next] at hstep
    split_ifs at hstep with hclosing
    cases hstep
    have hc := h.closes
    have ho := h.onCloses
    simp only [hclosing.1, reduceCtorEq, if_false] at hc ho
    exact ⟨by simp [hc], by simp [ho], h.busy, h.fifo⟩

end Invariant

theorem inv_init : Inv init := by
  constructor <;> simp [init, Conn.pending]

theorem inv_run {c d : Conn} {es : List Event} (h : Inv c) (hrun : run next c es = some d) :
    Inv d :=
  run_invariant_all (fun _ _ _ h hstep => Inv.next h hstep) h hrun

/-- In every run `uv_close` and the close callback run at most once. -/
theorem closes_at_most_once {c : Conn} {es : List Event} (hrun : run next init es = some c) :
    c.closes ≤ 1 ∧ c.onCloses ≤ c.closes := by
  have h := inv_run inv_init hrun
  rw [h.closes, h.onCloses]
  cases c.handle <;> simp

/-- A connection that is closed twice, from a thread and by the loop. -/
theorem closes_at_most_once_twice :
    ∃ c, run next init [.close false, .close true, .task 0 true, .closeDone] = some c ∧
      c.closes ≤ 1 ∧ c.onCloses ≤ c.closes :=
  ⟨_, rfl, @closes_at_most_once _ [.close false, .close true, .task 0 true, .closeDone] rfl⟩

/-- Without a failed write, what has been written is the front of what was
queued; once nothing is queued or under way, it is all of it. -/
theorem written_of_not_failed {c : Conn} {es : List Event} (hrun : run next init es = some c)
    (hok : c.failed = false) :
    c.written <+: c.sent ∧ (c.inFlight = none → c.writeQueue = [] → c.written = c.sent) := by
  have hfifo := (inv_run inv_init hrun).fifo hok
  refine ⟨⟨c.inFlight.getD [] ++ c.writeQueue, by rw [hfifo, List.append_assoc]⟩, ?_⟩
  intro hidle hempty
  rw [hfifo, hidle, hempty]
  simp

/-- Two buffers, the first of which has been written. -/
theorem written_of_not_failed_two :
    ∃ c, run next init [.send true true [1], .send true true [2], .writeDone true true] = some c ∧
      c.written = [[1]] ∧ c.written <+: c.sent ∧
      (c.inFlight = none → c.writeQueue = [] → c.written = c.sent) :=
  ⟨_, rfl, rfl, @written_of_not_failed _
    [.send true true [1], .send true true [2], .writeDone true true] rfl rfl⟩

/-! ## CloseAfterWrite

Without a call of `Close` from outside, a connection is fresh until a write fails
(and closes it) or `CloseAfterWrite` marks it. -/

/-- The events of a connection that nobody calls `Close` on. -/
def Event.unclosed : Event → Bool
  | .close _ => false
  | _ => true

/-- Open, and not marked closed. -/
structure Fresh (c : Conn) : Prop where
  handle : c.handle = .open_
  closed : c.closed = false
  closing : c.closing = false
  notMarked : c.closeAfterWrite = false
  tasks : .doClose ∉ c.tasks

/-- Closed by `Close`, which has run `DoClose`. -/
structure Shut (c : Conn) : Prop where
  handle : c.handle ≠ .open_
  closed : c.closed = true
  closing : c.closing = true
  idle : c.inFlight = none

/-- Marked closed, and open. -/
structure Marked (c : Conn) : Prop where
  handle : c.handle = .open_
  closed : c.closed = true
  closing : c.closing = false
  tasks : .doClose ∉ c.tasks

section Phases

variable {c c' : Conn}

/-- `Close` by the loop thread closes a fresh connection. -/
theorem Fresh.close (h : Fresh c) (hidle : c.inFlight = none) : Shut (c.close true) := by
  simp only [Conn.close, h.closed, h.closing, Bool.false_eq_true, if_false, if_true,
    Conn.doClose, h.handle]
  exact ⟨by simp, rfl, rfl, hidle⟩

/-- `Close` does nothing to a connection that is marked closed. -/
theorem Marked.close (h : Marked c) (onLoop : Bool) : Marked (c.close onLoop) := by
  have hsame : c.close onLoop = c := if_pos h.closed
  rwa [hsame]

theorem Fresh.processWriteQueue (h : Fresh c) (hidle : c.inFlight = none) (uvOk : Bool) :
    Fresh (c.processWriteQueue uvOk) ∨ Shut (c.processWriteQueue uvOk) := by
  unfold Conn.processWriteQueue
  dsimp only
  split_ifs with hopen hempty hmarked huv
  · exact absurd h.handle hopen
  · exact absurd (h.notMarked.symm.trans hmarked) Bool.false_ne_true
  · exact Or.inl ⟨h.handle, h.closed, h.closing, h.notMarked, h.tasks⟩
  · exact Or.inl ⟨h.handle, h.closed, h.closing, h.notMarked, h.tasks⟩
  · refine Or.inr (Fresh.close ?_ hidle)
    exact ⟨h.handle, h.closed, h.closing, h.notMarked, h.tasks⟩

/-- Whatever the queue does, a marked connection stays open: the `Close` at its
end returns at once. -/
theorem Marked.processWriteQueue (h : Marked c) (uvOk : Bool) :
    Marked (c.processWriteQueue uvOk) := by
  unfold Conn.processWriteQueue
  dsimp only
  split_ifs
  · exact h
  · refine Marked.close ?_ true
    exact ⟨h.handle, h.closed, h.closing, h.tasks⟩
  · exact ⟨h.handle, h.closed, h.closing, h.tasks⟩
  · exact ⟨h.handle, h.closed, h.closing, h.tasks⟩
  · refine Marked.close ?_ true
    exact ⟨h.handle, h.closed, h.closing, h.tasks⟩

theorem Fresh.triggerWrite (h : Fresh c) (hinv : Inv c) (onLoop uvOk : Bool) :
    Fresh (c.triggerWrite onLoop uvOk) ∨ Shut (c.triggerWrite onLoop uvOk) := by
  unfold Conn.triggerWrite
  dsimp only
  split_ifs with hwriting
  · exact Or.inl h
  · have hidle : c.inFlight = none := by
      have hbusy := hinv.busy
      rw [if_neg hwriting] at hbusy
      cases hflight : c.inFlight with
      | none => rfl
      | some batch => simp [Conn.pending, hflight] at hbusy
    refine Fresh.processWriteQueue ?_ ?_ uvOk
    · exact ⟨h.handle, h.closed, h.closing, h.notMarked, h.tasks⟩
    · exact hidle
  · exact Or.inl ⟨h.handle, h.closed, h.closing, h.notMarked, by simpa using h.tasks⟩

theorem Marked.triggerWrite (h : Marked c) (onLoop uvOk : Bool) :
    Marked (c.triggerWrite onLoop uvOk) := by
  unfold Conn.triggerWrite
  dsimp only
  split_ifs
  · exact h
  · refine Marked.processWriteQueue ?_ uvOk
    exact ⟨h.handle, h.closed, h.closing, h.tasks⟩
  · exact ⟨h.handle, h.closed, h.closing, by simpa using h.tasks⟩

/-- `CloseAfterWrite` marks a fresh connection, whatever is queued. -/
theorem Fresh.closeAfterWrite (h : Fresh c) (onLoop uvOk : Bool) :
    Marked (c.doCloseAfterWrite onLoop uvOk) := by
  have hopen : (c.closed || c.closing || c.closeAfterWrite || c.handle = .gone) = false := by
    simp [h.closed, h.closing, h.notMarked, h.handle]
  rw [Conn.doCloseAfterWrite, if_neg (by simp [hopen])]
  refine Marked.triggerWrite ?_ onLoop uvOk
  exact ⟨h.handle, rfl, h.closing, h.tasks⟩

/-- A fresh connection stays fresh until a write fails or it is marked. -/
theorem Fresh.next (h : Fresh c) (hinv : Inv c) {e : Event} (hun : e.unclosed)
    (hstep : next c e = some c') :
    Fresh c' ∨ Shut c' ∨ (∃ onLoop uvOk, e = .closeAfterWrite onLoop uvOk) := by
  have hsend : ∀ onLoop uvOk buffers, Fresh (c.sendBatch onLoop uvOk buffers) ∨
      Shut (c.sendBatch onLoop uvOk buffers) := by
    intro onLoop uvOk buffers
    unfold Conn.sendBatch
    dsimp only
    split_ifs
    · exact Or.inl h
    · refine Fresh.triggerWrite ?_ ?_ onLoop uvOk
      · exact ⟨h.handle, h.closed, h.closing, h.notMarked, h.tasks⟩
      · refine ⟨hinv.closes, hinv.onCloses, hinv.busy, fun hok => ?_⟩
        have hfifo := hinv.fifo hok
        simp [hfifo, List.append_assoc]
  cases e with
  | send onLoop uvOk data =>
    cases hstep
    exact (hsend onLoop uvOk [data]).imp_right Or.inl
  | sendBatch onLoop uvOk buffers =>
    cases hstep
    exact (hsend onLoop uvOk buffers).imp_right Or.inl
  | closeAfterWrite onLoop uvOk => exact Or.inr (Or.inr ⟨onLoop, uvOk, rfl⟩)
  | close onLoop => cases hun
  | task i uvOk =>
    simp only [Tcp.next] at hstep
    split at hstep
    · rename_i hi
      cases hstep
      have hidle : c.inFlight = none := by
        have hbusy := hinv.busy
        rw [Conn.pending, count_eraseIdx hi .processWriteQueue, if_pos rfl] at hbusy
        cases hflight : c.inFlight with
        | none => rfl
        | some batch =>
          simp only [hflight, Option.isSome_some, if_true] at hbusy
          split_ifs at hbusy <;> omega
      refine (Fresh.processWriteQueue ?_ ?_ uvOk).imp_right Or.inl
      · exact ⟨h.handle, h.closed, h.closing, h.notMarked,
          fun hmem => h.tasks (List.mem_of_mem_eraseIdx hmem)⟩
      · exact hidle
    · rename_i hi
      exact absurd (List.mem_of_getElem? hi) h.tasks
    · cases hstep
  | writeDone ok uvOk =>
    simp only [Tcp.next] at hstep
    split at hstep
    · split_ifs at hstep
      cases hstep
      unfold Conn.onWriteDone
      dsimp only
      split_ifs
      · refine (Fresh.processWriteQueue ?_ rfl uvOk).imp_right Or.inl
        exact ⟨h.handle, h.closed, h.closing, h.notMarked, h.tasks⟩
      · refine Or.inr (Or.inl (Fresh.close ?_ rfl))
        exact ⟨h.handle, h.closed, h.closing, h.notMarked, h.tasks⟩
    · cases hstep
  | closeDone =>
    simp [Tcp.next, h.handle] at hstep

/-- A marked connection stays marked, and takes no more buffers. -/
theorem Marked.next (h : Marked c) {e : Event} (hstep : next c e = some c') : Marked c' := by
  cases e with
  | send onLoop uvOk data =>
    cases hstep
    simpa [Conn.send, Conn.sendBatch, h.closed] using h
  | sendBatch onLoop uvOk buffers =>
    cases hstep
    simpa [Conn.sendBatch, h.closed] using h
  | closeAfterWrite onLoop uvOk =>
    cases hstep
    simpa [Conn.doCloseAfterWrite, h.closed] using h
  | close onLoop =>
    cases hstep
    exact h.close onLoop
  | task i uvOk =>
    simp only [Tcp.next] at hstep
    split at hstep
    · cases hstep
      refine Marked.processWriteQueue ?_ uvOk
      exact ⟨h.handle, h.closed, h.closing, fun hmem => h.tasks (List.mem_of_mem_eraseIdx hmem)⟩
    · rename_i hi
      exact absurd (List.mem_of_getElem? hi) h.tasks
    · cases hstep
  | writeDone ok uvOk =>
    simp only [Tcp.next] at hstep
    split at hstep
    · split_ifs at hstep
      cases hstep
      unfold Conn.onWriteDone
      dsimp only
      split_ifs
      · refine Marked.processWriteQueue ?_ uvOk
        exact ⟨h.handle, h.closed, h.closing, h.tasks⟩
      · refine Marked.close ?_ true
        exact ⟨h.handle, h.closed, h.closing, h.tasks⟩
    · cases hstep
  | closeDone =>
    simp [Tcp.next, h.handle] at hstep

/-- A shut connection stays shut: it takes and writes nothing more. -/
theorem Shut.next (h : Shut c) {e : Event} (hstep : next c e = some c') :
    Shut c' ∧ c'.sent = c.sent ∧ c'.written = c.written := by
  cases e with
  | send onLoop uvOk data =>
    cases hstep
    simpa [Conn.send, Conn.sendBatch, h.closed] using h
  | sendBatch onLoop uvOk buffers =>
    cases hstep
    simpa [Conn.sendBatch, h.closed] using h
  | closeAfterWrite onLoop uvOk =>
    cases hstep
    simpa [Conn.doCloseAfterWrite, h.closed] using h
  | close onLoop =>
    cases hstep
    simpa [Conn.close, h.closed] using h
  | task i uvOk =>
    simp only [Tcp.next] at hstep
    split at hstep
    · cases hstep
      rw [Conn.processWriteQueue, if_pos h.handle]
      exact ⟨⟨h.handle, h.closed, h.closing, h.idle⟩, rfl, rfl⟩
    · cases hstep
      rw [Conn.doClose, if_neg h.handle]
      exact ⟨⟨h.handle, h.closed, h.closing, h.idle⟩, rfl, rfl⟩
    · cases hstep
  | writeDone ok uvOk =>
    simp [Tcp.next, h.idle] at hstep
  | closeDone =>
    simp only [Tcp.next] at hstep
    split_ifs at hstep
    cases hstep
    exact ⟨⟨by simp, h.closed, h.closing, h.idle⟩, rfl, rfl⟩

end Phases

/-- Up to `CloseAfterWrite` a connection is fresh, or a failed write has shut it. -/
theorem fresh_or_shut_run {c : Conn} {es : List Event} (hun : ∀ e ∈ es, e.unclosed)
    (hno : ∀ onLoop uvOk, .closeAfterWrite onLoop uvOk ∉ es) (hrun : run next init es = some c) :
    Inv c ∧ (Fresh c ∨ Shut c) := by
  refine run_invariant (I := fun c => Inv c ∧ (Fresh c ∨ Shut c))
    (P := fun _ e => e.unclosed ∧ ∀ onLoop uvOk, e ≠ .closeAfterWrite onLoop uvOk) ?_
    ⟨inv_init, Or.inl ⟨rfl, rfl, rfl, rfl, List.not_mem_nil⟩⟩ ?_ hrun
  · rintro c e c' ⟨hun, hno⟩ ⟨hinv, hphase⟩ hstep
    refine ⟨hinv.next hstep, ?_⟩
    rcases hphase with hfresh | hshut
    · rcases hfresh.next hinv hun hstep with h | h | ⟨onLoop, uvOk, rfl⟩
      · exact Or.inl h
      · exact Or.inr h
      · exact absurd rfl (hno onLoop uvOk)
    · exact Or.inr (hshut.next hstep).1
  · exact runOk_of_forall fun e he => ⟨hun e he, fun onLoop uvOk heq => hno onLoop uvOk (heq ▸ he)⟩

theorem marked_run {c d : Conn} {es : List Event} (h : Marked c) (hrun : run next c es = some d) :
    Marked d :=
  run_invariant_all (fun _ _ _ h hstep => Marked.next h hstep) h hrun

theorem shut_run {c d : Conn} {es : List Event} (h : Shut c) (hrun : run next c es = some d) :
    Shut d ∧ d.sent = c.sent ∧ d.written = c.written := by
  refine run_invariant_all (I := fun d => Shut d ∧ d.sent = c.sent ∧ d.written = c.written)
    ?_ ⟨h, rfl, rfl⟩ hrun
  rintro d e d' ⟨hd, hsent, hwritten⟩ hstep
  obtain ⟨hd', hsent', hwritten'⟩ := hd.next hstep
  exact ⟨hd', hsent'.trans hsent, hwritten'.trans hwritten⟩

/-- Nothing is left to do: no posted task, no buffer queued or under way, no
`uv_close` whose callback is still to come. -/
structure Settled (c : Conn) : Prop where
  tasks : c.tasks = []
  queue : c.writeQueue = []
  idle : c.inFlight = none
  handle : c.handle ≠ .closing

/-- The connection `d` has been closed once, with one callback, and has written
every byte that connection `c` had queued. -/
structure ClosedAfterWrite (c d : Conn) : Prop where
  closes : d.closes = 1
  onCloses : d.onCloses = 1
  written : d.written.flatten = c.sent.flatten

/-- `CloseAfterWrite` closes the connection only if a failed write had closed it
before, and then all bytes are written only if the buffers lost were empty. -/
theorem closesAfterWrite_iff (es es' : List Event) (onLoop uvOk : Bool) (c d : Conn)
    (hun : ∀ e ∈ es, e.unclosed) (hno : ∀ onLoop uvOk, .closeAfterWrite onLoop uvOk ∉ es)
    (hc : run next init es = some c)
    (hd : run next c (.closeAfterWrite onLoop uvOk :: es') = some d) (hsettled : Settled d) :
    ClosedAfterWrite c d ↔ c.closing = true ∧ c.written.flatten = c.sent.flatten := by
  obtain ⟨hinv, hphase⟩ := fresh_or_shut_run hun hno hc
  have hdinv : Inv d := inv_run hinv hd
  rcases hphase with hfresh | hshut
  · obtain ⟨c', hstep, hrest⟩ := run_cons_eq_some.mp hd
    cases hstep
    have hmarked := marked_run (hfresh.closeAfterWrite onLoop uvOk) hrest
    have hcloses : d.closes = 0 := by rw [hdinv.closes, if_pos hmarked.handle]
    constructor
    · intro h
      exact absurd (hcloses.symm.trans h.closes) Nat.zero_ne_one
    · rintro ⟨hclosing, -⟩
      exact absurd (hfresh.closing.symm.trans hclosing) Bool.false_ne_true
  · obtain ⟨hd', hsent, hwritten⟩ := shut_run hshut hd
    have hgone : d.handle = .gone := by
      cases hhandle : d.handle with
      | open_ => exact absurd hhandle hd'.handle
      | closing => exact absurd hhandle hsettled.handle
      | gone => rfl
    have hcloses : d.closes = 1 := by rw [hdinv.closes, if_neg hd'.handle]
    have honCloses : d.onCloses = 1 := by rw [hdinv.onCloses, if_pos hgone]
    constructor
    · intro h
      exact ⟨hshut.closing, hwritten ▸ h.written⟩
    · rintro ⟨-, hall⟩
      exact ⟨hcloses, honCloses, hwritten ▸ hall⟩

/-- One buffer is sent from another thread and written. -/
def sentAndWritten : List Event := [.send false true [1], .task 0 true, .writeDone true true]

/-- The connection that has written its buffer is not closed by `CloseAfterWrite`;
one that a failed write of an empty buffer has closed is. -/
theorem closesAfterWrite_iff_runs :
    (∃ c d, run next init sentAndWritten = some c ∧
      run next c [.closeAfterWrite false true, .task 0 true] = some d ∧ ¬ ClosedAfterWrite c d) ∧
    ∃ c d, run next init [.send false true [], .task 0 false, .closeDone] = some c ∧
      run next c [.closeAfterWrite false true] = some d ∧ ClosedAfterWrite c d := by
  refine ⟨⟨_, _, rfl, rfl, ?_⟩, ⟨_, _, rfl, rfl, ?_⟩⟩
  · rw [closesAfterWrite_iff sentAndWritten [.task 0 true] false true _ _ (by decide)
      (by simp [sentAndWritten]) rfl rfl ⟨rfl, rfl, rfl, by decide⟩]
    decide
  · rw [closesAfterWrite_iff [.send false true [], .task 0 false, .closeDone] [] false true _ _
      (by decide) (by simp) rfl rfl ⟨rfl, rfl, rfl, by decide⟩]
    decide

/-- A buffer is sent and written, `CloseAfterWrite` is called and its task runs:
the handle is open, and stays open whatever happens from there on. -/
theorem closeAfterWrite_stays_open :
    ∃ c d, run next init sentAndWritten = some c ∧
      run next c [.closeAfterWrite false true, .task 0 true] = some d ∧ Settled d ∧
      d.written = [[1]] ∧ ¬ ClosedAfterWrite c d ∧
      ∀ es d', run next d es = some d' → d'.closes = 0 ∧ d'.onCloses = 0 := by
  refine ⟨_, _, rfl, rfl, ⟨rfl, rfl, rfl, by decide⟩, rfl, fun h => ?_, fun es d' hrun => ?_⟩
  · exact absurd h.closes (by decide)
  · have hmarked := marked_run ⟨rfl, rfl, rfl, List.not_mem_nil⟩ hrun
    have hinv := inv_run ⟨rfl, rfl, by decide, fun _ => rfl⟩ hrun
    rw [hinv.closes, hinv.onCloses, hmarked.handle]
    exact ⟨rfl, rfl⟩

end Gmaker.Net.Tcp
