import Gmaker.Net.AsyncConnection

/-!
# Gmaker.Net.Backpressure — reading stops and goes on

`Send` pauses reading when more than 16 MB are queued; `ProcessWriteQueue` resumes it below
8 MB. In every run of a TCP or WebSocket connection in which no completion resumes reading
while a stop that was decided before is still to come, the byte count is that of the queue
and an open connection that has come to rest is reading (`flows_of_run`).
-/

namespace Gmaker.Net.Async

open Gmaker.Lib
open Gmaker.Net.Tcp (Handle maxWriteQueueBytes writeResumeThreshold)

/-! ## Between two steps -/

/-- The stops of reading that are decided and still to come. -/
def Conn.pauses (c : Conn) : ℕ :=
  c.tasks.count .readStop + c.calls.countP fun call => call.pc = .pause

/-- `ProcessWriteQueue` would resume reading now. -/
def Conn.resumes (k : Kind) (c : Conn) : Prop :=
  c.readPaused = true ∧ (c.rest k).sum < writeResumeThreshold

instance (k : Kind) (c : Conn) : Decidable (c.resumes k) := by
  unfold Conn.resumes
  infer_instance

/-- While the connection is open, reading is resumed only when no stop is still to come. -/
def PausesApplied (k : Kind) (c : Conn) : Event → Prop
  | .call i _ =>
    c.closed = false → c.calls[i]? = some ⟨true, .trigger⟩ → c.writing = false → c.resumes k →
      c.pauses = 0
  | .task i _ =>
    c.closed = false → c.tasks[i]? = some .processWriteQueue → c.resumes k → c.pauses = 0
  | .writeDone ok _ => c.closed = false → ok = true → c.resumes k → c.pauses = 0
  | _ => True

instance (k : Kind) (c : Conn) (e : Event) : Decidable (PausesApplied k c e) := by
  cases e <;> (unfold PausesApplied; infer_instance)

/-- Between the steps of an open connection: somebody is at work on the queue if `writing_`
says so, and somebody is or will be if anything is queued; and reading is stopped, or will
be, only while it is paused. -/
structure Open (c : Conn) : Prop where
  handle : c.handle = .open_
  closing : c.closing = false
  notMarked : c.closeAfterWrite = false
  noClose : .doClose ∉ c.tasks
  busy : c.pending = if c.writing then 1 else 0
  queued : c.writeQueue ≠ [] → c.writing = true ∨ ∃ call ∈ c.calls, call.late = true
  pausing : 0 < c.pauses → c.readPaused = true
  stopped : c.reading = false → c.readPaused = true

section Reading

variable {k : Kind} {c c' : Conn} {uvOk : Bool}

/-- The party that works on the queue of an open connection. -/
theorem open_processWriteQueue (hflow : Flow c) (hopen : c.handle = .open_)
    (hclosing : c.closing = false) (hmarked : c.closeAfterWrite = false)
    (hnoClose : .doClose ∉ c.tasks) (hpending : c.pending = 0) (hwriting : c.writing = true)
    (hpausing : 0 < c.pauses → c.readPaused = true) (hstopped : c.reading = false → c.readPaused = true)
    (happlied : c.resumes k → c.pauses = 0)
    (hclosed : (c.processWriteQueue k uvOk).closed = false) : Open (c.processWriteQueue k uvOk) := by
  rw [processWriteQueue_eq hflow hopen] at hclosed ⊢
  split_ifs at hclosed ⊢ with hempty
  · unfold Conn.idle
    simp only [hmarked, Bool.false_eq_true, if_false]
    exact ⟨hopen, hclosing, rfl, hnoClose, hpending, fun hq => absurd rfl hq, hpausing, hstopped⟩
  · unfold Conn.uvWrite at hclosed ⊢
    split_ifs at hclosed ⊢
    · have hleft : c.writeQueueBytes - ((c.toWrite k).take k.maxBatch).sum = (c.rest k).sum := by
        unfold Conn.rest
        rw [sum_drop, Conn.toWrite, sum_skipEmpty, hflow.bytes]
      have hresume : ∀ b, (c.readPaused && decide
          (c.writeQueueBytes - ((c.toWrite k).take k.maxBatch).sum < writeResumeThreshold)) = b →
          (b = true ↔ c.resumes k) := by
        rintro b rfl
        rw [hleft, Bool.and_eq_true, decide_eq_true_eq]
        rfl
      unfold Conn.takeBatch
      dsimp only
      generalize hb : (c.readPaused && decide
        (c.writeQueueBytes - ((c.toWrite k).take k.maxBatch).sum < writeResumeThreshold)) = b
      have hb' := hresume b hb
      refine ⟨hopen, hclosing, hmarked, hnoClose, ?_, fun _ => .inl hwriting, fun hp => ?_,
        fun hr => ?_⟩
      · -- the write is the one party now
        rw [if_pos hwriting]
        have htasks : c.tasks.count .processWriteQueue = 0 :=
          Nat.eq_zero_of_add_eq_zero_right hpending
        change c.tasks.count .processWriteQueue + 1 = 1
        rw [htasks]
      · cases b with
        | true => exact absurd (happlied (hb'.mp rfl)) hp.ne'
        | false => simpa using hpausing hp
      · rw [Bool.or_eq_false_iff] at hr
        rw [hr.2]
        simpa using hstopped hr.1
    · rw [close_closed] at hclosed
      cases hclosed

/-- Who is closed stays closed. -/
theorem closed_processWriteQueue (hflow : Flow c) (hclosed : c.closed = true) :
    (c.processWriteQueue k uvOk).closed = true := by
  by_cases hopen : c.handle = .open_
  · rw [processWriteQueue_eq hflow hopen]
    split_ifs
    · unfold Conn.idle
      dsimp only
      split_ifs
      · cases k with
        | tcp => exact close_closed true
        | ws => exact doClose_closed.trans hclosed
      · exact hclosed
    · unfold Conn.uvWrite
      split_ifs
      · exact hclosed
      · exact close_closed true
  · rw [processWriteQueue_closed hopen]
    split_ifs <;> exact hclosed

/-- A call queues its buffers. -/
theorem Open.queue (h : Open c) {i : ℕ} {call : Call} {buffers : List ℕ}
    (hi : c.calls[i]? = some call) (hpc : call.pc = .queue buffers) :
    Open { (c.queue buffers).1 with
      calls := c.calls.set i
        { call with pc := if (c.queue buffers).2 then .pause else .trigger } } := by
  have hcount := countP_set hi
    { call with pc := if (c.queue buffers).2 then .pause else .trigger } fun call => call.pc = .pause
  simp only [hpc, reduceCtorEq, decide_false, Bool.false_eq_true, if_false, Nat.add_zero] at hcount
  refine ⟨h.handle, h.closing, h.notMarked, h.noClose, h.busy, fun _ => .inr ?_, fun hp => ?_,
    fun hr => ?_⟩
  · refine ⟨_, List.mem_of_getElem? (List.getElem?_set_self (List.getElem?_eq_some_iff.mp hi).1), ?_⟩
    unfold Call.late
    cases (c.queue buffers).2 <;> rfl
  · change 0 < c.tasks.count .readStop + List.countP _ _ at hp
    change (c.readPaused || (c.queue buffers).2) = true
    rw [hcount] at hp
    cases hpause : (c.queue buffers).2 with
    | true => exact Bool.or_true _
    | false =>
      simp only [hpause, Bool.false_eq_true, if_false, reduceCtorEq, decide_false,
        Nat.add_zero] at hp
      rw [Bool.or_false]
      exact h.pausing hp
  · change (c.readPaused || (c.queue buffers).2) = true
    rw [h.stopped hr, Bool.true_or]

/-- A call stops reading. -/
theorem Open.pause (h : Open c) {i : ℕ} {call : Call} (hi : c.calls[i]? = some call)
    (hpc : call.pc = .pause) :
    Open ({ c with calls := c.calls.set i { call with pc := .trigger } }.stopReading k call.onLoop) := by
  have hcount := countP_set hi { call with pc := .trigger } fun call => call.pc = .pause
  simp only [hpc, reduceCtorEq, decide_true, decide_false, Bool.false_eq_true, if_false, if_true,
    Nat.add_zero] at hcount
  have hpaused : c.readPaused = true := by
    refine h.pausing ?_
    unfold Conn.pauses
    omega
  have hlate : ∃ call' ∈ c.calls.set i { call with pc := .trigger }, call'.late = true :=
    ⟨_, List.mem_of_getElem? (List.getElem?_set_self (List.getElem?_eq_some_iff.mp hi).1), rfl⟩
  have hgone : c.handle ≠ .gone := by
    rw [h.handle]
    exact Handle.noConfusion
  unfold Conn.stopReading
  simp only [if_neg hgone]
  split_ifs
  · exact ⟨h.handle, h.closing, h.notMarked, h.noClose, h.busy, fun _ => .inr hlate,
      fun _ => hpaused, fun _ => hpaused⟩
  · refine ⟨h.handle, h.closing, h.notMarked, ?_, ?_, fun _ => .inr hlate, fun _ => hpaused,
      fun _ => hpaused⟩
    · simpa using h.noClose
    · have hbusy := h.busy
      simpa [Conn.pending, List.count_append] using hbusy

/-- A call starts the writing. -/
theorem Open.trigger (hflow : Flow c) (h : Open c) {i : ℕ} {call : Call}
    (hi : c.calls[i]? = some call) (hpc : call.pc = .trigger)
    (happlied : call.onLoop = true → c.writing = false → c.resumes k → c.pauses = 0)
    (hclosed : ({ c with calls := c.calls.eraseIdx i }.triggerWrite k uvOk call.onLoop).closed =
      false) :
    Open ({ c with calls := c.calls.eraseIdx i }.triggerWrite k uvOk call.onLoop) := by
  have hcount := countP_eraseIdx hi fun call => call.pc = .pause
  simp only [hpc, reduceCtorEq, decide_false, Bool.false_eq_true, if_false, Nat.add_zero] at hcount
  have hpauses : c.tasks.count .readStop + (c.calls.eraseIdx i).countP (fun call => call.pc = .pause) =
      c.pauses := by
    rw [← hcount]
    rfl
  unfold Conn.triggerWrite at hclosed ⊢
  dsimp only at hclosed ⊢
  split_ifs at hclosed ⊢ with hwriting honLoop
  · exact ⟨h.handle, h.closing, h.notMarked, h.noClose, h.busy, fun _ => .inl hwriting,
      fun hp => h.pausing (hpauses ▸ hp), h.stopped⟩
  · have hpending : c.pending = 0 := by
      rw [h.busy, if_neg hwriting]
    refine open_processWriteQueue ?_ h.handle h.closing h.notMarked h.noClose hpending rfl
      (fun hp => h.pausing (hpauses ▸ hp)) h.stopped (fun hr => ?_) hclosed
    · exact ⟨hflow.bytes, hflow.paused⟩
    · exact hpauses.trans (happlied honLoop (by simpa using hwriting) hr)
  · have hpending : c.pending = 0 := by
      rw [h.busy, if_neg hwriting]
    refine ⟨h.handle, h.closing, h.notMarked, ?_, ?_, fun _ => .inl rfl, fun hp => ?_, h.stopped⟩
    · simpa using h.noClose
    · simp only [Conn.pending, Nat.add_eq_zero_iff] at hpending
      simp [Conn.pending, List.count_append, hpending.1, hpending.2]
    · refine h.pausing ?_
      rw [← hpauses]
      simpa [Conn.pauses, List.count_append] using hp

/-- What a step keeps of an open connection. -/
theorem Open.step (hflow : Flow c) (h : c.closed = false → Open c) {e : Event}
    (happlied : PausesApplied k c e) (hstep : Step k c e c') (hclosed : c'.closed = false) :
    Open c' := by
  cases hstep with
  | send onLoop buffers =>
    unfold Conn.send at hclosed ⊢
    split_ifs at hclosed ⊢
    · exact h hclosed
    · have hopen := h hclosed
      refine ⟨hopen.handle, hopen.closing, hopen.notMarked, hopen.noClose, hopen.busy, fun hq => ?_,
        fun hp => hopen.pausing ?_, hopen.stopped⟩
      · rcases hopen.queued hq with hwriting | ⟨call, hcall, hlate⟩
        · exact .inl hwriting
        · exact .inr ⟨call, List.mem_append_left _ hcall, hlate⟩
      · simpa [Conn.pauses, List.countP_append] using hp
  | closeAfterWrite onLoop =>
    unfold Conn.doCloseAfterWrite at hclosed ⊢
    split_ifs at hclosed ⊢
    exact h hclosed
  | call hi uvOk =>
    rename_i i call
    unfold Conn.callStep at hclosed ⊢
    cases hpc : call.pc with
    | queue buffers =>
      simp only [hpc] at hclosed ⊢
      by_cases hagain : k = .ws ∧ (c.closed || c.closing || decide (c.handle = .gone)) = true
      · -- an open connection is found open
        rw [if_pos hagain] at hclosed
        have hsame : c.closed = false := hclosed
        have hopen := h hsame
        simp [hsame, hopen.closing, hopen.handle] at hagain
      · rw [if_neg hagain] at hclosed ⊢
        exact (h hclosed).queue hi hpc
    | pause =>
      simp only [hpc] at hclosed ⊢
      refine (h ?_).pause hi hpc
      unfold Conn.stopReading at hclosed
      split_ifs at hclosed <;> exact hclosed
    | trigger =>
      simp only [hpc] at hclosed ⊢
      have hopen : c.closed = false := by
        by_contra hnot
        unfold Conn.triggerWrite at hclosed
        dsimp only at hclosed
        split_ifs at hclosed
        · exact hnot hclosed
        · refine absurd hclosed ?_
          rw [closed_processWriteQueue]
          · exact Bool.noConfusion
          · exact ⟨hflow.bytes, hflow.paused⟩
          · simpa using hnot
        · exact hnot hclosed
      refine (h hopen).trigger hflow hi hpc (fun honLoop => ?_) hclosed
      refine happlied hopen ?_
      rw [hi, ← honLoop, ← hpc]
  | close onLoop =>
    rw [close_closed] at hclosed
    cases hclosed
  | sendCloseAndDrain hk frame uvOk =>
    unfold Conn.sendCloseAndDrain at hclosed ⊢
    dsimp only at hclosed ⊢
    split_ifs at hclosed ⊢
    · exact h hclosed
    · rw [close_closed] at hclosed
      cases hclosed
    · rw [doClose_closed] at hclosed
      cases hclosed
  | readError =>
    rw [close_closed] at hclosed
    cases hclosed
  | process hi uvOk =>
    rename_i i
    have hopen : c.closed = false := by
      by_contra hnot
      refine absurd hclosed ?_
      rw [closed_processWriteQueue]
      · exact Bool.noConfusion
      · exact ⟨hflow.bytes, hflow.paused⟩
      · simpa using hnot
    have ho := h hopen
    have hwork := Conn.pending_of_posted hi
    have hstops : c.tasks.count .readStop = (c.tasks.eraseIdx i).count .readStop :=
      countP_eraseIdx hi (· == .readStop)
    rcases Conn.writing_of_pending ho.busy.le (by omega) with ⟨hwriting, halone⟩
    have hpauses : ({ c with tasks := c.tasks.eraseIdx i } : Conn).pauses = c.pauses := by
      unfold Conn.pauses
      rw [hstops]
    refine open_processWriteQueue ⟨hflow.bytes, hflow.paused⟩ ho.handle ho.closing ho.notMarked
      (fun hmem => ho.noClose (List.mem_of_mem_eraseIdx hmem)) ?_ hwriting (fun hp => ?_) ho.stopped
      (fun hr => ?_) hclosed
    · change (c.tasks.eraseIdx i).count .processWriteQueue + (if c.inFlight.isSome then 1 else 0) = 0
      omega
    · exact ho.pausing (hpauses ▸ hp)
    · exact hpauses.trans (happlied hopen hi hr)
  | doClose hi uvOk =>
    rw [doClose_closed] at hclosed
    exact absurd (List.mem_of_getElem? hi) (h hclosed).noClose
  | readStop hi uvOk =>
    rename_i i
    have hopen : c.closed = false := hclosed
    have ho := h hopen
    have hcount := countP_eraseIdx hi
    have hwork : c.tasks.count .processWriteQueue =
        (c.tasks.eraseIdx i).count .processWriteQueue := hcount (· == .processWriteQueue)
    have hstops : c.tasks.count .readStop = (c.tasks.eraseIdx i).count .readStop + 1 :=
      hcount (· == .readStop)
    have hpaused : c.readPaused = true := by
      refine ho.pausing ?_
      unfold Conn.pauses
      omega
    refine ⟨ho.handle, ho.closing, ho.notMarked,
      fun hmem => ho.noClose (List.mem_of_mem_eraseIdx hmem), ?_, ho.queued, fun _ => hpaused,
      fun _ => hpaused⟩
    have hbusy := ho.busy
    unfold Conn.pending at hbusy ⊢
    rwa [hwork] at hbusy
  | written hflight hhandle uvOk =>
    have hopen : c.closed = false := by
      by_contra hnot
      refine absurd hclosed ?_
      rw [closed_processWriteQueue]
      · exact Bool.noConfusion
      · exact ⟨hflow.bytes, hflow.paused⟩
      · simpa using hnot
    have ho := h hopen
    have hwork := Conn.pending_of_inFlight hflight
    rcases Conn.writing_of_pending ho.busy.le (by omega) with ⟨hwriting, halone⟩
    refine open_processWriteQueue ⟨hflow.bytes, hflow.paused⟩ ho.handle ho.closing ho.notMarked
      ho.noClose ?_ hwriting ho.pausing ho.stopped (fun hr => happlied hopen rfl hr) hclosed
    simp only [Conn.pending, Option.isSome_none, Bool.false_eq_true, if_false]
    omega
  | writeFailed hflight uvOk =>
    rw [close_closed] at hclosed
    cases hclosed
  | closeDone hclosing hflight =>
    have ho := (h hclosed).handle
    rw [hclosing] at ho
    cases ho

/-- An open connection that has come to rest has nothing queued, and reads. -/
theorem Open.rests (hflow : Flow c) (h : Open c) (hquiet : Quiescent c) :
    c.reading = true ∧ c.readPaused = false := by
  have hwriting : c.writing = false := by
    have hbusy := h.busy
    rw [Conn.pending, hquiet.tasks, hquiet.idle] at hbusy
    cases hw : c.writing with
    | false => rfl
    | true =>
      rw [hw] at hbusy
      cases hbusy
  have hempty : c.writeQueue = [] := by
    by_contra hq
    rcases h.queued hq with hbusy | ⟨call, hcall, -⟩
    · rw [hwriting] at hbusy
      cases hbusy
    · rw [hquiet.calls] at hcall
      cases hcall
  have hpaused : c.readPaused = false := by
    by_contra hnot
    have hlong := hflow.paused (by simpa using hnot)
    rw [hflow.bytes, hempty] at hlong
    exact absurd hlong (by decide)
  refine ⟨?_, hpaused⟩
  by_contra hnot
  rw [h.stopped (by simpa using hnot)] at hpaused
  cases hpaused

end Reading

/-- The count is that of the queue, and an open connection at rest reads. -/
def Conn.Flows (c : Conn) : Prop :=
  c.writeQueueBytes = c.writeQueue.sum ∧
    (c.closed = false → Quiescent c → c.reading = true ∧ c.readPaused = false)

/-- So it is all along the run. -/
def FlowsAlong (k : Kind) (es : List Event) : Prop :=
  ∀ ms c, ms <+: es → run (next k) {} ms = some c → c.Flows

theorem open_init : Open {} :=
  ⟨rfl, rfl, rfl, List.not_mem_nil, rfl, fun h => absurd rfl h, nofun, nofun⟩

/-- In every run in which an open connection resumes reading only after the stops that
were decided before, the count is that of the queue, and the connection reads when it
rests. -/
theorem flows_of_run (k : Kind) {es : List Event} (hok : RunOk (next k) (PausesApplied k) {} es) :
    FlowsAlong k es := by
  have hstep : ∀ c e c', PausesApplied k c e → (Flow c ∧ (c.closed = false → Open c)) →
      next k c e = some c' → Flow c' ∧ (c'.closed = false → Open c') := by
    rintro c e c' happlied ⟨hflow, hopen⟩ hnext
    have h := step_of_next hnext
    exact ⟨hflow.step h, Open.step hflow hopen happlied h⟩
  rintro ms c ⟨rest, rfl⟩ hrun
  obtain ⟨hflow, hopen⟩ := run_invariant (I := fun c => Flow c ∧ (c.closed = false → Open c)) hstep
    ⟨flow_init, fun _ => open_init⟩ (runOk_append.mp hok).1 hrun
  exact ⟨hflow.bytes, fun hclosed hquiet => (hopen hclosed).rests hflow hquiet⟩

/-- 16 MB and one byte are queued from another thread, and reading is stopped, before the
byte is written. -/
def stoppedInTime : List Event :=
  oneByte ++ [.send false [16777217], .call 0 true, .call 0 true, .task 0 true, .call 0 true,
    .writeDone true true, .writeDone true true]

/-- A WebSocket whose pause comes in time reads again. -/
theorem flowsAlong_stoppedInTime : FlowsAlong .ws stoppedInTime :=
  flows_of_run .ws (by decide)

/-- The byte is written before reading is stopped. -/
def stoppedTooLate : Kind → List Event
  | .tcp => oneByte ++ [.send false [16777217], .call 0 true, .writeDone true true, .call 0 true,
      .call 0 true, .writeDone true true]
  | .ws => oneByte ++ [.send false [16777217], .call 0 true, .call 0 true, .call 0 true,
      .writeDone true true, .task 0 true, .writeDone true true]

theorem not_flowsAlong_stoppedTooLate (k : Kind) : ¬ FlowsAlong k (stoppedTooLate k) := by
  intro h
  have hrun : (run (next k) {} (stoppedTooLate k)).map (fun c =>
      (c.closed, decide (Quiescent c), c.reading)) = some (false, true, false) := by
    cases k <;> decide
  obtain ⟨c, hc, heq⟩ := Option.map_eq_some_iff.mp hrun
  obtain ⟨hclosed, hrest⟩ := Prod.mk.inj heq
  obtain ⟨hquiet, hreading⟩ := Prod.mk.inj hrest
  obtain ⟨hreads, -⟩ := (h _ c (List.prefix_refl _) hc).2 hclosed (of_decide_eq_true hquiet)
  rw [hreading] at hreads
  cases hreads

/-- When a completion comes between the pause and the stop, reading is resumed first and
then stopped, and nothing starts it again: in both classes. -/
theorem stoppedTooLate_not_flows :
    ¬ (∀ es, FlowsAlong .tcp es) ∧ ¬ (∀ es, FlowsAlong .ws es) :=
  ⟨fun h => not_flowsAlong_stoppedTooLate .tcp (h _),
    fun h => not_flowsAlong_stoppedTooLate .ws (h _)⟩

end Gmaker.Net.Async
