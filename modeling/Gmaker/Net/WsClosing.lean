import Gmaker.Net.AsyncConnection

/-!
# Gmaker.Net.WsClosing — a WebSocket that is marked closed gets closed

`Close`, `CloseAfterWrite` and `SendCloseAndDrain` mark the connection closed, and `Close`
returns on the mark. In every run in which no write fails while the connection drains, it
has been closed once when it comes to rest (`closes_of_run`).
-/

namespace Gmaker.Net.Async

open Gmaker.Lib
open Gmaker.Net.Tcp (Handle)

/-! ## Between two steps -/

/-- The step makes a write fail: `uv_write` returns an error, or the completion brings
one. -/
def Conn.failsWrite (k : Kind) (c : Conn) : Event → Prop
  | .call i uvOk =>
    c.calls[i]? = some ⟨true, .trigger⟩ ∧ c.writing = false ∧ c.toWrite k ≠ [] ∧ uvOk = false
  | .task i uvOk => c.tasks[i]? = some .processWriteQueue ∧ c.toWrite k ≠ [] ∧ uvOk = false
  | .writeDone ok uvOk => ok = false ∨ (c.toWrite k ≠ [] ∧ uvOk = false)
  | _ => False

instance (k : Kind) (c : Conn) (e : Event) : Decidable (c.failsWrite k e) :=
  match e with
  | .call _ _ => inferInstanceAs (Decidable (_ ∧ _ ∧ _ ∧ _))
  | .task _ _ => inferInstanceAs (Decidable (_ ∧ _ ∧ _))
  | .writeDone _ _ => inferInstanceAs (Decidable (_ ∨ _ ∧ _))
  | .send _ _ | .closeAfterWrite _ | .close _ | .sendCloseAndDrain _ _ | .readError | .closeDone =>
    .isFalse id

/-- No write fails while the connection, marked closed, drains and its handle is open. -/
def Drains (k : Kind) (c : Conn) (e : Event) : Prop :=
  c.closeAfterWrite = true → c.handle = .open_ → ¬ c.failsWrite k e

instance (k : Kind) (c : Conn) (e : Event) : Decidable (Drains k c e) := by
  unfold Drains
  infer_instance

/-- An open handle on which `Close` has not been called: the party at work is one if
`writing_` says so, and if the connection is marked closed, it drains and somebody will
see to the end of it. -/
structure Live (c : Conn) : Prop where
  closing : c.closing = false
  busy : c.pending = if c.writing then 1 else 0
  drain : c.closed = true → c.closeAfterWrite = true ∧
    (c.writing = true ∨ 0 < c.calls.countP Call.late)
  marked : c.closeAfterWrite = true → c.closed = true

/-- `uv_close` has been called if the handle is not open; and as long as it is open, it is
live, or `DoClose` is posted. -/
structure Closing (c : Conn) : Prop where
  closes : c.closes = if c.handle = .open_ then 0 else 1
  alive : c.handle = .open_ → .doClose ∈ c.tasks ∨ Live c

/-- The same for the party itself, which is about to go on with the queue. -/
structure Working (c : Conn) : Prop where
  closing : c.closing = false
  idle : c.pending = 0
  writing : c.writing = true
  drain : c.closed = true → c.closeAfterWrite = true
  marked : c.closeAfterWrite = true → c.closed = true

section Closing

variable {c c' : Conn} {uvOk : Bool}

theorem closing_doClose (hcloses : c.closes = if c.handle = .open_ then 0 else 1) :
    Closing (c.doClose .ws) := by
  unfold Conn.doClose
  simp only [if_true]
  split_ifs with hopen
  · rw [if_pos hopen] at hcloses
    exact ⟨by simp [hcloses], fun ho => by cases ho⟩
  · exact ⟨hcloses, fun ho => absurd ho hopen⟩

/-- `Close` on a connection that is not marked closed closes it, now or later. -/
theorem closing_close (hcloses : c.closes = if c.handle = .open_ then 0 else 1) (onLoop : Bool)
    (hclosed : c.handle = .open_ → c.closed = true → .doClose ∈ c.tasks ∨ Live c)
    (hclosing : c.handle = .open_ → c.closed = false → c.closing = true → .doClose ∈ c.tasks) :
    Closing (c.close .ws onLoop) := by
  unfold Conn.close
  dsimp only
  split_ifs with hc hg
  · exact ⟨hcloses, fun ho => hclosed ho hc⟩
  · exact ⟨hcloses, fun ho => .inl (hclosing ho (by simpa using hc) hg)⟩
  · exact closing_doClose hcloses
  · exact ⟨hcloses, fun _ => .inl (List.mem_append_right _ (List.mem_singleton_self _))⟩

theorem Closing.close (h : Closing c) (onLoop : Bool) : Closing (c.close .ws onLoop) := by
  refine closing_close h.closes onLoop (fun ho _ => h.alive ho) fun ho _ hclosing => ?_
  rcases h.alive ho with hposted | hlive
  · exact hposted
  · rw [hlive.closing] at hclosing
    cases hclosing

theorem closing_processWriteQueue (hflow : Flow c)
    (hcloses : c.closes = if c.handle = .open_ then 0 else 1)
    (hwork : c.handle = .open_ → .doClose ∈ c.tasks ∨
      (Working c ∧ (c.closeAfterWrite = true → c.toWrite .ws ≠ [] → uvOk = true))) :
    Closing (c.processWriteQueue .ws uvOk) := by
  by_cases hopen : c.handle = .open_
  swap
  · rw [processWriteQueue_closed hopen]
    exact ⟨hcloses, fun ho => absurd ho hopen⟩
  have hwork := hwork hopen
  rw [processWriteQueue_eq hflow hopen]
  split_ifs with hempty
  · unfold Conn.idle
    dsimp only
    split_ifs with hmarked
    · exact closing_doClose hcloses
    · refine ⟨hcloses, fun _ => hwork.imp_right fun ⟨hw, _⟩ => ?_⟩
      exact ⟨hw.closing, hw.idle, fun hclosed => absurd (hw.drain hclosed) hmarked,
        fun hm => absurd hm hmarked⟩
  · unfold Conn.uvWrite
    split_ifs with huv
    · refine ⟨hcloses, fun _ => hwork.imp_right fun ⟨hw, _⟩ => ?_⟩
      refine ⟨hw.closing, ?_, fun hclosed => ⟨hw.drain hclosed, .inl hw.writing⟩, hw.marked⟩
      have htasks : c.tasks.count .processWriteQueue = 0 :=
        Nat.eq_zero_of_add_eq_zero_right hw.idle
      change c.tasks.count .processWriteQueue + 1 = if c.writing then 1 else 0
      rw [htasks, hw.writing]
      rfl
    · refine closing_close ?_ true (fun _ hclosed => ?_) fun _ _ hclosing => ?_
      · exact hcloses
      · -- a connection that drains loses no write
        rcases hwork with hposted | ⟨hw, hok⟩
        · exact .inl hposted
        · exact absurd (hok (hw.drain hclosed) hempty) huv
      · rcases hwork with hposted | ⟨hw, -⟩
        · exact hposted
        · have hg : c.closing = true := hclosing
          rw [hw.closing] at hg
          cases hg

theorem Closing.triggerWrite (hflow : Flow c) (hcloses : c.closes = if c.handle = .open_ then 0 else 1)
    (halive : c.handle = .open_ → .doClose ∈ c.tasks ∨
      (c.closing = false ∧ (c.pending = if c.writing then 1 else 0) ∧
        (c.closed = true → c.closeAfterWrite = true) ∧ (c.closeAfterWrite = true → c.closed = true)))
    (onLoop : Bool) (hok : onLoop = true → c.writing = false → c.handle = .open_ → c.closed = true →
      c.closeAfterWrite = true → c.toWrite .ws ≠ [] → uvOk = true) :
    Closing (c.triggerWrite .ws uvOk onLoop) := by
  unfold Conn.triggerWrite
  dsimp only
  split_ifs with hwriting honLoop
  · refine ⟨hcloses, fun ho => (halive ho).imp_right fun ⟨hclosing, hbusy, hdrain, hmarked⟩ => ?_⟩
    exact ⟨hclosing, hbusy, fun hclosed => ⟨hdrain hclosed, .inl hwriting⟩, hmarked⟩
  · refine closing_processWriteQueue ⟨hflow.bytes, hflow.paused⟩ hcloses fun ho => ?_
    refine (halive ho).imp_right fun ⟨hclosing, hbusy, hdrain, hmarked⟩ => ⟨?_, fun hm hq => ?_⟩
    · rw [if_neg hwriting] at hbusy
      exact ⟨hclosing, hbusy, rfl, hdrain, hmarked⟩
    · exact hok honLoop (by simpa using hwriting) ho (hmarked hm) hm hq
  · refine ⟨hcloses, fun ho => ?_⟩
    rcases halive ho with hposted | ⟨hclosing, hbusy, hdrain, hmarked⟩
    · exact .inl (List.mem_append_left _ hposted)
    · refine .inr ⟨hclosing, ?_, fun hclosed => ⟨hdrain hclosed, .inl rfl⟩, hmarked⟩
      rw [if_neg hwriting] at hbusy
      simp only [Conn.pending, Nat.add_eq_zero_iff] at hbusy
      simp [Conn.pending, List.count_append, hbusy.1, hbusy.2]

theorem Closing.callStep (hflow : Flow c) (h : Closing c) {i : ℕ} {call : Call}
    (hi : c.calls[i]? = some call) (hdrains : Drains .ws c (.call i uvOk)) :
    Closing (c.callStep .ws uvOk i call) := by
  have herase := countP_eraseIdx hi Call.late
  unfold Conn.callStep
  cases hpc : call.pc with
  | queue buffers =>
    have hlate : call.late = false := by rw [Call.late, hpc]
    rw [hlate, if_neg Bool.false_ne_true, Nat.add_zero] at herase
    simp only [true_and]
    by_cases hagain : (c.closed || c.closing || decide (c.handle = .gone)) = true
    · rw [if_pos hagain]
      refine ⟨h.closes, fun ho => (h.alive ho).imp_right fun hl => ?_⟩
      exact ⟨hl.closing, hl.busy, fun hclosed => herase ▸ hl.drain hclosed, hl.marked⟩
    · rw [if_neg hagain]
      refine ⟨h.closes, fun ho => (h.alive ho).imp_right fun hl => ?_⟩
      refine ⟨hl.closing, hl.busy, fun hclosed => ?_, hl.marked⟩
      have hopen : c.closed = true := hclosed
      simp [hopen] at hagain
  | pause =>
    have hset := countP_set hi { call with pc := .trigger } Call.late
    have hlate : call.late = true := by rw [Call.late, hpc]
    have hlate' : ({ call with pc := .trigger } : Call).late = true := rfl
    rw [hlate, hlate', if_pos rfl, Nat.add_right_cancel_iff] at hset
    simp only
    unfold Conn.stopReading
    split_ifs
    · exact ⟨h.closes, fun ho => (h.alive ho).imp_right fun hl =>
        ⟨hl.closing, hl.busy, fun hclosed => hset ▸ hl.drain hclosed, hl.marked⟩⟩
    · exact ⟨h.closes, fun ho => (h.alive ho).imp_right fun hl =>
        ⟨hl.closing, hl.busy, fun hclosed => hset ▸ hl.drain hclosed, hl.marked⟩⟩
    · refine ⟨h.closes, fun ho => ?_⟩
      rcases h.alive ho with hposted | hl
      · exact .inl (List.mem_append_left _ hposted)
      · refine .inr ⟨hl.closing, ?_, fun hclosed => hset ▸ hl.drain hclosed, hl.marked⟩
        have hbusy := hl.busy
        simpa [Conn.pending, List.count_append] using hbusy
  | trigger =>
    simp only
    refine Closing.triggerWrite ?_ ?_ (fun ho => ?_) call.onLoop
      fun honLoop hwriting ho hclosed hmarked hq => ?_
    · exact ⟨hflow.bytes, hflow.paused⟩
    · exact h.closes
    · exact (h.alive ho).imp_right fun hl =>
        ⟨hl.closing, hl.busy, fun hclosed => (hl.drain hclosed).1, hl.marked⟩
    · by_contra huv
      refine hdrains hmarked ho ⟨?_, hwriting, hq, by simpa using huv⟩
      rw [hi, ← honLoop, ← hpc]

theorem Closing.queueFrame (hflow : Flow c) (h : Closing c) (hclosed : c.closed = false)
    (frame : ℕ) : Closing (c.queueFrame .ws uvOk frame) := by
  have hq := hflow.queue [frame]
  have hcalm : ∀ d : Conn, Flow d → d.closes = c.closes → d.handle = c.handle → d.tasks = c.tasks →
      d.closing = c.closing → d.pending = c.pending → d.writing = c.writing →
      d.closed = c.closed → d.closeAfterWrite = c.closeAfterWrite →
      Closing (d.triggerWrite .ws uvOk true) := by
    intro d hd hcloses hhandle htasks hclosing hpending hwriting hc hmarked
    refine Closing.triggerWrite hd ?_ (fun ho => ?_) true fun _ _ _ hclosed' => ?_
    · rw [hcloses, hhandle]
      exact h.closes
    · rw [hhandle] at ho
      rw [htasks, hclosing, hpending, hwriting, hc, hmarked]
      exact (h.alive ho).imp_right fun hl =>
        ⟨hl.closing, hl.busy, fun hclosed => (hl.drain hclosed).1, hl.marked⟩
    · rw [hc, hclosed] at hclosed'
      cases hclosed'
  unfold Conn.queueFrame
  simp only
  split_ifs
  · exact hcalm _ hq.readStop rfl rfl rfl rfl rfl rfl rfl rfl
  · exact hcalm _ hq rfl rfl rfl rfl rfl rfl rfl rfl

theorem Closing.sendCloseAndDrain (hflow : Flow c) (h : Closing c) (frame : ℕ) :
    Closing (c.sendCloseAndDrain .ws uvOk frame) := by
  unfold Conn.sendCloseAndDrain
  dsimp only
  split_ifs with hclosed _ hwriting
  · exact h
  · exact h.close true
  · have hq : Closing (c.queueFrame .ws uvOk frame) :=
      h.queueFrame hflow (by simpa using hclosed : c.closed = false ∧ c.closing = false).1 frame
    refine ⟨hq.closes, fun ho => (hq.alive ho).imp_right fun hl => ?_⟩
    exact ⟨hl.closing, hl.busy, fun _ => ⟨rfl, .inl hwriting⟩, fun _ => rfl⟩
  · have hq : Closing (c.queueFrame .ws uvOk frame) :=
      h.queueFrame hflow (by simpa using hclosed : c.closed = false ∧ c.closing = false).1 frame
    exact closing_doClose hq.closes

theorem Closing.step (hflow : Flow c) (h : Closing c) {e : Event} (hdrains : Drains .ws c e)
    (hstep : Step .ws c e c') : Closing c' := by
  cases hstep with
  | send onLoop buffers =>
    unfold Conn.send
    split_ifs
    · exact h
    · refine ⟨h.closes, fun ho => (h.alive ho).imp_right fun hl => ?_⟩
      refine ⟨hl.closing, hl.busy, fun hclosed => ?_, hl.marked⟩
      rw [List.countP_append]
      exact (hl.drain hclosed).imp_right fun hd => hd.imp_right (Nat.lt_add_right _)
  | closeAfterWrite onLoop =>
    unfold Conn.doCloseAfterWrite
    split_ifs
    · exact h
    · refine ⟨h.closes, fun ho => (h.alive ho).imp_right fun hl => ?_⟩
      refine ⟨hl.closing, hl.busy, fun _ => ⟨rfl, .inr ?_⟩, fun _ => rfl⟩
      rw [List.countP_append]
      exact Nat.lt_add_left _ Nat.one_pos
  | call hi uvOk => exact h.callStep hflow hi hdrains
  | close onLoop => exact h.close onLoop
  | sendCloseAndDrain hk frame uvOk => exact h.sendCloseAndDrain hflow frame
  | readError => exact h.close true
  | process hi uvOk =>
    rename_i i
    have hwork := Conn.pending_of_posted hi
    refine closing_processWriteQueue ⟨hflow.bytes, hflow.paused⟩ h.closes fun ho => ?_
    rcases h.alive ho with hposted | hl
    · exact .inl (mem_eraseIdx hi Task.noConfusion hposted)
    · rcases Conn.writing_of_pending hl.busy.le (by omega) with ⟨hwriting, halone⟩
      refine .inr ⟨⟨hl.closing, ?_, hwriting, fun hclosed => (hl.drain hclosed).1, hl.marked⟩, ?_⟩
      · change (c.tasks.eraseIdx i).count .processWriteQueue +
          (if c.inFlight.isSome then 1 else 0) = 0
        omega
      · intro hmarked hq
        by_contra huv
        exact hdrains hmarked ho ⟨hi, hq, by simpa using huv⟩
  | doClose hi uvOk => exact closing_doClose h.closes
  | readStop hi uvOk =>
    rename_i i
    have hwork : c.tasks.count .processWriteQueue =
        (c.tasks.eraseIdx i).count .processWriteQueue :=
      countP_eraseIdx hi (· == .processWriteQueue)
    refine ⟨h.closes, fun ho => ?_⟩
    rcases h.alive ho with hposted | hl
    · exact .inl (mem_eraseIdx hi Task.noConfusion hposted)
    · refine .inr ⟨hl.closing, ?_, hl.drain, hl.marked⟩
      have hbusy := hl.busy
      unfold Conn.pending at hbusy ⊢
      rwa [hwork] at hbusy
  | written hflight hopen uvOk =>
    refine closing_processWriteQueue ⟨hflow.bytes, hflow.paused⟩ h.closes fun ho => ?_
    refine (h.alive ho).imp_right fun hl => ?_
    have hwork := Conn.pending_of_inFlight hflight
    rcases Conn.writing_of_pending hl.busy.le (by omega) with ⟨hwriting, halone⟩
    refine ⟨⟨hl.closing, ?_, hwriting, fun hclosed => (hl.drain hclosed).1, hl.marked⟩, ?_⟩
    · simp only [Conn.pending, Option.isSome_none, Bool.false_eq_true, if_false]
      omega
    · intro hmarked hq
      by_contra huv
      exact hdrains hmarked ho (.inr ⟨hq, by simpa using huv⟩)
  | writeFailed hflight uvOk =>
    refine closing_close ?_ true (fun ho hclosed => ?_) fun ho _ hclosing => ?_
    · exact h.closes
    · rcases h.alive ho with hposted | hl
      · exact .inl hposted
      · exact absurd (.inl rfl) (hdrains (hl.drain hclosed).1 ho)
    · rcases h.alive ho with hposted | hl
      · exact hposted
      · have hg : c.closing = true := hclosing
        rw [hl.closing] at hg
        cases hg
  | closeDone hclosing hflight =>
    have hcloses := h.closes
    rw [hclosing] at hcloses
    exact ⟨hcloses, fun ho => by cases ho⟩

end Closing

/-- Whenever the WebSocket has come to rest and is marked closed, `uv_close` has been
called, and only once. -/
def ClosesAlong (es : List Event) : Prop :=
  ∀ ms c, ms <+: es → run (next .ws) {} ms = some c → Quiescent c → c.closed = true → c.closes = 1

theorem closing_init : Closing {} :=
  ⟨rfl, fun _ => .inr ⟨rfl, rfl, nofun, nofun⟩⟩

/-- In every run in which no write fails while the WebSocket drains, it gets closed. -/
theorem closes_of_run {es : List Event} (hok : RunOk (next .ws) (Drains .ws) {} es) :
    ClosesAlong es := by
  have hstep : ∀ c e c', Drains .ws c e → (Flow c ∧ Closing c) → next .ws c e = some c' →
      Flow c' ∧ Closing c' := by
    rintro c e c' hdrains ⟨hflow, hclosing⟩ hnext
    have h := step_of_next hnext
    exact ⟨hflow.step h, hclosing.step hflow hdrains h⟩
  rintro ms c ⟨rest, rfl⟩ hrun hquiet hclosed
  obtain ⟨-, h⟩ := run_invariant (I := fun c => Flow c ∧ Closing c) hstep
    ⟨flow_init, closing_init⟩ (runOk_append.mp hok).1 hrun
  have hcloses := h.closes
  by_cases hopen : c.handle = .open_
  · exfalso
    rcases h.alive hopen with hposted | hlive
    · rw [hquiet.tasks] at hposted
      cases hposted
    · -- somebody was to see to the end of the draining
      rcases (hlive.drain hclosed).2 with hwriting | hlate
      · have hbusy := hlive.busy
        rw [Conn.pending, hquiet.tasks, hquiet.idle, hwriting] at hbusy
        cases hbusy
      · rw [hquiet.calls] at hlate
        cases hlate
  · rwa [if_neg hopen] at hcloses

/-- A WebSocket that drains while its byte is written is closed after it. -/
theorem closesAlong_oneByte :
    ClosesAlong (oneByte ++ [.sendCloseAndDrain 4 true, .writeDone true true, .readError,
      .writeDone true true, .closeDone]) :=
  closes_of_run (by decide)

/-- The write under way fails after `SendCloseAndDrain`: `Close` returns on the mark, and
the handle stays open. -/
theorem drainFails_not_closes : ¬ ∀ es, ClosesAlong es := by
  intro h
  have hrun : (run (next .ws) {} (oneByte ++ [.sendCloseAndDrain 4 true, .writeDone false true])).map
      (fun c => (c.closed, decide (Quiescent c), c.closes)) = some (true, true, 0) := by
    decide
  obtain ⟨c, hc, heq⟩ := Option.map_eq_some_iff.mp hrun
  obtain ⟨hclosed, hrest⟩ := Prod.mk.inj heq
  obtain ⟨hquiet, hnone⟩ := Prod.mk.inj hrest
  have hone := h _ _ c (List.prefix_refl _) hc (of_decide_eq_true hquiet) hclosed
  rw [hnone] at hone
  cases hone

end Gmaker.Net.Async
