import Gmaker.Lib.Machine
import Gmaker.Lib.Threads
import Gmaker.Net.Packet

/-!
# Gmaker.Rpc.CppClient — the C++ RPC client and its timeout thread

`rpc::Client` keeps the promise of every call in `pending_`, keyed by sequence
number, and the deadlines of the timed calls in `timeouts_`, a map keyed by
deadline. One background thread runs `TimeoutLoop` under `timeout_mtx_`.

The machine below has one label per atomic piece of `Call` (the sections under
one of the two mutexes, the send), one for `OnPacket`, one for a step of the
timeout thread, one for the passage of time and two for the destructor. Only the
timeout thread keeps `timeout_mtx_` across labels, so who holds it can be read
off the thread's program counter (`LoopPc.holdsLock`).

`wait_until` is called with a predicate that says "there is a deadline", which
holds whenever the call is made. `stuck_next` draws the consequence: once the
thread has seen a deadline it goes round and round with the mutex held.
-/

namespace Gmaker.Rpc.Cpp

open Gmaker.Lib Gmaker.Net

/-! ## State -/

/-- The arguments of a `Call`. -/
structure Request where
  cmdId : UInt32
  payload : Bytes
  /-- `timeout`, in milliseconds -/
  timeout : Int
deriving DecidableEq

/-- Where a `Call` stands. -/
inductive CallPc where
  /-- has its sequence number -/
  | numbered
  /-- its promise is in `pending_` -/
  | stored
  /-- `SendPacket` returned true -/
  | sent
  /-- the deadline is computed, `timeout_mtx_` not taken yet -/
  | arming
  /-- the deadline is in `timeouts_` and the future has been returned -/
  | armed
  /-- the future has been returned, without a deadline -/
  | returned
  /-- `throw std::runtime_error("send failed")` -/
  | threw
deriving DecidableEq

/-- One `Call`: its arguments, sequence number and (once computed) deadline. -/
structure Call where
  req : Request
  seq : UInt32
  deadline : Int := 0
  pc : CallPc := .numbered
deriving DecidableEq

/-- How the promise of a call ends. -/
inductive Outcome where
  | reply (pkt : Packet)
  /-- `"rpc call timeout"` -/
  | timedOut
  /-- `"rpc client destroyed"` -/
  | destroyed
  /-- the promise is dropped: its entry is overwritten, or the send failed -/
  | broken
deriving DecidableEq

/-- Where `TimeoutLoop` stands. -/
inductive LoopPc where
  /-- before the first `lk` -/
  | start
  /-- at the `while` -/
  | top
  /-- blocked in `wait` -/
  | waitEmpty
  /-- calling `wait_until(lk, it->first, ..)` -/
  | waitUntil (deadline : Int)
  /-- blocked in `wait_until` -/
  | blocked (deadline : Int)
  /-- `wait_until` returned false -/
  | expired (deadline : Int)
  /-- `TimeoutCleanup(seq)`, between `unlock` and `lock` -/
  | cleanup (seq : UInt32)
  /-- `lk.lock()` -/
  | relock
  /-- past the loop, with the entries still to clean up -/
  | exiting (rest : List (Int × UInt32))
  | exited
deriving DecidableEq

/-- The thread holds `timeout_mtx_` there. -/
def LoopPc.holdsLock : LoopPc → Bool
  | .top | .waitUntil _ | .expired _ => true
  | _ => false

/-- The client, the clock, the calls made so far and how they ended. The
`timeouts` are in the order of the map. -/
structure Client where
  now : Int := 0
  seqId : UInt32 := 0
  /-- whose promise is stored under a sequence number -/
  pending : UInt32 → Option ℕ := fun _ => none
  timeouts : List (Int × UInt32) := []
  timeoutStop : Bool := false
  loop : LoopPc := .start
  calls : List Call := []
  done : List (ℕ × Outcome) := []
  /-- passes of the `while` body that came to their end -/
  rounds : ℕ := 0
  /-- packets handed to the connection -/
  wire : List Packet := []

def init : Client := {}

/-! ## The operations -/

/-- `timeouts_[deadline] = seq`. -/
def insertDeadline (deadline : Int) (seq : UInt32) : List (Int × UInt32) → List (Int × UInt32)
  | [] => [(deadline, seq)]
  | e :: es =>
    if deadline < e.1 then (deadline, seq) :: e :: es
    else if deadline = e.1 then (deadline, seq) :: es
    else e :: insertDeadline deadline seq es

/-- The promise under `seq`, if any, is taken out and ends with `o`. -/
def Client.settle (c : Client) (seq : UInt32) (o : Outcome) : Client :=
  match c.pending seq with
  | some i =>
    { c with pending := Function.update c.pending seq none, done := c.done ++ [(i, o)] }
  | none => c

/-- `pending_[seq] = std::move(prom)`: a promise that was there is dropped. -/
def Client.store (c : Client) (seq : UInt32) (i : ℕ) : Client :=
  let c := c.settle seq .broken
  { c with pending := Function.update c.pending seq (some i) }

/-- The packet `Call` sends. -/
def requestPacket (req : Request) (seq : UInt32) : Packet where
  header := { length := UInt32.ofNat headerSize + UInt32.ofNat req.payload.length
              magic := magicValue
              cmdId := req.cmdId
              seqId := seq
              flags := flagRpcReq }
  payload := req.payload

/-- `OnPacket`. -/
def Client.onPacket (c : Client) (pkt : Packet) : Client :=
  if pkt.header.seqId = 0 then c else c.settle pkt.header.seqId (.reply pkt)

/-- `TimeoutCleanup`. -/
def Client.timeoutCleanup (c : Client) (seq : UInt32) : Client := c.settle seq .timedOut

/-- The predicate of both waits: `timeout_stop_ || !timeouts_.empty()`. -/
def Client.wake (c : Client) : Bool := c.timeoutStop || !c.timeouts.isEmpty

/-- After a wait that returned true: `if (timeout_stop_) break; continue;`. -/
def Client.afterWait (c : Client) : Client :=
  if c.timeoutStop then { c with loop := .exiting c.timeouts }
  else { c with loop := .top, rounds := c.rounds + 1 }

/-- One step of `TimeoutLoop`. A wait evaluates its predicate before it blocks,
and again on every wakeup. -/
def Client.loopStep (c : Client) : Option Client :=
  match c.loop with
  | .start => some { c with loop := .top }
  | .top =>
    if c.timeoutStop then some { c with loop := .exiting c.timeouts }
    else match c.timeouts with
      | [] => some { c with loop := .waitEmpty }
      | e :: _ => some { c with loop := .waitUntil e.1 }
  | .waitEmpty =>
    if c.wake then
      -- `continue`, and the `while` looks at `timeout_stop_`
      some { c with loop := .top, rounds := c.rounds + 1 }
    else some c
  | .waitUntil deadline =>
    if c.wake then some c.afterWait else some { c with loop := .blocked deadline }
  | .blocked deadline =>
    if c.wake then some c.afterWait
    else if deadline ≤ c.now then some { c with loop := .expired deadline }
    else some c
  | .expired deadline =>
    match c.timeouts.lookup deadline with
    | some seq =>
      some { c with timeouts := c.timeouts.filter (·.1 ≠ deadline), loop := .cleanup seq }
    | none => none
  | .cleanup seq => some { c.timeoutCleanup seq with loop := .relock }
  | .relock => some { c with loop := .top, rounds := c.rounds + 1 }
  | .exiting [] => some { c with loop := .exited }
  | .exiting (e :: es) => some { c.timeoutCleanup e.2 with loop := .exiting es }
  | .exited => none

/-- What can happen to a client. -/
inductive Event where
  /-- a thread enters `Call` and takes a sequence number -/
  | call (req : Request)
  | store (i : ℕ)
  /-- `conn_ && conn_->SendPacket(pkt)` and what it returns -/
  | send (i : ℕ) (ok : Bool)
  /-- `if (timeout.count() > 0)`, with the clock reading -/
  | arm (i : ℕ)
  /-- `timeouts_[deadline] = seq` under `timeout_mtx_` -/
  | register (i : ℕ)
  | packet (pkt : Packet)
  | loop
  | tick (dt : ℕ)
  /-- the destructor sets `timeout_stop_` under `timeout_mtx_` -/
  | stop
  /-- the destructor, past the join, ends all pending calls -/
  | destroy
deriving DecidableEq

/-- A step of call `i` at program counter `pc`. -/
def Client.callStep (c : Client) (i : ℕ) (pc : CallPc) (f : Call → Client) : Option Client :=
  match c.calls[i]? with
  | some call => if call.pc = pc then some (f call) else none
  | none => none

/-- Call `i` becomes `call`. -/
def Client.setCall (c : Client) (i : ℕ) (call : Call) : Client :=
  { c with calls := c.calls.set i call }

def next (c : Client) : Event → Option Client
  | .call req =>
    some { c with seqId := c.seqId + 1, calls := c.calls ++ [{ req, seq := c.seqId + 1 }] }
  | .store i => c.callStep i .numbered fun call =>
      (c.store call.seq i).setCall i { call with pc := .stored }
  | .send i ok => c.callStep i .stored fun call =>
      if ok then
        { c.setCall i { call with pc := .sent } with
          wire := c.wire ++ [requestPacket call.req call.seq] }
      else (c.settle call.seq .broken).setCall i { call with pc := .threw }
  | .arm i => c.callStep i .sent fun call =>
      if 0 < call.req.timeout then
        c.setCall i { call with pc := .arming, deadline := c.now + call.req.timeout * 1000000 }
      else c.setCall i { call with pc := .returned }
  | .register i =>
    if c.loop.holdsLock then none
    else c.callStep i .arming fun call =>
      { c.setCall i { call with pc := .armed } with
        timeouts := insertDeadline call.deadline call.seq c.timeouts }
  | .packet pkt => some (c.onPacket pkt)
  | .loop => c.loopStep
  | .tick dt => some { c with now := c.now + dt }
  | .stop => if c.loop.holdsLock then none else some { c with timeoutStop := true }
  | .destroy =>
    if c.loop = .exited then
      let open_ := (List.range c.calls.length).filter fun i =>
        c.calls[i]?.any fun call => c.pending call.seq = some i
      some { c with pending := fun _ => none, done := c.done ++ open_.map (·, .destroyed) }
    else none

/-- The events of a client that is in use: all but the destructor's. -/
def Event.inUse : Event → Bool
  | .stop | .destroy => false
  | _ => true

/-! ## What a step does -/

section Steps

variable {c c' : Client} {i : ℕ} {pc : CallPc} {f : Call → Client}

theorem callStep_eq_some :
    c.callStep i pc f = some c' ↔
      ∃ call, c.calls[i]? = some call ∧ call.pc = pc ∧ f call = c' := by
  unfold Client.callStep
  cases c.calls[i]? with
  | none => simp
  | some call => by_cases h : call.pc = pc <;> simp [h]

/-- A settled promise leaves `pending_` and joins `done`; nothing else moves. -/
theorem settle_cases (c : Client) (seq : UInt32) (o : Outcome) :
    (c.pending seq = none ∧ c.settle seq o = c) ∨
      ∃ i, c.pending seq = some i ∧ c.settle seq o =
        { c with pending := Function.update c.pending seq none, done := c.done ++ [(i, o)] } := by
  unfold Client.settle
  cases h : c.pending seq with
  | none => exact Or.inl ⟨rfl, rfl⟩
  | some i => exact Or.inr ⟨i, rfl, rfl⟩

@[simp] theorem settle_calls (seq : UInt32) (o : Outcome) : (c.settle seq o).calls = c.calls := by
  rcases settle_cases c seq o with ⟨-, h⟩ | ⟨i, -, h⟩ <;> rw [h]

@[simp] theorem settle_loop (seq : UInt32) (o : Outcome) : (c.settle seq o).loop = c.loop := by
  rcases settle_cases c seq o with ⟨-, h⟩ | ⟨i, -, h⟩ <;> rw [h]

@[simp] theorem settle_timeouts (seq : UInt32) (o : Outcome) :
    (c.settle seq o).timeouts = c.timeouts := by
  rcases settle_cases c seq o with ⟨-, h⟩ | ⟨i, -, h⟩ <;> rw [h]

@[simp] theorem settle_timeoutStop (seq : UInt32) (o : Outcome) :
    (c.settle seq o).timeoutStop = c.timeoutStop := by
  rcases settle_cases c seq o with ⟨-, h⟩ | ⟨i, -, h⟩ <;> rw [h]

theorem insertDeadline_ne_nil (deadline : Int) (seq : UInt32) (es : List (Int × UInt32)) :
    insertDeadline deadline seq es ≠ [] := by
  cases es with
  | nil => exact List.cons_ne_nil _ _
  | cons e es =>
    unfold insertDeadline
    split_ifs <;> exact List.cons_ne_nil _ _

/-- The call found at an index after `setCall`. -/
theorem getElem?_setCall {call d : Call} {j : ℕ} (hcall : c.calls[i]? = some call) :
    (c.setCall i d).calls[j]? = if j = i then some d else c.calls[j]? :=
  getElem?_set_at hcall

end Steps

/-! ## A promise ends at most once -/

/-- The promises in `pending_` are those of calls past their store, each under
its own number, and none of them has ended. -/
structure Sound (c : Client) : Prop where
  owner : ∀ s i, c.pending s = some i →
    ∃ call, c.calls[i]? = some call ∧ call.seq = s ∧ call.pc ≠ .numbered
  unfinished : ∀ s i, c.pending s = some i → i ∉ c.done.map Prod.fst
  unstored : ∀ (i : ℕ) (call : Call), c.calls[i]? = some call → call.pc = .numbered →
    i ∉ c.done.map Prod.fst
  known : ∀ i ∈ c.done.map Prod.fst, i < c.calls.length
  nodup : (c.done.map Prod.fst).Nodup

theorem sound_init : Sound init := by
  constructor <;> simp [init]

section SoundSteps

variable {c c' : Client}

theorem Sound.settle (h : Sound c) (seq : UInt32) (o : Outcome) : Sound (c.settle seq o) := by
  rcases settle_cases c seq o with ⟨-, heq⟩ | ⟨i, hi, heq⟩
  · rwa [heq]
  obtain ⟨call, hcall, hseq, hpc⟩ := h.owner seq i hi
  have hlt : i < c.calls.length := List.getElem?_eq_some_iff.mp hcall |>.1
  -- an entry that stays was under another number, hence belongs to another call
  have hstays : ∀ s j, Function.update c.pending seq none s = some j →
      c.pending s = some j ∧ j ≠ i := by
    intro s j hj
    by_cases hs : s = seq
    · simp [hs] at hj
    · rw [Function.update_of_ne hs] at hj
      refine ⟨hj, ?_⟩
      rintro rfl
      obtain ⟨call', hcall', hseq', -⟩ := h.owner s j hj
      rw [hcall] at hcall'
      exact hs (by rw [← hseq', ← hseq, Option.some.inj hcall'])
  have hdone : (c.done ++ [(i, o)]).map Prod.fst = c.done.map Prod.fst ++ [i] := by simp
  rw [heq]
  constructor
  · intro s j hj
    exact h.owner s j (hstays s j hj).1
  · intro s j hj
    rw [hdone, List.mem_append, List.mem_singleton, not_or]
    exact ⟨h.unfinished s j (hstays s j hj).1, (hstays s j hj).2⟩
  · intro j call' hcall' hpc'
    rw [hdone, List.mem_append, List.mem_singleton, not_or]
    refine ⟨h.unstored j call' hcall' hpc', ?_⟩
    rintro rfl
    rw [hcall] at hcall'
    exact hpc (Option.some.inj hcall' ▸ hpc')
  · intro j hj
    rw [hdone, List.mem_append, List.mem_singleton] at hj
    rcases hj with hj | rfl
    · exact h.known j hj
    · exact hlt
  · rw [hdone, List.nodup_append]
    refine ⟨h.nodup, List.nodup_singleton i, ?_⟩
    rintro j hj _ hj' rfl
    rw [List.mem_singleton] at hj'
    exact h.unfinished seq i hi (hj' ▸ hj)

/-- A call moves on, past its store. -/
theorem Sound.setCall (h : Sound c) {i : ℕ} {call d : Call} (hcall : c.calls[i]? = some call)
    (hseq : d.seq = call.seq) (hpc : d.pc ≠ .numbered) : Sound (c.setCall i d) := by
  refine ⟨?_, h.unfinished, forall_set hcall (fun hnum => absurd hnum hpc) h.unstored, ?_, h.nodup⟩
  · intro s j hj
    obtain ⟨call'', hcall'', hseq'', hpc''⟩ := h.owner s j hj
    by_cases hij : j = i
    · subst hij
      rw [hcall] at hcall''
      refine ⟨d, by rw [getElem?_setCall hcall, if_pos rfl], ?_, hpc⟩
      rw [hseq, Option.some.inj hcall'', hseq'']
    · exact ⟨call'', by rw [getElem?_setCall hcall, if_neg hij, hcall''], hseq'', hpc''⟩
  · intro j hj
    simpa [Client.setCall] using h.known j hj

/-- A call stores its promise under its own number. -/
theorem Sound.store (h : Sound c) {i : ℕ} {call : Call} (hcall : c.calls[i]? = some call)
    (hpc : call.pc = .numbered) :
    Sound ((c.store call.seq i).setCall i { call with pc := .stored }) := by
  have hs := h.settle call.seq .broken
  have hcalls : (c.settle call.seq .broken).calls[i]? = some call := by rw [settle_calls, hcall]
  have hnot : i ∉ (c.settle call.seq .broken).done.map Prod.fst := hs.unstored i call hcalls hpc
  have hget := fun j => getElem?_setCall (c := c.store call.seq i)
    (d := { call with pc := .stored }) (j := j) hcalls
  refine ⟨?_, ?_, forall_set hcalls (by simp) hs.unstored, ?_, hs.nodup⟩
  · intro s j hj
    change Function.update (c.settle call.seq .broken).pending call.seq (some i) s = some j at hj
    by_cases hsq : s = call.seq
    · rw [hsq, Function.update_self, Option.some.injEq] at hj
      exact ⟨{ call with pc := .stored }, by rw [hget, if_pos hj.symm], hsq.symm, by simp⟩
    · rw [Function.update_of_ne hsq] at hj
      obtain ⟨call', hcall', hseq', hpc'⟩ := hs.owner s j hj
      have hij : j ≠ i := by
        rintro rfl
        rw [hcalls] at hcall'
        exact hpc' (Option.some.inj hcall' ▸ hpc)
      exact ⟨call', by rw [hget, if_neg hij]; exact hcall', hseq', hpc'⟩
  · intro s j hj
    change Function.update (c.settle call.seq .broken).pending call.seq (some i) s = some j at hj
    by_cases hsq : s = call.seq
    · rw [hsq, Function.update_self, Option.some.injEq] at hj
      exact hj ▸ hnot
    · rw [Function.update_of_ne hsq] at hj
      exact hs.unfinished s j hj
  · intro j hj
    simpa [Client.setCall, Client.store] using hs.known j hj

theorem Sound.loopStep (h : Sound c) (hstep : c.loopStep = some c') : Sound c' := by
  unfold Client.loopStep at hstep
  have hafter : Sound c.afterWait := by
    unfold Client.afterWait
    split_ifs <;> exact ⟨h.owner, h.unfinished, h.unstored, h.known, h.nodup⟩
  have hsettle : ∀ seq pc, Sound { c.timeoutCleanup seq with loop := pc } := fun seq pc =>
    have hs := h.settle seq .timedOut
    ⟨hs.owner, hs.unfinished, hs.unstored, hs.known, hs.nodup⟩
  split at hstep
  all_goals repeat' split at hstep
  all_goals cases hstep
  all_goals
    first
    | exact hafter
    | exact hsettle _ _
    | exact ⟨h.owner, h.unfinished, h.unstored, h.known, h.nodup⟩

theorem Sound.next (h : Sound c) {e : Event} (huse : e.inUse) (hstep : next c e = some c') :
    Sound c' := by
  cases e with
  | call req =>
    cases hstep
    constructor
    · intro s i hi
      obtain ⟨call, hcall, hrest⟩ := h.owner s i hi
      exact ⟨call, by rw [List.getElem?_append_left (List.getElem?_eq_some_iff.mp hcall).1, hcall],
        hrest⟩
    · exact h.unfinished
    · intro i call hcall hpc hmem
      have hlt := h.known i hmem
      rw [List.getElem?_append_left hlt] at hcall
      exact h.unstored i call hcall hpc hmem
    · intro i hi
      rw [List.length_append]
      exact Nat.lt_add_right _ (h.known i hi)
    · exact h.nodup
  | store i =>
    obtain ⟨call, hcall, hpc, rfl⟩ := callStep_eq_some.mp hstep
    exact h.store hcall hpc
  | send i ok =>
    obtain ⟨call, hcall, hpc, rfl⟩ := callStep_eq_some.mp hstep
    cases ok with
    | true =>
      have hs := h.setCall hcall (d := { call with pc := .sent }) rfl (by simp)
      exact ⟨hs.owner, hs.unfinished, hs.unstored, hs.known, hs.nodup⟩
    | false =>
      have hcall' : (c.settle call.seq .broken).calls[i]? = some call := by rw [settle_calls, hcall]
      exact (h.settle call.seq .broken).setCall hcall' (d := { call with pc := .threw }) rfl
        (by simp)
  | arm i =>
    obtain ⟨call, hcall, hpc, rfl⟩ := callStep_eq_some.mp hstep
    split_ifs
    · exact h.setCall hcall rfl (by simp)
    · exact h.setCall hcall rfl (by simp)
  | register i =>
    simp only [Cpp.next] at hstep
    split_ifs at hstep
    obtain ⟨call, hcall, hpc, rfl⟩ := callStep_eq_some.mp hstep
    have hs := h.setCall hcall (d := { call with pc := .armed }) rfl (by simp)
    exact ⟨hs.owner, hs.unfinished, hs.unstored, hs.known, hs.nodup⟩
  | packet pkt =>
    cases hstep
    unfold Client.onPacket
    split_ifs
    · exact h
    · exact h.settle _ _
  | loop => exact h.loopStep hstep
  | tick dt =>
    cases hstep
    exact ⟨h.owner, h.unfinished, h.unstored, h.known, h.nodup⟩
  | stop => cases huse
  | destroy => cases huse

end SoundSteps

/-! ## The timeout thread -/

/-- The thread goes round with the mutex held, as long as the client is in use. -/
structure Stuck (c : Client) : Prop where
  running : c.timeoutStop = false
  pc : c.loop = .top ∨ ∃ d, c.loop = .waitUntil d
  deadline : c.timeouts ≠ []

theorem Stuck.holdsLock {c : Client} (h : Stuck c) : c.loop.holdsLock := by
  rcases h.pc with hpc | ⟨d, hpc⟩ <;> simp [hpc, LoopPc.holdsLock]

theorem wake_of_timeouts {c : Client} (h : c.timeouts ≠ []) : c.wake = true := by
  simp [Client.wake, h]

/-- The predicate of `wait_until` holds whenever there is a deadline. -/
theorem stuck_loopStep {c c' : Client} (h : Stuck c) (hstep : c.loopStep = some c') :
    Stuck c' := by
  unfold Client.loopStep at hstep
  rcases h.pc with hpc | ⟨d, hpc⟩
  · obtain ⟨e, es, htimeouts⟩ := List.exists_cons_of_ne_nil h.deadline
    simp only [hpc, h.running, htimeouts, Bool.false_eq_true, if_false] at hstep
    cases hstep
    exact ⟨rfl, Or.inr ⟨e.1, rfl⟩, List.cons_ne_nil _ _⟩
  · simp only [hpc, wake_of_timeouts h.deadline, if_true, Client.afterWait, h.running,
      Bool.false_eq_true, if_false] at hstep
    cases hstep
    exact ⟨rfl, Or.inl rfl, h.deadline⟩

/-- A step of anything else leaves the thread where it is; it touches the
deadlines only to register one. -/
theorem next_thread {c c' : Client} {e : Event} (huse : e.inUse) (hloop : e ≠ .loop)
    (hstep : next c e = some c') :
    c'.timeoutStop = c.timeoutStop ∧ c'.loop = c.loop ∧
      (c'.timeouts = c.timeouts ∨ (∃ i, e = .register i) ∧ c'.timeouts ≠ []) := by
  cases e with
  | call req => cases hstep; exact ⟨rfl, rfl, Or.inl rfl⟩
  | store i =>
    obtain ⟨call, -, -, rfl⟩ := callStep_eq_some.mp hstep
    simp [Client.setCall, Client.store]
  | send i ok =>
    obtain ⟨call, -, -, rfl⟩ := callStep_eq_some.mp hstep
    cases ok <;> simp [Client.setCall]
  | arm i =>
    obtain ⟨call, -, -, rfl⟩ := callStep_eq_some.mp hstep
    split_ifs <;> exact ⟨rfl, rfl, Or.inl rfl⟩
  | register i =>
    simp only [Cpp.next] at hstep
    split_ifs at hstep
    obtain ⟨call, -, -, rfl⟩ := callStep_eq_some.mp hstep
    exact ⟨rfl, rfl, Or.inr ⟨⟨i, rfl⟩, insertDeadline_ne_nil _ _ _⟩⟩
  | packet pkt =>
    cases hstep
    unfold Client.onPacket
    split_ifs <;> simp
  | loop => exact absurd rfl hloop
  | tick dt => cases hstep; exact ⟨rfl, rfl, Or.inl rfl⟩
  | stop => cases huse
  | destroy => cases huse

theorem Stuck.next {c c' : Client} {e : Event} (h : Stuck c) (huse : e.inUse)
    (hstep : next c e = some c') : Stuck c' := by
  by_cases hloop : e = .loop
  · subst hloop
    exact stuck_loopStep h hstep
  · obtain ⟨hstop, hpc, hdeadline⟩ := next_thread huse hloop hstep
    refine ⟨hstop.trans h.running, hpc ▸ h.pc, ?_⟩
    rcases hdeadline with hsame | ⟨-, hne⟩
    · exact hsame ▸ h.deadline
    · exact hne

/-! ## Calls along a run -/

/-- No timed call gets its packet sent. -/
def NoTimedSend (c : Client) : Event → Prop
  | .send i true => (c.calls[i]?.all fun call => call.req.timeout ≤ 0) = true
  | _ => True

instance (c : Client) (e : Event) : Decidable (NoTimedSend c e) := by
  unfold NoTimedSend
  split <;> infer_instance

/-- How the calls change: one is added, or one of them moves on. -/
theorem next_calls {c c' : Client} {e : Event} (hstep : next c e = some c') :
    (NoTimedSend c e ∧ c'.calls = c.calls) ∨
      (NoTimedSend c e ∧ ∃ req, c'.calls = c.calls ++ [{ req, seq := c.seqId + 1 }]) ∨
      ∃ i call call', c.calls[i]? = some call ∧ c'.calls = c.calls.set i call' ∧
        call'.req = call.req ∧
        ((e = .store i ∧ call.pc = .numbered ∧ call'.pc = .stored) ∨
          (e = .send i true ∧ call.pc = .stored ∧ call'.pc = .sent) ∨
          (e = .send i false ∧ call.pc = .stored ∧ call'.pc = .threw) ∨
          (e = .arm i ∧ call.pc = .sent ∧ call'.pc = .arming ∧ 0 < call.req.timeout) ∨
          (e = .arm i ∧ call.pc = .sent ∧ call'.pc = .returned ∧ ¬ 0 < call.req.timeout) ∨
          (e = .register i ∧ call.pc = .arming ∧ call'.pc = .armed ∧ c'.timeouts ≠ [])) := by
  cases e with
  | call req => cases hstep; exact Or.inr (Or.inl ⟨trivial, req, rfl⟩)
  | store i =>
    obtain ⟨call, hcall, hpc, rfl⟩ := callStep_eq_some.mp hstep
    exact Or.inr (Or.inr ⟨i, call, { call with pc := .stored }, hcall,
      by simp [Client.setCall, Client.store], rfl, Or.inl ⟨rfl, hpc, rfl⟩⟩)
  | send i ok =>
    obtain ⟨call, hcall, hpc, rfl⟩ := callStep_eq_some.mp hstep
    cases ok with
    | true =>
      exact Or.inr (Or.inr ⟨i, call, { call with pc := .sent }, hcall, rfl, rfl,
        Or.inr (Or.inl ⟨rfl, hpc, rfl⟩)⟩)
    | false =>
      exact Or.inr (Or.inr ⟨i, call, { call with pc := .threw }, hcall,
        by simp [Client.setCall], rfl, Or.inr (Or.inr (Or.inl ⟨rfl, hpc, rfl⟩))⟩)
  | arm i =>
    obtain ⟨call, hcall, hpc, rfl⟩ := callStep_eq_some.mp hstep
    split_ifs with htimed
    · exact Or.inr (Or.inr ⟨i, call, _, hcall, rfl, rfl, by simp [hpc, htimed]⟩)
    · exact Or.inr (Or.inr ⟨i, call, _, hcall, rfl, rfl, by simp [hpc, htimed]⟩)
  | register i =>
    simp only [Cpp.next] at hstep
    split_ifs at hstep
    obtain ⟨call, hcall, hpc, rfl⟩ := callStep_eq_some.mp hstep
    exact Or.inr (Or.inr ⟨i, call, { call with pc := .armed }, hcall, rfl, rfl,
      by simp [hpc, insertDeadline_ne_nil]⟩)
  | packet pkt =>
    cases hstep
    refine Or.inl ⟨trivial, ?_⟩
    unfold Client.onPacket
    split_ifs <;> simp
  | loop =>
    refine Or.inl ⟨trivial, ?_⟩
    simp only [Cpp.next, Client.loopStep] at hstep
    split at hstep
    all_goals repeat' split at hstep
    all_goals cases hstep
    all_goals first | rfl | simp [Client.timeoutCleanup] | skip
    all_goals unfold Client.afterWait; split_ifs <;> rfl
  | tick dt => cases hstep; exact Or.inl ⟨trivial, rfl⟩
  | stop =>
    simp only [Cpp.next] at hstep
    split_ifs at hstep
    cases hstep
    exact Or.inl ⟨trivial, rfl⟩
  | destroy =>
    simp only [Cpp.next] at hstep
    split_ifs at hstep
    cases hstep
    exact Or.inl ⟨trivial, rfl⟩

/-- The call has a positive timeout and its packet has been sent. -/
def Call.TimedSent (call : Call) : Prop :=
  0 < call.req.timeout ∧ call.pc ≠ .numbered ∧ call.pc ≠ .stored ∧ call.pc ≠ .threw

/-- Some timed call has got its packet sent. -/
def TimedSent (c : Client) : Prop := ∃ call ∈ c.calls, call.TimedSent

/-- A timed call has been sent after a step exactly when one was before, or the
step sends one. -/
theorem timedSent_next {c c' : Client} {e : Event} (hstep : next c e = some c') :
    TimedSent c' ↔ TimedSent c ∨ ¬ NoTimedSend c e := by
  unfold TimedSent
  rcases next_calls hstep with ⟨hno, hcalls⟩ | ⟨hno, req, hcalls⟩ |
    ⟨i, call, call', hcall, hcalls, hreq, hmove⟩
  · simp only [hcalls, hno, not_true, or_false]
  · simp [hcalls, hno, Call.TimedSent]
  · -- the other calls are not touched, so only call `i` matters
    have hsame : c.calls.set i call = c.calls := set_same hcall
    have hafter := exists_mem_set_iff (y := call') (P := Call.TimedSent) hcall
    have hbefore := exists_mem_set_iff (y := call) (P := Call.TimedSent) hcall
    rw [hsame] at hbefore
    rw [hcalls, hafter, hbefore]
    rcases hmove with ⟨rfl, hpc, hpc'⟩ | ⟨rfl, hpc, hpc'⟩ | ⟨rfl, hpc, hpc'⟩ |
      ⟨rfl, hpc, hpc', -⟩ | ⟨rfl, hpc, hpc', -⟩ | ⟨rfl, hpc, hpc', -⟩
    · simp [Call.TimedSent, hpc, hpc', NoTimedSend]
    · simp [Call.TimedSent, hpc, hpc', NoTimedSend, hcall, hreq, or_comm]
    · simp [Call.TimedSent, hpc, hpc', NoTimedSend]
    · simp [Call.TimedSent, hpc, hpc', NoTimedSend, hreq]
    · simp [Call.TimedSent, hpc, hpc', NoTimedSend, hreq]
    · simp [Call.TimedSent, hpc, hpc', NoTimedSend, hreq]

/-! ## A client in use -/

/-- Nobody has asked the thread to stop, and it calls `wait_until` only with a
deadline in the map: so it is never blocked there and never cleans up. Deadlines
come from timed calls only. -/
structure InUse (c : Client) : Prop where
  running : c.timeoutStop = false
  pc : c.loop = .start ∨ c.loop = .top ∨ c.loop = .waitEmpty ∨
    (∃ d, c.loop = .waitUntil d) ∧ c.timeouts ≠ []
  armed : ∀ call ∈ c.calls, call.pc = .armed → c.timeouts ≠ []
  timed : ∀ call ∈ c.calls, call.pc = .arming ∨ call.pc = .armed → 0 < call.req.timeout
  untimed : ∀ call ∈ c.calls, call.pc = .returned → ¬ 0 < call.req.timeout
  indexed : c.timeouts ≠ [] → TimedSent c

theorem inUse_init : InUse init := by
  constructor <;> simp [init]

/-- What the thread can do while the client is in use. -/
theorem InUse.loopStep {c c' : Client} (h : InUse c) (hstep : c.loopStep = some c') :
    c'.timeoutStop = false ∧ c'.timeouts = c.timeouts ∧ c'.calls = c.calls ∧ c'.done = c.done ∧
      (c'.loop = .start ∨ c'.loop = .top ∨ c'.loop = .waitEmpty ∨
        (∃ d, c'.loop = .waitUntil d) ∧ c'.timeouts ≠ []) := by
  have hrun := h.running
  unfold Client.loopStep at hstep
  rcases h.pc with hpc | hpc | hpc | ⟨⟨d, hpc⟩, hne⟩
  · simp only [hpc] at hstep
    cases hstep
    exact ⟨hrun, rfl, rfl, rfl, Or.inr (Or.inl rfl)⟩
  · simp only [hpc, hrun, Bool.false_eq_true, if_false] at hstep
    cases htimeouts : c.timeouts with
    | nil =>
      simp only [htimeouts] at hstep
      cases hstep
      exact ⟨rfl, rfl, rfl, rfl, Or.inr (Or.inr (Or.inl rfl))⟩
    | cons e es =>
      simp only [htimeouts] at hstep
      cases hstep
      exact ⟨rfl, rfl, rfl, rfl, Or.inr (Or.inr (Or.inr ⟨⟨e.1, rfl⟩, List.cons_ne_nil _ _⟩))⟩
  · simp only [hpc] at hstep
    split_ifs at hstep
    · cases hstep
      exact ⟨hrun, rfl, rfl, rfl, Or.inr (Or.inl rfl)⟩
    · cases hstep
      exact ⟨hrun, rfl, rfl, rfl, Or.inr (Or.inr (Or.inl hpc))⟩
  · simp only [hpc, wake_of_timeouts hne, if_true, Client.afterWait, hrun, Bool.false_eq_true,
      if_false] at hstep
    cases hstep
    exact ⟨rfl, rfl, rfl, rfl, Or.inr (Or.inl rfl)⟩

/-- The facts about single calls that an in-use client keeps. -/
theorem InUse.next_call {c c' : Client} {e : Event} (h : InUse c) (hstep : next c e = some c')
    (hkeep : c.timeouts ≠ [] → c'.timeouts ≠ []) :
    ∀ call ∈ c'.calls, (call.pc = .armed → c'.timeouts ≠ []) ∧
      (call.pc = .arming ∨ call.pc = .armed → 0 < call.req.timeout) ∧
      (call.pc = .returned → ¬ 0 < call.req.timeout) := by
  have hold : ∀ call ∈ c.calls, (call.pc = .armed → c'.timeouts ≠ []) ∧
      (call.pc = .arming ∨ call.pc = .armed → 0 < call.req.timeout) ∧
      (call.pc = .returned → ¬ 0 < call.req.timeout) := fun call hmem =>
    ⟨fun hpc => hkeep (h.armed call hmem hpc), h.timed call hmem, h.untimed call hmem⟩
  intro call hmem
  rcases next_calls hstep with ⟨-, hcalls⟩ | ⟨-, req, hcalls⟩ |
    ⟨i, before, after, hbefore, hcalls, hreq, hmove⟩
  · exact hold call (hcalls ▸ hmem)
  · rw [hcalls, List.mem_append, List.mem_singleton] at hmem
    rcases hmem with hmem | rfl
    · exact hold call hmem
    · simp
  · rw [hcalls] at hmem
    rcases List.mem_or_eq_of_mem_set hmem with hmem | rfl
    · exact hold call hmem
    · have htimed := h.timed before (List.mem_of_getElem? hbefore)
      rcases hmove with ⟨-, -, hpc⟩ | ⟨-, -, hpc⟩ | ⟨-, -, hpc⟩ | ⟨-, -, hpc, hpos⟩ |
        ⟨-, -, hpc, hpos⟩ | ⟨-, hpc₀, hpc, hne⟩
      · simp [hpc]
      · simp [hpc]
      · simp [hpc]
      · simpa [hpc, hreq] using hpos
      · simpa [hpc, hreq] using hpos
      · simpa [hpc, hreq, hne] using htimed (Or.inl hpc₀)

/-- A client in use stays one. -/
theorem InUse.next {c c' : Client} {e : Event} (h : InUse c) (huse : e.inUse)
    (hstep : next c e = some c') : InUse c' := by
  have hsent := timedSent_next hstep
  by_cases hloop : e = .loop
  · subst hloop
    obtain ⟨hrun, htimeouts, hcalls, -, hpc⟩ := h.loopStep hstep
    refine ⟨hrun, hpc, ?_, ?_, ?_, fun hne => hsent.mpr (Or.inl (h.indexed (htimeouts ▸ hne)))⟩
    · rw [hcalls, htimeouts]
      exact h.armed
    · rw [hcalls]
      exact h.timed
    · rw [hcalls]
      exact h.untimed
  · obtain ⟨hstop, hpc, hdeadline⟩ := next_thread huse hloop hstep
    have hkeep : c.timeouts ≠ [] → c'.timeouts ≠ [] := by
      rcases hdeadline with hsame | ⟨-, hne⟩
      · exact hsame ▸ id
      · exact fun _ => hne
    have hcall := h.next_call hstep hkeep
    refine ⟨hstop.trans h.running, ?_, fun call hmem => (hcall call hmem).1,
      fun call hmem => (hcall call hmem).2.1, fun call hmem => (hcall call hmem).2.2, ?_⟩
    · rw [hpc]
      rcases h.pc with hpc | hpc | hpc | ⟨hpc, hne⟩
      · exact Or.inl hpc
      · exact Or.inr (Or.inl hpc)
      · exact Or.inr (Or.inr (Or.inl hpc))
      · exact Or.inr (Or.inr (Or.inr ⟨hpc, hkeep hne⟩))
    · intro hne
      rcases hdeadline with hsame | ⟨⟨i, rfl⟩, -⟩
      · exact hsent.mpr (Or.inl (h.indexed (hsame ▸ hne)))
      · -- the call that registers its deadline is a timed one
        simp only [Cpp.next] at hstep
        split_ifs at hstep
        obtain ⟨call, hget, hpc₀, rfl⟩ := callStep_eq_some.mp hstep
        have hmem := List.mem_of_getElem? hget
        exact hsent.mpr (Or.inl ⟨call, hmem, h.timed call hmem (Or.inl hpc₀), by simp [hpc₀]⟩)

/-! ## Timing out -/

/-- Call `i` is armed, unanswered, and its deadline has come. -/
def Expired (c : Client) (i : ℕ) : Prop :=
  ∃ call, c.calls[i]? = some call ∧ call.pc = .armed ∧ call.deadline ≤ c.now ∧
    c.pending call.seq = some i

/-- A way to go on in which the client stays in use and no further timed call is
sent: the thread, time, responses and the calls under way take their steps. -/
structure Quiet (c : Client) (es : List Event) : Prop where
  inUse : ∀ e ∈ es, e.inUse
  untimed : RunOk next NoTimedSend c es

/-- What a client owes to the calls made so far, however things go on:
* when a pass of `TimeoutLoop` has come to its end, no armed call is overdue in
  `pending_`;
* an overdue call gets completed by the thread, and no call is completed twice;
* the thread, left to itself, gives `timeout_mtx_` back. -/
structure TimesOut (c : Client) : Prop where
  round : ∀ es d d', Quiet c es → run next c es = some d → next d .loop = some d' →
    d'.rounds = d.rounds + 1 → ∀ i, ¬ Expired d' i
  completes : ∀ es d i, Quiet c es → run next c es = some d → Expired d i →
    ∃ n d', run next d (List.replicate n .loop) = some d' ∧ i ∈ d'.done.map Prod.fst
  once : ∀ es d, Quiet c es → run next c es = some d → (d.done.map Prod.fst).Nodup
  releases : ∀ es d, Quiet c es → run next c es = some d →
    ∃ n d', run next d (List.replicate n .loop) = some d' ∧ d'.loop.holdsLock = false

/-- A run of an in-use client ends with a timed call sent exactly when one had
been sent before, or the run sends one. -/
theorem timedSent_run {c d : Client} {es : List Event} (hrun : run next c es = some d) :
    ¬ TimedSent d ↔ ¬ TimedSent c ∧ RunOk next NoTimedSend c es := by
  induction es generalizing c with
  | nil => cases hrun; simp
  | cons e es ih =>
    obtain ⟨c', hstep, hrest⟩ := run_cons_eq_some.mp hrun
    rw [ih hrest, timedSent_next hstep, not_or, not_not, and_assoc]
    refine and_congr_right fun _ => and_congr_right fun _ => ?_
    constructor
    · intro hok c'' hc''
      rw [hstep] at hc''
      exact Option.some.inj hc'' ▸ hok
    · intro hok
      exact hok c' hstep

theorem inUse_run {c d : Client} {es : List Event} (h : InUse c) (huse : ∀ e ∈ es, e.inUse)
    (hrun : run next c es = some d) : InUse d :=
  run_invariant (P := fun _ e => e.inUse) (fun _ _ _ huse h hstep => h.next huse hstep) h
    (runOk_of_forall huse) hrun

theorem sound_run {c d : Client} {es : List Event} (h : Sound c) (huse : ∀ e ∈ es, e.inUse)
    (hrun : run next c es = some d) : Sound d :=
  run_invariant (P := fun _ e => e.inUse) (fun _ _ _ huse h hstep => h.next huse hstep) h
    (runOk_of_forall huse) hrun

theorem stuck_run {c d : Client} {es : List Event} (h : Stuck c) (huse : ∀ e ∈ es, e.inUse)
    (hrun : run next c es = some d) : Stuck d :=
  run_invariant (P := fun _ e => e.inUse) (fun _ _ _ huse h hstep => h.next huse hstep) h
    (runOk_of_forall huse) hrun

/-- Without a timed call there is nothing overdue. -/
theorem not_expired {c : Client} (h : InUse c) (hno : ¬ TimedSent c) (i : ℕ) : ¬ Expired c i := by
  rintro ⟨call, hcall, hpc, -, -⟩
  have hmem := List.mem_of_getElem? hcall
  exact hno ⟨call, hmem, h.timed call hmem (Or.inr hpc), by simp [hpc]⟩

/-- Without a deadline the thread is never more than one step from giving the
mutex back. -/
theorem releases_of_no_deadline {c : Client} (h : InUse c) (hno : c.timeouts = []) :
    ∃ n d, run next c (List.replicate n .loop) = some d ∧ d.loop.holdsLock = false := by
  rcases h.pc with hpc | hpc | hpc | ⟨-, hne⟩
  · exact ⟨0, c, rfl, by rw [hpc]; rfl⟩
  · refine ⟨1, { c with loop := .waitEmpty }, ?_, rfl⟩
    simp [run_cons, next, Client.loopStep, hpc, h.running, hno]
  · exact ⟨0, c, rfl, by rw [hpc]; rfl⟩
  · exact absurd hno hne

/-- As long as no timed call is sent, the client meets its obligations. -/
theorem timesOut_of_untimed {c : Client} (hs : Sound c) (h : InUse c) (hno : ¬ TimedSent c) :
    TimesOut c := by
  have hkeep : ∀ es d, Quiet c es → run next c es = some d → InUse d ∧ ¬ TimedSent d :=
    fun es d hq hrun => ⟨inUse_run h hq.inUse hrun, (timedSent_run hrun).mpr ⟨hno, hq.untimed⟩⟩
  constructor
  · intro es d d' hq hrun hstep _ i
    obtain ⟨hd, hnod⟩ := hkeep es d hq hrun
    refine not_expired (hd.next rfl hstep) ?_ i
    rw [timedSent_next hstep, not_or, not_not]
    exact ⟨hnod, trivial⟩
  · intro es d i hq hrun hexp
    obtain ⟨hd, hnod⟩ := hkeep es d hq hrun
    exact absurd hexp (not_expired hd hnod i)
  · intro es d hq hrun
    exact (sound_run hs hq.inUse hrun).nodup
  · intro es d hq hrun
    obtain ⟨hd, hnod⟩ := hkeep es d hq hrun
    exact releases_of_no_deadline hd (by_contra fun hne => hnod (hd.indexed hne))

/-- With a deadline in the map the thread gets stuck at its next chance. -/
theorem exists_stuck_of_deadline {c : Client} (h : InUse c) (hne : c.timeouts ≠ []) :
    ∃ es d, Quiet c es ∧ run next c es = some d ∧ Stuck d := by
  have hloop : Quiet c [.loop] := ⟨by simp [Event.inUse], by simp [RunOk, NoTimedSend]⟩
  have hnil : Quiet c [] := ⟨by simp, trivial⟩
  rcases h.pc with hpc | hpc | hpc | ⟨hpc, -⟩
  · refine ⟨[.loop], { c with loop := .top }, hloop, ?_, h.running, Or.inl rfl, hne⟩
    simp [run_cons, next, Client.loopStep, hpc]
  · exact ⟨[], c, hnil, rfl, h.running, Or.inl hpc, hne⟩
  · refine ⟨[.loop], { c with loop := .top, rounds := c.rounds + 1 }, hloop, ?_, h.running,
      Or.inl rfl, hne⟩
    simp [run_cons, next, Client.loopStep, hpc, wake_of_timeouts hne]
  · exact ⟨[], c, hnil, rfl, h.running, Or.inr hpc, hne⟩

/-- Whatever leads to a state that can get stuck can get stuck. -/
theorem exists_stuck_of_step {c c' : Client} {e : Event} (hstep : next c e = some c')
    (huse : e.inUse) (hno : NoTimedSend c e)
    (h : ∃ es d, Quiet c' es ∧ run next c' es = some d ∧ Stuck d) :
    ∃ es d, Quiet c es ∧ run next c es = some d ∧ Stuck d := by
  obtain ⟨es, d, hq, hrun, hstuck⟩ := h
  refine ⟨e :: es, d, ⟨?_, hno, ?_⟩, run_cons_eq_some.mpr ⟨c', hstep, hrun⟩, hstuck⟩
  · intro e' he'
    rcases List.mem_cons.mp he' with rfl | he'
    · exact huse
    · exact hq.inUse e' he'
  · intro c'' hc''
    rw [hstep] at hc''
    exact Option.some.inj hc'' ▸ hq.untimed

/-- A call that has computed its deadline registers it as soon as it gets the
mutex. -/
theorem exists_stuck_of_arming {c : Client} (h : InUse c) {i : ℕ} {call : Call}
    (hcall : c.calls[i]? = some call) (hpc : call.pc = .arming) :
    ∃ es d, Quiet c es ∧ run next c es = some d ∧ Stuck d := by
  by_cases hne : c.timeouts ≠ []
  · exact exists_stuck_of_deadline h hne
  have hnil : c.timeouts = [] := not_not.mp hne
  -- from a state where the mutex is free
  have hfree : ∀ b : Client, InUse b → b.calls = c.calls → b.loop.holdsLock = false →
      ∃ es d, Quiet b es ∧ run next b es = some d ∧ Stuck d := by
    intro b hb hcalls hlock
    have hstep : next b (.register i) = some
        { b.setCall i { call with pc := .armed } with
          timeouts := insertDeadline call.deadline call.seq b.timeouts } := by
      simp [next, hlock, Client.callStep, hcalls, hcall, hpc]
    exact exists_stuck_of_step hstep rfl trivial
      (exists_stuck_of_deadline (hb.next rfl hstep) (insertDeadline_ne_nil _ _ _))
  rcases h.pc with hloop | hloop | hloop | ⟨-, hdeadline⟩
  · exact hfree c h rfl (by rw [hloop]; rfl)
  · have hstep : next c .loop = some { c with loop := .waitEmpty } := by
      simp [next, Client.loopStep, hloop, h.running, hnil]
    exact exists_stuck_of_step hstep rfl trivial (hfree _ (h.next rfl hstep) rfl rfl)
  · exact hfree c h rfl (by rw [hloop]; rfl)
  · exact absurd hnil hdeadline

/-- Once a timed call is sent the thread can get stuck. -/
theorem exists_stuck {c : Client} (h : InUse c) (hsent : TimedSent c) :
    ∃ es d, Quiet c es ∧ run next c es = some d ∧ Stuck d := by
  obtain ⟨call, hmem, hpos, hnumbered, hstored, hthrew⟩ := hsent
  obtain ⟨i, hcall⟩ := List.mem_iff_getElem?.mp hmem
  cases hpc : call.pc with
  | numbered => exact absurd hpc hnumbered
  | stored => exact absurd hpc hstored
  | sent =>
    have hstep : next c (.arm i) = some (c.setCall i { call with
        pc := .arming, deadline := c.now + call.req.timeout * 1000000 }) := by
      simp [next, Client.callStep, hcall, hpc, hpos]
    have hcall' := getElem?_setCall (j := i) (d := { call with
      pc := .arming, deadline := c.now + call.req.timeout * 1000000 }) hcall
    rw [if_pos rfl] at hcall'
    exact exists_stuck_of_step hstep rfl trivial
      (exists_stuck_of_arming (h.next rfl hstep) hcall' rfl)
  | arming => exact exists_stuck_of_arming h hcall hpc
  | armed => exact exists_stuck_of_deadline h (h.armed call hmem hpc)
  | returned => exact absurd hpos (h.untimed call hmem hpc)
  | threw => exact absurd hpc hthrew

/-- A client meets its obligations after a run exactly when the run has sent no
timed call. -/
theorem timesOut_iff (es : List Event) (c : Client) (huse : ∀ e ∈ es, e.inUse)
    (hrun : run next init es = some c) : TimesOut c ↔ RunOk next NoTimedSend init es := by
  have h : InUse c := inUse_run inUse_init huse hrun
  have hiff : ¬ TimedSent c ↔ RunOk next NoTimedSend init es := by
    rw [timedSent_run hrun, and_iff_right]
    rintro ⟨call, hmem, -⟩
    cases hmem
  rw [← hiff]
  constructor
  · intro htimes hsent
    obtain ⟨es', d, hq, hd, hstuck⟩ := exists_stuck h hsent
    obtain ⟨n, d', hd', hfree⟩ := htimes.releases es' d hq hd
    have hloops : ∀ e ∈ List.replicate n Event.loop, e.inUse := fun e he => by
      rw [List.eq_of_mem_replicate he]
      rfl
    rw [(stuck_run hstuck hloops hd').holdsLock] at hfree
    cases hfree
  · exact timesOut_of_untimed (sound_run sound_init huse hrun) h

/-- The runs of one call with the given timeout, up to its return. -/
def oneCall (timeout : Int) : List Event :=
  [.call ⟨7, [], timeout⟩, .store 0, .send 0 true, .arm 0]

/-- A client whose only call has no timeout meets its obligations, one with a
timed call does not. -/
theorem timesOut_iff_oneCall :
    (∃ c, run next init (oneCall 0) = some c ∧ TimesOut c) ∧
      ∃ c, run next init (oneCall 100 ++ [.register 0]) = some c ∧ ¬ TimesOut c := by
  refine ⟨⟨_, rfl, ?_⟩, ⟨_, rfl, ?_⟩⟩
  · exact (timesOut_iff (oneCall 0) _ (by decide) rfl).mpr (by decide)
  · rw [timesOut_iff (oneCall 100 ++ [.register 0]) _ (by decide) rfl]
    decide

/-- A call with a timeout of 100 ms is armed, the thread starts and sees it, and
1 s passes. -/
def overdueRun : List Event :=
  oneCall 100 ++ [.register 0, .loop, .loop, .tick 1000000000]

/-- The next pass of the thread ends with the call still pending and overdue, and
from there on the thread never gives the mutex back: no other timed call can
register its deadline. -/
theorem overdueRun_not_timed_out :
    ∃ c c', run next init overdueRun = some c ∧ next c .loop = some c' ∧
      c'.rounds = c.rounds + 1 ∧ Expired c' 0 ∧ ¬ TimesOut c ∧
      ∀ es d, (∀ e ∈ es, e.inUse) → run next c' es = some d → d.loop.holdsLock := by
  have hoverdue : ∃ c c', run next init overdueRun = some c ∧ next c .loop = some c' ∧
      c'.rounds = c.rounds + 1 ∧ Expired c' 0 ∧ Stuck c' :=
    ⟨_, _, rfl, rfl, rfl, ⟨_, rfl, rfl, by decide, rfl⟩, rfl, Or.inl rfl, List.cons_ne_nil _ _⟩
  obtain ⟨c, c', hrun, hstep, hround, hexp, hstuck⟩ := hoverdue
  refine ⟨c, c', hrun, hstep, hround, hexp, ?_, ?_⟩
  · intro h
    exact h.round [] c c' ⟨by simp, trivial⟩ rfl hstep hround 0 hexp
  · intro es d huse hd
    exact (stuck_run hstuck huse hd).holdsLock

end Gmaker.Rpc.Cpp
