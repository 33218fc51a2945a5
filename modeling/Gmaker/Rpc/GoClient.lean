import Gmaker.Lib.Machine
import Gmaker.Lib.Threads
import Gmaker.Net.Packet

/-!
# Gmaker.Rpc.GoClient — the Go RPC client and its recycled channels

`rpc.Client.Call` takes a sequence number, gets a reply channel of capacity one
from a pool shared by all clients, stores it under the number, sends and waits;
on the way out it deletes the entry, drains the channel and puts it back.
`OnPacket` loads the channel of a packet's number and then offers the packet
without blocking.

Every operation on a channel, on the `sync.Map` and on the pool is a label, so
that calls and deliveries interleave freely. A delivery that has loaded a channel
keeps it however long it takes: nothing stops the call from giving the channel
back meanwhile, and the next call from getting it. `Clean` is the condition under
which that does no harm; `correlated_run` and `exists_mixed_up` say that it is
the right one.
-/

namespace Gmaker.Rpc.Go

open Gmaker.Lib Gmaker.Net

/-! ## State -/

/-- What `Call` returns. -/
inductive Result where
  | reply (pkt : Packet)
  /-- `fmt.Errorf("send failed")` -/
  | sendFailed
  /-- `ctx.Err()` -/
  | ctxDone
deriving DecidableEq

/-- Where a `Call` stands. -/
inductive CallPc where
  /-- has its sequence number -/
  | numbered
  /-- has its channel -/
  | acquired
  /-- `c.pending.Store(seq, ch)` done -/
  | stored
  /-- in the `select` -/
  | waiting
  /-- returning, at the deferred `c.pending.Delete(seq)` -/
  | leaving (r : Result)
  /-- at the drain of `releaseCallChan` -/
  | deleted (r : Result)
  /-- at `callChanPool.Put(ch)` -/
  | drained (r : Result)
  | returned (r : Result)
deriving DecidableEq

/-- What a call is going to return, or has returned. -/
def CallPc.result : CallPc → Option Result
  | .leaving r | .deleted r | .drained r | .returned r => some r
  | _ => none

/-- The call has its channel and has not got a packet from it. -/
def CallPc.expecting : CallPc → Bool
  | .acquired | .stored | .waiting => true
  | _ => false

/-- The call holds its channel. -/
def CallPc.holds : CallPc → Bool
  | .numbered | .returned _ => false
  | _ => true

/-- The entry of the call may be in `pending`. -/
def CallPc.listed : CallPc → Bool
  | .stored | .waiting | .leaving _ => true
  | _ => false

/-- A `Call` of client `client`. -/
structure Call where
  client : ℕ
  cmdId : UInt32
  payload : Bytes
  seq : UInt32
  ch : ℕ := 0
  pc : CallPc := .numbered
deriving DecidableEq

/-- The channel a call holds. -/
def Call.held (call : Call) : Option ℕ := if call.pc.holds then some call.ch else none

/-- Where an `OnPacket` stands. -/
inductive DeliveryPc where
  /-- at `c.pending.Load(pkt.SeqID)` -/
  | loading
  /-- at the `select` with the channel it loaded -/
  | sending (ch : ℕ)
  /-- at `c.pending.Delete(pkt.SeqID)` -/
  | removing
  | finished
deriving DecidableEq

/-- An `OnPacket` of client `client`. -/
structure Delivery where
  client : ℕ
  pkt : Packet
  pc : DeliveryPc := .loading
deriving DecidableEq

/-- All clients of a process: they share the channels and their pool. `buf` is
the buffer of a channel, `nextCh` the first channel not made yet. -/
structure Process where
  /-- `c.sender != nil` -/
  sender : ℕ → Bool
  /-- `c.seqID` -/
  seqID : ℕ → UInt32 := fun _ => 0
  /-- `c.pending` -/
  pending : ℕ × UInt32 → Option ℕ := fun _ => none
  buf : ℕ → Option Packet := fun _ => none
  pool : List ℕ := []
  nextCh : ℕ := 0
  calls : List Call := []
  deliveries : List Delivery := []
  wire : List (ℕ × Packet) := []

def init (sender : ℕ → Bool) : Process := { sender }

/-! ## The operations -/

/-- The packet `Call` sends. -/
def requestPacket (call : Call) : Packet where
  header := { magic := magicValue
              cmdId := call.cmdId
              seqId := call.seq
              flags := flagRpcReq
              length := UInt32.ofNat (headerSize + call.payload.length) }
  payload := call.payload

inductive Event where
  /-- `Call` up to `nextSeqID` -/
  | call (client : ℕ) (cmdId : UInt32) (payload : Bytes)
  /-- `acquireCallChan`: a pooled channel, or a new one -/
  | acquire (i : ℕ) (pooled : Option ℕ)
  | store (i : ℕ)
  /-- `c.sender.SendPacket(pkt)` and what it returns -/
  | send (i : ℕ) (ok : Bool)
  /-- `res := <-ch` -/
  | receive (i : ℕ)
  /-- `<-ctx.Done()` -/
  | cancel (i : ℕ)
  | delete (i : ℕ)
  | drain (i : ℕ)
  | put (i : ℕ)
  /-- `OnPacket` up to the `Load` -/
  | onPacket (client : ℕ) (pkt : Packet)
  | load (j : ℕ)
  /-- the non-blocking send -/
  | offer (j : ℕ)
  | remove (j : ℕ)
  /-- the garbage collector empties the pool -/
  | gc
deriving DecidableEq

/-- A step of call `i` at program counter `pc`. -/
def Process.callStep (p : Process) (i : ℕ) (pc : CallPc) (f : Call → Option Process) :
    Option Process :=
  match p.calls[i]? with
  | some call => if call.pc = pc then f call else none
  | none => none

/-- A step of call `i` on its way out. -/
def Process.leaveStep (p : Process) (i : ℕ) (f : Call → Result → Option Process) :
    Option Process :=
  match p.calls[i]? with
  | some call => call.pc.result.bind (f call)
  | none => none

/-- Call `i` becomes `call`. -/
def Process.setCall (p : Process) (i : ℕ) (call : Call) : Process :=
  { p with calls := p.calls.set i call }

/-- Delivery `j` moves to `pc`. -/
def Process.setDelivery (p : Process) (j : ℕ) (d : Delivery) (pc : DeliveryPc) : Process :=
  { p with deliveries := p.deliveries.set j { d with pc } }

/-- `Call` up to `nextSeqID`. -/
def Process.begin (p : Process) (client : ℕ) (cmdId : UInt32) (payload : Bytes) : Process :=
  let seq := p.seqID client + 1
  { p with
    seqID := Function.update p.seqID client seq
    calls := p.calls ++ [{ client, cmdId, payload, seq }] }

def next (p : Process) : Event → Option Process
  | .call client cmdId payload =>
    -- `no sender configured` otherwise
    if p.sender client then some (p.begin client cmdId payload) else some p
  | .acquire i none => p.callStep i .numbered fun call =>
      some { p.setCall i { call with pc := .acquired, ch := p.nextCh } with
        nextCh := p.nextCh + 1 }
  | .acquire i (some ch) => p.callStep i .numbered fun call =>
      if ch ∈ p.pool then
        some { p.setCall i { call with pc := .acquired, ch } with pool := p.pool.erase ch }
      else none
  | .store i => p.callStep i .acquired fun call =>
      some { p.setCall i { call with pc := .stored } with
        pending := Function.update p.pending (call.client, call.seq) (some call.ch) }
  | .send i ok => p.callStep i .stored fun call =>
      if ok then
        some { p.setCall i { call with pc := .waiting } with
          wire := p.wire ++ [(call.client, requestPacket call)] }
      else some (p.setCall i { call with pc := .leaving .sendFailed })
  | .receive i => p.callStep i .waiting fun call =>
      match p.buf call.ch with
      | some pkt =>
        some { p.setCall i { call with pc := .leaving (.reply pkt) } with
          buf := Function.update p.buf call.ch none }
      | none => none
  | .cancel i => p.callStep i .waiting fun call =>
      some (p.setCall i { call with pc := .leaving .ctxDone })
  | .delete i => p.leaveStep i fun call r =>
      if call.pc = .leaving r then
        some { p.setCall i { call with pc := .deleted r } with
          pending := Function.update p.pending (call.client, call.seq) none }
      else none
  | .drain i => p.leaveStep i fun call r =>
      if call.pc = .deleted r then
        some { p.setCall i { call with pc := .drained r } with
          buf := Function.update p.buf call.ch none }
      else none
  | .put i => p.leaveStep i fun call r =>
      if call.pc = .drained r then
        some { p.setCall i { call with pc := .returned r } with pool := call.ch :: p.pool }
      else none
  | .onPacket client pkt =>
    -- a push packet is none of our business
    if pkt.header.seqId = 0 then some p
    else some { p with deliveries := p.deliveries ++ [{ client, pkt }] }
  | .load j =>
    match p.deliveries[j]? with
    | some d =>
      if d.pc = .loading then
        match p.pending (d.client, d.pkt.header.seqId) with
        | some ch => some (p.setDelivery j d (.sending ch))
        | none => some (p.setDelivery j d .finished)
      else none
    | none => none
  | .offer j =>
    match p.deliveries[j]? with
    | some d =>
      match d.pc with
      | .sending ch =>
        match p.buf ch with
        | none =>
          some { p.setDelivery j d .removing with buf := Function.update p.buf ch (some d.pkt) }
        | some _ => some (p.setDelivery j d .finished)
      | _ => none
    | none => none
  | .remove j =>
    match p.deliveries[j]? with
    | some d =>
      if d.pc = .removing then
        some { p.setDelivery j d .finished with
          pending := Function.update p.pending (d.client, d.pkt.header.seqId) none }
      else none
    | none => none
  | .gc => some { p with pool := [] }

/-! ## Correlation -/

/-- Every numbered call has a number that is not 0, and a packet it returns has
that number. -/
structure Correlated (p : Process) : Prop where
  nonzero : ∀ (i : ℕ) (call : Call), p.calls[i]? = some call → call.seq ≠ 0
  matching : ∀ (i : ℕ) (call : Call) (pkt : Packet), p.calls[i]? = some call →
    call.pc.result = some (.reply pkt) → pkt.header.seqId = call.seq

/-- The first packet a taker of channel `ch` finds there has number `seq`: it is
in the buffer, or the buffer is empty and nobody is about to offer another one. -/
def Expects (p : Process) (ch : ℕ) (seq : UInt32) : Prop :=
  match p.buf ch with
  | some pkt => pkt.header.seqId = seq
  | none => ∀ d ∈ p.deliveries, d.pc = .sending ch → d.pkt.header.seqId = seq

instance (p : Process) (ch : ℕ) (seq : UInt32) : Decidable (Expects p ch seq) := by
  unfold Expects
  split <;> infer_instance

/-- The counter does not wrap to 0, and a call takes a pooled channel only when
no packet of another number is in it or about to be offered to it. -/
def Clean (p : Process) : Event → Prop
  | .call client _ _ => p.sender client → p.seqID client + 1 ≠ 0
  | .acquire i (some ch) => ∀ call ∈ p.calls[i]?, call.pc = .numbered → Expects p ch call.seq
  | _ => True

instance (p : Process) (e : Event) : Decidable (Clean p e) := by
  unfold Clean
  split <;> infer_instance

/-! ## What a step does -/

section Steps

variable {p p' : Process} {i : ℕ} {pc : CallPc}

theorem callStep_eq_some {f : Call → Option Process} :
    p.callStep i pc f = some p' ↔
      ∃ call, p.calls[i]? = some call ∧ call.pc = pc ∧ f call = some p' := by
  unfold Process.callStep
  cases p.calls[i]? with
  | none => simp
  | some call => by_cases h : call.pc = pc <;> simp [h]

theorem leaveStep_eq_some {f : Call → Result → Option Process} :
    p.leaveStep i f = some p' ↔
      ∃ call r, p.calls[i]? = some call ∧ call.pc.result = some r ∧ f call r = some p' := by
  unfold Process.leaveStep
  cases p.calls[i]? with
  | none => simp
  | some call => simp [Option.bind_eq_some_iff]

end Steps

/-! ## The invariant -/

/-- Who has which channel. A channel is held by one call at most, or lies in the
pool; an entry of `pending` leads to the channel of a call under way with the
entry's number; and a call that still expects a packet will find its own. -/
structure Inv (p : Process) : Prop where
  unique : KeysUnique Call.held p.calls
  unpooled : ∀ (i : ℕ) (call : Call), p.calls[i]? = some call → ∀ ch, call.held = some ch →
    ch ∉ p.pool
  pool : p.pool.Nodup
  made : ∀ (i : ℕ) (call : Call), p.calls[i]? = some call → ∀ ch, call.held = some ch →
    ch < p.nextCh
  madePool : ∀ ch ∈ p.pool, ch < p.nextCh
  madeSending : ∀ (j : ℕ) (d : Delivery), p.deliveries[j]? = some d → ∀ ch, d.pc = .sending ch →
    ch < p.nextCh
  madeBuf : ∀ ch, p.buf ch ≠ none → ch < p.nextCh
  owner : ∀ k s ch, p.pending (k, s) = some ch → ∃ (i : ℕ) (call : Call),
    p.calls[i]? = some call ∧ call.pc.listed ∧ call.client = k ∧ call.seq = s ∧ call.ch = ch
  expects : ∀ (i : ℕ) (call : Call), p.calls[i]? = some call → call.pc.expecting →
    Expects p call.ch call.seq
  nonzero : ∀ (i : ℕ) (call : Call), p.calls[i]? = some call → call.seq ≠ 0
  matching : ∀ (i : ℕ) (call : Call), p.calls[i]? = some call → ∀ pkt,
    call.pc.result = some (.reply pkt) → pkt.header.seqId = call.seq

theorem Inv.correlated {p : Process} (h : Inv p) : Correlated p :=
  ⟨h.nonzero, fun i call pkt hcall => h.matching i call hcall pkt⟩

theorem inv_init (sender : ℕ → Bool) : Inv (init sender) := by
  constructor <;> simp [init, KeysUnique]

theorem CallPc.holds_of_expecting {pc : CallPc} (h : pc.expecting) : pc.holds := by
  cases pc <;> first | rfl | cases h

theorem CallPc.holds_of_listed {pc : CallPc} (h : pc.listed) : pc.holds := by
  cases pc <;> first | rfl | cases h

theorem Call.held_eq {call : Call} (h : call.pc.holds) : call.held = some call.ch := if_pos h

theorem Call.held_eq_some {call : Call} {ch : ℕ} (h : call.held = some ch) :
    call.pc.holds ∧ call.ch = ch := by
  unfold Call.held at h
  split_ifs at h with hpc
  exact ⟨hpc, Option.some.inj h⟩

/-- Two calls that hold one channel are the same call. -/
theorem Inv.same {p : Process} (h : Inv p) {i j : ℕ} {a b : Call} (ha : p.calls[i]? = some a)
    (hb : p.calls[j]? = some b) (hpa : a.pc.holds) (hpb : b.pc.holds) (hch : a.ch = b.ch) :
    i = j ∧ a = b := by
  have hij := h.unique i j a b b.ch ha hb (hch ▸ Call.held_eq hpa) (Call.held_eq hpb)
  subst hij
  rw [ha] at hb
  exact ⟨rfl, Option.some.inj hb⟩

section Pieces

variable {p : Process} {i j : ℕ} {call : Call} {d : Delivery}

/-- A call moves on and keeps its channel, or gives it up. -/
theorem Inv.move (h : Inv p) (hcall : p.calls[i]? = some call) (pc : CallPc)
    (hholds : pc.holds → call.pc.holds) (hexpecting : pc.expecting → call.pc.expecting)
    (hresult : ∀ pkt, pc.result = some (.reply pkt) → pkt.header.seqId = call.seq)
    (hlisted : call.pc.listed → pc.listed ∨ p.pending (call.client, call.seq) = none) :
    Inv (p.setCall i { call with pc }) := by
  have hheld : ∀ ch, Call.held { call with pc } = some ch → call.held = some ch := by
    intro ch hch
    obtain ⟨hpc, rfl⟩ := Call.held_eq_some hch
    exact Call.held_eq (hholds hpc)
  refine ⟨?_, forall_set hcall ?_ h.unpooled, h.pool, forall_set hcall ?_ h.made, h.madePool,
    h.madeSending, h.madeBuf, ?_, forall_set hcall ?_ h.expects,
    forall_set hcall (h.nonzero i call hcall) h.nonzero, forall_set hcall hresult h.matching⟩
  · refine h.unique.set_of_le hcall ?_
    by_cases hpc : pc.holds
    · exact Or.inr ((Call.held_eq hpc).trans (Call.held_eq (hholds hpc)).symm)
    · exact Or.inl (if_neg hpc)
  · exact fun ch hch => h.unpooled i call hcall ch (hheld ch hch)
  · exact fun ch hch => h.made i call hcall ch (hheld ch hch)
  · intro k s ch hpending
    obtain ⟨j, call', hcall', hlist, hkey⟩ := h.owner k s ch hpending
    by_cases hij : j = i
    · subst hij
      rw [hcall] at hcall'
      cases hcall'
      have hpc : pc.listed := by
        rcases hlisted hlist with hpc | hnone
        · exact hpc
        · obtain ⟨rfl, rfl, -⟩ := hkey
          exact absurd (hnone.symm.trans hpending) (Option.some_ne_none ch).symm
      exact ⟨j, { call with pc }, by rw [Process.setCall, getElem?_set_at hcall, if_pos rfl], hpc,
        hkey⟩
    · exact ⟨j, call', by rw [Process.setCall, getElem?_set_at hcall, if_neg hij, hcall'], hlist,
        hkey⟩
  · exact fun hpc => h.expects i call hcall (hexpecting hpc)

/-- A channel of which no call expects a packet is emptied. -/
theorem Inv.clearBuf (h : Inv p) (ch : ℕ)
    (hno : ∀ (i : ℕ) (call : Call), p.calls[i]? = some call → call.pc.expecting → call.ch ≠ ch) :
    Inv { p with buf := Function.update p.buf ch none } := by
  refine ⟨h.unique, h.unpooled, h.pool, h.made, h.madePool, h.madeSending, ?_, h.owner, ?_,
    h.nonzero, h.matching⟩
  · intro ch' hne
    by_cases hch : ch' = ch
    · simp [hch] at hne
    · exact h.madeBuf ch' (by simpa [Function.update_of_ne hch] using hne)
  · intro i call hcall hpc
    have hexp := h.expects i call hcall hpc
    have hbuf : Function.update p.buf ch none call.ch = p.buf call.ch :=
      Function.update_of_ne (hno i call hcall hpc) _ _
    unfold Expects at hexp ⊢
    simpa only [hbuf] using hexp

/-- A channel that no call holds and that is not in the pool goes there. -/
theorem Inv.pushPool (h : Inv p) {ch : ℕ} (hmade : ch < p.nextCh) (hpool : ch ∉ p.pool)
    (hno : ∀ (i : ℕ) (call : Call), p.calls[i]? = some call → call.held ≠ some ch) :
    Inv { p with pool := ch :: p.pool } := by
  refine ⟨h.unique, ?_, List.nodup_cons.mpr ⟨hpool, h.pool⟩, h.made, ?_, h.madeSending,
    h.madeBuf, h.owner, h.expects, h.nonzero, h.matching⟩
  · intro i call hcall ch' hheld hmem
    rcases List.mem_cons.mp hmem with rfl | hmem
    · exact hno i call hcall hheld
    · exact h.unpooled i call hcall ch' hheld hmem
  · intro ch' hmem
    rcases List.mem_cons.mp hmem with rfl | hmem
    · exact hmade
    · exact h.madePool ch' hmem

/-- Channels leave the pool. -/
theorem Inv.shrinkPool (h : Inv p) {pool : List ℕ} (hsub : pool.Sublist p.pool) :
    Inv { p with pool := pool } :=
  ⟨h.unique, fun i call hcall ch hheld hmem => h.unpooled i call hcall ch hheld (hsub.subset hmem),
    h.pool.sublist hsub, h.made, fun ch hmem => h.madePool ch (hsub.subset hmem), h.madeSending,
    h.madeBuf, h.owner, h.expects, h.nonzero, h.matching⟩

/-- Channels get made. -/
theorem Inv.growCh (h : Inv p) {n : ℕ} (hle : p.nextCh ≤ n) : Inv { p with nextCh := n } :=
  ⟨h.unique, h.unpooled, h.pool, fun i call hcall ch hheld => (h.made i call hcall ch hheld).trans_le hle,
    fun ch hmem => (h.madePool ch hmem).trans_le hle,
    fun j d hd ch hpc => (h.madeSending j d hd ch hpc).trans_le hle,
    fun ch hne => (h.madeBuf ch hne).trans_le hle, h.owner, h.expects, h.nonzero, h.matching⟩

/-- A numbered call takes a channel that nobody has and that promises it the
right packet. -/
theorem Inv.take (h : Inv p) (hcall : p.calls[i]? = some call) (hpc : call.pc = .numbered)
    {ch : ℕ} (hmade : ch < p.nextCh) (hpool : ch ∉ p.pool)
    (hno : ∀ (i : ℕ) (call : Call), p.calls[i]? = some call → call.held ≠ some ch)
    (hexp : Expects p ch call.seq) : Inv (p.setCall i { call with pc := .acquired, ch }) := by
  refine ⟨?_, forall_set hcall ?_ h.unpooled, h.pool, forall_set hcall ?_ h.made, h.madePool,
    h.madeSending, h.madeBuf, ?_, forall_set hcall (fun _ => hexp) h.expects,
    forall_set hcall (h.nonzero i call hcall) h.nonzero, forall_set hcall ?_ h.matching⟩
  · refine h.unique.set hcall fun ch' hch' j b _ hb => ?_
    obtain ⟨-, rfl⟩ := Call.held_eq_some hch'
    exact hno j b hb
  · intro ch' hch'
    obtain ⟨-, rfl⟩ := Call.held_eq_some hch'
    exact hpool
  · intro ch' hch'
    obtain ⟨-, rfl⟩ := Call.held_eq_some hch'
    exact hmade
  · intro k s ch' hpending
    obtain ⟨j, call', hcall', hlist, hkey⟩ := h.owner k s ch' hpending
    have hij : j ≠ i := by
      rintro rfl
      rw [hcall] at hcall'
      cases hcall'
      rw [hpc] at hlist
      cases hlist
    exact ⟨j, call', by rw [Process.setCall, getElem?_set_at hcall, if_neg hij, hcall'], hlist,
      hkey⟩
  · intro pkt hpkt
    cases hpkt

/-- A listed call enters its channel under its number. -/
theorem Inv.insertPending (h : Inv p) (hcall : p.calls[i]? = some call) (hpc : call.pc.listed) :
    Inv { p with pending := Function.update p.pending (call.client, call.seq) (some call.ch) } := by
  refine ⟨h.unique, h.unpooled, h.pool, h.made, h.madePool, h.madeSending, h.madeBuf, ?_,
    h.expects, h.nonzero, h.matching⟩
  intro k s ch hpending
  by_cases hkey : (k, s) = (call.client, call.seq)
  · obtain ⟨rfl, rfl⟩ := Prod.mk.inj hkey
    simp only [Function.update_self, Option.some.injEq] at hpending
    exact ⟨i, call, hcall, hpc, rfl, rfl, hpending⟩
  · exact h.owner k s ch ((Function.update_of_ne hkey _ _).symm.trans hpending)

/-- An entry is deleted. -/
theorem Inv.deletePending (h : Inv p) (key : ℕ × UInt32) :
    Inv { p with pending := Function.update p.pending key none } := by
  refine ⟨h.unique, h.unpooled, h.pool, h.made, h.madePool, h.madeSending, h.madeBuf, ?_,
    h.expects, h.nonzero, h.matching⟩
  intro k s ch hpending
  by_cases hkey : (k, s) = key
  · simp [hkey] at hpending
  · exact h.owner k s ch ((Function.update_of_ne hkey _ _).symm.trans hpending)

/-- The table of deliveries changes in such a way that every delivery about to
offer a packet to a channel was about to, or has a packet that the holder of the
channel expects. -/
theorem Inv.setDeliveries (h : Inv p) {ds : List Delivery}
    (hmade : ∀ (j : ℕ) (d : Delivery), ds[j]? = some d → ∀ ch, d.pc = .sending ch → ch < p.nextCh)
    (hsending : ∀ (i : ℕ) (call : Call), p.calls[i]? = some call → call.pc.expecting → ∀ d ∈ ds,
      d.pc = .sending call.ch → d ∈ p.deliveries ∨ d.pkt.header.seqId = call.seq) :
    Inv { p with deliveries := ds } := by
  refine ⟨h.unique, h.unpooled, h.pool, h.made, h.madePool, hmade, h.madeBuf, h.owner, ?_,
    h.nonzero, h.matching⟩
  intro i call hcall hpc
  have hexp := h.expects i call hcall hpc
  unfold Expects at hexp ⊢
  cases hbuf : p.buf call.ch with
  | some pkt => simpa only [hbuf] using hexp
  | none =>
    simp only [hbuf] at hexp ⊢
    intro d hd hdpc
    rcases hsending i call hcall hpc d hd hdpc with hold | hseq
    · exact hexp d hold hdpc
    · exact hseq

/-- A delivery moves on to a place from which it offers nothing. -/
theorem Inv.quietDelivery (h : Inv p) (hd : p.deliveries[j]? = some d) {q : DeliveryPc}
    (hpc : ∀ ch, q ≠ .sending ch) : Inv (p.setDelivery j d q) := by
  refine h.setDeliveries (forall_set hd (fun ch hch => absurd hch (hpc ch)) h.madeSending) ?_
  intro i call _ _ d' hd' hdpc
  rcases List.mem_or_eq_of_mem_set hd' with hold | rfl
  · exact Or.inl hold
  · exact absurd hdpc (hpc _)

end Pieces

section Calls

variable {p p' : Process}

/-- Nobody else holds the channel of a call. -/
theorem Inv.alone (h : Inv p) {i j : ℕ} {call other : Call} (hcall : p.calls[i]? = some call)
    (hholds : call.pc.holds) (hij : j ≠ i) (hother : p.calls[j]? = some other) :
    other.held ≠ some call.ch :=
  fun hheld => hij (h.unique j i other call call.ch hother hcall hheld (Call.held_eq hholds))

/-- Nobody expects a packet from the channel of a call that no longer does. -/
theorem Inv.none_expecting (h : Inv p) {i : ℕ} {call : Call} (hcall : p.calls[i]? = some call)
    (hholds : call.pc.holds) {pc : CallPc} (hpc : pc.expecting = false) :
    ∀ (j : ℕ) (other : Call), (p.setCall i { call with pc }).calls[j]? = some other →
      other.pc.expecting → other.ch ≠ call.ch := by
  intro j other hother hexpecting
  rw [Process.setCall, getElem?_set_at hcall] at hother
  split_ifs at hother with hij
  · cases hother
    rw [hpc] at hexpecting
    cases hexpecting
  · intro hch
    have hheld := Call.held_eq (CallPc.holds_of_expecting hexpecting)
    exact h.alone hcall hholds hij hother (hch ▸ hheld)

/-- Nobody holds the channel of a call that has given it up. -/
theorem Inv.none_holding (h : Inv p) {i : ℕ} {call : Call} (hcall : p.calls[i]? = some call)
    (hholds : call.pc.holds) {pc : CallPc} (hpc : pc.holds = false) :
    ∀ (j : ℕ) (other : Call), (p.setCall i { call with pc }).calls[j]? = some other →
      other.held ≠ some call.ch := by
  intro j other hother
  rw [Process.setCall, getElem?_set_at hcall] at hother
  split_ifs at hother with hij
  · cases hother
    simp [Call.held, hpc]
  · exact h.alone hcall hholds hij hother

attribute [local simp] CallPc.holds CallPc.expecting CallPc.result CallPc.listed

theorem Inv.called (h : Inv p) {client : ℕ} {cmdId : UInt32} {payload : Bytes}
    (hclean : Clean p (.call client cmdId payload))
    (hstep : next p (.call client cmdId payload) = some p') : Inv p' := by
  simp only [next] at hstep
  split_ifs at hstep with hsender
  · cases hstep
    refine ⟨h.unique.append rfl, forall_append ?_ h.unpooled, h.pool, forall_append ?_ h.made,
      h.madePool, h.madeSending, h.madeBuf, ?_, forall_append ?_ h.expects,
      forall_append (hclean hsender) h.nonzero, forall_append ?_ h.matching⟩
    · intro ch hch
      cases hch
    · intro ch hch
      cases hch
    · intro k s ch hpending
      obtain ⟨i, call, hcall, hrest⟩ := h.owner k s ch hpending
      have hkept : (p.begin client cmdId payload).calls[i]? = p.calls[i]? :=
        getElem?_append_singleton.trans (if_neg (getElem?_ne_length hcall))
      exact ⟨i, call, hkept.trans hcall, hrest⟩
    · intro hpc
      cases hpc
    · intro pkt hpkt
      cases hpkt
  · cases hstep
    exact h

/-- A new channel is in nobody's hands. -/
theorem Inv.acquire_new (h : Inv p) {i : ℕ} (hstep : next p (.acquire i none) = some p') :
    Inv p' := by
  obtain ⟨call, hcall, hpc, heq⟩ := callStep_eq_some.mp hstep
  cases heq
  have hexp : Expects p p.nextCh call.seq := by
    unfold Expects
    cases hbuf : p.buf p.nextCh with
    | some pkt => exact absurd (h.madeBuf p.nextCh (by simp [hbuf])) (lt_irrefl _)
    | none =>
      intro d hd hdpc
      obtain ⟨j, hj⟩ := List.mem_iff_getElem?.mp hd
      exact absurd (h.madeSending j d hj p.nextCh hdpc) (lt_irrefl _)
  exact (h.growCh (Nat.le_succ p.nextCh)).take hcall hpc (Nat.lt_succ_self _)
    (fun hmem => absurd (h.madePool _ hmem) (lt_irrefl _))
    (fun j other hother hheld => absurd (h.made j other hother _ hheld) (lt_irrefl _)) hexp

theorem Inv.acquire_pooled (h : Inv p) {i ch : ℕ} (hclean : Clean p (.acquire i (some ch)))
    (hstep : next p (.acquire i (some ch)) = some p') : Inv p' := by
  obtain ⟨call, hcall, hpc, heq⟩ := callStep_eq_some.mp hstep
  split_ifs at heq with hmem
  cases heq
  exact (h.shrinkPool List.erase_sublist).take hcall hpc (h.madePool ch hmem)
    h.pool.not_mem_erase (fun j other hother hheld => h.unpooled j other hother ch hheld hmem)
    (hclean call hcall hpc)

theorem Inv.store (h : Inv p) {i : ℕ} (hstep : next p (.store i) = some p') : Inv p' := by
  obtain ⟨call, hcall, hpc, heq⟩ := callStep_eq_some.mp hstep
  cases heq
  have hmove := h.move hcall .stored (by simp [hpc]) (by simp [hpc]) (by simp)
    (fun _ => Or.inl rfl)
  have hset : (p.setCall i { call with pc := .stored }).calls[i]? =
      some { call with pc := .stored } := by
    rw [Process.setCall, getElem?_set_at hcall, if_pos rfl]
  have hlisted : ({ call with pc := .stored } : Call).pc.listed := rfl
  have hinsert := hmove.insertPending hset hlisted
  exact hinsert

theorem Inv.send (h : Inv p) {i : ℕ} {ok : Bool} (hstep : next p (.send i ok) = some p') :
    Inv p' := by
  obtain ⟨call, hcall, hpc, heq⟩ := callStep_eq_some.mp hstep
  cases ok with
  | true =>
    cases heq
    have hmove := h.move hcall .waiting (by simp [hpc]) (by simp [hpc]) (by simp)
      (fun _ => Or.inl rfl)
    exact ⟨hmove.unique, hmove.unpooled, hmove.pool, hmove.made, hmove.madePool,
      hmove.madeSending, hmove.madeBuf, hmove.owner, hmove.expects, hmove.nonzero, hmove.matching⟩
  | false =>
    cases heq
    exact h.move hcall _ (by simp [hpc]) (by simp) (by simp) (fun _ => Or.inl rfl)

/-- The call takes the packet it expects. -/
theorem Inv.receive (h : Inv p) {i : ℕ} (hstep : next p (.receive i) = some p') : Inv p' := by
  obtain ⟨call, hcall, hpc, heq⟩ := callStep_eq_some.mp hstep
  have hexp := h.expects i call hcall (by rw [hpc]; rfl)
  cases hbuf : p.buf call.ch with
  | none => simp [hbuf] at heq
  | some pkt =>
    simp only [hbuf] at heq
    cases heq
    simp only [Expects, hbuf] at hexp
    have hmove := h.move hcall (.leaving (.reply pkt)) (by simp [hpc]) (by simp)
      (by simpa using hexp) (fun _ => Or.inl rfl)
    exact hmove.clearBuf call.ch (h.none_expecting hcall (by rw [hpc]; rfl) rfl)

theorem Inv.cancel (h : Inv p) {i : ℕ} (hstep : next p (.cancel i) = some p') : Inv p' := by
  obtain ⟨call, hcall, hpc, heq⟩ := callStep_eq_some.mp hstep
  cases heq
  exact h.move hcall _ (by simp [hpc]) (by simp) (by simp) (fun _ => Or.inl rfl)

theorem Inv.delete (h : Inv p) {i : ℕ} (hstep : next p (.delete i) = some p') : Inv p' := by
  obtain ⟨call, r, hcall, hr, heq⟩ := leaveStep_eq_some.mp hstep
  split_ifs at heq with hpc
  cases heq
  have hmatch := h.matching i call hcall
  rw [hpc] at hmatch
  exact (h.deletePending (call.client, call.seq)).move hcall (.deleted r)
    (by simp [hpc]) (by simp) hmatch (fun _ => Or.inr (Function.update_self _ _ _))

theorem Inv.drain (h : Inv p) {i : ℕ} (hstep : next p (.drain i) = some p') : Inv p' := by
  obtain ⟨call, r, hcall, hr, heq⟩ := leaveStep_eq_some.mp hstep
  split_ifs at heq with hpc
  cases heq
  have hmatch := h.matching i call hcall
  rw [hpc] at hmatch
  have hmove := h.move hcall (.drained r) (by simp [hpc]) (by simp) hmatch (by simp [hpc])
  exact hmove.clearBuf call.ch (h.none_expecting hcall (by rw [hpc]; rfl) rfl)

theorem Inv.put (h : Inv p) {i : ℕ} (hstep : next p (.put i) = some p') : Inv p' := by
  obtain ⟨call, r, hcall, hr, heq⟩ := leaveStep_eq_some.mp hstep
  split_ifs at heq with hpc
  cases heq
  have hmatch := h.matching i call hcall
  rw [hpc] at hmatch
  have hholds : call.pc.holds := by rw [hpc]; rfl
  have hheld := Call.held_eq hholds
  have hmove := h.move hcall (.returned r) (by simp) (by simp) hmatch (by simp [hpc])
  exact hmove.pushPool (h.made i call hcall _ hheld) (h.unpooled i call hcall _ hheld)
    (h.none_holding hcall hholds rfl)

end Calls

section Deliveries

variable {p p' : Process}

theorem Inv.onPacket (h : Inv p) {client : ℕ} {pkt : Packet}
    (hstep : next p (.onPacket client pkt) = some p') : Inv p' := by
  simp only [next] at hstep
  split_ifs at hstep
  · cases hstep
    exact h
  · cases hstep
    refine h.setDeliveries (forall_append ?_ h.madeSending) ?_
    · intro ch hch
      cases hch
    · intro i call _ _ d hd hdpc
      rcases List.mem_append.mp hd with hold | hnew
      · exact Or.inl hold
      · rw [List.mem_singleton.mp hnew] at hdpc
        cases hdpc

/-- The channel that a delivery loads is held by the call with the packet's
number. -/
theorem Inv.load (h : Inv p) {j : ℕ} (hstep : next p (.load j) = some p') : Inv p' := by
  simp only [next] at hstep
  cases hd : p.deliveries[j]? with
  | none => simp [hd] at hstep
  | some d =>
    simp only [hd] at hstep
    split_ifs at hstep
    cases hpending : p.pending (d.client, d.pkt.header.seqId) with
    | none =>
      simp only [hpending] at hstep
      cases hstep
      exact h.quietDelivery hd (by simp)
    | some ch =>
      simp only [hpending] at hstep
      cases hstep
      obtain ⟨i, call, hcall, hlist, -, hseq, hch⟩ := h.owner _ _ ch hpending
      have hheld := Call.held_eq (CallPc.holds_of_listed hlist)
      refine h.setDeliveries (forall_set hd ?_ h.madeSending) ?_
      · intro ch' hch'
        cases hch'
        exact hch ▸ h.made i call hcall _ hheld
      · intro i' call' hcall' hexpecting d' hd' hdpc
        rcases List.mem_or_eq_of_mem_set hd' with hold | rfl
        · exact Or.inl hold
        · have hsame : call.ch = call'.ch := by
            cases hdpc
            exact hch
          obtain ⟨-, rfl⟩ := h.same hcall hcall' (CallPc.holds_of_listed hlist)
            (CallPc.holds_of_expecting hexpecting) hsame
          exact Or.inr hseq.symm

/-- A call that expects a packet expects the one that is offered. -/
theorem Inv.offer (h : Inv p) {j : ℕ} (hstep : next p (.offer j) = some p') : Inv p' := by
  simp only [next] at hstep
  cases hd : p.deliveries[j]? with
  | none => simp [hd] at hstep
  | some d =>
    simp only [hd] at hstep
    split at hstep
    · rename_i ch hpc
      cases hbuf : p.buf ch with
      | some pkt =>
        simp only [hbuf] at hstep
        cases hstep
        exact h.quietDelivery hd (by simp)
      | none =>
        simp only [hbuf] at hstep
        cases hstep
        have hq := h.quietDelivery hd (q := .removing) (by simp)
        refine ⟨hq.unique, hq.unpooled, hq.pool, hq.made, hq.madePool, hq.madeSending, ?_,
          hq.owner, ?_, hq.nonzero, hq.matching⟩
        · intro ch' hne
          by_cases hch : ch' = ch
          · exact hch ▸ h.madeSending j d hd ch hpc
          · exact h.madeBuf ch' (by simpa [Function.update_of_ne hch] using hne)
        · intro i call hcall hexpecting
          by_cases hch : call.ch = ch
          · have hexp := h.expects i call hcall hexpecting
            rw [Expects, hch, hbuf] at hexp
            simpa [Expects, hch] using hexp d (List.mem_of_getElem? hd) hpc
          · have hexp := hq.expects i call hcall hexpecting
            have hsame : Function.update p.buf ch (some d.pkt) call.ch = p.buf call.ch :=
              Function.update_of_ne hch _ _
            unfold Expects at hexp ⊢
            simp only [hsame]
            exact hexp
    · cases hstep

theorem Inv.remove (h : Inv p) {j : ℕ} (hstep : next p (.remove j) = some p') : Inv p' := by
  simp only [next] at hstep
  cases hd : p.deliveries[j]? with
  | none => simp [hd] at hstep
  | some d =>
    simp only [hd] at hstep
    split_ifs at hstep
    cases hstep
    exact (h.deletePending (d.client, d.pkt.header.seqId)).quietDelivery hd (by simp)

end Deliveries

/-- Every clean step keeps the invariant. -/
theorem Inv.next {p p' : Process} {e : Event} (h : Inv p) (hclean : Clean p e)
    (hstep : next p e = some p') : Inv p' := by
  cases e with
  | call client cmdId payload => exact h.called hclean hstep
  | acquire i pooled =>
    cases pooled with
    | none => exact h.acquire_new hstep
    | some ch => exact h.acquire_pooled hclean hstep
  | store i => exact h.store hstep
  | send i ok => exact h.send hstep
  | receive i => exact h.receive hstep
  | cancel i => exact h.cancel hstep
  | delete i => exact h.delete hstep
  | drain i => exact h.drain hstep
  | put i => exact h.put hstep
  | onPacket client pkt => exact h.onPacket hstep
  | load j => exact h.load hstep
  | offer j => exact h.offer hstep
  | remove j => exact h.remove hstep
  | gc =>
    cases hstep
    exact h.shrinkPool (List.nil_sublist _)

/-- In every state of a run of clean steps, calls and replies are correlated. -/
theorem correlated_run {sender : ℕ → Bool} {p : Process} {es : List Event}
    (hclean : RunOk Go.next Clean (init sender) es) (hrun : run Go.next (init sender) es = some p) :
    Correlated p :=
  (run_invariant (fun _ _ _ hclean h hstep => Inv.next h hclean hstep) (inv_init sender) hclean
    hrun).correlated

/-! ## Steps that are not clean -/

section MixUp

variable {p : Process} {i : ℕ} {call : Call}

/-- A waiting call returns the packet in its channel, whatever its number. -/
theorem receive_wrong {pkt : Packet} (hcall : p.calls[i]? = some call) (hpc : call.pc = .waiting)
    (hbuf : p.buf call.ch = some pkt) (hseq : pkt.header.seqId ≠ call.seq) :
    ∃ es q, run next p es = some q ∧ ¬ Correlated q := by
  let q := { p.setCall i { call with pc := .leaving (.reply pkt) } with
    buf := Function.update p.buf call.ch none }
  have hstep : next p (.receive i) = some q := by
    simp [next, Process.callStep, hcall, hpc, hbuf, q]
  refine ⟨[.receive i], q, run_cons_eq_some.mpr ⟨q, hstep, rfl⟩, fun hcorrelated => ?_⟩
  have hset : q.calls[i]? = some { call with pc := .leaving (.reply pkt) } := by
    simp only [q, Process.setCall, getElem?_set_at hcall, if_pos]
  exact hseq (hcorrelated.matching i { call with pc := .leaving (.reply pkt) } pkt hset rfl)

/-- A channel that does not promise the right packet to the call that waits on it
delivers a wrong one. -/
theorem waiting_wrong (hcall : p.calls[i]? = some call) (hpc : call.pc = .waiting)
    (hexp : ¬ Expects p call.ch call.seq) : ∃ es q, run next p es = some q ∧ ¬ Correlated q := by
  cases hbuf : p.buf call.ch with
  | some pkt =>
    simp only [Expects, hbuf] at hexp
    exact receive_wrong hcall hpc hbuf hexp
  | none =>
    simp only [Expects, hbuf, not_forall] at hexp
    obtain ⟨d, hd, hdpc, hseq⟩ := hexp
    obtain ⟨j, hj⟩ := List.mem_iff_getElem?.mp hd
    -- the late delivery offers its packet first
    let q := { p.setDelivery j d .removing with buf := Function.update p.buf call.ch (some d.pkt) }
    have hstep : next p (.offer j) = some q := by simp [next, hj, hdpc, hbuf, q]
    have hq : q.buf call.ch = some d.pkt := Function.update_self _ _ _
    obtain ⟨es, r, hrun, hr⟩ := receive_wrong (p := q) hcall hpc hq hseq
    exact ⟨.offer j :: es, r, run_cons_eq_some.mpr ⟨q, hstep, hrun⟩, hr⟩

/-- The same for a call that has just taken the channel: it stores it and sends. -/
theorem acquired_wrong (hcall : p.calls[i]? = some call) (hpc : call.pc = .acquired)
    (hexp : ¬ Expects p call.ch call.seq) : ∃ es q, run next p es = some q ∧ ¬ Correlated q := by
  let q := { p.setCall i { call with pc := .stored } with
    pending := Function.update p.pending (call.client, call.seq) (some call.ch) }
  have hq : next p (.store i) = some q := by simp [next, Process.callStep, hcall, hpc, q]
  have hqi : q.calls[i]? = some { call with pc := .stored } := by
    simp only [q, Process.setCall, getElem?_set_at hcall, if_pos]
  let r := { q.setCall i { call with pc := .waiting } with
    wire := q.wire ++ [(call.client, requestPacket call)] }
  have hr : next q (.send i true) = some r := by
    simp only [next, Process.callStep, hqi, if_true]
    rfl
  have hri : r.calls[i]? = some { call with pc := .waiting } := by
    simp only [r, Process.setCall, getElem?_set_at hqi, if_pos]
  obtain ⟨es, t, hrun, ht⟩ := waiting_wrong hri rfl hexp
  exact ⟨.store i :: .send i true :: es, t,
    run_cons_eq_some.mpr ⟨q, hq, run_cons_eq_some.mpr ⟨r, hr, hrun⟩⟩, ht⟩

/-- After a step that is not clean the run can go on to a call that is numbered 0
or returns a packet of another number. -/
theorem exists_mixed_up {p' : Process} {e : Event} (hclean : ¬ Clean p e)
    (hstep : next p e = some p') : ∃ es q, run next p' es = some q ∧ ¬ Correlated q := by
  cases e with
  | call client cmdId payload =>
    simp only [Clean, Classical.not_imp, not_not] at hclean
    obtain ⟨hsender, hzero⟩ := hclean
    simp only [next, hsender, if_true] at hstep
    cases hstep
    refine ⟨[], _, rfl, fun hcorrelated => ?_⟩
    refine hcorrelated.nonzero p.calls.length { client, cmdId, payload, seq := _ } ?_ hzero
    exact (getElem?_append_singleton (j := p.calls.length)).trans (if_pos rfl)
  | acquire i pooled =>
    cases pooled with
    | none => exact absurd trivial hclean
    | some ch =>
      obtain ⟨call, hcall, hpc, heq⟩ := callStep_eq_some.mp hstep
      split_ifs at heq with hmem
      cases heq
      have hexp : ¬ Expects p ch call.seq := by
        intro hexp
        refine hclean fun call' hcall' _ => ?_
        rw [hcall] at hcall'
        exact Option.some.inj hcall' ▸ hexp
      have hset : (p.setCall i { call with pc := .acquired, ch }).calls[i]? =
          some { call with pc := .acquired, ch } := by
        rw [Process.setCall, getElem?_set_at hcall, if_pos rfl]
      exact acquired_wrong (p := { p.setCall i { call with pc := .acquired, ch } with
        pool := p.pool.erase ch }) hset rfl hexp
  | _ => exact absurd trivial hclean

end MixUp

/-- Calls and replies are correlated in every state of a run of clean steps; and
any step that is not clean can be continued to a state where they are not. -/
theorem correlated_exact (sender : ℕ → Bool) :
    (∀ es p, RunOk next Clean (init sender) es → run next (init sender) es = some p →
      Correlated p) ∧
    (∀ es p e p', run next (init sender) es = some p → ¬ Clean p e → next p e = some p' →
      ∃ es' q, run next p' es' = some q ∧ ¬ Correlated q) :=
  ⟨fun _ _ hclean hrun => correlated_run hclean hrun,
    fun _ _ _ _ _ hclean hstep => exists_mixed_up hclean hstep⟩

/-- A packet with the given number. -/
def packetOf (seqId : UInt32) : Packet := ⟨{ seqId }, []⟩

/-- A call of client 0 gets channel 0 and sends; its reply arrives and `OnPacket`
loads the channel. -/
def lateReply : List Event :=
  [.call 0 7 [], .acquire 0 none, .store 0, .send 0 true, .onPacket 0 (packetOf 1), .load 0]

/-- The call times out and gives the channel back. -/
def timeOut : List Event := [.cancel 0, .delete 0, .drain 0, .put 0]

/-- A second call takes the channel from the pool and sends. -/
def secondCall : List Event := [.call 0 7 [], .acquire 1 (some 0), .store 1, .send 1 true]

/-- If the first reply is offered before the channel is drained, the second call
is clean; if it is still on its way, it is not. -/
theorem correlated_exact_lateReply :
    (∃ p, run next (init fun _ => true) (lateReply ++ [.offer 0] ++ timeOut ++ secondCall) = some p ∧
      Correlated p) ∧
    ∃ p p', run next (init fun _ => true) (lateReply ++ timeOut ++ [.call 0 7 []]) = some p ∧
      next p (.acquire 1 (some 0)) = some p' ∧
      ∃ es q, run next p' es = some q ∧ ¬ Correlated q := by
  refine ⟨⟨_, rfl, ?_⟩, ⟨_, _, rfl, rfl, ?_⟩⟩
  · exact (correlated_exact fun _ => true).1
      (lateReply ++ [.offer 0] ++ timeOut ++ secondCall) _ (by decide) rfl
  · exact (correlated_exact fun _ => true).2 (lateReply ++ timeOut ++ [.call 0 7 []]) _
      (.acquire 1 (some 0)) _ rfl (by decide) rfl

/-- After `n` calls of client 0 its counter is at `n`, modulo the width. -/
theorem run_calls (n : ℕ) : ∃ p, run next (init fun _ => true)
    (List.replicate n (.call 0 7 [])) = some p ∧ p.sender = (fun _ => true) ∧
      p.seqID 0 = UInt32.ofNat n := by
  induction n with
  | zero => exact ⟨_, rfl, rfl, rfl⟩
  | succ n ih =>
    obtain ⟨p, hrun, hsender, hseq⟩ := ih
    refine ⟨p.begin 0 7 [], ?_, hsender, ?_⟩
    · rw [List.replicate_succ', run_concat_eq_some]
      exact ⟨p, hrun, by simp [next, hsender]⟩
    · simp [Process.begin, hseq]

/-- The late reply reaches the second call, which returns a packet of the first
call's number; and the call after `2 ^ 32 - 1` others gets number 0. -/
theorem lateReply_mixed_up :
    (∃ p call, run next (init fun _ => true)
        (lateReply ++ timeOut ++ secondCall ++ [.offer 0, .receive 1]) = some p ∧
      p.calls[1]? = some call ∧ call.seq = 2 ∧
      call.pc.result = some (.reply (packetOf 1)) ∧ ¬ Correlated p) ∧
    ∃ p, run next (init fun _ => true) (List.replicate (2 ^ 32) (.call 0 7 [])) = some p ∧
      ¬ Correlated p := by
  constructor
  · refine ⟨_, _, rfl, rfl, rfl, rfl, fun h => ?_⟩
    exact absurd (h.matching 1 _ (packetOf 1) rfl rfl) (by decide)
  · obtain ⟨p, hrun, hsender, hseq⟩ := run_calls (2 ^ 32 - 1)
    refine ⟨p.begin 0 7 [], ?_, fun h => ?_⟩
    · rw [← Nat.succ_pred (show 2 ^ 32 ≠ 0 by decide), List.replicate_succ', run_concat_eq_some]
      exact ⟨p, hrun, by simp [next, hsender]⟩
    · refine h.nonzero p.calls.length _ (getElem?_append_singleton.trans (if_pos rfl)) ?_
      rw [hseq]
      decide

end Gmaker.Rpc.Go
