import Gmaker.Lib.Trap
import Gmaker.Net.Codec

/-!
# Gmaker.Net.KcpConnection — the control block of a KCP connection

`DoClose` gives the control block back to KCP and sets `kcp_` to null. The callbacks run on the
stack of the method that calls them and may call every method of the connection in turn, so that
a method goes on after its callback with a connection that may be closed: the loop of
`ProcessKCPData` asks for `closing_` again, `SendBatch` asks in every `Send`, and `Update` asks
for `close_after_write_` only.

KCP is called with a null pointer exactly in a run in which `CloseAfterWrite` has been called and
the connection has been closed when `Update` comes back from `ProcessKCPData`
(`KCPPacketConnection.nullCall_iff`).
-/

namespace Gmaker.Net.Kcp

open Gmaker.Lib

/-! ## The functions of KCP -/

/-- What the connection calls of `ikcp.c`, for a control block that is not null. -/
structure Ikcp (K : Type) where
  input : K → Bytes → K × ℤ
  update : K → UInt32 → K
  send : K → Bytes → K × ℤ
  waitsnd : K → ℤ
  peeksize : K → ℤ
  /-- The control block, what is in the buffer afterwards, and the result. -/
  recv : K → ℤ → K × Bytes × ℤ

/-! ## A connection -/

/-- What a method of the connection still has to do when the calls above it have returned. -/
inductive Frame where
  /-- The loop of `ProcessKCPData`, at its test. -/
  | loop
  /-- `Update` after `ProcessKCPData`. -/
  | update
  /-- The loop of `SendBatch`. -/
  | sendBatch (buffers : List Bytes) (ok : Bool)
  /-- `on_data_` with a packet. -/
  | onData (pkt : Packet)
  /-- `on_close_` -/
  | onClose
deriving DecidableEq

/-- `KCPPacketConnection`, with the methods that have not returned. -/
structure KCPPacketConnection (K : Type) where
  /-- `kcp_` -/
  kcp : Option K
  closed : Bool
  closing : Bool
  closeAfterWrite : Bool
  /-- `on_data_` is set. -/
  hasOnData : Bool
  hasOnClose : Bool
  lastActivityMs : UInt32
  stack : List Frame
  /-- A function of KCP was called with a null pointer. -/
  nullCall : Bool
deriving DecidableEq

/-- A call of a method. -/
inductive Call where
  | close
  | closeAfterWrite
  | sendPacket (pkt : Packet)
  | send (data : Bytes)
  | sendBatch (buffers : List Bytes)
  /-- A datagram has come in, and what the clock of the loop says. -/
  | onKCPRecv (data : Bytes) (now : UInt32)
  | update (currentMs : UInt32)
deriving DecidableEq

inductive ConnLabel where
  /-- The server, or the callback that is running, calls a method. -/
  | call (m : Call)
  /-- The callback that is running returns. -/
  | ret
  /-- The method on top goes on. -/
  | go
deriving DecidableEq

namespace KCPPacketConnection

variable {K : Type} (ikcp : Ikcp K)

/-- The constructor and `SetCallbacks`; `ikcp_create` may have failed. -/
def new (kcp : Option K) (hasOnData hasOnClose : Bool) (now : UInt32) : KCPPacketConnection K :=
  ⟨kcp, false, false, false, hasOnData, hasOnClose, now, [], false⟩

/-- A function of KCP is called with `kcp_`. -/
def onKcp (c : KCPPacketConnection K) (f : K → KCPPacketConnection K) : KCPPacketConnection K :=
  match c.kcp with
  | none => { c with nullCall := true }
  | some k => f k

/-- `DoClose`, until `on_close_` begins. -/
def doClose (c : KCPPacketConnection K) : KCPPacketConnection K :=
  if c.closed then c
  else
    { c with closed := true, kcp := none,
             stack := if c.hasOnClose then .onClose :: c.stack else c.stack }

/-- `Close`. -/
def close (c : KCPPacketConnection K) : KCPPacketConnection K :=
  if c.closing then c else doClose { c with closing := true }

/-- `close_after_write_.load() && ikcp_waitsnd(kcp_) == 0`, and then `Close`. -/
def closeIfWritten (c : KCPPacketConnection K) : KCPPacketConnection K :=
  if c.closeAfterWrite then c.onKcp fun k => if ikcp.waitsnd k = 0 then c.close else c
  else c

/-- `CloseAfterWrite`. -/
def setCloseAfterWrite (c : KCPPacketConnection K) : KCPPacketConnection K :=
  let c := { c with closeAfterWrite := true }
  match c.kcp with
  | none => c
  | some k => if ikcp.waitsnd k = 0 then c.close else c

/-- `Send`, with its result. -/
def send (c : KCPPacketConnection K) (data : Bytes) : KCPPacketConnection K × Bool :=
  match c.kcp with
  | none => (c, false)
  | some k =>
    if c.closing then (c, false)
    else
      let (k, ret) := ikcp.send k data
      let c := { c with kcp := some k }
      if ret < 0 then (c, false) else (c.closeIfWritten ikcp, true)

/-- `SendBatch`, until its loop. -/
def sendBatch (c : KCPPacketConnection K) (buffers : List Bytes) : KCPPacketConnection K :=
  if c.closing ∨ c.kcp.isNone then c else { c with stack := .sendBatch buffers true :: c.stack }

/-- `ProcessKCPData`, until its loop. -/
def processKCPData (c : KCPPacketConnection K) : KCPPacketConnection K :=
  if !c.hasOnData ∨ c.kcp.isNone then c else { c with stack := .loop :: c.stack }

/-- `OnKCPRecv`, until the loop of `ProcessKCPData`. -/
def onKCPRecv (c : KCPPacketConnection K) (data : Bytes) (now : UInt32) : KCPPacketConnection K :=
  match c.kcp with
  | none => c
  | some k =>
    if c.closing then c
    else
      let (k, ret) := ikcp.input k data
      let c := { c with kcp := some k }
      if ret < 0 then c else processKCPData { c with lastActivityMs := now }

/-- `Update`, until the loop of `ProcessKCPData`. -/
def update (c : KCPPacketConnection K) (currentMs : UInt32) : KCPPacketConnection K :=
  match c.kcp with
  | none => c
  | some k =>
    if c.closing then c
    else
      processKCPData
        { c with kcp := some (ikcp.update k currentMs), stack := .update :: c.stack }

/-- One round of the loop of `ProcessKCPData`; `rest` is below it. -/
def round (c : KCPPacketConnection K) (rest : List Frame) : KCPPacketConnection K :=
  let leave := { c with stack := rest }
  if c.closing then leave
  else c.onKcp fun k =>
    let peek := ikcp.peeksize k
    if peek ≤ 0 then leave
    else
      let (k, buf, len) := ikcp.recv k peek
      if len ≤ 0 then { leave with kcp := some k }
      else
        match Cpp.decodePacket buf with
        | none => { c with kcp := some k, stack := .loop :: rest }
        | some pkt => { c with kcp := some k, stack := .onData pkt :: .loop :: rest }

/-- One round of the loop of `SendBatch`. -/
def batchRound (c : KCPPacketConnection K) (buffers : List Bytes) (ok : Bool)
    (rest : List Frame) : KCPPacketConnection K :=
  match buffers with
  | [] => { c with stack := rest }
  | buf :: buffers =>
    let sent := (c.send ikcp buf).2
    (send ikcp { c with stack := .sendBatch buffers (ok && sent) :: rest } buf).1

/-- A method is called. -/
def invoke (c : KCPPacketConnection K) : Call → KCPPacketConnection K
  | .close => c.close
  | .closeAfterWrite => c.setCloseAfterWrite ikcp
  | .sendPacket pkt => (c.send ikcp (Cpp.encodePacket pkt)).1
  | .send data => (c.send ikcp data).1
  | .sendBatch buffers => c.sendBatch buffers
  | .onKCPRecv data now => c.onKCPRecv ikcp data now
  | .update currentMs => c.update ikcp currentMs

/-- What happens, if it can. -/
def act (c : KCPPacketConnection K) : ConnLabel → Option (KCPPacketConnection K)
  | .call m => match c.stack with
    | [] | .onData _ :: _ | .onClose :: _ => some (c.invoke ikcp m)
    | _ => none
  | .ret => match c.stack with
    | .onData _ :: rest | .onClose :: rest => some { c with stack := rest }
    | _ => none
  | .go => match c.stack with
    | .loop :: rest => some (c.round ikcp rest)
    | .update :: rest => some (closeIfWritten ikcp { c with stack := rest })
    | .sendBatch buffers ok :: rest => some (c.batchRound ikcp buffers ok rest)
    | _ => none

/-- One step, as long as KCP was not called with a null pointer. -/
def next (c : KCPPacketConnection K) (l : ConnLabel) : Option (KCPPacketConnection K) :=
  if c.nullCall then none else c.act ikcp l

/-- `IsDead`. -/
def isDead (c : KCPPacketConnection K) (currentMs : UInt32) : Bool :=
  c.closing || decide (60000 < currentMs - c.lastActivityMs)

/-- The condition: when `Update` goes on after `ProcessKCPData`, a connection that is to be closed
after writing has not been closed. -/
def Keeps (c : KCPPacketConnection K) : ConnLabel → Prop
  | .go => c.stack.head? = some .update → c.closeAfterWrite = true → c.closing = false
  | _ => True

/-! ## What the methods keep -/

/-- As long as the condition is met. -/
structure Inv (c : KCPPacketConnection K) : Prop where
  closed : c.closed = c.closing
  released : c.closing = true → c.kcp = none
  /-- Below every callback the control block is gone only if the connection is closed. -/
  held : c.stack ≠ [] → c.kcp = none → c.closing = true
  safe : c.nullCall = false

variable {ikcp} {c c' : KCPPacketConnection K} {k : K} {l : ConnLabel} {rest : List Frame}

theorem Inv.of_new (kcp : Option K) (hasOnData hasOnClose : Bool) (now : UInt32) :
    Inv (new kcp hasOnData hasOnClose now) where
  closed := rfl
  released h := absurd h Bool.false_ne_true
  held h := absurd rfl h
  safe := rfl

/-- Methods return, or new ones begin while the control block is there. -/
theorem Inv.withStack (h : Inv c) (hheld : c.kcp = none → c.closing = true) :
    Inv { c with stack := rest } where
  closed := h.closed
  released := h.released
  held _ := hheld
  safe := h.safe

/-- KCP has changed its control block. -/
theorem Inv.withKcp (h : Inv c) (hopen : c.closing = false) : Inv { c with kcp := some k } where
  closed := h.closed
  released hc := by
    rw [hopen] at hc
    cases hc
  held _ hnone := by cases hnone
  safe := h.safe

theorem Inv.close (h : Inv c) : Inv c.close := by
  unfold KCPPacketConnection.close
  by_cases hc : c.closing = true
  · rw [if_pos hc]
    exact h
  · -- `closed_` is as `closing_` was
    rw [if_neg hc]
    have hopen : ¬ c.closed = true := by
      rw [h.closed]
      exact hc
    unfold doClose
    rw [if_neg hopen]
    exact ⟨rfl, fun _ => rfl, fun _ _ => rfl, h.safe⟩

theorem Inv.closeIfWritten (h : Inv c) (hkcp : c.closeAfterWrite = true → c.kcp ≠ none) :
    Inv (c.closeIfWritten ikcp) := by
  unfold KCPPacketConnection.closeIfWritten onKcp
  by_cases hc : c.closeAfterWrite = true
  · rw [if_pos hc]
    cases hk : c.kcp with
    | none => exact absurd hk (hkcp hc)
    | some k =>
      show Inv (if ikcp.waitsnd k = 0 then c.close else c)
      split
      · exact h.close
      · exact h
  · rw [if_neg hc]
    exact h

theorem Inv.setCloseAfterWrite (h : Inv c) : Inv (c.setCloseAfterWrite ikcp) := by
  have hset : Inv { c with closeAfterWrite := true } := ⟨h.closed, h.released, h.held, h.safe⟩
  unfold KCPPacketConnection.setCloseAfterWrite
  dsimp only
  split
  · exact hset
  · split
    · exact hset.close
    · exact hset

/-- After `ikcp_send` no callback has run: the control block is still there. -/
theorem Inv.send (h : Inv c) (data : Bytes) : Inv (c.send ikcp data).1 := by
  unfold KCPPacketConnection.send
  cases hk : c.kcp with
  | none => exact h
  | some k =>
    dsimp only
    by_cases hc : c.closing = true
    · rw [if_pos hc]
      exact h
    · rw [if_neg hc]
      have hsent : Inv { c with kcp := some (ikcp.send k data).1 } :=
        h.withKcp (Bool.eq_false_iff.mpr hc)
      split
      · exact hsent
      · exact hsent.closeIfWritten fun _ => Option.some_ne_none _

theorem Inv.sendBatch (h : Inv c) (buffers : List Bytes) : Inv (c.sendBatch buffers) := by
  unfold KCPPacketConnection.sendBatch
  split
  · exact h
  · next hno =>
    refine h.withStack fun hnone => absurd (Or.inr ?_) hno
    rw [hnone]
    rfl

theorem Inv.processKCPData (h : Inv c) : Inv c.processKCPData := by
  unfold KCPPacketConnection.processKCPData
  split
  · exact h
  · next hno =>
    refine h.withStack fun hnone => absurd (Or.inr ?_) hno
    rw [hnone]
    rfl

theorem Inv.onKCPRecv (h : Inv c) (data : Bytes) (now : UInt32) :
    Inv (c.onKCPRecv ikcp data now) := by
  unfold KCPPacketConnection.onKCPRecv
  cases hk : c.kcp with
  | none => exact h
  | some k =>
    dsimp only
    by_cases hc : c.closing = true
    · rw [if_pos hc]
      exact h
    · rw [if_neg hc]
      have hin : Inv { c with kcp := some (ikcp.input k data).1 } :=
        h.withKcp (Bool.eq_false_iff.mpr hc)
      split
      · exact hin
      · exact Inv.processKCPData ⟨hin.closed, hin.released, hin.held, hin.safe⟩

theorem Inv.update (h : Inv c) (currentMs : UInt32) : Inv (c.update ikcp currentMs) := by
  unfold KCPPacketConnection.update
  cases hk : c.kcp with
  | none => exact h
  | some k =>
    dsimp only
    by_cases hc : c.closing = true
    · rw [if_pos hc]
      exact h
    · rw [if_neg hc]
      have hup : Inv { c with kcp := some (ikcp.update k currentMs) } :=
        h.withKcp (Bool.eq_false_iff.mpr hc)
      have hframe : Inv { c with kcp := some (ikcp.update k currentMs), stack := .update :: c.stack } :=
        hup.withStack (c := { c with kcp := some (ikcp.update k currentMs) }) fun hnone => nomatch hnone
      exact hframe.processKCPData

theorem Inv.invoke (h : Inv c) (m : Call) : Inv (c.invoke ikcp m) := by
  cases m with
  | close => exact h.close
  | closeAfterWrite => exact h.setCloseAfterWrite
  | sendPacket pkt => exact h.send _
  | send data => exact h.send data
  | sendBatch buffers => exact h.sendBatch buffers
  | onKCPRecv data now => exact h.onKCPRecv data now
  | update currentMs => exact h.update currentMs

/-- The loop has asked for `closing_`, so that it has a control block. -/
theorem Inv.round (h : Inv c) (hheld : c.kcp = none → c.closing = true) :
    Inv (c.round ikcp rest) := by
  unfold KCPPacketConnection.round onKcp
  by_cases hc : c.closing = true
  · rw [if_pos hc]
    exact h.withStack hheld
  · rw [if_neg hc]
    have hopen : c.closing = false := Bool.eq_false_iff.mpr hc
    have hkeep (k : K) (rest : List Frame) : Inv { c with kcp := some k, stack := rest } :=
      (h.withKcp hopen).withStack (c := { c with kcp := some k }) fun hnone => nomatch hnone
    cases hk : c.kcp with
    | none => exact absurd (hheld hk) hc
    | some k =>
      dsimp only
      split
      · exact hkeep _ _
      · split
        · exact hkeep _ _
        · split
          · exact hkeep _ _
          · exact hkeep _ _

theorem Inv.batchRound (h : Inv c) (hheld : c.kcp = none → c.closing = true)
    (buffers : List Bytes) (ok : Bool) : Inv (c.batchRound ikcp buffers ok rest) := by
  cases buffers with
  | nil => exact h.withStack hheld
  | cons buf buffers => exact (h.withStack hheld).send buf

/-! ## Runs -/

/-- A step that meets the condition keeps the invariant. -/
theorem Inv.step (h : Inv c) (hkeeps : Keeps c l) (hnext : c.next ikcp l = some c') : Inv c' := by
  unfold next at hnext
  rw [h.safe, if_neg Bool.false_ne_true] at hnext
  cases l with
  | call m =>
    simp only [act] at hnext
    split at hnext
    · cases hnext
      exact h.invoke m
    · cases hnext
      exact h.invoke m
    · cases hnext
      exact h.invoke m
    · cases hnext
  | ret =>
    simp only [act] at hnext
    split at hnext
    · next hstack =>
      cases hnext
      exact h.withStack (h.held (by simp [hstack]))
    · next hstack =>
      cases hnext
      exact h.withStack (h.held (by simp [hstack]))
    · cases hnext
  | go =>
    simp only [act] at hnext
    split at hnext
    · next hstack =>
      cases hnext
      exact h.round (h.held (by simp [hstack]))
    · -- `Update`: by the condition the connection is open if the control block is needed
      next rest hstack =>
      have hheld : c.kcp = none → c.closing = true := h.held (by simp [hstack])
      cases hnext
      refine (h.withStack hheld).closeIfWritten fun hwrite hnone => ?_
      have hopen : c.closing = false := hkeeps (by simp [hstack]) hwrite
      rw [hheld hnone] at hopen
      cases hopen
    · next hstack =>
      cases hnext
      exact h.batchRound (h.held (by simp [hstack])) _ _
    · cases hnext

/-- One that does not calls KCP with a null pointer. -/
theorem Inv.nullCall (h : Inv c) (hno : ¬ Keeps c l) (hnext : c.next ikcp l = some c') :
    c'.nullCall = true := by
  unfold next at hnext
  rw [h.safe, if_neg Bool.false_ne_true] at hnext
  cases l with
  | call m => exact absurd trivial hno
  | ret => exact absurd trivial hno
  | go =>
    simp only [Keeps, Classical.not_imp, Bool.not_eq_false] at hno
    obtain ⟨hhead, hwrite, hclosing⟩ := hno
    obtain ⟨rest, hstack⟩ : ∃ rest, c.stack = .update :: rest := by
      cases hs : c.stack with
      | nil => simp [hs] at hhead
      | cons f rest =>
        rw [hs, List.head?_cons, Option.some.injEq] at hhead
        exact ⟨rest, hhead ▸ rfl⟩
    have hnone : c.kcp = none := h.released hclosing
    simp only [act, hstack, Option.some.injEq] at hnext
    rw [← hnext]
    unfold KCPPacketConnection.closeIfWritten onKcp
    rw [if_pos hwrite]
    simp only [hnone]

/-- In every run KCP is called with a null pointer unless all steps have met the condition. -/
theorem nullCall_iff (ikcp : Ikcp K) (kcp : Option K) (hasOnData hasOnClose : Bool) (now : UInt32)
    {ls : List ConnLabel} (hrun : run (next ikcp) (new kcp hasOnData hasOnClose now) ls = some c) :
    RunOk (next ikcp) Keeps (new kcp hasOnData hasOnClose now) ls ↔ c.nullCall = false := by
  refine runOk_iff_of_trap (I := Inv) (B := fun c => c.nullCall = true) ?_ ?_ ?_
    (Inv.of_new kcp hasOnData hasOnClose now) hrun (fun h => h.safe) ?_
  · exact fun s l s' h hkeeps hs => h.step hkeeps hs
  · exact fun s l s' h hno hs => h.nullCall hno hs
  · -- there is no step after it
    intro s l s' hnull hs
    rw [next, if_pos hnull] at hs
    cases hs
  · intro hnull hsafe
    rw [hnull] at hsafe
    cases hsafe

end KCPPacketConnection

/-! ## A control block -/

/-- A control block for messages of one segment, of which those to be sent are never acknowledged. -/
structure Ikcpcb where
  conv : ℕ
  rcvNxt : ℕ
  rcvWnd : ℕ
  rcvQueue : List Bytes
  /-- `snd_queue` and `snd_buf`. -/
  sndQueue : List Bytes
deriving DecidableEq

namespace Ikcpcb

/-- `ikcp_decode32u`: the low byte comes first. -/
def decode32u (data : Bytes) : ℕ := ofBE (data.take 4).reverse

/-- The loop of `ikcp_input`, for so many segments at most; what a `PUSH` segment carries goes to
the queue if it is the next one. -/
def inputLoop (kcp : Ikcpcb) (data : Bytes) : ℕ → Ikcpcb × ℤ
  | 0 => (kcp, 0)
  | fuel + 1 =>
    if data.length < 24 then (kcp, 0)
    else if decode32u data ≠ kcp.conv then (kcp, -1)
    else
      let cmd := data.getD 4 0
      let sn := decode32u (data.drop 12)
      let len := decode32u (data.drop 20)
      let rest := data.drop 24
      if rest.length < len ∨ 2 ^ 31 ≤ len then (kcp, -2)
      else if cmd < 81 ∨ 84 < cmd then (kcp, -3)
      else if cmd = 81 ∧ sn = kcp.rcvNxt ∧ kcp.rcvQueue.length < kcp.rcvWnd then
        inputLoop { kcp with rcvNxt := kcp.rcvNxt + 1, rcvQueue := kcp.rcvQueue ++ [rest.take len] }
          (rest.drop len) fuel
      else inputLoop kcp (rest.drop len) fuel

/-- `ikcp_recv`. -/
def recv (kcp : Ikcpcb) (len : ℤ) : Ikcpcb × Bytes × ℤ :=
  match kcp.rcvQueue with
  | [] => (kcp, List.replicate len.toNat 0, -1)
  | msg :: queue =>
    if len < msg.length then (kcp, List.replicate len.toNat 0, -3)
    else ({ kcp with rcvQueue := queue },
      msg ++ List.replicate (len.toNat - msg.length) 0, msg.length)

def ikcp : Ikcp Ikcpcb where
  input kcp data := if data.length < 24 then (kcp, -1) else inputLoop kcp data data.length
  update kcp _ := kcp
  send kcp data := ({ kcp with sndQueue := kcp.sndQueue ++ [data] }, 0)
  waitsnd kcp := kcp.sndQueue.length
  peeksize kcp := match kcp.rcvQueue with
    | [] => -1
    | msg :: _ => msg.length
  recv := recv

end Ikcpcb

namespace KCPPacketConnection

/-- The connection after the handshake. -/
def opened : KCPPacketConnection Ikcpcb := new (some ⟨1, 0, 128, [], []⟩) true true 0

/-- A `PUSH` segment with the sequence number, of the first conversation. -/
def push (sn : UInt8) (data : Bytes) : Bytes :=
  [1, 0, 0, 0, 81, 0, 128, 0] ++ [0, 0, 0, 0] ++ [sn, 0, 0, 0] ++ [0, 0, 0, 0] ++
    [UInt8.ofNat data.length, 0, 0, 0] ++ data

/-- A packet without payload. -/
def emptyPacket : Packet := ⟨{ length := 34, cmdId := 1 }, []⟩

/-- The callback closes the connection on which nothing is to be written. -/
def closedInCallback : List ConnLabel :=
  [.call (.send [7]), .call (.onKCPRecv (push 0 (Cpp.encodePacket emptyPacket)) 5), .go,
    .call .close, .ret, .ret, .go, .call (.update 10)]

theorem nullCall_closedInCallback :
    RunOk (next Ikcpcb.ikcp) Keeps opened closedInCallback :=
  (nullCall_iff Ikcpcb.ikcp (some ⟨1, 0, 128, [], []⟩) true true 0
    (c := ⟨none, true, true, false, true, true, 5, [], false⟩) (by decide)).mpr rfl

/-- There is data to be written when `CloseAfterWrite` is called. A packet comes in a datagram that
ends with a segment of another conversation, so that it waits for the next tick; then the callback
closes the connection. -/
def closedInUpdate : List ConnLabel :=
  [.call (.send [7]), .call .closeAfterWrite,
    .call (.onKCPRecv (push 0 (Cpp.encodePacket emptyPacket) ++ List.replicate 24 9) 5),
    .call (.update 10), .go, .call .close, .ret, .ret, .go, .go]

/-- `Update` asks KCP what is to be written, of a control block that is gone. -/
theorem nullCall_closedInUpdate : ∃ c, run (next Ikcpcb.ikcp) opened closedInUpdate = some c ∧
    c.kcp = none ∧ c.nullCall = true :=
  ⟨⟨none, true, true, true, true, true, 0, [], true⟩, by decide, rfl, rfl⟩

end KCPPacketConnection

end Gmaker.Net.Kcp
