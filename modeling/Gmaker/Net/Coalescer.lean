import Gmaker.Lib.Machine
import Gmaker.Net.Packet

/-!
# Gmaker.Net.Coalescer — writes that are held back for a frame

`AsyncWriteCoalescer` keeps buffers for up to an interval, then hands each connection
its buffers in one batch. It knows a connection by its address. A WebSocket adapter that
is in `ws_clients_` is kept alive by its pending entries; a TCP connection is not, and
may have been destroyed, and its address given to another one, when the flush comes. An
adapter that has just left `ws_clients_` fares no better.

Bytes reach the connection they were enqueued for, in order and once, if no connection
is destroyed while the coalescer has entries for its address that do not own it
(`Safe`, `deliver_exact`).
-/

namespace Gmaker.Net.Coalescer

open Gmaker.Lib

/-! ## Connections and entries -/

/-- The connections that are put into `clients_`. -/
inductive Transport where
  | tcp
  | ws
  | kcp
deriving DecidableEq

/-- A connection object: an `AsyncTCPConnection`, the adapter of a WebSocket, or a
`KCPPacketConnection`. -/
structure Conn where
  transport : Transport
  addr : ℕ
  /-- `Close` has been called: `SendBatch` returns false -/
  closed : Bool := false
  /-- in `ws_clients_` or `kcp_clients_` -/
  own : Bool
  /-- in `clients_` -/
  registered : Bool := true
  destroyed : Bool := false
deriving DecidableEq

/-- A connection that has just been accepted. -/
def Conn.new (transport : Transport) (addr : ℕ) : Conn where
  transport := transport
  addr := addr
  own := transport ≠ .tcp

/-- `Pending`. -/
structure Entry where
  conn : ℕ
  owner : Option ℕ
  data : Bytes
  /-- log: the connection, by its index -/
  target : ℕ
deriving DecidableEq

/-- `SendBatch` has taken an entry. -/
structure Delivery where
  dest : ℕ
  entry : Entry
  /-- whether the connection was closed then -/
  closed : Bool
deriving DecidableEq

/-- The gateway's connections, the memory they are in, and the coalescer. -/
structure State where
  conns : List Conn := []
  /-- the object at an address -/
  mem : ℕ → Option ℕ := fun _ => none
  pending : List Entry := []
  /-- `DoFlush` runs -/
  busy : Bool := false
  /-- the entries of `local` whose batch has not been sent -/
  flushing : List Entry := []
  /-- `owners` of `DoFlush` -/
  owners : List ℕ := []
  /-- log -/
  enqueued : List Entry := []
  delivered : List Delivery := []
  /-- log: a method was called on memory with no object in it -/
  fault : Bool := false

/-- The batches of `DoFlush`, by address. -/
def batches (entries : List Entry) : ℕ → List Entry :=
  entries.foldl (fun b p => Function.update b p.conn (b p.conn ++ [p])) fun _ => []

/-- A batch has the entries of its address, in order. -/
theorem batches_eq (entries : List Entry) (a : ℕ) :
    batches entries a = entries.filter (·.conn = a) := by
  -- from the last entry on: it is put at the end of its batch
  induction entries using List.reverseRecOn with
  | nil => rfl
  | append_singleton entries p ih =>
    have hlast : batches (entries ++ [p]) =
        Function.update (batches entries) p.conn (batches entries p.conn ++ [p]) := by
      unfold batches
      rw [List.foldl_append]
      rfl
    rw [hlast, List.filter_append]
    by_cases ha : a = p.conn
    · subst ha
      rw [Function.update_self, ih]
      simp
    · rw [Function.update_of_ne ha, ih, List.filter_cons_of_neg (by simpa using Ne.symm ha)]
      simp

/-! ## Steps -/

inductive Event where
  /-- a new connection, at an address that is free -/
  | accept (transport : Transport) (addr : ℕ)
  /-- `enqueue_to_client` -/
  | enqueue (i : ℕ) (data : Bytes)
  | close (i : ℕ)
  /-- `OnWebSocketClose` and `OnKCPClose`: the connection leaves its own table -/
  | detach (i : ℕ)
  /-- the connection leaves `clients_`; so ends every close callback -/
  | onClose (i : ℕ)
  /-- the last reference goes -/
  | destroy (i : ℕ)
  /-- `DoFlush` takes the pending entries -/
  | flush
  /-- `conn->SendBatch(buffers)` for one of the batches -/
  | sendBatch (addr : ℕ)
  | flushed
deriving DecidableEq

namespace State

/-- The entry that is made for a connection; a WebSocket adapter is shared. -/
def entryFor (i : ℕ) (c : Conn) (data : Bytes) : Entry where
  conn := c.addr
  owner := if c.transport = .ws ∧ c.own then some i else none
  data := data
  target := i

def setConn (s : State) (i : ℕ) (c : Conn) : State := { s with conns := s.conns.set i c }

/-- Whether an entry or the running flush keeps the object alive. -/
def owned (s : State) (i : ℕ) : Bool :=
  s.pending.any (·.owner = some i) || decide (i ∈ s.owners)

/-- `SendBatch` on the object at the address. -/
def sendBatch (s : State) (a : ℕ) : State :=
  let buffers := batches s.flushing a
  let s := { s with flushing := s.flushing.filter (·.conn ≠ a) }
  match s.mem a with
  | none => { s with fault := true }
  | some i =>
    match s.conns[i]? with
    | none => { s with fault := true }
    | some c =>
      if c.closed then s
      else
        { s with delivered := s.delivered ++
            buffers.map fun p => { dest := i, entry := p, closed := c.closed } }

def next (s : State) : Event → Option State
  | .accept transport addr =>
    if s.mem addr = none then
      some { s with
        conns := s.conns ++ [.new transport addr]
        mem := Function.update s.mem addr (some s.conns.length) }
    else none
  | .enqueue i data =>
    s.conns[i]?.bind fun c =>
      if c.registered then
        -- a KCP connection is on another loop: it is sent the packet at once
        if c.transport = .kcp ∧ c.own then some s
        else
          some { s with
            pending := s.pending ++ [entryFor i c data]
            enqueued := s.enqueued ++ [entryFor i c data] }
      else none
  | .close i =>
    s.conns[i]?.bind fun c =>
      if c.destroyed then none else some (s.setConn i { c with closed := true })
  | .detach i =>
    s.conns[i]?.bind fun c =>
      if c.closed ∧ c.own then some (s.setConn i { c with own := false }) else none
  | .onClose i =>
    s.conns[i]?.bind fun c =>
      if c.closed ∧ c.own = false ∧ c.registered then
        some (s.setConn i { c with registered := false })
      else none
  | .destroy i =>
    s.conns[i]?.bind fun c =>
      if c.registered ∨ c.destroyed ∨ s.owned i then none
      else
        some { s.setConn i { c with destroyed := true } with
          mem := Function.update s.mem c.addr none }
  | .flush =>
    if s.busy then none
    else
      some { s with
        pending := []
        busy := true
        flushing := s.pending
        owners := s.pending.filterMap (·.owner) }
  | .sendBatch a => if batches s.flushing a = [] then none else some (s.sendBatch a)
  | .flushed =>
    if s.busy ∧ s.flushing = [] then some { s with busy := false, owners := [] } else none

/-- What was enqueued for a connection, and what it was sent. -/
def enqueuedFor (s : State) (i : ℕ) : List Entry := s.enqueued.filter (·.target = i)

def deliveredTo (s : State) (i : ℕ) : List Entry :=
  (s.delivered.filter (·.dest = i)).map (·.entry)

/-- Nothing is delivered to another connection, or to a closed one; each connection gets
what was enqueued for it in order, and each entry at most once; and no object is used
after its end. -/
structure Safe (s : State) : Prop where
  target : ∀ d ∈ s.delivered, d.dest = d.entry.target
  closed : ∀ d ∈ s.delivered, d.closed = false
  order : ∀ i, (s.deliveredTo i).Sublist (s.enqueuedFor i)
  fault : s.fault = false

/-- No connection goes while there are entries for its address without an owner. -/
def Ok (s : State) : Event → Prop
  | .destroy i => ∀ c, s.conns[i]? = some c →
      ∀ p ∈ s.pending ++ s.flushing, p.owner = none → p.conn ≠ c.addr
  | _ => True

/-! ## The invariant -/

/-- The memory holds the objects that have not been destroyed; an entry's object is one
of them, and is the connection the entry was made for. -/
structure Inv (s : State) : Prop where
  live : ∀ (i : ℕ) (c : Conn), s.conns[i]? = some c → c.destroyed = false → s.mem c.addr = some i
  object : ∀ a i, s.mem a = some i → ∃ c : Conn, s.conns[i]? = some c ∧ c.addr = a
  entry : ∀ p ∈ s.pending ++ s.flushing, s.mem p.conn = some p.target
  owner : ∀ p ∈ s.pending ++ s.flushing, ∀ i, p.owner = some i → p.target = i
  owners : ∀ p ∈ s.flushing, ∀ i, p.owner = some i → i ∈ s.owners
  idle : s.busy = false → s.flushing = []
  registered : ∀ (i : ℕ) (c : Conn), s.conns[i]? = some c → c.registered = true → c.destroyed = false
  target : ∀ d ∈ s.delivered, d.dest = d.entry.target
  closed : ∀ d ∈ s.delivered, d.closed = false
  order : ∀ i, (s.deliveredTo i ++ s.flushing.filter (·.target = i) ++
    s.pending.filter (·.target = i)).Sublist (s.enqueuedFor i)
  fault : s.fault = false

theorem Inv.safe {s : State} (h : Inv s) : s.Safe where
  target := h.target
  closed := h.closed
  order := fun i => by
    have horder := h.order i
    rw [List.append_assoc] at horder
    exact (List.sublist_append_left _ _).trans horder
  fault := h.fault

theorem inv_init : Inv {} where
  live := fun i c hc => by simp at hc
  object := fun a i ha => by cases ha
  entry := fun p hp => by simp at hp
  owner := fun p hp => by simp at hp
  owners := fun p hp => by simp at hp
  idle := fun _ => rfl
  registered := fun i c hc => by simp at hc
  target := fun d hd => by simp at hd
  closed := fun d hd => by simp at hd
  order := fun i => List.nil_sublist _
  fault := rfl

section Steps

variable {s : State} {i : ℕ} {c c' : Conn}

/-- The new object's address was free, so no entry is for it. -/
theorem Inv.accept (h : Inv s) (transport : Transport) {addr : ℕ} (hfree : s.mem addr = none) :
    Inv { s with
      conns := s.conns ++ [.new transport addr]
      mem := Function.update s.mem addr (some s.conns.length) } := by
  have hold : ∀ {j : ℕ} {d : Conn}, s.conns[j]? = some d →
      (s.conns ++ [Conn.new transport addr])[j]? = some d := by
    intro j d hd
    obtain ⟨hlt, -⟩ := List.getElem?_eq_some_iff.mp hd
    rw [List.getElem?_append_left hlt, hd]
  have hnew : ∀ {j : ℕ} {d : Conn}, (s.conns ++ [Conn.new transport addr])[j]? = some d →
      s.conns[j]? = some d ∨ j = s.conns.length ∧ d = .new transport addr := by
    intro j d hd
    rcases lt_or_ge j s.conns.length with hlt | hge
    · rw [List.getElem?_append_left hlt] at hd
      exact Or.inl hd
    · rw [List.getElem?_append_right hge] at hd
      rw [List.getElem?_singleton] at hd
      split_ifs at hd with hzero
      exact Or.inr ⟨by omega, (Option.some.inj hd).symm⟩
  refine { h with live := ?_, object := ?_, entry := ?_, registered := ?_ }
  · intro j d hd hlive
    rcases hnew hd with hd' | ⟨rfl, rfl⟩
    · have hmem := h.live j d hd' hlive
      have hne : d.addr ≠ addr := by
        intro heq
        rw [heq, hfree] at hmem
        cases hmem
      exact (Function.update_of_ne hne _ _).trans hmem
    · exact Function.update_self _ _ _
  · intro a j ha
    change Function.update s.mem addr (some s.conns.length) a = some j at ha
    by_cases haddr : a = addr
    · subst haddr
      rw [Function.update_self, Option.some.injEq] at ha
      subst ha
      exact ⟨.new transport a, List.getElem?_concat_length, rfl⟩
    · rw [Function.update_of_ne haddr] at ha
      obtain ⟨d, hd, hda⟩ := h.object a j ha
      exact ⟨d, hold hd, hda⟩
  · intro p hp
    have hmem := h.entry p hp
    have hne : p.conn ≠ addr := by
      intro heq
      rw [heq, hfree] at hmem
      cases hmem
    exact (Function.update_of_ne hne _ _).trans hmem
  · intro j d hd hreg
    rcases hnew hd with hd' | ⟨-, rfl⟩
    · exact h.registered j d hd' hreg
    · rfl

/-- The new entry comes last. -/
theorem Inv.enqueue (h : Inv s) (hc : s.conns[i]? = some c) (hreg : c.registered = true)
    (data : Bytes) :
    Inv { s with
      pending := s.pending ++ [entryFor i c data]
      enqueued := s.enqueued ++ [entryFor i c data] } := by
  have hlive := h.live i c hc (h.registered i c hc hreg)
  have hcases : ∀ p, p ∈ (s.pending ++ [entryFor i c data]) ++ s.flushing →
      p ∈ s.pending ++ s.flushing ∨ p = entryFor i c data := by
    intro p hp
    rw [List.mem_append, List.mem_append, List.mem_singleton] at hp
    rw [List.mem_append]
    tauto
  refine { h with entry := ?_, owner := ?_, order := ?_ }
  · intro p hp
    rcases hcases p hp with hp' | rfl
    · exact h.entry p hp'
    · exact hlive
  · intro p hp j howner
    rcases hcases p hp with hp' | rfl
    · exact h.owner p hp' j howner
    · unfold entryFor at howner
      split_ifs at howner
      exact Option.some.inj howner
  · intro j
    have horder := h.order j
    change (s.deliveredTo j ++ s.flushing.filter _ ++ (s.pending ++ [entryFor i c data]).filter _).Sublist
      ((s.enqueued ++ [entryFor i c data]).filter _)
    rw [List.filter_append, List.filter_append, ← List.append_assoc]
    exact horder.append (List.Sublist.refl _)

/-- What does not move the object. -/
theorem Inv.setConn (h : Inv s) (hc : s.conns[i]? = some c) (haddr : c'.addr = c.addr)
    (hdestroyed : c'.destroyed = c.destroyed)
    (hreg : c'.registered = true → c.registered = true) : Inv (s.setConn i c') := by
  have hget : ∀ {j : ℕ} {d : Conn}, (s.conns.set i c')[j]? = some d →
      s.conns[j]? = some d ∨ j = i ∧ d = c' := by
    intro j d hd
    by_cases hj : i = j
    · subst hj
      obtain ⟨hlt, -⟩ := List.getElem?_eq_some_iff.mp hc
      rw [List.getElem?_set_self hlt, Option.some.injEq] at hd
      exact Or.inr ⟨rfl, hd.symm⟩
    · rw [List.getElem?_set_ne hj] at hd
      exact Or.inl hd
  refine { h with live := ?_, object := ?_, registered := ?_ }
  · intro j d hd hlive
    rcases hget hd with hd' | ⟨rfl, rfl⟩
    · exact h.live j d hd' hlive
    · rw [haddr]
      exact h.live j c hc (hdestroyed ▸ hlive)
  · intro a j ha
    obtain ⟨d, hd, hda⟩ := h.object a j ha
    by_cases hj : i = j
    · subst hj
      obtain ⟨hlt, -⟩ := List.getElem?_eq_some_iff.mp hc
      rw [hc, Option.some.injEq] at hd
      exact ⟨c', List.getElem?_set_self hlt, by rw [haddr, hd, hda]⟩
    · exact ⟨d, (List.getElem?_set_ne hj).trans hd, hda⟩
  · intro j d hd hr
    rcases hget hd with hd' | ⟨rfl, rfl⟩
    · exact h.registered j d hd' hr
    · rw [hdestroyed]
      exact h.registered j c hc (hreg hr)

/-- The object goes, and no entry is for it. -/
theorem Inv.destroy (h : Inv s) (hc : s.conns[i]? = some c) (hreg : c.registered = false)
    (hlive : c.destroyed = false) (hentry : ∀ p ∈ s.pending ++ s.flushing, p.target ≠ i) :
    Inv { s.setConn i { c with destroyed := true } with
      mem := Function.update s.mem c.addr none } := by
  have hmem := h.live i c hc hlive
  have hget : ∀ {j : ℕ} {d : Conn}, (s.conns.set i { c with destroyed := true })[j]? = some d →
      j ≠ i ∧ s.conns[j]? = some d ∨ j = i ∧ d = { c with destroyed := true } := by
    intro j d hd
    by_cases hj : i = j
    · subst hj
      obtain ⟨hlt, -⟩ := List.getElem?_eq_some_iff.mp hc
      rw [List.getElem?_set_self hlt, Option.some.injEq] at hd
      exact Or.inr ⟨rfl, hd.symm⟩
    · rw [List.getElem?_set_ne hj] at hd
      exact Or.inl ⟨Ne.symm hj, hd⟩
  -- another object is at another address
  have hother : ∀ {a j : ℕ}, s.mem a = some j → j ≠ i → a ≠ c.addr := by
    intro a j ha hj heq
    rw [heq, hmem, Option.some.injEq] at ha
    exact hj ha.symm
  refine { h with live := ?_, object := ?_, entry := ?_, registered := ?_ }
  · intro j d hd hl
    rcases hget hd with ⟨hj, hd'⟩ | ⟨-, rfl⟩
    · have hmem' := h.live j d hd' hl
      exact (Function.update_of_ne (hother hmem' hj) _ _).trans hmem'
    · cases hl
  · intro a j ha
    change Function.update s.mem c.addr none a = some j at ha
    by_cases haddr : a = c.addr
    · rw [haddr, Function.update_self] at ha
      cases ha
    · rw [Function.update_of_ne haddr] at ha
      obtain ⟨d, hd, hda⟩ := h.object a j ha
      by_cases hj : i = j
      · subst hj
        rw [hc, Option.some.injEq] at hd
        exact absurd (hd ▸ hda).symm haddr
      · exact ⟨d, (List.getElem?_set_ne hj).trans hd, hda⟩
  · intro p hp
    have hmem' := h.entry p hp
    exact (Function.update_of_ne (hother hmem' (hentry p hp)) _ _).trans hmem'
  · intro j d hd hr
    rcases hget hd with ⟨-, hd'⟩ | ⟨-, rfl⟩
    · exact h.registered j d hd' hr
    · change c.registered = true at hr
      rw [hreg] at hr
      cases hr

/-- The pending entries are moved; their owners go with them. -/
theorem Inv.flush (h : Inv s) (hflushing : s.flushing = []) :
    Inv { s with
      pending := []
      busy := true
      flushing := s.pending
      owners := s.pending.filterMap (·.owner) } := by
  have hmem : ∀ p, p ∈ [] ++ s.pending → p ∈ s.pending ++ s.flushing := by
    intro p hp
    exact List.mem_append_left _ hp
  refine { h with entry := ?_, owner := ?_, owners := ?_, idle := ?_, order := ?_ }
  · exact fun p hp => h.entry p (hmem p hp)
  · exact fun p hp => h.owner p (hmem p hp)
  · intro p hp j howner
    exact List.mem_filterMap.mpr ⟨p, hp, howner⟩
  · intro hidle
    cases hidle
  · intro j
    have horder := h.order j
    rw [hflushing, List.filter_nil, List.append_nil] at horder
    change (s.deliveredTo j ++ s.pending.filter _ ++ List.filter _ []).Sublist (s.enqueuedFor j)
    rw [List.filter_nil, List.append_nil]
    exact horder

/-- What a batch is to each connection. -/
theorem entries_batch (buffers : List Entry) (dest j : ℕ) (closed : Bool) :
    ((buffers.map fun q => ({ dest := dest, entry := q, closed := closed } : Delivery)).filter
      (·.dest = j)).map (·.entry) = if j = dest then buffers else [] := by
  induction buffers with
  | nil => simp
  | cons q buffers ih =>
    rw [List.map_cons]
    by_cases hj : j = dest
    · rw [List.filter_cons_of_pos (by simp [hj]), List.map_cons, ih, if_pos hj, if_pos hj]
    · rw [List.filter_cons_of_neg (by simpa using Ne.symm hj), ih, if_neg hj, if_neg hj]

/-- A batch goes to the connection its entries are for, or nowhere. -/
theorem Inv.sendBatch (h : Inv s) {a : ℕ} (hbatch : batches s.flushing a ≠ []) :
    Inv (s.sendBatch a) := by
  rw [batches_eq] at hbatch
  obtain ⟨p, hp⟩ := List.exists_mem_of_ne_nil _ hbatch
  obtain ⟨hp, hpa⟩ := List.mem_filter.mp hp
  have hpa' : p.conn = a := of_decide_eq_true hpa
  have hmem : s.mem a = some p.target := hpa' ▸ h.entry p (List.mem_append_right _ hp)
  obtain ⟨c, hc, haddr⟩ := h.object a p.target hmem
  -- the entries of this connection are those of this address
  have hsame : ∀ q ∈ s.flushing, q.target = p.target ↔ q.conn = a := by
    intro q hq
    have hq' := h.entry q (List.mem_append_right _ hq)
    constructor
    · intro htarget
      obtain ⟨d, hd, hda⟩ := h.object q.conn q.target hq'
      rw [htarget, hc, Option.some.injEq] at hd
      rw [← hda, ← hd, haddr]
    · intro hqa
      rw [hqa, hmem, Option.some.injEq] at hq'
      exact hq'.symm
  have hsub : ∀ q, q ∈ s.pending ++ s.flushing.filter (·.conn ≠ a) → q ∈ s.pending ++ s.flushing := by
    intro q hq
    rcases List.mem_append.mp hq with hq' | hq'
    · exact List.mem_append_left _ hq'
    · exact List.mem_append_right _ (List.mem_filter.mp hq').1
  have hrest : Inv { s with flushing := s.flushing.filter (·.conn ≠ a) } := by
    refine { h with entry := ?_, owner := ?_, owners := ?_, idle := ?_, order := ?_ }
    · exact fun q hq => h.entry q (hsub q hq)
    · exact fun q hq => h.owner q (hsub q hq)
    · exact fun q hq => h.owners q (List.mem_filter.mp hq).1
    · intro hidle
      change s.flushing.filter _ = []
      rw [h.idle hidle, List.filter_nil]
    · intro j
      refine List.Sublist.trans ?_ (h.order j)
      exact ((List.Sublist.refl _).append (List.filter_sublist.filter _)).append (List.Sublist.refl _)
  have hstep : s.sendBatch a =
      if c.closed then { s with flushing := s.flushing.filter (·.conn ≠ a) }
      else { s with
        flushing := s.flushing.filter (·.conn ≠ a)
        delivered := s.delivered ++
          (batches s.flushing a).map fun q =>
            { dest := p.target, entry := q, closed := c.closed } } := by
    unfold State.sendBatch
    simp only [hmem, hc]
  rw [hstep, batches_eq]
  split_ifs with hclosed
  · exact hrest
  · rw [Bool.not_eq_true] at hclosed
    have hnew : ∀ d ∈ s.delivered ++ (s.flushing.filter (·.conn = a)).map (fun q =>
        ({ dest := p.target, entry := q, closed := c.closed } : Delivery)),
        d ∈ s.delivered ∨ ∃ q ∈ s.flushing, q.conn = a ∧
          d = { dest := p.target, entry := q, closed := c.closed } := by
      intro d hd
      rcases List.mem_append.mp hd with hd | hd
      · exact Or.inl hd
      · obtain ⟨q, hq, rfl⟩ := List.mem_map.mp hd
        obtain ⟨hq, hqa⟩ := List.mem_filter.mp hq
        exact Or.inr ⟨q, hq, of_decide_eq_true hqa, rfl⟩
    refine { hrest with target := ?_, closed := ?_, order := ?_ }
    · intro d hd
      rcases hnew d hd with hd' | ⟨q, hq, hqa, rfl⟩
      · exact h.target d hd'
      · exact ((hsame q hq).mpr hqa).symm
    · intro d hd
      rcases hnew d hd with hd' | ⟨q, -, -, rfl⟩
      · exact h.closed d hd'
      · exact hclosed
    · intro j
      refine List.Sublist.trans ?_ (h.order j)
      refine List.Sublist.append ?_ (List.Sublist.refl _)
      change (((s.delivered ++ _).filter _).map _ ++ (s.flushing.filter _).filter _).Sublist _
      rw [List.filter_append, List.map_append, List.append_assoc]
      refine (List.Sublist.refl _).append ?_
      rw [entries_batch]
      by_cases hj : j = p.target
      · -- all its entries are in the batch
        subst hj
        have hall : s.flushing.filter (fun q => decide (q.target = p.target)) =
            s.flushing.filter (fun q => decide (q.conn = a)) :=
          List.filter_congr fun q hq => decide_eq_decide.mpr (hsame q hq)
        have hnone : (s.flushing.filter (fun q => decide (q.conn ≠ a))).filter
            (fun q => decide (q.target = p.target)) = [] := by
          refine List.filter_eq_nil_iff.mpr fun q hq => ?_
          obtain ⟨hq, hqa⟩ := List.mem_filter.mp hq
          have hne : ¬ q.target = p.target := (hsame q hq).not.mpr (of_decide_eq_true hqa)
          simp [hne]
        rw [if_pos rfl, hall, hnone, List.append_nil]
      · -- none of them is
        rw [if_neg hj, List.nil_append]
        exact List.filter_sublist.filter _

theorem Inv.flushed (h : Inv s) (hflushing : s.flushing = []) :
    Inv { s with busy := false, owners := [] } := by
  refine { h with owners := ?_, idle := fun _ => hflushing }
  intro p hp
  change p ∈ s.flushing at hp
  rw [hflushing] at hp
  cases hp

/-- While there is an entry for it, a connection is only destroyed by a step that is not
allowed. -/
theorem Inv.no_entry (h : Inv s) (hc : s.conns[i]? = some c) (hok : s.Ok (.destroy i))
    (howned : s.owned i = false) : ∀ p ∈ s.pending ++ s.flushing, p.target ≠ i := by
  rintro p hp rfl
  cases howner : p.owner with
  | none =>
    obtain ⟨d, hd, hda⟩ := h.object p.conn p.target (h.entry p hp)
    rw [hc, Option.some.injEq] at hd
    exact hok c hc p hp howner (by rw [← hda, hd])
  | some j =>
    -- its owner keeps it
    have htarget := h.owner p hp j howner
    unfold owned at howned
    rw [Bool.or_eq_false_iff] at howned
    rcases List.mem_append.mp hp with hp' | hp'
    · have hnone := List.any_eq_false.mp howned.1 p hp'
      exact hnone (by simp [howner, htarget])
    · have hmem := h.owners p hp' j howner
      rw [← htarget] at hmem
      exact of_decide_eq_false howned.2 hmem

theorem Inv.step {s' : State} {e : Event} (hok : s.Ok e) (h : Inv s) (hstep : s.next e = some s') :
    Inv s' := by
  cases e with
  | accept transport addr =>
    simp only [next] at hstep
    split_ifs at hstep with hfree
    cases hstep
    exact h.accept transport hfree
  | enqueue i data =>
    obtain ⟨c, hc, hf⟩ := Option.bind_eq_some_iff.mp hstep
    split_ifs at hf with hreg hkcp
    · cases hf
      exact h
    · cases hf
      exact h.enqueue hc hreg data
  | close i =>
    obtain ⟨c, hc, hf⟩ := Option.bind_eq_some_iff.mp hstep
    split_ifs at hf
    cases hf
    exact h.setConn hc rfl rfl id
  | detach i =>
    obtain ⟨c, hc, hf⟩ := Option.bind_eq_some_iff.mp hstep
    split_ifs at hf
    cases hf
    exact h.setConn hc rfl rfl id
  | onClose i =>
    obtain ⟨c, hc, hf⟩ := Option.bind_eq_some_iff.mp hstep
    split_ifs at hf
    cases hf
    exact h.setConn hc rfl rfl fun hreg => by cases hreg
  | destroy i =>
    obtain ⟨c, hc, hf⟩ := Option.bind_eq_some_iff.mp hstep
    split_ifs at hf with hguard
    cases hf
    rw [not_or, not_or, Bool.not_eq_true, Bool.not_eq_true, Bool.not_eq_true] at hguard
    exact h.destroy hc hguard.1 hguard.2.1 (h.no_entry hc hok hguard.2.2)
  | flush =>
    simp only [next] at hstep
    split_ifs at hstep with hbusy
    cases hstep
    exact h.flush (h.idle (Bool.eq_false_iff.mpr hbusy))
  | sendBatch a =>
    simp only [next] at hstep
    split_ifs at hstep with hbatch
    cases hstep
    exact h.sendBatch hbatch
  | flushed =>
    simp only [next] at hstep
    split_ifs at hstep with hdone
    cases hstep
    exact h.flushed hdone.2

/-! ### What a step that is not allowed leads to -/

theorem sendBatch_frame (s : State) (a : ℕ) :
    (s.sendBatch a).flushing = s.flushing.filter (·.conn ≠ a) ∧
      (s.sendBatch a).pending = s.pending ∧ (s.sendBatch a).mem = s.mem ∧
        (s.sendBatch a).busy = s.busy := by
  unfold State.sendBatch
  dsimp only
  cases s.mem a with
  | none => exact ⟨rfl, rfl, rfl, rfl⟩
  | some i =>
    dsimp only
    cases s.conns[i]? with
    | none => exact ⟨rfl, rfl, rfl, rfl⟩
    | some c =>
      dsimp only
      split_ifs
      · exact ⟨rfl, rfl, rfl, rfl⟩
      · exact ⟨rfl, rfl, rfl, rfl⟩

theorem next_sendBatch {p : Entry} (hp : p ∈ s.flushing) :
    s.next (.sendBatch p.conn) = some (s.sendBatch p.conn) := by
  have hbatch : batches s.flushing p.conn ≠ [] := by
    rw [batches_eq]
    intro hnil
    exact (List.filter_eq_nil_iff.mp hnil) p hp (by simp)
  exact if_neg hbatch

/-- A running flush can go on to its end. -/
theorem exists_drained (n : ℕ) (s : State) (hn : s.flushing.length ≤ n) :
    ∃ es t, run next s es = some t ∧ t.flushing = [] ∧ t.pending = s.pending ∧ t.mem = s.mem := by
  induction n generalizing s with
  | zero => exact ⟨[], s, rfl, List.length_eq_zero_iff.mp (by omega), rfl, rfl⟩
  | succ n ih =>
    cases hflushing : s.flushing with
    | nil => exact ⟨[], s, rfl, hflushing, rfl, rfl⟩
    | cons p rest =>
      have hp : p ∈ s.flushing := by rw [hflushing]; exact List.mem_cons_self
      obtain ⟨hflush, hpending, hmem, -⟩ := sendBatch_frame s p.conn
      have hshort : (s.sendBatch p.conn).flushing.length ≤ n := by
        have hle : (rest.filter (·.conn ≠ p.conn)).length ≤ rest.length := List.length_filter_le _ _
        rw [hflushing, List.length_cons] at hn
        rw [hflush, hflushing, List.filter_cons_of_neg (by simp)]
        omega
      obtain ⟨es, t, hrun, hdone, ht, hm⟩ := ih (s.sendBatch p.conn) hshort
      refine ⟨.sendBatch p.conn :: es, t, ?_, hdone, ht.trans hpending, hm.trans hmem⟩
      exact run_cons_eq_some.mpr ⟨_, next_sendBatch hp, hrun⟩

/-- A batch for memory that nothing is in. -/
theorem exists_fault {p : Entry} (hp : p ∈ s.flushing) (hmem : s.mem p.conn = none) :
    ∃ t, s.next (.sendBatch p.conn) = some t ∧ ¬ t.Safe := by
  refine ⟨_, next_sendBatch hp, fun hsafe => ?_⟩
  have hfault := hsafe.fault
  unfold State.sendBatch at hfault
  simp only [hmem] at hfault
  cases hfault

/-- The flush finds the entry of an object that is gone. -/
theorem exists_unsafe {s' : State} {e : Event} (hok : ¬ s.Ok e) (hstep : s.next e = some s') :
    ∃ es t, run next s' es = some t ∧ ¬ t.Safe := by
  cases e with
  | destroy i =>
    unfold Ok at hok
    push Not at hok
    obtain ⟨c, hc, p, hp, -, haddr⟩ := hok
    obtain ⟨c', hc', hf⟩ := Option.bind_eq_some_iff.mp hstep
    rw [hc, Option.some.injEq] at hc'
    subst hc'
    split_ifs at hf
    cases hf
    have hmem : Function.update s.mem c.addr none p.conn = none := by
      rw [haddr, Function.update_self]
    rcases List.mem_append.mp hp with hp' | hp'
    · -- the entry waits for the next flush
      obtain ⟨es, t, hrun, hdone, hpending, hm⟩ := exists_drained _
        { s.setConn i { c with destroyed := true } with
          mem := Function.update s.mem c.addr none } le_rfl
      have hidle : ∃ es' u, run next t es' = some u ∧ u.busy = false ∧ u.pending = t.pending ∧
          u.mem = t.mem := by
        cases hbusy : t.busy with
        | false => exact ⟨[], t, rfl, hbusy, rfl, rfl⟩
        | true =>
          refine ⟨[.flushed], { t with busy := false, owners := [] }, ?_, rfl, rfl, rfl⟩
          have hnext : t.next .flushed = some { t with busy := false, owners := [] } :=
            if_pos ⟨hbusy, hdone⟩
          exact run_cons_eq_some.mpr ⟨_, hnext, rfl⟩
      obtain ⟨es', u, hrun', hbusy, hpending', hm'⟩ := hidle
      let v : State := { u with
        pending := []
        busy := true
        flushing := u.pending
        owners := u.pending.filterMap (·.owner) }
      have hflush : u.next .flush = some v := if_neg (by simp [hbusy])
      have hpv : p ∈ v.flushing := by
        change p ∈ u.pending
        rw [hpending', hpending]
        exact hp'
      have hmv : v.mem p.conn = none := by
        change u.mem p.conn = none
        rw [hm', hm]
        exact hmem
      obtain ⟨w, hw, hunsafe⟩ := exists_fault hpv hmv
      refine ⟨es ++ (es' ++ [.flush, .sendBatch p.conn]), w, ?_, hunsafe⟩
      refine run_append_eq_some.mpr ⟨t, hrun, run_append_eq_some.mpr ⟨u, hrun', ?_⟩⟩
      exact run_cons_eq_some.mpr ⟨v, hflush, run_cons_eq_some.mpr ⟨w, hw, rfl⟩⟩
    · -- it is in the flush that is running
      obtain ⟨w, hw, hunsafe⟩ := exists_fault (s := { s.setConn i { c with destroyed := true } with
        mem := Function.update s.mem c.addr none }) hp' hmem
      exact ⟨[.sendBatch p.conn], w, run_cons_eq_some.mpr ⟨w, hw, rfl⟩, hunsafe⟩
  | accept => exact absurd trivial hok
  | enqueue => exact absurd trivial hok
  | close => exact absurd trivial hok
  | detach => exact absurd trivial hok
  | onClose => exact absurd trivial hok
  | flush => exact absurd trivial hok
  | sendBatch => exact absurd trivial hok
  | flushed => exact absurd trivial hok

end Steps

/-! ## Runs -/

/-- Nothing is misdelivered in a run in which no connection is destroyed while there are
entries for its address without an owner, and a run in which one is can be continued to a
flush that uses memory which is no longer a connection. -/
theorem deliver_exact {es : List Event} {s : State} (hrun : run next {} es = some s) :
    (RunOk next Ok {} es → s.Safe) ∧
      ∀ e s', ¬ s.Ok e → s.next e = some s' → ∃ es' t, run next s' es' = some t ∧ ¬ t.Safe := by
  constructor
  · intro hok
    have hinv : Inv s := run_invariant (fun _ _ _ hok h hstep => Inv.step hok h hstep) inv_init hok hrun
    exact hinv.safe
  · intro e s' hok hstep
    exact exists_unsafe hok hstep

/-- A TCP connection at address 1 and a buffer for it. -/
def enqueueOne : List Event := [.accept .tcp 1, .enqueue 0 [7], .close 0, .onClose 0]

/-- When the buffer is flushed first, the connection can go; otherwise not. -/
theorem deliver_exact_one :
    (∃ s, run next {} [.accept .tcp 1, .enqueue 0 [7], .flush, .sendBatch 1, .flushed, .close 0,
        .onClose 0, .destroy 0] = some s ∧ s.Safe) ∧
      ∃ s s', run next {} enqueueOne = some s ∧ s.next (.destroy 0) = some s' ∧
        ∃ es t, run next s' es = some t ∧ ¬ t.Safe := by
  constructor
  · have hrun : run next {} [.accept .tcp 1, .enqueue 0 [7], .flush, .sendBatch 1, .flushed, .close 0,
        .onClose 0, .destroy 0] = some _ := rfl
    refine ⟨_, hrun, (deliver_exact hrun).1 ?_⟩
    refine ⟨trivial, fun s1 h1 => ?_⟩
    cases h1
    refine ⟨trivial, fun s2 h2 => ?_⟩
    cases h2
    refine ⟨trivial, fun s3 h3 => ?_⟩
    cases h3
    refine ⟨trivial, fun s4 h4 => ?_⟩
    cases h4
    refine ⟨trivial, fun s5 h5 => ?_⟩
    cases h5
    refine ⟨trivial, fun s6 h6 => ?_⟩
    cases h6
    refine ⟨trivial, fun s7 h7 => ?_⟩
    cases h7
    refine ⟨?_, fun _ _ => trivial⟩
    intro c _ p hp
    cases hp
  · refine ⟨_, _, rfl, rfl, (@deliver_exact enqueueOne _ rfl).2 (.destroy 0) _ ?_ rfl⟩
    intro hok
    exact hok _ rfl _ List.mem_cons_self rfl rfl

/-- The connection is destroyed before the flush and another one accepted at its
address: that one is sent the buffer. -/
theorem enqueueOne_misdelivered :
    ∃ s, run next {} (enqueueOne ++ [.destroy 0, .accept .tcp 1, .flush, .sendBatch 1]) = some s ∧
      s.delivered.map (fun d => (d.dest, d.entry.target, d.entry.data)) = [(1, 0, [7])] ∧
      ¬ s.Safe := by
  refine ⟨_, rfl, by decide, fun h => ?_⟩
  have hdest := h.target _ List.mem_cons_self
  revert hdest
  decide

end State

end Gmaker.Net.Coalescer
