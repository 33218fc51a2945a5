import Gmaker.Lib.Assoc
import Gmaker.Lib.Machine

/-!
# Gmaker.Registry.MemoryStore — the registry's store in memory

The nodes with their leases and last heartbeats, the channels of the watchers, and
`m.mu` around it. The operations are written as programs that take the lock and give it
back; one that asks for the lock while it holds it is stuck, as a Go mutex is not
re-entrant.

Register, Heartbeat, Discover and Watch end in every reachable store. `sweepExpired`
calls `broadcast`, which asks for the lock that the sweep holds: it ends, and then does
what it should, if and only if nothing has expired (`meets_exact`).
-/

namespace Gmaker.Registry

open Gmaker.Lib

/-! ## The store -/

/-- `pb.NodeInfo`. -/
structure NodeInfo where
  serviceType : String
  nodeId : String
  host : String := ""
  port : UInt32 := 0
  metadata : List (String × String) := []
  loadScore : UInt64 := 0
  registerAt : UInt64 := 0
deriving DecidableEq

/-- `pb.NodeEvent_Type`. -/
inductive EventType where
  | join
  | leave
  | update
deriving DecidableEq

/-- `pb.NodeEvent`. -/
structure NodeEvent where
  type : EventType
  node : NodeInfo
deriving DecidableEq

/-- A watcher's channel. -/
structure Chan where
  serviceType : String
  buffer : List NodeEvent := []
  closed : Bool := false
deriving DecidableEq

/-- What does not change when events are sent and received. -/
def Chan.status (c : Chan) : String × Bool := (c.serviceType, c.closed)

/-- The capacity of a watcher's channel. -/
def chanCap : ℕ := 16

/-- `defaultTTL`: 30 s, in ms. -/
def defaultTTL : ℤ := 30 * 1000

/-- `MemoryStore`, without its lock. A watcher's channel is given by its index in
`chans`. -/
structure MemoryStore where
  nodes : Assoc String NodeInfo := []
  leases : Assoc String ℤ := []
  lastHeartbeat : Assoc String ℤ := []
  watches : String → List ℕ := fun _ => []
  seqID : ℤ := 1
  closed : Bool := false
  chans : List Chan := []
  /-- log: the events that were offered to a channel -/
  emitted : List (ℕ × NodeEvent) := []

namespace MemoryStore

/-- The nodes of a service. -/
def nodesOf (m : MemoryStore) (serviceType : String) : List NodeInfo :=
  (m.nodes.map Prod.snd).filter (·.serviceType = serviceType)

/-- The critical section of `Register`. -/
def put (m : MemoryStore) (node : NodeInfo) (now : ℤ) : MemoryStore :=
  { m with
    seqID := m.seqID + 1
    nodes := m.nodes.assign node.nodeId node
    leases := m.leases.assign node.nodeId m.seqID
    lastHeartbeat := m.lastHeartbeat.assign node.nodeId now }

/-- The critical section of `Heartbeat`. -/
def beat (m : MemoryStore) (nodeID : String) (now : ℤ) : MemoryStore :=
  if nodeID ∈ m.leases.keys then { m with lastHeartbeat := m.lastHeartbeat.assign nodeID now } else m

/-- Forget a node. -/
def drop (m : MemoryStore) (nodeID : String) : MemoryStore :=
  { m with
    nodes := m.nodes.erase nodeID
    leases := m.leases.erase nodeID
    lastHeartbeat := m.lastHeartbeat.erase nodeID }

/-- A new channel for a service. -/
def addWatch (m : MemoryStore) (serviceType : String) : MemoryStore :=
  { m with
    chans := m.chans ++ [{ serviceType := serviceType }]
    watches := Function.update m.watches serviceType (m.watches serviceType ++ [m.chans.length]) }

/-- Close a channel. -/
def closeChan (m : MemoryStore) (w : ℕ) : MemoryStore :=
  match m.chans[w]? with
  | some c => { m with chans := m.chans.set w { c with closed := true } }
  | none => m

/-- Take a channel out of the list of its service. -/
def unlist (m : MemoryStore) (w : ℕ) (serviceType : String) : MemoryStore :=
  { m with watches := Function.update m.watches serviceType ((m.watches serviceType).erase w) }

/-- Take a channel out of the list of its service and close it. -/
def removeWatch (m : MemoryStore) (w : ℕ) (serviceType : String) : MemoryStore :=
  (m.unlist w serviceType).closeChan w

/-- The reader of a channel takes an event. -/
def receive (m : MemoryStore) (w : ℕ) : MemoryStore :=
  match m.chans[w]? with
  | some c => { m with chans := m.chans.set w { c with buffer := c.buffer.tail } }
  | none => m

/-- The end of `Close`. -/
def shut (m : MemoryStore) : MemoryStore :=
  { m with
    closed := true
    chans := m.chans.mapIdx fun w c =>
      if w ∈ m.watches c.serviceType then { c with closed := true } else c
    watches := fun _ => [] }

/-- `select { case ch <- ev: default: }` on an open channel. -/
def offer (m : MemoryStore) (w : ℕ) (c : Chan) (ev : NodeEvent) : MemoryStore :=
  { m with
    chans :=
      if c.buffer.length < chanCap then m.chans.set w { c with buffer := c.buffer ++ [ev] }
      else m.chans
    emitted := m.emitted ++ [(w, ev)] }

/-- Whether the last heartbeat of a node is older than the TTL. -/
def isExpired (m : MemoryStore) (now : ℤ) (nodeID : String) : Bool :=
  match m.lastHeartbeat.lookup nodeID with
  | some last => defaultTTL < now - last
  | none => false

/-- The nodes that have expired at a time, in the order in which they are found. -/
def expired (m : MemoryStore) (now : ℤ) (order : List String) : List String :=
  order.filter (m.isExpired now)

end MemoryStore

/-! ## Programs under the lock -/

/-- What this goroutine holds of `m.mu`. -/
inductive Hold where
  | free
  | read
  | write
deriving DecidableEq

/-- Why a program does not go on. -/
inductive Stuck where
  /-- it waits for the lock that it holds itself -/
  | relock
  /-- it unlocks what is not locked -/
  | notLocked
  /-- it sends on a closed channel -/
  | closedChan
deriving DecidableEq

/-- The store and the lock. -/
structure Exec where
  hold : Hold := .free
  store : MemoryStore

/-- Programs of one goroutine, run by itself. -/
abbrev M := StateT Exec (Except Stuck)

namespace M

def lock : M Unit := do
  let e ← get
  if e.hold = .free then set { e with hold := .write } else throw .relock

def unlock : M Unit := do
  let e ← get
  if e.hold = .write then set { e with hold := .free } else throw .notLocked

def rLock : M Unit := do
  let e ← get
  if e.hold = .free then set { e with hold := .read } else throw .relock

def rUnlock : M Unit := do
  let e ← get
  if e.hold = .read then set { e with hold := .free } else throw .notLocked

def store : M MemoryStore := do return (← get).store

def modifyStore (f : MemoryStore → MemoryStore) : M Unit := do
  let e ← get
  set { e with store := f e.store }

/-- `select { case ch <- ev: default: }`. -/
def trySend (ev : NodeEvent) (w : ℕ) : M Unit := do
  match (← store).chans[w]? with
  | some c => if c.closed then throw .closedChan else modifyStore fun m => m.offer w c ev
  | none => pure ()

/-- `broadcast`. -/
def broadcast (serviceType : String) (ev : NodeEvent) : M Unit := do
  rLock
  let arr := (← store).watches serviceType
  rUnlock
  arr.forM (trySend ev)

/-- `sweepExpired`, the nodes being found in this order. -/
def sweepExpired (now : ℤ) (order : List String) : M Unit := do
  lock
  let expired := (← store).expired now order
  expired.forM fun nodeID => do
    match (← store).nodes.lookup nodeID with
    | some node => broadcast node.serviceType { type := .leave, node }
    | none => pure ()
    modifyStore (·.drop nodeID)
  unlock

/-- `Register`: the watchers are copied, and told after the lock is given back. -/
def register (node : NodeInfo) (now : ℤ) : M Unit := do
  lock
  modifyStore (·.put node now)
  let watchers := (← store).watches node.serviceType
  unlock
  watchers.forM (trySend { type := .join, node })

/-- `Heartbeat`. -/
def heartbeat (nodeID : String) (now : ℤ) : M Unit := do
  lock
  modifyStore (·.beat nodeID now)
  unlock

/-- `Discover`. -/
def discover (serviceType : String) : M (List NodeInfo) := do
  rLock
  let out := (← store).nodesOf serviceType
  rUnlock
  return out

/-- `subscribeInternal`, up to its goroutines: the channel, if the store is open. -/
def subscribeInternal (serviceType : String) : M (Option ℕ) := do
  lock
  let m ← store
  if m.closed then
    unlock
    return none
  else
    modifyStore (·.addWatch serviceType)
    unlock
    return some m.chans.length

/-- The goroutine that sends the first nodes to a watcher. -/
def sendSnapshot (w : ℕ) (serviceType : String) : M Unit := do
  rLock
  let m ← store
  if m.closed then rUnlock
  else
    (m.nodesOf serviceType).forM fun node => trySend { type := .join, node } w
    rUnlock

/-- The goroutine that waits for the end of the context. -/
def cleanup (w : ℕ) (serviceType : String) : M Unit := do
  lock
  let m ← store
  if m.closed then unlock
  else
    modifyStore (·.removeWatch w serviceType)
    unlock

/-- `Close`, once the sweep loop has ended. -/
def close : M Unit := do
  lock
  if (← store).closed then unlock
  else
    modifyStore (·.shut)
    unlock

end M

/-! ## Operations -/

/-- The operations of the store; there is none to deregister a node. -/
inductive Op where
  | register (node : NodeInfo) (now : ℤ)
  | heartbeat (nodeID : String) (now : ℤ)
  | discover (serviceType : String)
  /-- `Watch`, `Subscribe` -/
  | watch (serviceType : String)
  | sweepExpired (now : ℤ) (order : List String)
deriving DecidableEq

def Op.program : Op → M Unit
  | .register node now => M.register node now
  | .heartbeat nodeID now => M.heartbeat nodeID now
  | .discover serviceType => do discard (M.discover serviceType)
  | .watch serviceType => do discard (M.subscribeInternal serviceType)
  | .sweepExpired now order => M.sweepExpired now order

/-- The sweep finds every node, in some order. -/
def Op.Possible (m : MemoryStore) : Op → Prop
  | .sweepExpired _ order => order.Perm m.lastHeartbeat.keys
  | _ => True

/-- What the store goes through: operations, the goroutines they leave behind, and the
readers of the channels. -/
inductive Label where
  | op (o : Op)
  | receive (w : ℕ)
  | snapshot (w : ℕ)
  | cleanup (w : ℕ)
  | close
deriving DecidableEq

def Label.program (m : MemoryStore) : Label → M Unit
  | .op o => o.program
  | .receive w => M.modifyStore (·.receive w)
  | .snapshot w =>
    match m.chans[w]? with
    | some c => M.sendSnapshot w c.serviceType
    | none => pure ()
  | .cleanup w =>
    match m.chans[w]? with
    | some c => M.cleanup w c.serviceType
    | none => pure ()
  | .close => M.close

/-- A program that has run to its end. -/
def next (m : MemoryStore) (l : Label) : Option MemoryStore :=
  match l.program m { store := m } with
  | .ok (_, e) => some e.store
  | .error _ => none

/-- Exactly the expired nodes are gone, and for each of them one LEAVE was offered to each
watcher of its service. -/
def SweepExact (m : MemoryStore) (now : ℤ) (m' : MemoryStore) : Prop :=
  (∀ nodeID, m'.nodes.lookup nodeID =
    if m.isExpired now nodeID then none else m.nodes.lookup nodeID) ∧
  ∃ sent, m'.emitted = m.emitted ++ sent ∧
    sent.Perm ((m.nodes.filter fun p => m.isExpired now p.1).flatMap fun p =>
      (m.watches p.2.serviceType).map fun w => (w, { type := .leave, node := p.2 }))

/-- The operation ends, with the lock given back; and a sweep does what it should. -/
def Meets (m : MemoryStore) (o : Op) : Prop :=
  ∃ e, o.program { store := m } = .ok ((), e) ∧ e.hold = .free ∧
    ∀ now order, o = .sweepExpired now order → SweepExact m now e.store

/-! ## Programs, step by step -/

section Programs

variable {α β : Type} {e e' : Exec} {m : MemoryStore} {ev : NodeEvent}

/-- A program that goes on after one that has ended. -/
theorem bind_of_ok {p : M α} {f : α → M β} {a : α} (h : p e = .ok (a, e')) :
    (p >>= f) e = f a e' := by
  change (p e >>= fun r => f r.1 r.2) = _
  rw [h]
  rfl

theorem bind_of_error {p : M α} {f : α → M β} {why : Stuck} (h : p e = .error why) :
    (p >>= f) e = .error why := by
  change (p e >>= fun r => f r.1 r.2) = _
  rw [h]
  rfl

theorem discard_of_ok {p : M α} {a : α} (h : p e = .ok (a, e')) :
    (discard p : M Unit) e = .ok ((), e') := by
  change (p e >>= fun r => Except.ok ((), r.2)) = _
  rw [h]
  rfl

/-- A channel that is open. -/
def IsOpen (m : MemoryStore) (w : ℕ) : Prop := ∃ c, m.chans[w]? = some c ∧ c.closed = false

/-- The stores are the same up to what is in the channels. -/
structure SameStore (m m' : MemoryStore) : Prop where
  nodes : m'.nodes = m.nodes
  leases : m'.leases = m.leases
  lastHeartbeat : m'.lastHeartbeat = m.lastHeartbeat
  watches : m'.watches = m.watches
  closed : m'.closed = m.closed
  chans : ∀ w : ℕ, m'.chans[w]?.map Chan.status = m.chans[w]?.map Chan.status

theorem SameStore.refl (m : MemoryStore) : SameStore m m :=
  ⟨rfl, rfl, rfl, rfl, rfl, fun _ => rfl⟩

theorem SameStore.trans {m₁ m₂ m₃ : MemoryStore} (h : SameStore m₁ m₂) (h' : SameStore m₂ m₃) :
    SameStore m₁ m₃ :=
  ⟨h'.nodes.trans h.nodes, h'.leases.trans h.leases, h'.lastHeartbeat.trans h.lastHeartbeat,
    h'.watches.trans h.watches, h'.closed.trans h.closed, fun w => (h'.chans w).trans (h.chans w)⟩

theorem SameStore.isOpen {m m' : MemoryStore} (h : SameStore m m') {w : ℕ} :
    IsOpen m' w ↔ IsOpen m w := by
  have hw := h.chans w
  unfold IsOpen
  cases hm : m.chans[w]? with
  | none =>
    cases hm' : m'.chans[w]? with
    | none => simp
    | some c' => rw [hm, hm'] at hw; cases hw
  | some c =>
    cases hm' : m'.chans[w]? with
    | none => rw [hm, hm'] at hw; cases hw
    | some c' =>
      rw [hm, hm'] at hw
      simp only [Option.map_some, Option.some.injEq, Chan.status, Prod.mk.injEq] at hw
      simp [hw.2]

theorem sameStore_offer {w : ℕ} {c : Chan} (hc : m.chans[w]? = some c) (ev : NodeEvent) :
    SameStore m (m.offer w c ev) := by
  refine ⟨rfl, rfl, rfl, rfl, rfl, fun v => ?_⟩
  unfold MemoryStore.offer
  simp only
  split_ifs
  · by_cases hv : w = v
    · subst hv
      obtain ⟨hlt, -⟩ := List.getElem?_eq_some_iff.mp hc
      rw [List.getElem?_set_self hlt, hc]
      rfl
    · rw [List.getElem?_set_ne hv]
  · rfl

theorem sameStore_receive (m : MemoryStore) (w : ℕ) : SameStore m (m.receive w) := by
  unfold MemoryStore.receive
  cases hc : m.chans[w]? with
  | none => exact .refl _
  | some c =>
    refine ⟨rfl, rfl, rfl, rfl, rfl, fun v => ?_⟩
    by_cases hv : w = v
    · subst hv
      obtain ⟨hlt, -⟩ := List.getElem?_eq_some_iff.mp hc
      change (m.chans.set w _)[w]?.map Chan.status = _
      rw [List.getElem?_set_self hlt, hc]
      rfl
    · change (m.chans.set w _)[v]?.map Chan.status = _
      rw [List.getElem?_set_ne hv]

theorem trySend_ok {w : ℕ} {c : Chan} (hc : e.store.chans[w]? = some c) (hopen : c.closed = false) :
    M.trySend ev w e = .ok ((), { e with store := e.store.offer w c ev }) := by
  have hstore : M.store e = .ok (e.store, e) := rfl
  unfold M.trySend
  rw [bind_of_ok hstore]
  simp only [hc, hopen]
  rfl

/-- Sending to open channels ends, and only changes what is in them. -/
theorem forM_trySend (ev : NodeEvent) (ws : List ℕ) (e : Exec) (hopen : ∀ w ∈ ws, IsOpen e.store w) :
    ∃ m', ws.forM (M.trySend ev) e = .ok ((), { e with store := m' }) ∧ SameStore e.store m' := by
  induction ws generalizing e with
  | nil => exact ⟨e.store, rfl, .refl _⟩
  | cons w ws ih =>
    obtain ⟨c, hc, hclosed⟩ := hopen w List.mem_cons_self
    have hsame := sameStore_offer hc ev
    obtain ⟨m', hrun, hsame'⟩ := ih { e with store := e.store.offer w c ev } fun v hv =>
      hsame.isOpen.mpr (hopen v (List.mem_cons_of_mem w hv))
    refine ⟨m', ?_, hsame.trans hsame'⟩
    change (M.trySend ev w >>= fun _ => ws.forM (M.trySend ev)) e = _
    rw [bind_of_ok (trySend_ok hc hclosed), hrun]

/-! ### The operations -/

/-- Telling the watchers of a service. -/
theorem register_ok (node : NodeInfo) (now : ℤ) (m : MemoryStore)
    (hopen : ∀ w ∈ m.watches node.serviceType, IsOpen m w) :
    ∃ m', M.register node now { store := m } = .ok ((), { store := m' }) ∧
      SameStore (m.put node now) m' := by
  obtain ⟨m', hsend, hsame⟩ := forM_trySend { type := .join, node } (m.watches node.serviceType)
    { store := m.put node now } hopen
  refine ⟨m', ?_, hsame⟩
  have hsection : M.register node now { store := m } =
      (m.watches node.serviceType).forM (M.trySend { type := .join, node })
        { store := m.put node now } := rfl
  rw [hsection, hsend]

theorem heartbeat_ok (nodeID : String) (now : ℤ) (m : MemoryStore) :
    M.heartbeat nodeID now { store := m } = .ok ((), { store := m.beat nodeID now }) := rfl

theorem discover_ok (serviceType : String) (m : MemoryStore) :
    M.discover serviceType { store := m } = .ok (m.nodesOf serviceType, { store := m }) := rfl

theorem subscribeInternal_ok (serviceType : String) (m : MemoryStore) :
    ∃ a, M.subscribeInternal serviceType { store := m } =
      .ok (a, { store := if m.closed then m else m.addWatch serviceType }) := by
  have hlock : M.lock { store := m } = .ok ((), { hold := .write, store := m }) := rfl
  have hstore : M.store { hold := .write, store := m } =
    .ok (m, { hold := .write, store := m }) := rfl
  unfold M.subscribeInternal
  rw [bind_of_ok hlock, bind_of_ok hstore]
  cases hclosed : m.closed with
  | true => exact ⟨none, rfl⟩
  | false => exact ⟨some m.chans.length, rfl⟩

theorem cleanup_ok (w : ℕ) (serviceType : String) (m : MemoryStore) :
    M.cleanup w serviceType { store := m } =
      .ok ((), { store := if m.closed then m else m.removeWatch w serviceType }) := by
  have hlock : M.lock { store := m } = .ok ((), { hold := .write, store := m }) := rfl
  have hstore : M.store { hold := .write, store := m } =
    .ok (m, { hold := .write, store := m }) := rfl
  unfold M.cleanup
  rw [bind_of_ok hlock, bind_of_ok hstore]
  cases hclosed : m.closed with
  | true => rfl
  | false => rfl

theorem close_ok (m : MemoryStore) :
    M.close { store := m } = .ok ((), { store := if m.closed then m else m.shut }) := by
  have hlock : M.lock { store := m } = .ok ((), { hold := .write, store := m }) := rfl
  have hstore : M.store { hold := .write, store := m } =
    .ok (m, { hold := .write, store := m }) := rfl
  unfold M.close
  rw [bind_of_ok hlock, bind_of_ok hstore]
  cases hclosed : m.closed with
  | true => rfl
  | false => rfl

/-- What a program that has ended did first. -/
theorem bind_eq_ok {p : M α} {f : α → M β} {b : β} (h : (p >>= f) e = .ok (b, e')) :
    ∃ a e₁, p e = .ok (a, e₁) ∧ f a e₁ = .ok (b, e') := by
  change (p e >>= fun r => f r.1 r.2) = _ at h
  cases hp : p e with
  | error why =>
    rw [hp] at h
    cases h
  | ok r =>
    rw [hp] at h
    exact ⟨r.1, r.2, rfl, h⟩

theorem trySend_same {w : ℕ} {a : Unit} (h : M.trySend ev w e = .ok (a, e')) :
    SameStore e.store e'.store := by
  cases hc : e.store.chans[w]? with
  | none =>
    have hnone : M.trySend ev w e = .ok ((), e) := by
      have hstore : M.store e = .ok (e.store, e) := rfl
      unfold M.trySend
      rw [bind_of_ok hstore]
      simp only [hc]
      rfl
    rw [hnone] at h
    cases h
    exact .refl _
  | some c =>
    cases hclosed : c.closed with
    | true =>
      have hstuck : M.trySend ev w e = .error .closedChan := by
        have hstore : M.store e = .ok (e.store, e) := rfl
        unfold M.trySend
        rw [bind_of_ok hstore]
        simp only [hc, hclosed]
        rfl
      rw [hstuck] at h
      cases h
    | false =>
      rw [trySend_ok hc hclosed] at h
      cases h
      exact sameStore_offer hc ev

theorem forM_same {w : ℕ} {a : Unit} (nodes : List NodeInfo)
    (h : nodes.forM (fun node => M.trySend { type := .join, node } w) e = .ok (a, e')) :
    SameStore e.store e'.store := by
  induction nodes generalizing e with
  | nil =>
    cases h
    exact .refl _
  | cons node nodes ih =>
    obtain ⟨_, e₁, hfirst, hrest⟩ := bind_eq_ok h
    exact (trySend_same hfirst).trans (ih hrest)

/-- The goroutine that sends the first nodes changes no more than the channel. -/
theorem sendSnapshot_same {w : ℕ} {serviceType : String} {a : Unit}
    (h : M.sendSnapshot w serviceType { store := m } = .ok (a, e)) : SameStore m e.store := by
  have hlock : M.rLock { store := m } = .ok ((), { hold := .read, store := m }) := rfl
  have hstore : M.store { hold := .read, store := m } = .ok (m, { hold := .read, store := m }) := rfl
  unfold M.sendSnapshot at h
  rw [bind_of_ok hlock, bind_of_ok hstore] at h
  cases hclosed : m.closed with
  | true =>
    simp only [hclosed, if_true] at h
    cases h
    exact .refl _
  | false =>
    simp only [hclosed, Bool.false_eq_true, if_false] at h
    obtain ⟨_, e₁, hsend, hunlock⟩ := bind_eq_ok h
    have hsame := forM_same _ hsend
    have hend : e.store = e₁.store := by
      unfold M.rUnlock at hunlock
      obtain ⟨e₂, e₃, hget, hset⟩ := bind_eq_ok hunlock
      cases hget
      split_ifs at hset
      · cases hset
        rfl
      · cases hset
    rw [hend]
    exact hsame

/-- `sweepExpired` where nothing has expired. -/
theorem sweepExpired_ok {now : ℤ} {order : List String} (hnone : m.expired now order = []) :
    M.sweepExpired now order { store := m } = .ok ((), { store := m }) := by
  have hlock : M.lock { store := m } = .ok ((), { hold := .write, store := m }) := rfl
  have hstore : M.store { hold := .write, store := m } =
    .ok (m, { hold := .write, store := m }) := rfl
  unfold M.sweepExpired
  rw [bind_of_ok hlock, bind_of_ok hstore, hnone]
  rfl

/-- `broadcast` asks for the lock that the sweep holds. -/
theorem sweepExpired_stuck {now : ℤ} {order rest : List String} {nodeID : String} {node : NodeInfo}
    (hexpired : m.expired now order = nodeID :: rest) (hnode : m.nodes.lookup nodeID = some node) :
    M.sweepExpired now order { store := m } = .error .relock := by
  have hlock : M.lock { store := m } = .ok ((), { hold := .write, store := m }) := rfl
  have hstore : M.store { hold := .write, store := m } =
    .ok (m, { hold := .write, store := m }) := rfl
  have hrelock : M.broadcast node.serviceType { type := .leave, node }
      { hold := .write, store := m } = .error .relock := rfl
  unfold M.sweepExpired
  rw [bind_of_ok hlock, bind_of_ok hstore, hexpired]
  refine bind_of_error (bind_of_error ?_)
  refine (bind_of_ok hstore).trans ?_
  simp only [hnode]
  exact bind_of_error hrelock

end Programs

/-! ## Every reachable store -/

/-- What holds of every store that is reached: the three maps have the same keys, and the
channels in the lists are open, each in the list of its service and once. -/
structure Inv (m : MemoryStore) : Prop where
  leases : m.leases.keys = m.nodes.keys
  lastHeartbeat : m.lastHeartbeat.keys = m.nodes.keys
  watched : ∀ (serviceType : String) (w : ℕ), w ∈ m.watches serviceType →
    m.chans[w]?.map Chan.status = some (serviceType, false)
  nodup : ∀ serviceType : String, (m.watches serviceType).Nodup

namespace Inv

variable {m m' : MemoryStore}

theorem init : Inv {} where
  leases := rfl
  lastHeartbeat := rfl
  watched := by intro _ _ hw; cases hw
  nodup := fun _ => List.nodup_nil

theorem isOpen (h : Inv m) {serviceType : String} {w : ℕ} (hw : w ∈ m.watches serviceType) :
    IsOpen m w := by
  obtain ⟨c, hc, hstatus⟩ := Option.map_eq_some_iff.mp (h.watched serviceType w hw)
  exact ⟨c, hc, (Prod.mk.inj hstatus).2⟩

/-- What is in the channels does not matter. -/
theorem same (h : Inv m) (hsame : SameStore m m') : Inv m' where
  leases := by rw [hsame.leases, hsame.nodes]; exact h.leases
  lastHeartbeat := by rw [hsame.lastHeartbeat, hsame.nodes]; exact h.lastHeartbeat
  watched := by
    intro serviceType w hw
    rw [hsame.watches] at hw
    rw [hsame.chans]
    exact h.watched serviceType w hw
  nodup := by rw [hsame.watches]; exact h.nodup

theorem put (h : Inv m) (node : NodeInfo) (now : ℤ) : Inv (m.put node now) where
  leases := by
    change (m.leases.assign _ _).keys = (m.nodes.assign _ _).keys
    rw [Assoc.keys_assign, Assoc.keys_assign, h.leases]
  lastHeartbeat := by
    change (m.lastHeartbeat.assign _ _).keys = (m.nodes.assign _ _).keys
    rw [Assoc.keys_assign, Assoc.keys_assign, h.lastHeartbeat]
  watched := h.watched
  nodup := h.nodup

theorem beat (h : Inv m) (nodeID : String) (now : ℤ) : Inv (m.beat nodeID now) := by
  unfold MemoryStore.beat
  split_ifs with hmem
  · refine { h with lastHeartbeat := ?_ }
    -- the key is there: a heartbeat adds none
    have hkey : nodeID ∈ m.lastHeartbeat.keys := by
      rw [h.lastHeartbeat, ← h.leases]
      exact hmem
    change (m.lastHeartbeat.assign _ _).keys = m.nodes.keys
    rw [Assoc.keys_assign, if_pos hkey, h.lastHeartbeat]
  · exact h

theorem lt_length (h : Inv m) {serviceType : String} {w : ℕ} (hw : w ∈ m.watches serviceType) :
    w < m.chans.length := by
  obtain ⟨c, hc, -⟩ := h.isOpen hw
  exact (List.getElem?_eq_some_iff.mp hc).1

theorem addWatch (h : Inv m) (serviceType : String) : Inv (m.addWatch serviceType) where
  leases := h.leases
  lastHeartbeat := h.lastHeartbeat
  watched := by
    intro service w hw
    change w ∈ Function.update m.watches serviceType _ service at hw
    change (m.chans ++ [_])[w]?.map Chan.status = _
    have hold : w ∈ m.watches service →
        (m.chans ++ [{ serviceType := serviceType }])[w]?.map Chan.status = some (service, false) := by
      intro hmem
      rw [List.getElem?_append_left (h.lt_length hmem)]
      exact h.watched service w hmem
    by_cases hservice : service = serviceType
    · subst hservice
      rw [Function.update_self, List.mem_append, List.mem_singleton] at hw
      rcases hw with hw | rfl
      · exact hold hw
      · simp [Chan.status]
    · rw [Function.update_of_ne hservice] at hw
      exact hold hw
  nodup := by
    intro service
    change (Function.update m.watches serviceType _ service).Nodup
    by_cases hservice : service = serviceType
    · subst hservice
      rw [Function.update_self]
      refine List.nodup_append'.mpr ⟨h.nodup service, List.nodup_singleton _, ?_⟩
      -- the new index is beyond all the others
      rw [List.disjoint_singleton]
      intro hmem
      exact lt_irrefl _ (h.lt_length hmem)
    · rw [Function.update_of_ne hservice]
      exact h.nodup service

theorem removeWatch (h : Inv m) {w : ℕ} {c : Chan} (hc : m.chans[w]? = some c) :
    Inv (m.removeWatch w c.serviceType) := by
  have heq : m.removeWatch w c.serviceType = { m with
      watches := Function.update m.watches c.serviceType ((m.watches c.serviceType).erase w)
      chans := m.chans.set w { c with closed := true } } := by
    unfold MemoryStore.removeWatch MemoryStore.unlist MemoryStore.closeChan
    simp only [hc]
  rw [heq]
  refine ⟨h.leases, h.lastHeartbeat, fun service v hv => ?_, fun service => ?_⟩
  · -- what is still in a list was there before, and is another channel
    have hmem : v ∈ m.watches service ∧ v ≠ w := by
      by_cases hservice : service = c.serviceType
      · subst hservice
        change v ∈ Function.update m.watches _ _ _ at hv
        rw [Function.update_self] at hv
        exact ((h.nodup _).mem_erase_iff.mp hv).symm
      · change v ∈ Function.update m.watches _ _ _ at hv
        rw [Function.update_of_ne hservice] at hv
        refine ⟨hv, ?_⟩
        rintro rfl
        have hstatus := h.watched service v hv
        rw [hc] at hstatus
        exact hservice (Prod.mk.inj (Option.some.inj hstatus)).1.symm
    change (m.chans.set w _)[v]?.map Chan.status = _
    rw [List.getElem?_set_ne (Ne.symm hmem.2)]
    exact h.watched service v hmem.1
  · change (Function.update m.watches _ _ service).Nodup
    by_cases hservice : service = c.serviceType
    · subst hservice
      rw [Function.update_self]
      exact (h.nodup _).erase w
    · rw [Function.update_of_ne hservice]
      exact h.nodup service

theorem shut (h : Inv m) : Inv m.shut where
  leases := h.leases
  lastHeartbeat := h.lastHeartbeat
  watched := by intro _ _ hw; cases hw
  nodup := fun _ => List.nodup_nil

/-- A node whose heartbeat is known is known. -/
theorem node_of_isExpired (h : Inv m) {now : ℤ} {nodeID : String}
    (hexpired : m.isExpired now nodeID = true) : ∃ node, m.nodes.lookup nodeID = some node := by
  rw [← Assoc.mem_keys_iff, ← h.lastHeartbeat, Assoc.mem_keys_iff]
  unfold MemoryStore.isExpired at hexpired
  cases hlast : m.lastHeartbeat.lookup nodeID with
  | none => rw [hlast] at hexpired; cases hexpired
  | some last => exact ⟨last, rfl⟩

/-- The sweep, in full: it ends where it finds nothing, and is stuck where it finds a node. -/
theorem sweepExpired (h : Inv m) (now : ℤ) (order : List String) :
    M.sweepExpired now order { store := m } =
      if m.expired now order = [] then .ok ((), { store := m }) else .error .relock := by
  split_ifs with hnone
  · exact sweepExpired_ok hnone
  · obtain ⟨nodeID, rest, hexpired⟩ := List.exists_cons_of_ne_nil hnone
    have hmem : nodeID ∈ m.expired now order := by
      rw [hexpired]
      exact List.mem_cons_self
    obtain ⟨node, hnode⟩ := h.node_of_isExpired (List.mem_filter.mp hmem).2
    exact sweepExpired_stuck hexpired hnode

/-- One program, run to its end. -/
theorem next (h : Inv m) {l : Label} (hstep : next m l = some m') : Inv m' := by
  unfold Registry.next at hstep
  cases l with
  | op o =>
    cases o with
    | register node now =>
      obtain ⟨m₁, hrun, hsame⟩ := register_ok node now m fun w hw => h.isOpen hw
      simp only [Label.program, Op.program, hrun, Option.some.injEq] at hstep
      subst hstep
      exact (h.put node now).same hsame
    | heartbeat nodeID now =>
      simp only [Label.program, Op.program, heartbeat_ok, Option.some.injEq] at hstep
      subst hstep
      exact h.beat nodeID now
    | discover serviceType =>
      have hrun : (Op.discover serviceType).program { store := m } = .ok ((), { store := m }) := rfl
      simp only [Label.program, hrun, Option.some.injEq] at hstep
      exact hstep ▸ h
    | watch serviceType =>
      obtain ⟨a, hrun⟩ := subscribeInternal_ok serviceType m
      have hdiscard : (Op.watch serviceType).program { store := m } =
          .ok ((), { store := if m.closed then m else m.addWatch serviceType }) :=
        discard_of_ok hrun
      simp only [Label.program, hdiscard, Option.some.injEq] at hstep
      subst hstep
      split_ifs
      · exact h
      · exact h.addWatch serviceType
    | sweepExpired now order =>
      simp only [Label.program, Op.program, h.sweepExpired] at hstep
      split_ifs at hstep
      cases hstep
      exact h
  | receive w =>
    have hrun : (M.modifyStore (·.receive w)) { store := m } = .ok ((), { store := m.receive w }) :=
      rfl
    simp only [Label.program, hrun, Option.some.injEq] at hstep
    subst hstep
    exact h.same (sameStore_receive m w)
  | snapshot w =>
    simp only [Label.program] at hstep
    cases hc : m.chans[w]? with
    | none =>
      simp only [hc] at hstep
      cases hstep
      exact h
    | some c =>
      simp only [hc] at hstep
      cases hrun : M.sendSnapshot w c.serviceType { store := m } with
      | error why => rw [hrun] at hstep; cases hstep
      | ok r =>
        rw [hrun] at hstep
        cases hstep
        exact h.same (sendSnapshot_same hrun)
  | cleanup w =>
    simp only [Label.program] at hstep
    cases hc : m.chans[w]? with
    | none =>
      simp only [hc] at hstep
      cases hstep
      exact h
    | some c =>
      simp only [hc, cleanup_ok, Option.some.injEq] at hstep
      subst hstep
      split_ifs
      · exact h
      · exact h.removeWatch hc
  | close =>
    simp only [Label.program, close_ok, Option.some.injEq] at hstep
    subst hstep
    split_ifs
    · exact h
    · exact h.shut

/-- Every run. -/
theorem of_run {ls : List Label} (hrun : run Registry.next {} ls = some m) : Inv m :=
  run_invariant_all (fun _ _ _ h hstep => h.next hstep) .init hrun

end Inv

/-! ## Which operations end -/

/-- A sweep that finds nothing does what it should. -/
theorem sweepExact_self {m : MemoryStore} {now : ℤ} (hnone : ∀ nodeID, m.isExpired now nodeID = false) :
    SweepExact m now m := by
  refine ⟨fun nodeID => ?_, [], (List.append_nil _).symm, ?_⟩
  · rw [hnone nodeID]
    rfl
  · have hempty : m.nodes.filter (fun p => m.isExpired now p.1) = [] := by
      rw [List.filter_eq_nil_iff]
      intro p _
      rw [hnone p.1]
      exact Bool.false_ne_true
    rw [hempty]
    exact .nil

/-- A sweep that goes through every node finds nothing if and only if nothing has
expired. -/
theorem expired_eq_nil_iff {m : MemoryStore} {now : ℤ} {order : List String}
    (horder : order.Perm m.lastHeartbeat.keys) :
    m.expired now order = [] ↔ ∀ nodeID, m.isExpired now nodeID = false := by
  unfold MemoryStore.expired
  rw [List.filter_eq_nil_iff]
  constructor
  · intro h nodeID
    cases hexpired : m.isExpired now nodeID with
    | false => rfl
    | true =>
      refine absurd hexpired (h nodeID (horder.mem_iff.mpr (Assoc.mem_keys_iff.mpr ?_)))
      unfold MemoryStore.isExpired at hexpired
      cases hlast : m.lastHeartbeat.lookup nodeID with
      | none => rw [hlast] at hexpired; cases hexpired
      | some last => exact ⟨last, rfl⟩
  · intro h nodeID _
    rw [h nodeID]
    exact Bool.false_ne_true

/-- **Termination and expiry.** In every reachable store an operation ends without asking
for the lock that it holds, and a sweep removes and announces exactly the nodes that have
expired, if and only if it is not a sweep that has something to do: with an expired node,
`sweepExpired` waits in `broadcast` for the lock it holds. -/
theorem meets_exact {ls : List Label} {m : MemoryStore} (hrun : run next {} ls = some m) {o : Op}
    (hpossible : o.Possible m) :
    Meets m o ↔ ∀ now order, o = .sweepExpired now order →
      ∀ nodeID, m.isExpired now nodeID = false := by
  have hinv := Inv.of_run hrun
  cases o with
  | register node now =>
    obtain ⟨m', hends, -⟩ := register_ok node now m fun w hw => hinv.isOpen hw
    refine iff_of_true ⟨_, hends, rfl, ?_⟩ ?_
    all_goals intro _ _ h; cases h
  | heartbeat nodeID now =>
    refine iff_of_true ⟨_, heartbeat_ok nodeID now m, rfl, ?_⟩ ?_
    all_goals intro _ _ h; cases h
  | discover serviceType =>
    refine iff_of_true ⟨{ store := m }, rfl, rfl, ?_⟩ ?_
    all_goals intro _ _ h; cases h
  | watch serviceType =>
    obtain ⟨a, hends⟩ := subscribeInternal_ok serviceType m
    refine iff_of_true ⟨_, discard_of_ok hends, rfl, ?_⟩ ?_
    all_goals intro _ _ h; cases h
  | sweepExpired now order =>
    have hcondition : (∀ now' order', Op.sweepExpired now order = .sweepExpired now' order' →
        ∀ nodeID, m.isExpired now' nodeID = false) ↔ m.expired now order = [] := by
      rw [expired_eq_nil_iff hpossible]
      constructor
      · intro h
        exact h now order rfl
      · intro h now' order' heq
        cases heq
        exact h
    rw [hcondition]
    constructor
    · rintro ⟨e, hends, -, -⟩
      change M.sweepExpired now order { store := m } = _ at hends
      rw [hinv.sweepExpired] at hends
      split_ifs at hends with hnone
      exact hnone
    · intro hnone
      refine ⟨{ store := m }, sweepExpired_ok hnone, rfl, ?_⟩
      intro now' order' h
      cases h
      exact sweepExact_self ((expired_eq_nil_iff hpossible).mp hnone)

/-- A node that is swept 30 s and 1 ms after it has registered. -/
def lateNode : NodeInfo := { serviceType := "gateway", nodeId := "gw-1" }

/-- At 30 s sharp it has not expired, and the sweep ends. -/
theorem meets_exact_on_time :
    Meets (({} : MemoryStore).put lateNode 0) (.sweepExpired 30000 ["gw-1"]) := by
  have hrun : run next {} [.op (.register lateNode 0)] = some (({} : MemoryStore).put lateNode 0) :=
    rfl
  have hpossible : (Op.sweepExpired 30000 ["gw-1"]).Possible (({} : MemoryStore).put lateNode 0) :=
    .refl _
  refine (meets_exact hrun hpossible).mpr ?_
  intro now order h nodeID
  cases h
  have hlast : (({} : MemoryStore).put lateNode 0).lastHeartbeat.lookup nodeID =
      if nodeID = "gw-1" then some 0 else none := Assoc.lookup_assign [] "gw-1" nodeID 0
  unfold MemoryStore.isExpired
  rw [hlast]
  by_cases hnode : nodeID = "gw-1"
  · rw [if_pos hnode]
    rfl
  · rw [if_neg hnode]

/-- The sweep that finds it later is stuck. -/
theorem sweepExpired_relock : ∃ m, run next {} [.op (.register lateNode 0)] = some m ∧
    (Op.sweepExpired 30001 ["gw-1"]).Possible m ∧
    (Op.sweepExpired 30001 ["gw-1"]).program { store := m } = .error .relock ∧
    ¬Meets m (.sweepExpired 30001 ["gw-1"]) := by
  have hstuck : (Op.sweepExpired 30001 ["gw-1"]).program
      { store := ({} : MemoryStore).put lateNode 0 } = .error .relock :=
    @sweepExpired_stuck _ _ _ [] "gw-1" lateNode (by decide) (by decide)
  refine ⟨({} : MemoryStore).put lateNode 0, rfl, .refl _, hstuck, ?_⟩
  rintro ⟨e, hends, -⟩
  rw [hstuck] at hends
  cases hends

/-- The nodes, their leases and their heartbeats have the same keys all along, and a watcher is in
one list only. -/
theorem maps_agree {ls : List Label} {m : MemoryStore} (hrun : run next {} ls = some m) :
    m.leases.keys = m.nodes.keys ∧ m.lastHeartbeat.keys = m.nodes.keys ∧
      ∀ a b w, w ∈ m.watches a → w ∈ m.watches b → a = b := by
  have h := Inv.of_run hrun
  refine ⟨h.leases, h.lastHeartbeat, fun a b w ha hb => ?_⟩
  exact (Prod.mk.inj (Option.some.inj ((h.watched a w ha).symm.trans (h.watched b w hb)))).1

theorem maps_agree_registered : ∃ m, run next {} [.op (.register lateNode 0)] = some m ∧
    m.leases.keys = m.nodes.keys ∧ m.lastHeartbeat.keys = m.nodes.keys ∧
      ∀ a b w, w ∈ m.watches a → w ∈ m.watches b → a = b :=
  ⟨_, rfl, @maps_agree [.op (.register lateNode 0)] _ rfl⟩

end Gmaker.Registry
