import Gmaker.Lib.Threads
import Gmaker.Lib.Trap

/-!
# Gmaker.Net.AsyncUpstreamPool — nodes and the callbacks that refer to them

`AsyncUpstreamPool` hands out raw pointers to its nodes: a posted task connects a node, the
connect callback and the close callback of a connection write to it, and `SendPacket` goes on with
the node that it has chosen after it has given back the lock. `RemoveNode` erases the node and
closes its connection, whose close callback comes later. What a callback does with a node that was
erased is undefined, so a run ends there.

No callback and no send refers to an erased node, in exactly those runs in which a node is only
removed when no posted task, no connection that is not yet closed and no send refers to it
(`Pool.stale_iff`).
-/

namespace Gmaker.Net.AsyncUpstream

open Gmaker.Lib

/-! ## The pool -/

/-- How far the closing of an `AsyncTCPConnection` has come. -/
inductive Phase where
  | isOpen
  /-- `DoClose` is posted. -/
  | posted
  /-- `uv_close` was called. -/
  | closing
  /-- The close callback has run. -/
  | closed
deriving DecidableEq

/-- A connection, with the node that its callbacks have captured. -/
structure Conn where
  node : ℕ
  /-- The connect callback is still to come. -/
  connecting : Bool
  phase : Phase
deriving DecidableEq

/-- `UpstreamNode`; the id stands for its address in memory. -/
structure UpstreamNode where
  id : ℕ
  host : String
  port : UInt16
  healthy : Bool
  connecting : Bool
  conn : Option ℕ
deriving DecidableEq

/-- What is posted to the loop. -/
inductive Task where
  | tryConnect (node : ℕ)
  | doClose (conn : ℕ)
deriving DecidableEq

structure Pool where
  /-- `nodes_` -/
  nodes : List UpstreamNode
  /-- So many nodes were made. -/
  fresh : ℕ
  conns : List Conn
  tasks : List Task
  /-- The nodes that calls of `SendPacket` have chosen and are about to use. -/
  sends : List ℕ
  running : Bool
  /-- A node was used that is not in the pool any more. -/
  stale : Bool
deriving DecidableEq

inductive PoolLabel where
  /-- `AddNode`, on the thread of the loop or another; whether `Connect` succeeds if it is called. -/
  | addNode (host : String) (port : UInt16) (onLoop ok : Bool)
  | removeNode (host : String) (port : UInt16) (onLoop : Bool)
  /-- `Start`; the nodes for which `Connect` fails. -/
  | start (failing : List ℕ)
  | stop (onLoop : Bool)
  /-- `OnReconnectTimer`. -/
  | timer (failing : List ℕ)
  /-- The loop runs the first task. -/
  | runTask (ok : Bool)
  /-- libuv has connected or failed to. -/
  | connectDone (i : ℕ) (success : Bool)
  /-- The peer has gone, or somebody calls `Close`. -/
  | connCloses (i : ℕ) (onLoop : Bool)
  /-- `OnCloseDone`. -/
  | closeDone (i : ℕ)
  /-- `SendPacket` chooses a node. -/
  | sendPick (node : ℕ)
  /-- It goes on with it. -/
  | sendUse (j : ℕ)
deriving DecidableEq

namespace Pool

def new : Pool := ⟨[], 0, [], [], [], false, false⟩

/-- The nodes of the pool. -/
def ids (p : Pool) : List ℕ := p.nodes.map UpstreamNode.id

/-- A write to a node. -/
def setNode (p : Pool) (n : ℕ) (f : UpstreamNode → UpstreamNode) : Pool :=
  { p with nodes := p.nodes.map fun node => if node.id = n then { f node with id := node.id } else node }

/-- `Close` of a connection: on the thread of the loop `DoClose` runs at once. -/
def closeConn (p : Pool) (onLoop : Bool) (i : ℕ) : Pool :=
  match p.conns[i]? with
  | none => p
  | some c =>
    if c.phase = .isOpen then
      if onLoop then { p with conns := p.conns.set i { c with phase := .closing } }
      else { p with conns := p.conns.set i { c with phase := .posted }
                    tasks := p.tasks ++ [.doClose i] }
    else p

/-- `Close` of the connection of a node, if it has one. -/
def closeConn? (p : Pool) (onLoop : Bool) : Option ℕ → Pool
  | none => p
  | some i => p.closeConn onLoop i

/-- The node gives up its connection: one that nobody else keeps is closed by its destructor. -/
def dropConn (p : Pool) (n : ℕ) : Pool :=
  match p.nodes.find? fun node => node.id = n with
  | none => p
  | some node => p.closeConn? true node.conn

/-- `TryConnect` of a node of the pool. -/
def tryConnect (p : Pool) (n : ℕ) (ok : Bool) : Pool :=
  if ok then
    let q := p.dropConn n
    { q.setNode n fun node => { node with connecting := true, conn := some q.conns.length } with
      conns := q.conns ++ [⟨n, true, .isOpen⟩] }
  else p.setNode n fun node => { node with connecting := false }

/-- A callback or a send uses a node that it has a pointer to. -/
def use (p : Pool) (n : ℕ) (q : Pool) : Pool :=
  if n ∈ p.ids then q else { p with stale := true }

/-- `TryConnect` of each of the nodes. -/
def tryAll (p : Pool) (nodes : List UpstreamNode) (failing : List ℕ) : Pool :=
  nodes.foldl (fun q node => q.tryConnect node.id (node.id ∉ failing)) p

/-- `AddNode`. -/
def addNode (p : Pool) (host : String) (port : UInt16) (onLoop ok : Bool) : Pool :=
  if p.nodes.any fun node => node.host = host ∧ node.port = port then p
  else
    let q : Pool := { p with nodes := p.nodes ++ [⟨p.fresh, host, port, false, false, none⟩]
                             fresh := p.fresh + 1 }
    if q.running then
      if onLoop then q.tryConnect p.fresh ok
      else { q with tasks := q.tasks ++ [.tryConnect p.fresh] }
    else q

/-- The node that `RemoveNode` finds. -/
def find (p : Pool) (host : String) (port : UInt16) : Option UpstreamNode :=
  p.nodes.find? fun node => node.host = host ∧ node.port = port

/-- `RemoveNode`. -/
def removeNode (p : Pool) (host : String) (port : UInt16) (onLoop : Bool) : Pool :=
  match p.find host port with
  | none => p
  | some node =>
    let q := p.closeConn? onLoop node.conn
    { q with nodes := q.nodes.filter fun node' => node'.id ≠ node.id }

/-- `Stop` of one node. -/
def stopNode (onLoop : Bool) (p : Pool) (node : UpstreamNode) : Pool :=
  (p.closeConn? onLoop node.conn).setNode node.id fun node =>
    { node with conn := none, healthy := false, connecting := false }

/-- The connect callback, after which a connection that failed is closed. -/
def connected (p : Pool) (i : ℕ) (c : Conn) (success : Bool) : Pool :=
  let q : Pool := { p with conns := p.conns.set i { c with connecting := false } }
  let q := q.setNode c.node fun node => { node with connecting := false, healthy := success }
  if success then q else q.closeConn true i

/-- The close callback. -/
def closed (p : Pool) (i : ℕ) (c : Conn) : Pool :=
  let q : Pool := { p with conns := p.conns.set i { c with phase := .closed } }
  (q.dropConn c.node).setNode c.node fun node =>
    { node with healthy := false, connecting := false, conn := none }

/-- What happens, if it can. -/
def act (p : Pool) : PoolLabel → Option Pool
  | .addNode host port onLoop ok => some (p.addNode host port onLoop ok)
  | .removeNode host port onLoop => some (p.removeNode host port onLoop)
  | .start failing =>
    if p.running then none else some (({ p with running := true }).tryAll p.nodes failing)
  | .stop onLoop =>
    if p.running then
      some ({ p.nodes.foldl (stopNode onLoop) p with running := false })
    else none
  | .timer failing =>
    if p.running then
      some (p.tryAll (p.nodes.filter fun node => !node.healthy && !node.connecting) failing)
    else none
  | .runTask ok => match p.tasks with
    | [] => none
    | .tryConnect n :: rest =>
      let q : Pool := { p with tasks := rest }
      some (q.use n (q.tryConnect n ok))
    | .doClose i :: rest =>
      let q : Pool := { p with tasks := rest }
      match q.conns[i]? with
      | none => some q
      | some c =>
        if c.phase = .posted then
          some { q with conns := q.conns.set i { c with phase := .closing } }
        else some q
  | .connectDone i success => (p.conns[i]?).bind fun c =>
    if c.connecting = true ∧ c.phase ≠ .closed ∧
        (success = true → c.phase = .isOpen ∨ c.phase = .posted) then
      some (p.use c.node (p.connected i c success))
    else none
  | .connCloses i onLoop => some (p.closeConn onLoop i)
  | .closeDone i => (p.conns[i]?).bind fun c =>
    if c.phase = .closing ∧ c.connecting = false then some (p.use c.node (p.closed i c)) else none
  | .sendPick n =>
    if ∃ node ∈ p.nodes, node.id = n ∧ node.healthy = true ∧ node.conn ≠ none then
      some { p with sends := p.sends ++ [n] }
    else none
  | .sendUse j => (p.sends[j]?).bind fun n =>
    let q : Pool := { p with sends := p.sends.eraseIdx j }
    some (q.use n q)

/-- One step, as long as no removed node was used. -/
def next (p : Pool) (l : PoolLabel) : Option Pool := if p.stale then none else p.act l

/-- A posted task, a connection that is not closed, or a send refers to the node. -/
def Refers (p : Pool) (n : ℕ) : Prop :=
  .tryConnect n ∈ p.tasks ∨ (∃ c ∈ p.conns, c.node = n ∧ c.phase ≠ .closed) ∨ n ∈ p.sends

/-- The condition: what is removed is not referred to. -/
def Keeps (p : Pool) : PoolLabel → Prop
  | .removeNode host port _ => ∀ node ∈ p.find host port, ¬ p.Refers node.id
  | _ => True

/-- The run cannot go on, or everything that was under way is over. -/
def Ended (p : Pool) : Prop :=
  p.stale = true ∨ (p.tasks = [] ∧ p.sends = [] ∧ ∀ c ∈ p.conns, c.phase = .closed)

/-! ## Changes that keep what refers to a node -/

/-- The nodes and what refers to them are as before. -/
structure Same (p q : Pool) : Prop where
  ids : q.ids = p.ids
  fresh : q.fresh = p.fresh
  stale : q.stale = p.stale
  refers : ∀ n, q.Refers n ↔ p.Refers n

/-- The nodes are as before, and what refers to others than them. -/
structure Extends (p q : Pool) : Prop where
  ids : q.ids = p.ids
  fresh : q.fresh = p.fresh
  stale : q.stale = p.stale
  keeps : ∀ n, n ∉ p.ids → p.Refers n → q.Refers n
  new : ∀ n, q.Refers n → p.Refers n ∨ n ∈ p.ids

variable {p p' q : Pool} {l : PoolLabel} {n i : ℕ} {c c' : Conn}

theorem Same.refl (p : Pool) : Same p p := ⟨rfl, rfl, rfl, fun _ => Iff.rfl⟩

theorem Same.trans (h : Same p p') (h' : Same p' q) : Same p q where
  ids := h'.ids.trans h.ids
  fresh := h'.fresh.trans h.fresh
  stale := h'.stale.trans h.stale
  refers := fun n => (h'.refers n).trans (h.refers n)

theorem Same.extends (h : Same p q) : Extends p q where
  ids := h.ids
  fresh := h.fresh
  stale := h.stale
  keeps := fun n _ hn => (h.refers n).mpr hn
  new := fun n hn => .inl ((h.refers n).mp hn)

theorem Extends.refl (p : Pool) : Extends p p := (Same.refl p).extends

theorem Extends.trans (h : Extends p p') (h' : Extends p' q) : Extends p q where
  ids := h'.ids.trans h.ids
  fresh := h'.fresh.trans h.fresh
  stale := h'.stale.trans h.stale
  keeps := fun n hn hrefers => h'.keeps n (by rw [h.ids]; exact hn) (h.keeps n hn hrefers)
  new := by
    intro n hn
    rcases h'.new n hn with hn | hn
    · exact h.new n hn
    · exact .inr (h.ids ▸ hn)

/-- A write to a node. -/
theorem same_setNode (p : Pool) (n : ℕ) (f : UpstreamNode → UpstreamNode) :
    Same p (p.setNode n f) where
  ids := by
    unfold ids setNode
    rw [List.map_map]
    refine List.map_congr_left fun node _ => ?_
    show (if node.id = n then _ else node : UpstreamNode).id = node.id
    split_ifs
    · rfl
    · rfl
  fresh := rfl
  stale := rfl
  refers := fun _ => Iff.rfl

/-- A connection goes on, and stays closed or not closed. -/
theorem same_setConn {b : Conn} {t : List Task} (hc : p.conns[i]? = some c) (hnode : b.node = c.node)
    (hphase : b.phase = .closed ↔ c.phase = .closed)
    (htasks : ∀ n, .tryConnect n ∈ t ↔ .tryConnect n ∈ p.tasks) :
    Same p { p with conns := p.conns.set i b, tasks := t } := by
  have hconns (n : ℕ) : (∃ d ∈ p.conns.set i b, d.node = n ∧ d.phase ≠ .closed) ↔
      ∃ d ∈ p.conns, d.node = n ∧ d.phase ≠ .closed := by
    rw [exists_mem_set_iff hc, hnode, Ne, hphase]
    constructor
    · rintro (h | ⟨j, d, -, hd, h⟩)
      · exact ⟨c, List.mem_of_getElem? hc, h⟩
      · exact ⟨d, List.mem_of_getElem? hd, h⟩
    · rintro ⟨d, hd, h⟩
      obtain ⟨j, hj⟩ := List.mem_iff_getElem?.mp hd
      by_cases hji : j = i
      · subst hji
        cases hc.symm.trans hj
        exact .inl h
      · exact .inr ⟨j, d, hji, hj, h⟩
  exact ⟨rfl, rfl, rfl, fun n => or_congr (htasks n) (or_congr (hconns n) Iff.rfl)⟩

theorem same_closeConn (p : Pool) (onLoop : Bool) (i : ℕ) : Same p (p.closeConn onLoop i) := by
  unfold closeConn
  cases hc : p.conns[i]? with
  | none => exact .refl p
  | some c =>
    dsimp only
    have hphase (hopen : c.phase = .isOpen) {phase : Phase} (hne : phase ≠ .closed) :
        phase = .closed ↔ c.phase = .closed := by
      rw [hopen]
      exact iff_of_false hne Phase.noConfusion
    split_ifs with hopen
    · exact same_setConn (b := { c with phase := .closing }) (t := p.tasks) hc rfl
        (hphase hopen Phase.noConfusion) fun _ => Iff.rfl
    · refine same_setConn (b := { c with phase := .posted }) hc rfl
        (hphase hopen Phase.noConfusion) fun n => ?_
      simp
    · exact .refl p

theorem same_closeConn? (p : Pool) (onLoop : Bool) (o : Option ℕ) :
    Same p (p.closeConn? onLoop o) := by
  cases o with
  | none => exact .refl p
  | some i => exact same_closeConn p onLoop i

theorem same_dropConn (p : Pool) (n : ℕ) : Same p (p.dropConn n) := by
  unfold dropConn
  cases p.nodes.find? fun node => node.id = n with
  | none => exact .refl p
  | some node => exact same_closeConn? p true node.conn

/-- A node of the pool is connected. -/
theorem extends_tryConnect (hn : n ∈ p.ids) (ok : Bool) : Extends p (p.tryConnect n ok) := by
  unfold tryConnect
  cases ok with
  | false => exact (same_setNode p n _).extends
  | true =>
    rw [if_pos rfl]
    have hdrop := same_dropConn p n
    generalize p.dropConn n = q at hdrop ⊢
    have hset := same_setNode q n fun node =>
      { node with connecting := true, conn := some q.conns.length }
    refine hdrop.extends.trans ⟨hset.ids, rfl, rfl, fun m _ => ?_, fun m hm => ?_⟩
    · -- a connection more
      refine Or.imp id (Or.imp ?_ id)
      rintro ⟨c, hc, h⟩
      exact ⟨c, List.mem_append_left _ hc, h⟩
    · rcases hm with hm | ⟨c, hc, hnode, h⟩ | hm
      · exact .inl (.inl hm)
      · rcases List.mem_append.mp hc with hc | hc
        · exact .inl (.inr (.inl ⟨c, hc, hnode, h⟩))
        · rw [List.mem_singleton.mp hc] at hnode
          refine .inr ?_
          rw [hdrop.ids, ← hnode]
          exact hn
      · exact .inl (.inr (.inr hm))

/-- A loop over nodes of the pool. -/
theorem extends_foldl {f : Pool → UpstreamNode → Pool} {nodes : List UpstreamNode}
    (hf : ∀ q node, node.id ∈ q.ids → Extends q (f q node))
    (hnodes : ∀ node ∈ nodes, node.id ∈ p.ids) : Extends p (nodes.foldl f p) := by
  induction nodes generalizing p with
  | nil => exact .refl p
  | cons node nodes ih =>
    have hstep := hf p node (hnodes node List.mem_cons_self)
    refine hstep.trans (ih fun node' hnode' => ?_)
    rw [hstep.ids]
    exact hnodes node' (List.mem_cons_of_mem node hnode')

theorem extends_tryAll {nodes : List UpstreamNode} (hnodes : ∀ node ∈ nodes, node.id ∈ p.ids)
    (failing : List ℕ) : Extends p (p.tryAll nodes failing) :=
  extends_foldl (fun _ _ h => extends_tryConnect h _) hnodes

theorem same_stopNode (onLoop : Bool) (p : Pool) (node : UpstreamNode) :
    Same p (stopNode onLoop p node) :=
  (same_closeConn? p onLoop node.conn).trans (same_setNode _ _ _)

theorem same_connected (hc : p.conns[i]? = some c) (success : Bool) :
    Same p (p.connected i c success) := by
  have hset := (same_setConn (b := { c with connecting := false }) (t := p.tasks) hc rfl
    Iff.rfl fun _ => Iff.rfl).trans (same_setNode _ c.node fun node =>
      { node with connecting := false, healthy := success })
  unfold connected
  dsimp only
  split_ifs
  · exact hset
  · exact hset.trans (same_closeConn _ true i)

/-- A close callback runs to its end: its connection does not refer to the node any more. -/
theorem extends_closed (hc : p.conns[i]? = some c) (hn : c.node ∈ p.ids) :
    Extends p (p.closed i c) := by
  have hset : Extends p { p with conns := p.conns.set i { c with phase := .closed } } := by
    refine ⟨rfl, rfl, rfl, fun n hne => Or.imp id (Or.imp ?_ id), fun n hrefers => .inl ?_⟩
    · rintro ⟨d, hd, hnode, h⟩
      obtain ⟨j, hj⟩ := List.mem_iff_getElem?.mp hd
      refine ⟨d, List.mem_iff_getElem?.mpr ⟨j, ?_⟩, hnode, h⟩
      show (p.conns.set i _)[j]? = _
      rw [getElem?_set_at hc, if_neg, hj]
      rintro rfl
      cases hc.symm.trans hj
      exact hne (hnode ▸ hn)
    · refine Or.imp id (Or.imp ?_ id) hrefers
      rintro ⟨d, hd, hnode, h⟩
      rcases List.mem_or_eq_of_mem_set hd with hd | rfl
      · exact ⟨d, hd, hnode, h⟩
      · exact absurd rfl h
  refine hset.trans (Same.extends ?_)
  exact (same_dropConn _ _).trans (same_setNode _ _ _)

/-! ## The steps -/

/-- What a step does. -/
inductive Step (p : Pool) : PoolLabel → Pool → Prop
  | extends {l : PoolLabel} {q : Pool} (hkeeps : p.Keeps l) (h : Extends p q) : Step p l q
  /-- A removed node was used. -/
  | staled {l : PoolLabel} {q : Pool} (h : q.stale = true) {n : ℕ} (hn : n ∉ p.ids)
      (hrefers : p.Refers n) : Step p l q
  | added {l : PoolLabel} {q : Pool} {node : UpstreamNode} (hkeeps : p.Keeps l)
      (hid : node.id = p.fresh)
      (h : Extends { p with nodes := p.nodes ++ [node], fresh := p.fresh + 1 } q) : Step p l q
  | removed {host : String} {port : UInt16} {onLoop : Bool} {q : Pool} {node : UpstreamNode}
      (hnode : node ∈ p.find host port) (h : Same p q) :
      Step p (.removeNode host port onLoop)
        { q with nodes := q.nodes.filter fun node' => node'.id ≠ node.id }

/-- A callback or a send uses the node that it refers to. -/
theorem step_use (hids : p'.ids = p.ids) (hkeeps : p.Keeps l) (hrefers : p.Refers n)
    (h : n ∈ p.ids → Extends p q) : Step p l (p'.use n q) := by
  unfold use
  rw [hids]
  split_ifs with hn
  · exact .extends hkeeps (h hn)
  · exact .staled rfl hn hrefers

theorem id_mem_ids {node : UpstreamNode} (h : node ∈ p.nodes) : node.id ∈ p.ids :=
  List.mem_map.mpr ⟨node, h, rfl⟩

theorem step_of_act (h : p.act l = some q) : Step p l q := by
  cases l with
  | addNode host port onLoop ok =>
    cases h
    unfold addNode
    by_cases hany : (p.nodes.any fun node => node.host = host ∧ node.port = port) = true
    · rw [if_pos hany]
      exact .extends trivial (.refl p)
    · rw [if_neg hany]
      have hnew : p.fresh ∈ ids { p with
          nodes := p.nodes ++ [⟨p.fresh, host, port, false, false, none⟩], fresh := p.fresh + 1 } := by
        unfold ids
        simp
      dsimp only
      split_ifs
      · exact .added trivial rfl (extends_tryConnect hnew ok)
      · -- the task refers to the new node
        refine .added trivial rfl ⟨rfl, rfl, rfl, fun n _ => Or.imp (List.mem_append_left _) id, fun n => ?_⟩
        rintro (hn | hn)
        · rcases List.mem_append.mp hn with hn | hn
          · exact .inl (.inl hn)
          · cases List.mem_singleton.mp hn
            exact .inr hnew
        · exact .inl (.inr hn)
      · exact .added trivial rfl (.refl _)
  | removeNode host port onLoop =>
    cases h
    unfold removeNode
    cases hfind : p.find host port with
    | none =>
      refine .extends (fun node hnode => ?_) (.refl p)
      cases hfind.symm.trans hnode
    | some node => exact .removed hfind (same_closeConn? p onLoop node.conn)
  | start failing =>
    obtain ⟨-, heq⟩ := Option.ite_none_left_eq_some.mp h
    cases heq
    refine .extends trivial ?_
    have hrunning : Extends p { p with running := true } :=
      ⟨rfl, rfl, rfl, fun _ _ => id, fun _ => .inl⟩
    exact hrunning.trans (extends_tryAll (p := { p with running := true })
      (fun node hnode => id_mem_ids hnode) failing)
  | stop onLoop =>
    obtain ⟨-, heq⟩ := Option.ite_none_right_eq_some.mp h
    cases heq
    refine .extends trivial ?_
    have hstop : Extends p (p.nodes.foldl (stopNode onLoop) p) :=
      extends_foldl (fun q node _ => (same_stopNode onLoop q node).extends)
        fun node hnode => id_mem_ids hnode
    exact hstop.trans ⟨rfl, rfl, rfl, fun _ _ => id, fun _ hn => .inl hn⟩
  | timer failing =>
    obtain ⟨-, heq⟩ := Option.ite_none_right_eq_some.mp h
    cases heq
    exact .extends trivial (extends_tryAll (fun node hnode => id_mem_ids (List.mem_of_mem_filter hnode))
      failing)
  | runTask ok =>
    simp only [act] at h
    split at h
    · cases h
    · next n rest htasks =>
      cases h
      have hmem : Task.tryConnect n ∈ p.tasks := by
        rw [htasks]
        exact List.mem_cons_self
      refine step_use rfl trivial (.inl hmem) fun hn => ?_
      -- the task is gone, and the node is in the pool
      have hrest : Extends p { p with tasks := rest } := by
        refine ⟨rfl, rfl, rfl, fun m hm => Or.imp (fun hin => ?_) id, fun m => .inl ∘ Or.imp ?_ id⟩
        · rw [htasks] at hin
          rcases List.mem_cons.mp hin with heq | hin
          · cases heq
            exact absurd hn hm
          · exact hin
        · intro hin
          rw [htasks]
          exact List.mem_cons_of_mem _ hin
      exact hrest.trans (extends_tryConnect (p := { p with tasks := rest }) hn ok)
    · next i rest htasks =>
      have hrest (m : ℕ) : Task.tryConnect m ∈ rest ↔ Task.tryConnect m ∈ p.tasks := by
        rw [htasks]
        simp
      have hsame : Same p { p with tasks := rest } :=
        ⟨rfl, rfl, rfl, fun m => or_congr (hrest m) Iff.rfl⟩
      split at h
      · cases h
        exact .extends trivial hsame.extends
      · next c hc =>
        split_ifs at h with hposted
        · cases h
          refine .extends trivial (same_setConn (b := { c with phase := .closing }) hc rfl ?_ hrest).extends
          rw [hposted]
          exact iff_of_false Phase.noConfusion Phase.noConfusion
        · cases h
          exact .extends trivial hsame.extends
  | connectDone i success =>
    obtain ⟨c, hc, hif⟩ := Option.bind_eq_some_iff.mp h
    obtain ⟨⟨-, hphase, -⟩, heq⟩ := Option.ite_none_right_eq_some.mp hif
    cases heq
    exact step_use rfl trivial (.inr (.inl ⟨c, List.mem_of_getElem? hc, rfl, hphase⟩))
      fun _ => (same_connected hc success).extends
  | connCloses i onLoop =>
    cases h
    exact .extends trivial (same_closeConn p onLoop i).extends
  | closeDone i =>
    obtain ⟨c, hc, hif⟩ := Option.bind_eq_some_iff.mp h
    obtain ⟨⟨hclosing, -⟩, heq⟩ := Option.ite_none_right_eq_some.mp hif
    cases heq
    refine step_use rfl trivial (.inr (.inl ⟨c, List.mem_of_getElem? hc, rfl, ?_⟩))
      fun hn => extends_closed hc hn
    rw [hclosing]
    exact Phase.noConfusion
  | sendPick n =>
    obtain ⟨⟨node, hnode, rfl, -⟩, heq⟩ := Option.ite_none_right_eq_some.mp h
    cases heq
    refine .extends trivial ⟨rfl, rfl, rfl, fun m _ => Or.imp id (Or.imp id (List.mem_append_left _)), ?_⟩
    rintro m (hm | hm | hm)
    · exact .inl (.inl hm)
    · exact .inl (.inr (.inl hm))
    · rcases List.mem_append.mp hm with hm | hm
      · exact .inl (.inr (.inr hm))
      · rw [List.mem_singleton.mp hm]
        exact .inr (id_mem_ids hnode)
  | sendUse j =>
    obtain ⟨n, hn, heq⟩ := Option.bind_eq_some_iff.mp h
    cases heq
    refine step_use rfl trivial (.inr (.inr (List.mem_of_getElem? hn))) fun hin => ?_
    refine ⟨rfl, rfl, rfl, fun m hm => Or.imp id (Or.imp id fun hsend => ?_), fun m hm => .inl ?_⟩
    · -- another send refers to a node that was removed
      obtain ⟨k, hk⟩ := List.mem_iff_getElem?.mp hsend
      refine List.mem_eraseIdx_iff_getElem?.mpr ⟨k, ?_, hk⟩
      rintro rfl
      cases hn.symm.trans hk
      exact hm hin
    · exact Or.imp id (Or.imp id (List.mem_of_mem_eraseIdx)) hm

theorem step_of_next (h : p.next l = some q) : p.stale = false ∧ Step p l q := by
  obtain ⟨hstale, hact⟩ := Option.ite_none_left_eq_some.mp h
  exact ⟨Bool.eq_false_iff.mpr hstale, step_of_act hact⟩

/-! ## Removed nodes -/

/-- What holds as long as the condition is met: what is referred to is in the pool. -/
structure Inv (p : Pool) : Prop where
  stale : p.stale = false
  ids_lt : ∀ n ∈ p.ids, n < p.fresh
  refers : ∀ n, p.Refers n → n ∈ p.ids

/-- A removed node was used, or is referred to. -/
def Doomed (p : Pool) : Prop :=
  p.stale = true ∨ ∃ n, n ∉ p.ids ∧ n < p.fresh ∧ p.Refers n

theorem new_inv : Inv new where
  stale := rfl
  ids_lt := fun _ hn => absurd hn List.not_mem_nil
  refers := by
    rintro n (hn | ⟨c, hc, -⟩ | hn)
    · cases hn
    · cases hc
    · cases hn

theorem Inv.extends (h : Inv p) (hext : Extends p q) : Inv q where
  stale := hext.stale.trans h.stale
  ids_lt := by
    intro n hn
    rw [hext.fresh]
    exact h.ids_lt n (hext.ids ▸ hn)
  refers := by
    intro n hn
    rw [hext.ids]
    exact (hext.new n hn).elim (h.refers n) id

theorem Doomed.extends (h : Doomed p) (hext : Extends p q) : Doomed q := by
  rcases h with hstale | ⟨n, hn, hlt, hrefers⟩
  · exact .inl (hext.stale.trans hstale)
  · refine .inr ⟨n, ?_, ?_, hext.keeps n hn hrefers⟩
    · rw [hext.ids]
      exact hn
    · rw [hext.fresh]
      exact hlt

theorem ids_append (p : Pool) (node : UpstreamNode) :
    ids { p with nodes := p.nodes ++ [node], fresh := p.fresh + 1 } = p.ids ++ [node.id] :=
  List.map_append

/-- A node is made. -/
theorem Inv.added (h : Inv p) {node : UpstreamNode} (hid : node.id = p.fresh) :
    Inv { p with nodes := p.nodes ++ [node], fresh := p.fresh + 1 } where
  stale := h.stale
  ids_lt := by
    intro n hn
    rw [ids_append] at hn
    rcases List.mem_append.mp hn with hn | hn
    · exact Nat.lt_succ_of_lt (h.ids_lt n hn)
    · rw [List.mem_singleton.mp hn, hid]
      exact Nat.lt_succ_self _
  refers := by
    intro n hn
    rw [ids_append]
    exact List.mem_append_left _ (h.refers n hn)

/-- The nodes of the pool without one of them. -/
theorem mem_ids_filter {q : Pool} {node : UpstreamNode} :
    n ∈ ids { q with nodes := q.nodes.filter fun node' => node'.id ≠ node.id } ↔
      n ∈ q.ids ∧ n ≠ node.id := by
  unfold ids
  simp only [List.mem_map, List.mem_filter, decide_eq_true_eq]
  constructor
  · rintro ⟨node', ⟨hnode', hne⟩, rfl⟩
    exact ⟨⟨node', hnode', rfl⟩, hne⟩
  · rintro ⟨⟨node', hnode', rfl⟩, hne⟩
    exact ⟨node', ⟨hnode', hne⟩, rfl⟩

/-- A step that meets the condition keeps the invariant. -/
theorem Inv.step (h : Inv p) (hkeeps : p.Keeps l) (hs : Step p l q) : Inv q := by
  cases hs with
  | «extends» _ hext => exact h.extends hext
  | staled _ hn hrefers => exact absurd (h.refers _ hrefers) hn
  | added _ hid hext => exact (h.added hid).extends hext
  | removed hnode hsame =>
    -- nothing refers to the node that goes
    have hinv := h.extends hsame.extends
    refine ⟨hinv.stale, fun n hn => hinv.ids_lt n (mem_ids_filter.mp hn).1, fun n hn => ?_⟩
    refine mem_ids_filter.mpr ⟨hinv.refers n hn, ?_⟩
    rintro rfl
    exact hkeeps _ hnode ((hsame.refers _).mp hn)

/-- After a step that does not meet the condition a removed node is referred to. -/
theorem Inv.doomed (h : Inv p) (hno : ¬ p.Keeps l) (hs : Step p l q) : Doomed q := by
  cases hs with
  | «extends» hkeeps => exact absurd hkeeps hno
  | staled _ hn hrefers => exact absurd (h.refers _ hrefers) hn
  | added hkeeps => exact absurd hkeeps hno
  | @removed host port onLoop q node hnode hsame =>
    have hrefers : p.Refers node.id := by
      by_contra hnone
      refine hno fun node' hnode' => ?_
      cases hnode.symm.trans hnode'
      exact hnone
    refine .inr ⟨node.id, fun hn => (mem_ids_filter.mp hn).2 rfl, ?_, (hsame.refers _).mpr hrefers⟩
    show node.id < q.fresh
    rw [hsame.fresh]
    exact h.ids_lt _ (h.refers _ hrefers)

theorem Doomed.step (h : Doomed p) (hs : Step p l q) : Doomed q := by
  cases hs with
  | «extends» _ hext => exact h.extends hext
  | staled hstale => exact .inl hstale
  | @added _ _ node _ hid hext =>
    refine Doomed.extends ?_ hext
    rcases h with hstale | ⟨n, hn, hlt, hrefers⟩
    · exact .inl hstale
    · refine .inr ⟨n, ?_, Nat.lt_succ_of_lt hlt, hrefers⟩
      rw [ids_append, List.mem_append, List.mem_singleton, hid]
      rintro (hin | rfl)
      · exact hn hin
      · exact lt_irrefl _ hlt
  | removed hnode hsame =>
    rcases h.extends hsame.extends with hstale | ⟨n, hn, hlt, hrefers⟩
    · exact .inl hstale
    · exact .inr ⟨n, fun hin => hn (mem_ids_filter.mp hin).1, hlt, hrefers⟩

/-- At the end nothing is referred to, so a removed node was used. -/
theorem Doomed.stale (h : Doomed p) (hended : p.Ended) : p.stale = true := by
  rcases h with hstale | ⟨n, -, -, hrefers⟩
  · exact hstale
  · rcases hended with hstale | ⟨htasks, hsends, hconns⟩
    · exact hstale
    · rcases hrefers with hn | ⟨c, hc, -, hphase⟩ | hn
      · rw [htasks] at hn
        cases hn
      · exact absurd (hconns c hc) hphase
      · rw [hsends] at hn
        cases hn

/-- If every step of a run meets the condition no callback and no send uses a removed node; and
where a run has come to its end, this is so only if every step has met the condition. -/
theorem stale_iff {ls : List PoolLabel} (hrun : run next new ls = some p) :
    (RunOk next Keeps new ls → p.stale = false) ∧
      (p.Ended → (RunOk next Keeps new ls ↔ p.stale = false)) := by
  have hkeep : ∀ s l s', Inv s → Keeps s l → next s l = some s' → Inv s' :=
    fun s l s' h hkeeps hs => h.step hkeeps (step_of_next hs).2
  constructor
  · intro hok
    exact (run_invariant (fun s l s' hl h => hkeep s l s' h hl) new_inv hok hrun).stale
  · intro hended
    refine runOk_iff_of_trap (I := Inv) (B := Doomed) hkeep ?_ ?_ new_inv hrun (fun h => h.stale) ?_
    · exact fun s l s' h hno hs => h.doomed hno (step_of_next hs).2
    · exact fun s l s' h hs => h.step (step_of_next hs).2
    · intro hdoomed
      rw [hdoomed.stale hended]
      exact Bool.noConfusion

/-- A node is connected, its peer goes, and it is removed. -/
def removedLater : List PoolLabel :=
  [.addNode "10.0.0.1" 8080 false true, .start [], .connectDone 0 true, .connCloses 0 true,
    .closeDone 0, .removeNode "10.0.0.1" 8080 false]

theorem stale_removedLater :
    RunOk next Keeps new removedLater ↔
      (Pool.mk [] 1 [⟨0, false, .closed⟩] [] [] true false).stale = false :=
  (stale_iff (p := ⟨[], 1, [⟨0, false, .closed⟩], [], [], true, false⟩)
    (by decide)).2 (.inr ⟨rfl, rfl, by decide⟩)

/-- A node that is connected is removed. -/
def removedConnected : List PoolLabel :=
  [.addNode "10.0.0.1" 8080 false true, .start [], .connectDone 0 true,
    .removeNode "10.0.0.1" 8080 false, .runTask true, .closeDone 0]

/-- The close callback writes to it. -/
theorem stale_removedConnected : ∃ p, run next new removedConnected = some p ∧ p.stale = true :=
  ⟨⟨[], 1, [⟨0, false, .closing⟩], [], [], true, true⟩, by decide, rfl⟩

end Pool

end Gmaker.Net.AsyncUpstream
