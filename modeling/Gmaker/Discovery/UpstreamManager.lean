import Gmaker.Discovery.Interface
import Gmaker.Lib.Enumerates
import Gmaker.Lib.Machine

/-!
# Gmaker.Discovery.UpstreamManager — node events and the pools they keep

A manager has one pool of addresses for each service it is interested in. It is told of nodes:
first of those that there are, then of every JOIN, UPDATE and LEAVE. The Go manager notes the
address of each node id for a LEAVE that comes without one; the C++ manager does not. In both a
pool knows addresses only, not who has them.

A pool has the addresses of the live nodes, each once, all along exactly if no announcement takes
an address from its node that no other node has, and no LEAVE takes away an address that another
node has or leaves one that no other node has (`UpstreamManager.pools_exact_iff`).
-/

namespace Gmaker.Discovery

open Gmaker.Lib

/-- What a manager is told. -/
inductive Told where
  /-- One node of what `Discover` returned for a service. -/
  | snapshot (service : String) (node : NodeInfo)
  /-- `NodeEvent`. -/
  | event (type : NodeEventType) (node : NodeInfo)
deriving DecidableEq

namespace Told

def service : Told → String
  | .snapshot service _ => service
  | .event _ node => node.serviceType

def node : Told → NodeInfo
  | .snapshot _ node => node
  | .event _ node => node

/-- Whether the node is gone. -/
def departs : Told → Bool
  | .event .leave _ => true
  | _ => false

end Told

/-! ## Pools of addresses -/

section Pools

variable {A : Type} [DecidableEq A]

/-- `AddNode`. -/
def addNode (nodes : List A) (addr : A) : List A :=
  if addr ∈ nodes then nodes else nodes ++ [addr]

/-- `RemoveNode`. -/
def removeNode (nodes : List A) (addr : A) : List A := nodes.erase addr

/-- What becomes of a pool when one address is added to it or removed from it. -/
def Told.apply (e : Told) (nodes : List A) : Option A → List A
  | none => nodes
  | some addr => if e.departs then removeNode nodes addr else addNode nodes addr

variable {nodes : List A} {addr b : A} {e : Told}

theorem mem_addNode : b ∈ addNode nodes addr ↔ b ∈ nodes ∨ addr = b := by
  unfold addNode
  split_ifs with hmem
  · refine ⟨.inl, ?_⟩
    rintro (hb | rfl)
    · exact hb
    · exact hmem
  · rw [List.mem_append, List.mem_singleton, eq_comm (a := b)]

theorem nodup_addNode (h : nodes.Nodup) : (addNode nodes addr).Nodup := by
  unfold addNode
  split_ifs with hmem
  · exact h
  · exact List.nodup_append.mpr ⟨h, List.nodup_singleton addr, fun a ha b hb hab => hmem
      (by rw [← List.mem_singleton.mp hb, ← hab]; exact ha)⟩

theorem nodup_apply (h : nodes.Nodup) (touched : Option A) : (e.apply nodes touched).Nodup := by
  cases touched with
  | none => exact h
  | some addr =>
    show (if e.departs then removeNode nodes addr else addNode nodes addr).Nodup
    split_ifs
    · exact h.erase addr
    · exact nodup_addNode h

theorem mem_apply_add (hjoin : e.departs = false) {touched : Option A} :
    b ∈ e.apply nodes touched ↔ b ∈ nodes ∨ touched = some b := by
  cases touched with
  | none => simp [Told.apply]
  | some addr =>
    show b ∈ (if e.departs then removeNode nodes addr else addNode nodes addr) ↔ _
    rw [hjoin, if_neg Bool.false_ne_true, mem_addNode, Option.some.injEq]

theorem mem_apply_remove (h : nodes.Nodup) (hleave : e.departs = true) {touched : Option A} :
    b ∈ e.apply nodes touched ↔ b ∈ nodes ∧ touched ≠ some b := by
  cases touched with
  | none => simp [Told.apply]
  | some addr =>
    show b ∈ (if e.departs then removeNode nodes addr else addNode nodes addr) ↔ _
    rw [hleave, if_pos rfl, removeNode, h.mem_erase_iff, and_comm, Ne.eq_def, Ne.eq_def,
      Option.some.injEq, eq_comm (a := b)]

omit [DecidableEq A] in
/-- Nothing happens to the pools when there is none for the service. -/
theorem pools_of_none {pools : String → Option (List A)} {service' : String}
    (h : pools service' = none) (service : String) (l : List A → List A) :
    pools service = if service = service' then (pools service).map l else pools service := by
  split_ifs with heq
  · rw [heq, h]
    rfl
  · rfl

omit [DecidableEq A] in
/-- The pool of a service gives way to another. -/
theorem pools_update {pools : String → Option (List A)} {service' : String} {pool : List A}
    (h : pools service' = some pool) (service : String) (l : List A → List A) :
    Function.update pools service' (some (l pool)) service =
      if service = service' then (pools service).map l else pools service := by
  rw [Function.update_apply]
  split_ifs with heq
  · rw [heq, h]
    rfl
  · rfl

end Pools

/-! ## Live nodes

What a manager is for, whatever it is made of: `pools` reads its pools, `touched` says which
address it adds or removes on being told something, if any. -/

section Live

variable {M A : Type} [DecidableEq A]

/-- A manager, and the nodes that live: for each service and each node id an address. -/
structure Watched (M A : Type) where
  manager : M
  live : String → String → Option A

/-- The address of the node that lives from now on, or none. -/
def Told.addrOf (e : Told) (addrOf : NodeInfo → A) : Option A :=
  if e.departs then none else some (addrOf e.node)

/-- The manager is told, and the nodes are as it was told. -/
def Watched.next (step : M → Told → M) (addrOf : NodeInfo → A) (w : Watched M A) (e : Told) :
    Option (Watched M A) :=
  some ⟨step w.manager e, Function.update w.live e.service
    (Function.update (w.live e.service) e.node.nodeID (e.addrOf addrOf))⟩

/-- Each pool has the addresses of the live nodes of its service, each once. -/
def Watched.Exact (pools : M → String → Option (List A)) (w : Watched M A) : Prop :=
  ∀ service, ∀ pool ∈ pools w.manager service, Enumerates pool (w.live service)

/-- The condition on what a manager with an interest in the service is told. A node comes: its
address is in the pool afterwards, nothing else was added, and an address that it had before is
that of another node. A node goes: what is removed is not the address of another node, and what
is not removed is. -/
def Watched.Keeps (pools : M → String → Option (List A)) (touched : M → Told → Option A)
    (addrOf : NodeInfo → A) (w : Watched M A) (e : Told) : Prop :=
  pools w.manager e.service ≠ none →
    let old := w.live e.service e.node.nodeID
    let other := Elsewhere (w.live e.service) e.node.nodeID
    if e.departs then
      (∀ b ∈ touched w.manager e, ¬ other b) ∧
        ∀ b ∈ old, touched w.manager e = some b ∨ other b
    else
      (old = some (addrOf e.node) ∨ touched w.manager e = some (addrOf e.node) ∨
          other (addrOf e.node)) ∧
        (∀ b ∈ touched w.manager e, b = addrOf e.node ∨ other b) ∧
        ∀ b ∈ old, b = addrOf e.node ∨ other b

variable {pools : M → String → Option (List A)} {step : M → Told → M}
variable {touched : M → Told → Option A} {addrOf : NodeInfo → A} {w : Watched M A} {e : Told}

/-- The pool of the service that is told of, when its nodes change. -/
theorem enumerates_apply_iff {nodes : List A} {live : String → Option A} {t : Option A}
    (h : Enumerates nodes live) : Enumerates (e.apply nodes t)
        (Function.update live e.node.nodeID (e.addrOf addrOf)) ↔
      if e.departs then
        (∀ b ∈ t, ¬ Elsewhere live e.node.nodeID b) ∧
          ∀ b ∈ live e.node.nodeID, t = some b ∨ Elsewhere live e.node.nodeID b
      else
        (live e.node.nodeID = some (addrOf e.node) ∨ t = some (addrOf e.node) ∨
            Elsewhere live e.node.nodeID (addrOf e.node)) ∧
          (∀ b ∈ t, b = addrOf e.node ∨ Elsewhere live e.node.nodeID b) ∧
          ∀ b ∈ live e.node.nodeID, b = addrOf e.node ∨ Elsewhere live e.node.nodeID b := by
  unfold Told.addrOf
  cases hleave : e.departs with
  | true =>
    rw [if_pos rfl, if_pos rfl]
    exact h.remove_iff (nodup_apply h.nodup t) fun b => mem_apply_remove h.nodup hleave
  | false =>
    rw [if_neg Bool.false_ne_true, if_neg Bool.false_ne_true]
    exact h.assign_iff (nodup_apply h.nodup t) fun b => mem_apply_add hleave

/-- One thing is told: pools stay exact if and only if the condition is met. -/
theorem exact_step_iff
    (hpools : ∀ m e service, pools (step m e) service =
      if service = e.service then (pools m service).map fun l => e.apply l (touched m e)
      else pools m service)
    {w' : Watched M A} (h : w.Exact pools) (hnext : w.next step addrOf e = some w') :
    w'.Exact pools ↔ w.Keeps pools touched addrOf e := by
  cases hnext
  constructor
  · intro h' hsome
    obtain ⟨nodes, hnodes⟩ := Option.ne_none_iff_exists'.mp hsome
    refine (enumerates_apply_iff (h e.service nodes hnodes)).mp ?_
    have hnew : Enumerates (e.apply nodes (touched w.manager e))
        (Function.update w.live e.service (Function.update (w.live e.service) e.node.nodeID
          (e.addrOf addrOf)) e.service) := by
      refine h' e.service _ ?_
      show pools (step w.manager e) e.service = _
      rw [hpools, if_pos rfl, hnodes]
      rfl
    rw [Function.update_self] at hnew
    exact hnew
  · intro hkeeps service pool hpool
    rw [hpools] at hpool
    split_ifs at hpool with hservice
    · -- the service that is told of
      subst hservice
      obtain ⟨nodes, hnodes, rfl⟩ := Option.map_eq_some_iff.mp hpool
      show Enumerates _ (Function.update w.live e.service _ e.service)
      rw [Function.update_self]
      refine (enumerates_apply_iff (h e.service nodes hnodes)).mpr (hkeeps ?_)
      rw [hnodes]
      exact Option.some_ne_none _
    · -- another one
      show Enumerates _ (Function.update w.live e.service _ service)
      rw [Function.update_of_ne hservice]
      exact h service pool hpool

/-- Pools are exact all along if and only if all that is told meets the condition. -/
theorem exact_run_iff
    (hpools : ∀ m e service, pools (step m e) service =
      if service = e.service then (pools m service).map fun l => e.apply l (touched m e)
      else pools m service)
    (h : w.Exact pools) (es : List Told) :
    RunOk (Watched.next step addrOf) (Watched.Keeps pools touched addrOf) w es ↔
      ∀ ms t, ms <+: es → run (Watched.next step addrOf) w ms = some t → t.Exact pools := by
  refine runOk_iff ?_ (fun _ _ _ h hnext => exact_step_iff hpools h hnext) h
  intro s l hnone
  cases hnone

end Live

/-! ## The Go manager -/

/-- `UpstreamManager` of the Go library. -/
structure UpstreamManager where
  /-- The addresses of the nodes of the pool of each service of interest. -/
  pools : String → Option (List String)
  /-- `nodeAddrs`, by `service/id`. -/
  nodeAddrs : String → Option String

namespace UpstreamManager

/-- After `AddInterest` for each of the services. -/
def new (interests : List String) : UpstreamManager where
  pools service := if service ∈ interests then some [] else none
  nodeAddrs _ := none

/-- `fmt.Sprintf("%s:%d", node.Host, node.Port)`. -/
def addr (node : NodeInfo) : String := node.host ++ ":" ++ toString node.port

/-- `svc+"/"+node.NodeID`. -/
def nodeKey (service : String) (node : NodeInfo) : String := service ++ "/" ++ node.nodeID

/-- The pool of a service gives way to another. -/
def setPool (m : UpstreamManager) (service : String) (pool : List String) : UpstreamManager :=
  { m with pools := Function.update m.pools service (some pool) }

/-- `m.nodeAddrs[nodeKey] = addr`, or `delete(m.nodeAddrs, nodeKey)`. -/
def setAddr (m : UpstreamManager) (key : String) (addr : Option String) : UpstreamManager :=
  { m with nodeAddrs := Function.update m.nodeAddrs key addr }

/-- A node of the snapshot of a service. -/
def onSnapshot (m : UpstreamManager) (service : String) (node : NodeInfo) : UpstreamManager :=
  match m.pools service with
  | none => m
  | some pool => (m.setPool service (addNode pool (addr node))).setAddr
      (nodeKey service node) (some (addr node))

/-- `onNodeEvent`. -/
def onNodeEvent (m : UpstreamManager) (type : NodeEventType) (node : NodeInfo) :
    UpstreamManager :=
  if node.host = "" then
    if type ≠ .leave then m
    else match m.nodeAddrs (nodeKey node.serviceType node) with
      | none => m
      | some addr => match m.pools node.serviceType with
        | none => m
        | some pool => (m.setPool node.serviceType (removeNode pool addr)).setAddr
            (nodeKey node.serviceType node) none
  else match m.pools node.serviceType with
    | none => m
    | some pool => match type with
      | .join | .update => (m.setPool node.serviceType (addNode pool (addr node))).setAddr
          (nodeKey node.serviceType node) (some (addr node))
      | .leave => (m.setPool node.serviceType (removeNode pool (addr node))).setAddr
          (nodeKey node.serviceType node) none

def step (m : UpstreamManager) : Told → UpstreamManager
  | .snapshot service node => m.onSnapshot service node
  | .event type node => m.onNodeEvent type node

/-- The address that is added or removed: without a host a LEAVE takes the one that was noted, and
nothing else happens. -/
def touched (m : UpstreamManager) : Told → Option String
  | .snapshot _ node => some (addr node)
  | .event type node =>
    if node.host ≠ "" then some (addr node)
    else if type = .leave then m.nodeAddrs (nodeKey node.serviceType node)
    else none

/-- What being told something does to the pools. -/
theorem pools_step (m : UpstreamManager) (e : Told) (service : String) :
    (m.step e).pools service =
      if service = e.service then (m.pools service).map fun l => e.apply l (m.touched e)
      else m.pools service := by
  have hnothing : m.pools service = if service = e.service then
      (m.pools service).map fun l => e.apply l none else m.pools service := by
    show _ = if _ then (m.pools service).map id else _
    rw [Option.map_id, id, ite_self]
  cases e with
  | snapshot service' node =>
    show (m.onSnapshot service' node).pools service = _
    unfold onSnapshot
    cases hs : m.pools service' with
    | none => exact pools_of_none hs service _
    | some pool => exact pools_update hs service fun l => addNode l (addr node)
  | event type node =>
    show (m.onNodeEvent type node).pools service = _
    unfold onNodeEvent touched
    by_cases hhost : node.host = ""
    · -- only a LEAVE of a node whose address was noted does something
      rw [if_pos hhost]
      dsimp only
      rw [if_neg (not_not_intro hhost)]
      by_cases hleave : type = .leave
      · subst hleave
        rw [if_neg (not_not_intro rfl), if_pos rfl]
        cases haddr : m.nodeAddrs (nodeKey node.serviceType node) with
        | none => exact hnothing
        | some addr =>
          cases hs : m.pools node.serviceType with
          | none => exact pools_of_none hs service _
          | some pool => exact pools_update hs service fun l => removeNode l addr
      · rw [if_pos hleave, if_neg hleave]
        exact hnothing
    · rw [if_neg hhost]
      dsimp only
      rw [if_pos hhost]
      cases hs : m.pools node.serviceType with
      | none => exact pools_of_none hs service _
      | some pool =>
        cases type with
        | join => exact pools_update hs service fun l => addNode l (addr node)
        | update => exact pools_update hs service fun l => addNode l (addr node)
        | leave => exact pools_update hs service fun l => removeNode l (addr node)

end UpstreamManager

/-! ## The C++ manager -/

/-- `UpstreamManager` of the C++ library: a host and a `uint16_t` port for each node of the pool
of each service of interest. -/
structure CppUpstreamManager where
  pools : String → Option (List (String × ℕ))

namespace CppUpstreamManager

/-- After `AddInterest` for each of the services. -/
def new (interests : List String) : CppUpstreamManager where
  pools service := if service ∈ interests then some [] else none

/-- What the node says of itself. -/
def addr (node : NodeInfo) : String × ℕ := (node.host, node.port)

/-- What is put into a pool for it: `static_cast<uint16_t>(node.port)`. -/
def endpoint (node : NodeInfo) : String × ℕ := (node.host, node.port % 2 ^ 16)

/-- The pool of a service gives way to another. -/
def setPool (m : CppUpstreamManager) (service : String) (pool : List (String × ℕ)) :
    CppUpstreamManager :=
  ⟨Function.update m.pools service (some pool)⟩

/-- A node of the snapshot of a service. -/
def onSnapshot (m : CppUpstreamManager) (service : String) (node : NodeInfo) :
    CppUpstreamManager :=
  match m.pools service with
  | none => m
  | some pool => m.setPool service (addNode pool (endpoint node))

/-- `OnNodeEvent`. -/
def onNodeEvent (m : CppUpstreamManager) (type : NodeEventType) (node : NodeInfo) :
    CppUpstreamManager :=
  if node.host = "" then m
  else match m.pools node.serviceType with
    | none => m
    | some pool => match type with
      | .join | .update => m.setPool node.serviceType (addNode pool (endpoint node))
      | .leave => m.setPool node.serviceType (removeNode pool (endpoint node))

def step (m : CppUpstreamManager) : Told → CppUpstreamManager
  | .snapshot service node => m.onSnapshot service node
  | .event type node => m.onNodeEvent type node

/-- What is added or removed: nothing without a host, unless it is in a snapshot. -/
def touched (_ : CppUpstreamManager) : Told → Option (String × ℕ)
  | .snapshot _ node => some (endpoint node)
  | .event _ node => if node.host ≠ "" then some (endpoint node) else none

/-- What being told something does to the pools. -/
theorem pools_step (m : CppUpstreamManager) (e : Told) (service : String) :
    (m.step e).pools service =
      if service = e.service then (m.pools service).map fun l => e.apply l (m.touched e)
      else m.pools service := by
  cases e with
  | snapshot service' node =>
    show (m.onSnapshot service' node).pools service = _
    unfold onSnapshot
    cases hs : m.pools service' with
    | none => exact pools_of_none hs service _
    | some pool => exact pools_update hs service fun l => addNode l (endpoint node)
  | event type node =>
    show (m.onNodeEvent type node).pools service = _
    unfold onNodeEvent touched
    by_cases hhost : node.host = ""
    · rw [if_pos hhost]
      dsimp only
      rw [if_neg (not_not_intro hhost)]
      show _ = if _ then (m.pools service).map id else _
      rw [Option.map_id, id, ite_self]
    · rw [if_neg hhost]
      dsimp only
      rw [if_pos hhost]
      cases hs : m.pools node.serviceType with
      | none => exact pools_of_none hs service _
      | some pool =>
        cases type with
        | join => exact pools_update hs service fun l => addNode l (endpoint node)
        | update => exact pools_update hs service fun l => addNode l (endpoint node)
        | leave => exact pools_update hs service fun l => removeNode l (endpoint node)

end CppUpstreamManager

/-! ## Exact pools -/

namespace UpstreamManager

theorem exact_new (interests : List String) :
    Watched.Exact pools ⟨new interests, fun _ _ => none⟩ := by
  intro service pool hpool
  obtain ⟨-, heq⟩ := Option.ite_none_right_eq_some.mp hpool
  cases heq
  exact enumerates_nil

theorem exact_cppNew (interests : List String) :
    Watched.Exact CppUpstreamManager.pools ⟨.new interests, fun _ _ => none⟩ := by
  intro service pool hpool
  obtain ⟨-, heq⟩ := Option.ite_none_right_eq_some.mp hpool
  cases heq
  exact enumerates_nil

/-- The pools of the Go manager, and those of the C++ manager, are exact all along exactly if all
that it is told meets the condition. -/
theorem pools_exact_iff (interests : List String) (es : List Told) :
    (RunOk (Watched.next step addr) (Watched.Keeps pools touched addr)
        ⟨new interests, fun _ _ => none⟩ es ↔
      ∀ ms t, ms <+: es →
        run (Watched.next step addr) ⟨new interests, fun _ _ => none⟩ ms = some t →
        t.Exact pools) ∧
    (RunOk (Watched.next CppUpstreamManager.step CppUpstreamManager.addr)
        (Watched.Keeps CppUpstreamManager.pools CppUpstreamManager.touched CppUpstreamManager.addr)
        ⟨.new interests, fun _ _ => none⟩ es ↔
      ∀ ms t, ms <+: es →
        run (Watched.next CppUpstreamManager.step CppUpstreamManager.addr)
          ⟨.new interests, fun _ _ => none⟩ ms = some t →
        t.Exact CppUpstreamManager.pools) := by
  constructor
  · exact exact_run_iff pools_step (exact_new interests) es
  · exact exact_run_iff CppUpstreamManager.pools_step (exact_cppNew interests) es

/-- Two nodes at one address, and one of them goes. -/
def sharedLeave : List Told :=
  [.event .join ⟨"biz", "n1", "10.0.0.1", 8080⟩, .event .join ⟨"biz", "n2", "10.0.0.1", 8080⟩,
    .event .leave ⟨"biz", "n1", "10.0.0.1", 8080⟩]

/-- The other one lives, and the pool is empty. -/
theorem not_exact_sharedLeave :
    (∃ w, run (Watched.next step addr) ⟨new ["biz"], fun _ _ => none⟩ sharedLeave = some w ∧
      ¬ w.Exact pools) ∧
    ∃ w, run (Watched.next CppUpstreamManager.step CppUpstreamManager.addr)
        ⟨.new ["biz"], fun _ _ => none⟩ sharedLeave = some w ∧
      ¬ w.Exact CppUpstreamManager.pools := by
  constructor
  · refine ⟨_, rfl, fun hexact => ?_⟩
    have hempty := hexact "biz" [] (by decide)
    have hin : "10.0.0.1:8080" ∈ [] := (hempty.mem_iff _).mpr ⟨"n2", by decide⟩
    cases hin
  · refine ⟨_, rfl, fun hexact => ?_⟩
    have hempty := hexact "biz" [] (by decide)
    have hin : ("10.0.0.1", 8080) ∈ [] := (hempty.mem_iff _).mpr ⟨"n2", by decide⟩
    cases hin

end UpstreamManager

end Gmaker.Discovery
