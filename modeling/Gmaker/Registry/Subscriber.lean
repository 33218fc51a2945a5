import Gmaker.Registry.WatchChannels

/-!
# Gmaker.Registry.Subscriber — what a subscriber knows of a service

`handleSubscribe` discovers the nodes of a service and sends them as the snapshot; a
`watchLoop` then subscribes to the store and passes on what comes through the channel. The
store does not stop in between: everything of `Watch.World` can happen between the two
steps and between any two events.

While its channel is listed and open, the subscriber's view, with what is still in the
channel, agrees with the store on every node, or a `Register` has still to tell it what
the store has (`Current`). A step keeps this if and only if it does not lose or overtake
anything (`Ok`); where every step is so, a subscriber that has received everything has
exactly the store's nodes (`view_of_run`).
-/

namespace Gmaker.Registry

open Gmaker.Lib

namespace Subscriber

/-! ## Views -/

/-- The nodes that a subscriber knows, by id. -/
abbrev View := Assoc String NodeInfo

/-- The snapshot of `handleSubscribe`. -/
def View.ofSnapshot (nodes : List NodeInfo) : View := nodes.map fun node => (node.nodeId, node)

/-- What an event does to a view. -/
def View.apply (v : View) (ev : NodeEvent) : View :=
  match ev.type with
  | .leave => v.erase ev.node.nodeId
  | _ => v.assign ev.node.nodeId ev.node

/-- What a view becomes with everything that is in the channel. -/
def View.after (v : View) (events : List NodeEvent) : View := events.foldl View.apply v

/-- The nodes of a view are those of the store. -/
def View.Agrees (v : View) (m : MemoryStore) (serviceType : String) : Prop :=
  ∀ node, node ∈ v.map Prod.snd ↔ node ∈ m.nodesOf serviceType

/-- What the store has of a service under an id. -/
def record (m : MemoryStore) (serviceType nodeID : String) : Option NodeInfo :=
  (m.nodes.lookup nodeID).filter fun node => node.serviceType = serviceType

/-- What is in a channel. -/
def buffer (m : MemoryStore) (w : ℕ) : List NodeEvent :=
  match m.chans[w]? with
  | some c => c.buffer
  | none => []

/-! ## The subscriber -/

/-- How far `handleSubscribe` has come for the service. -/
inductive Phase where
  | idle
  /-- the snapshot has been sent -/
  | discovered (view : View)
  /-- the store would not subscribe -/
  | refused
  | watching (w : ℕ) (view : View)
deriving DecidableEq

/-- A read from the channel of the subscriber: only `watchLoop` makes these. -/
def Phase.owns : Phase → Watch.Label → Bool
  | .watching w _, .receive v => w = v
  | _, _ => false

structure State where
  world : Watch.World := {}
  phase : Phase := .idle

inductive Label where
  /-- everybody else -/
  | world (l : Watch.Label)
  /-- `Discover`, which finds the nodes in this order -/
  | discover (order : List NodeInfo)
  /-- `watchLoop` calls `Subscribe` -/
  | subscribe
  /-- the next event reaches the subscriber -/
  | deliver
deriving DecidableEq

variable (serviceType : String)

/-- One step. -/
def next (s : State) : Label → Option State
  | .world l =>
    if s.phase.owns l then none
    else (s.world.next l).map fun world => { s with world }
  | .discover order =>
    if s.phase = .idle ∧ s.world.panicked = none ∧ s.world.canRLock ∧
        order.Perm (s.world.store.nodesOf serviceType) then
      some { s with phase := .discovered (.ofSnapshot order) }
    else none
  | .subscribe =>
    match s.phase with
    | .discovered view =>
      (s.world.next (.subscribe serviceType false)).map fun world =>
        { world
          phase := if s.world.store.closed then .refused
            else .watching s.world.store.chans.length view }
    | _ => none
  | .deliver =>
    match s.phase with
    | .watching w view =>
      match buffer s.world.store w with
      | ev :: _ =>
        (s.world.next (.receive w)).map fun world =>
          { world, phase := .watching w (view.apply ev) }
      | [] => none
    | _ => none

/-- The channel is in the list of the service, and open. -/
def Subscribed (m : MemoryStore) (w : ℕ) : Prop := w ∈ m.watches serviceType ∧ IsOpen m w

/-- A `Register` that has the channel still to tell what the store has under an id. -/
def Announced (s : Watch.World) (w : ℕ) (nodeID : String) (notifiers : List Watch.Notifier) : Prop :=
  ∃ n ∈ notifiers, w ∈ n.rest ∧ record s.store serviceType nodeID = some n.ev.node

/-- The view, with what is in the channel, agrees with the store on every id, or the store's
record has still to come. -/
def Current (s : State) : Prop :=
  ∀ w view, s.phase = .watching w view → Subscribed serviceType s.world.store w →
    ∀ nodeID, (view.after (buffer s.world.store w)).lookup nodeID =
        record s.world.store serviceType nodeID ∨
      Announced serviceType s.world w nodeID s.world.notifiers

/-- The send of `ev` by the `k`th `Register`: there is room and `ev` is what the store has, or
there is none and what the store has is known; unless another has still to tell it. -/
def Timely (s : Watch.World) (w : ℕ) (view : View) (k : ℕ) (ev : NodeEvent) : Prop :=
  (if (buffer s.store w).length < chanCap then
    record s.store serviceType ev.node.nodeId = some ev.node
  else (view.after (buffer s.store w)).lookup ev.node.nodeId =
    record s.store serviceType ev.node.nodeId) ∨
  Announced serviceType s w ev.node.nodeId (s.notifiers.eraseIdx k)

/-- Nothing is lost and nothing overtaken: the snapshot is what the store has when the
channel is made; a node that the subscriber knows does not go to another service; and a
record is sent into the channel while it is what the store has, and there is room, unless
the store's record has still to come or is known. -/
def Ok (s : State) : Label → Prop
  | .subscribe => s.world.store.closed = false → ∀ view, s.phase = .discovered view →
      ∀ nodeID, view.lookup nodeID = record s.world.store serviceType nodeID
  | .world (.register node _) => ∀ w view, s.phase = .watching w view →
      Subscribed serviceType s.world.store w → node.serviceType = serviceType ∨
        (view.after (buffer s.world.store w)).lookup node.nodeId = none
  | .world (.notify k) => ∀ w view, s.phase = .watching w view →
      Subscribed serviceType s.world.store w →
      ∀ ev rest, s.world.notifiers[k]? = some { ev, rest := w :: rest } →
        Timely serviceType s.world w view k ev
  | _ => True

section Views

variable {m m' : MemoryStore} {v : View} {ev : NodeEvent} {nodeID : String} {w u : ℕ}

/-- Every key is the id of its node. -/
structure Keyed (nodes : Assoc String NodeInfo) : Prop where
  nodup : nodes.keys.Nodup
  key : ∀ p ∈ nodes, p.2.nodeId = p.1

theorem Keyed.nil : Keyed [] := ⟨List.nodup_nil, fun _ hp => absurd hp List.not_mem_nil⟩

theorem Keyed.assign {nodes : Assoc String NodeInfo} (h : Keyed nodes) (node : NodeInfo) :
    Keyed (nodes.assign node.nodeId node) := by
  refine ⟨Assoc.nodup_assign h.nodup _ _, fun p hp => ?_⟩
  rcases Assoc.mem_assign hp with rfl | hp
  · rfl
  · exact h.key p hp

theorem Keyed.erase {nodes : Assoc String NodeInfo} (h : Keyed nodes) (nodeID : String) :
    Keyed (nodes.erase nodeID) :=
  ⟨Assoc.nodup_erase h.nodup _, fun p hp => h.key p (List.mem_filter.mp hp).1⟩

theorem Keyed.apply (h : Keyed v) (ev : NodeEvent) : Keyed (v.apply ev) := by
  unfold View.apply
  split
  · exact h.erase _
  · exact h.assign _

/-- A node is in a map if and only if it is found under its id. -/
theorem Keyed.mem_iff {nodes : Assoc String NodeInfo} (h : Keyed nodes) {node : NodeInfo} :
    node ∈ nodes.map Prod.snd ↔ nodes.lookup node.nodeId = some node := by
  rw [← Assoc.mem_iff_lookup h.nodup]
  constructor
  · intro hmem
    obtain ⟨p, hp, rfl⟩ := List.mem_map.mp hmem
    rw [h.key p hp]
    exact hp
  · intro hmem
    exact List.mem_map.mpr ⟨_, hmem, rfl⟩

theorem mem_nodesOf (h : Keyed m.nodes) {node : NodeInfo} :
    node ∈ m.nodesOf serviceType ↔ record m serviceType node.nodeId = some node := by
  unfold MemoryStore.nodesOf record
  rw [List.mem_filter, h.mem_iff, Option.filter_eq_some_iff]

/-- A snapshot is a map by id. -/
theorem keyed_ofSnapshot (h : Keyed m.nodes) {order : List NodeInfo}
    (horder : order.Perm (m.nodesOf serviceType)) : Keyed (View.ofSnapshot order) := by
  have hkeys : (View.ofSnapshot order).keys = order.map NodeInfo.nodeId := by
    unfold View.ofSnapshot Assoc.keys
    rw [List.map_map]
    rfl
  refine ⟨?_, fun p hp => ?_⟩
  · -- the ids of the nodes of a service are among the keys of the store
    rw [hkeys, (horder.map NodeInfo.nodeId).nodup_iff]
    have hall : m.nodes.keys = (m.nodes.map Prod.snd).map NodeInfo.nodeId := by
      unfold Assoc.keys
      rw [List.map_map]
      exact List.map_congr_left fun p hp => (h.key p hp).symm
    refine List.Nodup.sublist (List.Sublist.map NodeInfo.nodeId List.filter_sublist) ?_
    rw [← hall]
    exact h.nodup
  · obtain ⟨node, -, rfl⟩ := List.mem_map.mp hp
    rfl

/-- Views that find the same records know the same nodes. -/
theorem agrees_iff (h : Keyed m.nodes) (hv : Keyed v) :
    v.Agrees m serviceType ↔ ∀ nodeID, v.lookup nodeID = record m serviceType nodeID := by
  unfold View.Agrees
  constructor
  · intro hagrees nodeID
    refine Option.ext fun node => ?_
    -- whoever is found under an id has that id
    have hleft : v.lookup nodeID = some node → node.nodeId = nodeID := by
      intro hlookup
      exact hv.key _ (Assoc.mem_of_lookup hlookup)
    have hright : record m serviceType nodeID = some node → node.nodeId = nodeID := by
      intro hrecord
      exact h.key _ (Assoc.mem_of_lookup (Option.filter_eq_some_iff.mp hrecord).1)
    constructor
    · intro hlookup
      obtain rfl := hleft hlookup
      exact (mem_nodesOf serviceType h).mp ((hagrees node).mp (hv.mem_iff.mpr hlookup))
    · intro hrecord
      obtain rfl := hright hrecord
      exact hv.mem_iff.mp ((hagrees node).mpr ((mem_nodesOf serviceType h).mpr hrecord))
  · intro hlookup node
    rw [hv.mem_iff, mem_nodesOf serviceType h, hlookup]

theorem record_congr (h : m'.nodes = m.nodes) : record m' serviceType = record m serviceType := by
  funext nodeID
  unfold record
  rw [h]

/-! ### Channels -/

theorem buffer_offer {c : Chan} (hc : m.chans[u]? = some c) (ev : NodeEvent) (w : ℕ) :
    buffer (m.offer u c ev) w =
      if w = u ∧ (buffer m w).length < chanCap then buffer m w ++ [ev] else buffer m w := by
  obtain ⟨hlt, -⟩ := List.getElem?_eq_some_iff.mp hc
  have hbuffer : buffer m u = c.buffer := by
    unfold buffer
    rw [hc]
  by_cases hw : w = u
  · subst hw
    rw [hbuffer]
    unfold buffer MemoryStore.offer
    by_cases hroom : c.buffer.length < chanCap
    · simp [hroom, List.getElem?_set_self hlt]
    · simp [hroom, hc]
  · rw [if_neg fun h => hw h.1]
    unfold buffer MemoryStore.offer
    simp only
    split_ifs
    · rw [List.getElem?_set_ne (Ne.symm hw)]
    · rfl

theorem buffer_closeChan (m : MemoryStore) (u w : ℕ) : buffer (m.closeChan u) w = buffer m w := by
  unfold buffer MemoryStore.closeChan
  cases hc : m.chans[u]? with
  | none => rfl
  | some c =>
    by_cases hw : w = u
    · subst hw
      simp [List.getElem?_set_self (List.getElem?_eq_some_iff.mp hc).1, hc]
    · simp [List.getElem?_set_ne (Ne.symm hw)]

theorem buffer_receive_of_ne (m : MemoryStore) (hw : w ≠ u) :
    buffer (m.receive u) w = buffer m w := by
  unfold buffer MemoryStore.receive
  cases hc : m.chans[u]? with
  | none => rfl
  | some c => simp [List.getElem?_set_ne (Ne.symm hw)]

theorem buffer_addWatch (m : MemoryStore) (service : String) (w : ℕ) :
    buffer (m.addWatch service) w = buffer m w := by
  unfold buffer MemoryStore.addWatch
  simp only
  rcases Nat.lt_trichotomy w m.chans.length with hw | rfl | hw
  · rw [List.getElem?_append_left hw]
  · simp
  · rw [List.getElem?_eq_none (by simp; omega), List.getElem?_eq_none (by omega)]

end Views

/-! ## What everybody else does -/

section World

open Watch (World)

variable {s s' : World} {l : Watch.Label}

theorem Subscribed.of_same {m m' : MemoryStore} (h : Watch.SameChans m m') {w : ℕ}
    (hw : Subscribed serviceType m' w) : Subscribed serviceType m w := by
  obtain ⟨hlisted, hopen⟩ := hw
  rw [h.watches] at hlisted
  exact ⟨hlisted, h.isOpen.mp hopen⟩

theorem Subscribed.of_closeChan {m : MemoryStore} {u w : ℕ}
    (hw : Subscribed serviceType (m.closeChan u) w) : Subscribed serviceType m w := by
  obtain ⟨hlisted, hopen⟩ := hw
  have hwatches : (m.closeChan u).watches = m.watches := by
    unfold MemoryStore.closeChan
    split
    · rfl
    · rfl
  rw [hwatches] at hlisted
  refine ⟨hlisted, ?_⟩
  obtain ⟨service, hstatus⟩ := Watch.isOpen_iff.mp hopen
  rw [Watch.status_closeChan] at hstatus
  split_ifs at hstatus
  · obtain ⟨p, -, hp⟩ := Option.map_eq_some_iff.mp hstatus
    exact absurd (Prod.mk.inj hp).2 Bool.noConfusion
  · exact Watch.isOpen_iff.mpr ⟨service, hstatus⟩

theorem Subscribed.of_unlist {m : MemoryStore} {u w : ℕ} {service : String}
    (hw : Subscribed serviceType (m.unlist u service) w) : Subscribed serviceType m w := by
  obtain ⟨hlisted, hopen⟩ := hw
  refine ⟨?_, hopen⟩
  change w ∈ Function.update m.watches service _ serviceType at hlisted
  by_cases hservice : serviceType = service
  · subst hservice
    rw [Function.update_self] at hlisted
    exact List.mem_of_mem_erase hlisted
  · rw [Function.update_of_ne hservice] at hlisted
    exact hlisted

/-- A step that changes neither the nodes nor what is announced; a channel without a
snapshot to come keeps what is in it, and is not listed or opened anew. -/
structure Still (s s' : World) (l : Watch.Label) : Prop where
  nodes : s'.store.nodes = s.store.nodes
  notifiers : s'.notifiers = s.notifiers
  length : s.store.chans.length ≤ s'.store.chans.length
  channel : ∀ (w : ℕ) (x : Watch.Watcher), s.watchers[w]? = some x → x.snapshot = .ended →
    l ≠ .receive w →
    (∃ x', s'.watchers[w]? = some x' ∧ x'.snapshot = .ended) ∧
      buffer s'.store w = buffer s.store w ∧
      ∀ serviceType, Subscribed serviceType s'.store w → Subscribed serviceType s.store w

theorem Still.refl (s : World) (l : Watch.Label) : Still s s l where
  nodes := rfl
  notifiers := rfl
  length := le_rfl
  channel := fun _ x hx hended _ => ⟨⟨x, hx, hended⟩, rfl, fun _ => id⟩

/-- Only the store changes. -/
theorem Still.store {m' : MemoryStore} {mu : Watch.Mu} {p : Option Watch.Panic} {closes : List ℕ}
    (hnodes : m'.nodes = s.store.nodes) (hlength : s.store.chans.length ≤ m'.chans.length)
    (hchannel : ∀ (w : ℕ) (x : Watch.Watcher), s.watchers[w]? = some x → x.snapshot = .ended →
      l ≠ .receive w → buffer m' w = buffer s.store w ∧
        ∀ serviceType, Subscribed serviceType m' w → Subscribed serviceType s.store w) :
    Still s { s with store := m', mu := mu, panicked := p, closes := closes } l where
  nodes := hnodes
  notifiers := rfl
  length := hlength
  channel := fun w x hx hended hl => ⟨⟨x, hx, hended⟩, hchannel w x hx hended hl⟩

/-- A watcher's goroutines go on, and none of them will send that was not going to. -/
theorem Still.setWatcher {u : ℕ} {y : Watch.Watcher}
    (hy : ∀ x, s.watchers[u]? = some x → x.snapshot = .ended → y.snapshot = .ended) :
    Still s (s.setWatcher u y) l where
  nodes := rfl
  notifiers := rfl
  length := le_rfl
  channel := by
    intro w x hx hended _
    refine ⟨?_, rfl, fun _ => id⟩
    change ∃ x', (s.watchers.set u y)[w]? = some x' ∧ _
    by_cases hw : u = w
    · subst hw
      exact ⟨y, List.getElem?_set_self (List.getElem?_eq_some_iff.mp hx).1, hy x hx hended⟩
    · exact ⟨x, by rw [List.getElem?_set_ne hw, hx], hended⟩

theorem Still.trans {s₁ s₂ s₃ : World} (h : Still s₁ s₂ l) (h' : Still s₂ s₃ l) : Still s₁ s₃ l where
  nodes := h'.nodes.trans h.nodes
  notifiers := h'.notifiers.trans h.notifiers
  length := h.length.trans h'.length
  channel := by
    intro w x hx hended hl
    obtain ⟨⟨x', hx', hended'⟩, hbuffer, hsubscribed⟩ := h.channel w x hx hended hl
    obtain ⟨hlast, hbuffer', hsubscribed'⟩ := h'.channel w x' hx' hended' hl
    exact ⟨hlast, hbuffer'.trans hbuffer, fun service hw => hsubscribed service (hsubscribed' service hw)⟩

/-- A send to a channel whose snapshot has not ended. -/
theorem Still.send {u : ℕ} {ev : NodeEvent}
    (hu : ∀ x, s.watchers[u]? = some x → x.snapshot ≠ .ended) : Still s (s.send u ev) l := by
  unfold World.send
  cases hc : s.store.chans[u]? with
  | none => exact .refl s l
  | some c =>
    have hsame := Watch.sameChans_offer hc ev
    simp only
    split_ifs
    · exact .store rfl le_rfl fun w x _ _ _ => ⟨rfl, fun _ => id⟩
    · refine .store rfl hsame.length.ge fun w x hx hended _ => ⟨?_, fun _ hw => hw.of_same _ hsame⟩
      rw [buffer_offer hc, if_neg]
      rintro ⟨rfl, -⟩
      exact hu x hx hended

theorem Still.close (u : ℕ) : Still s (s.close u) l := by
  unfold World.close
  cases hc : s.store.chans[u]? with
  | none => exact .refl s l
  | some c =>
    simp only
    split_ifs
    · exact .store rfl le_rfl fun w x _ _ _ => ⟨rfl, fun _ => id⟩
    · refine .store ?_ (Watch.length_closeChan s.store u).ge fun w x _ _ _ =>
        ⟨buffer_closeChan s.store u w, fun _ hw => hw.of_closeChan⟩
      unfold MemoryStore.closeChan
      split
      · rfl
      · rfl

/-- All steps but those of `Register`. -/
theorem still_of_step (hbase : Watch.Base s) (hregister : ∀ node now, l ≠ .register node now)
    (hnotify : ∀ k, l ≠ .notify k) (hstep : s.stepAlive l = some s') : Still s s' l := by
  cases l with
  | register node now => exact absurd rfl (hregister node now)
  | notify k => exact absurd rfl (hnotify k)
  | heartbeat nodeID now =>
    simp only [World.stepAlive] at hstep
    split_ifs at hstep
    cases hstep
    unfold MemoryStore.beat
    split_ifs
    · exact .store rfl le_rfl fun w x _ _ _ => ⟨rfl, fun _ => id⟩
    · exact .refl s _
  | sweepExpired now order =>
    simp only [World.stepAlive] at hstep
    split_ifs at hstep
    · cases hstep
      exact .refl _ _
    · cases hstep
      exact .store rfl le_rfl fun w x _ _ _ => ⟨rfl, fun _ => id⟩
  | subscribe service sendSnapshot =>
    simp only [World.stepAlive] at hstep
    split_ifs at hstep
    cases hstep
    unfold World.subscribe
    by_cases hclosed : s.store.closed = true
    · rw [if_pos hclosed]
      exact .refl s _
    · rw [if_neg hclosed]
      refine ⟨rfl, rfl, ?_, fun w x hx hended _ => ?_⟩
      · change _ ≤ (s.store.chans ++ [_]).length
        rw [List.length_append]
        exact Nat.le_add_right _ _
      · have hlt := (List.getElem?_eq_some_iff.mp hx).1
        have hlt' : w < s.store.chans.length := by rwa [← hbase.length]
        refine ⟨⟨x, (List.getElem?_append_left hlt).trans hx, hended⟩, buffer_addWatch _ _ w, ?_⟩
        rintro serviceType ⟨hlisted, hopen⟩
        constructor
        · change w ∈ Function.update s.store.watches service _ serviceType at hlisted
          by_cases hservice : serviceType = service
          · subst hservice
            rw [Function.update_self, List.mem_append, List.mem_singleton] at hlisted
            exact hlisted.resolve_right hlt'.ne
          · rw [Function.update_of_ne hservice] at hlisted
            exact hlisted
        · obtain ⟨svc, hstatus⟩ := Watch.isOpen_iff.mp hopen
          exact Watch.isOpen_iff.mpr ⟨svc, (Watch.status_addWatch_of_lt hlt').symm.trans hstatus⟩
  | snapshotStart w order =>
    rcases World.snapshotStart_cases hstep with ⟨x, c, hx, -, -, hsleeping, -, rfl⟩
    refine .setWatcher fun y hy hended => ?_
    -- this snapshot has not ended
    cases hx.symm.trans hy
    rw [hsleeping] at hended
    cases hended
  | snapshotSend w =>
    rcases World.snapshotSend_cases hstep with ⟨x, node, rest, hx, hsending, rfl⟩
    have hset : Still s (s.setWatcher w { x with snapshot := .sending rest }) (.snapshotSend w) := by
      refine .setWatcher fun y hy hended => ?_
      cases hx.symm.trans hy
      rw [hsending] at hended
      cases hended
    refine hset.trans (.send fun y hy hended => ?_)
    change (s.watchers.set w _)[w]? = some y at hy
    rw [List.getElem?_set_self (List.getElem?_eq_some_iff.mp hx).1] at hy
    cases hy
    cases hended
  | snapshotEnd w =>
    rcases World.snapshotEnd_cases hstep with ⟨x, -, -, rfl⟩
    exact .setWatcher fun _ _ _ => rfl
  | cancel w =>
    rcases World.cancel_cases hstep with ⟨x, hx, rfl⟩
    refine .setWatcher fun y hy hended => ?_
    cases hx.symm.trans hy
    exact hended
  | cleanup w =>
    rcases World.cleanup_cases hstep with ⟨x, serviceType, _, hx, -, -, -, -, rfl⟩
    have hset : Still s (s.setWatcher w { x with cleaned := true }) (.cleanup w) := by
      refine .setWatcher fun y hy hended => ?_
      cases hx.symm.trans hy
      exact hended
    unfold World.cleanup
    split_ifs
    · exact hset
    · refine hset.trans (Still.trans ?_ (.close w))
      exact .store rfl le_rfl fun v y _ _ _ => ⟨rfl, fun _ hv => hv.of_unlist⟩
  | closeStart order =>
    simp only [World.stepAlive] at hstep
    split_ifs at hstep
    cases hstep
    unfold World.closeStart
    split_ifs
    · exact .refl s _
    · exact .store rfl le_rfl fun w x _ _ _ => ⟨rfl, fun _ => id⟩
  | closeChan =>
    rcases World.closeChan_cases hstep with ⟨w, rest, hmu, rfl⟩
    have hmuSet : Still s { s with mu := .closing rest } .closeChan :=
      .store rfl le_rfl fun v x _ _ _ => ⟨rfl, fun _ => id⟩
    exact hmuSet.trans (.close w)
  | closeEnd =>
    simp only [World.stepAlive] at hstep
    split at hstep
    · cases hstep
      exact .store rfl le_rfl fun w x _ _ _ => ⟨rfl, fun _ hw => absurd hw.1 List.not_mem_nil⟩
    · cases hstep
  | receive u =>
    simp only [World.stepAlive, Option.some.injEq] at hstep
    subst hstep
    have hsame := Watch.sameChans_receive s.store u
    refine .store ?_ hsame.length.ge fun w x _ _ hl => ⟨?_, fun _ hw => hw.of_same _ hsame⟩
    · unfold MemoryStore.receive
      split
      · rfl
      · rfl
    · refine buffer_receive_of_ne s.store fun hwu => hl ?_
      rw [hwu]

end World

/-! ## What always holds of a subscriber -/

section Steps

variable {serviceType} {s s' : State}

/-- What holds after every run. -/
structure Inv (s : State) : Prop where
  base : Watch.Base s.world
  nodes : Keyed s.world.store.nodes
  notifiers : ∀ n ∈ s.world.notifiers, n.ev.type = .join ∧ n.rest.Nodup ∧
    ∀ w ∈ n.rest, w < s.world.store.chans.length
  discovered : ∀ view : View, s.phase = .discovered view → Keyed view
  watching : ∀ (w : ℕ) (view : View), s.phase = .watching w view →
    Keyed view ∧ ∃ x, s.world.watchers[w]? = some x ∧ x.snapshot = .ended

theorem Inv.init : Inv {} where
  base := .init
  nodes := .nil
  notifiers := by intro _ hn; cases hn
  discovered := by intro _ h; cases h
  watching := by intro _ _ h; cases h

/-- A step of somebody else. -/
theorem world_cases {l : Watch.Label} (hstep : next serviceType s (.world l) = some s') :
    s.phase.owns l = false ∧ ∃ world, s.world.stepAlive l = some world ∧ s' = { s with world } := by
  simp only [next] at hstep
  split_ifs at hstep with howns
  obtain ⟨world, hworld, rfl⟩ := Option.map_eq_some_iff.mp hstep
  unfold Watch.World.next at hworld
  split_ifs at hworld
  exact ⟨by simpa using howns, world, hworld, rfl⟩

theorem register_cases {world world' : Watch.World} {node : NodeInfo} {now : ℤ}
    (hstep : world.stepAlive (.register node now) = some world') :
    world' = world.register node now := by
  simp only [Watch.World.stepAlive] at hstep
  split_ifs at hstep
  exact (Option.some.inj hstep).symm

/-- The next send of a `Register`. -/
theorem notify_cases {world world' : Watch.World} {k : ℕ}
    (hstep : world.stepAlive (.notify k) = some world') :
    ∃ ev u rest m' p, world.notifiers[k]? = some { ev, rest := u :: rest } ∧
      world' = { world with
        notifiers := world.notifiers.set k { ev, rest }, store := m', panicked := p } ∧
      m'.nodes = world.store.nodes ∧ Watch.SameChans world.store m' ∧
      ∀ w, IsOpen world.store w → buffer m' w =
        if w = u ∧ (buffer world.store w).length < chanCap then buffer world.store w ++ [ev]
        else buffer world.store w := by
  rcases Watch.World.notify_cases hstep with ⟨ev, u, rest, hk, rfl⟩
  unfold Watch.World.send
  cases hc : world.store.chans[u]? with
  | none =>
    refine ⟨ev, u, rest, world.store, world.panicked, hk, rfl, rfl, .refl _, fun w hopen => ?_⟩
    -- an open channel is another one
    rw [if_neg]
    rintro ⟨rfl, -⟩
    obtain ⟨c, hc', -⟩ := hopen
    rw [hc] at hc'
    cases hc'
  | some c =>
    cases hclosed : c.closed with
    | true =>
      refine ⟨ev, u, rest, world.store, some (.sendOnClosed u), hk, by simp [hclosed], rfl, .refl _,
        fun w hopen => ?_⟩
      rw [if_neg]
      rintro ⟨rfl, -⟩
      obtain ⟨c', hc', hopen⟩ := hopen
      cases hc.symm.trans hc'
      rw [hclosed] at hopen
      cases hopen
    | false =>
      exact ⟨ev, u, rest, world.store.offer u c ev, world.panicked, hk, by simp [hclosed], rfl,
        Watch.sameChans_offer hc ev, fun w _ => buffer_offer hc ev w⟩

/-- Where the subscriber's own channel is left alone, what is known of it stays. -/
theorem Inv.of_still (h : Inv s) {l : Watch.Label} {world : Watch.World}
    (hbase : Watch.Base world) (howns : s.phase.owns l = false) (hstill : Still s.world world l) :
    Inv { s with world } where
  base := hbase
  nodes := by
    change Keyed world.store.nodes
    rw [hstill.nodes]
    exact h.nodes
  notifiers := by
    intro n hn
    rw [show world.notifiers = s.world.notifiers from hstill.notifiers] at hn
    obtain ⟨hjoin, hnodup, hlt⟩ := h.notifiers n hn
    exact ⟨hjoin, hnodup, fun w hw => (hlt w hw).trans_le hstill.length⟩
  discovered := h.discovered
  watching := by
    intro w view hphase
    change s.phase = _ at hphase
    obtain ⟨hview, x, hx, hended⟩ := h.watching w view hphase
    refine ⟨hview, (hstill.channel w x hx hended ?_).1⟩
    rintro rfl
    rw [hphase] at howns
    exact of_decide_eq_false howns rfl

/-- One step. -/
theorem Inv.next (h : Inv s) {l : Label} (hstep : Subscriber.next serviceType s l = some s') :
    Inv s' := by
  cases l with
  | world l =>
    obtain ⟨howns, world, hworld, rfl⟩ := world_cases hstep
    have hbase := h.base.stepAlive hworld
    cases l with
    | register node now =>
      obtain rfl := register_cases hworld
      refine ⟨hbase, h.nodes.assign node, fun n hn => ?_, h.discovered, h.watching⟩
      rcases List.mem_append.mp hn with hn | hn
      · exact h.notifiers n hn
      · rw [List.mem_singleton.mp hn]
        refine ⟨rfl, h.base.nodup _, fun w hw => ?_⟩
        obtain ⟨b, hstatus, -⟩ := h.base.watched _ w hw
        exact Watch.lt_of_status hstatus
    | notify k =>
      obtain ⟨ev, u, rest, m', p, hk, rfl, hnodes, hsame, -⟩ := notify_cases hworld
      refine ⟨hbase, hnodes ▸ h.nodes, fun n hn => ?_, h.discovered, h.watching⟩
      have hlength : m'.chans.length = s.world.store.chans.length := hsame.length
      rcases List.mem_or_eq_of_mem_set hn with hn | rfl
      · obtain ⟨hjoin, hnodup, hlt⟩ := h.notifiers n hn
        exact ⟨hjoin, hnodup, fun w hw => hlength ▸ hlt w hw⟩
      · obtain ⟨hjoin, hnodup, hlt⟩ := h.notifiers _ (List.mem_of_getElem? hk)
        exact ⟨hjoin, (List.nodup_cons.mp hnodup).2,
          fun w hw => hlength ▸ hlt w (List.mem_cons_of_mem u hw)⟩
    | _ =>
      refine h.of_still hbase howns (still_of_step h.base ?_ ?_ hworld)
      · intro _ _ hl
        cases hl
      · intro _ hl
        cases hl
  | discover order =>
    simp only [Subscriber.next] at hstep
    split_ifs at hstep with hguard
    cases hstep
    refine ⟨h.base, h.nodes, h.notifiers, fun view hview => ?_, fun _ _ hphase => ?_⟩
    · cases hview
      exact keyed_ofSnapshot serviceType h.nodes hguard.2.2.2
    · cases hphase
  | subscribe =>
    simp only [Subscriber.next] at hstep
    split at hstep
    · next view hphase =>
      obtain ⟨world, hworld, rfl⟩ := Option.map_eq_some_iff.mp hstep
      unfold Watch.World.next at hworld
      split_ifs at hworld
      have hbase := h.base.stepAlive hworld
      have hstill := still_of_step h.base (by simp) (by simp) hworld
      have hsame := h.of_still hbase (by rw [hphase]; rfl) hstill
      refine ⟨hbase, hsame.nodes, hsame.notifiers, fun view' hview' => ?_, fun w view' hview' => ?_⟩
      · change (if s.world.store.closed then Phase.refused else _) = _ at hview'
        split_ifs at hview'
      · change (if s.world.store.closed then Phase.refused else _) = _ at hview'
        split_ifs at hview' with hclosed
        cases hview'
        refine ⟨h.discovered view hphase, { snapshot := .ended }, ?_, rfl⟩
        -- the new watcher is the last one
        simp only [Watch.World.stepAlive] at hworld
        split_ifs at hworld
        cases hworld
        unfold Watch.World.subscribe
        rw [if_neg hclosed, ← h.base.length]
        exact List.getElem?_concat_length
    · cases hstep
  | deliver =>
    simp only [Subscriber.next] at hstep
    split at hstep
    · next w view hphase =>
      split at hstep
      · next ev events hbuffer =>
        obtain ⟨world, hworld, rfl⟩ := Option.map_eq_some_iff.mp hstep
        unfold Watch.World.next at hworld
        split_ifs at hworld
        have hbase := h.base.stepAlive hworld
        have hstill := still_of_step h.base (by simp) (by simp) hworld
        obtain ⟨hview, hwatcher⟩ := h.watching w view hphase
        have hother := h.notifiers
        simp only [Watch.World.stepAlive, Option.some.injEq] at hworld
        subst hworld
        refine ⟨hbase, hstill.nodes ▸ h.nodes, fun n hn => ?_, fun _ hview' => ?_, fun v view' hv => ?_⟩
        · obtain ⟨hjoin, hnodup, hlt⟩ := h.notifiers n hn
          exact ⟨hjoin, hnodup, fun v hv => (hlt v hv).trans_le hstill.length⟩
        · cases hview'
        · cases hv
          exact ⟨hview.apply ev, hwatcher⟩
      · cases hstep
    · cases hstep

/-! ## What a step does to the view -/

/-- A step that leaves the channel, the records and the announcements alone. -/
theorem Current.of_still (h : Current serviceType s) (hinv : Inv s) {l : Watch.Label}
    {world : Watch.World} (howns : s.phase.owns l = false) (hstill : Still s.world world l) :
    Current serviceType { s with world } := by
  intro w view hphase hsubscribed nodeID
  change s.phase = _ at hphase
  obtain ⟨-, x, hx, hended⟩ := hinv.watching w view hphase
  have hl : l ≠ .receive w := by
    rintro rfl
    rw [hphase] at howns
    exact of_decide_eq_false howns rfl
  obtain ⟨-, hbuffer, hback⟩ := hstill.channel w x hx hended hl
  have hbefore := h w view hphase (hback _ hsubscribed) nodeID
  unfold Announced at hbefore ⊢
  change (view.after (buffer world.store w)).lookup nodeID = record world.store serviceType nodeID ∨
    ∃ n ∈ world.notifiers, w ∈ n.rest ∧ record world.store serviceType nodeID = some n.ev.node
  rw [hbuffer, record_congr serviceType hstill.nodes, hstill.notifiers]
  exact hbefore

/-- Who announces a record, one of them apart. -/
theorem exists_mem_set_iff {α : Type} {P : α → Prop} {l : List α} {k : ℕ} {a : α} (hk : k < l.length) :
    (∃ x ∈ l.set k a, P x) ↔ P a ∨ ∃ x ∈ l.eraseIdx k, P x := by
  rw [List.set_eq_take_append_cons_drop, if_pos hk, List.eraseIdx_eq_take_drop_succ]
  constructor
  · rintro ⟨x, hx, hP⟩
    rcases List.mem_append.mp hx with hx | hx
    · exact .inr ⟨x, List.mem_append_left _ hx, hP⟩
    · rcases List.mem_cons.mp hx with rfl | hx
      · exact .inl hP
      · exact .inr ⟨x, List.mem_append_right _ hx, hP⟩
  · rintro (hP | ⟨x, hx, hP⟩)
    · exact ⟨a, List.mem_append_right _ List.mem_cons_self, hP⟩
    · rcases List.mem_append.mp hx with hx | hx
      · exact ⟨x, List.mem_append_left _ hx, hP⟩
      · exact ⟨x, List.mem_append_right _ (List.mem_cons_of_mem _ hx), hP⟩

end Steps

/-! ## Every run -/

variable {serviceType}

theorem Inv.of_run {s : State} {ls : List Label}
    (hrun : run (Subscriber.next serviceType) {} ls = some s) : Inv s :=
  run_invariant_all (fun _ _ _ h hstep => h.next hstep) .init hrun

end Subscriber

end Gmaker.Registry
