import Gmaker.Registry.MemoryStore

/-!
# Gmaker.Registry.WatchChannels — who closes a watcher's channel, and who still sends

The store with its goroutines, interleaved at the critical sections of `m.mu` and at the
single channel operations. `Register` copies the watchers under the lock and sends after
it; the snapshot of `Watch` is sent under the read lock, some time after the channel was
made; the end of a context and `Close` close channels. A send on a closed channel ends the
process.

No channel is closed twice, and nothing is sent on a closed one as long as no channel is
closed that a notifier or a snapshot still has to come to (`closed_safely_exact`).
-/

namespace Gmaker.Registry

open Gmaker.Lib

namespace Watch

/-! ## Goroutines -/

/-- A `Register` that has given the lock back: its event, and the watchers it has still to
tell. -/
structure Notifier where
  ev : NodeEvent
  rest : List ℕ
deriving DecidableEq

/-- The goroutine of `Watch` that sends the first nodes. -/
inductive Snapshot where
  | sleeping
  /-- it holds the read lock, these nodes are still to be sent -/
  | sending (rest : List NodeInfo)
  | ended
deriving DecidableEq

/-- What belongs to a channel besides its contents: the two goroutines that
`subscribeInternal` starts. -/
structure Watcher where
  snapshot : Snapshot
  /-- the context has ended -/
  cancelled : Bool := false
  /-- the cleanup has run -/
  cleaned : Bool := false
deriving DecidableEq

/-- `m.mu`, where it is held from one step to the next by a writer. -/
inductive Mu where
  | free
  /-- `Close`, with the channels it has still to close -/
  | closing (rest : List ℕ)
  /-- a sweep that has found an expired node and waits for its own lock -/
  | sweeping
deriving DecidableEq

/-- Why the process has ended. -/
inductive Panic where
  | sendOnClosed (w : ℕ)
  | closeOfClosed (w : ℕ)
deriving DecidableEq

structure World where
  store : MemoryStore := {}
  mu : Mu := .free
  notifiers : List Notifier := []
  /-- by channel -/
  watchers : List Watcher := []
  panicked : Option Panic := none
  /-- log: the channels that were closed -/
  closes : List ℕ := []

inductive Label where
  /-- `Register`, up to `Unlock` -/
  | register (node : NodeInfo) (now : ℤ)
  /-- the next send of a `Register` -/
  | notify (k : ℕ)
  | heartbeat (nodeID : String) (now : ℤ)
  | sweepExpired (now : ℤ) (order : List String)
  /-- `Watch` (with a snapshot) or `Subscribe` -/
  | subscribe (serviceType : String) (sendSnapshot : Bool)
  /-- the snapshot goroutine wakes up, and finds the nodes in this order -/
  | snapshotStart (w : ℕ) (order : List NodeInfo)
  | snapshotSend (w : ℕ)
  | snapshotEnd (w : ℕ)
  | cancel (w : ℕ)
  | cleanup (w : ℕ)
  /-- `Close`, which finds the channels in this order -/
  | closeStart (order : List ℕ)
  | closeChan
  | closeEnd
  | receive (w : ℕ)
deriving DecidableEq

/-! ## Steps -/

namespace World

/-- A snapshot goroutine holds the read lock. -/
def reading (s : World) : Bool :=
  s.watchers.any fun x => match x.snapshot with | .sending _ => true | _ => false

/-- `m.mu.Lock()` returns. -/
def canLock (s : World) : Bool := s.mu = .free && !s.reading

/-- `m.mu.RLock()` returns. -/
def canRLock (s : World) : Bool := s.mu = .free

/-- `select { case ch <- ev: default: }`. -/
def send (s : World) (w : ℕ) (ev : NodeEvent) : World :=
  match s.store.chans[w]? with
  | some c =>
    if c.closed then { s with panicked := some (.sendOnClosed w) }
    else { s with store := s.store.offer w c ev }
  | none => s

/-- `close(ch)`. -/
def close (s : World) (w : ℕ) : World :=
  match s.store.chans[w]? with
  | some c =>
    if c.closed then { s with panicked := some (.closeOfClosed w) }
    else { s with store := s.store.closeChan w, closes := s.closes ++ [w] }
  | none => s

/-- Note something about a channel's goroutines. -/
def setWatcher (s : World) (w : ℕ) (x : Watcher) : World :=
  { s with watchers := s.watchers.set w x }

/-- The channels in the lists of the services. -/
def watched (s : World) : List ℕ :=
  (List.range s.store.chans.length).filter fun w =>
    s.store.chans[w]?.any fun c => w ∈ s.store.watches c.serviceType

def register (s : World) (node : NodeInfo) (now : ℤ) : World :=
  { s with
    store := s.store.put node now
    notifiers := s.notifiers ++
      [{ ev := { type := .join, node }, rest := s.store.watches node.serviceType }] }

def subscribe (s : World) (serviceType : String) (sendSnapshot : Bool) : World :=
  if s.store.closed then s
  else
    { s with
      store := s.store.addWatch serviceType
      watchers := s.watchers ++ [{ snapshot := if sendSnapshot then .sleeping else .ended }] }

def snapshotStart (s : World) (w : ℕ) (x : Watcher) (order : List NodeInfo) : World :=
  s.setWatcher w { x with snapshot := if s.store.closed then .ended else .sending order }

def cleanup (s : World) (w : ℕ) (x : Watcher) (serviceType : String) : World :=
  let s' := s.setWatcher w { x with cleaned := true }
  if s.store.closed then s' else { s' with store := s.store.unlist w serviceType }.close w

def closeStart (s : World) (order : List ℕ) : World :=
  if s.store.closed then s
  else { s with store := { s.store with closed := true }, mu := .closing order }

/-- One step, the process being alive. -/
def stepAlive (s : World) : Label → Option World
  | .register node now => if s.canLock then some (s.register node now) else none
  | .notify k =>
    match s.notifiers[k]? with
    | some { ev, rest := w :: rest } =>
      some ({ s with notifiers := s.notifiers.set k { ev, rest } }.send w ev)
    | _ => none
  | .heartbeat nodeID now =>
    if s.canLock then some { s with store := s.store.beat nodeID now } else none
  | .sweepExpired now order =>
    if s.canLock ∧ order.Perm s.store.lastHeartbeat.keys then
      -- `broadcast` under the lock does not return
      some (if s.store.expired now order = [] then s else { s with mu := .sweeping })
    else none
  | .subscribe serviceType sendSnapshot =>
    if s.canLock then some (s.subscribe serviceType sendSnapshot) else none
  | .snapshotStart w order =>
    match s.watchers[w]?, s.store.chans[w]? with
    | some x, some c =>
      if s.canRLock ∧ x.snapshot = .sleeping ∧ order.Perm (s.store.nodesOf c.serviceType) then
        some (s.snapshotStart w x order)
      else none
    | _, _ => none
  | .snapshotSend w =>
    match s.watchers[w]? with
    | some x =>
      match x.snapshot with
      | .sending (node :: rest) =>
        some ((s.setWatcher w { x with snapshot := .sending rest }).send w { type := .join, node })
      | _ => none
    | none => none
  | .snapshotEnd w =>
    match s.watchers[w]? with
    | some x => if x.snapshot = .sending [] then some (s.setWatcher w { x with snapshot := .ended }) else none
    | none => none
  | .cancel w =>
    match s.watchers[w]? with
    | some x => some (s.setWatcher w { x with cancelled := true })
    | none => none
  | .cleanup w =>
    match s.watchers[w]?, s.store.chans[w]? with
    | some x, some c =>
      if s.canLock ∧ x.cancelled = true ∧ x.cleaned = false then some (s.cleanup w x c.serviceType)
      else none
    | _, _ => none
  | .closeStart order =>
    if s.canLock ∧ order.Perm s.watched then some (s.closeStart order) else none
  | .closeChan =>
    match s.mu with
    | .closing (w :: rest) => some ({ s with mu := .closing rest }.close w)
    | _ => none
  | .closeEnd =>
    match s.mu with
    | .closing [] => some { s with store := { s.store with watches := fun _ => [] }, mu := .free }
    | _ => none
  | .receive w => some { s with store := s.store.receive w }

/-- A process that has ended does nothing any more. -/
def next (s : World) (l : Label) : Option World :=
  if s.panicked = none then s.stepAlive l else none

/-- The channel that a step closes. -/
def closing (s : World) : Label → Option ℕ
  | .cleanup w => if s.store.closed then none else some w
  | .closeChan => match s.mu with | .closing (w :: _) => some w | _ => none
  | _ => none

/-- Nobody has still to come to the channel that is closed: no `Register` has still to tell
it, and its snapshot is not still to start, unless the store is closed. -/
def Ok (s : World) (l : Label) : Prop :=
  ∀ w, s.closing l = some w →
    (∀ n ∈ s.notifiers, w ∉ n.rest) ∧
      (s.store.closed = false → ∀ x, s.watchers[w]? = some x → x.snapshot ≠ .sleeping)

instance decidableOk (s : World) (l : Label) : Decidable (s.Ok l) :=
  inferInstanceAs (Decidable (∀ w ∈ s.closing l, (∀ n ∈ s.notifiers, w ∉ n.rest) ∧
    (s.store.closed = false → ∀ x ∈ s.watchers[w]?, x.snapshot ≠ .sleeping)))

/-- Every channel was closed at most once, and, closing nothing more, nothing will be sent
on a closed one. -/
def Safe (s : World) : Prop :=
  s.closes.Nodup ∧ ∀ ls t, (∀ l ∈ ls, ∀ w, l ≠ .cleanup w ∧ l ≠ .closeChan) →
    run next s ls = some t → t.panicked = none

end World

/-! ## Channels under the operations of the store -/

/-- The service of a channel and whether it is closed. -/
def status (m : MemoryStore) (w : ℕ) : Option (String × Bool) := m.chans[w]?.map Chan.status

theorem isOpen_iff {m : MemoryStore} {w : ℕ} :
    IsOpen m w ↔ ∃ serviceType, status m w = some (serviceType, false) := by
  unfold IsOpen status
  constructor
  · rintro ⟨c, hc, hopen⟩
    refine ⟨c.serviceType, ?_⟩
    rw [hc, Option.map_some, Chan.status, hopen]
  · rintro ⟨serviceType, h⟩
    obtain ⟨c, hc, hstatus⟩ := Option.map_eq_some_iff.mp h
    exact ⟨c, hc, (Prod.mk.inj hstatus).2⟩

theorem lt_of_status {m : MemoryStore} {w : ℕ} {p : String × Bool} (h : status m w = some p) :
    w < m.chans.length := by
  obtain ⟨c, hc, -⟩ := Option.map_eq_some_iff.mp h
  exact (List.getElem?_eq_some_iff.mp hc).1

/-- The lists of the services and the channels are the same, up to what is in them. -/
structure SameChans (m m' : MemoryStore) : Prop where
  watches : m'.watches = m.watches
  closed : m'.closed = m.closed
  length : m'.chans.length = m.chans.length
  status : ∀ w : ℕ, status m' w = status m w

theorem SameChans.refl (m : MemoryStore) : SameChans m m := ⟨rfl, rfl, rfl, fun _ => rfl⟩

theorem SameChans.isOpen {m m' : MemoryStore} (h : SameChans m m') {w : ℕ} :
    IsOpen m' w ↔ IsOpen m w := by
  rw [isOpen_iff, isOpen_iff, h.status]

theorem sameChans_put (m : MemoryStore) (node : NodeInfo) (now : ℤ) :
    SameChans m (m.put node now) := ⟨rfl, rfl, rfl, fun _ => rfl⟩

theorem sameChans_beat (m : MemoryStore) (nodeID : String) (now : ℤ) :
    SameChans m (m.beat nodeID now) := by
  unfold MemoryStore.beat
  split_ifs
  · exact ⟨rfl, rfl, rfl, fun _ => rfl⟩
  · exact .refl m

theorem sameChans_offer {m : MemoryStore} {w : ℕ} {c : Chan} (hc : m.chans[w]? = some c)
    (ev : NodeEvent) : SameChans m (m.offer w c ev) := by
  have h := sameStore_offer hc ev
  refine ⟨h.watches, h.closed, ?_, h.chans⟩
  unfold MemoryStore.offer
  simp only
  split_ifs
  · exact List.length_set
  · rfl

theorem sameChans_receive (m : MemoryStore) (w : ℕ) : SameChans m (m.receive w) := by
  have h := sameStore_receive m w
  refine ⟨h.watches, h.closed, ?_, h.chans⟩
  unfold MemoryStore.receive
  split
  · exact List.length_set
  · rfl

theorem status_addWatch_of_lt {m : MemoryStore} {serviceType : String} {w : ℕ}
    (hw : w < m.chans.length) : status (m.addWatch serviceType) w = status m w := by
  unfold status MemoryStore.addWatch
  simp only
  rw [List.getElem?_append_left hw]

theorem status_addWatch_self (m : MemoryStore) (serviceType : String) :
    status (m.addWatch serviceType) m.chans.length = some (serviceType, false) := by
  unfold status MemoryStore.addWatch
  simp [Chan.status]

theorem status_closeChan (m : MemoryStore) (w v : ℕ) :
    status (m.closeChan w) v =
      if v = w then (status m v).map fun p => (p.1, true) else status m v := by
  unfold status MemoryStore.closeChan
  cases hc : m.chans[w]? with
  | none =>
    by_cases hv : v = w
    · subst hv
      simp [hc]
    · simp [hv]
  | some c =>
    obtain ⟨hlt, -⟩ := List.getElem?_eq_some_iff.mp hc
    by_cases hv : v = w
    · subst hv
      rw [if_pos rfl, List.getElem?_set_self hlt, hc]
      rfl
    · rw [if_neg hv, List.getElem?_set_ne (Ne.symm hv)]

theorem length_closeChan (m : MemoryStore) (w : ℕ) :
    (m.closeChan w).chans.length = m.chans.length := by
  unfold MemoryStore.closeChan
  split
  · exact List.length_set
  · rfl

/-! ## Sends and closes -/

namespace World

variable {s s' : World} {w : ℕ} {ev : NodeEvent}

theorem send_of_open (h : IsOpen s.store w) (ev : NodeEvent) :
    ∃ m', s.send w ev = { s with store := m' } ∧ SameChans s.store m' := by
  obtain ⟨c, hc, hopen⟩ := h
  refine ⟨s.store.offer w c ev, ?_, sameChans_offer hc ev⟩
  unfold send
  simp only [hc, hopen, Bool.false_eq_true, if_false]

theorem send_of_closed {serviceType : String} (h : status s.store w = some (serviceType, true))
    (ev : NodeEvent) :
    s.send w ev = { s with panicked := some (.sendOnClosed w) } := by
  obtain ⟨c, hc, hstatus⟩ := Option.map_eq_some_iff.mp h
  have hclosed : c.closed = true := (Prod.mk.inj hstatus).2
  unfold send
  simp only [hc, hclosed, if_true]

/-- What a send changes at all. -/
theorem send_frame (s : World) (w : ℕ) (ev : NodeEvent) :
    ∃ m' p, s.send w ev = { s with store := m', panicked := p } ∧ SameChans s.store m' ∧
      (p = s.panicked ∨ p = some (.sendOnClosed w)) := by
  unfold send
  cases hc : s.store.chans[w]? with
  | none => exact ⟨s.store, s.panicked, rfl, .refl _, .inl rfl⟩
  | some c =>
    cases hclosed : c.closed with
    | true => exact ⟨s.store, some (.sendOnClosed w), by simp [hclosed], .refl _, .inr rfl⟩
    | false =>
      exact ⟨s.store.offer w c ev, s.panicked, by simp [hclosed], sameChans_offer hc ev, .inl rfl⟩

theorem close_of_open (h : IsOpen s.store w) :
    s.close w = { s with store := s.store.closeChan w, closes := s.closes ++ [w] } := by
  obtain ⟨c, hc, hopen⟩ := h
  unfold close
  simp only [hc, hopen, Bool.false_eq_true, if_false]

theorem canLock_iff :
    s.canLock = true ↔ s.mu = .free ∧
      ∀ (w : ℕ) (x : Watcher) (rest : List NodeInfo), s.watchers[w]? = some x →
        x.snapshot ≠ .sending rest := by
  have hreading : s.reading = false ↔ ∀ (w : ℕ) (x : Watcher) (rest : List NodeInfo),
      s.watchers[w]? = some x → x.snapshot ≠ .sending rest := by
    unfold reading
    rw [List.any_eq_false]
    constructor
    · intro h w x rest hx hsending
      exact h x (List.mem_of_getElem? hx) (by rw [hsending])
    · intro h x hx
      obtain ⟨w, hw⟩ := List.mem_iff_getElem?.mp hx
      cases hsnapshot : x.snapshot with
      | sending rest => exact absurd hsnapshot (h w x rest hw)
      | sleeping => exact Bool.false_ne_true
      | ended => exact Bool.false_ne_true
  unfold canLock
  rw [Bool.and_eq_true, decide_eq_true_eq, Bool.not_eq_true', hreading]

/-! ## What one step does -/

/-- A `Register` tells the next watcher. -/
theorem notify_cases {k : ℕ} (hstep : s.stepAlive (.notify k) = some s') :
    ∃ ev w rest, s.notifiers[k]? = some { ev, rest := w :: rest } ∧
      s' = { s with notifiers := s.notifiers.set k { ev, rest } }.send w ev := by
  unfold stepAlive at hstep
  simp only at hstep
  split at hstep
  · next ev w rest hk =>
    cases hstep
    exact ⟨ev, w, rest, hk, rfl⟩
  · cases hstep

/-- A snapshot is taken once, while nobody writes. -/
theorem snapshotStart_cases {order : List NodeInfo}
    (hstep : s.stepAlive (.snapshotStart w order) = some s') :
    ∃ x c, s.watchers[w]? = some x ∧ s.store.chans[w]? = some c ∧ s.canRLock = true ∧
      x.snapshot = .sleeping ∧ order.Perm (s.store.nodesOf c.serviceType) ∧
      s' = s.snapshotStart w x order := by
  unfold stepAlive at hstep
  simp only at hstep
  split at hstep
  · next x c hx hc =>
    split_ifs at hstep with hguard
    cases hstep
    exact ⟨x, c, hx, hc, hguard.1, hguard.2.1, hguard.2.2, rfl⟩
  · cases hstep

/-- The next node of a snapshot is sent. -/
theorem snapshotSend_cases (hstep : s.stepAlive (.snapshotSend w) = some s') :
    ∃ x node rest, s.watchers[w]? = some x ∧ x.snapshot = .sending (node :: rest) ∧
      s' = (s.setWatcher w { x with snapshot := .sending rest }).send w { type := .join, node } := by
  unfold stepAlive at hstep
  simp only at hstep
  split at hstep
  · next x hx =>
    split at hstep
    · next node rest hsending =>
      cases hstep
      exact ⟨x, node, rest, hx, hsending, rfl⟩
    · cases hstep
  · cases hstep

theorem snapshotEnd_cases (hstep : s.stepAlive (.snapshotEnd w) = some s') :
    ∃ x, s.watchers[w]? = some x ∧ x.snapshot = .sending [] ∧
      s' = s.setWatcher w { x with snapshot := .ended } := by
  unfold stepAlive at hstep
  simp only at hstep
  split at hstep
  · next x hx =>
    split_ifs at hstep with hsending
    cases hstep
    exact ⟨x, hx, hsending, rfl⟩
  · cases hstep

theorem cancel_cases (hstep : s.stepAlive (.cancel w) = some s') :
    ∃ x, s.watchers[w]? = some x ∧ s' = s.setWatcher w { x with cancelled := true } := by
  unfold stepAlive at hstep
  simp only at hstep
  split at hstep
  · next x hx =>
    cases hstep
    exact ⟨x, hx, rfl⟩
  · cases hstep

/-- A cleanup runs once, while nobody else holds the lock. -/
theorem cleanup_cases (hstep : s.stepAlive (.cleanup w) = some s') :
    ∃ x serviceType b, s.watchers[w]? = some x ∧ status s.store w = some (serviceType, b) ∧
      s.canLock = true ∧ x.cancelled = true ∧ x.cleaned = false ∧
      s' = s.cleanup w x serviceType := by
  unfold stepAlive at hstep
  simp only at hstep
  split at hstep
  · next x c hx hc =>
    split_ifs at hstep with hguard
    cases hstep
    refine ⟨x, c.serviceType, c.closed, hx, ?_, hguard.1, hguard.2.1, hguard.2.2, rfl⟩
    rw [status, hc]
    rfl
  · cases hstep

/-- `Close` takes the next channel of its list. -/
theorem closeChan_cases (hstep : s.stepAlive .closeChan = some s') :
    ∃ w rest, s.mu = .closing (w :: rest) ∧ s' = { s with mu := .closing rest }.close w := by
  unfold stepAlive at hstep
  simp only at hstep
  split at hstep
  · next w rest hmu =>
    cases hstep
    exact ⟨w, rest, hmu, rfl⟩
  · cases hstep

end World

/-! ## What always holds -/

/-- What holds after every run: the lists name open channels, except those that `Close` is
done with; a channel that was not cleaned up is listed while the store is open; and no
channel was closed twice. -/
structure Base (s : World) : Prop where
  length : s.watchers.length = s.store.chans.length
  watched : ∀ (serviceType : String) (w : ℕ), w ∈ s.store.watches serviceType →
    ∃ b, status s.store w = some (serviceType, b) ∧
      (b = true → ∃ rest, s.mu = .closing rest ∧ w ∉ rest)
  nodup : ∀ serviceType : String, (s.store.watches serviceType).Nodup
  listed : s.store.closed = false → ∀ (w : ℕ) (serviceType : String) (b : Bool) (x : Watcher),
    status s.store w = some (serviceType, b) → s.watchers[w]? = some x → x.cleaned = false →
    w ∈ s.store.watches serviceType
  closing : ∀ rest : List ℕ, s.mu = .closing rest →
    s.store.closed = true ∧ rest.Nodup ∧ ∀ w ∈ rest, IsOpen s.store w
  reading : s.mu ≠ .free → ∀ (w : ℕ) (x : Watcher) (rest : List NodeInfo),
    s.watchers[w]? = some x → x.snapshot ≠ .sending rest
  closes : s.closes.Nodup ∧ ∀ w ∈ s.closes, ∃ serviceType, status s.store w = some (serviceType, true)
  panicked : ∀ w : ℕ, s.panicked ≠ some (.closeOfClosed w)

namespace Base

variable {s s' : World}

theorem init : Base {} where
  length := rfl
  watched := by intro _ _ hw; cases hw
  nodup := fun _ => List.nodup_nil
  listed := by intro _ w _ _ x _ hx; cases hx
  closing := by intro _ h; cases h
  reading := by intro h; exact absurd rfl h
  closes := ⟨List.nodup_nil, by intro _ hw; cases hw⟩
  panicked := by intro _ h; cases h

/-- A channel in a list is open while nobody holds the lock for longer. -/
theorem isOpen (h : Base s) (hfree : s.mu = .free) {serviceType : String} {w : ℕ}
    (hw : w ∈ s.store.watches serviceType) : IsOpen s.store w := by
  obtain ⟨b, hstatus, hclosed⟩ := h.watched serviceType w hw
  cases b with
  | false => exact isOpen_iff.mpr ⟨serviceType, hstatus⟩
  | true =>
    obtain ⟨rest, hmu, -⟩ := hclosed rfl
    rw [hfree] at hmu
    cases hmu

/-- Steps that leave the lists, the lock, the cleanups and the closes alone. -/
theorem frame (h : Base s) (hchans : SameChans s.store s'.store) (hmu : s'.mu = s.mu)
    (hcleaned : s'.watchers.map Watcher.cleaned = s.watchers.map Watcher.cleaned)
    (hreading : s.mu ≠ .free → ∀ (w : ℕ) (x : Watcher) (rest : List NodeInfo),
      s'.watchers[w]? = some x → x.snapshot ≠ .sending rest)
    (hcloses : s'.closes = s.closes)
    (hpanicked : ∀ w : ℕ, s'.panicked ≠ some (.closeOfClosed w)) : Base s' where
  length := by
    have hlength := congrArg List.length hcleaned
    rw [List.length_map, List.length_map] at hlength
    rw [hlength, h.length, hchans.length]
  watched := by
    intro serviceType w hw
    rw [hchans.watches] at hw
    rw [hchans.status, hmu]
    exact h.watched serviceType w hw
  nodup := by rw [hchans.watches]; exact h.nodup
  listed := by
    intro hopen w serviceType b x hstatus hx hclean
    rw [hchans.closed] at hopen
    rw [hchans.status] at hstatus
    rw [hchans.watches]
    have hmap : (s.watchers.map Watcher.cleaned)[w]? = some false := by
      rw [← hcleaned, List.getElem?_map, hx, Option.map_some, hclean]
    rw [List.getElem?_map] at hmap
    obtain ⟨y, hy, hycleaned⟩ := Option.map_eq_some_iff.mp hmap
    exact h.listed hopen w serviceType b y hstatus hy hycleaned
  closing := by
    intro rest hrest
    rw [hmu] at hrest
    obtain ⟨hclosed, hnodup, hrestOpen⟩ := h.closing rest hrest
    exact ⟨hchans.closed.trans hclosed, hnodup, fun w hw => hchans.isOpen.mpr (hrestOpen w hw)⟩
  reading := by
    intro hbusy
    rw [hmu] at hbusy
    exact hreading hbusy
  closes := by
    rw [hcloses]
    refine ⟨h.closes.1, fun w hw => ?_⟩
    rw [hchans.status]
    exact h.closes.2 w hw
  panicked := hpanicked

/-- A send, after something that leaves all this alone. -/
theorem send (h : Base s) (w : ℕ) (ev : NodeEvent) : Base (s.send w ev) := by
  obtain ⟨m', p, heq, hsame, hp⟩ := World.send_frame s w ev
  rw [heq]
  refine h.frame hsame rfl rfl h.reading rfl fun v hv => ?_
  rcases hp with rfl | rfl
  · exact h.panicked v hv
  · cases hv

/-- A watcher's goroutines go on, without the cleanup. -/
theorem setWatcher (h : Base s) {w : ℕ} {x y : Watcher} (hx : s.watchers[w]? = some x)
    (hcleaned : y.cleaned = x.cleaned)
    (hsending : s.mu ≠ .free → ∀ rest : List NodeInfo, y.snapshot ≠ .sending rest) :
    Base (s.setWatcher w y) := by
  obtain ⟨hlt, hget⟩ := List.getElem?_eq_some_iff.mp hx
  refine h.frame (.refl _) rfl ?_ (fun hbusy v z rest hz => ?_) rfl h.panicked
  · change (s.watchers.set w y).map Watcher.cleaned = _
    rw [List.map_set, hcleaned, ← hget]
    refine List.ext_getElem (by simp) fun i hi hi' => ?_
    by_cases hiw : w = i
    · subst hiw
      simp
    · simp [List.getElem_set_ne hiw]
  · change (s.watchers.set w y)[v]? = some z at hz
    by_cases hv : w = v
    · subst hv
      rw [List.getElem?_set_self hlt] at hz
      cases hz
      exact hsending hbusy rest
    · rw [List.getElem?_set_ne hv] at hz
      exact h.reading hbusy v z rest hz

theorem subscribe (h : Base s) (hlock : s.canLock = true) (serviceType : String)
    (sendSnapshot : Bool) : Base (s.subscribe serviceType sendSnapshot) := by
  obtain ⟨hfree, -⟩ := World.canLock_iff.mp hlock
  unfold World.subscribe
  by_cases hclosed : s.store.closed = true
  · rw [if_pos hclosed]
    exact h
  · rw [if_neg hclosed]
    -- the new channel is the last one, and open
    have hupdate : ∀ (service : String) (w : ℕ),
        w ∈ (s.store.addWatch serviceType).watches service ↔
          w ∈ s.store.watches service ∨ (service = serviceType ∧ w = s.store.chans.length) := by
      intro service w
      change w ∈ Function.update s.store.watches serviceType _ service ↔ _
      by_cases hservice : service = serviceType
      · subst hservice
        simp
      · rw [Function.update_of_ne hservice]
        simp [hservice]
    have hlt : ∀ (service : String) (w : ℕ), w ∈ s.store.watches service →
        w < s.store.chans.length := by
      intro service w hw
      obtain ⟨b, hstatus, -⟩ := h.watched service w hw
      exact lt_of_status hstatus
    refine ⟨?_, fun service w hw => ?_, fun service => ?_, fun _ w service b x hstatus hx hclean => ?_,
      fun rest hrest => ?_, fun hbusy => absurd hfree hbusy, ⟨h.closes.1, fun w hw => ?_⟩, h.panicked⟩
    · change (s.watchers ++ [_]).length = (s.store.chans ++ [_]).length
      rw [List.length_append, List.length_append, h.length]
      rfl
    · rcases (hupdate service w).mp hw with hold | ⟨rfl, rfl⟩
      · obtain ⟨b, hstatus, hmu⟩ := h.watched service w hold
        exact ⟨b, (status_addWatch_of_lt (hlt service w hold)).trans hstatus, hmu⟩
      · exact ⟨false, status_addWatch_self s.store service, by intro hfalse; cases hfalse⟩
    · change (Function.update s.store.watches serviceType _ service).Nodup
      by_cases hservice : service = serviceType
      · subst hservice
        rw [Function.update_self]
        refine List.nodup_append'.mpr ⟨h.nodup service, List.nodup_singleton _, ?_⟩
        rw [List.disjoint_singleton]
        intro hmem
        exact lt_irrefl _ (hlt service _ hmem)
      · rw [Function.update_of_ne hservice]
        exact h.nodup service
    · change (s.watchers ++ [_])[w]? = some x at hx
      refine (hupdate service w).mpr ?_
      by_cases hw : w < s.store.chans.length
      · rw [List.getElem?_append_left (by rwa [h.length])] at hx
        have hstatus' : status s.store w = some (service, b) :=
          (status_addWatch_of_lt hw).symm.trans hstatus
        exact .inl (h.listed (by simpa using hclosed) w service b x hstatus' hx hclean)
      · have hle : w < (s.store.chans ++ [({ serviceType := serviceType } : Chan)]).length :=
          lt_of_status hstatus
        rw [List.length_append, List.length_singleton] at hle
        have heq : w = s.store.chans.length := by omega
        subst heq
        have hself := (status_addWatch_self s.store serviceType).symm.trans hstatus
        exact .inr ⟨(Prod.mk.inj (Option.some.inj hself)).1.symm, rfl⟩
    · change s.mu = .closing rest at hrest
      rw [hfree] at hrest
      cases hrest
    · obtain ⟨service, hstatus⟩ := h.closes.2 w hw
      exact ⟨service, (status_addWatch_of_lt (lt_of_status hstatus)).trans hstatus⟩

/-- An open channel is closed that nobody finds in a list any more, or that `Close` is at. -/
theorem close (h : Base s) {w : ℕ} (hopen : IsOpen s.store w)
    (hlist : ∀ serviceType, w ∈ s.store.watches serviceType → ∃ rest, s.mu = .closing rest)
    (hrest : ∀ rest, s.mu = .closing rest → w ∉ rest) : Base (s.close w) := by
  rw [World.close_of_open hopen]
  obtain ⟨service, hservice⟩ := isOpen_iff.mp hopen
  have hstatus : ∀ v : ℕ, status (s.store.closeChan w) v =
      if v = w then some (service, true) else status s.store v := by
    intro v
    rw [status_closeChan]
    split_ifs with hv
    · rw [hv, hservice]
      rfl
    · rfl
  have hsame : (s.store.closeChan w).watches = s.store.watches ∧
      (s.store.closeChan w).closed = s.store.closed := by
    unfold MemoryStore.closeChan
    split
    · exact ⟨rfl, rfl⟩
    · exact ⟨rfl, rfl⟩
  refine ⟨?_, fun serviceType v hv => ?_, ?_, fun hclosed v serviceType b x hv hx hclean => ?_,
    fun rest hmu => ?_, h.reading, ⟨?_, fun v hv => ?_⟩, h.panicked⟩
  · change s.watchers.length = (s.store.closeChan w).chans.length
    rw [length_closeChan, h.length]
  · change v ∈ (s.store.closeChan w).watches serviceType at hv
    change ∃ b, status (s.store.closeChan w) v = _ ∧ _
    rw [hsame.1] at hv
    obtain ⟨b, hb, hclosing⟩ := h.watched serviceType v hv
    rw [hstatus]
    by_cases hvw : v = w
    · subst hvw
      obtain ⟨rest, hmu⟩ := hlist serviceType hv
      rw [hservice] at hb
      have hname : service = serviceType := (Prod.mk.inj (Option.some.inj hb)).1
      exact ⟨true, by rw [if_pos rfl, hname], fun _ => ⟨rest, hmu, hrest rest hmu⟩⟩
    · rw [if_neg hvw]
      exact ⟨b, hb, hclosing⟩
  · change ∀ serviceType, ((s.store.closeChan w).watches serviceType).Nodup
    rw [hsame.1]
    exact h.nodup
  · change (s.store.closeChan w).closed = false at hclosed
    change status (s.store.closeChan w) v = _ at hv
    change v ∈ (s.store.closeChan w).watches serviceType
    rw [hsame.2] at hclosed
    rw [hstatus] at hv
    rw [hsame.1]
    by_cases hvw : v = w
    · subst hvw
      rw [if_pos rfl] at hv
      have hname : service = serviceType := (Prod.mk.inj (Option.some.inj hv)).1
      exact h.listed hclosed v serviceType false x (hname ▸ hservice) hx hclean
    · rw [if_neg hvw] at hv
      exact h.listed hclosed v serviceType b x hv hx hclean
  · obtain ⟨hclosed, hnodup, hopens⟩ := h.closing rest hmu
    refine ⟨hsame.2.trans hclosed, hnodup, fun v hv => ?_⟩
    obtain ⟨serviceType, hv'⟩ := isOpen_iff.mp (hopens v hv)
    refine isOpen_iff.mpr ⟨serviceType, ?_⟩
    rw [hstatus, if_neg ?_]
    · exact hv'
    · rintro rfl
      exact hrest rest hmu hv
  · -- it was open: it is not among those that were closed
    refine List.nodup_append'.mpr ⟨h.closes.1, List.nodup_singleton _, ?_⟩
    rw [List.disjoint_singleton]
    intro hmem
    obtain ⟨serviceType, hclosed⟩ := h.closes.2 w hmem
    rw [hservice] at hclosed
    exact Bool.false_ne_true (Prod.mk.inj (Option.some.inj hclosed)).2
  · change ∃ serviceType, status (s.store.closeChan w) v = _
    rw [hstatus]
    by_cases hvw : v = w
    · exact ⟨service, if_pos hvw⟩
    · rw [if_neg hvw]
      rcases List.mem_append.mp hv with hv | hv
      · exact h.closes.2 v hv
      · exact absurd (List.mem_singleton.mp hv) hvw

/-- What is listed after a cleanup. -/
theorem mem_unlist (h : Base s) {w v : ℕ} {serviceType service : String} {b : Bool}
    (hw : status s.store w = some (serviceType, b)) :
    v ∈ (s.store.unlist w serviceType).watches service ↔
      v ∈ s.store.watches service ∧ v ≠ w := by
  change v ∈ Function.update s.store.watches serviceType _ service ↔ _
  by_cases hservice : service = serviceType
  · subst hservice
    rw [Function.update_self, (h.nodup service).mem_erase_iff, and_comm]
  · rw [Function.update_of_ne hservice]
    refine (and_iff_left_of_imp ?_).symm
    rintro hv rfl
    obtain ⟨b', hstatus, -⟩ := h.watched service v hv
    rw [hw] at hstatus
    exact hservice (Prod.mk.inj (Option.some.inj hstatus)).1.symm

/-- The cleanup, up to `close(ch)`. -/
theorem unlist (h : Base s) (hfree : s.mu = .free) {w : ℕ} {x : Watcher} {serviceType : String}
    (hx : s.watchers[w]? = some x) {b : Bool} (hw : status s.store w = some (serviceType, b)) :
    Base { s.setWatcher w { x with cleaned := true } with
      store := s.store.unlist w serviceType } := by
  obtain ⟨hlt, -⟩ := List.getElem?_eq_some_iff.mp hx
  refine ⟨List.length_set.trans h.length, fun service v hv => ?_, fun service => ?_,
    fun hclosed v service b' y hv hy hclean => ?_, fun rest hmu => ?_, fun hbusy => absurd hfree hbusy,
    h.closes, h.panicked⟩
  · exact h.watched service v ((h.mem_unlist hw).mp hv).1
  · change (Function.update s.store.watches serviceType _ service).Nodup
    by_cases hservice : service = serviceType
    · subst hservice
      rw [Function.update_self]
      exact (h.nodup _).erase w
    · rw [Function.update_of_ne hservice]
      exact h.nodup service
  · change (s.watchers.set w _)[v]? = some y at hy
    refine (h.mem_unlist hw).mpr ?_
    by_cases hvw : v = w
    · subst hvw
      rw [List.getElem?_set_self hlt] at hy
      cases hy
      cases hclean
    · rw [List.getElem?_set_ne (Ne.symm hvw)] at hy
      exact ⟨h.listed hclosed v service b' y hv hy hclean, hvw⟩
  · change s.mu = .closing rest at hmu
    rw [hfree] at hmu
    cases hmu

/-- The channels that `Close` finds: all that are listed. -/
theorem mem_watched (h : Base s) {w : ℕ} :
    w ∈ s.watched ↔ ∃ serviceType, w ∈ s.store.watches serviceType := by
  unfold World.watched
  rw [List.mem_filter, List.mem_range]
  constructor
  · rintro ⟨-, hany⟩
    obtain ⟨c, -, hc⟩ := (Option.any_eq_true _ _).mp hany
    exact ⟨c.serviceType, of_decide_eq_true hc⟩
  · rintro ⟨serviceType, hw⟩
    obtain ⟨b, hstatus, -⟩ := h.watched serviceType w hw
    refine ⟨lt_of_status hstatus, ?_⟩
    obtain ⟨c, hc, hname⟩ := Option.map_eq_some_iff.mp hstatus
    rw [hc]
    change decide (w ∈ s.store.watches c.serviceType) = true
    rw [(Prod.mk.inj hname).1]
    exact decide_eq_true hw

/-- One step. -/
theorem stepAlive (h : Base s) {l : Label} (hstep : s.stepAlive l = some s') : Base s' := by
  cases l with
  | register node now =>
    simp only [World.stepAlive] at hstep
    split_ifs at hstep
    cases hstep
    exact h.frame (sameChans_put _ _ _) rfl rfl h.reading rfl h.panicked
  | notify k =>
    rcases World.notify_cases hstep with ⟨ev, w, rest, -, rfl⟩
    refine Base.send (s := { s with notifiers := _ }) ?_ _ _
    exact h.frame (.refl _) rfl rfl h.reading rfl h.panicked
  | heartbeat nodeID now =>
    simp only [World.stepAlive] at hstep
    split_ifs at hstep
    cases hstep
    exact h.frame (sameChans_beat _ _ _) rfl rfl h.reading rfl h.panicked
  | sweepExpired now order =>
    simp only [World.stepAlive] at hstep
    split_ifs at hstep with hguard hnone
    · cases hstep
      exact h
    · cases hstep
      obtain ⟨hfree, hreading⟩ := World.canLock_iff.mp hguard.1
      -- the lists are those of a free lock: they name open channels only
      refine { h with watched := ?_, closing := ?_, reading := fun _ => hreading }
      · intro serviceType w hw
        obtain ⟨b, hstatus, hclosing⟩ := h.watched serviceType w hw
        refine ⟨b, hstatus, fun hb => ?_⟩
        obtain ⟨rest, hmu, -⟩ := hclosing hb
        rw [hfree] at hmu
        cases hmu
      · intro rest hmu
        cases hmu
  | subscribe serviceType sendSnapshot =>
    simp only [World.stepAlive] at hstep
    split_ifs at hstep with hlock
    cases hstep
    exact h.subscribe hlock serviceType sendSnapshot
  | snapshotStart w order =>
    rcases World.snapshotStart_cases hstep with ⟨x, c, hx, -, hlock, -, -, rfl⟩
    have hfree : s.mu = .free := of_decide_eq_true hlock
    exact h.setWatcher hx rfl fun hbusy => absurd hfree hbusy
  | snapshotSend w =>
    rcases World.snapshotSend_cases hstep with ⟨x, node, rest, hx, hsending, rfl⟩
    refine Base.send (h.setWatcher (y := { x with snapshot := .sending rest }) hx rfl
      fun hbusy => ?_) _ _
    exact absurd hsending (h.reading hbusy w x _ hx)
  | snapshotEnd w =>
    rcases World.snapshotEnd_cases hstep with ⟨x, hx, -, rfl⟩
    refine h.setWatcher hx rfl fun _ rest hsending => ?_
    cases hsending
  | cancel w =>
    rcases World.cancel_cases hstep with ⟨x, hx, rfl⟩
    exact h.setWatcher hx rfl fun hbusy rest => h.reading hbusy w x rest hx
  | cleanup w =>
    rcases World.cleanup_cases hstep with ⟨x, serviceType, b, hx, hstatus, hlock, -, hclean, rfl⟩
    rcases World.canLock_iff.mp hlock with ⟨hfree, hreading⟩
    unfold World.cleanup
    cases hclosed : s.store.closed with
    | true =>
      rw [if_pos rfl]
      refine { h with length := ?_, listed := ?_, reading := fun hbusy => absurd hfree hbusy }
      · exact List.length_set.trans h.length
      · intro hopen
        exact absurd (hclosed.symm.trans hopen) Bool.noConfusion
    | false =>
      have hmem := h.listed hclosed w serviceType b x hstatus hx hclean
      have hunlist := h.unlist hfree hx hstatus
      rw [if_neg Bool.false_ne_true]
      refine hunlist.close (h.isOpen hfree hmem) (fun service hw => ?_) fun rest hmu => ?_
      · exact absurd rfl ((h.mem_unlist hstatus).mp hw).2
      · change s.mu = .closing rest at hmu
        rw [hfree] at hmu
        cases hmu
  | closeStart order =>
    simp only [World.stepAlive] at hstep
    split_ifs at hstep with hguard
    cases hstep
    obtain ⟨hlock, horder⟩ := hguard
    obtain ⟨hfree, hreading⟩ := World.canLock_iff.mp hlock
    unfold World.closeStart
    split_ifs with hclosed
    · exact h
    · refine ⟨h.length, fun serviceType w hw => ?_, h.nodup, fun hopen => ?_, fun rest hmu => ?_,
        fun _ => hreading, h.closes, h.panicked⟩
      · obtain ⟨service, hstatus⟩ := isOpen_iff.mp (h.isOpen hfree hw)
        obtain ⟨b, hb, -⟩ := h.watched serviceType w hw
        rw [hstatus] at hb
        have hname : service = serviceType := (Prod.mk.inj (Option.some.inj hb)).1
        exact ⟨false, hname ▸ hstatus, by intro hfalse; cases hfalse⟩
      · cases hopen
      · cases hmu
        refine ⟨rfl, ?_, fun w hw => ?_⟩
        · exact horder.nodup_iff.mpr (List.nodup_range.filter _)
        · obtain ⟨serviceType, hmem⟩ := h.mem_watched.mp (horder.mem_iff.mp hw)
          exact h.isOpen hfree hmem
  | closeChan =>
    rcases World.closeChan_cases hstep with ⟨w, rest, hmu, rfl⟩
    obtain ⟨hclosed, hnodup, hopens⟩ := h.closing _ hmu
    obtain ⟨hw, hnodup⟩ := List.nodup_cons.mp hnodup
    have hrest : Base { s with mu := .closing rest } := by
      refine { h with watched := ?_, closing := ?_, reading := ?_ }
      · intro serviceType v hv
        obtain ⟨b, hstatus, hdone⟩ := h.watched serviceType v hv
        refine ⟨b, hstatus, fun hb => ⟨rest, rfl, ?_⟩⟩
        obtain ⟨all, hall, hmem⟩ := hdone hb
        rw [hmu] at hall
        cases hall
        exact fun hv' => hmem (List.mem_cons_of_mem w hv')
      · intro rest' hrest'
        cases hrest'
        exact ⟨hclosed, hnodup, fun v hv => hopens v (List.mem_cons_of_mem w hv)⟩
      · intro _
        refine h.reading ?_
        rw [hmu]
        exact fun hfree => by cases hfree
    refine hrest.close (hopens w List.mem_cons_self) (fun _ _ => ⟨rest, rfl⟩) fun rest' hrest' => ?_
    cases hrest'
    exact hw
  | closeEnd =>
    simp only [World.stepAlive] at hstep
    split at hstep
    · next hmu =>
      cases hstep
      obtain ⟨hclosed, -, -⟩ := h.closing _ hmu
      refine ⟨h.length, fun _ _ hw => ?_, fun _ => List.nodup_nil, fun hopen => ?_,
        fun _ hrest => ?_, fun hbusy => absurd rfl hbusy, h.closes, h.panicked⟩
      · cases hw
      · exact absurd (hclosed.symm.trans hopen) Bool.noConfusion
      · cases hrest
    · cases hstep
  | receive w =>
    simp only [World.stepAlive, Option.some.injEq] at hstep
    subst hstep
    exact h.frame (sameChans_receive _ _) rfl rfl h.reading rfl h.panicked

theorem next (h : Base s) {l : Label} (hstep : World.next s l = some s') : Base s' := by
  unfold World.next at hstep
  split_ifs at hstep
  exact h.stepAlive hstep

end Base

/-! ## What holds while nobody is overtaken -/

/-- Everybody who has still something to send will find the channel open. -/
structure Good (s : World) : Prop where
  panicked : s.panicked = none
  notifiers : ∀ n ∈ s.notifiers, ∀ w ∈ n.rest, IsOpen s.store w
  snapshots : ∀ (w : ℕ) (x : Watcher), s.watchers[w]? = some x → x.snapshot = .ended ∨
    IsOpen s.store w ∨ (x.snapshot = .sleeping ∧ s.store.closed = true)

namespace Good

variable {s s' : World}

theorem init : Good {} where
  panicked := rfl
  notifiers := by intro _ hn; cases hn
  snapshots := by intro _ _ hx; cases hx

/-- The store changes and no channel is closed. -/
theorem mono (h : Good s) {m' : MemoryStore} {mu : Mu}
    (hopen : ∀ w, IsOpen s.store w → IsOpen m' w)
    (hclosed : s.store.closed = true → m'.closed = true) : Good { s with store := m', mu := mu } where
  panicked := h.panicked
  notifiers := fun n hn w hw => hopen w (h.notifiers n hn w hw)
  snapshots := by
    intro w x hx
    rcases h.snapshots w x hx with hended | hw | ⟨hsleeping, hc⟩
    · exact .inl hended
    · exact .inr (.inl (hopen w hw))
    · exact .inr (.inr ⟨hsleeping, hclosed hc⟩)

theorem setWatcher (h : Good s) {w : ℕ} {y : Watcher}
    (hy : y.snapshot = .ended ∨ IsOpen s.store w ∨ (y.snapshot = .sleeping ∧ s.store.closed = true)) :
    Good (s.setWatcher w y) where
  panicked := h.panicked
  notifiers := h.notifiers
  snapshots := by
    intro v x hx
    change (s.watchers.set w y)[v]? = some x at hx
    by_cases hv : w = v
    · subst hv
      rw [List.getElem?_set_self'] at hx
      obtain ⟨z, -, hz⟩ := Option.map_eq_some_iff.mp hx
      subst hz
      exact hy
    · rw [List.getElem?_set_ne hv] at hx
      exact h.snapshots v x hx

theorem send (h : Good s) {w : ℕ} (hw : IsOpen s.store w) (ev : NodeEvent) :
    Good (s.send w ev) := by
  obtain ⟨m', heq, hsame⟩ := World.send_of_open hw ev
  rw [heq]
  exact h.mono (fun v hv => hsame.isOpen.mpr hv) fun hc => hsame.closed.trans hc

/-- Closing an open channel. -/
theorem close_iff (h : Good s) {w : ℕ} (hopen : IsOpen s.store w)
    (hreading : ∀ (x : Watcher) (rest : List NodeInfo), s.watchers[w]? = some x →
      x.snapshot ≠ .sending rest) :
    Good (s.close w) ↔ (∀ n ∈ s.notifiers, w ∉ n.rest) ∧
      (s.store.closed = false → ∀ x, s.watchers[w]? = some x → x.snapshot ≠ .sleeping) := by
  have hother : ∀ v : ℕ, IsOpen (s.store.closeChan w) v ↔ IsOpen s.store v ∧ v ≠ w := by
    intro v
    rw [isOpen_iff, isOpen_iff, status_closeChan]
    by_cases hv : v = w
    · rw [if_pos hv]
      refine iff_of_false ?_ fun hboth => hboth.2 hv
      rintro ⟨serviceType, hmap⟩
      obtain ⟨p, -, hp⟩ := Option.map_eq_some_iff.mp hmap
      exact Bool.true_eq_false.mp (Prod.mk.inj hp).2
    · rw [if_neg hv]
      exact (and_iff_left hv).symm
  have hclosed : (s.store.closeChan w).closed = s.store.closed := by
    unfold MemoryStore.closeChan
    split
    · rfl
    · rfl
  rw [World.close_of_open hopen]
  constructor
  · intro hgood
    refine ⟨fun n hn hw => ((hother w).mp (hgood.notifiers n hn w hw)).2 rfl, fun hc x hx hsleeping => ?_⟩
    rcases hgood.snapshots w x hx with hended | hw | ⟨-, hc'⟩
    · rw [hsleeping] at hended
      cases hended
    · exact ((hother w).mp hw).2 rfl
    · change (s.store.closeChan w).closed = true at hc'
      rw [hclosed, hc] at hc'
      cases hc'
  · rintro ⟨hnotifiers, hsleeping⟩
    refine ⟨h.panicked, fun n hn v hv => (hother v).mpr ⟨h.notifiers n hn v hv, ?_⟩, fun v x hx => ?_⟩
    · rintro rfl
      exact hnotifiers n hn hv
    · by_cases hvw : v = w
      · -- the channel that is closed: its snapshot has ended, or will see that the store is closed
        subst hvw
        cases hsnapshot : x.snapshot with
        | ended => exact .inl rfl
        | sending rest => exact absurd hsnapshot (hreading x rest hx)
        | sleeping =>
          cases hc : s.store.closed with
          | false => exact absurd hsnapshot (hsleeping hc x hx)
          | true => exact .inr (.inr ⟨rfl, hclosed.trans hc⟩)
      · rcases h.snapshots v x hx with hended | hv | ⟨hsleep, hc⟩
        · exact .inl hended
        · exact .inr (.inl ((hother v).mpr ⟨hv, hvw⟩))
        · exact .inr (.inr ⟨hsleep, hclosed.trans hc⟩)

/-- A step that closes nothing. -/
theorem of_closing_none (h : Good s) (hbase : Base s) {l : Label} (hnone : s.closing l = none)
    (hstep : s.stepAlive l = some s') : Good s' := by
  cases l with
  | register node now =>
    simp only [World.stepAlive] at hstep
    split_ifs at hstep with hlock
    cases hstep
    obtain ⟨hfree, -⟩ := World.canLock_iff.mp hlock
    refine ⟨h.panicked, fun n hn w hw => ?_, h.snapshots⟩
    rcases List.mem_append.mp hn with hn | hn
    · exact h.notifiers n hn w hw
    · rw [List.mem_singleton.mp hn] at hw
      exact hbase.isOpen hfree hw
  | notify k =>
    rcases World.notify_cases hstep with ⟨ev, w, rest, hk, rfl⟩
    have hmem := List.mem_of_getElem? hk
    refine Good.send (s := { s with notifiers := s.notifiers.set k { ev := ev, rest := rest } }) ?_
      (h.notifiers _ hmem w List.mem_cons_self) ev
    refine ⟨h.panicked, fun n hn v hv => ?_, h.snapshots⟩
    rcases List.mem_or_eq_of_mem_set hn with hn | rfl
    · exact h.notifiers n hn v hv
    · exact h.notifiers _ hmem v (List.mem_cons_of_mem w hv)
  | heartbeat nodeID now =>
    simp only [World.stepAlive] at hstep
    split_ifs at hstep
    cases hstep
    have hsame := sameChans_beat s.store nodeID now
    exact h.mono (fun w hw => hsame.isOpen.mpr hw) fun hc => hsame.closed.trans hc
  | sweepExpired now order =>
    simp only [World.stepAlive] at hstep
    split_ifs at hstep
    · cases hstep
      exact h
    · cases hstep
      exact h.mono (fun _ hw => hw) id
  | subscribe serviceType sendSnapshot =>
    simp only [World.stepAlive] at hstep
    split_ifs at hstep
    cases hstep
    unfold World.subscribe
    by_cases hclosed : s.store.closed = true
    · rw [if_pos hclosed]
      exact h
    · rw [if_neg hclosed]
      have hopen : ∀ w, IsOpen s.store w → IsOpen (s.store.addWatch serviceType) w := by
        intro w hw
        obtain ⟨service, hstatus⟩ := isOpen_iff.mp hw
        exact isOpen_iff.mpr ⟨service, (status_addWatch_of_lt (lt_of_status hstatus)).trans hstatus⟩
      have hmono : Good { s with store := s.store.addWatch serviceType } := h.mono hopen id
      refine ⟨h.panicked, hmono.notifiers, fun w x hx => ?_⟩
      change (s.watchers ++ [_])[w]? = some x at hx
      by_cases hw : w < s.watchers.length
      · rw [List.getElem?_append_left hw] at hx
        exact hmono.snapshots w x hx
      · have hlt := (List.getElem?_eq_some_iff.mp hx).1
        rw [List.length_append, List.length_singleton] at hlt
        have heq : w = s.store.chans.length := by
          rw [← hbase.length]
          omega
        subst heq
        exact .inr (.inl (isOpen_iff.mpr ⟨serviceType, status_addWatch_self s.store serviceType⟩))
  | snapshotStart w order =>
    rcases World.snapshotStart_cases hstep with ⟨x, c, hx, -, -, hsleeping, -, rfl⟩
    refine h.setWatcher ?_
    rcases h.snapshots w x hx with hended | hw | ⟨-, hclosed⟩
    · rw [hsleeping] at hended
      cases hended
    · exact .inr (.inl hw)
    · exact .inl (if_pos hclosed)
  | snapshotSend w =>
    rcases World.snapshotSend_cases hstep with ⟨x, node, rest, hx, hsending, rfl⟩
    have hw : IsOpen s.store w := by
      rcases h.snapshots w x hx with hended | hw | ⟨hsleeping, -⟩
      · rw [hsending] at hended
        cases hended
      · exact hw
      · rw [hsending] at hsleeping
        cases hsleeping
    exact (h.setWatcher (y := { x with snapshot := .sending rest }) (.inr (.inl hw))).send hw _
  | snapshotEnd w =>
    rcases World.snapshotEnd_cases hstep with ⟨x, -, -, rfl⟩
    exact h.setWatcher (.inl rfl)
  | cancel w =>
    rcases World.cancel_cases hstep with ⟨x, hx, rfl⟩
    exact h.setWatcher (h.snapshots w x hx)
  | cleanup w =>
    rcases World.cleanup_cases hstep with ⟨x, serviceType, _, hx, -, -, -, -, rfl⟩
    simp only [World.closing] at hnone
    split_ifs at hnone with hclosed
    unfold World.cleanup
    rw [if_pos hclosed]
    exact h.setWatcher (h.snapshots w x hx)
  | closeStart order =>
    simp only [World.stepAlive] at hstep
    split_ifs at hstep
    cases hstep
    unfold World.closeStart
    split_ifs
    · exact h
    · exact h.mono (fun _ hw => hw) fun _ => rfl
  | closeChan =>
    rcases World.closeChan_cases hstep with ⟨w, rest, hmu, rfl⟩
    simp only [World.closing, hmu] at hnone
    cases hnone
  | closeEnd =>
    simp only [World.stepAlive] at hstep
    split at hstep
    · cases hstep
      exact h.mono (fun _ hw => hw) id
    · cases hstep
  | receive w =>
    simp only [World.stepAlive, Option.some.injEq] at hstep
    subst hstep
    have hsame := sameChans_receive s.store w
    exact h.mono (fun v hv => hsame.isOpen.mpr hv) fun hc => hsame.closed.trans hc

/-- A step keeps all this if and only if it overtakes nobody. -/
theorem step_iff (h : Good s) (hbase : Base s) {l : Label} (hstep : s.stepAlive l = some s') :
    Good s' ↔ s.Ok l := by
  cases hclosing : s.closing l with
  | none =>
    refine iff_of_true (h.of_closing_none hbase hclosing hstep) fun w hw => ?_
    rw [hclosing] at hw
    cases hw
  | some w =>
    have hok : s.Ok l ↔ (∀ n ∈ s.notifiers, w ∉ n.rest) ∧
        (s.store.closed = false → ∀ x, s.watchers[w]? = some x → x.snapshot ≠ .sleeping) := by
      constructor
      · intro hok
        exact hok w hclosing
      · intro hok v hv
        rw [hclosing] at hv
        cases hv
        exact hok
    rw [hok]
    cases l with
    | cleanup v =>
      simp only [World.closing] at hclosing
      split_ifs at hclosing with hopen
      cases hclosing
      have hclosed : s.store.closed = false := by simpa using hopen
      rcases World.cleanup_cases hstep with ⟨x, serviceType, b, hx, hstatus, hlock, -, hclean, rfl⟩
      rcases World.canLock_iff.mp hlock with ⟨hfree, hreading⟩
      have hmem := hbase.listed hclosed w serviceType b x hstatus hx hclean
      have hself : (s.setWatcher w { x with cleaned := true }).watchers[w]? =
          some { x with cleaned := true } :=
        List.getElem?_set_self (List.getElem?_eq_some_iff.mp hx).1
      have hunlisted : Good { s.setWatcher w { x with cleaned := true } with
          store := s.store.unlist w serviceType } :=
        (h.setWatcher (y := { x with cleaned := true }) (h.snapshots w x hx)).mono
          (fun _ hv => hv) id
      unfold World.cleanup
      rw [if_neg hopen, hunlisted.close_iff (hbase.isOpen hfree hmem) ?_]
      · refine and_congr_right' (imp_congr_right fun _ => ?_)
        change (∀ y, (s.setWatcher w { x with cleaned := true }).watchers[w]? = some y → _) ↔ _
        rw [hself, hx]
        simp
      · intro y rest hy hsending
        change (s.setWatcher w { x with cleaned := true }).watchers[w]? = some y at hy
        rw [hself] at hy
        cases hy
        exact hreading w x rest hx hsending
    | closeChan =>
      rcases World.closeChan_cases hstep with ⟨v, rest, hmu, rfl⟩
      simp only [World.closing, hmu, Option.some.injEq] at hclosing
      subst hclosing
      obtain ⟨-, -, hopens⟩ := hbase.closing _ hmu
      have hrest : Good { s with mu := .closing rest } := h.mono (fun _ hw => hw) id
      refine hrest.close_iff (hopens v List.mem_cons_self) fun x later hx => ?_
      refine hbase.reading ?_ v x later hx
      rw [hmu]
      exact fun hfree => by cases hfree
    | _ => cases hclosing

theorem next_iff (h : Good s) (hbase : Base s) {l : Label} (hstep : World.next s l = some s') :
    Good s' ↔ s.Ok l := by
  unfold World.next at hstep
  rw [if_pos h.panicked] at hstep
  exact h.step_iff hbase hstep

end Good

/-! ## Who is overtaken will send on a closed channel -/

section Overtaken

variable {s t : World}

/-- A step that does not close a channel. -/
def Quiet (l : Label) : Prop := ∀ w, l ≠ .cleanup w ∧ l ≠ .closeChan

/-- Some way to go on without closing a channel ends in a send on a closed one. -/
def Doomed (s : World) : Prop :=
  ∃ ls t, (∀ l ∈ ls, Quiet l) ∧ run World.next s ls = some t ∧ t.panicked ≠ none

theorem Doomed.step {l : Label} (hl : Quiet l) (hstep : World.next s l = some t) (ht : Doomed t) :
    Doomed s := by
  obtain ⟨ls, u, hquiet, hrun, hpanic⟩ := ht
  refine ⟨l :: ls, u, fun l' hl' => ?_, run_cons_eq_some.mpr ⟨t, hstep, hrun⟩, hpanic⟩
  rcases List.mem_cons.mp hl' with rfl | hl'
  · exact hl
  · exact hquiet l' hl'

theorem Doomed.of_panicked (h : s.panicked ≠ none) : Doomed s :=
  ⟨[], s, fun _ hl => absurd hl List.not_mem_nil, rfl, h⟩

/-- A `Register` that has a closed channel before it. -/
theorem doomed_of_notifier {k w : ℕ} {ev : NodeEvent} {rest : List ℕ} {serviceType : String}
    (halive : s.panicked = none) (hk : s.notifiers[k]? = some { ev, rest }) (hw : w ∈ rest)
    (hclosed : status s.store w = some (serviceType, true)) : Doomed s := by
  induction rest generalizing s with
  | nil => cases hw
  | cons v rest ih =>
    obtain ⟨m', p, hsend, hsame, hp⟩ :=
      World.send_frame { s with notifiers := s.notifiers.set k { ev, rest } } v ev
    have hstep : World.next s (.notify k) = some
        { s with notifiers := s.notifiers.set k { ev, rest }, store := m', panicked := p } := by
      unfold World.next World.stepAlive
      rw [if_pos halive]
      simp only [hk]
      rw [hsend]
    refine Doomed.step (fun _ => by simp) hstep ?_
    by_cases hpanic : p = none
    · -- it has not come to a closed one yet
      subst hpanic
      have hvw : w ∈ rest := by
        rcases List.mem_cons.mp hw with rfl | hrest
        · have hpanic := World.send_of_closed
            (s := { s with notifiers := s.notifiers.set k { ev, rest } }) hclosed ev
          rw [hsend] at hpanic
          cases congrArg World.panicked hpanic
        · exact hrest
      refine ih rfl ?_ hvw ((hsame.status w).trans hclosed)
      exact List.getElem?_set_self (List.getElem?_eq_some_iff.mp hk).1
    · exact .of_panicked hpanic

/-- A snapshot that is being sent to a closed channel. -/
theorem doomed_of_sending {w : ℕ} {x : Watcher} {node : NodeInfo} {rest : List NodeInfo}
    {serviceType : String} (halive : s.panicked = none) (hx : s.watchers[w]? = some x)
    (hsending : x.snapshot = .sending (node :: rest))
    (hclosed : status s.store w = some (serviceType, true)) : Doomed s := by
  have hsend : World.next s (.snapshotSend w) = some
      ((s.setWatcher w { x with snapshot := .sending rest }).send w { type := .join, node }) := by
    rw [World.next, if_pos halive]
    simp only [World.stepAlive, hx, hsending]
  refine Doomed.step (fun _ => by simp) hsend (.of_panicked ?_)
  rw [World.send_of_closed (s := s.setWatcher w _) hclosed]
  exact fun hnone => by cases hnone

/-- A snapshot that can start, on a closed channel of an open store. -/
theorem doomed_of_starting {w : ℕ} {x : Watcher} {c : Chan} {node : NodeInfo}
    (halive : s.panicked = none) (hfree : s.mu = .free) (hx : s.watchers[w]? = some x)
    (hsleeping : x.snapshot = .sleeping) (hc : s.store.chans[w]? = some c) (hclosed : c.closed = true)
    (hopen : s.store.closed = false) (hnode : node ∈ s.store.nodesOf c.serviceType) : Doomed s := by
  obtain ⟨first, rest, hnodes⟩ := List.exists_cons_of_ne_nil (List.ne_nil_of_mem hnode)
  have hstart : World.next s (.snapshotStart w (first :: rest)) =
      some (s.setWatcher w { x with snapshot := .sending (first :: rest) }) := by
    rw [World.next, if_pos halive]
    simp only [World.stepAlive, hx, hc]
    rw [if_pos ⟨decide_eq_true hfree, hsleeping, by rw [hnodes]⟩, World.snapshotStart, hopen]
    rfl
  refine Doomed.step (fun _ => by simp) hstart ?_
  have hclosed' : status s.store w = some (c.serviceType, true) := by
    rw [status, hc, Option.map_some, Chan.status, hclosed]
  exact doomed_of_sending halive (List.getElem?_set_self (List.getElem?_eq_some_iff.mp hx).1) rfl hclosed'

/-- A snapshot that is still to start: a node of the service registers first, so that there
is something to send. -/
theorem doomed_of_sleeping {w : ℕ} {x : Watcher} {c : Chan} (halive : s.panicked = none)
    (hlock : s.canLock = true) (hx : s.watchers[w]? = some x) (hsleeping : x.snapshot = .sleeping)
    (hc : s.store.chans[w]? = some c) (hclosed : c.closed = true) (hopen : s.store.closed = false) :
    Doomed s := by
  have hregister : World.next s (.register { serviceType := c.serviceType, nodeId := "" } 0) =
      some (s.register { serviceType := c.serviceType, nodeId := "" } 0) := by
    rw [World.next, if_pos halive]
    exact if_pos hlock
  refine Doomed.step (fun _ => by simp) hregister ?_
  have hnode : ({ serviceType := c.serviceType, nodeId := "" } : NodeInfo) ∈
      (s.register { serviceType := c.serviceType, nodeId := "" } 0).store.nodesOf c.serviceType := by
    refine List.mem_filter.mpr
      ⟨List.mem_map.mpr ⟨("", _), Assoc.mem_of_lookup ?_, rfl⟩, decide_eq_true rfl⟩
    change (s.store.nodes.assign "" _).lookup "" = _
    rw [Assoc.lookup_assign, if_pos rfl]
  exact doomed_of_starting halive (World.canLock_iff.mp hlock).1 hx hsleeping hc hclosed hopen hnode

/-- What a step leaves that closes a channel. -/
theorem closed_of_closing (hbase : Base s) (halive : s.panicked = none) {l : Label} {w : ℕ}
    (hclosing : s.closing l = some w) (hstep : s.stepAlive l = some t) :
    t.panicked = none ∧ t.notifiers = s.notifiers ∧
      (∃ c, t.store.chans[w]? = some c ∧ c.closed = true) ∧
      (s.store.closed = false → t.store.closed = false ∧ t.canLock = true ∧
        ∀ x, s.watchers[w]? = some x → t.watchers[w]? = some { x with cleaned := true }) := by
  have hclosed : ∀ m : MemoryStore, IsOpen m w →
      ∃ c, (m.closeChan w).chans[w]? = some c ∧ c.closed = true := by
    rintro m ⟨c, hc, -⟩
    unfold MemoryStore.closeChan
    simp only [hc]
    exact ⟨_, List.getElem?_set_self (List.getElem?_eq_some_iff.mp hc).1, rfl⟩
  have hsame : ∀ m : MemoryStore, (m.closeChan w).closed = m.closed := by
    intro m
    unfold MemoryStore.closeChan
    split
    · rfl
    · rfl
  cases l with
  | cleanup v =>
    simp only [World.closing] at hclosing
    split_ifs at hclosing with hopen
    cases hclosing
    rcases World.cleanup_cases hstep with ⟨x, serviceType, b, hx, hstatus, hlock, -, hclean, rfl⟩
    rcases World.canLock_iff.mp hlock with ⟨hfree, hreading⟩
    have hmem := hbase.listed (by simpa using hopen) w serviceType b x hstatus hx hclean
    have hisOpen : IsOpen (s.store.unlist w serviceType) w := hbase.isOpen hfree hmem
    have hself : (s.watchers.set w { x with cleaned := true })[w]? =
        some { x with cleaned := true } :=
      List.getElem?_set_self (List.getElem?_eq_some_iff.mp hx).1
    unfold World.cleanup
    rw [if_neg hopen, World.close_of_open
      (s := { s.setWatcher w { x with cleaned := true } with
        store := s.store.unlist w serviceType }) hisOpen]
    refine ⟨halive, rfl, hclosed _ hisOpen, fun hstore => ⟨(hsame _).trans hstore, ?_, ?_⟩⟩
    · refine World.canLock_iff.mpr ⟨hfree, fun v y rest hy hsending => ?_⟩
      change (s.watchers.set w _)[v]? = some y at hy
      by_cases hv : w = v
      · subst hv
        rw [hself] at hy
        cases hy
        exact hreading w x rest hx hsending
      · rw [List.getElem?_set_ne hv] at hy
        exact hreading v y rest hy hsending
    · intro y hy
      rw [hx] at hy
      cases hy
      exact hself
  | closeChan =>
    rcases World.closeChan_cases hstep with ⟨v, rest, hmu, rfl⟩
    simp only [World.closing, hmu, Option.some.injEq] at hclosing
    subst hclosing
    obtain ⟨hstore, -, hopens⟩ := hbase.closing _ hmu
    have hisOpen : IsOpen s.store v := hopens v List.mem_cons_self
    rw [World.close_of_open (s := { s with mu := .closing rest }) hisOpen]
    refine ⟨halive, rfl, hclosed _ hisOpen, fun hstore' => ?_⟩
    rw [hstore] at hstore'
    cases hstore'
  | _ => cases hclosing

/-- Whoever is overtaken will send on a closed channel. -/
theorem doomed_of_not_ok (hbase : Base s) (halive : s.panicked = none) {l : Label}
    (hstep : World.next s l = some t) (hbad : ¬s.Ok l) : Doomed t := by
  unfold World.Ok at hbad
  push Not at hbad
  obtain ⟨w, hclosing, hbad⟩ := hbad
  rw [World.next, if_pos halive] at hstep
  obtain ⟨halive', hnotifiers, ⟨c, hc, hclosed⟩, hopen⟩ :=
    closed_of_closing hbase halive hclosing hstep
  have hstatus : status t.store w = some (c.serviceType, true) := by
    rw [status, hc, Option.map_some, Chan.status, hclosed]
  by_cases hpending : ∃ n ∈ s.notifiers, w ∈ n.rest
  · obtain ⟨n, hn, hw⟩ := hpending
    obtain ⟨k, hk⟩ := List.mem_iff_getElem?.mp hn
    rw [← hnotifiers] at hk
    exact doomed_of_notifier halive' hk hw hstatus
  · push Not at hpending
    obtain ⟨hstore, x, hx, hsleeping⟩ := hbad hpending
    obtain ⟨hstore', hlock, hwatcher⟩ := hopen hstore
    exact doomed_of_sleeping halive' hlock (hwatcher x hx) hsleeping hc hclosed hstore'

end Overtaken

/-! ## Every run -/

theorem Base.of_run {s : World} {ls : List Label} (hrun : run World.next {} ls = some s) : Base s :=
  run_invariant_all (fun _ _ _ h hstep => h.next hstep) .init hrun

/-- Closing nothing more, what is good stays good. -/
theorem Good.run {s t : World} {ls : List Label} (hbase : Base s) (hgood : Good s)
    (hquiet : ∀ l ∈ ls, Quiet l) (hrun : Lib.run World.next s ls = some t) : Good t := by
  refine (run_invariant (I := fun s => Base s ∧ Good s) (P := fun _ l => Quiet l)
    (fun s l s' hl h hstep => ⟨h.1.next hstep, (h.2.next_iff h.1 hstep).mpr fun w hw => ?_⟩)
    ⟨hbase, hgood⟩ (runOk_of_forall hquiet) hrun).2
  cases l with
  | cleanup v => exact absurd rfl (hl v).1
  | closeChan => exact absurd rfl (hl 0).2
  | _ => cases hw

/-- No channel is closed twice, whatever the schedule. -/
theorem never_closed_twice {s : World} {ls : List Label} (hrun : run World.next {} ls = some s) :
    s.closes.Nodup ∧ ∀ w, s.panicked ≠ some (.closeOfClosed w) :=
  ⟨(Base.of_run hrun).closes.1, (Base.of_run hrun).panicked⟩

/-- A watcher that is removed once, as its stream ends. -/
theorem never_closed_twice_cancelled :
    ∃ s, run World.next {} [.subscribe "gateway" false, .cancel 0, .cleanup 0] = some s ∧
      s.closes = [0] ∧ s.closes.Nodup ∧ ∀ w, s.panicked ≠ some (.closeOfClosed w) :=
  ⟨_, rfl, rfl, @never_closed_twice _
    [.subscribe "gateway" false, .cancel 0, .cleanup 0] rfl⟩

/-- **Watch channels.** Along a run every channel is closed at most once and nobody is ever
bound to send on a closed one, if and only if no step closes a channel that a `Register`
has still to tell, or, the store being open, that has its snapshot still to come. -/
theorem closed_safely_exact {ls : List Label} {s : World} (hrun : run World.next {} ls = some s) :
    RunOk World.next World.Ok {} ls ↔
      ∀ ms t, ms <+: ls → run World.next {} ms = some t → t.Safe := by
  have hstep : ∀ s l s', Base s ∧ Good s → World.next s l = some s' →
      (Base s' ∧ Good s' ↔ s.Ok l) := by
    intro s l s' h hs'
    rw [← h.2.next_iff h.1 hs']
    exact and_iff_right (h.1.next hs')
  rw [runOk_iff_of_run hstep ⟨.init, .init⟩ hrun]
  constructor
  · intro hgood ms t hms ht
    obtain ⟨hbase, hgood⟩ := hgood ms t hms ht
    refine ⟨hbase.closes.1, fun ls' u hquiet hu => ?_⟩
    exact (Good.run hbase hgood hquiet hu).panicked
  · intro hsafe ms
    -- the first step that overtakes somebody leads to a panic
    induction ms using List.reverseRecOn with
    | nil =>
      intro t _ ht
      cases ht
      exact ⟨.init, .init⟩
    | append_singleton ms l ih =>
      intro t hms ht
      obtain ⟨u, hu, hlast⟩ := run_concat_eq_some.mp ht
      obtain ⟨hbase, hgood⟩ := ih u ((List.prefix_append ms [l]).trans hms) hu
      refine (hstep u l t ⟨hbase, hgood⟩ hlast).mpr ?_
      by_contra hbad
      obtain ⟨ls', v, hquiet, hv, hpanic⟩ := doomed_of_not_ok hbase hgood.panicked hlast hbad
      exact hpanic ((hsafe (ms ++ [l]) t hms ht).2 ls' v hquiet hv)

/-- A watcher that goes away while nobody is sending to it. -/
def quietRun : List Label :=
  [.subscribe "gateway" false, .register { serviceType := "gateway", nodeId := "gw-1" } 0,
    .notify 0, .cancel 0, .cleanup 0]

theorem closed_safely_exact_quiet : ∃ s, run World.next {} quietRun = some s ∧ s.Safe := by
  obtain ⟨s, hrun⟩ : ∃ s, run World.next {} quietRun = some s := ⟨_, rfl⟩
  have hok : RunOk World.next World.Ok {} quietRun := by decide
  exact ⟨s, hrun, (closed_safely_exact hrun).mp hok quietRun s (List.prefix_refl _) hrun⟩

/-- A watcher that goes away between `Unlock` and the send of a `Register`. -/
def overtakenRun : List Label :=
  [.subscribe "gateway" false, .register { serviceType := "gateway", nodeId := "gw-1" } 0,
    .cancel 0, .cleanup 0, .notify 0]

/-- The send is on a closed channel. -/
theorem overtaken_panics : ∃ s, run World.next {} overtakenRun = some s ∧
    s.panicked = some (.sendOnClosed 0) := ⟨_, rfl, rfl⟩

end Watch

end Gmaker.Registry
