import Gmaker.Matching.MmrIndex
import Gmaker.Matching.Seats

/-!
# Gmaker.Matching.OnePlace — each ticket in one place

A ticket is in the queue, on its way there, in a team, or on its way out, and in one of these
places only. The pool is a list of tickets here, filed by mode and MMR, and the places are told
by the states of the tickets in them: those on the way in are queuing, those in a team matching,
those on the way out idle. `Queued` says so, and the rules are what its steps are made of.
-/

namespace Gmaker.Matching

open Gmaker.Lib

/-! ## On the way in and out -/

/-- The ticket is put in the table and is to go to the pool. -/
def EnqueueCall.enters (uid : UInt64) (c : EnqueueCall) : ℕ :=
  match c.pc with
  | .pooling _ => if c.ticket.uid = uid then 1 else 0
  | _ => 0

/-- The ticket is idle and still in the table. -/
def DequeueCall.leaving (c : DequeueCall) : Bool :=
  match c.pc with
  | .removing _ | .deleting => true
  | _ => false

/-- The ticket that was looked up. -/
def DequeueCall.seen (c : DequeueCall) : Option Ptr :=
  match c.pc with
  | .idling p => some p
  | _ => none

def DequeueCall.leaves (uid : UInt64) (c : DequeueCall) : ℕ :=
  if c.uid = uid ∧ c.leaving = true then 1 else 0

/-- The tickets of the tick loop that are not in the pool any more, or are just being removed. -/
def TickLoop.inHand : TickLoop → List Ptr
  | .marking c _ marked _ _ => c.tickets.take marked
  | .releasing todo _ _ _ => todo
  | _ => []

/-- The ticket that is marked and is to leave the pool. -/
def TickLoop.removing : TickLoop → Option Ptr
  | .marking _ _ _ removing _ => removing
  | _ => none

/-- The players that a rollback is to put back. -/
def SettlementLoop.requeued : SettlementLoop → List UInt64
  | .requeuing todo _ => todo
  | _ => []

/-- How often a player is on the way to the pool. -/
def State.entering (s : State) (uid : UInt64) : ℕ :=
  (s.enqueues.map (EnqueueCall.enters uid)).sum +
    (s.tickLoop.unseated.map fun p => (s.heap p).uid).count uid +
      s.settlementLoop.requeued.count uid

/-- How often a player is on the way out. -/
def State.leaving (s : State) (uid : UInt64) : ℕ := (s.dequeues.map (DequeueCall.leaves uid)).sum

/-! ## Each ticket in one place -/

/-- The pool holds the tickets of `queued`, and no ticket is in two places. -/
structure Queued (s : State) (queued : List Ptr) : Prop where
  filed : BucketPool.Holds s.heap s.pool queued
  nodup : queued.Nodup
  current : ∀ p ∈ queued, s.mem.getTicket (s.heap p).uid = some p
  queuing : ∀ p ∈ queued, (s.heap p).state = .queuing ∨ s.tickLoop.removing = some p ∨
    0 < s.leaving (s.heap p).uid
  enters_once : ∀ uid, s.entering uid ≤ 1
  entering : ∀ uid, 0 < s.entering uid →
    s.ticketState uid = some .queuing ∧ ∀ p ∈ queued, (s.heap p).uid ≠ uid
  leaves_once : ∀ uid, s.leaving uid ≤ 1
  leaving : ∀ uid, 0 < s.leaving uid → s.ticketState uid = some .idle
  pooling : ∀ (i : ℕ) (c : EnqueueCall) (p : Ptr), s.enqueues[i]? = some c →
    c.pc = .pooling p → s.mem.getTicket c.ticket.uid = some p
  idling : ∀ (i : ℕ) (c : DequeueCall) (p : Ptr), s.dequeues[i]? = some c →
    c.pc = .idling p ∨ c.pc = .removing p → p < s.fresh ∧ (s.heap p).uid = c.uid
  removing : ∀ (i : ℕ) (c : DequeueCall) (p : Ptr), s.dequeues[i]? = some c →
    c.pc = .removing p → ∃ q ∈ queued, (s.heap q).uid = c.uid ∧ (s.heap q).slot = (s.heap p).slot
  deleting : ∀ (i : ℕ) (c : DequeueCall), s.dequeues[i]? = some c → c.pc = .deleting →
    ∀ p ∈ queued, (s.heap p).uid ≠ c.uid
  inHand : ∀ p ∈ s.tickLoop.inHand, s.mem.getTicket (s.heap p).uid = some p
  given : ∀ todo stage rest, s.tickLoop = .releasing todo stage false rest → todo = []
  taken : ∀ p, s.tickLoop.removing = some p → p ∈ s.tickLoop.inHand
  found : ∀ todo p, s.settlementLoop = .requeuing todo (some p) →
    ∃ uid ∈ todo.head?, s.mem.getTicket uid = some p
  gone : ∀ uid ∈ s.cancelled, s.mem.getTicket uid = none
  matchedAfter : s.matchedAfter = []
  unroomed : ∀ uid, s.ticketState uid ≠ some .roomed

namespace BucketPool

variable {h h' : Heap} {pool : BucketPool} {queued : List Ptr} {p q : Ptr}

/-- Where the tickets are filed stays. -/
theorem Holds.congr (hf : Holds h pool queued) (hslot : ∀ p ∈ queued, (h' p).slot = (h p).slot) :
    Holds h' pool queued := by
  intro k
  refine (hf k).trans (.of_eq (List.filter_congr fun p hp => ?_))
  simp only [hslot p hp]

/-- A removal goes by the place and the player. -/
theorem dequeue_congr (pool : BucketPool) (huid : (h p).uid = (h q).uid)
    (hslot : (h p).slot = (h q).slot) : pool.dequeue h p = pool.dequeue h q := by
  unfold dequeue
  rw [huid, hslot]
  rw [Ticket.slot, Ticket.slot, Prod.mk.injEq] at hslot
  rw [hslot.1, hslot.2]

end BucketPool

/-! ## Rules -/

section Steps

variable {S : SortSlice} {room : Match → Option UInt64} {s t : State} {e : Event} {uid : UInt64}
  {queued : List Ptr} {p q : Ptr} {i : ℕ}

theorem queued_init (redis : Option Redis) : Queued { redis } [] where
  filed := filedBy_nil
  nodup := .nil
  current := fun p hp => by cases hp
  queuing := fun p hp => by cases hp
  enters_once := fun _ => Nat.zero_le 1
  entering := fun _ hpos => absurd hpos (Nat.lt_irrefl 0)
  leaves_once := fun _ => Nat.zero_le 1
  leaving := fun _ hpos => absurd hpos (Nat.lt_irrefl 0)
  pooling := fun i c p hc => by cases hc
  idling := fun i c p hc => by cases hc
  removing := fun i c p hc => by cases hc
  deleting := fun i c hc => by cases hc
  inHand := fun p hp => by cases hp
  given := fun todo stage rest hloop => by cases hloop
  taken := fun p hp => by cases hp
  found := fun todo p hloop => by cases hloop
  gone := fun uid huid => by cases huid
  matchedAfter := rfl
  unroomed := fun uid hroomed => by cases hroomed

/-! ### Who is where -/

/-- Two tickets of one player in the queue are one. -/
theorem Queued.inj (h : Queued s queued) (hp : s.mem.getTicket (s.heap p).uid = some p)
    (hq : q ∈ queued) (huid : (s.heap q).uid = (s.heap p).uid) : q = p := by
  have hcurrent := h.current q hq
  rw [huid, hp] at hcurrent
  exact (Option.some.inj hcurrent).symm

theorem enters_of_pooling {c : EnqueueCall} (hc : s.enqueues[i]? = some c)
    (hpc : c.pc = .pooling p) : 0 < s.entering c.ticket.uid := by
  have hone : c.enters c.ticket.uid = 1 := by
    unfold EnqueueCall.enters
    rw [hpc]
    exact if_pos rfl
  have hmem : c.enters c.ticket.uid ∈ s.enqueues.map (EnqueueCall.enters c.ticket.uid) :=
    List.mem_map_of_mem (List.mem_of_getElem? hc)
  have hle := List.single_le_sum (by simp) _ hmem
  unfold State.entering
  omega

theorem enters_of_requeued {todo : List UInt64} {found : Option Ptr}
    (hloop : s.settlementLoop = .requeuing todo found) (huid : uid ∈ todo) :
    0 < s.entering uid := by
  have hcount := List.count_pos_iff.mpr huid
  unfold State.entering
  rw [hloop]
  change 0 < _ + _ + todo.count uid
  omega

theorem leaving_of_removing {c : DequeueCall} (hpc : c.pc = .removing p) : c.leaving = true := by
  unfold DequeueCall.leaving
  rw [hpc]

theorem leaving_of_deleting {c : DequeueCall} (hpc : c.pc = .deleting) : c.leaving = true := by
  unfold DequeueCall.leaving
  rw [hpc]

theorem pc_of_not_leaving {c : DequeueCall} (hc : c.leaving = false) :
    (∀ p, c.pc ≠ .removing p) ∧ c.pc ≠ .deleting := by
  constructor
  · intro p hpc
    rw [leaving_of_removing hpc] at hc
    cases hc
  · intro hpc
    rw [leaving_of_deleting hpc] at hc
    cases hc

theorem leaves_of_leaving {c : DequeueCall} (hc : s.dequeues[i]? = some c)
    (hpc : c.leaving = true) : 0 < s.leaving c.uid := by
  have hone : c.leaves c.uid = 1 := by
    unfold DequeueCall.leaves
    exact if_pos ⟨rfl, hpc⟩
  have hmem : c.leaves c.uid ∈ s.dequeues.map (DequeueCall.leaves c.uid) :=
    List.mem_map_of_mem (List.mem_of_getElem? hc)
  have hle := List.single_le_sum (by simp) _ hmem
  unfold State.leaving
  omega

/-- What is given back was marked. -/
theorem Queued.given_eq (h : Queued s queued) {todo : List Ptr} {stage : ReleaseStage}
    {given : Bool} {rest : List Candidate}
    (hloop : s.tickLoop = .releasing (p :: todo) stage given rest) : given = true := by
  cases given with
  | false => cases h.given _ _ _ hloop
  | true => rfl

/-- What the tick loop has in hand is of a player with a seat, or of one on the way back. -/
theorem Queued.of_inHand (h : Queued s queued) (hw : Wf s) (hp : p ∈ s.tickLoop.inHand) :
    (s.heap p).uid ∈ s.tickLoop.seated s.heap ∨ 0 < s.entering (s.heap p).uid := by
  have hwloop := hw.loop
  cases hloop : s.tickLoop with
  | marking c m marked removing rest =>
    rw [hloop] at hp hwloop
    refine .inl ?_
    change (s.heap p).uid ∈ m.allUIDs.take marked
    rw [hwloop.1.allUIDs, ← List.map_take]
    exact List.mem_map_of_mem hp
  | releasing todo stage given rest =>
    rw [hloop] at hp
    cases given with
    | false =>
      cases h.given todo stage rest hloop
      cases hp
    | true =>
      cases stage with
      | updateState => exact .inl (List.mem_map_of_mem hp)
      -- the first is on the way back, the others keep their seats
      | setQueuing | enqueue =>
        rcases todo with _ | ⟨first, todo⟩
        · cases hp
        · rcases List.mem_cons.mp hp with rfl | hrest
          · refine .inr ?_
            unfold State.entering
            rw [hloop]
            have hone : 0 < ([p].map fun p => (s.heap p).uid).count (s.heap p).uid := by simp
            change 0 < _ + ([p].map fun p => (s.heap p).uid).count (s.heap p).uid + _
            omega
          · exact .inl (List.mem_map_of_mem hrest)
  | _ =>
    rw [hloop] at hp
    cases hp

theorem seats_of_mem (hmem : uid ∈ s.tickLoop.seated s.heap) : 0 < s.seats uid := by
  have hcount := List.count_pos_iff.mpr hmem
  unfold State.seats
  omega

/-- A player with a ticket in hand is being matched, or on the way back. -/
theorem Queued.ticketState_inHand (h : Queued s queued) (hs : Seated s) (hw : Wf s)
    (hp : p ∈ s.tickLoop.inHand) : s.ticketState (s.heap p).uid = some .matching ∨
      s.ticketState (s.heap p).uid = some .queuing := by
  rcases h.of_inHand hw hp with hseat | henters
  · exact .inl (hs.matching _ (seats_of_mem hseat))
  · exact .inr (h.entering _ henters).1

theorem Queued.not_idle_inHand (h : Queued s queued) (hs : Seated s) (hw : Wf s)
    (hp : p ∈ s.tickLoop.inHand) : s.ticketState (s.heap p).uid ≠ some .idle := by
  intro hidle
  rcases h.ticketState_inHand hs hw hp with hmatching | hqueuing
  · cases hidle.symm.trans hmatching
  · cases hidle.symm.trans hqueuing

/-- Who is being matched, but for the ticket that is being removed, is not in the queue. -/
theorem Queued.not_queued_of_matching (h : Queued s queued)
    (hmatching : s.ticketState uid = some .matching)
    (hremoving : ∀ p, s.tickLoop.removing = some p → (s.heap p).uid ≠ uid) :
    ∀ p ∈ queued, (s.heap p).uid ≠ uid := by
  rintro p hp rfl
  have hstate := ticketState_of_getTicket (h.current p hp)
  rw [hmatching] at hstate
  rcases h.queuing p hp with hqueuing | htaken | hleaves
  · rw [hqueuing] at hstate
    cases hstate
  · exact hremoving p htaken rfl
  · rw [h.leaving _ hleaves] at hmatching
    cases hmatching

/-- Nobody enters twice at a time. -/
theorem Queued.entering_eq_zero (h : Queued s queued) (hne : s.ticketState uid ≠ some .queuing) :
    s.entering uid = 0 := by
  by_contra hpos
  exact hne (h.entering uid (Nat.pos_of_ne_zero hpos)).1

theorem Queued.leaving_eq_zero (h : Queued s queued) (hne : s.ticketState uid ≠ some .idle) :
    s.leaving uid = 0 := by
  by_contra hpos
  exact hne (h.leaving uid (Nat.pos_of_ne_zero hpos))

/-! ### Calls that go on -/

theorem enters_eq_zero {c : EnqueueCall} (hpc : ∀ p, c.pc ≠ .pooling p) : c.enters uid = 0 := by
  unfold EnqueueCall.enters
  split
  · next p hp => exact absurd hp (hpc p)
  · rfl

theorem entering_setEnqueue {c : EnqueueCall} (hc : s.enqueues[i]? = some c) (pc : EnqueuePc)
    (uid : UInt64) : (s.setEnqueue i c pc).entering uid + c.enters uid =
      s.entering uid + { c with pc }.enters uid := by
  have hsum := sum_map_set (y := { c with pc }) (EnqueueCall.enters uid) hc
  unfold State.entering
  change ((s.enqueues.set i { c with pc }).map _).sum + _ + _ + _ = _
  change _ + (s.tickLoop.unseated.map fun p => (s.heap p).uid).count uid +
    s.settlementLoop.requeued.count uid + _ = _
  omega

theorem leaving_setDequeue {c : DequeueCall} (hc : s.dequeues[i]? = some c) (pc : DequeuePc)
    (uid : UInt64) : (s.setDequeue i c pc).leaving uid + c.leaves uid =
      s.leaving uid + { c with pc }.leaves uid := by
  have hsum := sum_map_set (y := { c with pc }) (DequeueCall.leaves uid) hc
  exact hsum

theorem leaves_of_not_leaving {c : DequeueCall} (hpc : c.leaving = false) (uid : UInt64) :
    c.leaves uid = 0 := by
  unfold DequeueCall.leaves
  rw [hpc]
  exact if_neg fun h => Bool.false_ne_true h.2

/-- A call of `Enqueue` goes on and has no ticket in hand. -/
theorem Queued.setEnqueue (h : Queued s queued) {c : EnqueueCall} (hc : s.enqueues[i]? = some c)
    {pc : EnqueuePc} (hold : ∀ p, c.pc ≠ .pooling p) (hnew : ∀ p, pc ≠ .pooling p) :
    Queued (s.setEnqueue i c pc) queued := by
  have hentering : ∀ uid, (s.setEnqueue i c pc).entering uid = s.entering uid := by
    intro uid
    have hsum := entering_setEnqueue hc pc uid
    rwa [enters_eq_zero hold, enters_eq_zero (c := { c with pc }) hnew] at hsum
  exact { h with
    enters_once := fun uid => (hentering uid).trans_le (h.enters_once uid)
    entering := fun uid hpos => h.entering uid ((hentering uid).symm ▸ hpos)
    pooling := fun j d p hd hpc => by
      change (s.enqueues.set i _)[j]? = some d at hd
      rw [getElem?_set_at hc] at hd
      split_ifs at hd
      · cases hd
        exact absurd hpc (hnew p)
      · exact h.pooling j d p hd hpc }

/-- A call of `Dequeue` goes on and takes no ticket out. -/
theorem Queued.setDequeue (h : Queued s queued) {c : DequeueCall} (hc : s.dequeues[i]? = some c)
    {pc : DequeuePc} (hold : c.leaving = false) (hnew : { c with pc }.leaving = false)
    (hidling : ∀ p, pc = .idling p → p < s.fresh ∧ (s.heap p).uid = c.uid) :
    Queued (s.setDequeue i c pc) queued := by
  have hleaving : ∀ uid, (s.setDequeue i c pc).leaving uid = s.leaving uid := by
    intro uid
    have hsum := leaving_setDequeue hc pc uid
    rwa [leaves_of_not_leaving hold, leaves_of_not_leaving hnew] at hsum
  exact { h with
    queuing := fun p hp => by
      rw [hleaving]
      exact h.queuing p hp
    leaves_once := fun uid => (hleaving uid).trans_le (h.leaves_once uid)
    leaving := fun uid hpos => h.leaving uid ((hleaving uid).symm ▸ hpos)
    idling := fun j d p hd hpc => by
      rcases of_getElem?_set hc hd with rfl | ⟨-, hsame⟩
      · exact hidling p (hpc.resolve_right ((pc_of_not_leaving hnew).1 p))
      · exact h.idling j d p hsame hpc
    removing := fun j d p hd hpc => by
      rcases of_getElem?_set hc hd with rfl | ⟨-, hsame⟩
      · exact absurd hpc ((pc_of_not_leaving hnew).1 p)
      · exact h.removing j d p hsame hpc
    deleting := fun j d hd hpc => by
      rcases of_getElem?_set hc hd with rfl | ⟨-, hsame⟩
      · exact absurd hpc (pc_of_not_leaving hnew).2
      · exact h.deleting j d hsame hpc }

theorem Queued.appendEnqueue (h : Queued s queued) {c : EnqueueCall}
    (hc : ∀ p, c.pc ≠ .pooling p) : Queued { s with enqueues := s.enqueues ++ [c] } queued := by
  have hentering : ∀ uid, { s with enqueues := s.enqueues ++ [c] }.entering uid =
      s.entering uid := by
    intro uid
    unfold State.entering
    dsimp only
    rw [sum_map_append, enters_eq_zero hc]
    rfl
  exact { h with
    enters_once := fun uid => (hentering uid).trans_le (h.enters_once uid)
    entering := fun uid hpos => h.entering uid (hentering uid ▸ hpos)
    pooling := fun j d p hd hpc => by
      dsimp only at hd
      rw [getElem?_append_singleton] at hd
      split_ifs at hd
      · cases hd
        exact absurd hpc (hc p)
      · exact h.pooling j d p hd hpc }

theorem Queued.appendDequeue (h : Queued s queued) {c : DequeueCall} (hc : c.leaving = false)
    (hidle : ∀ p, c.pc ≠ .idling p) :
    Queued { s with dequeues := s.dequeues ++ [c] } queued := by
  have hleaving : ∀ uid, { s with dequeues := s.dequeues ++ [c] }.leaving uid =
      s.leaving uid := by
    intro uid
    unfold State.leaving
    dsimp only
    rw [sum_map_append, leaves_of_not_leaving hc]
    rfl
  have hout := pc_of_not_leaving hc
  exact { h with
    queuing := fun p hp => by
      rw [hleaving]
      exact h.queuing p hp
    leaves_once := fun uid => (hleaving uid).trans_le (h.leaves_once uid)
    leaving := fun uid hpos => h.leaving uid (hleaving uid ▸ hpos)
    idling := fun j d p hd hpc => by
      rcases of_getElem?_append hd with rfl | hsame
      · exact absurd hpc (not_or.mpr ⟨hidle p, hout.1 p⟩)
      · exact h.idling j d p hsame hpc
    removing := fun j d p hd hpc => by
      rcases of_getElem?_append hd with rfl | hsame
      · exact absurd hpc (hout.1 p)
      · exact h.removing j d p hsame hpc
    deleting := fun j d hd hpc => by
      rcases of_getElem?_append hd with rfl | hsame
      · exact absurd hpc hout.2
      · exact h.deleting j d hsame hpc }

/-! ### A ticket enters the pool -/

/-- Who was on the way to the pool is there, whoever has brought the ticket. -/
theorem Queued.enqueue (h : Queued s queued) (enqueues : List EnqueueCall) (tickLoop : TickLoop)
    (settlementLoop : SettlementLoop) (hp : s.mem.getTicket (s.heap p).uid = some p)
    (hentering : ∀ uid, { s with enqueues, tickLoop, settlementLoop }.entering uid +
      (if (s.heap p).uid = uid then 1 else 0) = s.entering uid)
    (hremoving : tickLoop.removing = s.tickLoop.removing)
    (hpooling : ∀ (i : ℕ) (c : EnqueueCall) (q : Ptr), enqueues[i]? = some c →
      c.pc = .pooling q → s.mem.getTicket c.ticket.uid = some q)
    (hinHand : ∀ q ∈ tickLoop.inHand, s.mem.getTicket (s.heap q).uid = some q)
    (hgiven : ∀ todo stage rest, tickLoop = .releasing todo stage false rest → todo = [])
    (htaken : ∀ q, tickLoop.removing = some q → q ∈ tickLoop.inHand)
    (hfound : ∀ todo q, settlementLoop = .requeuing todo (some q) →
      ∃ uid ∈ todo.head?, s.mem.getTicket uid = some q) :
    Queued { s with pool := s.pool.enqueue S s.heap p, enqueues, tickLoop, settlementLoop }
      (p :: queued) := by
  have henters : 0 < s.entering (s.heap p).uid := by
    rw [← hentering, if_pos rfl]
    exact Nat.succ_pos _
  rcases h.entering _ henters with ⟨hqueuing, hnot⟩
  refine { h with
    filed := h.filed.enqueue
    nodup := List.nodup_cons.mpr ⟨fun hp => hnot p hp rfl, h.nodup⟩
    current := ?_
    queuing := ?_
    enters_once := ?_
    entering := ?_
    pooling := hpooling
    removing := ?_
    deleting := ?_
    inHand := hinHand
    given := hgiven
    taken := htaken
    found := hfound }
  · intro q hq
    rcases List.mem_cons.mp hq with rfl | hold
    · exact hp
    · exact h.current q hold
  · intro q hq
    rcases List.mem_cons.mp hq with rfl | hold
    · rw [ticketState_of_getTicket hp] at hqueuing
      exact .inl (Option.some.inj hqueuing)
    · have hold := h.queuing q hold
      rw [← hremoving] at hold
      exact hold
  · intro uid
    have hle := h.enters_once uid
    rw [← hentering] at hle
    exact (Nat.le_add_right _ _).trans hle
  · intro uid hpos
    have hsum := hentering uid
    have hone := h.enters_once uid
    have hne : (s.heap p).uid ≠ uid := by
      intro heq
      rw [if_pos heq] at hsum
      change 0 < { s with enqueues, tickLoop, settlementLoop }.entering uid at hpos
      omega
    rw [if_neg hne, Nat.add_zero] at hsum
    rcases h.entering uid (hsum ▸ hpos) with ⟨hstate, hothers⟩
    refine ⟨hstate, fun q hq => ?_⟩
    rcases List.mem_cons.mp hq with rfl | hold
    · exact hne
    · exact hothers q hold
  · intro i c r hc hpc
    rcases h.removing i c r hc hpc with ⟨q, hq, hsame⟩
    exact ⟨q, List.mem_cons_of_mem p hq, hsame⟩
  · intro i c hc hpc q hq
    rcases List.mem_cons.mp hq with rfl | hold
    · intro heq
      have hleaves := leaves_of_leaving hc (leaving_of_deleting hpc)
      have hidle := h.leaving _ hleaves
      rw [← heq, hqueuing] at hidle
      cases hidle
    · exact h.deleting i c hc hpc q hold

/-- A ticket leaves the pool. -/
theorem Queued.dequeue (h : Queued s queued) (hp : s.mem.getTicket (s.heap p).uid = some p)
    {pool : BucketPool} (hpool : s.pool.dequeue s.heap p = some pool) :
    BucketPool.Holds s.heap pool (queued.erase p) :=
  h.filed.dequeue (fun _ hq _ huid => h.inj hp hq huid) hpool

/-! ### The loops go on -/

/-- The tick loop goes on: the same tickets are on the way back, and the one that is being removed
still is. -/
theorem Queued.setTick (h : Queued s queued) {tickLoop : TickLoop}
    (hunseated : tickLoop.unseated = s.tickLoop.unseated)
    (hremoving : ∀ p ∈ queued, s.tickLoop.removing = some p → tickLoop.removing = some p)
    (hinHand : ∀ p ∈ tickLoop.inHand, s.mem.getTicket (s.heap p).uid = some p)
    (hgiven : ∀ todo stage rest, tickLoop = .releasing todo stage false rest → todo = [])
    (htaken : ∀ p, tickLoop.removing = some p → p ∈ tickLoop.inHand) :
    Queued { s with tickLoop } queued := by
  have hentering : ∀ uid, { s with tickLoop }.entering uid = s.entering uid := by
    intro uid
    unfold State.entering
    dsimp only
    rw [hunseated]
  exact { h with
    queuing := fun p hp => by
      rcases h.queuing p hp with hqueue | htaken | hleaves
      · exact .inl hqueue
      · exact .inr (.inl (hremoving p hp htaken))
      · exact .inr (.inr hleaves)
    enters_once := fun uid => (hentering uid).trans_le (h.enters_once uid)
    entering := fun uid hpos => h.entering uid (hentering uid ▸ hpos)
    inHand := hinHand
    given := hgiven
    taken := htaken }

/-- It goes from one place without tickets in hand to another. -/
theorem Queued.setFree (h : Queued s queued) {tickLoop : TickLoop}
    (hold : s.tickLoop.unseated = [] ∧ s.tickLoop.removing = none)
    (hnew : tickLoop.inHand = [] ∧ tickLoop.removing = none) :
    Queued { s with tickLoop } queued := by
  have hunseated : tickLoop.unseated = [] := by
    cases tickLoop with
    | releasing todo stage given rest =>
      cases hnew.1
      cases given with
      | _ => cases stage with | _ => rfl
    | _ => rfl
  refine h.setTick (hunseated.trans hold.1.symm) (fun p _ hp => ?_) (fun p hp => ?_)
    (fun todo stage rest hloop => ?_) (fun p hp => ?_)
  · rw [hold.2] at hp
    cases hp
  · rw [hnew.1] at hp
    cases hp
  · rw [hloop] at hnew
    exact hnew.1
  · rw [hnew.2] at hp
    cases hp

theorem idle_afterMode (later : List Int32) (found : List Candidate) :
    (State.afterMode later found).inHand = [] ∧ (State.afterMode later found).removing = none := by
  unfold State.afterMode
  split_ifs
  · exact ⟨rfl, rfl⟩
  · exact ⟨rfl, rfl⟩

/-- Tickets change, but not whose they are and where they are filed; who is on the way in or out
keeps the state. -/
theorem Queued.setHeap (h : Queued s queued) {heap : Heap}
    (hsame : ∀ p, (heap p).uid = (s.heap p).uid ∧ (heap p).slot = (s.heap p).slot)
    (hqueuing : ∀ p ∈ queued, (s.heap p).state = .queuing →
      (heap p).state = .queuing ∨ s.tickLoop.removing = some p)
    (hentering : ∀ uid, 0 < s.entering uid → s.mem.stateOf heap uid = some .queuing)
    (hleaving : ∀ uid, 0 < s.leaving uid → s.mem.stateOf heap uid = some .idle)
    (hunroomed : ∀ uid, s.mem.stateOf heap uid ≠ some .roomed) :
    Queued { s with heap } queued := by
  have hsums : ∀ uid, { s with heap }.entering uid = s.entering uid := by
    intro uid
    unfold State.entering
    dsimp only
    rw [List.map_congr_left fun p _ => (hsame p).1]
  refine { h with
    filed := h.filed.congr fun p _ => (hsame p).2
    current := fun p hp => (hsame p).1.symm ▸ h.current p hp
    queuing := ?_
    enters_once := fun uid => (hsums uid).trans_le (h.enters_once uid)
    entering := ?_
    leaving := hleaving
    idling := ?_
    removing := ?_
    deleting := ?_
    inHand := fun p hp => (hsame p).1.symm ▸ h.inHand p hp
    unroomed := hunroomed }
  · intro p hp
    rw [(hsame p).1]
    rcases h.queuing p hp with hqueue | htaken | hleaves
    · rcases hqueuing p hp hqueue with hstays | htaken
      · exact .inl hstays
      · exact .inr (.inl htaken)
    · exact .inr (.inl htaken)
    · exact .inr (.inr hleaves)
  · intro uid hpos
    rw [hsums] at hpos
    refine ⟨hentering uid hpos, fun p hp => ?_⟩
    rw [(hsame p).1]
    exact (h.entering uid hpos).2 p hp
  · intro i c p hc hpc
    rw [(hsame p).1]
    exact h.idling i c p hc hpc
  · intro i c p hc hpc
    rcases h.removing i c p hc hpc with ⟨q, hq, huid, hslot⟩
    exact ⟨q, hq, (hsame q).1.trans huid, by rw [(hsame q).2, (hsame p).2, hslot]⟩
  · intro i c hc hpc p hp
    rw [(hsame p).1]
    exact h.deleting i c hc hpc p hp

/-- A ticket of somebody who is nowhere else changes its state. -/
theorem Queued.setState (h : Queued s queued) (hk : s.mem.Keyed s.heap s.fresh)
    (hq : s.mem.getTicket (s.heap q).uid = some q) (target : TicketState)
    (hunroomed : target ≠ .roomed)
    (hqueued : ∀ p ∈ queued, (s.heap p).uid ≠ (s.heap q).uid ∨ s.tickLoop.removing = some p)
    (hentering : s.entering (s.heap q).uid = 0) (hleaving : s.leaving (s.heap q).uid = 0) :
    Queued { s with heap := s.heap.setState q target } queued := by
  have hstate := ticketState_setState hk hq target
  refine h.setHeap (setState_same s.heap q target) (fun p hp hqueue => ?_) (fun uid hpos => ?_)
    (fun uid hpos => ?_) fun uid => ?_
  · rcases hqueued p hp with hne | htaken
    · have hpq : p ≠ q := fun heq => hne (congrArg (fun r => (s.heap r).uid) heq)
      refine .inl ?_
      rw [Heap.setState, Function.update_of_ne hpq]
      exact hqueue
    · exact .inr htaken
  · rw [hstate, if_neg (ne_of_apply_ne s.entering (by omega))]
    exact (h.entering uid hpos).1
  · rw [hstate, if_neg (ne_of_apply_ne s.leaving (by omega))]
    exact h.leaving uid hpos
  · rw [hstate]
    split_ifs
    · intro heq
      exact hunroomed (Option.some.inj heq)
    · exact h.unroomed uid

theorem Queued.setHeap_of_state (h : Queued s queued) {heap : Heap}
    (hsame : ∀ p, (heap p).uid = (s.heap p).uid ∧ (heap p).slot = (s.heap p).slot)
    (hstate : ∀ p, (heap p).state = (s.heap p).state) : Queued { s with heap } queued := by
  have hstates := stateOf_congr hstate s.mem
  refine h.setHeap hsame (fun p _ hp => .inl ((hstate p).trans hp)) (fun uid hpos => ?_)
    (fun uid hpos => ?_) fun uid => ?_
  · exact (hstates uid).trans (h.entering uid hpos).1
  · exact (hstates uid).trans (h.leaving uid hpos)
  · rw [hstates]
    exact h.unroomed uid

theorem Queued.setSettlement (h : Queued s queued) {settlementLoop : SettlementLoop}
    (hrequeued : settlementLoop.requeued = s.settlementLoop.requeued)
    (hfound : ∀ todo p, settlementLoop ≠ .requeuing todo (some p)) :
    Queued { s with settlementLoop } queued := by
  have hentering : ∀ uid, { s with settlementLoop }.entering uid = s.entering uid := by
    intro uid
    unfold State.entering
    dsimp only
    rw [hrequeued]
  exact { h with
    enters_once := fun uid => (hentering uid).trans_le (h.enters_once uid)
    entering := fun uid hpos => h.entering uid (hentering uid ▸ hpos)
    found := fun todo p hloop => absurd hloop (hfound todo p) }

theorem requeued_settle (todo : List UInt64) : (State.settle todo).requeued = [] := by
  unfold State.settle
  split_ifs
  · rfl
  · rfl

theorem requeued_requeue (todo : List UInt64) : (State.requeue todo).requeued = todo := by
  unfold State.requeue
  split_ifs with htodo
  · exact htodo.symm
  · rfl

end Steps

end Gmaker.Matching
