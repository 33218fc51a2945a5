import Gmaker.Matching.OneTeam
import Gmaker.Matching.Requests

/-!
# Gmaker.Matching.Cancel — a player who has left the queue

`Dequeue` sets the ticket idle, takes it out of the pool and deletes it. Afterwards the player
is in no match that is confirmed and has no ticket in the pool, if at each step the ticket is
where the service takes it to be. Nothing makes sure of that: a candidate that was found still
has the ticket, a request that was checked may be followed by another, and what is released goes
to the pool whether it has left it or not.
-/

namespace Gmaker.Matching

open Gmaker.Lib

/-! ## What is not looked at -/

/-- The ticket that is marked next. -/
def TickLoop.toMark : TickLoop → Option Ptr
  | .marking c _ marked none _ => c.tickets[marked]?
  | _ => none

/-- A ticket is put in the table only where the player has none that queues or is matched and is
not just leaving; what is called off is in the queue, where the ticket looked up is filed; what is
marked is in the queue; and a match gets its number. -/
def State.Orderly (s : State) : Event → Prop
  | .putTicket i _ => ∀ c ∈ s.enqueues[i]?,
    s.ticketState c.ticket.uid ≠ some .queuing ∧ s.ticketState c.ticket.uid ≠ some .matching ∧
      ∀ d ∈ s.dequeues, d.uid = c.ticket.uid → d.leaving = false
  | .setIdle i => ∀ c ∈ s.dequeues[i]?, ∀ p ∈ c.seen, ∀ q ∈ s.mem.getTicket c.uid,
    (s.heap q).state = .queuing → s.InQueue q ∧ (s.heap q).slot = (s.heap p).slot
  | .markMatching => ∀ p ∈ s.tickLoop.toMark, s.InQueue p
  | .nextMatchID nano fails _ => Matching.nextMatchID s.redis nano fails ≠ none
  | _ => True

instance (s : State) (e : Event) : Decidable (s.Orderly e) :=
  match e with
  | .putTicket _ _ | .setIdle _ | .markMatching | .nextMatchID _ _ _ => by
    unfold State.Orderly
    infer_instance
  | .matchReq .. | .countQueuing _ | .checkTicket _ | .poolEnqueue _ | .cancelReq _ | .getTicket _
  | .poolDequeue _ | .deleteTicket _ | .tick | .matchMode | .anchor _ | .removeFromPool
  | .casConfirm _ _ | .putMatch | .bindMatch | .notify | .releaseState | .requeueState
  | .releaseEnqueue | .receiveMatch | .drive | .settleTicket | .releaseTickets | .rollbackGet
  | .rollbackEnqueue | .expire _ => instDecidableTrue

/-! ## Every step -/

section Steps

variable {S : SortSlice} {room : Match → Option UInt64} {s t : State} {e : Event} {uid : UInt64}
  {queued : List Ptr} {p q : Ptr} {i : ℕ}

/-! ### The tick loop -/

variable {c : Candidate} {m : Match} {marked place : ℕ} {rest : List Candidate}

theorem Queued.nextMatchID (h : Queued s queued) (hloop : s.tickLoop = .candidates (c :: rest))
    (nano : UInt64) (fails : Bool) (now : ℤ)
    (hok : Matching.nextMatchID s.redis nano fails ≠ none) :
    Queued (s.nextMatchID c rest nano fails now) queued := by
  unfold State.nextMatchID
  cases hnumber : Matching.nextMatchID s.redis nano fails with
  | none => exact absurd hnumber hok
  | some answer =>
    cases c.teamA with
    | nil => exact { h with }
    | cons first others =>
      have hmarking : ∀ m : Match,
          Queued { s with tickLoop := .marking c m 0 none rest } queued := by
        intro m
        refine h.setFree ?_ ⟨rfl, rfl⟩
        rw [hloop]
        exact ⟨rfl, rfl⟩
      exact { hmarking _ with }

/-- A ticket of the queue is marked. -/
theorem Queued.markMatching (h : Queued s queued) (hw : Wf s)
    (hloop : s.tickLoop = .marking c m marked none rest) (hp : c.tickets[marked]? = some p)
    (hok : s.InQueue p) : Queued (s.markMatching c m marked p rest) queued := by
  rcases hok with ⟨hget, hqueuing, hmem⟩
  have hqueued : p ∈ queued := (h.filed.mem_iff.mp hmem).1
  have htake : c.tickets.take (marked + 1) = c.tickets.take marked ++ [p] := by
    rw [List.take_add_one, hp]
    rfl
  have hmarked : Queued { s with tickLoop := .marking c m (marked + 1) (some p) rest } queued := by
    refine h.setTick ?_ (fun q _ hq => ?_) (fun q hq => ?_) (fun todo stage rest' hrelease => ?_)
      (fun q hq => ?_)
    · rw [hloop]
      rfl
    · rw [hloop] at hq
      cases hq
    · change q ∈ c.tickets.take (marked + 1) at hq
      rw [htake] at hq
      rcases List.mem_append.mp hq with hold | hnew
      · apply h.inHand
        rw [hloop]
        exact hold
      · rw [List.mem_singleton.mp hnew]
        exact hget
    · cases hrelease
    · cases hq
      change p ∈ c.tickets.take (marked + 1)
      rw [htake]
      exact List.mem_append_right _ (List.mem_singleton.mpr rfl)
  have hset := hmarked.setState hw.keyed (q := p) hget .matching (by decide)
    (fun r hr => ?_) ?_ ?_
  · unfold State.markMatching
    rw [tryTicketState_of_getTicket hget (TicketState.canTransitionTo_matching.mpr hqueuing)]
    exact hset
  · by_cases huid : (s.heap r).uid = (s.heap p).uid
    · rw [h.inj hget hr huid]
      exact .inr rfl
    · exact .inl huid
  · by_contra hpos
    exact (hmarked.entering _ (Nat.pos_of_ne_zero hpos)).2 p hqueued rfl
  · apply hmarked.leaving_eq_zero
    have hstate := ticketState_of_getTicket hget
    rw [hqueuing] at hstate
    intro hidle
    cases hstate.symm.trans hidle

/-- It leaves the pool. -/
theorem Queued.removeFromPool (h : Queued s queued) (hs : Seated s) (hw : Wf s)
    (hloop : s.tickLoop = .marking c m marked (some p) rest) :
    ∃ queued, Queued (s.removeFromPool c m marked p rest) queued := by
  unfold State.removeFromPool
  cases hpool : s.pool.dequeue s.heap p with
  | none => exact ⟨queued, { h with }⟩
  | some pool =>
    have hremoving : s.tickLoop.removing = some p := by
      rw [hloop]
      rfl
    have hhand := h.taken p hremoving
    have hget := h.inHand p hhand
    have hentering : ∀ uid, { s with tickLoop := .marking c m marked none rest }.entering uid =
        s.entering uid := by
      intro uid
      unfold State.entering
      rw [hloop]
      rfl
    -- it stays in hand, marked, and is in the queue no longer
    refine ⟨queued.erase p, { h with
      filed := h.dequeue hget hpool
      nodup := h.nodup.erase p
      current := fun r hr => h.current r (List.mem_of_mem_erase hr)
      queuing := ?_
      enters_once := fun uid => (hentering uid).trans_le (h.enters_once uid)
      entering := ?_
      removing := ?_
      deleting := fun i c hc hpc r hr => h.deleting i c hc hpc r (List.mem_of_mem_erase hr)
      inHand := ?_
      given := fun todo stage rest' hrelease => by cases hrelease
      taken := fun r hr => by cases hr }⟩
    · intro r hr
      rcases h.queuing r (List.mem_of_mem_erase hr) with hqueue | htaken | hleaves
      · exact .inl hqueue
      · rw [hremoving] at htaken
        cases htaken
        exact absurd hr h.nodup.not_mem_erase
      · exact .inr (.inr hleaves)
    · intro uid hpos
      rcases h.entering uid (hentering uid ▸ hpos) with ⟨hqueue, hothers⟩
      exact ⟨hqueue, fun r hr => hothers r (List.mem_of_mem_erase hr)⟩
    · intro i d r hd hdpc
      rcases h.removing i d r hd hdpc with ⟨q, hq, huid, hslot⟩
      have hidle := h.leaving _ (leaves_of_leaving hd (leaving_of_removing hdpc))
      refine ⟨q, (List.mem_erase_of_ne fun heq => ?_).mpr hq, huid, hslot⟩
      -- what is marked is not idle
      rw [← huid, heq] at hidle
      exact h.not_idle_inHand hs hw hhand hidle
    · intro r hr
      apply h.inHand
      rw [hloop]
      exact hr

theorem Queued.casConfirm (h : Queued s queued)
    (hloop : s.tickLoop = .marking c m c.tickets.length none rest) (ran replied : Bool) :
    Queued (s.casConfirm c m rest ran replied) queued := by
  have hold : s.tickLoop.unseated = [] ∧ s.tickLoop.removing = none := by
    rw [hloop]
    exact ⟨rfl, rfl⟩
  unfold State.casConfirm
  rcases Matching.casConfirm s.redis m.id m.allUIDs ran replied with ⟨redis, ok⟩
  simp only
  split_ifs
  · have hfree : Queued { s with
        tickLoop := .confirmed { m with state := .confirmed } rest } queued :=
      h.setFree hold ⟨rfl, rfl⟩
    exact { hfree with }
  · unfold State.release
    split_ifs
    · have hfree : Queued { s with tickLoop := .candidates rest } queued :=
        h.setFree hold ⟨rfl, rfl⟩
      exact { hfree with }
    · have hrelease : Queued { s with
          tickLoop := .releasing c.tickets .updateState true rest } queued := by
        refine h.setTick hold.1.symm (fun q _ hq => ?_) (fun q hq => ?_)
          (fun todo stage rest' hrelease => ?_) (fun q hq => ?_)
        · rw [hold.2] at hq
          cases hq
        · apply h.inHand
          rw [hloop]
          change q ∈ c.tickets.take c.tickets.length
          rw [List.take_length]
          exact hq
        · cases hrelease
        · cases hq
      exact { hrelease with }

/-- Whose ticket was called off has no seat in the tick loop's match. -/
theorem Queued.not_cancelled (h : Queued s queued) (hs : Seated s)
    (hseat : uid ∈ s.tickLoop.seated s.heap) : uid ∉ s.cancelled := by
  intro hcancelled
  have hmatching := hs.matching uid (seats_of_mem hseat)
  unfold State.ticketState MemoryStore.stateOf at hmatching
  rw [h.gone uid hcancelled] at hmatching
  cases hmatching

/-- Nobody who was called off is in the match. -/
theorem Queued.putMatch (h : Queued s queued) (hs : Seated s)
    (hloop : s.tickLoop = .confirmed m rest) : Queued (s.putMatch m rest) queued := by
  have hfree : Queued { s with tickLoop := .binding s.records.length rest } queued :=
    h.setFree (by rw [hloop]; exact ⟨rfl, rfl⟩) ⟨rfl, rfl⟩
  refine { hfree with matchedAfter := ?_ }
  change s.matchedAfter ++ m.allUIDs.filter _ = []
  rw [h.matchedAfter, List.nil_append, List.filter_eq_nil_iff]
  intro uid huid hcancelled
  have hseat : uid ∈ s.tickLoop.seated s.heap := by
    rw [hloop]
    exact huid
  exact h.not_cancelled hs hseat (by simpa using hcancelled)

theorem Queued.bindMatch (h : Queued s queued) (hloop : s.tickLoop = .binding place rest)
    (m : Match) : Queued (s.bindMatch m place rest) queued := by
  have hbound := h.setHeap_of_state
    (fun p => alike_bindTickets (p + 1) s.heap s.mem m.allUIDs m.id p (Nat.lt_succ_self p))
    (state_bindTickets s.heap s.mem m.allUIDs m.id)
  have hfree : Queued { s with
      heap := s.mem.bindTickets s.heap m.allUIDs m.id
      tickLoop := .sending place rest } queued :=
    hbound.setFree (by rw [hloop]; exact ⟨rfl, rfl⟩) ⟨rfl, rfl⟩
  exact { hfree with }

/-! ### A candidate is released -/

variable {todo : List Ptr} {stage : ReleaseStage} {given : Bool}

/-- The first of the candidate is on the way back. -/
theorem Queued.releaseState (h : Queued s queued) (hs : Seated s) (hw : Wf s)
    (hloop : s.tickLoop = .releasing (p :: todo) .updateState given rest) :
    Queued (s.releaseState p todo given rest) queued := by
  cases h.given_eq hloop
  have hhand : p ∈ s.tickLoop.inHand := by
    rw [hloop]
    exact List.mem_cons_self
  have hget := h.inHand p hhand
  have hseat : (s.heap p).uid ∈ s.tickLoop.seated s.heap := by
    rw [hloop]
    exact List.mem_cons_self
  have hmatching := hs.matching _ (seats_of_mem hseat)
  have hstate := ticketState_of_getTicket hget
  rw [hmatching] at hstate
  have hnot := h.not_queued_of_matching hmatching fun q hq => by
    rw [hloop] at hq
    cases hq
  have hset := h.setState hw.keyed (q := p) hget .queuing (by decide)
    (fun r hr => .inl (hnot r hr))
    (h.entering_eq_zero (by rw [hmatching]; decide))
    (h.leaving_eq_zero (by rw [hmatching]; decide))
  have hcan : (s.heap p).state.canTransitionTo .queuing = true := by
    rw [← Option.some.inj hstate]
    rfl
  unfold State.releaseState
  rw [tryTicketState_of_getTicket hget hcan]
  have huid := (setState_same s.heap p .queuing p).1
  have hentering : ∀ uid, { s with
      heap := s.heap.setState p .queuing
      tickLoop := .releasing (p :: todo) .setQueuing true rest }.entering uid =
        { s with heap := s.heap.setState p .queuing }.entering uid +
          if (s.heap p).uid = uid then 1 else 0 := by
    intro uid
    unfold State.entering
    dsimp only
    rw [hloop]
    change _ + [(s.heap.setState p .queuing p).uid].count uid + _ = _ + 0 + _ + _
    rw [huid, List.count_singleton]
    simp only [beq_iff_eq]
    omega
  -- no call has the ticket on the way in: until now it was being matched
  have hfree : { s with heap := s.heap.setState p .queuing }.entering (s.heap p).uid = 0 := by
    by_contra hpos
    have hold : s.entering (s.heap p).uid = 0 := h.entering_eq_zero (by rw [hmatching]; decide)
    apply hpos
    rw [← hold]
    unfold State.entering
    dsimp only
    rw [hloop]
    rfl
  refine { hset with
    queuing := fun r hr => ?_
    enters_once := fun uid => ?_
    entering := fun uid hpos => ?_
    inHand := fun r hr => ?_
    given := fun todo stage rest hrelease => by cases hrelease
    taken := fun r hr => by cases hr }
  · rcases hset.queuing r hr with hqueue | htaken | hleaves
    · exact .inl hqueue
    · dsimp only at htaken
      rw [hloop] at htaken
      cases htaken
    · exact .inr (.inr hleaves)
  · rw [hentering]
    split_ifs with heq
    · rw [← heq, hfree]
    · exact hset.enters_once uid
  · rw [hentering] at hpos
    by_cases heq : (s.heap p).uid = uid
    · subst heq
      refine ⟨?_, fun r hr => ?_⟩
      · change s.mem.stateOf (s.heap.setState p .queuing) _ = _
        rw [ticketState_setState hw.keyed hget, if_pos rfl]
      · exact fun hr' => hnot r hr ((setState_same s.heap p .queuing r).1.symm.trans hr')
    · rw [if_neg heq] at hpos
      exact hset.entering uid hpos
  · apply hset.inHand
    dsimp only
    rw [hloop]
    exact hr

/-- The first of a candidate that is released is on the way back. -/
theorem entering_first (hloop : s.tickLoop = .releasing (p :: todo) stage true rest)
    (hstage : stage ≠ .updateState) : 0 < s.entering (s.heap p).uid := by
  have hun : s.tickLoop.unseated = [p] := by
    rw [hloop]
    cases stage with
    | updateState => exact absurd rfl hstage
    | setQueuing | enqueue => rfl
  unfold State.entering
  rw [hun, List.map_singleton, List.count_singleton_self]
  omega

theorem Queued.requeueState (h : Queued s queued)
    (hloop : s.tickLoop = .releasing (p :: todo) .setQueuing given rest) :
    Queued (s.requeueState p todo given rest) queued := by
  cases h.given_eq hloop
  have hget : s.mem.getTicket (s.heap p).uid = some p := by
    apply h.inHand
    rw [hloop]
    exact List.mem_cons_self
  have hqueuing := (h.entering _ (entering_first hloop ReleaseStage.noConfusion)).1
  rw [ticketState_of_getTicket hget] at hqueuing
  -- the ticket was set already, only its priority changes
  have hset : Queued { s with
      heap := Function.update s.heap p
        { s.heap p with state := .queuing, priority := (s.heap p).priority + 1 } } queued := by
    refine h.setHeap_of_state (fun r => ?_) fun r => ?_
    · have hsame : Alike (r + 1) s.heap (Function.update s.heap p
          { s.heap p with state := .queuing, priority := (s.heap p).priority + 1 }) :=
        alike_update (r + 1) rfl rfl
      exact hsame r (Nat.lt_succ_self r)
    by_cases hr : r = p
    · rw [hr, Function.update_self]
      exact (Option.some.inj hqueuing).symm
    · rw [Function.update_of_ne hr]
  refine hset.setTick ?_ (fun q _ hq => ?_) (fun q hq => ?_) (fun todo stage rest hrelease => ?_)
    fun q hq => ?_
  · dsimp only
    rw [hloop]
    rfl
  · dsimp only at hq
    rw [hloop] at hq
    cases hq
  · apply hset.inHand
    dsimp only
    rw [hloop]
    exact hq
  · cases hrelease
  · cases hq

/-- It is back in the queue. -/
theorem Queued.releaseEnqueue (h : Queued s queued)
    (hloop : s.tickLoop = .releasing (p :: todo) .enqueue given rest) :
    Queued (s.releaseEnqueue S p todo given rest) (p :: queued) := by
  cases h.given_eq hloop
  have hget : ∀ q ∈ p :: todo, s.mem.getTicket (s.heap q).uid = some q := by
    intro q hq
    apply h.inHand
    rw [hloop]
    exact hq
  have hrelease : (State.release todo true rest).unseated = [] ∧
      (State.release todo true rest).removing = none ∧
        ∀ q ∈ (State.release todo true rest).inHand, q ∈ todo := by
    unfold State.release
    split_ifs
    · exact ⟨rfl, rfl, fun q hq => by cases hq⟩
    · exact ⟨rfl, rfl, fun q hq => hq⟩
  refine h.enqueue (S := S) s.enqueues (State.release todo true rest) s.settlementLoop
    (hget p List.mem_cons_self) (fun uid => ?_) ?_ h.pooling
    (fun q hq => hget q (List.mem_cons_of_mem p (hrelease.2.2 q hq)))
    (fun todo' stage' rest' hloop' => ?_) (fun q hq => ?_) h.found
  · unfold State.entering
    dsimp only
    rw [hrelease.1, hloop]
    change _ + 0 + _ + _ = _ + [(s.heap p).uid].count uid + _
    rw [List.count_singleton]
    simp only [beq_iff_eq]
    omega
  · rw [hrelease.2.1, hloop]
    rfl
  · unfold State.release at hloop'
    split_ifs at hloop'
    all_goals cases hloop'
  · rw [hrelease.2.1] at hq
    cases hq

/-! ### The settlement loop -/

theorem Queued.drive (h : Queued s queued) (hdriving : s.settlementLoop = .driving place)
    (m : Match) : Queued (s.drive room place m) queued := by
  have hnone : s.settlementLoop.requeued = [] := by
    rw [hdriving]
    rfl
  have hto : ∀ (target : MatchState) (f : Match → Match),
      Queued (s.matchTo place m target f) queued := fun _ _ => { h with }
  unfold State.drive
  cases m.state with
  | draft => exact h
  | confirmed => exact hto _ _
  | roomPrep =>
    simp only
    unfold State.roomPrep
    cases room m with
    | none => exact hto _ _
    | some roomId => exact hto _ _
  | retry =>
    simp only
    split_ifs
    · exact (hto _ _).setSettlement hnone.symm fun todo p => SettlementLoop.noConfusion
    · exact hto _ _
  | notifying =>
    exact (hto _ _).setSettlement ((requeued_settle _).trans hnone.symm) fun todo p => settle_ne _
  | complete | aborted | rollback | matchPartial =>
    exact h.setSettlement hnone.symm fun todo p => SettlementLoop.noConfusion

/-- Whose match is being settled or rolled back is not in the queue. -/
theorem Queued.not_queued_of_settlement (h : Queued s queued) (hs : Seated s) (hw : Wf s)
    (hmem : uid ∈ s.settlementLoop.seated s.records) :
    s.ticketState uid = some .matching ∧ ∀ p ∈ queued, (s.heap p).uid ≠ uid := by
  have hcount := List.count_pos_iff.mpr hmem
  have hseat : 0 < s.seats uid := by
    unfold State.seats
    omega
  have hmatching := hs.matching uid hseat
  refine ⟨hmatching, h.not_queued_of_matching hmatching fun p hp heq => ?_⟩
  rcases h.of_inHand hw (h.taken p hp) with htick | henters
  · -- it would have two seats
    rw [heq] at htick
    have htick := List.count_pos_iff.mpr htick
    have hone := hs.one uid
    unfold State.seats at hone
    omega
  · have hqueuing := (h.entering _ henters).1
    rw [heq, hmatching] at hqueuing
    cases hqueuing

theorem Queued.settleTicket (h : Queued s queued) (hs : Seated s) (hw : Wf s)
    {todo : List UInt64} (hloop : s.settlementLoop = .settling (uid :: todo)) :
    Queued (s.settleTicket uid todo) queued := by
  have hmem : uid ∈ s.settlementLoop.seated s.records := by
    rw [hloop]
    exact List.mem_cons_self
  rcases h.not_queued_of_settlement hs hw hmem with ⟨hmatching, hnot⟩
  rcases Option.map_eq_some_iff.mp hmatching with ⟨q, hq, hstate⟩
  have huid := (hw.keyed uid q hq).2
  have hset := h.setState hw.keyed (q := q) (huid.symm ▸ hq) .settling (by decide)
    (fun r hr => .inl (huid.symm ▸ hnot r hr))
    (huid.symm ▸ h.entering_eq_zero (by rw [hmatching]; decide))
    (huid.symm ▸ h.leaving_eq_zero (by rw [hmatching]; decide))
  have hcan : (s.heap q).state.canTransitionTo .settling = true := by
    rw [hstate]
    rfl
  unfold State.settleTicket
  rw [tryTicketState_of_getTicket hq hcan]
  refine hset.setSettlement ?_ fun todo p => settle_ne _
  rw [requeued_settle]
  dsimp only
  rw [hloop]
  rfl

/-- All players of a match that is rolled back are on the way to the pool. -/
theorem Queued.releaseTickets (h : Queued s queued) (hs : Seated s) (hw : Wf s)
    (hloop : s.settlementLoop = .rollingBack place) (hm : s.records[place]? = some m) :
    Queued (s.releaseTickets m) queued := by
  have hplayers : s.settlementLoop.seated s.records = m.allUIDs := by
    rw [hloop, seated_rollingBack hm]
  have hnot : ∀ uid ∈ m.allUIDs, s.ticketState uid = some .matching ∧
      ∀ p ∈ queued, (s.heap p).uid ≠ uid := by
    intro uid huid
    apply h.not_queued_of_settlement hs hw
    rw [hplayers]
    exact huid
  -- who enters or leaves is not being matched, and stays as it is
  have hothers : ∀ uid, s.ticketState uid ≠ some .matching →
      s.mem.stateOf (s.mem.releaseStates s.heap m.allUIDs) uid = s.ticketState uid := by
    intro uid hne
    exact stateOf_releaseStates_of_not_mem hw.keyed fun huid => hne (hnot uid huid).1
  have hsame : ∀ p, (s.mem.releaseStates s.heap m.allUIDs p).uid = (s.heap p).uid ∧
      (s.mem.releaseStates s.heap m.allUIDs p).slot = (s.heap p).slot := fun p =>
    alike_releaseStates (p + 1) s.heap s.mem m.allUIDs p (Nat.lt_succ_self p)
  have hset : Queued { s with heap := s.mem.releaseStates s.heap m.allUIDs } queued := by
    refine h.setHeap hsame (fun p hp hqueue => ?_) (fun uid hpos => ?_) (fun uid hpos => ?_)
      fun uid => ?_
    · rw [releaseStates_of_ne s.heap fun uid huid hget => ?_]
      · exact .inl hqueue
      · exact (hnot uid huid).2 p hp (hw.keyed uid p hget).2
    · have hqueuing := (h.entering uid hpos).1
      exact (hothers uid (by rw [hqueuing]; decide)).trans hqueuing
    · have hidle := h.leaving uid hpos
      exact (hothers uid (by rw [hidle]; decide)).trans hidle
    · by_cases huid : uid ∈ m.allUIDs
      · rw [stateOf_releaseStates s.heap s.mem huid (hnot uid huid).1]
        decide
      · rw [stateOf_releaseStates_of_not_mem hw.keyed huid]
        exact h.unroomed uid
  have hentering : ∀ uid, (s.releaseTickets m).entering uid =
      { s with heap := s.mem.releaseStates s.heap m.allUIDs }.entering uid +
        m.allUIDs.count uid := by
    intro uid
    unfold State.entering State.releaseTickets
    dsimp only
    rw [requeued_requeue, hloop]
    rfl
  have hfree : ∀ uid ∈ m.allUIDs,
      { s with heap := s.mem.releaseStates s.heap m.allUIDs }.entering uid = 0 := by
    intro uid huid
    have hold : s.entering uid = 0 := h.entering_eq_zero (by rw [(hnot uid huid).1]; decide)
    rw [← hold]
    unfold State.entering
    dsimp only
    rw [List.map_congr_left fun p _ => (hsame p).1]
  refine { hset with
    enters_once := fun uid => ?_
    entering := fun uid hpos => ?_
    found := fun todo p hrequeue => absurd hrequeue (requeue_ne _) }
  · rw [hentering]
    by_cases huid : uid ∈ m.allUIDs
    · have hone := hs.one uid
      unfold State.seats at hone
      rw [hplayers] at hone
      rw [hfree uid huid]
      omega
    · rw [List.count_eq_zero_of_not_mem huid]
      exact hset.enters_once uid
  · rw [hentering] at hpos
    by_cases huid : uid ∈ m.allUIDs
    · refine ⟨stateOf_releaseStates s.heap s.mem huid (hnot uid huid).1, fun p hp heq => ?_⟩
      exact (hnot uid huid).2 p hp ((hsame p).1.symm.trans heq)
    · rw [List.count_eq_zero_of_not_mem huid] at hpos
      exact hset.entering uid hpos

theorem Queued.rollbackGet (h : Queued s queued) {todo : List UInt64}
    (hloop : s.settlementLoop = .requeuing (uid :: todo) none) :
    Queued (s.rollbackGet uid todo) queued := by
  have hqueuing := (h.entering uid (enters_of_requeued hloop List.mem_cons_self)).1
  unfold State.rollbackGet
  cases hget : s.mem.getTicket uid with
  -- there is a ticket, as the player is on the way back
  | none =>
    unfold State.ticketState MemoryStore.stateOf at hqueuing
    rw [hget] at hqueuing
    cases hqueuing
  | some p =>
    have hentering : ∀ uid', { s with
        settlementLoop := .requeuing (uid :: todo) (some p) }.entering uid' = s.entering uid' := by
      intro uid'
      unfold State.entering
      rw [hloop]
      rfl
    exact { h with
      enters_once := fun uid' => (hentering uid').trans_le (h.enters_once uid')
      entering := fun uid' hpos => h.entering uid' (hentering uid' ▸ hpos)
      found := fun todo' q hfound => by
        cases hfound
        exact ⟨uid, rfl, hget⟩ }

theorem Queued.rollbackEnqueue (h : Queued s queued) (hw : Wf s) {todo : List UInt64}
    (hloop : s.settlementLoop = .requeuing (uid :: todo) (some p)) :
    Queued (s.rollbackEnqueue S p todo) (p :: queued) := by
  rcases h.found _ _ hloop with ⟨uid', huid', hget⟩
  cases huid'
  have huid := (hw.keyed uid p hget).2
  refine h.enqueue (S := S) s.enqueues s.tickLoop (State.requeue todo) (huid.symm ▸ hget)
    (fun uid' => ?_) rfl h.pooling h.inHand h.given h.taken
    fun todo' q hrequeue => absurd hrequeue (requeue_ne _)
  unfold State.entering
  dsimp only
  rw [requeued_requeue, hloop, huid]
  change _ = _ + (uid :: todo).count uid'
  rw [List.count_cons]
  simp only [beq_iff_eq]
  omega

/-- What is in order is what the seats need. -/
theorem Queued.checked (h : Queued s queued) (hok : s.Orderly e) (hstep : Step S room s e t) :
    s.Checked e := by
  cases hstep with
  | putTicket hc hpc => exact fun c hc => (hok c hc).2.1
  | deleteTicket hc hpc =>
    intro c hc'
    rw [hc] at hc'
    cases hc'
    rw [h.leaving _ (leaves_of_leaving hc (leaving_of_deleting hpc))]
    decide
  | nextMatchID hloop =>
    unfold State.Checked
    rw [hloop]
    exact fun hnone => absurd hnone hok
  | markMatching hloop hp =>
    unfold State.Orderly at hok
    unfold State.Checked
    rw [hloop] at hok ⊢
    intro p hp
    rcases hok p hp with ⟨hget, hqueuing, -⟩
    rw [ticketState_of_getTicket hget, hqueuing]
  | _ => trivial

/-- Every step leaves each ticket in one place. -/
theorem Queued.step (h : Queued s queued) (hs : Seated s) (hw : Wf s) (hok : s.Orderly e)
    (hstep : Step S room s e t) : ∃ queued, Queued t queued := by
  cases hstep with
  | matchReq => exact ⟨queued, h.appendEnqueue fun p hp => by cases hp⟩
  | countQueuing hc hpc =>
    unfold State.countQueuing
    split_ifs
    all_goals exact ⟨queued, h.setEnqueue hc (fun p hp => by rw [hpc] at hp; cases hp)
      fun p hp => by cases hp⟩
  | checkTicket hc hpc =>
    unfold State.checkTicket
    split_ifs
    all_goals exact ⟨queued, h.setEnqueue hc (fun p hp => by rw [hpc] at hp; cases hp)
      fun p hp => by cases hp⟩
  | putTicket hc hpc =>
    rcases hok _ hc with ⟨hqueuing, hmatching, hcalls⟩
    exact ⟨queued, h.putTicket hs hw _ hc hpc hqueuing hmatching hcalls⟩
  | poolEnqueue hc hpc => exact ⟨_, h.poolEnqueue hw hc hpc⟩
  | cancelReq => exact ⟨queued, h.appendDequeue rfl fun p hp => by cases hp⟩
  | @getTicket i c hc hpc =>
    have hnot : c.leaving = false := by
      unfold DequeueCall.leaving
      rw [hpc]
    unfold State.getTicket
    split
    · exact ⟨queued, h.setDequeue hc hnot rfl fun p hp => by cases hp⟩
    · next p hp =>
      split_ifs
      · refine ⟨queued, h.setDequeue hc hnot rfl fun q hq => ?_⟩
        cases hq
        exact hw.keyed _ _ hp
      · exact ⟨queued, h.setDequeue hc hnot rfl fun q hq => by cases hq⟩
  | @setIdle i c p hc hpc =>
    have hseen : c.seen = some p := by
      unfold DequeueCall.seen
      rw [hpc]
    exact ⟨queued, h.setIdle hw hc hpc (hok c hc p hseen)⟩
  | poolDequeue hc hpc => exact h.poolDequeue hc hpc
  | deleteTicket hc hpc => exact ⟨queued, h.deleteTicket hs hw hc hpc⟩
  | tick hloop =>
    refine ⟨queued, h.setFree ?_ ⟨rfl, rfl⟩⟩
    rw [hloop]
    exact ⟨rfl, rfl⟩
  | matchMode hloop =>
    refine ⟨queued, h.setFree ?_ ?_⟩
    · rw [hloop]
      exact ⟨rfl, rfl⟩
    · split_ifs
      · exact idle_afterMode _ _
      · exact ⟨rfl, rfl⟩
  | anchor hloop =>
    refine ⟨queued, h.setFree ?_ ?_⟩
    · rw [hloop]
      exact ⟨rfl, rfl⟩
    · split_ifs
      · exact idle_afterMode _ _
      · exact ⟨rfl, rfl⟩
  | nextMatchID hloop => exact ⟨queued, h.nextMatchID hloop _ _ _ hok⟩
  | markMatching hloop hp =>
    unfold State.Orderly at hok
    rw [hloop] at hok
    exact ⟨queued, h.markMatching hw hloop hp (hok _ hp)⟩
  | removeFromPool hloop => exact h.removeFromPool hs hw hloop
  | casConfirm hloop => exact ⟨queued, h.casConfirm hloop _ _⟩
  | putMatch hloop => exact ⟨queued, h.putMatch hs hloop⟩
  | bindMatch hloop hm => exact ⟨queued, h.bindMatch hloop _⟩
  | @notify place rest hloop hroom =>
    have hfree : Queued { s with tickLoop := .candidates rest } queued :=
      h.setFree (by rw [hloop]; exact ⟨rfl, rfl⟩) ⟨rfl, rfl⟩
    exact ⟨queued, { hfree with }⟩
  | releaseState hloop => exact ⟨queued, h.releaseState hs hw hloop⟩
  | requeueState hloop => exact ⟨queued, h.requeueState hloop⟩
  | releaseEnqueue hloop => exact ⟨_, h.releaseEnqueue hloop⟩
  | @receiveMatch place notifyCh hloop hch =>
    have hreceive : Queued { s with settlementLoop := .driving place } queued :=
      h.setSettlement (by rw [hloop]; rfl) fun todo p => SettlementLoop.noConfusion
    exact ⟨queued, { hreceive with }⟩
  | drive hloop hm => exact ⟨queued, h.drive hloop _⟩
  | settleTicket hloop => exact ⟨queued, h.settleTicket hs hw hloop⟩
  | releaseTickets hloop hm => exact ⟨queued, h.releaseTickets hs hw hloop hm⟩
  | rollbackGet hloop => exact ⟨queued, h.rollbackGet hloop⟩
  | rollbackEnqueue hloop => exact ⟨_, h.rollbackEnqueue hw hloop⟩
  | expire => exact ⟨queued, { h with }⟩

theorem queued_of_run {redis : Option Redis} {es : List Event}
    (hok : RunOk (next S room) State.Orderly { redis } es)
    (hrun : run (next S room) { redis } es = some s) :
    Seated s ∧ Wf s ∧ ∃ queued, Queued s queued := by
  apply run_invariant (P := State.Orderly)
    (I := fun s => Seated s ∧ Wf s ∧ ∃ queued, Queued s queued) ?_ _ hok hrun
  · rintro s e t hok ⟨hs, hw, queued, h⟩ hnext
    have hstep := step_of_next hnext
    exact ⟨hs.step hw (h.checked hok hstep) hstep, hw.step hstep, h.step hs hw hok hstep⟩
  · exact ⟨seated_init redis, wf_init redis, [], queued_init redis⟩

end Steps

/-! ## A player who has left -/

/-- Whose `Dequeue` has succeeded is in no match that was confirmed since, not in one that is just
being put in the table, and has no ticket in the pool. -/
structure StaysOut (s : State) : Prop where
  unmatched : s.matchedAfter = []
  unconfirmed : ∀ m rest, s.tickLoop = .confirmed m rest → ∀ uid ∈ m.allUIDs, uid ∉ s.cancelled
  unpooled : ∀ uid ∈ s.cancelled, ∀ k, ∀ p ∈ s.pool.tickets k, (s.heap p).uid ≠ uid

section StaysOut

variable {s : State} {queued : List Ptr}

theorem Queued.staysOut (h : Queued s queued) (hs : Seated s) : StaysOut s := by
  refine ⟨h.matchedAfter, fun m rest hloop uid huid => ?_,
    fun uid hcancelled k p hp heq => ?_⟩
  · apply h.not_cancelled hs
    rw [hloop]
    exact huid
  · have hcurrent := h.current p (h.filed.mem_iff.mp hp).1
    rw [heq, h.gone uid hcancelled] at hcurrent
    cases hcurrent

/-- In every run of the service in which each ticket is where the step takes it to be, a player
whose `Dequeue` has succeeded stays out of the matches and of the pool until a ticket is put in
the table again. -/
theorem staysOut_of_run (S : SortSlice) (room : Match → Option UInt64) (redis : Option Redis)
    (es : List Event) (s : State) (hok : RunOk (next S room) State.Orderly { redis } es)
    (hrun : run (next S room) { redis } es = some s) : StaysOut s := by
  rcases queued_of_run hok hrun with ⟨hs, -, queued, h⟩
  exact h.staysOut hs

/-- One of three leaves while the tick begins, and the two others are matched. -/
def cancelInTime : List Event :=
  joinQueue 1 0 ++ joinQueue 2 1 ++ joinQueue 3 2 ++
    [.cancelReq 1, .getTicket 0, .setIdle 0, .tick, .matchMode, .poolDequeue 0, .matchMode,
      .deleteTicket 0, .matchMode, .anchor 0, .anchor 0, .nextMatchID 0 false 0, .markMatching,
      .removeFromPool, .markMatching, .removeFromPool, .casConfirm true true, .putMatch]

theorem staysOut_cancelInTime :
    ∃ s, run (next .insertion createRoom) { redis := some {} } cancelInTime = some s ∧
      s.cancelled = [1] ∧ s.records.map Match.allUIDs = [[2, 3]] ∧ StaysOut s := by
  have hplayers : (run (next .insertion createRoom) { redis := some {} } cancelInTime).map
      (fun s => (s.cancelled, s.records.map Match.allUIDs)) = some ([1], [[2, 3]]) := by
    decide +kernel
  rcases Option.map_eq_some_iff.mp hplayers with ⟨s, hrun, hfacts⟩
  rcases Prod.mk.inj hfacts with ⟨hcancelled, hrecords⟩
  have hok :
      RunOk (next .insertion createRoom) State.Orderly { redis := some {} } cancelInTime := by
    decide +kernel
  exact ⟨s, hrun, hcancelled, hrecords,
    staysOut_of_run .insertion createRoom (some {}) cancelInTime s hok hrun⟩

/-- One of two leaves when the tick has found them. -/
def cancelTooLate : List Event :=
  joinQueue 1 0 ++ joinQueue 2 1 ++
    [.tick, .matchMode, .matchMode, .matchMode, .anchor 0, .anchor 0, .cancelReq 1, .getTicket 0,
      .setIdle 0, .poolDequeue 0, .deleteTicket 0, .nextMatchID 0 false 0, .markMatching,
      .removeFromPool, .markMatching, .removeFromPool, .casConfirm true true, .putMatch]

/-- `Dequeue` has succeeded, and the match is confirmed all the same. -/
theorem cancelTooLate_not_staysOut :
    ¬ ∀ (S : SortSlice) (room : Match → Option UInt64) (redis : Option Redis) (es : List Event)
      (s : State), run (next S room) { redis } es = some s → StaysOut s := by
  intro h
  have hplayers : (run (next .insertion createRoom) { redis := some {} } cancelTooLate).map
      (fun s => s.matchedAfter) = some [1] := by decide +kernel
  rcases Option.map_eq_some_iff.mp hplayers with ⟨s, hrun, hafter⟩
  have hout := (h .insertion createRoom (some {}) cancelTooLate s hrun).unmatched
  rw [hafter] at hout
  cases hout

end StaysOut

end Gmaker.Matching
