import Gmaker.Matching.OnePlace

/-!
# Gmaker.Matching.Requests — tickets that come and go

What a call of `Enqueue` or `Dequeue` does to the places of the tickets. A new ticket is put in
the table for a player who is nowhere; it enters the pool; it is set idle where it is in the
pool; it leaves the pool, and then the table.
-/

namespace Gmaker.Matching

open Gmaker.Lib

/-- The player's ticket queues, and it is in the table and in the pool. -/
def State.InQueue (s : State) (p : Ptr) : Prop :=
  s.mem.getTicket (s.heap p).uid = some p ∧ (s.heap p).state = .queuing ∧
    p ∈ s.pool.tickets (s.heap p).slot

instance (s : State) (p : Ptr) : Decidable (s.InQueue p) := inferInstanceAs (Decidable (_ ∧ _ ∧ _))

section Requests

variable {S : SortSlice} {s : State} {uid : UInt64} {queued : List Ptr} {p : Ptr} {i : ℕ}

/-- A player with no ticket that queues, is matched or is leaving has none in the queue. -/
theorem Queued.not_queued (h : Queued s queued) (hs : Seated s) (hw : Wf s)
    (hqueuing : s.ticketState uid ≠ some .queuing) (hmatching : s.ticketState uid ≠ some .matching)
    (hleaves : s.leaving uid = 0) : ∀ p ∈ queued, (s.heap p).uid ≠ uid := by
  rintro p hp rfl
  rcases h.queuing p hp with hstate | htaken | hpos
  · apply hqueuing
    rw [ticketState_of_getTicket (h.current p hp), hstate]
  · rcases h.ticketState_inHand hs hw (h.taken p htaken) with hstate | hstate
    · exact hmatching hstate
    · exact hqueuing hstate
  · rw [hleaves] at hpos
    exact Nat.lt_irrefl 0 hpos

/-- A player none of whose calls is taking a ticket out. -/
theorem leaving_eq_zero_of_calls (hcalls : ∀ d ∈ s.dequeues, d.uid = uid → d.leaving = false) :
    s.leaving uid = 0 := by
  unfold State.leaving
  rw [List.sum_eq_zero_iff]
  intro n hn
  rcases List.mem_map.mp hn with ⟨d, hd, rfl⟩
  unfold DequeueCall.leaves
  refine if_neg fun hleaves => ?_
  rw [hcalls d hd hleaves.1] at hleaves
  exact Bool.false_ne_true hleaves.2

/-- A new ticket of a player who is nowhere. -/
theorem Queued.putTicket (h : Queued s queued) (hs : Seated s) (hw : Wf s) {c : EnqueueCall}
    (now : ℤ) (hc : s.enqueues[i]? = some c) (hpc : c.pc = .putting)
    (hqueuing : s.ticketState c.ticket.uid ≠ some .queuing)
    (hmatching : s.ticketState c.ticket.uid ≠ some .matching)
    (hcalls : ∀ d ∈ s.dequeues, d.uid = c.ticket.uid → d.leaving = false) :
    Queued (s.putTicket i c now) queued := by
  have hleaves := leaving_eq_zero_of_calls hcalls
  have hnot := h.not_queued hs hw hqueuing hmatching hleaves
  have henters := h.entering_eq_zero hqueuing
  have hheap : ∀ p < s.fresh, (s.putTicket i c now).heap p = s.heap p := fun p hp =>
    heap_putTicket s i c now hp
  have hfresh : ∀ {uid p}, s.mem.getTicket uid = some p → p < s.fresh := fun hp =>
    (hw.keyed _ _ hp).1
  have hget : ∀ uid, uid ≠ c.ticket.uid →
      (s.putTicket i c now).mem.getTicket uid = s.mem.getTicket uid := fun uid hne =>
    getTicket_put_of_ne s i now hne
  have hself := ticketState_put_self s i c now
  have hstate : ∀ uid, uid ≠ c.ticket.uid →
      (s.putTicket i c now).ticketState uid = s.ticketState uid := fun uid hne =>
    ticketState_put_of_ne hw i now hne
  have hunseated : (s.tickLoop.unseated.map fun p => ((s.putTicket i c now).heap p).uid) =
      s.tickLoop.unseated.map fun p => (s.heap p).uid := by
    refine List.map_congr_left fun p hp => ?_
    rw [hheap p (mem_fresh_of_unseated hw.loop hp)]
  -- the player enters with this call only
  have hentering : ∀ uid, (s.putTicket i c now).entering uid =
      s.entering uid + if c.ticket.uid = uid then 1 else 0 := by
    intro uid
    have hsum := sum_map_set (y := { c with pc := .pooling s.fresh }) (EnqueueCall.enters uid) hc
    rw [enters_eq_zero (c := c) fun p hp => by rw [hpc] at hp; cases hp] at hsum
    unfold State.entering
    change ((s.enqueues.set i { c with pc := .pooling s.fresh }).map _).sum +
      (s.tickLoop.unseated.map fun p => ((s.putTicket i c now).heap p).uid).count uid + _ = _
    rw [hunseated]
    change _ = _ + (if c.ticket.uid = uid then 1 else 0) at hsum
    change _ + _ + s.settlementLoop.requeued.count uid = _
    omega
  -- no candidate has a ticket of the player
  have hinHand : ∀ p ∈ s.tickLoop.inHand, p < s.fresh ∧ (s.heap p).uid ≠ c.ticket.uid := by
    intro p hp
    refine ⟨hfresh (h.inHand p hp), fun heq => ?_⟩
    rcases h.ticketState_inHand hs hw hp with hstate | hstate
    · exact hmatching (heq ▸ hstate)
    · exact hqueuing (heq ▸ hstate)
  refine { h with
    filed := h.filed.congr fun p hp => by rw [hheap p (hfresh (h.current p hp))]
    current := ?_
    queuing := ?_
    enters_once := ?_
    entering := ?_
    leaving := ?_
    pooling := ?_
    idling := ?_
    removing := ?_
    deleting := ?_
    inHand := ?_
    found := ?_
    gone := ?_
    unroomed := ?_ }
  · intro p hp
    rw [hheap p (hfresh (h.current p hp)), hget _ (hnot p hp)]
    exact h.current p hp
  · intro p hp
    rw [hheap p (hfresh (h.current p hp))]
    exact h.queuing p hp
  · intro uid
    rw [hentering]
    split_ifs with huid
    · rw [← huid, henters]
    · exact h.enters_once uid
  · intro uid hpos
    rw [hentering] at hpos
    by_cases huid : c.ticket.uid = uid
    · refine ⟨huid ▸ hself, fun p hp => ?_⟩
      rw [hheap p (hfresh (h.current p hp)), ← huid]
      exact hnot p hp
    · rw [if_neg huid] at hpos
      rcases h.entering uid hpos with ⟨hqueue, hothers⟩
      refine ⟨(hstate uid (Ne.symm huid)).trans hqueue, fun p hp => ?_⟩
      rw [hheap p (hfresh (h.current p hp))]
      exact hothers p hp
  · intro uid hpos
    change 0 < s.leaving uid at hpos
    have hne : uid ≠ c.ticket.uid := ne_of_apply_ne s.leaving (by omega)
    exact (hstate uid hne).trans (h.leaving uid hpos)
  · intro j d p hd hdpc
    change (s.enqueues.set i _)[j]? = some d at hd
    rw [getElem?_set_at hc] at hd
    split_ifs at hd
    · cases hd
      cases hdpc
      exact getTicket_put_self s i c now
    · have hpos := enters_of_pooling hd hdpc
      rw [hget _ (ne_of_apply_ne s.entering (by omega))]
      exact h.pooling j d p hd hdpc
  · intro j d p hd hdpc
    rcases h.idling j d p hd hdpc with ⟨hlt, huid⟩
    exact ⟨hlt.trans (Nat.lt_succ_self _), by rw [hheap p hlt, huid]⟩
  · intro j d p hd hdpc
    rcases h.removing j d p hd hdpc with ⟨q, hq, huid, hslot⟩
    have hlt := (h.idling j d p hd (.inr hdpc)).1
    refine ⟨q, hq, ?_, ?_⟩
    · rw [hheap q (hfresh (h.current q hq)), huid]
    · rw [hheap q (hfresh (h.current q hq)), hheap p hlt, hslot]
  · intro j d hd hdpc p hp
    rw [hheap p (hfresh (h.current p hp))]
    exact h.deleting j d hd hdpc p hp
  · intro p hp
    rcases hinHand p hp with ⟨hlt, hne⟩
    rw [hheap p hlt, hget _ hne]
    exact h.inHand p hp
  · intro todo p hloop
    rcases h.found todo p hloop with ⟨uid, huid, hp⟩
    refine ⟨uid, huid, ?_⟩
    have hpos := enters_of_requeued (s := s) hloop (List.mem_of_mem_head? huid)
    rw [hget uid (ne_of_apply_ne s.entering (by omega))]
    exact hp
  · intro uid huid
    rcases List.mem_filter.mp huid with ⟨huid, hne⟩
    rw [hget uid (by simpa using hne)]
    exact h.gone uid huid
  · intro uid
    by_cases huid : uid = c.ticket.uid
    · rw [huid, hself]
      decide
    · rw [hstate uid huid]
      exact h.unroomed uid

theorem Queued.poolEnqueue (h : Queued s queued) (hw : Wf s) {c : EnqueueCall}
    (hc : s.enqueues[i]? = some c) (hpc : c.pc = .pooling p) :
    Queued (s.poolEnqueue S i c p) (p :: queued) := by
  have hp := h.pooling i c p hc hpc
  have huid := (hw.keyed _ _ hp).2
  refine h.enqueue (S := S) (s.enqueues.set i { c with pc := .returned none }) s.tickLoop
    s.settlementLoop (huid.symm ▸ hp)
    (fun uid => ?_) rfl (fun j d q hd hdpc => ?_) h.inHand h.given h.taken h.found
  · have hsum := entering_setEnqueue hc (.returned none) uid
    rw [enters_eq_zero (c := { c with pc := .returned none }) fun p hp => by cases hp] at hsum
    have hone : c.enters uid = if c.ticket.uid = uid then 1 else 0 := by
      unfold EnqueueCall.enters
      rw [hpc]
    rw [huid, ← hone]
    exact hsum
  · rw [getElem?_set_at hc] at hd
    split_ifs at hd
    · cases hd
      cases hdpc
    · exact h.pooling j d q hd hdpc

/-- A ticket in the queue is called off. -/
theorem Queued.setIdle (h : Queued s queued) (hw : Wf s) {c : DequeueCall}
    (hc : s.dequeues[i]? = some c) (hpc : c.pc = .idling p)
    (hok : ∀ q ∈ s.mem.getTicket c.uid, (s.heap q).state = .queuing →
      s.InQueue q ∧ (s.heap q).slot = (s.heap p).slot) :
    Queued (s.setIdle i c p) queued := by
  have hnot : c.leaving = false := by
    unfold DequeueCall.leaving
    rw [hpc]
  unfold State.setIdle
  cases hupdate : s.mem.updateTicketState s.heap c.uid .idle with
  | error msg => exact h.setDequeue hc hnot rfl fun p hp => by cases hp
  | ok heap =>
    dsimp only
    rcases of_updateTicketState hupdate with ⟨q, hq, hcan, rfl⟩
    have huid := (hw.keyed _ _ hq).2
    have hqueuing : (s.heap q).state = .queuing := by
      rcases TicketState.canTransitionTo_idle.mp hcan with hstate | hstate
      · exact hstate
      · exact absurd ((ticketState_of_getTicket hq).trans (congrArg some hstate)) (h.unroomed _)
    rcases hok q hq hqueuing with ⟨⟨hget, -, hmem⟩, hslot⟩
    have hqueued : q ∈ queued := (h.filed.mem_iff.mp hmem).1
    have hsame := setState_same s.heap q .idle
    have hstate := ticketState_setState hw.keyed hget .idle
    -- two calls for one player: only one finds the ticket queuing
    have hfree : s.leaving c.uid = 0 := by
      apply h.leaving_eq_zero
      rw [ticketState_of_getTicket hq, hqueuing]
      decide
    have hleaving : ∀ uid, (s.setDequeue i c (.removing p)).leaving uid =
        s.leaving uid + if c.uid = uid then 1 else 0 := by
      intro uid
      have hsum := leaving_setDequeue hc (.removing p) uid
      rw [leaves_of_not_leaving hnot] at hsum
      have hone : { c with pc := .removing p }.leaves uid = if c.uid = uid then 1 else 0 := by
        unfold DequeueCall.leaves
        simp [DequeueCall.leaving]
      rwa [hone] at hsum
    have huids : (s.tickLoop.unseated.map fun p => (s.heap.setState q .idle p).uid) =
        s.tickLoop.unseated.map fun p => (s.heap p).uid :=
      List.map_congr_left fun p _ => (hsame p).1
    have hentering : ∀ uid, { s.setDequeue i c (.removing p) with
        heap := s.heap.setState q .idle }.entering uid = s.entering uid := by
      intro uid
      unfold State.entering
      dsimp only
      change
        _ + (s.tickLoop.unseated.map fun p => (s.heap.setState q .idle p).uid).count uid + _ = _
      rw [huids]
      rfl
    refine { h with
      filed := h.filed.congr fun p _ => (hsame p).2
      current := fun p hp => (hsame p).1.symm ▸ h.current p hp
      queuing := ?_
      enters_once := fun uid => (hentering uid).trans_le (h.enters_once uid)
      entering := ?_
      leaves_once := ?_
      leaving := ?_
      idling := ?_
      removing := ?_
      deleting := ?_
      inHand := fun p hp => (hsame p).1.symm ▸ h.inHand p hp
      unroomed := ?_ }
    · intro r hr
      have hpos := hleaving (s.heap r).uid
      change (s.heap.setState q .idle r).state = _ ∨ _ ∨
        0 < (s.setDequeue i c (.removing p)).leaving (s.heap.setState q .idle r).uid
      rw [(hsame r).1]
      by_cases hrq : r = q
      · subst hrq
        rw [if_pos huid.symm] at hpos
        exact .inr (.inr (by omega))
      · have hkeep : s.heap.setState q .idle r = s.heap r := Function.update_of_ne hrq _ _
        rw [hkeep]
        rcases h.queuing r hr with hqueue | htaken | hleaves
        · exact .inl hqueue
        · exact .inr (.inl htaken)
        · exact .inr (.inr (by omega))
    · intro uid hpos
      rcases h.entering uid (hentering uid ▸ hpos) with ⟨hqueue, hothers⟩
      refine ⟨?_, fun r hr => ?_⟩
      · change s.mem.stateOf (s.heap.setState q .idle) uid = _
        rw [hstate, if_neg fun heq => hothers q hqueued heq.symm]
        exact hqueue
      · rw [(hsame r).1]
        exact hothers r hr
    · intro uid
      change (s.setDequeue i c (.removing p)).leaving uid ≤ 1
      rw [hleaving]
      split_ifs with heq
      · rw [← heq, hfree]
      · exact h.leaves_once uid
    · intro uid hpos
      change 0 < (s.setDequeue i c (.removing p)).leaving uid at hpos
      change s.mem.stateOf (s.heap.setState q .idle) uid = _
      rw [hstate]
      rw [hleaving] at hpos
      split_ifs with heq
      · rfl
      · rw [if_neg fun h => heq (huid.symm ▸ h.symm)] at hpos
        exact h.leaving uid hpos
    · intro j d r hd hdpc
      rw [(hsame r).1]
      rcases of_getElem?_set hc hd with rfl | ⟨-, hold⟩
      · rcases hdpc with hidle | hremove
        · cases hidle
        · cases hremove
          exact h.idling i c p hc (.inl hpc)
      · exact h.idling j d r hold hdpc
    · intro j d r hd hdpc
      rcases of_getElem?_set hc hd with rfl | ⟨-, hold⟩
      · cases hdpc
        refine ⟨q, hqueued, ?_, ?_⟩
        · rw [(hsame q).1]
          exact huid
        · rw [(hsame q).2, (hsame p).2]
          exact hslot
      · rcases h.removing j d r hold hdpc with ⟨r', hr', hruid, hrslot⟩
        refine ⟨r', hr', ?_, ?_⟩
        · rw [(hsame r').1]
          exact hruid
        · rw [(hsame r').2, (hsame r).2]
          exact hrslot
    · intro j d hd hdpc r hr
      rw [(hsame r).1]
      rcases of_getElem?_set hc hd with rfl | ⟨-, hold⟩
      · cases hdpc
      · exact h.deleting j d hold hdpc r hr
    · intro uid
      change s.mem.stateOf (s.heap.setState q .idle) uid ≠ _
      rw [hstate]
      split_ifs
      · decide
      · exact h.unroomed uid

/-- Who is idle leaves the pool. -/
theorem Queued.poolDequeue (h : Queued s queued) {c : DequeueCall}
    (hc : s.dequeues[i]? = some c) (hpc : c.pc = .removing p) :
    ∃ queued, Queued (s.poolDequeue i c p) queued := by
  unfold State.poolDequeue
  cases hpool : s.pool.dequeue s.heap p with
  | none => exact ⟨queued, { h with }⟩
  | some pool =>
    -- the ticket looked up may be an older one: the pool goes by the player and the bucket
    rcases h.removing i c p hc hpc with ⟨q, hq, huid, hslot⟩
    have hp := h.idling i c p hc (.inr hpc)
    rw [BucketPool.dequeue_congr s.pool (hp.2.trans huid.symm) hslot.symm] at hpool
    have hcall := leaving_of_removing hpc
    have hleaving : ∀ uid, (s.setDequeue i c .deleting).leaving uid = s.leaving uid := by
      intro uid
      have hsum := leaving_setDequeue hc .deleting uid
      have hsame : { c with pc := .deleting }.leaves uid = c.leaves uid := by
        unfold DequeueCall.leaves
        rw [hcall]
        rfl
      omega
    -- no other call takes out this player's ticket
    have hother : ∀ {j : ℕ} {d : DequeueCall}, j ≠ i → s.dequeues[j]? = some d →
        d.leaving = true → d.uid ≠ c.uid := by
      intro j d hj hd hdleaving heq
      have hsum := leaving_setDequeue hc (.returned none) c.uid
      have hd' : (s.setDequeue i c (.returned none)).dequeues[j]? = some d := by
        change (s.dequeues.set i _)[j]? = some d
        rw [getElem?_set_at hc, if_neg hj]
        exact hd
      have hpos := leaves_of_leaving hd' hdleaving
      have hone := h.leaves_once c.uid
      have hself : c.leaves c.uid = 1 := if_pos ⟨rfl, hcall⟩
      rw [heq] at hpos
      rw [leaves_of_not_leaving (c := { c with pc := .returned none }) rfl, hself] at hsum
      omega
    refine ⟨queued.erase q, { h with
      filed := h.dequeue (h.current q hq) hpool
      nodup := h.nodup.erase q
      current := fun r hr => h.current r (List.mem_of_mem_erase hr)
      queuing := ?_
      entering := ?_
      leaves_once := fun uid => (hleaving uid).trans_le (h.leaves_once uid)
      leaving := fun uid hpos => h.leaving uid (hleaving uid ▸ hpos)
      idling := ?_
      removing := ?_
      deleting := ?_ }⟩
    · intro r hr
      change _ ∨ _ ∨ 0 < (s.setDequeue i c .deleting).leaving (s.heap r).uid
      rw [hleaving]
      exact h.queuing r (List.mem_of_mem_erase hr)
    · intro uid hpos
      rcases h.entering uid hpos with ⟨hqueue, hothers⟩
      exact ⟨hqueue, fun r hr => hothers r (List.mem_of_mem_erase hr)⟩
    · intro j d r hd hdpc
      rcases of_getElem?_set hc hd with rfl | ⟨-, hold⟩
      · rcases hdpc with hidle | hremove
        · cases hidle
        · cases hremove
      · exact h.idling j d r hold hdpc
    · intro j d r hd hdpc
      rcases of_getElem?_set hc hd with rfl | ⟨hj, hold⟩
      · cases hdpc
      · rcases h.removing j d r hold hdpc with ⟨r', hr', hruid, hrslot⟩
        have hne : d.uid ≠ c.uid := hother hj hold (leaving_of_removing hdpc)
        refine ⟨r', (List.mem_erase_of_ne ?_).mpr hr', hruid, hrslot⟩
        intro heq
        rw [heq, huid] at hruid
        exact hne hruid.symm
    · intro j d hd hdpc r hr
      rcases of_getElem?_set hc hd with rfl | ⟨-, hold⟩
      · intro heq
        have hrq := h.inj (h.current q hq) (List.mem_of_mem_erase hr) (heq.trans huid.symm)
        rw [hrq] at hr
        exact h.nodup.not_mem_erase hr
      · exact h.deleting j d hold hdpc r (List.mem_of_mem_erase hr)

/-- And its ticket is deleted. -/
theorem Queued.deleteTicket (h : Queued s queued) (hs : Seated s) (hw : Wf s) {c : DequeueCall}
    (hc : s.dequeues[i]? = some c) (hpc : c.pc = .deleting) :
    Queued (s.deleteTicket i c) queued := by
  have hcall := leaving_of_deleting hpc
  have hidle := h.leaving _ (leaves_of_leaving hc hcall)
  have hleaving : ∀ uid, (s.deleteTicket i c).leaving uid + (if c.uid = uid then 1 else 0) =
      s.leaving uid := by
    intro uid
    have hsum := leaving_setDequeue hc (.returned none) uid
    rw [leaves_of_not_leaving (c := { c with pc := .returned none }) rfl] at hsum
    have hone : c.leaves uid = if c.uid = uid then 1 else 0 := by
      unfold DequeueCall.leaves
      rw [hcall]
      simp
    rw [hone] at hsum
    exact hsum
  have hqueued := h.deleting i c hc hpc
  -- whose ticket enters is queuing, and this one is idle
  have henters : ∀ uid, 0 < s.entering uid → uid ≠ c.uid := by
    rintro uid hpos rfl
    rw [(h.entering _ hpos).1] at hidle
    cases hidle
  refine { h with
    current := ?_
    queuing := ?_
    entering := ?_
    leaves_once := ?_
    leaving := ?_
    pooling := ?_
    idling := ?_
    removing := ?_
    deleting := ?_
    inHand := ?_
    found := ?_
    gone := ?_
    unroomed := ?_ }
  · intro p hp
    exact (getTicket_delete_of_ne s i (hqueued p hp)).trans (h.current p hp)
  · intro p hp
    have hsum := hleaving (s.heap p).uid
    rw [if_neg fun heq => hqueued p hp heq.symm, Nat.add_zero] at hsum
    change _ ∨ _ ∨ 0 < (s.deleteTicket i c).leaving (s.heap p).uid
    rw [hsum]
    exact h.queuing p hp
  · intro uid hpos
    rcases h.entering uid hpos with ⟨hqueue, hothers⟩
    exact ⟨(ticketState_delete_of_ne s i (henters uid hpos)).trans hqueue, hothers⟩
  · intro uid
    have hsum := hleaving uid
    have hone := h.leaves_once uid
    omega
  · intro uid hpos
    have hsum := hleaving uid
    have hone := h.leaves_once uid
    have hne : uid ≠ c.uid := by
      intro heq
      rw [if_pos heq.symm] at hsum
      omega
    exact (ticketState_delete_of_ne s i hne).trans (h.leaving uid (by omega))
  · intro j d p hd hdpc
    exact (getTicket_delete_of_ne s i (henters _ (enters_of_pooling hd hdpc))).trans
      (h.pooling j d p hd hdpc)
  · intro j d p hd hdpc
    rcases of_getElem?_set hc hd with rfl | ⟨-, hold⟩
    · rcases hdpc with hidle | hremove
      · cases hidle
      · cases hremove
    · exact h.idling j d p hold hdpc
  · intro j d p hd hdpc
    rcases of_getElem?_set hc hd with rfl | ⟨-, hold⟩
    · cases hdpc
    · exact h.removing j d p hold hdpc
  · intro j d hd hdpc
    rcases of_getElem?_set hc hd with rfl | ⟨-, hold⟩
    · cases hdpc
    · exact h.deleting j d hold hdpc
  · intro p hp
    have hne : (s.heap p).uid ≠ c.uid := by
      intro heq
      rw [← heq] at hidle
      exact h.not_idle_inHand hs hw hp hidle
    exact (getTicket_delete_of_ne s i hne).trans (h.inHand p hp)
  · intro todo p hloop
    rcases h.found todo p hloop with ⟨uid, huid, hp⟩
    have hpos := enters_of_requeued (s := s) hloop (List.mem_of_mem_head? huid)
    exact ⟨uid, huid, (getTicket_delete_of_ne s i (henters uid hpos)).trans hp⟩
  · intro uid huid
    change (s.mem.deleteTicket c.uid).getTicket uid = none
    rw [MemoryStore.getTicket_deleteTicket]
    split_ifs with heq
    · rfl
    · exact h.gone uid ((List.mem_cons.mp huid).resolve_left heq)
  · intro uid
    by_cases heq : uid = c.uid
    · intro hroomed
      change ((s.mem.deleteTicket c.uid).getTicket uid).map _ = _ at hroomed
      rw [MemoryStore.getTicket_deleteTicket, if_pos heq] at hroomed
      cases hroomed
    · rw [ticketState_delete_of_ne s i heq]
      exact h.unroomed uid

end Requests

end Gmaker.Matching
