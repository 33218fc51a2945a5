import Gmaker.Lib.Threads
import Gmaker.Matching.Service

/-!
# Gmaker.Matching.ServiceWf — what holds in every run of the service

Whatever the requests and failures, pointers are handed out once, a ticket keeps its player,
mode and MMR, the table and the pool refer to it by these, and every candidate is two teams of
the size its mode asks for. Which tickets are queuing is another matter: nothing here is about
states.
-/

namespace Gmaker.Matching

open Gmaker.Lib

/-! ## What a ticket keeps -/

/-- The tickets below `fresh` are the same players', filed in the same place. -/
def Alike (fresh : Ptr) (h h' : Heap) : Prop :=
  ∀ p < fresh, (h' p).uid = (h p).uid ∧ (h' p).slot = (h p).slot

section Alike

variable {fresh : Ptr} {h h' h'' : Heap}

theorem Alike.refl (fresh : Ptr) (h : Heap) : Alike fresh h h := fun _ _ => ⟨rfl, rfl⟩

theorem Alike.trans (hab : Alike fresh h h') (hbc : Alike fresh h' h'') : Alike fresh h h'' := by
  intro p hp
  exact ⟨(hbc p hp).1.trans (hab p hp).1, (hbc p hp).2.trans (hab p hp).2⟩

theorem Alike.mode (ha : Alike fresh h h') {p : Ptr} (hp : p < fresh) :
    (h' p).mode = (h p).mode := congrArg Prod.fst (ha p hp).2

/-- A ticket is replaced by one of the same player, filed in the same place. -/
theorem alike_update (fresh : Ptr) {p : Ptr} {t : Ticket} (huid : t.uid = (h p).uid)
    (hslot : t.slot = (h p).slot) : Alike fresh h (Function.update h p t) := by
  intro q _
  by_cases hq : q = p
  · subst hq
    rw [Function.update_self]
    exact ⟨huid, hslot⟩
  · rw [Function.update_of_ne hq]
    exact ⟨rfl, rfl⟩

/-- A pointer that was not handed out yet gets its ticket. -/
theorem alike_alloc (h : Heap) (fresh : Ptr) (t : Ticket) :
    Alike fresh h (Function.update h fresh t) := by
  intro q hq
  rw [Function.update_of_ne (Nat.ne_of_lt hq)]
  exact ⟨rfl, rfl⟩

/-- Updates of tickets one after another. -/
theorem alike_foldl (fresh : Ptr) {f : Heap → UInt64 → Heap}
    (hf : ∀ h uid, Alike fresh h (f h uid)) (uids : List UInt64) :
    Alike fresh h (uids.foldl f h) := by
  induction uids generalizing h with
  | nil => exact .refl fresh h
  | cons uid uids ih => exact (hf h uid).trans ih

theorem alike_tryTicketState (fresh : Ptr) (h : Heap) (m : MemoryStore) (uid : UInt64)
    (target : TicketState) : Alike fresh h (m.tryTicketState h uid target) := by
  rcases m.tryTicketState_eq h uid target with ⟨p, -, -, heq⟩ | ⟨heq, -⟩
  · rw [heq]
    exact alike_update fresh rfl rfl
  · rw [heq]
    exact .refl fresh h

theorem alike_bindTickets (fresh : Ptr) (h : Heap) (m : MemoryStore) (uids : List UInt64)
    (matchID : UInt64) : Alike fresh h (m.bindTickets h uids matchID) := by
  refine alike_foldl fresh (fun h uid => ?_) uids
  cases m.getTicket uid with
  | none => exact .refl fresh h
  | some p => exact alike_update fresh rfl rfl

theorem alike_releaseStates (fresh : Ptr) (h : Heap) (m : MemoryStore) (uids : List UInt64) :
    Alike fresh h (m.releaseStates h uids) := by
  refine alike_foldl fresh (fun h uid => ?_) uids
  cases m.getTicket uid with
  | none => exact .refl fresh h
  | some p => exact alike_update fresh rfl rfl

theorem Engine.Formed.mono {fresh' : Ptr} {c : Candidate} {mode : Int32}
    (hc : Engine.Formed h fresh c mode) (ha : Alike fresh h h') (hle : fresh ≤ fresh') :
    Engine.Formed h' fresh' c mode where
  teamA := hc.teamA
  teamB := hc.teamB
  tickets := by
    intro p hp
    obtain ⟨hlt, hmode⟩ := hc.tickets p hp
    exact ⟨hlt.trans_le hle, (ha.mode hlt).trans hmode⟩

end Alike

/-! ## The invariant -/

/-- Every candidate of the list is two teams of some mode. -/
def AllFormed (h : Heap) (fresh : Ptr) (l : List Candidate) : Prop :=
  ∀ c ∈ l, ∃ mode, Engine.Formed h fresh c mode

/-- Two full teams of the match's mode. -/
def Match.Full (m : Match) : Prop := m.allUIDs.length = 2 * Engine.teamLength m.mode

/-- The match has the candidate's players. -/
structure Drawn (h : Heap) (fresh : Ptr) (c : Candidate) (m : Match) : Prop where
  formed : Engine.Formed h fresh c m.mode
  allUIDs : m.allUIDs = c.tickets.map fun p => (h p).uid

/-- What the tick loop holds, wherever it is. -/
def TickLoop.Wf (h : Heap) (fresh : Ptr) : TickLoop → Prop
  | .candidates todo => AllFormed h fresh todo
  | .matchModes _ found => AllFormed h fresh found
  | .anchors mode _ todo search _ found =>
    (∀ p ∈ todo, p < fresh ∧ (h p).mode = mode) ∧
      (∀ c ∈ search.results, Engine.Formed h fresh c mode) ∧ AllFormed h fresh found
  | .marking c m _ _ rest => Drawn h fresh c m ∧ AllFormed h fresh rest
  | .confirmed m rest => m.Full ∧ AllFormed h fresh rest
  | .binding _ rest | .sending _ rest => AllFormed h fresh rest
  | .releasing todo _ _ rest => (∀ p ∈ todo, p < fresh) ∧ AllFormed h fresh rest

/-- The service is well formed. -/
structure Wf (s : State) : Prop where
  keyed : s.mem.Keyed s.heap s.fresh
  filed : s.pool.Filed s.heap s.fresh
  pooling : ∀ (i : ℕ) (c : EnqueueCall) (p : Ptr), s.enqueues[i]? = some c → c.pc = .pooling p →
    p < s.fresh
  loop : s.tickLoop.Wf s.heap s.fresh
  requeuing : ∀ todo p, s.settlementLoop = .requeuing todo (some p) → p < s.fresh
  full : ∀ m ∈ s.records, m.Full

section Parts

variable {h h' : Heap} {fresh fresh' : Ptr}

theorem AllFormed.mono {l : List Candidate} (hl : AllFormed h fresh l) (ha : Alike fresh h h')
    (hle : fresh ≤ fresh') : AllFormed h' fresh' l := by
  intro c hc
  obtain ⟨mode, hformed⟩ := hl c hc
  exact ⟨mode, hformed.mono ha hle⟩

theorem Drawn.mono {c : Candidate} {m : Match} (hd : Drawn h fresh c m) (ha : Alike fresh h h')
    (hle : fresh ≤ fresh') : Drawn h' fresh' c m where
  formed := hd.formed.mono ha hle
  allUIDs := by
    rw [hd.allUIDs]
    refine List.map_congr_left fun p hp => ?_
    exact ((ha p (hd.formed.tickets p hp).1).1).symm

/-- A match with a candidate's players is full. -/
theorem Drawn.full {c : Candidate} {m : Match} (hd : Drawn h fresh c m) : m.Full := by
  unfold Match.Full
  rw [hd.allUIDs, List.length_map, Candidate.tickets, List.length_append, hd.formed.teamA,
    hd.formed.teamB]
  omega

theorem TickLoop.Wf.mono {loop : TickLoop} (hw : loop.Wf h fresh) (ha : Alike fresh h h')
    (hle : fresh ≤ fresh') : loop.Wf h' fresh' := by
  cases loop with
  | candidates todo => exact AllFormed.mono hw ha hle
  | matchModes todo found => exact AllFormed.mono hw ha hle
  | anchors mode queueLen todo search later found =>
    obtain ⟨htodo, hresults, hfound⟩ := hw
    refine ⟨fun p hp => ?_, fun c hc => (hresults c hc).mono ha hle, hfound.mono ha hle⟩
    obtain ⟨hlt, hmode⟩ := htodo p hp
    exact ⟨hlt.trans_le hle, (ha.mode hlt).trans hmode⟩
  | marking c m marked removing rest => exact ⟨hw.1.mono ha hle, hw.2.mono ha hle⟩
  | confirmed m rest => exact ⟨hw.1, hw.2.mono ha hle⟩
  | binding place rest => exact AllFormed.mono hw ha hle
  | sending place rest => exact AllFormed.mono hw ha hle
  | releasing todo stage marked rest =>
    exact ⟨fun p hp => (hw.1 p hp).trans_le hle, hw.2.mono ha hle⟩

/-- The release of what is left of a candidate. -/
theorem wf_release {todo : List Ptr} {marked : Bool} {rest : List Candidate}
    (htodo : ∀ p ∈ todo, p < fresh) (hrest : AllFormed h fresh rest) :
    (State.release todo marked rest).Wf h fresh := by
  unfold State.release
  split_ifs
  · exact hrest
  · exact ⟨htodo, hrest⟩

theorem wf_afterMode {later : List Int32} {found : List Candidate} (hfound : AllFormed h fresh found) :
    (State.afterMode later found).Wf h fresh := by
  unfold State.afterMode
  split_ifs
  · exact hfound
  · exact hfound

end Parts

theorem wf_init (redis : Option Redis) : Wf { redis } where
  keyed := by
    intro uid p hp
    cases hp
  filed := BucketPool.filed_empty
  pooling := by
    intro i c p hc
    cases hc
  loop := by
    intro c hc
    cases hc
  requeuing := by
    intro todo p hloop
    cases hloop
  full := by
    intro m hm
    cases hm

/-! ## Every step -/

section Steps

variable {S : SortSlice} {room : Match → Option UInt64} {s t : State} {e : Event}

/-- The tickets change, but whose they are and where they are filed stays. -/
theorem Wf.loop_of (hw : Wf s) {tickLoop : TickLoop} (hloop : s.tickLoop = tickLoop) :
    tickLoop.Wf s.heap s.fresh := by
  rw [← hloop]
  exact hw.loop

theorem Wf.setHeap (hw : Wf s) {heap : Heap} (ha : Alike s.fresh s.heap heap) :
    Wf { s with heap } :=
  { hw with
    keyed := hw.keyed.mono le_rfl fun p hp => (ha p hp).1
    filed := hw.filed.mono le_rfl fun p hp => (ha p hp).2
    loop := hw.loop.mono ha le_rfl }

theorem Wf.setLoop (hw : Wf s) {tickLoop : TickLoop} (hloop : tickLoop.Wf s.heap s.fresh) :
    Wf { s with tickLoop } :=
  { hw with loop := hloop }

/-- A call goes on to a place where it has no ticket in hand. -/
theorem Wf.setEnqueue (hw : Wf s) {i : ℕ} {c : EnqueueCall} {pc : EnqueuePc}
    (hc : s.enqueues[i]? = some c) (hpc : ∀ p, pc = .pooling p → p < s.fresh) :
    Wf (s.setEnqueue i c pc) :=
  { hw with
    pooling := by
      intro j d p hd hdpc
      change (s.enqueues.set i _)[j]? = some d at hd
      rw [getElem?_set_at hc] at hd
      split_ifs at hd
      · cases hd
        exact hpc p hdpc
      · exact hw.pooling j d p hd hdpc }

theorem Wf.setSettlement (hw : Wf s) {settlementLoop : SettlementLoop}
    (hloop : ∀ todo p, settlementLoop = .requeuing todo (some p) → p < s.fresh) :
    Wf { s with settlementLoop } :=
  { hw with requeuing := hloop }

/-- The settlement loop goes on without a ticket in hand. -/
theorem settle_ne (todo : List UInt64) {todo' : List UInt64} {p : Ptr} :
    State.settle todo ≠ .requeuing todo' (some p) := by
  unfold State.settle
  split_ifs
  · exact SettlementLoop.noConfusion
  · exact SettlementLoop.noConfusion

theorem requeue_ne (todo : List UInt64) {todo' : List UInt64} {p : Ptr} :
    State.requeue todo ≠ .requeuing todo' (some p) := by
  unfold State.requeue
  split_ifs
  · exact SettlementLoop.noConfusion
  · intro h
    cases h

theorem Wf.setPool (hw : Wf s) {pool : BucketPool} (hpool : pool.Filed s.heap s.fresh) :
    Wf { s with pool } :=
  { hw with filed := hpool }

/-- A match that goes on keeps its players. -/
theorem mem_updateMatchState {m : MemoryStore} {all : List Match} {matchID : UInt64}
    {target : MatchState} {mt : Match} (hm : mt ∈ m.updateMatchState all matchID target) :
    ∃ mt' ∈ all, mt.allUIDs = mt'.allUIDs ∧ mt.mode = mt'.mode := by
  unfold MemoryStore.updateMatchState at hm
  cases hplace : m.matchById.lookup matchID with
  | none =>
    rw [hplace] at hm
    exact ⟨mt, hm, rfl, rfl⟩
  | some place =>
    simp only [hplace] at hm
    obtain ⟨j, hj⟩ := List.mem_iff_getElem?.mp hm
    rw [List.getElem?_modify] at hj
    obtain ⟨mt', hmt', heq⟩ := Option.map_eq_some_iff.mp hj
    refine ⟨mt', List.mem_of_getElem? hmt', ?_⟩
    rw [← heq]
    split_ifs
    all_goals exact ⟨rfl, rfl⟩

theorem Wf.matchTo (hw : Wf s) (place : ℕ) (m : Match) (target : MatchState) {f : Match → Match}
    (hf : ∀ m, (f m).allUIDs = m.allUIDs ∧ (f m).mode = m.mode) :
    Wf (s.matchTo place m target f) :=
  { hw with
    full := by
      intro mt hmt
      obtain ⟨j, hj⟩ := List.mem_iff_getElem?.mp hmt
      change ((s.mem.updateMatchState s.records m.id target).modify place _)[j]? = some mt at hj
      rw [List.getElem?_modify] at hj
      obtain ⟨mt', hmt', heq⟩ := Option.map_eq_some_iff.mp hj
      obtain ⟨old, hold, huids, hmode⟩ := mem_updateMatchState (List.mem_of_getElem? hmt')
      have hfull := hw.full old hold
      unfold Match.Full at hfull ⊢
      rw [← heq]
      split_ifs
      · rw [(hf _).1, (hf _).2]
        change mt'.allUIDs.length = 2 * Engine.teamLength mt'.mode
        rw [huids, hmode]
        exact hfull
      · change mt'.allUIDs.length = 2 * Engine.teamLength mt'.mode
        rw [huids, hmode]
        exact hfull }

/-- The steps of `Enqueue`. -/
theorem Wf.putTicket (hw : Wf s) {i : ℕ} {c : EnqueueCall} (hc : s.enqueues[i]? = some c)
    (now : ℤ) : Wf (s.putTicket i c now) := by
  have ha := alike_alloc s.heap s.fresh
    { c.ticket with state := .queuing, enqueueAt := now, priority := 0 }
  have hle : s.fresh ≤ s.fresh + 1 := Nat.le_succ _
  refine ⟨?_, hw.filed.mono hle fun p hp => (ha p hp).2, ?_, hw.loop.mono ha hle, ?_, hw.full⟩
  · intro uid p hp
    change (s.mem.putTicket c.ticket.uid s.fresh).getTicket uid = some p at hp
    rw [MemoryStore.getTicket_putTicket] at hp
    split_ifs at hp with huid
    · cases hp
      refine ⟨Nat.lt_succ_self _, ?_⟩
      change (Function.update s.heap s.fresh _ s.fresh).uid = uid
      rw [Function.update_self, huid]
    · obtain ⟨hlt, hu⟩ := hw.keyed uid p hp
      exact ⟨hlt.trans_le hle, (ha p hlt).1.trans hu⟩
  · intro j d p hd hpc
    change (s.enqueues.set i _)[j]? = some d at hd
    rw [getElem?_set_at hc] at hd
    split_ifs at hd
    · cases hd
      cases hpc
      exact Nat.lt_succ_self _
    · exact (hw.pooling j d p hd hpc).trans_le hle
  · intro todo p hloop
    exact (hw.requeuing todo p hloop).trans_le hle

theorem Wf.setIdle (hw : Wf s) (i : ℕ) (c : DequeueCall) (p : Ptr) : Wf (s.setIdle i c p) := by
  unfold State.setIdle
  cases hupdate : s.mem.updateTicketState s.heap c.uid .idle with
  | error msg => exact { hw with }
  | ok heap =>
    have ha : Alike s.fresh s.heap heap := by
      have htry := alike_tryTicketState s.fresh s.heap s.mem c.uid .idle
      unfold MemoryStore.tryTicketState at htry
      rw [hupdate] at htry
      exact htry
    exact { hw.setHeap ha with }

theorem Wf.poolDequeue (hw : Wf s) (i : ℕ) (c : DequeueCall) (p : Ptr) :
    Wf (s.poolDequeue i c p) := by
  unfold State.poolDequeue
  cases hpool : s.pool.dequeue s.heap p with
  | none => exact { hw with }
  | some pool => exact { hw.setPool (hw.filed.dequeue hpool) with }

theorem Wf.deleteTicket (hw : Wf s) (i : ℕ) (c : DequeueCall) : Wf (s.deleteTicket i c) :=
  { hw with
    keyed := by
      intro uid p hp
      change (s.mem.deleteTicket c.uid).getTicket uid = some p at hp
      rw [MemoryStore.getTicket_deleteTicket] at hp
      split_ifs at hp
      exact hw.keyed uid p hp }

/-- What the pool answers are tickets of the mode. -/
theorem Wf.queryRange (hw : Wf s) {mode centerMMR radius : Int32} {p : Ptr}
    (hp : p ∈ s.pool.queryRange s.heap mode centerMMR radius) :
    p < s.fresh ∧ (s.heap p).mode = mode := by
  obtain ⟨-, -, index, b, hb, hmem⟩ := BucketPool.mem_queryRange hp
  obtain ⟨hlt, hslot⟩ := hw.filed _ b hb p hmem
  exact ⟨hlt, congrArg Prod.fst hslot⟩

theorem Wf.matchMode (hw : Wf s) {mode : Int32} {later : List Int32} {found : List Candidate}
    (hloop : s.tickLoop = .matchModes (mode :: later) found) :
    Wf (s.matchMode S mode later found) := by
  have hfound : AllFormed s.heap s.fresh found := hw.loop_of hloop
  refine hw.setLoop ?_
  split_ifs
  · exact wf_afterMode hfound
  · refine ⟨fun p hp => hw.queryRange (S.mem_sort.mp hp), fun c hc => ?_, hfound⟩
    cases hc

theorem Wf.anchor (hw : Wf s) {mode : Int32} {queueLen : ℕ} {p : Ptr} {todo : List Ptr}
    {search : Engine.Search} {later : List Int32} {found : List Candidate} (now : ℤ)
    (hloop : s.tickLoop = .anchors mode queueLen (p :: todo) search later found) :
    Wf (s.anchor S mode queueLen p todo search later found now) := by
  obtain ⟨htodo, hresults, hfound⟩ := hw.loop_of hloop
  have hquery : ∀ q ∈ s.pool.queryRange s.heap mode (s.heap p).mmr
        (Engine.anchorRadius queueLen ((s.heap p).waitMs now) false),
      q < s.fresh ∧ (s.heap q).mode = mode := fun q hq => hw.queryRange hq
  have hnew := Engine.Search.formed_anchor (S := S) (s := search) hresults
    (htodo p List.mem_cons_self) hquery
  refine hw.setLoop ?_
  split_ifs
  · refine wf_afterMode fun c hc => ?_
    rcases List.mem_append.mp hc with hold | hfresh
    · exact hfound c hold
    · exact ⟨mode, hnew c hfresh⟩
  · exact ⟨fun q hq => htodo q (List.mem_cons_of_mem p hq), hnew, hfound⟩

theorem Wf.nextMatchID (hw : Wf s) {c : Candidate} {rest : List Candidate}
    (hloop : s.tickLoop = .candidates (c :: rest)) (nano : UInt64) (fails : Bool) (now : ℤ) :
    Wf (s.nextMatchID c rest nano fails now) := by
  have h : AllFormed s.heap s.fresh (c :: rest) := hw.loop_of hloop
  have hrest : AllFormed s.heap s.fresh rest := fun d hd => h d (List.mem_cons_of_mem c hd)
  obtain ⟨mode, hformed⟩ := h c List.mem_cons_self
  unfold State.nextMatchID
  cases Matching.nextMatchID s.redis nano fails with
  | none => exact hw.setLoop (wf_release (fun p hp => (hformed.tickets p hp).1) hrest)
  | some answer =>
    obtain ⟨matchID, redis⟩ := answer
    cases hteam : c.teamA with
    | nil => exact { hw with }
    | cons first others =>
      have hfirst : first ∈ c.tickets := by
        unfold Candidate.tickets
        rw [hteam]
        exact List.mem_cons_self
      have hmode := (hformed.tickets first hfirst).2
      refine { hw with loop := ⟨⟨?_, ?_⟩, hrest⟩ }
      · change Engine.Formed s.heap s.fresh c (s.heap first).mode
        rw [hmode]
        exact hformed
      · change (first :: others).map (fun p => (s.heap p).uid) ++ c.teamB.map (fun p => (s.heap p).uid) =
          c.tickets.map fun p => (s.heap p).uid
        unfold Candidate.tickets
        rw [hteam, List.map_append]

theorem Wf.removeFromPool (hw : Wf s) {c : Candidate} {m : Match} {marked : ℕ} {p : Ptr}
    {rest : List Candidate} (hloop : s.tickLoop = .marking c m marked (some p) rest) :
    Wf (s.removeFromPool c m marked p rest) := by
  have h := hw.loop_of hloop
  unfold State.removeFromPool
  cases hpool : s.pool.dequeue s.heap p with
  | none => exact { hw with }
  | some pool => exact (hw.setPool (hw.filed.dequeue hpool)).setLoop h

theorem Wf.casConfirm (hw : Wf s) {c : Candidate} {m : Match} {rest : List Candidate}
    (hloop : s.tickLoop = .marking c m c.tickets.length none rest) (ran replied : Bool) :
    Wf (s.casConfirm c m rest ran replied) := by
  obtain ⟨hdrawn, hrest⟩ := hw.loop_of hloop
  unfold State.casConfirm
  rcases Matching.casConfirm s.redis m.id m.allUIDs ran replied with ⟨redis, ok⟩
  refine { hw with loop := ?_ }
  simp only
  split_ifs
  · exact ⟨hdrawn.full, hrest⟩
  · exact wf_release (fun p hp => (hdrawn.formed.tickets p hp).1) hrest

theorem Wf.putMatch (hw : Wf s) {m : Match} {rest : List Candidate}
    (hloop : s.tickLoop = .confirmed m rest) : Wf (s.putMatch m rest) := by
  have h := hw.loop_of hloop
  refine { hw with loop := h.2, full := fun mt hmt => ?_ }
  rcases List.mem_append.mp hmt with hold | hnew
  · exact hw.full mt hold
  · rw [List.mem_singleton.mp hnew]
    exact h.1

theorem Wf.drive (hw : Wf s) (place : ℕ) (m : Match) : Wf (s.drive room place m) := by
  have hid : ∀ m : Match, (id m).allUIDs = m.allUIDs ∧ (id m).mode = m.mode := fun _ => ⟨rfl, rfl⟩
  unfold State.drive
  cases m.state with
  | draft => exact hw
  | confirmed => exact hw.matchTo place m .roomPrep hid
  | roomPrep =>
    unfold State.roomPrep
    cases room m with
    | none => exact hw.matchTo place m .retry fun m => ⟨rfl, rfl⟩
    | some roomId => exact hw.matchTo place m .notifying fun m => ⟨rfl, rfl⟩
  | retry =>
    simp only
    split_ifs
    · refine (hw.matchTo place m .rollback hid).setSettlement fun todo p h => ?_
      cases h
    · exact hw.matchTo place m .roomPrep hid
  | notifying =>
    exact (hw.matchTo place m .complete hid).setSettlement fun todo p h => absurd h (settle_ne _)
  | complete | aborted | rollback | matchPartial =>
    refine hw.setSettlement fun todo p h => ?_
    cases h

theorem Wf.releaseTickets (hw : Wf s) (m : Match) : Wf (s.releaseTickets m) := by
  have hheap := hw.setHeap (alike_releaseStates s.fresh s.heap s.mem m.allUIDs)
  exact { hheap with requeuing := fun todo p h => absurd h (requeue_ne _) }

theorem Wf.rollbackGet (hw : Wf s) (uid : UInt64) (todo : List UInt64) :
    Wf (s.rollbackGet uid todo) := by
  refine hw.setSettlement fun todo' p h => ?_
  cases hget : s.mem.getTicket uid with
  | none =>
    rw [hget] at h
    exact absurd h (requeue_ne todo)
  | some q =>
    rw [hget] at h
    cases h
    exact (hw.keyed uid p hget).1

/-- The service stays well formed, whatever it does. -/
theorem Wf.step (hw : Wf s) (hstep : Step S room s e t) : Wf t := by
  cases hstep with
  | matchReq =>
    refine { hw with pooling := fun i c p hc hpc => ?_ }
    rw [getElem?_append_singleton] at hc
    split_ifs at hc
    · cases hc
      cases hpc
    · exact hw.pooling i c p hc hpc
  | countQueuing hc hpc =>
    unfold State.countQueuing
    split_ifs
    all_goals exact hw.setEnqueue hc fun p h => by cases h
  | checkTicket hc hpc =>
    unfold State.checkTicket
    split_ifs
    all_goals exact hw.setEnqueue hc fun p h => by cases h
  | putTicket hc hpc => exact hw.putTicket hc _
  | @poolEnqueue i c p hc hpc =>
    have hput : Wf (s.setEnqueue i c (.returned none)) := hw.setEnqueue hc fun p h => by cases h
    exact hput.setPool (hput.filed.enqueue (hw.pooling _ _ _ hc hpc))
  | cancelReq => exact { hw with }
  | getTicket hc hpc =>
    unfold State.getTicket
    split
    · exact { hw with }
    · split_ifs
      all_goals exact { hw with }
  | setIdle hc hpc => exact hw.setIdle _ _ _
  | poolDequeue hc hpc => exact hw.poolDequeue _ _ _
  | deleteTicket hc hpc => exact hw.deleteTicket _ _
  | tick hloop =>
    refine hw.setLoop fun c hc => ?_
    cases hc
  | matchMode hloop => exact hw.matchMode hloop
  | anchor hloop => exact hw.anchor _ hloop
  | nextMatchID hloop => exact hw.nextMatchID hloop _ _ _
  | @markMatching c m marked p rest hloop hp =>
    have h := hw.loop_of hloop
    have ha := alike_tryTicketState s.fresh s.heap s.mem (s.heap p).uid .matching
    exact (hw.setHeap ha).setLoop ⟨h.1.mono ha le_rfl, h.2.mono ha le_rfl⟩
  | removeFromPool hloop => exact hw.removeFromPool hloop
  | casConfirm hloop => exact hw.casConfirm hloop _ _
  | putMatch hloop => exact hw.putMatch hloop
  | @bindMatch place m rest hloop hm =>
    have h := hw.loop_of hloop
    have ha := alike_bindTickets s.fresh s.heap s.mem m.allUIDs m.id
    exact { hw.setHeap ha with loop := AllFormed.mono h ha le_rfl }
  | notify hloop hroom =>
    have h := hw.loop_of hloop
    exact { hw with loop := h }
  | @releaseState p todo marked rest hloop =>
    have h := hw.loop_of hloop
    have ha := alike_tryTicketState s.fresh s.heap s.mem (s.heap p).uid .queuing
    exact (hw.setHeap ha).setLoop ⟨h.1, h.2.mono ha le_rfl⟩
  | @requeueState p todo marked rest hloop =>
    have h := hw.loop_of hloop
    have ha : Alike s.fresh s.heap (Function.update s.heap p
        { s.heap p with state := .queuing, priority := (s.heap p).priority + 1 }) :=
      alike_update s.fresh rfl rfl
    exact (hw.setHeap ha).setLoop ⟨h.1, h.2.mono ha le_rfl⟩
  | @releaseEnqueue p todo marked rest hloop =>
    have h := hw.loop_of hloop
    have hpool := hw.setPool (hw.filed.enqueue (S := S) (h.1 p List.mem_cons_self))
    exact hpool.setLoop (wf_release (fun q hq => h.1 q (List.mem_cons_of_mem p hq)) h.2)
  | receiveMatch hloop hch =>
    refine { hw with requeuing := fun todo p h => ?_ }
    cases h
  | drive hloop hm => exact hw.drive _ _
  | @settleTicket uid todo hloop =>
    have hheap := hw.setHeap (alike_tryTicketState s.fresh s.heap s.mem uid .settling)
    exact hheap.setSettlement fun todo p h => absurd h (settle_ne _)
  | releaseTickets hloop hm => exact hw.releaseTickets _
  | rollbackGet hloop => exact hw.rollbackGet _ _
  | @rollbackEnqueue uid p todo hloop =>
    have hpool := hw.setPool (hw.filed.enqueue (S := S) (hw.requeuing _ p hloop))
    exact hpool.setSettlement fun todo p h => absurd h (requeue_ne _)
  | expire => exact { hw with }

end Steps

end Gmaker.Matching
