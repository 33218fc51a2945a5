import Gmaker.Matching.Rollback
import Gmaker.Matching.ServiceWf

/-!
# Gmaker.Matching.Seats — seats in the teams

A seat in a team is given when the ticket is marked, and it is held while the match is made,
while it is not over and until the players are settled or released. That nobody has two is
what the state of the tickets is for: only a queuing ticket is marked, and a marked one stays
what it is until its seat is given up. `Seated` says so, and the rules here are what its steps
are made of: a loop that goes on, tickets that change, a match that is driven.
-/

namespace Gmaker.Matching

open Gmaker.Lib

/-! ## Seats -/

/-- The players the tick loop has a seat for: those that are marked, and of a candidate that is
given up those whose turn has not come. -/
def TickLoop.seated (h : Heap) : TickLoop → List UInt64
  | .marking _ m marked _ _ => m.allUIDs.take marked
  | .confirmed m _ => m.allUIDs
  | .releasing _ _ false _ => []
  | .releasing todo .updateState true _ => todo.map fun p => (h p).uid
  | .releasing todo _ true _ => todo.tail.map fun p => (h p).uid
  | _ => []

/-- The tickets the tick loop gives back that have no seat, or no longer. -/
def TickLoop.unseated : TickLoop → List Ptr
  | .releasing todo _ false _ => todo
  | .releasing _ .updateState true _ => []
  | .releasing todo _ true _ => todo.take 1
  | _ => []

/-- The players that are still to be settled or released. -/
def SettlementLoop.seated (records : List Match) : SettlementLoop → List UInt64
  | .settling todo => todo
  | .rollingBack place => ((records[place]?).map Match.allUIDs).getD []
  | _ => []

/-- The players of a match that is not over. -/
def Match.seated (m : Match) : List UInt64 := if m.Live then m.allUIDs else []

/-- How many seats the matches have for a player. -/
def matchSeats (records : List Match) (uid : UInt64) : ℕ :=
  (records.map fun m => m.seated.count uid).sum

/-- How many seats a player has. -/
def State.seats (s : State) (uid : UInt64) : ℕ :=
  (s.tickLoop.seated s.heap).count uid + matchSeats s.records uid +
    (s.settlementLoop.seated s.records).count uid

/-- Nobody has two seats, and who has one has a ticket that says so. -/
structure Seated (s : State) : Prop where
  one : ∀ uid, s.seats uid ≤ 1
  matching : ∀ uid, 0 < s.seats uid → s.ticketState uid = some .matching
  unseated : ∀ p ∈ s.tickLoop.unseated, s.seats (s.heap p).uid = 0
  rolling : ∀ place, s.settlementLoop = .rollingBack place → place < s.records.length
  nodup : ∀ m ∈ s.records, m.allUIDs.Nodup

/-! ## The tickets of others -/

section Tickets

variable {h : Heap} {fresh p : Ptr} {m : MemoryStore} {uid uid' : UInt64} {uids : List UInt64}

/-- What happens to a ticket is nothing to another player. -/
theorem stateOf_update_of_ne (hk : m.Keyed h fresh) (t : Ticket) (hne : uid ≠ (h p).uid) :
    m.stateOf (Function.update h p t) uid = m.stateOf h uid := by
  unfold MemoryStore.stateOf
  cases hq : m.getTicket uid with
  | none => rfl
  | some q =>
    have hqp : q ≠ p := by
      intro heq
      subst heq
      exact hne (hk uid q hq).2.symm
    rw [Option.map_some, Option.map_some, Function.update_of_ne hqp]

theorem stateOf_tryTicketState_of_ne (hk : m.Keyed h fresh) (target : TicketState)
    (hne : uid ≠ uid') : m.stateOf (m.tryTicketState h uid' target) uid = m.stateOf h uid := by
  rcases m.tryTicketState_eq h uid' target with ⟨p, hp, -, heq⟩ | ⟨heq, -⟩
  · rw [heq]
    apply stateOf_update_of_ne hk
    rw [(hk uid' p hp).2]
    exact hne
  · rw [heq]

/-- A match that is bound leaves the states alone. -/
theorem state_bindTickets (h : Heap) (m : MemoryStore) (uids : List UInt64) (matchID : UInt64)
    (q : Ptr) : (m.bindTickets h uids matchID q).state = (h q).state := by
  unfold MemoryStore.bindTickets
  induction uids generalizing h with
  | nil => rfl
  | cons uid' uids ih =>
    rw [List.foldl_cons, ih]
    cases m.getTicket uid' with
    | none => rfl
    | some p =>
      by_cases hq : q = p
      · subst hq
        simp only [Function.update_self]
      · simp only [Function.update_of_ne hq]

/-- A player's state is that of the ticket. -/
theorem stateOf_congr {h' : Heap} (hstate : ∀ q, (h' q).state = (h q).state) (m : MemoryStore)
    (uid : UInt64) : m.stateOf h' uid = m.stateOf h uid := by
  unfold MemoryStore.stateOf
  congr 1
  funext q
  exact hstate q

/-- A ticket of nobody who is released stays as it is. -/
theorem releaseStates_of_ne (h : Heap) (hne : ∀ uid ∈ uids, m.getTicket uid ≠ some p) :
    m.releaseStates h uids p = h p := by
  unfold MemoryStore.releaseStates
  induction uids generalizing h with
  | nil => rfl
  | cons uid uids ih =>
    rw [List.foldl_cons, ih _ fun uid' huid' => hne uid' (List.mem_cons_of_mem uid huid')]
    have hhead := hne uid List.mem_cons_self
    cases hq : m.getTicket uid with
    | none => rfl
    | some q =>
      refine Function.update_of_ne ?_ _ _
      intro hpq
      exact hhead (hpq ▸ hq)

theorem stateOf_releaseStates_of_not_mem (hk : m.Keyed h fresh) (huid : uid ∉ uids) :
    m.stateOf (m.releaseStates h uids) uid = m.stateOf h uid := by
  unfold MemoryStore.stateOf
  cases hq : m.getTicket uid with
  | none => rfl
  | some q =>
    have hne : ∀ uid' ∈ uids, m.getTicket uid' ≠ some q := by
      intro uid' huid' hq'
      exact huid (hk.inj hq hq' ▸ huid')
    rw [Option.map_some, Option.map_some, releaseStates_of_ne h hne]

end Tickets

/-! ## What a step does to the tickets -/

section States

variable {s : State} {uid : UInt64} {p q : Ptr} {i : ℕ}

theorem ticketState_of_getTicket (hp : s.mem.getTicket uid = some p) :
    s.ticketState uid = some (s.heap p).state := by
  unfold State.ticketState MemoryStore.stateOf
  rw [hp, Option.map_some]

/-- What `UpdateTicketState` does when it succeeds. -/
theorem of_updateTicketState {target : TicketState} {heap : Heap}
    (hupdate : s.mem.updateTicketState s.heap uid target = .ok heap) :
    ∃ q, s.mem.getTicket uid = some q ∧ (s.heap q).state.canTransitionTo target = true ∧
      heap = s.heap.setState q target := by
  unfold MemoryStore.updateTicketState at hupdate
  cases hq : s.mem.getTicket uid with
  | none =>
    rw [hq] at hupdate
    cases hupdate
  | some q =>
    simp only [hq] at hupdate
    split_ifs at hupdate with hcan
    exact ⟨q, rfl, hcan, (Except.ok.inj hupdate).symm⟩

theorem setState_same (heap : Heap) (q : Ptr) (target : TicketState) (p : Ptr) :
    (heap.setState q target p).uid = (heap p).uid ∧
      (heap.setState q target p).slot = (heap p).slot :=
  alike_update (p + 1) (p := q) (h := heap) (t := { heap q with state := target }) rfl rfl p
    (Nat.lt_succ_self p)

/-- The state of a ticket is set, and so is its player's. -/
theorem ticketState_setState (hk : s.mem.Keyed s.heap s.fresh)
    (hq : s.mem.getTicket (s.heap q).uid = some q)
    (target : TicketState) (uid : UInt64) :
    s.mem.stateOf (s.heap.setState q target) uid =
      if uid = (s.heap q).uid then some target else s.ticketState uid := by
  split_ifs with huid
  · unfold MemoryStore.stateOf
    rw [huid, hq, Option.map_some, Heap.setState_self]
  · exact stateOf_update_of_ne hk _ huid

theorem tryTicketState_of_getTicket (hq : s.mem.getTicket uid = some q) {target : TicketState}
    (hcan : (s.heap q).state.canTransitionTo target = true) :
    s.mem.tryTicketState s.heap uid target = s.heap.setState q target := by
  unfold MemoryStore.tryTicketState MemoryStore.updateTicketState
  simp only [hq, hcan, if_true]
  rfl

theorem stateOf_releaseStates (h : Heap) (mem : MemoryStore) {uids : List UInt64}
    (huid : uid ∈ uids) {state : TicketState} (hstate : mem.stateOf h uid = some state) :
    mem.stateOf (mem.releaseStates h uids) uid = some .queuing := by
  rcases Option.map_eq_some_iff.mp hstate with ⟨q, hq, -⟩
  unfold MemoryStore.stateOf
  rw [hq, Option.map_some, (releaseStates_spec h mem uids q).2 (.inr ⟨uid, huid, hq⟩)]

/-! ### A ticket is put in the table -/

theorem heap_putTicket (s : State) (i : ℕ) (c : EnqueueCall) (now : ℤ) (hp : p < s.fresh) :
    (s.putTicket i c now).heap p = s.heap p :=
  Function.update_of_ne (Nat.ne_of_lt hp) _ _

theorem getTicket_put_self (s : State) (i : ℕ) (c : EnqueueCall) (now : ℤ) :
    (s.putTicket i c now).mem.getTicket c.ticket.uid = some s.fresh := by
  change (s.mem.putTicket c.ticket.uid s.fresh).getTicket c.ticket.uid = _
  rw [MemoryStore.getTicket_putTicket, if_pos rfl]

theorem getTicket_put_of_ne (s : State) (i : ℕ) {c : EnqueueCall} (now : ℤ)
    (hne : uid ≠ c.ticket.uid) :
    (s.putTicket i c now).mem.getTicket uid = s.mem.getTicket uid := by
  change (s.mem.putTicket c.ticket.uid s.fresh).getTicket uid = _
  rw [MemoryStore.getTicket_putTicket, if_neg hne]

theorem ticketState_put_self (s : State) (i : ℕ) (c : EnqueueCall) (now : ℤ) :
    (s.putTicket i c now).ticketState c.ticket.uid = some .queuing := by
  rw [ticketState_of_getTicket (getTicket_put_self s i c now)]
  change some (Function.update s.heap s.fresh _ s.fresh).state = _
  rw [Function.update_self]

theorem ticketState_put_of_ne (hw : Wf s) (i : ℕ) {c : EnqueueCall} (now : ℤ)
    (hne : uid ≠ c.ticket.uid) : (s.putTicket i c now).ticketState uid = s.ticketState uid := by
  unfold State.ticketState MemoryStore.stateOf
  rw [getTicket_put_of_ne s i now hne]
  cases hq : s.mem.getTicket uid with
  | none => rfl
  | some q => rw [Option.map_some, Option.map_some, heap_putTicket s i c now (hw.keyed uid q hq).1]

/-! ### And deleted -/

theorem getTicket_delete_of_ne (s : State) (i : ℕ) {c : DequeueCall} (hne : uid ≠ c.uid) :
    (s.deleteTicket i c).mem.getTicket uid = s.mem.getTicket uid := by
  change (s.mem.deleteTicket c.uid).getTicket uid = _
  rw [MemoryStore.getTicket_deleteTicket, if_neg hne]

theorem ticketState_delete_of_ne (s : State) (i : ℕ) {c : DequeueCall} (hne : uid ≠ c.uid) :
    (s.deleteTicket i c).ticketState uid = s.ticketState uid := by
  unfold State.ticketState MemoryStore.stateOf
  rw [getTicket_delete_of_ne s i hne]
  rfl

end States

/-! ## The seats of the matches -/

section Matches

variable {records : List Match} {m : Match} {place : ℕ} {uid : UInt64} {s : State}

/-- The seats of a table in which each match has at most those it had, and one has fewer. -/
theorem matchSeats_add_le {records' : List Match} {k : ℕ} (place : ℕ)
    (hlen : records'.length = records.length)
    (hle : ∀ j mt mt', records[j]? = some mt → records'[j]? = some mt' →
      mt'.seated.count uid + (if j = place then k else 0) ≤ mt.seated.count uid)
    (hplace : place < records.length) :
    matchSeats records' uid + k ≤ matchSeats records uid := by
  unfold matchSeats
  -- along the table: `place` counts down to the match that gives up its seats
  induction records generalizing records' place with
  | nil => cases hplace
  | cons mt records ih =>
    rcases records' with _ | ⟨mt', records'⟩
    · cases hlen
    · have hhead := hle 0 mt mt' rfl rfl
      simp only [List.map_cons, List.sum_cons]
      rcases place with _ | place
      · -- the others have what they had at most
        have hrest : (records'.map fun m => m.seated.count uid).sum ≤
            (records.map fun m => m.seated.count uid).sum := by
          have hlen' : records'.length = records.length := by simpa using hlen
          apply List.Forall₂.sum_le_sum
          rw [List.forall₂_map_left_iff, List.forall₂_map_right_iff, List.forall₂_iff_get]
          refine ⟨hlen', fun j hj hj' => ?_⟩
          have h := hle (j + 1) records[j] records'[j] (by simp [hj']) (by simp [hj])
          simpa using h
        rw [if_pos rfl] at hhead
        omega
      · have hrest := ih place (by simpa using hlen)
          (fun j mt mt' hj hj' => by simpa using hle (j + 1) mt mt' hj hj')
          (by simpa using hplace)
        rw [if_neg (Nat.succ_ne_zero place).symm] at hhead
        omega

theorem Match.count_seated (m : Match) (uid : UInt64) :
    m.seated.count uid = if m.Live then m.allUIDs.count uid else 0 := by
  unfold Match.seated
  split_ifs
  · rfl
  · rfl

theorem length_matchTo (s : State) (place : ℕ) (m : Match) (target : MatchState)
    (f : Match → Match) : (s.matchTo place m target f).records.length = s.records.length := by
  change ((s.mem.updateMatchState s.records m.id target).modify place _).length = _
  rw [List.length_modify]
  unfold MemoryStore.updateMatchState
  split
  · rfl
  · exact List.length_modify ..

/-- What another match is after one was taken on: the same, or one that was not over and has come
to the same state. -/
theorem getElem?_matchTo_of_ne {target : MatchState} {f : Match → Match} {j : ℕ} {mt : Match}
    (hj : j ≠ place) (hmt : (s.matchTo place m target f).records[j]? = some mt) :
    s.records[j]? = some mt ∨
      ∃ old, s.records[j]? = some old ∧ old.Live ∧ mt = { old with state := target } := by
  change ((s.mem.updateMatchState s.records m.id target).modify place _)[j]? = some mt at hmt
  simp only [List.getElem?_modify, if_neg (Ne.symm hj), id_map'] at hmt
  -- the store goes by the number of the match, and numbers may come twice
  unfold MemoryStore.updateMatchState at hmt
  cases hstored : s.mem.matchById.lookup m.id with
  | none =>
    rw [hstored] at hmt
    exact .inl hmt
  | some stored =>
    simp only [hstored, List.getElem?_modify, Option.map_eq_map] at hmt
    rcases Option.map_eq_some_iff.mp hmt with ⟨old, hold, heq⟩
    split_ifs at heq with hplace hcan
    · exact .inr ⟨old, hold, MatchState.not_isTerminal hcan, heq.symm⟩
    · exact .inl (heq ▸ hold)
    · exact .inl (heq ▸ hold)

/-- A match is taken on: its seats stay, or its players give them up. -/
theorem matchSeats_matchTo (target : MatchState) {f : Match → Match}
    (hm : s.records[place]? = some m) (hlive : m.Live)
    (hf : ∀ m, (f m).allUIDs = m.allUIDs ∧ (f m).state = m.state) (uid : UInt64) :
    matchSeats (s.matchTo place m target f).records uid +
        (if target.isTerminal then m.allUIDs.count uid else 0) ≤ matchSeats s.records uid := by
  rcases List.getElem?_eq_some_iff.mp hm with ⟨hplace, -⟩
  refine matchSeats_add_le place ?_ (fun j mt mt' hj hj' => ?_) hplace
  · exact length_matchTo s place m target f
  · by_cases hjp : j = place
    · subst hjp
      rw [hm] at hj
      cases hj
      rw [getElem?_matchTo hm] at hj'
      cases hj'
      have hnew : (f { m with state := target }).Live ↔ target.isTerminal = false := by
        unfold Match.Live
        rw [(hf _).2]
      rw [if_pos rfl, Match.count_seated, Match.count_seated, if_pos hlive, (hf _).1]
      change (if _ then m.allUIDs.count uid else 0) + _ ≤ _
      cases hterminal : target.isTerminal with
      | false =>
        rw [if_pos (hnew.mpr hterminal), if_neg Bool.false_ne_true]
        exact le_rfl
      | true =>
        have hover : ¬ (f { m with state := target }).Live := by
          rw [hnew, hterminal]
          exact Bool.noConfusion
        rw [if_neg hover, if_pos rfl, Nat.zero_add]
    · rw [if_neg hjp, Nat.add_zero]
      rcases getElem?_matchTo_of_ne hjp hj' with hsame | ⟨old, hold, hlive, rfl⟩
      · rw [hj] at hsame
        cases hsame
        exact le_rfl
      · rw [hj] at hold
        cases hold
        rw [Match.count_seated, Match.count_seated, if_pos hlive]
        split_ifs
        · exact le_rfl
        · exact Nat.zero_le _

end Matches

/-! ## Rules -/

section Steps

variable {s t : State} {uid : UInt64}

theorem seated_init (redis : Option Redis) : Seated { redis } where
  one := fun _ => Nat.zero_le 1
  matching := by
    intro uid hpos
    exact absurd hpos (Nat.lt_irrefl 0)
  unseated := by
    intro p hp
    cases hp
  rolling := by
    intro place hloop
    cases hloop
  nodup := by
    intro m hm
    cases hm

theorem Seated.seats_eq_zero (h : Seated s) (hne : s.ticketState uid ≠ some .matching) :
    s.seats uid = 0 := by
  by_contra hpos
  exact hne (h.matching uid (Nat.pos_of_ne_zero hpos))

/-- No seat more, and the tickets of those who keep one stay. -/
theorem Seated.of_le (h : Seated s) (hle : ∀ uid, t.seats uid ≤ s.seats uid)
    (hstate : ∀ uid, 0 < t.seats uid → t.ticketState uid = s.ticketState uid)
    (hunseated : ∀ p ∈ t.tickLoop.unseated, t.seats (t.heap p).uid = 0)
    (hrolling : ∀ place, t.settlementLoop = .rollingBack place → place < t.records.length)
    (hnodup : ∀ m ∈ t.records, m.allUIDs.Nodup) : Seated t where
  one := fun uid => (hle uid).trans (h.one uid)
  matching := by
    intro uid hpos
    rw [hstate uid hpos]
    exact h.matching uid (hpos.trans_le (hle uid))
  unseated := hunseated
  rolling := hrolling
  nodup := hnodup

/-- The tick loop goes on and gives no seat. -/
theorem Seated.setTick (h : Seated s) {tickLoop : TickLoop}
    (hle : ∀ uid, (tickLoop.seated s.heap).count uid ≤ (s.tickLoop.seated s.heap).count uid)
    (hunseated : ∀ p ∈ tickLoop.unseated, { s with tickLoop }.seats (s.heap p).uid = 0) :
    Seated { s with tickLoop } := by
  refine h.of_le (fun uid => ?_) (fun uid _ => rfl) hunseated h.rolling h.nodup
  have hloop := hle uid
  unfold State.seats
  dsimp only
  omega

/-- It goes on to where it has no ticket in hand. -/
theorem Seated.setFree (h : Seated s) {tickLoop : TickLoop}
    (hfree : tickLoop.seated s.heap = [] ∧ tickLoop.unseated = []) :
    Seated { s with tickLoop } := by
  refine h.setTick (fun uid => ?_) fun p hp => ?_
  · rw [hfree.1]
    exact Nat.zero_le _
  · rw [hfree.2] at hp
    cases hp

theorem free_afterMode (h : Heap) (later : List Int32) (found : List Candidate) :
    (State.afterMode later found).seated h = [] ∧ (State.afterMode later found).unseated = [] := by
  unfold State.afterMode
  split_ifs
  · exact ⟨rfl, rfl⟩
  · exact ⟨rfl, rfl⟩

/-- The settlement loop goes on and has no more players. -/
theorem Seated.setSettlement (h : Seated s) {settlementLoop : SettlementLoop}
    (hle : ∀ uid, (settlementLoop.seated s.records).count uid ≤
      (s.settlementLoop.seated s.records).count uid)
    (hrolling : ∀ place, settlementLoop = .rollingBack place → place < s.records.length) :
    Seated { s with settlementLoop } := by
  have hseats : ∀ uid, { s with settlementLoop }.seats uid ≤ s.seats uid := by
    intro uid
    have hloop := hle uid
    unfold State.seats
    dsimp only
    omega
  refine h.of_le hseats (fun uid _ => rfl) (fun p hp => ?_) hrolling h.nodup
  exact Nat.le_zero.mp ((hseats _).trans_eq (h.unseated p hp))

/-- Whose seats they are does not change with the tickets. -/
theorem seated_of_alike {loop : TickLoop} {h h' : Heap} {fresh : Ptr} (hw : loop.Wf h fresh)
    (ha : Alike fresh h h') : loop.seated h' = loop.seated h := by
  cases loop with
  | releasing todo stage marked rest =>
    have hmap : ∀ l : List Ptr, (∀ p ∈ l, p ∈ todo) →
        (l.map fun p => (h' p).uid) = l.map fun p => (h p).uid := by
      intro l hl
      exact List.map_congr_left fun p hp => (ha p (hw.1 p (hl p hp))).1
    cases marked with
    | false =>
      cases stage with
      | _ => rfl
    | true =>
      cases stage with
      | updateState => exact hmap todo fun p hp => hp
      -- the first has given up its seat
      | setQueuing | enqueue => exact hmap todo.tail fun p hp => List.mem_of_mem_tail hp
  | _ => rfl

theorem mem_fresh_of_unseated {loop : TickLoop} {h : Heap} {fresh p : Ptr} (hw : loop.Wf h fresh)
    (hp : p ∈ loop.unseated) : p < fresh := by
  cases loop with
  | releasing todo stage marked rest =>
    cases marked with
    | false => exact hw.1 p hp
    | true =>
      cases stage with
      | updateState => cases hp
      | setQueuing | enqueue => exact hw.1 p (List.mem_of_mem_take hp)
  | _ => cases hp

/-- Tickets change, but for the states of those who have a seat. -/
theorem Seated.setHeap (h : Seated s) (hw : Wf s) {heap : Heap} (ha : Alike s.fresh s.heap heap)
    (hstate : ∀ uid, 0 < s.seats uid → s.mem.stateOf heap uid = s.ticketState uid) :
    Seated { s with heap } := by
  have hseats : ∀ uid, { s with heap }.seats uid = s.seats uid := by
    intro uid
    unfold State.seats
    dsimp only
    rw [seated_of_alike hw.loop ha]
  refine h.of_le (fun uid => (hseats uid).le) (fun uid hpos => ?_) (fun p hp => ?_)
    h.rolling h.nodup
  · rw [hseats] at hpos
    exact hstate uid hpos
  · rw [hseats]
    change s.seats (heap p).uid = 0
    rw [(ha p (mem_fresh_of_unseated hw.loop hp)).1]
    exact h.unseated p hp

/-- A ticket of somebody without a seat changes. -/
theorem Seated.update (h : Seated s) (hw : Wf s) {p : Ptr} {ticket : Ticket}
    (huid : ticket.uid = (s.heap p).uid) (hslot : ticket.slot = (s.heap p).slot)
    (hfree : s.seats (s.heap p).uid = 0) :
    Seated { s with heap := Function.update s.heap p ticket } := by
  refine h.setHeap hw (alike_update s.fresh huid hslot) fun uid hpos => ?_
  exact stateOf_update_of_ne hw.keyed _ (ne_of_apply_ne s.seats (by omega))

theorem Seated.tryTicketState (h : Seated s) (hw : Wf s) (target : TicketState)
    (hfree : s.seats uid = 0) :
    Seated { s with heap := s.mem.tryTicketState s.heap uid target } := by
  refine h.setHeap hw (alike_tryTicketState _ _ _ _ _) fun uid' hpos => ?_
  exact stateOf_tryTicketState_of_ne hw.keyed _ (ne_of_apply_ne s.seats (by omega))

end Steps

end Gmaker.Matching
