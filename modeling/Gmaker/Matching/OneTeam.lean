import Gmaker.Matching.Seats

/-!
# Gmaker.Matching.OneTeam — no player is in two teams

The service does not look whether the seats are in order. The check of a request and the ticket
it puts are two operations, a ticket is deleted by its player, and the error of
`UpdateTicketState` is dropped where a candidate is confirmed. Where all of this is met as it
happens, every step keeps the seats in order, and nobody is in two teams.
-/

namespace Gmaker.Matching

open Gmaker.Lib

/-! ## What is not looked at -/

/-- No ticket that is being matched is replaced or deleted, what is marked was queuing, and where
there is no number for a match none of its players is in another. -/
def State.Checked (s : State) : Event → Prop
  | .putTicket i _ => ∀ c ∈ s.enqueues[i]?, s.ticketState c.ticket.uid ≠ some .matching
  | .deleteTicket i => ∀ c ∈ s.dequeues[i]?, s.ticketState c.uid ≠ some .matching
  | .markMatching =>
    match s.tickLoop with
    | .marking c _ marked none _ =>
      ∀ p ∈ c.tickets[marked]?, s.ticketState (s.heap p).uid = some .queuing
    | _ => True
  | .nextMatchID nano fails _ =>
    match s.tickLoop with
    | .candidates (c :: _) => Matching.nextMatchID s.redis nano fails = none →
      ∀ p ∈ c.tickets, s.ticketState (s.heap p).uid ≠ some .matching
    | _ => True
  | _ => True

instance (s : State) (e : Event) : Decidable (s.Checked e) := by
  unfold State.Checked
  split
  · infer_instance
  · infer_instance
  · split <;> infer_instance
  · split <;> infer_instance
  · infer_instance

/-! ## Every step -/

section Steps

variable {S : SortSlice} {room : Match → Option UInt64} {s t : State} {e : Event} {uid : UInt64}

/-! ### Requests -/

theorem Seated.putTicket (h : Seated s) (hw : Wf s) {i : ℕ} {c : EnqueueCall} (now : ℤ)
    (hok : s.ticketState c.ticket.uid ≠ some .matching) : Seated (s.putTicket i c now) := by
  have hfree := h.seats_eq_zero hok
  have ha := alike_alloc s.heap s.fresh
    { c.ticket with state := .queuing, enqueueAt := now, priority := 0 }
  have hseats : ∀ uid, (s.putTicket i c now).seats uid = s.seats uid := by
    intro uid
    unfold State.seats
    change ((s.tickLoop.seated (Function.update s.heap s.fresh _)).count uid + _ + _ : ℕ) = _
    rw [seated_of_alike hw.loop ha]
    rfl
  refine h.of_le (fun uid => (hseats uid).le) (fun uid hpos => ?_) (fun p hp => ?_)
    h.rolling h.nodup
  · rw [hseats] at hpos
    exact ticketState_put_of_ne hw i now (ne_of_apply_ne s.seats (by omega))
  · rw [hseats]
    change s.seats (Function.update s.heap s.fresh _ p).uid = 0
    rw [(ha p (mem_fresh_of_unseated hw.loop hp)).1]
    exact h.unseated p hp

/-- What is called off was queuing. -/
theorem Seated.setIdle (h : Seated s) (hw : Wf s) (i : ℕ) (c : DequeueCall) (p : Ptr) :
    Seated (s.setIdle i c p) := by
  unfold State.setIdle
  cases hupdate : s.mem.updateTicketState s.heap c.uid .idle with
  | error msg => exact { h with }
  | ok heap =>
    rcases of_updateTicketState hupdate with ⟨q, hq, hcan, rfl⟩
    have huid := (hw.keyed _ _ hq).2
    have hfree : s.seats (s.heap q).uid = 0 := by
      apply h.seats_eq_zero
      rw [huid, ticketState_of_getTicket hq]
      intro hmatching
      rw [Option.some.inj hmatching] at hcan
      cases hcan
    have hset : Seated { s with heap := s.heap.setState q .idle } := h.update hw rfl rfl hfree
    exact { hset with }

theorem Seated.deleteTicket (h : Seated s) (i : ℕ) {c : DequeueCall}
    (hok : s.ticketState c.uid ≠ some .matching) : Seated (s.deleteTicket i c) := by
  refine h.of_le (fun uid => le_rfl) (fun uid hpos => ?_) h.unseated h.rolling h.nodup
  have hfree := h.seats_eq_zero hok
  change 0 < s.seats uid at hpos
  exact ticketState_delete_of_ne s i (ne_of_apply_ne s.seats (by omega))

/-! ### The tick loop -/

variable {c : Candidate} {m : Match} {marked place : ℕ} {p : Ptr} {rest : List Candidate}

/-- A candidate without a number is given up, unless the match begins. -/
theorem Seated.nextMatchID (h : Seated s) (hloop : s.tickLoop = .candidates (c :: rest))
    (nano : UInt64) (fails : Bool) (now : ℤ)
    (hok : Matching.nextMatchID s.redis nano fails = none →
      ∀ p ∈ c.tickets, s.ticketState (s.heap p).uid ≠ some .matching) :
    Seated (s.nextMatchID c rest nano fails now) := by
  unfold State.nextMatchID
  cases hnumber : Matching.nextMatchID s.redis nano fails with
  | none =>
    simp only
    unfold State.release
    split_ifs
    · exact h.setFree ⟨rfl, rfl⟩
    · have hseats : ∀ uid, { s with
          tickLoop := .releasing c.tickets .updateState false rest }.seats uid = s.seats uid := by
        intro uid
        unfold State.seats
        rw [hloop]
        rfl
      refine h.setTick (fun uid => Nat.zero_le _) fun p hp => ?_
      rw [hseats]
      exact h.seats_eq_zero (hok hnumber p hp)
  | some answer =>
    cases c.teamA with
    | nil => exact { h with }
    | cons first others =>
      have hmarking : ∀ m : Match, Seated { s with tickLoop := .marking c m 0 none rest } :=
        fun m => h.setFree ⟨rfl, rfl⟩
      exact { hmarking _ with }

/-- The next player of a candidate. -/
theorem Drawn.getElem?_allUIDs {h : Heap} {fresh : Ptr} (hd : Drawn h fresh c m)
    (hp : c.tickets[marked]? = some p) : m.allUIDs[marked]? = some (h p).uid := by
  rw [hd.allUIDs, List.getElem?_map, hp, Option.map_some]

/-- A queuing ticket is marked, and its player gets a seat. -/
theorem Seated.markMatching (h : Seated s) (hw : Wf s)
    (hloop : s.tickLoop = .marking c m marked none rest) (hp : c.tickets[marked]? = some p)
    (hok : s.ticketState (s.heap p).uid = some .queuing) :
    Seated (s.markMatching c m marked p rest) := by
  have hdrawn : Drawn s.heap s.fresh c m := (hw.loop_of hloop).1
  have hfree : s.seats (s.heap p).uid = 0 := by
    apply h.seats_eq_zero
    rw [hok]
    decide
  -- one seat more, and its player had none
  have hseats : ∀ uid, (s.markMatching c m marked p rest).seats uid =
      s.seats uid + if uid = (s.heap p).uid then 1 else 0 := by
    intro uid
    unfold State.seats
    rw [hloop]
    change (m.allUIDs.take (marked + 1)).count uid + _ + _ =
      (m.allUIDs.take marked).count uid + _ + _ + _
    have hone : [(s.heap p).uid].count uid = if uid = (s.heap p).uid then 1 else 0 := by
      rw [List.count_singleton]
      simp only [beq_iff_eq, @eq_comm _ uid]
    rw [List.take_add_one, hdrawn.getElem?_allUIDs hp, List.count_append]
    change _ + [(s.heap p).uid].count uid + _ + _ = _
    rw [hone]
    change _ + _ + matchSeats s.records uid + (s.settlementLoop.seated s.records).count uid = _
    omega
  have hmarked :
      (s.markMatching c m marked p rest).ticketState (s.heap p).uid = some .matching := by
    rcases s.mem.tryTicketState_eq s.heap (s.heap p).uid .matching with
      ⟨q, hq, -, heq⟩ | ⟨-, hcan⟩
    · change s.mem.stateOf (s.mem.tryTicketState s.heap (s.heap p).uid .matching) _ = _
      rw [heq, MemoryStore.stateOf, hq, Option.map_some, Heap.setState_self]
    -- a queuing ticket may be marked
    · cases hcan .queuing hok
  constructor
  · intro uid
    rw [hseats]
    split_ifs with huid
    · rw [huid, hfree]
    · exact h.one uid
  · intro uid hpos
    rw [hseats] at hpos
    by_cases huid : uid = (s.heap p).uid
    · rw [huid]
      exact hmarked
    · rw [if_neg huid] at hpos
      exact (stateOf_tryTicketState_of_ne hw.keyed .matching huid).trans (h.matching uid hpos)
  · intro q hq
    cases hq
  · exact h.rolling
  · exact h.nodup

/-- All are marked: they keep their seats, whether the match is confirmed or not. -/
theorem Seated.casConfirm (h : Seated s) (hw : Wf s)
    (hloop : s.tickLoop = .marking c m c.tickets.length none rest) (ran replied : Bool) :
    Seated (s.casConfirm c m rest ran replied) := by
  have hdrawn : Drawn s.heap s.fresh c m := (hw.loop_of hloop).1
  have hall : s.tickLoop.seated s.heap = m.allUIDs := by
    rw [hloop]
    change m.allUIDs.take c.tickets.length = m.allUIDs
    apply List.take_of_length_le
    rw [hdrawn.allUIDs, List.length_map]
  unfold State.casConfirm
  rcases Matching.casConfirm s.redis m.id m.allUIDs ran replied with ⟨redis, ok⟩
  simp only
  split_ifs
  · have hconfirmed : Seated { s with
        tickLoop := .confirmed { m with state := .confirmed } rest } := h.setTick
      (fun uid => by rw [hall]; exact le_rfl) (fun p hp => by cases hp)
    exact { hconfirmed with }
  · unfold State.release
    split_ifs
    · have hfree : Seated { s with tickLoop := .candidates rest } := h.setFree ⟨rfl, rfl⟩
      exact { hfree with }
    · have hrelease : Seated { s with
          tickLoop := .releasing c.tickets .updateState true rest } := h.setTick
        (fun uid => by rw [hall, hdrawn.allUIDs]; exact le_rfl) (fun p hp => by cases hp)
      exact { hrelease with }

theorem seats_putMatch (h : Seated s) (hloop : s.tickLoop = .confirmed m rest) (uid : UInt64) :
    (s.putMatch m rest).seats uid ≤ s.seats uid := by
  -- the match that is rolled back is one of the old ones
  have hrolling : s.settlementLoop.seated (s.records ++ [m]) =
      s.settlementLoop.seated s.records := by
    cases hsettlement : s.settlementLoop with
    | rollingBack place =>
      change (((s.records ++ [m])[place]?).map Match.allUIDs).getD [] = _
      rw [List.getElem?_append_left (h.rolling place hsettlement)]
      rfl
    | _ => rfl
  have hmatches :
      matchSeats (s.records ++ [m]) uid ≤ matchSeats s.records uid + m.allUIDs.count uid := by
    unfold matchSeats
    rw [sum_map_append, Match.count_seated]
    split_ifs
    · exact le_rfl
    · omega
  unfold State.seats
  rw [hloop]
  change 0 + matchSeats (s.records ++ [m]) uid +
    (s.settlementLoop.seated (s.records ++ [m])).count uid ≤ m.allUIDs.count uid + _ + _
  rw [hrolling]
  omega

/-- The match of the loop becomes one of the table. -/
theorem Seated.putMatch (h : Seated s) (hloop : s.tickLoop = .confirmed m rest) :
    Seated (s.putMatch m rest) := by
  refine h.of_le (seats_putMatch h hloop) (fun uid _ => rfl) (fun p hp => ?_) (fun place hp => ?_)
    fun mt hmt => ?_
  · cases hp
  · change place < (s.records ++ [m]).length
    rw [List.length_append]
    exact Nat.lt_add_right 1 (h.rolling place hp)
  · rcases List.mem_append.mp hmt with hold | hnew
    · exact h.nodup mt hold
    · rw [List.mem_singleton.mp hnew]
      refine List.nodup_iff_count_le_one.mpr fun uid => ?_
      have hone := h.one uid
      unfold State.seats at hone
      rw [hloop] at hone
      change m.allUIDs.count uid + _ + _ ≤ 1 at hone
      omega

theorem Seated.bindMatch (h : Seated s) (hw : Wf s) (m : Match) (place : ℕ)
    (rest : List Candidate) : Seated (s.bindMatch m place rest) := by
  have hbound := h.setHeap hw (alike_bindTickets s.fresh s.heap s.mem m.allUIDs m.id)
    fun uid _ => stateOf_congr (state_bindTickets s.heap s.mem m.allUIDs m.id) s.mem uid
  have hfree : Seated { s with
      heap := s.mem.bindTickets s.heap m.allUIDs m.id
      tickLoop := .sending place rest } := hbound.setFree ⟨rfl, rfl⟩
  exact { hfree with }

/-! ### A candidate is released -/

variable {todo : List Ptr} {stage : ReleaseStage} {given : Bool}

/-- The first of a candidate that is released gives up its seat, if it has one. -/
theorem Seated.releaseState (h : Seated s) (hw : Wf s)
    (hloop : s.tickLoop = .releasing (p :: todo) .updateState given rest) :
    Seated (s.releaseState p todo given rest) := by
  -- before the ticket is set, the seat is given up
  have hgive : Seated { s with tickLoop := .releasing (p :: todo) .setQueuing given rest } ∧
      { s with tickLoop := .releasing (p :: todo) .setQueuing given rest }.seats
        (s.heap p).uid = 0 := by
    cases given with
    | false =>
      have hseats : ∀ uid, { s with
          tickLoop := .releasing (p :: todo) .setQueuing false rest }.seats uid = s.seats uid := by
        intro uid
        unfold State.seats
        rw [hloop]
        rfl
      have hunseated := h.unseated
      rw [hloop] at hunseated
      refine ⟨h.setTick (fun uid => Nat.zero_le _) fun q hq => ?_, ?_⟩
      · rw [hseats]
        exact hunseated q hq
      · rw [hseats]
        exact hunseated p List.mem_cons_self
    | true =>
      have hseats : ∀ uid, { s with
          tickLoop := .releasing (p :: todo) .setQueuing true rest }.seats uid +
            (if (s.heap p).uid == uid then 1 else 0) = s.seats uid := by
        intro uid
        unfold State.seats
        rw [hloop]
        change (todo.map fun p => (s.heap p).uid).count uid + _ + _ + _ =
          ((p :: todo).map fun p => (s.heap p).uid).count uid + _ + _
        rw [List.map_cons, List.count_cons]
        change _ + matchSeats s.records uid + (s.settlementLoop.seated s.records).count uid + _ = _
        omega
      have hzero : { s with
          tickLoop := .releasing (p :: todo) .setQueuing true rest }.seats (s.heap p).uid = 0 := by
        have hone := h.one (s.heap p).uid
        rw [← hseats, beq_self_eq_true, if_pos rfl] at hone
        omega
      refine ⟨h.setTick (fun uid => ?_) fun q hq => ?_, hzero⟩
      · rw [hloop]
        change (todo.map fun p => (s.heap p).uid).count uid ≤
          ((p :: todo).map fun p => (s.heap p).uid).count uid
        rw [List.map_cons]
        exact List.count_le_count_cons
      · rw [List.mem_singleton.mp hq]
        exact hzero
  have hwloop : Wf { s with tickLoop := .releasing (p :: todo) .setQueuing given rest } := by
    have hold := hw.loop_of hloop
    exact hw.setLoop hold
  exact hgive.1.tryTicketState hwloop .queuing hgive.2

/-- In between, the first has no seat. -/
theorem Seated.first_unseated (h : Seated s)
    (hloop : s.tickLoop = .releasing (p :: todo) stage given rest) (hstage : stage ≠ .updateState) :
    s.seats (s.heap p).uid = 0 := by
  apply h.unseated
  rw [hloop]
  cases given with
  | false =>
    cases stage with
    | _ => exact List.mem_cons_self
  | true =>
    cases stage with
    | updateState => exact absurd rfl hstage
    | setQueuing | enqueue => exact List.mem_cons_self

theorem Seated.requeueState (h : Seated s) (hw : Wf s)
    (hloop : s.tickLoop = .releasing (p :: todo) .setQueuing given rest) :
    Seated (s.requeueState p todo given rest) := by
  have hfree := h.first_unseated hloop ReleaseStage.noConfusion
  have hset : Seated { s with
      heap := Function.update s.heap p
        { s.heap p with state := .queuing, priority := (s.heap p).priority + 1 } } :=
    h.update hw rfl rfl hfree
  have hsame : ∀ heap : Heap,
      (TickLoop.releasing (p :: todo) .enqueue given rest).seated heap =
          (TickLoop.releasing (p :: todo) .setQueuing given rest).seated heap ∧
        (TickLoop.releasing (p :: todo) .enqueue given rest).unseated =
          (TickLoop.releasing (p :: todo) .setQueuing given rest).unseated := by
    intro heap
    cases given with
    | _ => exact ⟨rfl, rfl⟩
  have hseats := hset.unseated
  refine hset.setTick (fun uid => ?_) fun q hq => ?_
  · rw [(hsame _).1, ← hloop]
  · rw [(hsame s.heap).2, ← hloop] at hq
    have hzero := hset.unseated q hq
    unfold State.seats at hzero ⊢
    dsimp only at hzero ⊢
    rw [(hsame _).1, ← hloop]
    exact hzero

/-- What is left of a candidate. -/
theorem Seated.releaseEnqueue (h : Seated s)
    (hloop : s.tickLoop = .releasing (p :: todo) .enqueue given rest) :
    Seated (s.releaseEnqueue S p todo given rest) := by
  have hnext : Seated { s with tickLoop := State.release todo given rest } := by
    unfold State.release
    split_ifs
    · exact h.setFree ⟨rfl, rfl⟩
    · cases given with
      | false =>
        have hunseated := h.unseated
        rw [hloop] at hunseated
        refine h.setTick (fun uid => Nat.zero_le _) fun q hq => ?_
        have hzero := hunseated q (List.mem_cons_of_mem p hq)
        unfold State.seats at hzero ⊢
        rw [hloop] at hzero
        exact hzero
      | true =>
        refine h.setTick (fun uid => ?_) fun q hq => by cases hq
        rw [hloop]
        exact le_rfl
  exact { hnext with }

/-! ### The settlement loop -/

theorem Seated.matchTo (h : Seated s) (hm : s.records[place]? = some m) (hlive : m.Live)
    {target : MatchState} {f : Match → Match}
    (hf : ∀ m, (f m).allUIDs = m.allUIDs ∧ (f m).state = m.state)
    {settlementLoop : SettlementLoop} (hdriving : s.settlementLoop = .driving place)
    (hle : ∀ records' uid, records'[place]? = some (f { m with state := target }) →
      (settlementLoop.seated records').count uid ≤
        if target.isTerminal then m.allUIDs.count uid else 0)
    (hplace : ∀ place', settlementLoop = .rollingBack place' → place' = place) :
    Seated { s.matchTo place m target f with settlementLoop } := by
  have hnodup : ∀ mt ∈ (s.matchTo place m target f).records, mt.allUIDs.Nodup := by
    intro mt hmt
    rcases List.mem_iff_getElem?.mp hmt with ⟨j, hj⟩
    by_cases hjp : j = place
    · subst hjp
      rw [getElem?_matchTo hm] at hj
      cases hj
      rw [(hf _).1]
      exact h.nodup m (List.mem_of_getElem? hm)
    · rcases getElem?_matchTo_of_ne hjp hj with hsame | ⟨old, hold, -, rfl⟩
      · exact h.nodup mt (List.mem_of_getElem? hsame)
      · exact h.nodup old (List.mem_of_getElem? hold)
  have hseats : ∀ uid, { s.matchTo place m target f with settlementLoop }.seats uid ≤
      s.seats uid := by
    intro uid
    have hmatches := matchSeats_matchTo target hm hlive hf uid
    have hsettlement := hle _ uid (getElem?_matchTo hm target f)
    unfold State.seats
    rw [hdriving]
    change (s.tickLoop.seated s.heap).count uid +
      matchSeats (s.matchTo place m target f).records uid + _ ≤ _ + _ + 0
    dsimp only
    omega
  refine h.of_le hseats (fun uid _ => rfl) (fun p hp => ?_) (fun place' hp => ?_) hnodup
  · exact Nat.le_zero.mp ((hseats _).trans_eq (h.unseated p hp))
  · change place' < (s.matchTo place m target f).records.length
    rw [length_matchTo, hplace place' hp]
    exact (List.getElem?_eq_some_iff.mp hm).1

theorem seated_rollingBack {records : List Match} (hm : records[place]? = some m) :
    (SettlementLoop.rollingBack place).seated records = m.allUIDs := by
  change ((records[place]?).map Match.allUIDs).getD [] = _
  rw [hm]
  rfl

theorem seated_settle (todo : List UInt64) (records : List Match) :
    (State.settle todo).seated records = todo := by
  unfold State.settle
  split_ifs with htodo
  · exact htodo.symm
  · rfl

theorem seated_requeue (todo : List UInt64) (records : List Match) :
    (State.requeue todo).seated records = [] := by
  unfold State.requeue
  split_ifs
  · rfl
  · rfl

theorem settle_ne_rollingBack (todo : List UInt64) : State.settle todo ≠ .rollingBack place := by
  unfold State.settle
  split_ifs
  · exact SettlementLoop.noConfusion
  · exact SettlementLoop.noConfusion

theorem requeue_ne_rollingBack (todo : List UInt64) :
    State.requeue todo ≠ .rollingBack place := by
  unfold State.requeue
  split_ifs
  · exact SettlementLoop.noConfusion
  · exact SettlementLoop.noConfusion

theorem Match.live_of_state {state : MatchState} (hstate : m.state = state)
    (hgoes : state.isTerminal = false) : m.Live := by
  unfold Match.Live
  rw [hstate]
  exact hgoes

/-- A match is driven on. -/
theorem Seated.drive (h : Seated s) (hdriving : s.settlementLoop = .driving place)
    (hm : s.records[place]? = some m) : Seated (s.drive room place m) := by
  have hid : ∀ m : Match, (id m).allUIDs = m.allUIDs ∧ (id m).state = m.state :=
    fun _ => ⟨rfl, rfl⟩
  have hstay : m.Live → ∀ (target : MatchState) (f : Match → Match),
      (∀ m, (f m).allUIDs = m.allUIDs ∧ (f m).state = m.state) →
      Seated (s.matchTo place m target f) := by
    intro hlive target f hf
    have hto : Seated { s.matchTo place m target f with settlementLoop := s.settlementLoop } := by
      refine h.matchTo hm hlive hf hdriving (fun _ uid _ => ?_) fun place' hp => ?_
      · rw [hdriving]
        exact Nat.zero_le _
      · rw [hdriving] at hp
        cases hp
    exact { hto with }
  unfold State.drive
  cases hstate : m.state with
  | draft => exact h
  | confirmed =>
    have hlive := Match.live_of_state hstate rfl
    exact hstay hlive .roomPrep id hid
  | roomPrep =>
    have hlive := Match.live_of_state hstate rfl
    simp only
    unfold State.roomPrep
    cases room m with
    | none => exact hstay hlive .retry _ fun m => ⟨rfl, rfl⟩
    | some roomId => exact hstay hlive .notifying _ fun m => ⟨rfl, rfl⟩
  | retry =>
    have hlive := Match.live_of_state hstate rfl
    simp only
    split_ifs
    · refine h.matchTo hm hlive hid hdriving (fun records' uid hplace => ?_) fun place' hp => ?_
      · rw [seated_rollingBack hplace]
        exact le_rfl
      · cases hp
        rfl
    · exact hstay hlive .roomPrep id hid
  | notifying =>
    have hlive := Match.live_of_state hstate rfl
    refine h.matchTo hm hlive hid hdriving (fun records' uid hplace => ?_) fun place' hp => ?_
    · rw [seated_settle]
      exact le_rfl
    · exact absurd hp (settle_ne_rollingBack _)
  -- a match that is over leaves the loop without a change
  | complete | aborted | rollback | matchPartial =>
    refine h.setSettlement (fun uid => Nat.zero_le _) fun place' hp => ?_
    cases hp

theorem Seated.settleTicket (h : Seated s) (hw : Wf s) {todo : List UInt64}
    (hloop : s.settlementLoop = .settling (uid :: todo)) : Seated (s.settleTicket uid todo) := by
  have hle : ∀ uid', ((State.settle todo).seated s.records).count uid' +
      (if uid = uid' then 1 else 0) = (s.settlementLoop.seated s.records).count uid' := by
    intro uid'
    rw [hloop, seated_settle]
    change _ = (uid :: todo).count uid'
    rw [List.count_cons]
    simp only [beq_iff_eq]
  have hleft : Seated { s with settlementLoop := State.settle todo } := by
    refine h.setSettlement (fun uid' => ?_) fun place hp => absurd hp (settle_ne_rollingBack _)
    have hcount := hle uid'
    omega
  -- the seat it had for the match was its only one
  have hfree : { s with settlementLoop := State.settle todo }.seats uid = 0 := by
    have hone := h.one uid
    have hcount := hle uid
    unfold State.seats at hone ⊢
    rw [if_pos rfl] at hcount
    dsimp only
    omega
  have hwleft : Wf { s with settlementLoop := State.settle todo } :=
    hw.setSettlement fun todo p hp => absurd hp (settle_ne _)
  exact hleft.tryTicketState hwleft .settling hfree

theorem Seated.releaseTickets (h : Seated s) (hw : Wf s)
    (hloop : s.settlementLoop = .rollingBack place) (hm : s.records[place]? = some m) :
    Seated (s.releaseTickets m) := by
  have hcount : ∀ uid, { s with settlementLoop := State.requeue m.allUIDs }.seats uid +
      m.allUIDs.count uid = s.seats uid := by
    intro uid
    have hplayers : s.settlementLoop.seated s.records = m.allUIDs := by
      rw [hloop, seated_rollingBack hm]
    unfold State.seats
    rw [hplayers]
    dsimp only
    rw [seated_requeue]
    rfl
  have hleft : Seated { s with settlementLoop := State.requeue m.allUIDs } := by
    refine h.setSettlement (fun uid => ?_) fun place hp => absurd hp (requeue_ne_rollingBack _)
    rw [seated_requeue]
    exact Nat.zero_le _
  have hwleft : Wf { s with settlementLoop := State.requeue m.allUIDs } :=
    hw.setSettlement fun todo p hp => absurd hp (requeue_ne _)
  have hset := hleft.setHeap hwleft (alike_releaseStates s.fresh s.heap s.mem m.allUIDs)
    fun uid hpos => by
      apply stateOf_releaseStates_of_not_mem hw.keyed
      intro huid
      -- who is released would have a second seat
      have hone := h.one uid
      rw [← hcount] at hone
      have hmem := List.count_pos_iff.mpr huid
      omega
  exact { hset with }

/-- The seats stay in order as long as the service meets what it does not look at. -/
theorem Seated.step (h : Seated s) (hw : Wf s) (hok : s.Checked e) (hstep : Step S room s e t) :
    Seated t := by
  cases hstep with
  | matchReq | cancelReq | expire => exact { h with }
  | countQueuing hc hpc =>
    unfold State.countQueuing
    split_ifs
    all_goals exact { h with }
  | checkTicket hc hpc =>
    unfold State.checkTicket
    split_ifs
    all_goals exact { h with }
  | putTicket hc hpc => exact h.putTicket hw _ (hok _ hc)
  | poolEnqueue hc hpc => exact { h with }
  | getTicket hc hpc =>
    unfold State.getTicket
    split
    · exact { h with }
    · split_ifs
      all_goals exact { h with }
  | setIdle hc hpc => exact h.setIdle hw _ _ _
  | poolDequeue hc hpc =>
    unfold State.poolDequeue
    split
    all_goals exact { h with }
  | deleteTicket hc hpc => exact h.deleteTicket _ (hok _ hc)
  | tick hloop => exact h.setFree ⟨rfl, rfl⟩
  | matchMode hloop =>
    unfold State.matchMode
    dsimp only
    split_ifs
    · exact h.setFree (free_afterMode _ _ _)
    · exact h.setFree ⟨rfl, rfl⟩
  | anchor hloop =>
    unfold State.anchor
    dsimp only
    split_ifs
    · exact h.setFree (free_afterMode _ _ _)
    · exact h.setFree ⟨rfl, rfl⟩
  | nextMatchID hloop =>
    unfold State.Checked at hok
    rw [hloop] at hok
    exact h.nextMatchID hloop _ _ _ hok
  | markMatching hloop hp =>
    unfold State.Checked at hok
    rw [hloop] at hok
    exact h.markMatching hw hloop hp (hok _ hp)
  | @removeFromPool c m marked p rest hloop =>
    unfold State.removeFromPool
    split
    · exact { h with }
    · have hmarking : Seated { s with tickLoop := .marking c m marked none rest } :=
        h.setTick (fun uid => by rw [hloop]; exact le_rfl) fun p hp => by cases hp
      exact { hmarking with }
  | casConfirm hloop => exact h.casConfirm hw hloop _ _
  | putMatch hloop => exact h.putMatch hloop
  | bindMatch hloop hm => exact h.bindMatch hw _ _ _
  | @notify place rest hloop hroom =>
    have hfree : Seated { s with tickLoop := .candidates rest } := h.setFree ⟨rfl, rfl⟩
    exact { hfree with }
  | releaseState hloop => exact h.releaseState hw hloop
  | requeueState hloop => exact h.requeueState hw hloop
  | releaseEnqueue hloop => exact h.releaseEnqueue hloop
  | @receiveMatch place notifyCh hloop hch =>
    have hreceive : Seated { s with settlementLoop := .driving place } :=
      h.setSettlement (fun uid => Nat.zero_le _) fun place' hp => by cases hp
    exact { hreceive with }
  | drive hloop hm => exact h.drive hloop hm
  | settleTicket hloop => exact h.settleTicket hw hloop
  | releaseTickets hloop hm => exact h.releaseTickets hw hloop hm
  | @rollbackGet uid todo hloop =>
    refine h.setSettlement (fun uid' => ?_) fun place hp => ?_
    · split
      · rw [seated_requeue]
        exact Nat.zero_le _
      · exact Nat.zero_le _
    · split at hp
      · exact absurd hp (requeue_ne_rollingBack _)
      · cases hp
  | @rollbackEnqueue uid p todo hloop =>
    have hrequeue : Seated { s with settlementLoop := State.requeue todo } := h.setSettlement
      (fun uid => by rw [seated_requeue]; exact Nat.zero_le _)
      fun place hp => absurd hp (requeue_ne_rollingBack _)
    exact { hrequeue with }

/-- Every run whose steps are checked keeps the seats in order. -/
theorem seated_of_run {redis : Option Redis} {es : List Event}
    (hok : RunOk (next S room) State.Checked { redis } es)
    (hrun : run (next S room) { redis } es = some s) : Seated s ∧ Wf s := by
  apply run_invariant (P := State.Checked) (I := fun s => Seated s ∧ Wf s) ?_ _ hok hrun
  · intro s e t hok hinv hnext
    have hstep := step_of_next hnext
    exact ⟨hinv.1.step hinv.2 hok hstep, hinv.2.step hstep⟩
  · exact ⟨seated_init redis, wf_init redis⟩

end Steps

/-! ## Two full teams of different players -/

/-- The matches that were confirmed, with the one that is just being put in the table. -/
def State.confirmedMatches (s : State) : List Match :=
  s.records ++
    match s.tickLoop with
    | .confirmed m _ => [m]
    | _ => []

/-- Every confirmed match has two full teams of different players, and two that are not over have
no player in common. -/
structure OneTeam (s : State) : Prop where
  full : ∀ m ∈ s.confirmedMatches, m.allUIDs.Nodup ∧ m.Full
  apart : (s.confirmedMatches.filter fun m => m.Live).Pairwise
    fun m m' => m.allUIDs.Disjoint m'.allUIDs

section OneTeam

variable {S : SortSlice} {room : Match → Option UInt64} {s : State} {uid : UInt64}

theorem count_flatMap_live (records : List Match) (uid : UInt64) :
    ((records.filter fun m => m.Live).flatMap Match.allUIDs).count uid =
      matchSeats records uid := by
  unfold matchSeats
  induction records with
  | nil => rfl
  | cons m records ih =>
    rw [List.map_cons, List.sum_cons, Match.count_seated, List.filter_cons, ← ih]
    by_cases hlive : m.Live
    · rw [if_pos (by simpa using hlive), if_pos hlive, List.flatMap_cons, List.count_append]
    · rw [if_neg (by simpa using hlive), if_neg hlive, Nat.zero_add]

/-- A player of a confirmed match that is not over has a seat for it. -/
theorem count_confirmedMatches_le (s : State) (uid : UInt64) :
    ((s.confirmedMatches.filter fun m => m.Live).flatMap Match.allUIDs).count uid ≤
      s.seats uid := by
  rw [count_flatMap_live]
  unfold State.confirmedMatches State.seats matchSeats
  rw [List.map_append, List.sum_append]
  cases s.tickLoop with
  | confirmed m rest =>
    change _ + ([m].map fun m => m.seated.count uid).sum ≤ m.allUIDs.count uid + _ + _
    rw [List.map_singleton, List.sum_singleton, Match.count_seated]
    split_ifs
    · omega
    · omega
  | _ =>
    simp only [List.map_nil, List.sum_nil]
    omega

theorem Seated.oneTeam (h : Seated s) (hw : Wf s) : OneTeam s := by
  have hflat : ((s.confirmedMatches.filter fun m => m.Live).flatMap Match.allUIDs).Nodup :=
    List.nodup_iff_count_le_one.mpr fun uid =>
      (count_confirmedMatches_le s uid).trans (h.one uid)
  refine ⟨fun m hm => ?_, (List.nodup_flatMap.mp hflat).2⟩
  unfold State.confirmedMatches at hm
  rcases List.mem_append.mp hm with hold | hnew
  · exact ⟨h.nodup m hold, hw.full m hold⟩
  · split at hnew
    -- the one that is not in the table yet
    · next mt rest hloop =>
      rw [List.mem_singleton.mp hnew]
      constructor
      · refine List.nodup_iff_count_le_one.mpr fun uid => ?_
        have hone := h.one uid
        unfold State.seats at hone
        rw [hloop] at hone
        change mt.allUIDs.count uid + _ + _ ≤ 1 at hone
        omega
      · exact (hw.loop_of hloop).1
    · cases hnew

/-- In every run of the service in which what it does not look at is met, nobody is in two teams:
not twice in a match, and not in two matches that are not over. -/
theorem oneTeam_of_run (S : SortSlice) (room : Match → Option UInt64) (redis : Option Redis)
    (es : List Event) (s : State) (hok : RunOk (next S room) State.Checked { redis } es)
    (hrun : run (next S room) { redis } es = some s) : OneTeam s := by
  rcases seated_of_run hok hrun with ⟨hseated, hw⟩
  exact hseated.oneTeam hw

/-- Two players are marked, the server does not answer, and they are matched in the next tick. -/
def duelAgain : List Event :=
  joinQueue 1 0 ++ joinQueue 2 1 ++
    [.tick, .matchMode, .matchMode, .matchMode, .anchor 0, .anchor 0, .nextMatchID 0 false 0,
      .markMatching, .removeFromPool, .markMatching, .removeFromPool, .casConfirm false false,
      .releaseState, .requeueState, .releaseEnqueue, .releaseState, .requeueState, .releaseEnqueue,
      .tick, .matchMode, .matchMode, .matchMode, .anchor 0, .anchor 0, .nextMatchID 0 false 0,
      .markMatching, .removeFromPool, .markMatching, .removeFromPool, .casConfirm true true, .putMatch]

theorem oneTeam_duelAgain :
    ∃ s, run (next .insertion createRoom) { redis := some {} } duelAgain = some s ∧
      s.records.map Match.allUIDs = [[1, 2]] ∧ OneTeam s := by
  have hplayers : (run (next .insertion createRoom) { redis := some {} } duelAgain).map
      (fun s => s.records.map Match.allUIDs) = some [[1, 2]] := by decide +kernel
  rcases Option.map_eq_some_iff.mp hplayers with ⟨s, hrun, hrecords⟩
  have hok : RunOk (next .insertion createRoom) State.Checked { redis := some {} } duelAgain := by
    decide +kernel
  exact ⟨s, hrun, hrecords, oneTeam_of_run .insertion createRoom (some {}) duelAgain s hok hrun⟩

/-- A player asks for a match of three against three. -/
def joinTrio (uid : UInt64) (i : ℕ) : List Event :=
  [.matchReq uid 1000 2 0, .countQueuing i, .checkTicket i, .putTicket i 0, .poolEnqueue i]

/-- Six players are found, and the server has no number for their match. They go back to the pool,
which they have not left, and are found again, some of them twice. -/
def lostNumber : List Event :=
  joinTrio 1 0 ++ joinTrio 2 1 ++ joinTrio 3 2 ++ joinTrio 4 3 ++ joinTrio 5 4 ++ joinTrio 6 5 ++
    [.tick, .matchMode, .matchMode] ++ List.replicate 6 (.anchor 0) ++
    [.matchMode, .nextMatchID 0 true 0] ++
    (List.replicate 6 [.releaseState, .requeueState, .releaseEnqueue]).flatten ++
    [.tick, .matchMode, .matchMode] ++ List.replicate 12 (.anchor 0) ++
    [.matchMode, .nextMatchID 0 false 0] ++
    (List.replicate 6 [.markMatching, .removeFromPool]).flatten ++ [.casConfirm true true, .putMatch]

/-- The third and the fifth player are in both teams. -/
theorem lostNumber_not_oneTeam :
    ¬ ∀ (S : SortSlice) (room : Match → Option UInt64) (redis : Option Redis) (es : List Event)
      (s : State), run (next S room) { redis } es = some s → OneTeam s := by
  intro h
  have hplayers : (run (next .insertion createRoom) { redis := some {} } lostNumber).map
      (fun s => s.records.map Match.allUIDs) = some [[1, 3, 5, 3, 5, 2]] := by decide +kernel
  rcases Option.map_eq_some_iff.mp hplayers with ⟨s, hrun, hrecords⟩
  have hmem : [1, 3, 5, 3, 5, 2] ∈ s.records.map Match.allUIDs := by
    rw [hrecords]
    exact List.mem_singleton.mpr rfl
  rcases List.mem_map.mp hmem with ⟨m, hm, huids⟩
  have hteam := h .insertion createRoom (some {}) lostNumber s hrun
  have hnodup := (hteam.full m (List.mem_append.mpr (.inl hm))).1
  rw [huids] at hnodup
  revert hnodup
  decide

end OneTeam

end Gmaker.Matching
