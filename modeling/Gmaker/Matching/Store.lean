import Gmaker.Lib.Assoc
import Gmaker.Matching.Engine

/-!
# Gmaker.Matching.Store — the ticket table, the matches and the reservations

The memory store holds one ticket and at most one match for a player, by pointer; the Redis
store counts the matches and reserves the players of a confirmed one for a minute. Without a
Redis server everything it is asked for succeeds.
-/

namespace Gmaker.Matching

open Gmaker.Lib

/-- A ticket's state is set. -/
def Heap.setState (h : Heap) (p : Ptr) (state : TicketState) : Heap :=
  Function.update h p { h p with state }

@[simp] theorem Heap.setState_self (h : Heap) (p : Ptr) (state : TicketState) :
    h.setState p state p = { h p with state } := Function.update_self _ _ _

/-! ## The memory store -/

/-- `MemoryStore`. Matches are objects, too, and are referred to by their place. -/
structure MemoryStore where
  tickets : Assoc UInt64 Ptr := []
  matchById : Assoc UInt64 ℕ := []
  uidToMatch : Assoc UInt64 UInt64 := []

namespace MemoryStore

/-- `PutTicket`. -/
def putTicket (m : MemoryStore) (uid : UInt64) (p : Ptr) : MemoryStore :=
  { m with tickets := m.tickets.assign uid p }

/-- `GetTicket`. -/
def getTicket (m : MemoryStore) (uid : UInt64) : Option Ptr := m.tickets.lookup uid

/-- `DeleteTicket`. -/
def deleteTicket (m : MemoryStore) (uid : UInt64) : MemoryStore :=
  { m with tickets := m.tickets.erase uid, uidToMatch := m.uidToMatch.erase uid }

/-- `UpdateTicketState`, with the texts of its errors. -/
def updateTicketState (h : Heap) (m : MemoryStore) (uid : UInt64) (target : TicketState) :
    Except String Heap :=
  match m.getTicket uid with
  | none => .error s!"ticket not found: uid={uid}"
  | some p =>
    if (h p).state.canTransitionTo target then .ok (h.setState p target)
    else
      let current := (h p).state.toText
      let wanted := target.toText
      .error s!"invalid ticket transition: {current} → {wanted}"

/-- The tickets after `UpdateTicketState` where the caller does not look at the error. -/
def tryTicketState (h : Heap) (m : MemoryStore) (uid : UInt64) (target : TicketState) : Heap :=
  (m.updateTicketState h uid target).toOption.getD h

/-- `CountQueuing`. -/
def countQueuing (h : Heap) (m : MemoryStore) : ℕ :=
  m.tickets.countP fun e => (h e.2).state = .queuing

/-- `PutMatch`. -/
def putMatch (m : MemoryStore) (mt : Match) (place : ℕ) : MemoryStore :=
  { m with
    matchById := m.matchById.assign mt.id place
    uidToMatch := mt.allUIDs.foldl (fun t uid => t.assign uid mt.id) m.uidToMatch }

/-- `UpdateMatchState` on the matches there are. -/
def updateMatchState (all : List Match) (m : MemoryStore) (matchID : UInt64)
    (target : MatchState) : List Match :=
  match m.matchById.lookup matchID with
  | none => all
  | some place => all.modify place fun mt =>
      if mt.state.canTransitionTo target then { mt with state := target } else mt

/-- The tickets after `BindMatch`. -/
def bindTickets (h : Heap) (m : MemoryStore) (uids : List UInt64) (matchID : UInt64) : Heap :=
  uids.foldl (fun h uid =>
    match m.getTicket uid with
    | none => h
    | some p => Function.update h p { h p with matchId := matchID }) h

/-- `BindMatch`. -/
def bindMatch (m : MemoryStore) (uids : List UInt64) (matchID : UInt64) : MemoryStore :=
  { m with uidToMatch := uids.foldl (fun t uid => t.assign uid matchID) m.uidToMatch }

/-- A ticket that goes back to the queue, ahead of others. -/
def released (t : Ticket) : Ticket :=
  { t with state := .queuing, matchId := 0, priority := t.priority + 1 }

/-- The tickets after `ReleaseTickets`. -/
def releaseStates (h : Heap) (m : MemoryStore) (uids : List UInt64) : Heap :=
  uids.foldl (fun h uid =>
    match m.getTicket uid with
    | none => h
    | some p => Function.update h p (released (h p))) h

/-- `ReleaseTickets`. -/
def releaseTickets (m : MemoryStore) (uids : List UInt64) : MemoryStore :=
  { m with uidToMatch := uids.foldl (fun t uid => t.erase uid) m.uidToMatch }

end MemoryStore

/-! ## The Redis store -/

/-- What the Redis server keeps for the service: the match counter and the players that are
reserved, with the match they are reserved for. -/
structure Redis where
  counter : UInt64 := 0
  settling : Assoc UInt64 UInt64 := []

/-- `NextMatchID`: without a server the time in nanoseconds is taken. -/
def nextMatchID (redis : Option Redis) (nano : UInt64) (fails : Bool) :
    Option (UInt64 × Option Redis) :=
  match redis with
  | none => some (nano, none)
  | some r => if fails then none else some (r.counter + 1, some { r with counter := r.counter + 1 })

/-- `CASConfirm`: the reservations afterwards and whether the match is confirmed. The script
may not be run, and what it answers may be lost. -/
def casConfirm (redis : Option Redis) (matchID : UInt64) (allUIDs : List UInt64)
    (ran replied : Bool) : Option Redis × Bool :=
  match redis with
  | none => (none, true)
  | some r =>
    if !ran || allUIDs.any fun uid => (r.settling.lookup uid).isSome then (some r, false)
    else (some { r with settling := allUIDs.foldl (fun t uid => t.assign uid matchID) r.settling },
      replied)

/-- The minute of a reservation is over. -/
def expireSettling (redis : Option Redis) (uid : UInt64) : Option Redis :=
  redis.map fun r => { r with settling := r.settling.erase uid }

/-! ## What the table says of a player -/

namespace MemoryStore

/-- The state of a player's ticket. -/
def stateOf (h : Heap) (m : MemoryStore) (uid : UInt64) : Option TicketState :=
  (m.getTicket uid).map fun p => (h p).state

/-- Every ticket is in the table under its player. -/
def Keyed (h : Heap) (fresh : Ptr) (m : MemoryStore) : Prop :=
  ∀ uid p, m.getTicket uid = some p → p < fresh ∧ (h p).uid = uid

variable {h h' : Heap} {m : MemoryStore} {uid uid' : UInt64} {p : Ptr} {fresh fresh' : Ptr}
  {target : TicketState}

theorem getTicket_putTicket (m : MemoryStore) (uid uid' : UInt64) (p : Ptr) :
    (m.putTicket uid p).getTicket uid' = if uid' = uid then some p else m.getTicket uid' :=
  Assoc.lookup_assign m.tickets uid uid' p

theorem getTicket_deleteTicket (m : MemoryStore) (uid uid' : UInt64) :
    (m.deleteTicket uid).getTicket uid' = if uid' = uid then none else m.getTicket uid' :=
  Assoc.lookup_erase m.tickets uid uid'

theorem Keyed.mono (hk : Keyed h fresh m) (hfresh : fresh ≤ fresh')
    (huid : ∀ p < fresh, (h' p).uid = (h p).uid) : Keyed h' fresh' m := by
  intro uid p hp
  obtain ⟨hlt, hu⟩ := hk uid p hp
  exact ⟨hlt.trans_le hfresh, (huid p hlt).trans hu⟩

/-- A pointer is in the table at most once. -/
theorem Keyed.inj (hk : Keyed h fresh m) (hp : m.getTicket uid = some p)
    (hp' : m.getTicket uid' = some p) : uid = uid' :=
  (hk uid p hp).2.symm.trans (hk uid' p hp').2

/-- `UpdateTicketState` sets the state where the transition is allowed, and does nothing
otherwise. -/
theorem tryTicketState_eq (h : Heap) (m : MemoryStore) (uid : UInt64) (target : TicketState) :
    (∃ p, m.getTicket uid = some p ∧ (h p).state.canTransitionTo target = true ∧
        m.tryTicketState h uid target = h.setState p target) ∨
      (m.tryTicketState h uid target = h ∧
        ∀ state, m.stateOf h uid = some state → state.canTransitionTo target = false) := by
  unfold tryTicketState updateTicketState stateOf
  cases m.getTicket uid with
  | none =>
    refine .inr ⟨rfl, fun state hstate => ?_⟩
    cases hstate
  | some p =>
    by_cases hcan : (h p).state.canTransitionTo target = true
    · simp only [hcan, if_true]
      exact .inl ⟨p, rfl, hcan, rfl⟩
    · rw [Bool.not_eq_true] at hcan
      simp only [hcan, Bool.false_eq_true, if_false]
      refine .inr ⟨rfl, fun state hstate => ?_⟩
      cases hstate
      exact hcan

end MemoryStore

end Gmaker.Matching
