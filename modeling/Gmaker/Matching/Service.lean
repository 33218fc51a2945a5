import Gmaker.Lib.Machine
import Gmaker.Matching.Store

/-!
# Gmaker.Matching.Service — the matchmaking service

Everything that goes on at once in a match server that leads: the requests of the players,
each on a goroutine of its own, the tick loop, which looks for candidates and then tries to
confirm them one after another, and the settlement loop, which takes a confirmed match to its
end. One step is one operation on the store, the pool or the Redis server; what a goroutine
does to a ticket outside of them is a step, too, except where it follows or precedes an
operation and nobody else can see the ticket in between.

The service's own `createRoom` hands out the match's number and cannot fail. It stands for a
request that can, and the retries and the rollback are there for that, so that the machine
has it as a parameter.
-/

namespace Gmaker.Matching

open Gmaker.Lib

/-! ## Errors -/

/-- `MatchError`. -/
structure MatchError where
  code : Int32
  msg : String
deriving DecidableEq

def errQueueFull : MatchError := { code := 1001, msg := "匹配队列已满，请稍后再试" }
def errAlreadyInQueue : MatchError := { code := 1002, msg := "已在匹配队列中" }
def errNotInQueue : MatchError := { code := 1003, msg := "不在匹配队列中" }

/-- What a request is answered when it fails. -/
inductive RequestError where
  | engine (e : MatchError)
  | store (msg : String)
deriving DecidableEq

/-! ## The parties -/

/-- Where a call of `Enqueue` is. -/
inductive EnqueuePc where
  | counting
  | checking
  | putting
  /-- The ticket is in the table and is to go to the pool. -/
  | pooling (p : Ptr)
  | returned (result : Option MatchError)
deriving DecidableEq

/-- A call of `Enqueue`. -/
structure EnqueueCall where
  ticket : Ticket
  pc : EnqueuePc := .counting
deriving DecidableEq

/-- Where a call of `Dequeue` is. -/
inductive DequeuePc where
  | getting
  | idling (p : Ptr)
  /-- The ticket is idle and is to leave the pool. -/
  | removing (p : Ptr)
  /-- It has left the pool and is to leave the table. -/
  | deleting
  | returned (result : Option RequestError)
deriving DecidableEq

/-- A call of `Dequeue`. -/
structure DequeueCall where
  uid : UInt64
  pc : DequeuePc := .getting
deriving DecidableEq

/-- Where `releaseCandidate` is with the first ticket of its list. -/
inductive ReleaseStage where
  | updateState
  | setQueuing
  | enqueue
deriving DecidableEq

/-- Where the tick loop is. -/
inductive TickLoop where
  /-- Candidates to be confirmed; without any it waits for the next tick. -/
  | candidates (todo : List Candidate)
  /-- `Tick`, before one of the modes. -/
  | matchModes (todo : List Int32) (found : List Candidate)
  /-- `doMatch`, before one of the anchors. -/
  | anchors (mode : Int32) (queueLen : ℕ) (todo : List Ptr) (search : Engine.Search)
      (later : List Int32) (found : List Candidate)
  /-- `onMatchCandidate`, with the number of the tickets it has marked; the last of them may
  still have to leave the pool. -/
  | marking (c : Candidate) (m : Match) (marked : ℕ) (removing : Option Ptr) (rest : List Candidate)
  /-- The reservation is made. -/
  | confirmed (m : Match) (rest : List Candidate)
  | binding (place : ℕ) (rest : List Candidate)
  | sending (place : ℕ) (rest : List Candidate)
  /-- `releaseCandidate`, of a candidate whose tickets were marked or were not. -/
  | releasing (todo : List Ptr) (stage : ReleaseStage) (marked : Bool) (rest : List Candidate)
deriving DecidableEq

/-- Where the settlement loop is. -/
inductive SettlementLoop where
  | waiting
  /-- `driveForward`, at the head of its loop. -/
  | driving (place : ℕ)
  /-- The match is complete and its tickets are settled. -/
  | settling (todo : List UInt64)
  /-- The match is rolled back and its tickets are to be released. -/
  | rollingBack (place : ℕ)
  /-- They go back to the pool; the ticket of the first may have been looked up. -/
  | requeuing (todo : List UInt64) (found : Option Ptr)
deriving DecidableEq

/-- The state of the service. -/
structure State where
  heap : Heap := fun _ => {}
  /-- The next pointer to be handed out. -/
  fresh : Ptr := 0
  pool : BucketPool := {}
  mem : MemoryStore := {}
  redis : Option Redis := none
  /-- The matches that were confirmed. -/
  records : List Match := []
  enqueues : List EnqueueCall := []
  dequeues : List DequeueCall := []
  tickLoop : TickLoop := .candidates []
  notifyCh : List ℕ := []
  settlementLoop : SettlementLoop := .waiting
  panicked : Bool := false
  /-- Players whose `Dequeue` succeeded and who have not been put in the table since. -/
  cancelled : List UInt64 := []
  /-- Players of a match that was confirmed while they were such. -/
  matchedAfter : List UInt64 := []

/-- What can happen next. -/
inductive Event where
  /-- A match request comes in. -/
  | matchReq (playerId : UInt64) (mmr mode teamSize : Int32)
  | countQueuing (i : ℕ)
  | checkTicket (i : ℕ)
  | putTicket (i : ℕ) (now : ℤ)
  | poolEnqueue (i : ℕ)
  /-- A cancel request comes in. -/
  | cancelReq (playerId : UInt64)
  | getTicket (i : ℕ)
  | setIdle (i : ℕ)
  | poolDequeue (i : ℕ)
  | deleteTicket (i : ℕ)
  | tick
  | matchMode
  | anchor (now : ℤ)
  | nextMatchID (nano : UInt64) (fails : Bool) (now : ℤ)
  | markMatching
  | removeFromPool
  | casConfirm (ran replied : Bool)
  | putMatch
  | bindMatch
  | notify
  | releaseState
  | requeueState
  | releaseEnqueue
  | receiveMatch
  | drive
  | settleTicket
  | releaseTickets
  | rollbackGet
  | rollbackEnqueue
  /-- A reservation runs out. -/
  | expire (uid : UInt64)
deriving DecidableEq

/-! ## Requests -/

/-- The ticket `handleMatchReq` makes of a request. -/
def requestTicket (playerId : UInt64) (mmr mode teamSize : Int32) : Ticket :=
  { uid := playerId, mmr, mode
    teamSize := if teamSize ≤ 0 then Engine.getTeamSize mode else teamSize }

namespace State

variable (S : SortSlice) (room : Match → Option UInt64)

def setEnqueue (s : State) (i : ℕ) (c : EnqueueCall) (pc : EnqueuePc) : State :=
  { s with enqueues := s.enqueues.set i { c with pc } }

def setDequeue (s : State) (i : ℕ) (c : DequeueCall) (pc : DequeuePc) : State :=
  { s with dequeues := s.dequeues.set i { c with pc } }

/-- The state of the ticket the table has for a player. -/
def ticketState (s : State) (uid : UInt64) : Option TicketState := s.mem.stateOf s.heap uid

/-- The admission gate. -/
def countQueuing (s : State) (i : ℕ) (c : EnqueueCall) : State :=
  if maxQueueSize ≤ s.mem.countQueuing s.heap then s.setEnqueue i c (.returned (some errQueueFull))
  else s.setEnqueue i c .checking

/-- A player that queues or is in a match is turned away. -/
def checkTicket (s : State) (i : ℕ) (c : EnqueueCall) : State :=
  if s.ticketState c.ticket.uid = some .queuing ∨ s.ticketState c.ticket.uid = some .matching then
    s.setEnqueue i c (.returned (some errAlreadyInQueue))
  else s.setEnqueue i c .putting

/-- The ticket is made ready and put in the table. -/
def putTicket (s : State) (i : ℕ) (c : EnqueueCall) (now : ℤ) : State :=
  { s.setEnqueue i c (.pooling s.fresh) with
    heap := Function.update s.heap s.fresh
      { c.ticket with state := .queuing, enqueueAt := now, priority := 0 }
    fresh := s.fresh + 1
    mem := s.mem.putTicket c.ticket.uid s.fresh
    cancelled := s.cancelled.filter (· ≠ c.ticket.uid) }

def poolEnqueue (s : State) (i : ℕ) (c : EnqueueCall) (p : Ptr) : State :=
  { s.setEnqueue i c (.returned none) with pool := s.pool.enqueue S s.heap p }

def getTicket (s : State) (i : ℕ) (c : DequeueCall) : State :=
  match s.mem.getTicket c.uid with
  | none => s.setDequeue i c (.returned (some (.engine errNotInQueue)))
  | some p =>
    if (s.heap p).state = .queuing then s.setDequeue i c (.idling p)
    else s.setDequeue i c (.returned (some (.engine errNotInQueue)))

def setIdle (s : State) (i : ℕ) (c : DequeueCall) (p : Ptr) : State :=
  match s.mem.updateTicketState s.heap c.uid .idle with
  | .error msg => s.setDequeue i c (.returned (some (.store msg)))
  | .ok heap => { s.setDequeue i c (.removing p) with heap }

def poolDequeue (s : State) (i : ℕ) (c : DequeueCall) (p : Ptr) : State :=
  match s.pool.dequeue s.heap p with
  | none => { s with panicked := true }
  | some pool => { s.setDequeue i c .deleting with pool }

def deleteTicket (s : State) (i : ℕ) (c : DequeueCall) : State :=
  { s.setDequeue i c (.returned none) with
    mem := s.mem.deleteTicket c.uid
    cancelled := c.uid :: s.cancelled }

/-! ## The tick loop -/

/-- Before the next mode, or the candidates. -/
def afterMode (later : List Int32) (found : List Candidate) : TickLoop :=
  if later = [] then .candidates found else .matchModes later found

/-- `matchMode`: below the needed number it waits, however long that has been. -/
def matchMode (s : State) (mode : Int32) (later : List Int32) (found : List Candidate) : State :=
  let allTickets := s.pool.queryRange s.heap mode 0 99999
  let tickLoop :=
    if allTickets.length < Engine.totalNeeded mode then afterMode later found
    else
      .anchors mode allTickets.length
        (S.sort (fun a b => (s.heap b).priority < (s.heap a).priority) allTickets) {} later found
  { s with tickLoop }

/-- One anchor of `doMatch`. -/
def anchor (s : State) (mode : Int32) (queueLen : ℕ) (p : Ptr) (todo : List Ptr)
    (search : Engine.Search) (later : List Int32) (found : List Candidate) (now : ℤ) : State :=
  let radius := Engine.anchorRadius queueLen ((s.heap p).waitMs now) false
  let nearby := s.pool.queryRange s.heap mode (s.heap p).mmr radius
  let search := search.anchor S s.heap (Engine.totalNeeded mode) p nearby
  let tickLoop :=
    if todo = [] then afterMode later (found ++ search.results)
    else .anchors mode queueLen todo search later found
  { s with tickLoop }

/-- Before the next ticket that is released, or the next candidate. -/
def release (todo : List Ptr) (marked : Bool) (rest : List Candidate) : TickLoop :=
  if todo = [] then .candidates rest else .releasing todo .updateState marked rest

/-- `onMatchCandidate` begins: the match gets its number, or the candidate is given up. -/
def nextMatchID (s : State) (c : Candidate) (rest : List Candidate) (nano : UInt64) (fails : Bool)
    (now : ℤ) : State :=
  match Matching.nextMatchID s.redis nano fails with
  | none => { s with tickLoop := release c.tickets false rest }
  | some (matchID, redis) =>
    match c.teamA with
    | [] => { s with panicked := true }
    | first :: _ =>
      let m : Match :=
        { id := matchID, mode := (s.heap first).mode, teamSize := (s.heap first).teamSize
          teamA := c.teamA.map fun p => (s.heap p).uid
          teamB := c.teamB.map fun p => (s.heap p).uid
          createdAt := now }
      { s with redis, tickLoop := .marking c m 0 none rest }

/-- A ticket of the candidate is marked. What `UpdateTicketState` returns is not looked at. -/
def markMatching (s : State) (c : Candidate) (m : Match) (marked : ℕ) (p : Ptr)
    (rest : List Candidate) : State :=
  { s with
    heap := s.mem.tryTicketState s.heap (s.heap p).uid .matching
    tickLoop := .marking c m (marked + 1) (some p) rest }

def removeFromPool (s : State) (c : Candidate) (m : Match) (marked : ℕ) (p : Ptr)
    (rest : List Candidate) : State :=
  match s.pool.dequeue s.heap p with
  | none => { s with panicked := true }
  | some pool => { s with pool, tickLoop := .marking c m marked none rest }

def casConfirm (s : State) (c : Candidate) (m : Match) (rest : List Candidate)
    (ran replied : Bool) : State :=
  let (redis, ok) := Matching.casConfirm s.redis m.id m.allUIDs ran replied
  { s with
    redis
    tickLoop :=
      if ok then .confirmed { m with state := .confirmed } rest else release c.tickets true rest }

def putMatch (s : State) (m : Match) (rest : List Candidate) : State :=
  { s with
    records := s.records ++ [m]
    mem := s.mem.putMatch m s.records.length
    tickLoop := .binding s.records.length rest
    matchedAfter := s.matchedAfter ++ m.allUIDs.filter fun uid => s.cancelled.contains uid }

def bindMatch (s : State) (m : Match) (place : ℕ) (rest : List Candidate) : State :=
  { s with
    heap := s.mem.bindTickets s.heap m.allUIDs m.id
    mem := s.mem.bindMatch m.allUIDs m.id
    tickLoop := .sending place rest }

def releaseState (s : State) (p : Ptr) (todo : List Ptr) (marked : Bool) (rest : List Candidate) :
    State :=
  { s with
    heap := s.mem.tryTicketState s.heap (s.heap p).uid .queuing
    tickLoop := .releasing (p :: todo) .setQueuing marked rest }

/-- The ticket that the candidate has is set to queuing, whatever it is. -/
def requeueState (s : State) (p : Ptr) (todo : List Ptr) (marked : Bool) (rest : List Candidate) :
    State :=
  { s with
    heap := Function.update s.heap p
      { s.heap p with state := .queuing, priority := (s.heap p).priority + 1 }
    tickLoop := .releasing (p :: todo) .enqueue marked rest }

def releaseEnqueue (s : State) (p : Ptr) (todo : List Ptr) (marked : Bool)
    (rest : List Candidate) : State :=
  { s with pool := s.pool.enqueue S s.heap p, tickLoop := release todo marked rest }

/-! ## The settlement loop -/

/-- `UpdateMatchState`, and the state of the match itself, with what else is set in it. -/
def matchTo (s : State) (place : ℕ) (m : Match) (target : MatchState) (f : Match → Match) : State :=
  { s with
    records := (s.mem.updateMatchState s.records m.id target).modify place
      fun m => f { m with state := target } }

/-- The room is made, or the match is to be tried again. -/
def roomPrep (s : State) (place : ℕ) (m : Match) : State :=
  match room m with
  | none => s.matchTo place m .retry fun m => { m with retries := m.retries + 1 }
  | some roomId => s.matchTo place m .notifying fun m => { m with roomId }

/-- The rest of the players of a match that is complete. -/
def settle (todo : List UInt64) : SettlementLoop := if todo = [] then .waiting else .settling todo

/-- One round of the loop of `driveForward`. After the first step of a confirmed match its
round goes on as a round in `roomPrep` does. A draft stays one for ever. -/
def drive (s : State) (place : ℕ) (m : Match) : State :=
  match m.state with
  | .confirmed => s.matchTo place m .roomPrep id
  | .roomPrep => s.roomPrep room place m
  | .retry =>
    if maxRetries ≤ m.retries then
      { s.matchTo place m .rollback id with settlementLoop := .rollingBack place }
    else s.matchTo place m .roomPrep id
  | .notifying =>
    { s.matchTo place m .complete id with settlementLoop := settle m.allUIDs }
  | .draft => s
  | .complete | .aborted | .rollback | .matchPartial => { s with settlementLoop := .waiting }

def settleTicket (s : State) (uid : UInt64) (todo : List UInt64) : State :=
  { s with
    heap := s.mem.tryTicketState s.heap uid .settling
    settlementLoop := settle todo }

/-- The rest of the players of a match that is rolled back. -/
def requeue (todo : List UInt64) : SettlementLoop :=
  if todo = [] then .waiting else .requeuing todo none

def releaseTickets (s : State) (m : Match) : State :=
  { s with
    heap := s.mem.releaseStates s.heap m.allUIDs
    mem := s.mem.releaseTickets m.allUIDs
    settlementLoop := requeue m.allUIDs }

def rollbackGet (s : State) (uid : UInt64) (todo : List UInt64) : State :=
  { s with
    settlementLoop :=
      match s.mem.getTicket uid with
      | none => requeue todo
      | some p => .requeuing (uid :: todo) (some p) }

def rollbackEnqueue (s : State) (p : Ptr) (todo : List UInt64) : State :=
  { s with pool := s.pool.enqueue S s.heap p, settlementLoop := requeue todo }

end State

/-! ## Steps -/

/-- The room number the service gives itself. -/
def createRoom (m : Match) : Option UInt64 := some m.id

/-- The capacity of the channel to the settlement loop. -/
def notifyCap : ℕ := 256

section Next

variable (S : SortSlice) (room : Match → Option UInt64)

/-- The steps of the calls of `Enqueue` and `Dequeue`. -/
def nextCall (s : State) : Event → Option State
  | .matchReq playerId mmr mode teamSize =>
    some { s with
      enqueues := s.enqueues ++ [{ ticket := requestTicket playerId mmr mode teamSize }] }
  | .countQueuing i => (s.enqueues[i]?).bind fun c =>
    if c.pc = .counting then some (s.countQueuing i c) else none
  | .checkTicket i => (s.enqueues[i]?).bind fun c =>
    if c.pc = .checking then some (s.checkTicket i c) else none
  | .putTicket i now => (s.enqueues[i]?).bind fun c =>
    if c.pc = .putting then some (s.putTicket i c now) else none
  | .poolEnqueue i => (s.enqueues[i]?).bind fun c =>
    match c.pc with
    | .pooling p => some (s.poolEnqueue S i c p)
    | _ => none
  | .cancelReq playerId => some { s with dequeues := s.dequeues ++ [{ uid := playerId }] }
  | .getTicket i => (s.dequeues[i]?).bind fun c =>
    if c.pc = .getting then some (s.getTicket i c) else none
  | .setIdle i => (s.dequeues[i]?).bind fun c =>
    match c.pc with
    | .idling p => some (s.setIdle i c p)
    | _ => none
  | .poolDequeue i => (s.dequeues[i]?).bind fun c =>
    match c.pc with
    | .removing p => some (s.poolDequeue i c p)
    | _ => none
  | .deleteTicket i => (s.dequeues[i]?).bind fun c =>
    if c.pc = .deleting then some (s.deleteTicket i c) else none
  | _ => none

/-- The steps of the tick loop. -/
def nextTick (s : State) : Event → Option State
  | .tick =>
    match s.tickLoop with
    | .candidates [] => some { s with tickLoop := .matchModes Engine.modes [] }
    | _ => none
  | .matchMode =>
    match s.tickLoop with
    | .matchModes (mode :: later) found => some (s.matchMode S mode later found)
    | _ => none
  | .anchor now =>
    match s.tickLoop with
    | .anchors mode queueLen (p :: todo) search later found =>
      some (s.anchor S mode queueLen p todo search later found now)
    | _ => none
  | .nextMatchID nano fails now =>
    match s.tickLoop with
    | .candidates (c :: rest) => some (s.nextMatchID c rest nano fails now)
    | _ => none
  | .markMatching =>
    match s.tickLoop with
    | .marking c m marked none rest =>
      (c.tickets[marked]?).map fun p => s.markMatching c m marked p rest
    | _ => none
  | .removeFromPool =>
    match s.tickLoop with
    | .marking c m marked (some p) rest => some (s.removeFromPool c m marked p rest)
    | _ => none
  | .casConfirm ran replied =>
    match s.tickLoop with
    | .marking c m marked none rest =>
      if marked = c.tickets.length then some (s.casConfirm c m rest ran replied) else none
    | _ => none
  | .putMatch =>
    match s.tickLoop with
    | .confirmed m rest => some (s.putMatch m rest)
    | _ => none
  | .bindMatch =>
    match s.tickLoop with
    | .binding place rest => (s.records[place]?).map fun m => s.bindMatch m place rest
    | _ => none
  | .notify =>
    match s.tickLoop with
    | .sending place rest =>
      if s.notifyCh.length < notifyCap then
        some { s with notifyCh := s.notifyCh ++ [place], tickLoop := .candidates rest }
      else none
    | _ => none
  | .releaseState =>
    match s.tickLoop with
    | .releasing (p :: todo) .updateState marked rest => some (s.releaseState p todo marked rest)
    | _ => none
  | .requeueState =>
    match s.tickLoop with
    | .releasing (p :: todo) .setQueuing marked rest => some (s.requeueState p todo marked rest)
    | _ => none
  | .releaseEnqueue =>
    match s.tickLoop with
    | .releasing (p :: todo) .enqueue marked rest => some (s.releaseEnqueue S p todo marked rest)
    | _ => none
  | _ => none

/-- The steps of the settlement loop. -/
def nextSettlement (s : State) : Event → Option State
  | .receiveMatch =>
    match s.settlementLoop, s.notifyCh with
    | .waiting, place :: notifyCh => some { s with notifyCh, settlementLoop := .driving place }
    | _, _ => none
  | .drive =>
    match s.settlementLoop with
    | .driving place => (s.records[place]?).map fun m => s.drive room place m
    | _ => none
  | .settleTicket =>
    match s.settlementLoop with
    | .settling (uid :: todo) => some (s.settleTicket uid todo)
    | _ => none
  | .releaseTickets =>
    match s.settlementLoop with
    | .rollingBack place => (s.records[place]?).map fun m => s.releaseTickets m
    | _ => none
  | .rollbackGet =>
    match s.settlementLoop with
    | .requeuing (uid :: todo) none => some (s.rollbackGet uid todo)
    | _ => none
  | .rollbackEnqueue =>
    match s.settlementLoop with
    | .requeuing (_ :: todo) (some p) => some (s.rollbackEnqueue S p todo)
    | _ => none
  | _ => none

/-- One step of the service. -/
def next (s : State) (e : Event) : Option State :=
  if s.panicked then none
  else
    match e with
    | .expire uid => some { s with redis := expireSettling s.redis uid }
    | e => (nextCall S s e).or ((nextTick S s e).or (nextSettlement S room s e))

/-! ## What a step is -/

/-- Every step with what it needs and what it leaves. -/
inductive Step (s : State) : Event → State → Prop where
  | matchReq {playerId : UInt64} {mmr mode teamSize : Int32} :
    Step s (.matchReq playerId mmr mode teamSize) { s with
      enqueues := s.enqueues ++ [{ ticket := requestTicket playerId mmr mode teamSize }] }
  | countQueuing {i : ℕ} {c : EnqueueCall} (hc : s.enqueues[i]? = some c) (hpc : c.pc = .counting) :
    Step s (.countQueuing i) (s.countQueuing i c)
  | checkTicket {i : ℕ} {c : EnqueueCall} (hc : s.enqueues[i]? = some c) (hpc : c.pc = .checking) :
    Step s (.checkTicket i) (s.checkTicket i c)
  | putTicket {i : ℕ} {c : EnqueueCall} {now : ℤ} (hc : s.enqueues[i]? = some c)
    (hpc : c.pc = .putting) : Step s (.putTicket i now) (s.putTicket i c now)
  | poolEnqueue {i : ℕ} {c : EnqueueCall} {p : Ptr} (hc : s.enqueues[i]? = some c)
    (hpc : c.pc = .pooling p) : Step s (.poolEnqueue i) (s.poolEnqueue S i c p)
  | cancelReq {playerId : UInt64} :
    Step s (.cancelReq playerId) { s with dequeues := s.dequeues ++ [{ uid := playerId }] }
  | getTicket {i : ℕ} {c : DequeueCall} (hc : s.dequeues[i]? = some c) (hpc : c.pc = .getting) :
    Step s (.getTicket i) (s.getTicket i c)
  | setIdle {i : ℕ} {c : DequeueCall} {p : Ptr} (hc : s.dequeues[i]? = some c)
    (hpc : c.pc = .idling p) : Step s (.setIdle i) (s.setIdle i c p)
  | poolDequeue {i : ℕ} {c : DequeueCall} {p : Ptr} (hc : s.dequeues[i]? = some c)
    (hpc : c.pc = .removing p) : Step s (.poolDequeue i) (s.poolDequeue i c p)
  | deleteTicket {i : ℕ} {c : DequeueCall} (hc : s.dequeues[i]? = some c) (hpc : c.pc = .deleting) :
    Step s (.deleteTicket i) (s.deleteTicket i c)
  | tick (hloop : s.tickLoop = .candidates []) :
    Step s .tick { s with tickLoop := .matchModes Engine.modes [] }
  | matchMode {mode : Int32} {later : List Int32} {found : List Candidate}
    (hloop : s.tickLoop = .matchModes (mode :: later) found) :
    Step s .matchMode (s.matchMode S mode later found)
  | anchor {mode : Int32} {queueLen : ℕ} {p : Ptr} {todo : List Ptr} {search : Engine.Search}
    {later : List Int32} {found : List Candidate} {now : ℤ}
    (hloop : s.tickLoop = .anchors mode queueLen (p :: todo) search later found) :
    Step s (.anchor now) (s.anchor S mode queueLen p todo search later found now)
  | nextMatchID {c : Candidate} {rest : List Candidate} {nano : UInt64} {fails : Bool} {now : ℤ}
    (hloop : s.tickLoop = .candidates (c :: rest)) :
    Step s (.nextMatchID nano fails now) (s.nextMatchID c rest nano fails now)
  | markMatching {c : Candidate} {m : Match} {marked : ℕ} {p : Ptr} {rest : List Candidate}
    (hloop : s.tickLoop = .marking c m marked none rest) (hp : c.tickets[marked]? = some p) :
    Step s .markMatching (s.markMatching c m marked p rest)
  | removeFromPool {c : Candidate} {m : Match} {marked : ℕ} {p : Ptr} {rest : List Candidate}
    (hloop : s.tickLoop = .marking c m marked (some p) rest) :
    Step s .removeFromPool (s.removeFromPool c m marked p rest)
  | casConfirm {c : Candidate} {m : Match} {rest : List Candidate} {ran replied : Bool}
    (hloop : s.tickLoop = .marking c m c.tickets.length none rest) :
    Step s (.casConfirm ran replied) (s.casConfirm c m rest ran replied)
  | putMatch {m : Match} {rest : List Candidate} (hloop : s.tickLoop = .confirmed m rest) :
    Step s .putMatch (s.putMatch m rest)
  | bindMatch {place : ℕ} {m : Match} {rest : List Candidate}
    (hloop : s.tickLoop = .binding place rest) (hm : s.records[place]? = some m) :
    Step s .bindMatch (s.bindMatch m place rest)
  | notify {place : ℕ} {rest : List Candidate} (hloop : s.tickLoop = .sending place rest)
    (hroom : s.notifyCh.length < notifyCap) :
    Step s .notify { s with notifyCh := s.notifyCh ++ [place], tickLoop := .candidates rest }
  | releaseState {p : Ptr} {todo : List Ptr} {marked : Bool} {rest : List Candidate}
    (hloop : s.tickLoop = .releasing (p :: todo) .updateState marked rest) :
    Step s .releaseState (s.releaseState p todo marked rest)
  | requeueState {p : Ptr} {todo : List Ptr} {marked : Bool} {rest : List Candidate}
    (hloop : s.tickLoop = .releasing (p :: todo) .setQueuing marked rest) :
    Step s .requeueState (s.requeueState p todo marked rest)
  | releaseEnqueue {p : Ptr} {todo : List Ptr} {marked : Bool} {rest : List Candidate}
    (hloop : s.tickLoop = .releasing (p :: todo) .enqueue marked rest) :
    Step s .releaseEnqueue (s.releaseEnqueue S p todo marked rest)
  | receiveMatch {place : ℕ} {notifyCh : List ℕ} (hloop : s.settlementLoop = .waiting)
    (hch : s.notifyCh = place :: notifyCh) :
    Step s .receiveMatch { s with notifyCh, settlementLoop := .driving place }
  | drive {place : ℕ} {m : Match} (hloop : s.settlementLoop = .driving place)
    (hm : s.records[place]? = some m) : Step s .drive (s.drive room place m)
  | settleTicket {uid : UInt64} {todo : List UInt64}
    (hloop : s.settlementLoop = .settling (uid :: todo)) :
    Step s .settleTicket (s.settleTicket uid todo)
  | releaseTickets {place : ℕ} {m : Match} (hloop : s.settlementLoop = .rollingBack place)
    (hm : s.records[place]? = some m) : Step s .releaseTickets (s.releaseTickets m)
  | rollbackGet {uid : UInt64} {todo : List UInt64}
    (hloop : s.settlementLoop = .requeuing (uid :: todo) none) :
    Step s .rollbackGet (s.rollbackGet uid todo)
  | rollbackEnqueue {uid : UInt64} {p : Ptr} {todo : List UInt64}
    (hloop : s.settlementLoop = .requeuing (uid :: todo) (some p)) :
    Step s .rollbackEnqueue (s.rollbackEnqueue S p todo)
  | expire {uid : UInt64} : Step s (.expire uid) { s with redis := expireSettling s.redis uid }

variable {S room}

theorem step_of_nextCall {s s' : State} {e : Event} (hnext : nextCall S s e = some s') :
    Step S room s e s' := by
  cases e with
  | matchReq playerId mmr mode teamSize =>
    cases hnext
    exact .matchReq
  | cancelReq playerId =>
    cases hnext
    exact .cancelReq
  | countQueuing i | checkTicket i | putTicket i now | getTicket i | deleteTicket i =>
    obtain ⟨c, hc, hstep⟩ := Option.bind_eq_some_iff.mp hnext
    split_ifs at hstep with hpc
    cases hstep
    constructor
    · exact hc
    · exact hpc
  | poolEnqueue i | setIdle i | poolDequeue i =>
    obtain ⟨c, hc, hstep⟩ := Option.bind_eq_some_iff.mp hnext
    split at hstep
    · next p hpc =>
      cases hstep
      constructor
      · exact hc
      · exact hpc
    · cases hstep
  | _ => cases hnext

theorem step_of_nextTick {s s' : State} {e : Event} (hnext : nextTick S s e = some s') :
    Step S room s e s' := by
  unfold nextTick at hnext
  cases e with
  | markMatching =>
    simp only at hnext
    split at hnext
    · next c m marked rest hloop =>
      obtain ⟨p, hp, hstep⟩ := Option.map_eq_some_iff.mp hnext
      cases hstep
      exact .markMatching hloop hp
    · cases hnext
  | bindMatch =>
    simp only at hnext
    split at hnext
    · next place rest hloop =>
      obtain ⟨m, hm, hstep⟩ := Option.map_eq_some_iff.mp hnext
      cases hstep
      exact .bindMatch hloop hm
    · cases hnext
  | casConfirm ran replied =>
    simp only at hnext
    split at hnext
    · next c m marked rest hloop =>
      split_ifs at hnext with hall
      cases hnext
      subst hall
      exact .casConfirm hloop
    · cases hnext
  | notify =>
    simp only at hnext
    split at hnext
    · next place rest hloop =>
      split_ifs at hnext with hroom
      cases hnext
      exact .notify hloop hroom
    · cases hnext
  | tick | matchMode | anchor now | nextMatchID nano fails now | removeFromPool | putMatch
  | releaseState | requeueState | releaseEnqueue =>
    simp only at hnext
    split at hnext
    · next hloop =>
      cases hnext
      constructor
      exact hloop
    · cases hnext
  | _ => cases hnext

theorem step_of_nextSettlement {s s' : State} {e : Event}
    (hnext : nextSettlement S room s e = some s') : Step S room s e s' := by
  unfold nextSettlement at hnext
  cases e with
  | receiveMatch =>
    simp only at hnext
    split at hnext
    · next place notifyCh hloop hch =>
      cases hnext
      exact .receiveMatch hloop hch
    · cases hnext
  | drive | releaseTickets =>
    simp only at hnext
    split at hnext
    · next place hloop =>
      obtain ⟨m, hm, hstep⟩ := Option.map_eq_some_iff.mp hnext
      cases hstep
      constructor
      · exact hloop
      · exact hm
    · cases hnext
  | settleTicket | rollbackGet | rollbackEnqueue =>
    simp only at hnext
    split at hnext
    · next hloop =>
      cases hnext
      constructor
      exact hloop
    · cases hnext
  | _ => cases hnext

/-- An event fires as the step of its kind, in a service that has not panicked. -/
theorem step_of_next {s s' : State} {e : Event} (hnext : next S room s e = some s') :
    Step S room s e s' := by
  unfold next at hnext
  split_ifs at hnext
  split at hnext
  · cases hnext
    exact .expire
  · rcases Option.or_eq_some_iff.mp hnext with hcall | ⟨-, hnext⟩
    · exact step_of_nextCall hcall
    · rcases Option.or_eq_some_iff.mp hnext with htick | ⟨-, hnext⟩
      · exact step_of_nextTick htick
      · exact step_of_nextSettlement hnext

end Next

end Gmaker.Matching
