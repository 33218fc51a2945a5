import Mathlib

/-!
# Gmaker.Matching.Model — tickets and matches

What the matchmaking service is about: the ticket of a queuing player and its state machine,
the match of two teams and its state machine, and the parameters of the search. Numbers of 32
bits wrap as the program's do; times are milliseconds.
-/

namespace Gmaker.Matching

/-! ## The state machine of a ticket -/

/-- Where a ticket stands. -/
inductive TicketState where
  | idle
  | queuing
  /-- In a candidate, or in a match that is not complete. -/
  | matching
  | settling
  | roomed
deriving DecidableEq

namespace TicketState

/-- `ticketTransitions`. -/
def transitions : TicketState → List TicketState
  | idle => [queuing]
  | queuing => [matching, idle]
  | matching => [settling, queuing]
  | settling => [roomed, queuing]
  | roomed => [idle]

/-- `CanTransitionTo`. -/
def canTransitionTo (s target : TicketState) : Bool := s.transitions.contains target

/-- The names in messages. -/
def toText : TicketState → String
  | idle => "idle"
  | queuing => "queuing"
  | matching => "matching"
  | settling => "settling"
  | roomed => "roomed"

/-- A candidate takes queuing tickets only. -/
theorem canTransitionTo_matching {s : TicketState} : s.canTransitionTo matching = true ↔ s = queuing := by
  cases s <;> decide

/-- What can be called off: a ticket that queues, or one whose battle is over. -/
theorem canTransitionTo_idle {s : TicketState} :
    s.canTransitionTo idle = true ↔ s = queuing ∨ s = roomed := by
  cases s <;> decide

end TicketState

/-! ## The state machine of a match -/

/-- Where a match stands. -/
inductive MatchState where
  | draft
  | confirmed
  | roomPrep
  | retry
  | notifying
  | complete
  | aborted
  | rollback
  | matchPartial
deriving DecidableEq

namespace MatchState

/-- `IsTerminal`. -/
def isTerminal : MatchState → Bool
  | complete | aborted | rollback | matchPartial => true
  | _ => false

/-- `matchTransitions`. -/
def transitions : MatchState → List MatchState
  | draft => [confirmed, aborted]
  | confirmed => [roomPrep]
  | roomPrep => [notifying, retry]
  | retry => [roomPrep, rollback]
  | notifying => [complete, matchPartial]
  | rollback | aborted | complete | matchPartial => []

/-- `CanTransitionTo`. -/
def canTransitionTo (s target : MatchState) : Bool := s.transitions.contains target

/-- Nothing leads out of a terminal state. -/
theorem not_isTerminal {s target : MatchState} (h : s.canTransitionTo target = true) :
    s.isTerminal = false := by
  cases s <;> first | rfl | cases h

end MatchState

/-! ## Tickets and matches -/

/-- A player's ticket. -/
structure Ticket where
  uid : UInt64 := 0
  mmr : Int32 := 0
  mode : Int32 := 0
  teamSize : Int32 := 0
  state : TicketState := .idle
  /-- The match it is bound to, 0 for none. -/
  matchId : UInt64 := 0
  enqueueAt : ℤ := 0
  priority : Int32 := 0
deriving DecidableEq, Inhabited

namespace Ticket

/-- `WaitMs`. -/
def waitMs (t : Ticket) (now : ℤ) : Int32 := Int32.ofInt (now - t.enqueueAt)

/-- `MatchQuality`: the smaller the better. -/
def matchQuality (t other : Ticket) : Int32 :=
  let diff := t.mmr - other.mmr
  if diff < 0 then -diff else diff

/-- `BucketIndex`: division cuts towards zero. -/
def bucketIndex (t : Ticket) : Int32 := t.mmr / 300

/-- The bucket a ticket is filed in: its mode and the index. -/
def slot (t : Ticket) : Int32 × Int32 := (t.mode, t.bucketIndex)

end Ticket

/-- A match. -/
structure Match where
  id : UInt64
  state : MatchState := .draft
  mode : Int32
  teamSize : Int32
  teamA : List UInt64
  teamB : List UInt64
  roomId : UInt64 := 0
  retries : ℤ := 0
  createdAt : ℤ
deriving DecidableEq

/-- `AllUIDs`. -/
def Match.allUIDs (m : Match) : List UInt64 := m.teamA ++ m.teamB

/-- Not finished, and not rolled back. -/
def Match.Live (m : Match) : Prop := m.state.isTerminal = false

instance (m : Match) : Decidable m.Live := inferInstanceAs (Decidable (_ = _))

/-! ## Parameters -/

def bucketMMRRange : Int32 := 300
def maxRetries : ℤ := 3
def defaultTeamSize : Int32 := 5
def baseSearchRadius : Int32 := 20
def maxSearchRadius : Int32 := 300
def popRadiusFactor : Int32 := 10
def waitRadiusFactor : Int32 := 50
def maxQueueSize : ℕ := 50000

/-- `SearchRadius`: wider for a longer queue and a longer wait. -/
def searchRadius (queueLen : ℕ) (waitMs : Int32) : Int32 :=
  let radius := baseSearchRadius + Int32.ofNat queueLen / popRadiusFactor + waitMs / waitRadiusFactor
  if maxSearchRadius < radius then maxSearchRadius else radius

end Gmaker.Matching
