import Gmaker.Gateway.Connections

/-!
# Gmaker.Gateway.RoomMaps — who is in which room

The gateway keeps the members of each room and the room of each connection. Upstreams
tell it who joins and leaves, in any order; a close takes the connection out of the
room that it is in.

The two maps agree (`Consistent`) as long as a connection joins no second room, leaves
no room but its own, and joins none after it was closed; and only then
(`consistent_exact`). `BindPlayer`, which keeps two maps of the same kind, takes out
the old entry first.
-/

namespace Gmaker.Gateway

open Gmaker.Lib Gmaker.Net

namespace RoomMaps

/-! ## The gateway's rooms -/

/-- `protocol::CMD_GW_ROOM_JOIN`. -/
def cmdGwRoomJoin : UInt32 := 0x1010

/-- `protocol::CMD_GW_ROOM_LEAVE`. -/
def cmdGwRoomLeave : UInt32 := 0x1011

/-- The two maps, and the connections whose `OnClientClose` has run. -/
structure State where
  rooms : Rooms UInt64 := {}
  closed : Finset UInt64 := ∅

/-- What is done to the rooms. -/
inductive RoomEvent where
  /-- a packet of an upstream -/
  | upstream (pkt : Packet)
  /-- `OnClientClose` -/
  | close (conn : UInt64)
deriving DecidableEq

/-- What a packet of an upstream says about rooms. -/
inductive Notice where
  | join (room conn : UInt64)
  | leave (room conn : UInt64)
  | none
deriving DecidableEq

/-- The first branches of `OnUpstreamPacket`. -/
def notice (pkt : Packet) : Notice :=
  if pkt.header.cmdId = cmdGwRoomJoin then
    if 16 ≤ pkt.payload.length then .join (readU64BE pkt.payload 0) (readU64BE pkt.payload 8)
    else .none
  else if pkt.header.cmdId = cmdGwRoomLeave then
    if 16 ≤ pkt.payload.length then .leave (readU64BE pkt.payload 0) (readU64BE pkt.payload 8)
    else .none
  else .none

namespace State

/-- `OnUpstreamPacket`, as far as it changes rooms. -/
def onUpstreamPacket (s : State) (pkt : Packet) : State :=
  match notice pkt with
  | .join room conn => { s with rooms := s.rooms.join room conn }
  | .leave room conn => { s with rooms := s.rooms.leave room conn }
  | .none => s

/-- `OnClientClose`, as far as it changes rooms. -/
def onClientClose (s : State) (conn : UInt64) : State where
  rooms := s.rooms.cleanup conn
  closed := insert conn s.closed

/-- The targets of a broadcast to a room. -/
def targets (s : State) (room : UInt64) : Finset UInt64 := s.rooms.members room

def next (s : State) : RoomEvent → Option State
  | .upstream pkt => some (s.onUpstreamPacket pkt)
  | .close conn => some (s.onClientClose conn)

/-- The maps agree, nobody that was closed is in a room, and a broadcast goes to those
who are in the room. -/
structure Consistent (s : State) : Prop where
  agree : ∀ conn room, conn ∈ s.rooms.members room ↔ s.rooms.connRoom conn = some room
  closed : ∀ conn ∈ s.closed, ∀ room, conn ∉ s.rooms.members room
  targets : ∀ conn room, conn ∈ s.targets room ↔ s.rooms.connRoom conn = some room

/-- The connection is in no other room. -/
def NoOther (s : State) (room conn : UInt64) : Prop :=
  s.rooms.connRoom conn = none ∨ s.rooms.connRoom conn = some room

instance (s : State) (room conn : UInt64) : Decidable (s.NoOther room conn) := by
  unfold NoOther
  infer_instance

/-- A step that the maps are made for. -/
def Ok (s : State) : RoomEvent → Prop
  | .upstream pkt =>
    match notice pkt with
    | .join room conn => conn ∉ s.closed ∧ s.NoOther room conn
    | .leave room conn => s.NoOther room conn
    | .none => True
  | .close _ => True

end State

/-! ## The maps after a step -/

section Maps

variable {s s' : State} {g : Rooms UInt64} {room room' conn conn' : UInt64}

theorem mem_join : conn' ∈ (g.join room conn).members room' ↔
    room' = room ∧ conn' = conn ∨ conn' ∈ g.members room' := by
  unfold Rooms.join
  by_cases hr : room' = room
  · subst hr
    simp
  · simp [hr]

theorem connRoom_join : (g.join room conn).connRoom conn' =
    if conn' = conn then some room else g.connRoom conn' := by
  simp [Rooms.join, Function.update_apply]

theorem mem_leave : conn' ∈ (g.leave room conn).members room' ↔
    ¬ (room' = room ∧ conn' = conn) ∧ conn' ∈ g.members room' := by
  unfold Rooms.leave
  by_cases hr : room' = room
  · subst hr
    simp
  · simp [hr]

theorem connRoom_leave : (g.leave room conn).connRoom conn' =
    if conn' = conn then none else g.connRoom conn' := by
  simp [Rooms.leave, Function.update_apply]

/-- Members and rooms of the same entries. -/
def Agree (g : Rooms UInt64) : Prop :=
  ∀ conn room, conn ∈ g.members room ↔ g.connRoom conn = some room

/-- A join keeps the maps in agreement unless the connection is in another room. -/
theorem agree_join (h : Agree g) :
    Agree (g.join room conn) ↔ g.connRoom conn = none ∨ g.connRoom conn = some room := by
  constructor
  · intro h'
    cases hr : g.connRoom conn with
    | none => exact Or.inl rfl
    | some r =>
      -- it is still a member of the room it was in
      have hold : conn ∈ (g.join room conn).members r := mem_join.mpr (Or.inr ((h conn r).mpr hr))
      have hnew := (h' conn r).mp hold
      rw [connRoom_join, if_pos rfl] at hnew
      exact Or.inr hnew.symm
  · intro hno c r
    rw [mem_join, connRoom_join, h c r]
    by_cases hc : c = conn
    · subst hc
      rw [if_pos rfl]
      constructor
      · rintro (⟨rfl, -⟩ | hr)
        · rfl
        · rcases hno with hnone | hsame
          · rw [hnone] at hr
            cases hr
          · rw [← hsame, hr]
      · intro hr
        cases hr
        exact Or.inl ⟨rfl, rfl⟩
    · rw [if_neg hc]
      constructor
      · rintro (⟨-, rfl⟩ | hr)
        · exact absurd rfl hc
        · exact hr
      · exact Or.inr

/-- A leave does so unless the connection is in a room that is not named. -/
theorem agree_leave (h : Agree g) :
    Agree (g.leave room conn) ↔ g.connRoom conn = none ∨ g.connRoom conn = some room := by
  constructor
  · intro h'
    cases hr : g.connRoom conn with
    | none => exact Or.inl rfl
    | some r =>
      by_cases hroom : r = room
      · exact Or.inr (by rw [hroom])
      · have hold : conn ∈ (g.leave room conn).members r :=
          mem_leave.mpr ⟨fun hboth => hroom hboth.1, (h conn r).mpr hr⟩
        have hnew := (h' conn r).mp hold
        rw [connRoom_leave, if_pos rfl] at hnew
        cases hnew
  · intro hno c r
    rw [mem_leave, connRoom_leave, h c r]
    by_cases hc : c = conn
    · subst hc
      rw [if_pos rfl]
      constructor
      · rintro ⟨hnot, hr⟩
        rcases hno with hnone | hsame
        · rw [hnone] at hr
          cases hr
        · rw [hsame] at hr
          cases hr
          exact absurd ⟨rfl, rfl⟩ hnot
      · intro hr
        cases hr
    · rw [if_neg hc]
      exact ⟨fun hboth => hboth.2, fun hr => ⟨fun hboth => hc hboth.2, hr⟩⟩

/-- The close callback leaves the room that the connection is in. -/
theorem agree_cleanup (h : Agree g) (conn : UInt64) : Agree (g.cleanup conn) := by
  unfold Rooms.cleanup
  cases hr : g.connRoom conn with
  | none => exact h
  | some room => exact (agree_leave h).mpr (Or.inr hr)

theorem mem_of_mem_cleanup (hmem : conn' ∈ (g.cleanup conn).members room) :
    conn' ∈ g.members room := by
  unfold Rooms.cleanup at hmem
  cases hr : g.connRoom conn with
  | none =>
    rw [hr] at hmem
    exact hmem
  | some r =>
    rw [hr] at hmem
    exact (mem_leave.mp hmem).2

theorem not_mem_cleanup (h : Agree g) : conn ∉ (g.cleanup conn).members room := by
  intro hmem
  have hroom := (h conn room).mp (mem_of_mem_cleanup hmem)
  unfold Rooms.cleanup at hmem
  rw [hroom] at hmem
  exact (mem_leave.mp hmem).1 ⟨rfl, rfl⟩

end Maps

/-! ## Steps and runs -/

section Steps

variable {s s' : State} {room conn : UInt64}

namespace State

theorem Consistent.mk' (hagree : Agree s.rooms)
    (hclosed : ∀ conn ∈ s.closed, ∀ room, conn ∉ s.rooms.members room) : s.Consistent :=
  ⟨hagree, hclosed, hagree⟩

/-- After a join. -/
theorem consistent_join (h : s.Consistent) :
    ({ s with rooms := s.rooms.join room conn } : State).Consistent ↔
      conn ∉ s.closed ∧ s.NoOther room conn := by
  constructor
  · intro h'
    refine ⟨fun hclosed => ?_, (agree_join h.agree).mp h'.agree⟩
    exact h'.closed conn hclosed room (mem_join.mpr (Or.inl ⟨rfl, rfl⟩))
  · rintro ⟨hopen, hno⟩
    refine .mk' ((agree_join h.agree).mpr hno) fun c hc r hmem => ?_
    rcases mem_join.mp hmem with ⟨-, rfl⟩ | hold
    · exact hopen hc
    · exact h.closed c hc r hold

/-- After a leave. -/
theorem consistent_leave (h : s.Consistent) :
    ({ s with rooms := s.rooms.leave room conn } : State).Consistent ↔ s.NoOther room conn := by
  constructor
  · intro h'
    exact (agree_leave h.agree).mp h'.agree
  · intro hno
    exact .mk' ((agree_leave h.agree).mpr hno) fun c hc r hmem =>
      h.closed c hc r (mem_leave.mp hmem).2

/-- After a close. -/
theorem consistent_close (h : s.Consistent) (conn : UInt64) :
    (s.onClientClose conn).Consistent := by
  refine .mk' (agree_cleanup h.agree conn) fun c hc r hmem => ?_
  rcases Finset.mem_insert.mp hc with rfl | hc'
  · exact not_mem_cleanup h.agree hmem
  · exact h.closed c hc' r (mem_of_mem_cleanup hmem)

/-- A step keeps the maps consistent if and only if they are made for it. -/
theorem consistent_step {e : RoomEvent} (h : s.Consistent) (hstep : s.next e = some s') :
    s'.Consistent ↔ s.Ok e := by
  cases e with
  | close conn =>
    cases hstep
    exact ⟨fun _ => trivial, fun _ => consistent_close h conn⟩
  | upstream pkt =>
    cases hstep
    simp only [onUpstreamPacket, Ok]
    cases notice pkt with
    | join room conn => exact consistent_join h
    | leave room conn => exact consistent_leave h
    | none => exact ⟨fun _ => trivial, fun _ => h⟩

end State

end Steps

/-- In every run the maps are consistent all along if and only if no notice joins a
connection to a second room or after its close, or takes it out of a room it is not in
while it is in another one. -/
theorem consistent_exact (events : List RoomEvent) :
    (∀ front s, front <+: events → run State.next {} front = some s → s.Consistent) ↔
      RunOk State.next State.Ok {} events := by
  refine (runOk_iff ?_ ?_ ?_).symm
  · intro s e hnone
    cases e with
    | upstream pkt => cases hnone
    | close conn => cases hnone
  · exact fun s e s' h hstep => State.consistent_step h hstep
  · exact .mk' (fun conn room => by simp) (fun conn hc => by cases hc)

/-- A notice that a connection joins a room. -/
def joinPacket (room conn : UInt64) : Packet where
  header := { cmdId := cmdGwRoomJoin }
  payload := writeU64BE room ++ writeU64BE conn

/-- Connection 7 joins room 1 and then room 2: it stays a member of room 1, for good. -/
theorem not_consistent_two_rooms :
    ∃ s, run State.next {} [.upstream (joinPacket 1 7), .upstream (joinPacket 2 7), .close 7] =
      some s ∧ ¬ s.Consistent := by
  let s : State :=
    (((({} : State).onUpstreamPacket (joinPacket 1 7)).onUpstreamPacket (joinPacket 2 7)).onClientClose 7)
  refine ⟨s, rfl, fun h => ?_⟩
  exact h.closed 7 (by decide) 1 (by decide)

end RoomMaps

end Gmaker.Gateway
