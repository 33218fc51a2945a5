import Gmaker.Realtime.Routes

/-!
# Gmaker.Realtime.Casts — what a battle room takes a message for

`OnClientPacket` builds an object of one of the classes derived from `Message`, and
`BattleRoom::OnMessage` looks at `Type()`, asks by `dynamic_cast` for some of the classes,
and hands the object to a handler as the class that the handler wants. Several classes
have one `Type()`. Nothing goes wrong where the object is of that class; a `PlayerMoveMsg`,
which is what a plain move packet makes, is handed over as a `HeroMoveInputMsg`
(`readsWhatWasSent_iff`).
-/

namespace Gmaker.Realtime

open Gmaker.Lib Gmaker.Net

/-! ## Classes -/

/-- `MsgType`. -/
inductive MsgType where
  | invalid | playerEnter | playerLeave | playerMove | playerAction | roomBroadcast | syncState
  | asyncIOComplete | roomTick
deriving DecidableEq

/-- The classes derived from `Message`. None of them is derived from another one. -/
inductive MsgClass where
  | playerEnterMsg | playerLeaveMsg | playerMoveMsg | playerActionMsg | roomBroadcastMsg
  | syncStateMsg | asyncIOCompleteMsg | roomTickMsg
  | battleReadyMsg | heroMoveInputMsg | heroCastSkillMsg | playerDisconnectMsg
  | playerReconnectMsg
deriving DecidableEq

namespace MsgClass

/-- `Type()` of each class. -/
def type : MsgClass → MsgType
  | playerEnterMsg => .playerEnter
  | playerLeaveMsg => .playerLeave
  | playerMoveMsg => .playerMove
  | playerActionMsg => .playerAction
  | roomBroadcastMsg => .roomBroadcast
  | syncStateMsg => .syncState
  | asyncIOCompleteMsg => .asyncIOComplete
  | roomTickMsg => .roomTick
  | battleReadyMsg => .playerAction
  | heroMoveInputMsg => .playerMove
  | heroCastSkillMsg => .playerAction
  | playerDisconnectMsg => .playerLeave
  | playerReconnectMsg => .playerEnter

/-- Whether `dynamic_cast<T*>` of an object of the class gives a pointer. -/
def dynamicCast (T : MsgClass) (dynamic : MsgClass) : Bool := dynamic = T

end MsgClass

/-- The class of the object that a message is. -/
def RoomMessage.msgClass : RoomMessage → MsgClass
  | .playerEnter _ _ => .playerEnterMsg
  | .playerLeave _ => .playerLeaveMsg
  | .playerMove _ => .playerMoveMsg
  | .playerAction _ => .playerActionMsg
  | .roomBroadcast _ => .roomBroadcastMsg
  | .battleReady _ => .battleReadyMsg
  | .hero (.move _) => .heroMoveInputMsg
  | .hero (.cast _) => .heroCastSkillMsg
  | .playerReconnect _ _ => .playerReconnectMsg

/-! ## Handlers -/

/-- The calls that `BattleRoom::OnMessage` makes. -/
inductive Handler where
  | onPlayerEnter | onPlayerReconnect | onPlayerLeave | onPlayerDisconnect | onHeroMoveInput
  | onHeroCastSkill | onBattleReady | broadcastToAll
deriving DecidableEq

/-- The class as which the object is read in the call. -/
def Handler.reads : Handler → MsgClass
  | onPlayerEnter => .playerEnterMsg
  | onPlayerReconnect => .playerReconnectMsg
  | onPlayerLeave => .playerLeaveMsg
  | onPlayerDisconnect => .playerDisconnectMsg
  | onHeroMoveInput => .heroMoveInputMsg
  | onHeroCastSkill => .heroCastSkillMsg
  | onBattleReady => .battleReadyMsg
  | broadcastToAll => .roomBroadcastMsg

open MsgClass (dynamicCast) in
/-- `BattleRoom::OnMessage`: the call it makes with an object of the class. -/
def BattleRoom.handlerOf (msg : MsgClass) : Option Handler :=
  match msg.type with
  | .playerEnter =>
    if dynamicCast .playerReconnectMsg msg then some .onPlayerReconnect else some .onPlayerEnter
  | .playerLeave =>
    if dynamicCast .playerDisconnectMsg msg then some .onPlayerDisconnect else some .onPlayerLeave
  | .playerMove =>
    -- the cast that has failed is made again without the test
    if dynamicCast .heroMoveInputMsg msg then some .onHeroMoveInput else some .onHeroMoveInput
  | .playerAction =>
    if dynamicCast .heroCastSkillMsg msg then some .onHeroCastSkill
    else if dynamicCast .battleReadyMsg msg then some .onBattleReady
    else none
  | .roomBroadcast => some .broadcastToAll
  | .roomTick => none
  | _ => none

/-- An object of the class is read as what it is. -/
def MsgClass.ReadAsSent (msg : MsgClass) : Prop :=
  ∀ handler, BattleRoom.handlerOf msg = some handler → handler.reads = msg

/-- The message that is built of the packet is read as what it is. -/
def Decoders.ReadsWhatWasSent (d : Decoders) (pkt : Packet) : Prop :=
  ∀ roomId msg, d.read pkt = some (roomId, msg) → msg.msgClass.ReadAsSent

/-- A move packet of a room that is no battle. -/
def IsRealtimeMove (pkt : Packet) : Prop :=
  pkt.header.cmdId = cmdRealtimeMove ∧ 32 ≤ pkt.payload.length

/-! ## Which casts are right -/

/-- One class is read as another one. -/
theorem readAsSent_iff {msg : MsgClass} : msg.ReadAsSent ↔ msg ≠ .playerMoveMsg := by
  cases msg <;> simp [MsgClass.ReadAsSent, BattleRoom.handlerOf, MsgClass.type,
    MsgClass.dynamicCast, Handler.reads]

/-- It is the class of the objects that move packets make. -/
theorem msgClass_of_read {d : Decoders} {pkt : Packet} {roomId : UInt32} {msg : RoomMessage}
    (h : d.read pkt = some (roomId, msg)) :
    msg.msgClass = .playerMoveMsg ↔ IsRealtimeMove pkt := by
  by_cases hmove : pkt.header.cmdId = cmdRealtimeMove
  · have henter : pkt.header.cmdId ≠ cmdRealtimeEnter := by rw [hmove]; decide
    have hleave : pkt.header.cmdId ≠ cmdRealtimeLeave := by rw [hmove]; decide
    simp only [Decoders.read, if_neg henter, if_neg hleave, if_pos hmove] at h
    split_ifs at h with hshort
    cases h
    exact iff_of_true rfl ⟨hmove, not_lt.mp hshort⟩
  · refine iff_of_false ?_ fun hreal => hmove hreal.1
    simp only [Decoders.read, if_neg hmove] at h
    split_ifs at h
    all_goals simp only [Option.some.injEq, Prod.mk.injEq, Option.map_eq_some_iff] at h
    all_goals
      first
      | obtain ⟨-, rfl⟩ := h
      | obtain ⟨req, -, -, rfl⟩ := h
    all_goals simp [RoomMessage.msgClass]

theorem readAsSent_of_read {d : Decoders} {pkt : Packet} {roomId : UInt32} {msg : RoomMessage}
    (hmove : ¬ IsRealtimeMove pkt) (h : d.read pkt = some (roomId, msg)) :
    msg.msgClass.ReadAsSent := by
  rw [readAsSent_iff]
  intro hclass
  exact hmove ((msgClass_of_read h).mp hclass)

/-- A move packet that is long enough makes such an object. -/
theorem exists_read_of_isRealtimeMove (d : Decoders) {pkt : Packet} (h : IsRealtimeMove pkt) :
    ∃ roomId msg, d.read pkt = some (roomId, msg) := by
  rcases h with ⟨hmove, hlen⟩
  have henter : pkt.header.cmdId ≠ cmdRealtimeEnter := by rw [hmove]; decide
  have hleave : pkt.header.cmdId ≠ cmdRealtimeLeave := by rw [hmove]; decide
  simp only [Decoders.read, if_neg henter, if_neg hleave, if_pos hmove, if_neg (not_lt.mpr hlen)]
  exact ⟨_, _, rfl⟩

/-- A packet is read as what it says exactly if it is no move packet of a plain room. -/
theorem readsWhatWasSent_iff (d : Decoders) (pkt : Packet) :
    d.ReadsWhatWasSent pkt ↔ ¬ IsRealtimeMove pkt := by
  constructor
  · intro h hmove
    rcases exists_read_of_isRealtimeMove d hmove with ⟨roomId, msg, hread⟩
    exact readAsSent_iff.mp (h roomId msg hread) ((msgClass_of_read hread).mpr hmove)
  · intro hmove roomId msg hread
    exact readAsSent_of_read hmove hread

/-- The shortest move packet, of zeros. -/
theorem not_readsWhatWasSent_zeros : ¬ ∀ (d : Decoders) (pkt : Packet), d.ReadsWhatWasSent pkt := by
  intro h
  let pkt : Packet := { header := { cmdId := cmdRealtimeMove }, payload := List.replicate 32 0 }
  have hread : noRequests.read pkt = some (0, .playerMove ⟨0, 0, 0, 0⟩) := rfl
  have hcall : BattleRoom.handlerOf .playerMoveMsg = some .onHeroMoveInput := rfl
  have hsame := h noRequests pkt _ _ hread _ hcall
  cases hsame

/-! ## Runs -/

namespace RealtimeServer

/-- No gateway is about to handle a move packet of a plain room, and no message that waits
was made of one. -/
structure Plain (s : RealtimeServer) : Prop where
  handling : ∀ (gateway : ℕ) (pkt : Packet), s.gateways[gateway]? = some (Gateway.handling pkt) →
    ¬ IsRealtimeMove pkt
  queued : Holds (fun _ => True) (fun env => env.msg.msgClass.ReadAsSent) s

/-- An entry of a list one of whose entries has been replaced. -/
theorem getElem?_of_set {τ : Type*} {l : List τ} {i j : ℕ} {a b : τ}
    (h : (l.set i a)[j]? = some b) : l[j]? = some b ∨ (i = j ∧ a = b) := by
  rw [List.getElem?_set] at h
  split_ifs at h with hij hlt
  · exact Or.inr ⟨hij, Option.some.inj h⟩
  · exact Or.inl h

/-- What a gateway is about to handle after an event. -/
theorem handling_of_next {d : Decoders} {s s' : RealtimeServer} {e : ServerEvent} {gateway : ℕ}
    {pkt : Packet} (hstep : next d s e = some s')
    (h : s'.gateways[gateway]? = some (Gateway.handling pkt)) :
    s.gateways[gateway]? = some (Gateway.handling pkt) ∨ e = .packet gateway pkt := by
  cases e with
  | connect =>
    cases hstep
    rw [List.getElem?_append] at h
    split_ifs at h
    · exact Or.inl h
    · -- the new gateway is idle
      have hidle := List.mem_of_getElem? h
      rw [List.mem_singleton] at hidle
      cases hidle
  | packet g p =>
    simp only [next] at hstep
    split_ifs at hstep
    cases hstep
    rcases getElem?_of_set h with hold | ⟨rfl, heq⟩
    · left
      rwa [routePacket_gateways] at hold
    · cases heq
      exact Or.inr rfl
  | handle g =>
    simp only [next] at hstep
    split at hstep
    · cases hstep
      rcases getElem?_of_set h with hold | ⟨-, heq⟩
      · left
        rwa [handlePacket_gateways] at hold
      · cases heq
    · cases hstep
  | close g =>
    simp only [next] at hstep
    split_ifs at hstep
    cases hstep
    rcases getElem?_of_set h with hold | ⟨-, heq⟩
    · exact Or.inl hold
    · cases heq
  | process thread =>
    simp only [next] at hstep
    split at hstep
    · cases hstep
    · cases hstep
      rw [deliver_gateways] at h
      exact Or.inl h
  | tick roomId passes won =>
    rcases Option.bind_eq_some_iff.mp hstep with ⟨room, -, hrest⟩
    rcases Option.bind_eq_some_iff.mp hrest with ⟨roster, -, heq⟩
    cases heq
    exact Or.inl h

/-- An event that brings no such packet keeps the server plain. -/
theorem Plain.next {d : Decoders} {s s' : RealtimeServer} {e : ServerEvent}
    (he : ∀ gateway pkt, e = .packet gateway pkt → ¬ IsRealtimeMove pkt) (h : Plain s)
    (hstep : RealtimeServer.next d s e = some s') : Plain s' := by
  constructor
  · intro gateway pkt hpkt
    rcases handling_of_next hstep hpkt with hold | hnew
    · exact h.handling gateway pkt hold
    · exact he gateway pkt hnew
  · refine h.queued.next trivial (fun _ _ _ _ => trivial) (fun _ _ _ _ _ _ => trivial) ?_ hstep
    intro gateway pkt roomId msg _ hpkt hread
    exact readAsSent_of_read (h.handling gateway pkt hpkt) hread

/-- Where no gateway sends such a packet, no room is ever given an object as what it is
not. -/
theorem queued_readAsSent {d : Decoders} {battleMode : Bool} {events : List ServerEvent}
    {s : RealtimeServer}
    (hplain : ∀ e ∈ events, ∀ gateway pkt, e = .packet gateway pkt → ¬ IsRealtimeMove pkt)
    (hrun : run (RealtimeServer.next d) (start battleMode) events = some s) :
    ∀ thread, ∀ env ∈ s.queues thread, env.msg.msgClass.ReadAsSent := by
  have hstart : Plain (start battleMode) := by
    constructor
    · intro gateway pkt h
      rw [(start_gateways battleMode).1] at h
      cases h
    · exact holds_start trivial battleMode
  have hend : Plain s :=
    run_invariant (fun s e s' he hs hstep => hs.next he hstep) hstart (runOk_of_forall hplain) hrun
  exact hend.queued.queues

/-- A client enters a battle. -/
theorem queued_readAsSent_enter :
    ∃ s, run (RealtimeServer.next noRequests) (start true)
        [.connect, .packet 0 (clientPacket cmdRealtimeEnter 1 1 1), .handle 0] = some s ∧
      ∀ thread, ∀ env ∈ s.queues thread, env.msg.msgClass.ReadAsSent := by
  refine ⟨_, rfl, @queued_readAsSent noRequests true
    [.connect, .packet 0 (clientPacket cmdRealtimeEnter 1 1 1), .handle 0] _ ?_ rfl⟩
  intro e he gateway pkt heq
  simp only [List.mem_cons, List.not_mem_nil, or_false] at he
  rcases he with rfl | rfl | rfl
  · cases heq
  · cases heq
    exact fun hmove => absurd hmove.1 (by decide)
  · cases heq

end RealtimeServer

end Gmaker.Realtime
