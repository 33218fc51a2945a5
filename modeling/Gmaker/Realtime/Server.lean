import Gmaker.Lib.Assoc
import Gmaker.Lib.Fold
import Gmaker.Net.Packet
import Gmaker.Realtime.Battle
import Gmaker.Realtime.Roster

/-!
# Gmaker.Realtime.Server — the realtime server between gateways and rooms

Gateways forward the packets of their clients, each with the client's connection id in
front. `RealtimeServer` remembers through which gateway an id has come last, makes a
message of the packet and pushes it to the compute thread of the room; the thread hands
it to the room. What a room broadcasts goes to the gateways of the ids it names.

The server is a machine. Its gateways are served by several threads: that the route is
bound and that the message is pushed are two steps, and between them anything may happen
at another gateway. Every room keeps a log of who has come in on which connection.
-/

namespace Gmaker.Realtime

open Gmaker.Lib Gmaker.Net

/-! ## Messages of clients -/

/-- `CMD_REALTIME_ENTER`. -/
def cmdRealtimeEnter : UInt32 := 0x00020000
/-- `CMD_REALTIME_LEAVE`. -/
def cmdRealtimeLeave : UInt32 := 0x00020002
/-- `CMD_REALTIME_SYNC`. -/
def cmdRealtimeSync : UInt32 := 0x00020005
/-- `CMD_REALTIME_MOVE`. -/
def cmdRealtimeMove : UInt32 := 0x00020020
/-- `CMD_REALTIME_ACTION`. -/
def cmdRealtimeAction : UInt32 := 0x00020021
/-- `CMD_REALTIME_INPUT`. -/
def cmdRealtimeInput : UInt32 := 0x00020022
/-- `CMD_BATTLE_READY`. -/
def cmdBattleReady : UInt32 := 0x00020030
/-- `CMD_BATTLE_MOVE`. -/
def cmdBattleMove : UInt32 := 0x00020031
/-- `CMD_BATTLE_CAST`. -/
def cmdBattleCast : UInt32 := 0x00020032
/-- `CMD_BATTLE_RECONNECT`. -/
def cmdBattleReconnect : UInt32 := 0x00020033

/-- `PlayerMoveMsg`, its floats as their bits. -/
structure PlayerMoveMsg where
  playerId : UInt64
  targetX : UInt32
  targetZ : UInt32
  targetYaw : UInt32
deriving DecidableEq

/-- A message for a room. A battle room does not read `spawn_pos`, nor what a
`PlayerActionMsg` says. -/
inductive RoomMessage where
  | playerEnter (playerId connId : UInt64)
  | playerLeave (playerId : UInt64)
  | playerMove (msg : PlayerMoveMsg)
  | playerAction (playerId : UInt64)
  | roomBroadcast (payload : Bytes)
  | battleReady (playerId : UInt64)
  | hero (msg : HeroMsg)
  | playerReconnect (playerId connId : UInt64)

/-- `ParseFromArray` of the four battle requests, each with the room it names, and
`Fixed::from_float` of the bits of a float. -/
structure Decoders where
  battleReady : Bytes → Option (UInt32 × UInt64)
  heroMove : Bytes → Option (UInt32 × HeroMoveInputMsg)
  heroCast : Bytes → Option (UInt32 × HeroCastSkillMsg)
  reconnect : Bytes → Option (UInt32 × UInt64)
  fromFloat : UInt32 → Fixed

/-- The `switch`es of `OnClientPacket`: the room and the message that is pushed. -/
def Decoders.read (d : Decoders) (pkt : Packet) : Option (UInt32 × RoomMessage) :=
  let payload := pkt.payload
  let cmd := pkt.header.cmdId
  let connId := readU64BE payload 0
  let roomId := readU32BE payload 8
  let playerId := readU64BE payload 12
  if cmd = cmdRealtimeEnter then
    if payload.length < 28 then none
    else some (if roomId = 0 then 1 else roomId, .playerEnter playerId connId)
  else if cmd = cmdRealtimeLeave then
    if payload.length < 20 then none else some (roomId, .playerLeave playerId)
  else if cmd = cmdRealtimeMove then
    if payload.length < 32 then none
    else
      let msg : PlayerMoveMsg :=
        { playerId
          targetX := readU32BE payload 20
          targetZ := readU32BE payload 24
          targetYaw := readU32BE payload 28 }
      some (roomId, .playerMove msg)
  else if cmd = cmdRealtimeAction then
    if payload.length < 32 then none else some (roomId, .playerAction playerId)
  else if cmd = cmdRealtimeInput then
    if payload.length < 12 then none else some (roomId, .roomBroadcast (payload.drop 12))
  else if payload.length < 8 then none
  else if cmd = cmdBattleReady then
    (d.battleReady (payload.drop 8)).map fun req => (req.1, .battleReady req.2)
  else if cmd = cmdBattleMove then
    (d.heroMove (payload.drop 8)).map fun req => (req.1, .hero (.move req.2))
  else if cmd = cmdBattleCast then
    (d.heroCast (payload.drop 8)).map fun req => (req.1, .hero (.cast req.2))
  else if cmd = cmdBattleReconnect then
    (d.reconnect (payload.drop 8)).map fun req => (req.1, .playerReconnect req.2 connId)
  else none

/-- No battle request parses. -/
def noRequests : Decoders :=
  { battleReady := fun _ => none
    heroMove := fun _ => none
    heroCast := fun _ => none
    reconnect := fun _ => none
    fromFloat := fun _ => 0 }

/-- A packet of a client that enters or leaves a room. -/
def clientPacket (cmd : UInt32) (connId : UInt64) (roomId : UInt32) (playerId : UInt64) : Packet :=
  { header := { cmdId := cmd }
    payload := writeU64BE connId ++ writeU32BE roomId ++ writeU64BE playerId ++ List.replicate 8 0 }

/-! ## Rooms -/

/-- The cast of a `PlayerMoveMsg` to a `HeroMoveInputMsg`, whose fields lie where the
first one has the target: its first coordinate, its second one, which is zero, and the
bits of its third one. -/
def PlayerMoveMsg.asHeroMove (fromFloat : UInt32 → Fixed) (msg : PlayerMoveMsg) :
    HeroMoveInputMsg :=
  { playerId := msg.playerId
    inputSeq := msg.targetZ
    moveX := fromFloat msg.targetX
    moveZ := fromFloat 0 }

/-- `BattleRoom::OnMessage`. -/
def Roster.onMessage (fromFloat : UInt32 → Fixed) (cfg : BattleRoomConfig) (s : Roster) :
    RoomMessage → Roster
  | .playerEnter playerId connId => s.onPlayerEnter cfg playerId connId
  | .playerReconnect playerId connId => s.handleReconnect playerId connId
  | .playerLeave playerId => s.onPlayerLeave playerId
  | .playerMove msg => { s with room := s.room.onHero (.move (msg.asHeroMove fromFloat)) }
  | .hero msg => { s with room := s.room.onHero msg }
  | .battleReady playerId => { s with room := s.room.onBattleReady playerId }
  | .playerAction _ | .roomBroadcast _ => s

/-- The player that the message lets in, and on which connection: one that enters a room
with a place left, or one of the room that reconnects. -/
def Roster.letsIn (cfg : BattleRoomConfig) (s : Roster) : RoomMessage → Option (UInt64 × UInt64)
  | .playerEnter playerId connId => if s.room.full cfg then none else some (playerId, connId)
  | .playerReconnect playerId connId => (s.room.findPlayer playerId).map fun _ => (playerId, connId)
  | _ => none

/-- A client: the gateway it is connected to and its connection there. -/
structure Source where
  gateway : ℕ
  conn : UInt64
deriving DecidableEq

/-- A room, with a log of who has been let in on which connection, the latest first. -/
structure ServedRoom where
  roster : Roster
  entries : List (UInt64 × Source) := []

/-- The configuration that the room factory gives to every room. -/
def roomConfig : BattleRoomConfig :=
  { teamSize := 5
    maxReconnectWaitSec := 60
    lockstepTimeoutMs := 200 }

/-- `Room::OnMessage`, with the log. -/
def ServedRoom.onMessage (fromFloat : UInt32 → Fixed) (r : ServedRoom) (source : Source)
    (msg : RoomMessage) : ServedRoom where
  roster := r.roster.onMessage fromFloat roomConfig msg
  entries :=
    match r.roster.letsIn roomConfig msg with
    | some (playerId, _) => (playerId, source) :: r.entries
    | none => r.entries

/-- Whom a room broadcasts to: `BroadcastToAll`, `BroadcastToTeam`, and the answer of
`HandleReconnect` to the player that has reconnected. -/
inductive Audience where
  | all
  | team (side : TeamSide)
  | player (playerId : UInt64)

/-- The connections of the audience. -/
def BattleRoom.targetConns (r : BattleRoom) : Audience → List UInt64
  | .all => (r.players.filter fun info => info.isConnected).map fun info => info.connId
  | .team side =>
    (r.players.filter fun info => info.isConnected && info.team = side).map fun info => info.connId
  | .player playerId => ((r.findPlayer playerId).map fun info => info.connId).toList

/-! ## The server -/

/-- The connection of a gateway: `OnClientPacket` handles one packet of it at a time. -/
inductive Gateway where
  | idle
  | handling (pkt : Packet)
  | closed
deriving DecidableEq

/-- The gateway is connected. -/
def Gateway.isOpen : Gateway → Bool
  | .closed => false
  | _ => true

/-- `Envelope`, with a log of the client whose packet it comes from. -/
structure Envelope where
  roomId : UInt32
  msg : RoomMessage
  source : Source

/-- `RealtimeServer` with its compute pool of four threads. -/
structure RealtimeServer where
  /-- `conns_`, every gateway that has ever connected -/
  gateways : List Gateway := []
  clientRoutes : Assoc UInt64 ℕ := []
  /-- `rooms_` of all threads -/
  rooms : Assoc UInt32 ServedRoom := []
  /-- `msg_queue_` of each thread -/
  queues : Fin 4 → List Envelope := fun _ => []

/-- What can happen to the server. -/
inductive ServerEvent where
  /-- `OnClientConnect` -/
  | connect
  /-- `OnClientPacket` up to `BindClientRoute` -/
  | packet (gateway : ℕ) (pkt : Packet)
  /-- `OnClientPacket` from there on -/
  | handle (gateway : ℕ)
  /-- `OnClientClose` -/
  | close (gateway : ℕ)
  /-- `ProcessMessages` takes one message -/
  | process (thread : Fin 4)
  /-- `TickRooms` ticks one room, with what `Event.tick` has -/
  | tick (roomId : UInt32) (passes : ℕ) (won : Bool)

namespace RealtimeServer

/-- `BindClientRoute`. -/
def bindClientRoute (s : RealtimeServer) (clientConnId : UInt64) (gateway : ℕ) : RealtimeServer :=
  if clientConnId = 0 then s
  else { s with clientRoutes := s.clientRoutes.assign clientConnId gateway }

/-- `CreateRoom`. -/
def createRoom (s : RealtimeServer) (roomId : UInt32) : RealtimeServer :=
  match s.rooms.lookup roomId with
  | some _ => s
  | none => { s with rooms := s.rooms.assign roomId { roster := .new roomConfig } }

/-- `PickThread`. -/
def pickThread (roomId : UInt32) : Fin 4 := Fin.ofNat 4 roomId.toNat

/-- `PushMessage`. -/
def pushMessage (s : RealtimeServer) (env : Envelope) : RealtimeServer :=
  let thread := pickThread env.roomId
  { s with queues := Function.update s.queues thread (s.queues thread ++ [env]) }

/-- `OnClientPacket`, the first statement. -/
def routePacket (s : RealtimeServer) (gateway : ℕ) (pkt : Packet) : RealtimeServer :=
  if 8 ≤ pkt.payload.length then s.bindClientRoute (readU64BE pkt.payload 0) gateway else s

/-- `OnClientPacket`, the rest. -/
def handlePacket (d : Decoders) (s : RealtimeServer) (gateway : ℕ) (pkt : Packet) :
    RealtimeServer :=
  match d.read pkt with
  | none => s
  | some (roomId, msg) =>
    let s :=
      match msg with
      | .playerEnter _ _ => s.createRoom roomId
      | _ => s
    s.pushMessage { roomId, msg, source := ⟨gateway, readU64BE pkt.payload 0⟩ }

/-- The connection of a gateway goes on. -/
def setGateway (s : RealtimeServer) (gateway : ℕ) (g : Gateway) : RealtimeServer :=
  { s with gateways := s.gateways.set gateway g }

/-- `OnClientClose`: the routes to the gateway are erased. -/
def onClientClose (s : RealtimeServer) (gateway : ℕ) : RealtimeServer :=
  { s.setGateway gateway .closed with
    clientRoutes := s.clientRoutes.filter fun route => route.2 ≠ gateway }

/-- What the thread does with a message: it is dropped if there is no such room. -/
def deliver (d : Decoders) (s : RealtimeServer) (env : Envelope) : RealtimeServer :=
  match s.rooms.lookup env.roomId with
  | none => s
  | some room =>
    { s with rooms := s.rooms.assign env.roomId (room.onMessage d.fromFloat env.source env.msg) }

/-- One event. -/
def next (d : Decoders) (s : RealtimeServer) : ServerEvent → Option RealtimeServer
  | .connect => some { s with gateways := s.gateways ++ [.idle] }
  | .packet gateway pkt =>
    if s.gateways[gateway]? = some .idle then
      some ((s.routePacket gateway pkt).setGateway gateway (.handling pkt))
    else none
  | .handle gateway =>
    match s.gateways[gateway]? with
    | some (.handling pkt) => some ((s.handlePacket d gateway pkt).setGateway gateway .idle)
    | _ => none
  | .close gateway =>
    if s.gateways[gateway]? = some .idle then some (s.onClientClose gateway) else none
  | .process thread =>
    match s.queues thread with
    | [] => none
    | env :: rest => some ({ s with queues := Function.update s.queues thread rest }.deliver d env)
  | .tick roomId passes won => do
    let room ← s.rooms.lookup roomId
    let roster ← room.roster.tick roomConfig passes won
    some { s with rooms := s.rooms.assign roomId { room with roster } }

/-- `Start`: a server in battle mode has three rooms, another one five. -/
def start (battleMode : Bool) : RealtimeServer :=
  let roomIds : List UInt32 := if battleMode then [1, 2, 3] else [1, 2, 3, 4, 5]
  roomIds.foldl createRoom {}

/-! ## Broadcasts -/

/-- The payload of a snapshot: a battle fills in no players. -/
def snapshotPayload (snap : RoomSnapshot) : Bytes :=
  if snap.rawPayload ≠ [] then snap.rawPayload
  else writeU32BE snap.frameSeq ++ (writeU64BE snap.timestampMs ++ writeU32BE 0)

/-- The packet for one client: its connection id, and the snapshot. -/
def snapshotPacket (snap : RoomSnapshot) (connId : UInt64) : Packet :=
  let payload := snapshotPayload snap
  { header :=
      { length := UInt32.ofNat headerSize + UInt32.ofNat (payload.length + 8)
        magic := magicValue
        cmdId := cmdRealtimeSync
        flags := flagRpcRes }
    payload := writeU64BE connId ++ payload }

/-- `OnRoomBroadcast`: the packets that go out, each with its gateway. -/
def onRoomBroadcast (s : RealtimeServer) (snap : RoomSnapshot) (targetConns : List UInt64) :
    List (ℕ × Packet) :=
  targetConns.dedup.filterMap fun connId =>
    (s.clientRoutes.lookup connId).map fun gateway => (gateway, snapshotPacket snap connId)

/-- The id that a packet is addressed to. -/
def addressee (pkt : Packet) : UInt64 := readU64BE pkt.payload 0

theorem addressee_snapshotPacket (snap : RoomSnapshot) (connId : UInt64) :
    addressee (snapshotPacket snap connId) = connId :=
  readU64BE_writeU64BE (b := []) connId rfl

theorem mem_onRoomBroadcast {s : RealtimeServer} {snap : RoomSnapshot} {targetConns : List UInt64}
    {gateway : ℕ} {pkt : Packet} :
    (gateway, pkt) ∈ s.onRoomBroadcast snap targetConns ↔
      ∃ connId ∈ targetConns, s.clientRoutes.lookup connId = some gateway ∧
        pkt = snapshotPacket snap connId := by
  simp only [onRoomBroadcast, List.mem_filterMap, List.mem_dedup, Option.map_eq_some_iff,
    Prod.mk.injEq]
  constructor
  · rintro ⟨connId, hmem, g, hroute, rfl, rfl⟩
    exact ⟨connId, hmem, hroute, rfl⟩
  · rintro ⟨connId, hmem, hroute, rfl⟩
    exact ⟨connId, hmem, gateway, hroute, rfl, rfl⟩

end RealtimeServer

/-! ## The entry of one player -/

namespace BattleRoom

section Find

variable {cfg : BattleRoomConfig} {r r' : BattleRoom} {playerId pid connId : UInt64}

theorem findPlayer_modifyPlayer {f : PlayerInfo → PlayerInfo}
    (hid : ∀ info, (f info).playerId = info.playerId) :
    (r.modifyPlayer pid f).findPlayer playerId =
      (r.findPlayer playerId).map fun info => if playerId = pid then f info else info := by
  have hsame : ((fun info : PlayerInfo => decide (info.playerId = playerId)) ∘
      fun info => if info.playerId = pid then f info else info) =
      fun info => decide (info.playerId = playerId) := by
    funext info
    simp only [Function.comp_apply]
    split_ifs
    · rw [hid]
    · rfl
  unfold modifyPlayer findPlayer
  rw [List.find?_map, hsame]
  refine Option.map_congr fun info hinfo => ?_
  have hpid : info.playerId = playerId := by simpa using List.find?_some hinfo
  rw [hpid]

/-- The players without one of them. -/
theorem find_filter_ne (players : List PlayerInfo) :
    (players.filter fun info => info.playerId ≠ pid).find? (fun info => info.playerId = playerId) =
      if playerId = pid then none else players.find? fun info => info.playerId = playerId := by
  rw [List.find?_filter]
  split_ifs with heq
  · refine List.find?_eq_none.mpr fun info _ => ?_
    simp [heq]
  · refine congrArg (List.find? · players) (funext fun info => ?_)
    by_cases hinfo : info.playerId = playerId
    · simp [hinfo, heq]
    · simp [hinfo]

theorem findPlayer_addPlayerToTeam {team : TeamSide} :
    (r.addPlayerToTeam pid connId team).findPlayer playerId =
      if playerId = pid then some { playerId := pid, connId, team } else r.findPlayer playerId := by
  unfold findPlayer
  rw [Roster.addPlayerToTeam_players, List.find?_append, find_filter_ne]
  split_ifs with heq
  · simp [heq]
  · simp [Ne.symm heq]

theorem findPlayer_onPlayerEnter_of_ne (hne : playerId ≠ pid) :
    (r.onPlayerEnter cfg pid connId).findPlayer playerId = r.findPlayer playerId := by
  unfold onPlayerEnter
  split_ifs
  · rfl
  · exact findPlayer_addPlayerToTeam.trans (if_neg hne)
  · exact findPlayer_addPlayerToTeam.trans (if_neg hne)

theorem findPlayer_removePlayer :
    (r.removePlayer pid).findPlayer playerId =
      if playerId = pid then none else r.findPlayer playerId := by
  unfold removePlayer
  cases hfind : r.findPlayer pid with
  | none =>
    simp only
    split_ifs with heq
    · rw [heq, hfind]
    · rfl
  | some info =>
    simp only
    split_ifs <;> simp only [findPlayer, find_filter_ne, *, if_true, if_false]

/-- The entry is there or not, and changes if it is the one in question. -/
theorem map_findPlayer_of_none {f : PlayerInfo → PlayerInfo} (hfind : r.findPlayer pid = none) :
    ((r.findPlayer playerId).map fun info => if playerId = pid then f info else info) =
      r.findPlayer playerId := by
  split_ifs with heq
  · rw [heq, hfind]
    rfl
  · exact Option.map_id'

theorem findPlayer_markDisconnected :
    (r.markDisconnected pid).findPlayer playerId = (r.findPlayer playerId).map fun info =>
      if playerId = pid then { info with isConnected := false } else info := by
  unfold markDisconnected
  cases hfind : r.findPlayer pid with
  | none => exact (map_findPlayer_of_none hfind).symm
  | some info => exact findPlayer_modifyPlayer fun _ => rfl

theorem findPlayer_handleReconnect :
    (r.handleReconnect pid connId).findPlayer playerId = (r.findPlayer playerId).map fun info =>
      if playerId = pid then { info with connId, isConnected := true } else info := by
  unfold handleReconnect
  cases hfind : r.findPlayer pid with
  | none => exact (map_findPlayer_of_none hfind).symm
  | some info => exact findPlayer_modifyPlayer fun _ => rfl

theorem findPlayer_onBattleReady :
    (r.onBattleReady pid).findPlayer playerId = (r.findPlayer playerId).map fun info =>
      if playerId = pid then { info with isReady := true } else info :=
  findPlayer_modifyPlayer fun _ => rfl

theorem findPlayer_onHero (msg : HeroMsg) : (r.onHero msg).findPlayer playerId = r.findPlayer playerId := by
  unfold onHero
  split_ifs <;> rfl

theorem findPlayer_of_dropDisconnected {frame : UInt32} {info : PlayerInfo}
    (h : (r.dropDisconnected cfg frame).findPlayer playerId = some info) :
    r.findPlayer playerId = some info := by
  have hfold : ∀ (gone : List DisconnectInfo) (r : BattleRoom),
      (gone.foldl (fun r dc => r.removePlayer dc.playerId) r).findPlayer playerId = some info →
        r.findPlayer playerId = some info := by
    intro gone
    induction gone with
    | nil => exact fun r hr => hr
    | cons dc gone ih =>
      intro r hr
      have hremoved := ih _ hr
      rw [findPlayer_removePlayer] at hremoved
      split_ifs at hremoved
      exact hremoved
  exact hfold _ r h

/-- A tick lets nobody in and changes nobody's entry. -/
theorem findPlayer_of_tick {passes : ℕ} {won : Bool} {info : PlayerInfo}
    (hstep : r.tick cfg passes won = some r') (h : r'.findPlayer playerId = some info) :
    r.findPlayer playerId = some info := by
  by_cases hstate : r.battleState = .fighting
  · unfold tick tickState at hstep
    simp only [hstate] at hstep
    unfold tickFighting at hstep
    obtain ⟨⟨e, confirmed⟩, -, heq⟩ := Option.bind_eq_some_iff.mp hstep
    cases heq
    have hbefore := findPlayer_of_dropDisconnected h
    cases won <;> exact hbefore
  · have hplayers := (Roster.sameRoster_tickState (r := { r with
      battleFrame := r.battleFrame + 1, lockstep := r.lockstep.tickFrameCounter }) hstate hstep).1
    unfold findPlayer at h ⊢
    rw [hplayers] at h
    exact h

end Find

end BattleRoom

namespace Roster

variable {fromFloat : UInt32 → Fixed} {cfg : BattleRoomConfig} {s s' : Roster} {msg : RoomMessage}
  {playerId connId : UInt64} {info : PlayerInfo}

theorem findPlayer_of_tick {passes : ℕ} {won : Bool} (hstep : s.tick cfg passes won = some s')
    (h : s'.room.findPlayer playerId = some info) : s.room.findPlayer playerId = some info := by
  have hroom : (s.tick cfg passes won).map Roster.room = s.room.tick cfg passes won :=
    next_room s (.tick passes won)
  rw [hstep] at hroom
  exact BattleRoom.findPlayer_of_tick hroom.symm h

/-- Whoever is in the room after a message is let in by it, or was there before on the same
connection, and connected if connected now. -/
theorem findPlayer_of_onMessage
    (h : (s.onMessage fromFloat cfg msg).room.findPlayer playerId = some info) :
    s.letsIn cfg msg = some (playerId, info.connId) ∨
      ∃ old, s.room.findPlayer playerId = some old ∧ old.connId = info.connId ∧
        (info.isConnected = true → old.isConnected = true) := by
  have hsame (hold : s.room.findPlayer playerId = some info) :
      s.letsIn cfg msg = some (playerId, info.connId) ∨
        ∃ old, s.room.findPlayer playerId = some old ∧ old.connId = info.connId ∧
          (info.isConnected = true → old.isConnected = true) := .inr ⟨info, hold, rfl, id⟩
  -- an entry that a message changes
  have hmap {f : PlayerInfo → PlayerInfo} {pid : UInt64}
      (hconn : ∀ old, (f old).connId = old.connId)
      (hkeep : ∀ old, (f old).isConnected = true → old.isConnected = true)
      (hfind : (s.room.findPlayer playerId).map (fun old => if playerId = pid then f old else old) =
        some info) :
      s.letsIn cfg msg = some (playerId, info.connId) ∨
        ∃ old, s.room.findPlayer playerId = some old ∧ old.connId = info.connId ∧
          (info.isConnected = true → old.isConnected = true) := by
    obtain ⟨old, hold, rfl⟩ := Option.map_eq_some_iff.mp hfind
    refine .inr ⟨old, hold, ?_, ?_⟩
    · split_ifs
      · exact (hconn old).symm
      · rfl
    · split_ifs
      · exact hkeep old
      · exact id
  cases msg with
  | playerEnter pid conn =>
    have hroom : (s.onPlayerEnter cfg pid conn).room.findPlayer playerId = some info := h
    rw [onPlayerEnter_room] at hroom
    by_cases hne : playerId ≠ pid
    · rw [BattleRoom.findPlayer_onPlayerEnter_of_ne hne] at hroom
      exact hsame hroom
    · rw [not_not] at hne
      subst hne
      by_cases hfull : s.room.full cfg = true
      · unfold BattleRoom.onPlayerEnter at hroom
        rw [if_pos hfull] at hroom
        exact hsame hroom
      · unfold BattleRoom.onPlayerEnter at hroom
        rw [if_neg hfull] at hroom
        simp only [BattleRoom.findPlayer_addPlayerToTeam, if_true, Option.some.injEq] at hroom
        subst hroom
        exact .inl (if_neg hfull)
  | playerReconnect pid conn =>
    have hroom : (s.handleReconnect pid conn).room.findPlayer playerId = some info := h
    rw [handleReconnect_room, BattleRoom.findPlayer_handleReconnect] at hroom
    obtain ⟨old, hold, heq⟩ := Option.map_eq_some_iff.mp hroom
    split_ifs at heq with hpid
    · subst hpid heq
      left
      show (s.room.findPlayer playerId).map _ = _
      rw [hold]
      rfl
    · exact hsame (heq ▸ hold)
  | playerLeave pid =>
    have hroom : (s.onPlayerLeave pid).room.findPlayer playerId = some info := h
    rw [onPlayerLeave_room] at hroom
    unfold BattleRoom.onPlayerLeave at hroom
    split_ifs at hroom
    · rw [BattleRoom.findPlayer_markDisconnected] at hroom
      exact hmap (f := fun old => { old with isConnected := false }) (fun _ => rfl)
        (fun _ hconn => nomatch hconn) hroom
    · rw [BattleRoom.findPlayer_removePlayer] at hroom
      split_ifs at hroom
      exact hsame hroom
  | playerMove msg => exact hsame ((BattleRoom.findPlayer_onHero _).symm.trans h)
  | hero msg => exact hsame ((BattleRoom.findPlayer_onHero _).symm.trans h)
  | battleReady pid =>
    have hroom : (s.room.onBattleReady pid).findPlayer playerId = some info := h
    rw [BattleRoom.findPlayer_onBattleReady] at hroom
    exact hmap (f := fun old => { old with isReady := true }) (fun _ => rfl) (fun _ => id) hroom
  | playerAction pid => exact hsame h
  | roomBroadcast payload => exact hsame h

/-- Who is let in is in the room, on the connection of the message. -/
theorem findPlayer_of_letsIn (hlet : s.letsIn cfg msg = some (playerId, connId)) :
    ∃ info, (s.onMessage fromFloat cfg msg).room.findPlayer playerId = some info ∧
      info.connId = connId ∧ info.isConnected = true := by
  cases msg with
  | playerEnter pid conn =>
    simp only [letsIn] at hlet
    split_ifs at hlet with hfull
    cases hlet
    show ∃ info, (s.onPlayerEnter cfg playerId connId).room.findPlayer playerId = some info ∧ _
    rw [onPlayerEnter_room]
    unfold BattleRoom.onPlayerEnter
    rw [if_neg hfull]
    simp only [BattleRoom.findPlayer_addPlayerToTeam, if_true]
    exact ⟨_, rfl, rfl, rfl⟩
  | playerReconnect pid conn =>
    obtain ⟨old, hold, heq⟩ := Option.map_eq_some_iff.mp hlet
    cases heq
    show ∃ info, (s.handleReconnect playerId connId).room.findPlayer playerId = some info ∧ _
    rw [handleReconnect_room, BattleRoom.findPlayer_handleReconnect, hold]
    simp only [Option.map_some, if_true]
    exact ⟨_, rfl, rfl, rfl⟩
  | _ => cases hlet

end Roster

/-! ## What a message says -/

/-- The connection that a message names. -/
def RoomMessage.connId : RoomMessage → Option UInt64
  | .playerEnter _ connId | .playerReconnect _ connId => some connId
  | _ => none

/-- A message that names a connection names the one in front of the packet. -/
def NamesConn (pkt : Packet) (req : UInt32 × RoomMessage) : Prop :=
  ∀ connId, req.2.connId = some connId → connId = readU64BE pkt.payload 0

theorem forall_mem_ite {α : Type} {P : α → Prop} {c : Prop} [Decidable c] {x y : Option α}
    (hx : ∀ a ∈ x, P a) (hy : ∀ a ∈ y, P a) : ∀ a ∈ (if c then x else y), P a := by
  split_ifs
  · exact hx
  · exact hy

/-- Only a player that enters or reconnects brings a connection along. -/
theorem namesConn_read {d : Decoders} {pkt : Packet} : ∀ req ∈ d.read pkt, NamesConn pkt req := by
  have hnone : ∀ req ∈ (none : Option (UInt32 × RoomMessage)), NamesConn pkt req := nofun
  have hsome : ∀ {req}, NamesConn pkt req → ∀ req' ∈ some req, NamesConn pkt req' := by
    rintro req hreq req' ⟨⟩
    exact hreq
  have hparsed : ∀ {β : Type} {parsed : Option β} {f : β → UInt32 × RoomMessage},
      (∀ b, NamesConn pkt (f b)) → ∀ req ∈ parsed.map f, NamesConn pkt req :=
    fun hf => Option.forall_mem_map.mpr fun b _ => hf b
  have henter : ∀ roomId playerId,
      NamesConn pkt (roomId, .playerEnter playerId (readU64BE pkt.payload 0)) := by
    rintro roomId playerId connId ⟨⟩
    rfl
  have hreconnect : ∀ roomId playerId,
      NamesConn pkt (roomId, .playerReconnect playerId (readU64BE pkt.payload 0)) := by
    rintro roomId playerId connId ⟨⟩
    rfl
  unfold Decoders.read
  -- the packets of the room, and then, behind one more check, the requests of a battle
  refine forall_mem_ite (forall_mem_ite hnone (hsome (henter _ _))) ?_
  refine forall_mem_ite (forall_mem_ite hnone (hsome nofun)) ?_
  refine forall_mem_ite (forall_mem_ite hnone (hsome nofun)) ?_
  refine forall_mem_ite (forall_mem_ite hnone (hsome nofun)) ?_
  refine forall_mem_ite (forall_mem_ite hnone (hsome nofun)) ?_
  refine forall_mem_ite hnone ?_
  refine forall_mem_ite (hparsed fun _ => nofun) ?_
  refine forall_mem_ite (hparsed fun _ => nofun) ?_
  refine forall_mem_ite (hparsed fun _ => nofun) ?_
  exact forall_mem_ite (hparsed fun _ => hreconnect _ _) hnone

/-- Messages name the connection that the gateway has put in front of the packet. -/
theorem connId_read {d : Decoders} {pkt : Packet} {roomId : UInt32} {msg : RoomMessage}
    {connId : UInt64} (h : d.read pkt = some (roomId, msg)) (hconn : msg.connId = some connId) :
    connId = readU64BE pkt.payload 0 :=
  namesConn_read (roomId, msg) h connId hconn

theorem connId_of_letsIn {cfg : BattleRoomConfig} {s : Roster} {msg : RoomMessage}
    {playerId connId : UInt64} (h : s.letsIn cfg msg = some (playerId, connId)) :
    msg.connId = some connId := by
  cases msg with
  | playerEnter pid conn =>
    simp only [Roster.letsIn] at h
    split_ifs at h
    cases h
    rfl
  | playerReconnect pid conn =>
    obtain ⟨info, -, heq⟩ := Option.map_eq_some_iff.mp h
    cases heq
    rfl
  | _ => cases h

namespace RealtimeServer

/-! ## What holds of all rooms and of all messages -/

/-- Every room and every message that waits for a thread meet a condition. -/
structure Holds (P : ServedRoom → Prop) (Q : Envelope → Prop) (s : RealtimeServer) : Prop where
  rooms : ∀ roomId room, s.rooms.lookup roomId = some room → P room
  queues : ∀ thread, ∀ env ∈ s.queues thread, Q env

section Holds

variable {d : Decoders} {s s' : RealtimeServer} {P : ServedRoom → Prop} {Q : Envelope → Prop}
  {e : ServerEvent}

theorem Holds.mono {P' : ServedRoom → Prop} {Q' : Envelope → Prop} (h : Holds P Q s)
    (hP : ∀ room, P room → P' room) (hQ : ∀ env, Q env → Q' env) : Holds P' Q' s :=
  ⟨fun roomId room hroom => hP room (h.rooms roomId room hroom),
    fun thread env henv => hQ env (h.queues thread env henv)⟩

theorem Holds.assign (h : Holds P Q s) {roomId : UInt32} {room : ServedRoom} (hroom : P room) :
    Holds P Q { s with rooms := s.rooms.assign roomId room } := by
  refine ⟨fun id r hlookup => ?_, h.queues⟩
  rw [Assoc.lookup_assign] at hlookup
  split_ifs at hlookup
  · cases hlookup
    exact hroom
  · exact h.rooms id r hlookup

theorem Holds.createRoom (h : Holds P Q s) (hnew : P { roster := .new roomConfig })
    (roomId : UInt32) : Holds P Q (s.createRoom roomId) := by
  unfold RealtimeServer.createRoom
  split
  · exact h
  · exact h.assign hnew

theorem Holds.pushMessage (h : Holds P Q s) {env : Envelope} (henv : Q env) :
    Holds P Q (s.pushMessage env) := by
  refine ⟨h.rooms, fun thread env' hmem => ?_⟩
  unfold RealtimeServer.pushMessage at hmem
  by_cases hthread : thread = pickThread env.roomId
  · subst hthread
    simp only [Function.update_self, List.mem_append, List.mem_singleton] at hmem
    rcases hmem with hold | rfl
    · exact h.queues _ env' hold
    · exact henv
  · simp only [Function.update_of_ne hthread] at hmem
    exact h.queues thread env' hmem

/-- What the messages and the ticks of a room keep, and what messages are pushed with,
holds of the server after every event. -/
theorem Holds.next (h : Holds P Q s) (hnew : P { roster := .new roomConfig })
    (hmsg : ∀ room env, P room → Q env → P (room.onMessage d.fromFloat env.source env.msg))
    (htick : ∀ room passes won roster, P room → room.roster.tick roomConfig passes won = some roster →
      P { room with roster })
    (hpush : ∀ gateway pkt roomId msg, e = .handle gateway →
      s.gateways[gateway]? = some (.handling pkt) → d.read pkt = some (roomId, msg) →
      Q { roomId, msg, source := ⟨gateway, readU64BE pkt.payload 0⟩ })
    (hstep : RealtimeServer.next d s e = some s') : Holds P Q s' := by
  cases e with
  | connect =>
    cases hstep
    exact ⟨h.rooms, h.queues⟩
  | packet gateway pkt =>
    simp only [RealtimeServer.next] at hstep
    split_ifs at hstep
    cases hstep
    unfold routePacket bindClientRoute
    split_ifs <;> exact ⟨h.rooms, h.queues⟩
  | handle gateway =>
    simp only [RealtimeServer.next] at hstep
    split at hstep
    · next pkt hpkt =>
      cases hstep
      have hpacket : Holds P Q (s.handlePacket d gateway pkt) := by
        unfold handlePacket
        cases hread : d.read pkt with
        | none => exact h
        | some req =>
          have henv := hpush gateway pkt req.1 req.2 rfl hpkt hread
          refine Holds.pushMessage ?_ henv
          split
          · exact h.createRoom hnew _
          · exact h
      exact ⟨hpacket.rooms, hpacket.queues⟩
    · cases hstep
  | close gateway =>
    simp only [RealtimeServer.next] at hstep
    split_ifs at hstep
    cases hstep
    exact ⟨h.rooms, h.queues⟩
  | process thread =>
    simp only [RealtimeServer.next] at hstep
    split at hstep
    · cases hstep
    · next env rest hqueue =>
      cases hstep
      have henv : Q env := h.queues thread env (hqueue ▸ List.mem_cons_self)
      have hrest : Holds P Q { s with queues := Function.update s.queues thread rest } := by
        refine ⟨h.rooms, fun t env' hmem => ?_⟩
        by_cases ht : t = thread
        · subst ht
          simp only [Function.update_self] at hmem
          exact h.queues t env' (hqueue ▸ List.mem_cons_of_mem env hmem)
        · simp only [Function.update_of_ne ht] at hmem
          exact h.queues t env' hmem
      unfold deliver
      split
      · exact hrest
      · next room hroom => exact hrest.assign (hmsg room env (h.rooms _ room hroom) henv)
  | tick roomId passes won =>
    obtain ⟨room, hroom, hrest⟩ := Option.bind_eq_some_iff.mp hstep
    obtain ⟨roster, hroster, heq⟩ := Option.bind_eq_some_iff.mp hrest
    cases heq
    exact h.assign (htick room passes won roster (h.rooms roomId room hroom) hroster)

theorem holds_start (hnew : P { roster := .new roomConfig }) (battleMode : Bool) :
    Holds P Q (start battleMode) := by
  refine foldl_invariant_all (fun s roomId _ hs => hs.createRoom hnew roomId) ?_
  refine ⟨fun roomId room hroom => ?_, fun thread env henv => ?_⟩
  · cases hroom
  · cases henv

end Holds

end RealtimeServer

end Gmaker.Realtime
