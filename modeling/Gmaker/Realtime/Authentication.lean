import Gmaker.Realtime.Server

/-!
# Gmaker.Realtime.Authentication — who acts for a player

A message acts for the player that it names, and for nobody else: what a room holds about
the other players stays as it is (`view_onMessage`). But nothing compares the player with
the connection that the message has come on. `authentic_of_honest` proves that a player is
only ever acted for on a connection of the player's own, on which the player has come in,
in every run of which the packets name the players of their connections.
-/

namespace Gmaker.Realtime

open Gmaker.Lib Gmaker.Net

/-! ## What a room holds about a player -/

/-- What a room holds about one player. -/
structure PlayerView where
  info : Option PlayerInfo
  waiting : Option DisconnectInfo
  active : Prop
  /-- the inputs of the player by frame -/
  inputs : UInt32 → Option PlayerInput
  last : Option PlayerInput
  /-- how often the player is in the lists of the two sides -/
  places : ℕ × ℕ

namespace BattleRoom

/-- What the room holds about the player. -/
def view (r : BattleRoom) (playerId : UInt64) : PlayerView where
  info := r.findPlayer playerId
  waiting := r.disconnectedPlayers.find? fun dc => dc.playerId = playerId
  active := playerId ∈ r.lockstep.activePlayers
  inputs frame := (r.lockstep.frameBuffer frame).bind fun fi => fi.playerInputs playerId
  last := r.lockstep.lastInputs playerId
  places := (r.bluePlayers.count playerId, r.redPlayers.count playerId)

section View

variable {cfg : BattleRoomConfig} {r r' : BattleRoom} {playerId pid connId : UInt64}

/-- The places of the others in a list that a player is taken out of. -/
theorem count_filter_ne (pids : List UInt64) (hne : playerId ≠ pid) :
    (pids.filter (· ≠ pid)).count playerId = pids.count playerId :=
  List.count_filter (by simpa using hne)

/-- The others that are waited for. -/
theorem find_waiting_filter_ne (dcs : List DisconnectInfo) (hne : playerId ≠ pid) :
    (dcs.filter fun dc => dc.playerId ≠ pid).find? (fun dc => dc.playerId = playerId) =
      dcs.find? fun dc => dc.playerId = playerId := by
  rw [List.find?_filter]
  refine congrArg (List.find? · dcs) (funext fun dc => ?_)
  by_cases hdc : dc.playerId = playerId
  · simp [hdc, hne]
  · simp [hdc]

/-- The views are the same if their parts are. -/
theorem view_congr (hinfo : r'.findPlayer playerId = r.findPlayer playerId)
    (hwaiting : r'.disconnectedPlayers.find? (fun dc => dc.playerId = playerId) =
      r.disconnectedPlayers.find? fun dc => dc.playerId = playerId)
    (hactive : playerId ∈ r'.lockstep.activePlayers ↔ playerId ∈ r.lockstep.activePlayers)
    (hinputs : ∀ frame, ((r'.lockstep.frameBuffer frame).bind fun fi => fi.playerInputs playerId) =
      (r.lockstep.frameBuffer frame).bind fun fi => fi.playerInputs playerId)
    (hlast : r'.lockstep.lastInputs playerId = r.lockstep.lastInputs playerId)
    (hblue : r'.bluePlayers.count playerId = r.bluePlayers.count playerId)
    (hred : r'.redPlayers.count playerId = r.redPlayers.count playerId) :
    r'.view playerId = r.view playerId := by
  unfold view
  rw [hinfo, hwaiting, propext hactive, funext hinputs, hlast, hblue, hred]

/-- A change of the entries and the lists of players that keeps one of them. -/
theorem view_congr_players (hinfo : r'.findPlayer playerId = r.findPlayer playerId)
    (hwaiting : r'.disconnectedPlayers = r.disconnectedPlayers) (hlock : r'.lockstep = r.lockstep)
    (hblue : r'.bluePlayers.count playerId = r.bluePlayers.count playerId)
    (hred : r'.redPlayers.count playerId = r.redPlayers.count playerId) :
    r'.view playerId = r.view playerId := by
  refine view_congr hinfo ?_ ?_ ?_ ?_ hblue hred
  · rw [hwaiting]
  · rw [hlock]
  · intro frame
    rw [hlock]
  · rw [hlock]

theorem view_addPlayerToTeam (hne : playerId ≠ pid) (team : TeamSide) :
    (r.addPlayerToTeam pid connId team).view playerId = r.view playerId := by
  have hcount (pids : List UInt64) : (pids ++ [pid]).count playerId = pids.count playerId := by
    rw [List.count_append, List.count_singleton]
    simp [Ne.symm hne]
  refine view_congr_players (findPlayer_addPlayerToTeam.trans (if_neg hne)) ?_ ?_ ?_ ?_
  · unfold addPlayerToTeam
    simp only
    split_ifs <;> rfl
  · unfold addPlayerToTeam
    simp only
    split_ifs <;> rfl
  · rw [Roster.addPlayerToTeam_bluePlayers]
    split_ifs
    · exact hcount _
    · rfl
  · rw [Roster.addPlayerToTeam_redPlayers]
    split_ifs
    · rfl
    · exact hcount _

theorem view_onPlayerEnter (hne : playerId ≠ pid) :
    (r.onPlayerEnter cfg pid connId).view playerId = r.view playerId := by
  unfold onPlayerEnter
  split_ifs
  · rfl
  · exact view_addPlayerToTeam hne _
  · exact view_addPlayerToTeam hne _

theorem view_removePlayer (hne : playerId ≠ pid) :
    (r.removePlayer pid).view playerId = r.view playerId := by
  have hinfo : (r.removePlayer pid).findPlayer playerId = r.findPlayer playerId :=
    findPlayer_removePlayer.trans (if_neg hne)
  unfold removePlayer at hinfo ⊢
  cases hfind : r.findPlayer pid with
  | none => rfl
  | some info =>
    rw [hfind] at hinfo
    simp only at hinfo ⊢
    split_ifs at hinfo ⊢
    · exact view_congr_players hinfo rfl rfl (count_filter_ne _ hne) rfl
    · exact view_congr_players hinfo rfl rfl rfl (count_filter_ne _ hne)

theorem view_markDisconnected (hne : playerId ≠ pid) :
    (r.markDisconnected pid).view playerId = r.view playerId := by
  have hinfo : (r.markDisconnected pid).findPlayer playerId = r.findPlayer playerId := by
    rw [findPlayer_markDisconnected]
    simp only [hne, if_false, Option.map_id']
  unfold markDisconnected at hinfo ⊢
  cases hfind : r.findPlayer pid with
  | none => rfl
  | some info =>
    rw [hfind] at hinfo
    refine view_congr hinfo ?_ ?_ (fun _ => rfl) rfl rfl rfl
    · show List.find? _ (List.filter _ r.disconnectedPlayers ++ [_]) = _
      rw [List.find?_append, find_waiting_filter_ne _ hne]
      simp [Ne.symm hne]
    · show playerId ∈ r.lockstep.activePlayers.erase pid ↔ _
      rw [Finset.mem_erase]
      exact and_iff_right hne

theorem view_handleReconnect (hne : playerId ≠ pid) :
    (r.handleReconnect pid connId).view playerId = r.view playerId := by
  have hinfo : (r.handleReconnect pid connId).findPlayer playerId = r.findPlayer playerId := by
    rw [findPlayer_handleReconnect]
    simp only [hne, if_false, Option.map_id']
  unfold handleReconnect at hinfo ⊢
  cases hfind : r.findPlayer pid with
  | none => rfl
  | some info =>
    rw [hfind] at hinfo
    simp only at hinfo ⊢
    unfold LockstepEngine.playerReconnected at hinfo ⊢
    have hwaiting := find_waiting_filter_ne r.disconnectedPlayers hne
    split_ifs at hinfo ⊢
    · refine view_congr hinfo hwaiting ?_ (fun _ => rfl) rfl rfl rfl
      show playerId ∈ insert pid r.lockstep.activePlayers ↔ _
      rw [Finset.mem_insert]
      exact or_iff_right hne
    · exact view_congr hinfo hwaiting Iff.rfl (fun _ => rfl) rfl rfl rfl

theorem view_onBattleReady (hne : playerId ≠ pid) :
    (r.onBattleReady pid).view playerId = r.view playerId := by
  refine view_congr_players ?_ rfl rfl rfl rfl
  rw [findPlayer_onBattleReady]
  simp only [hne, if_false, Option.map_id']

/-- An input of one player is put beside the inputs of the others. -/
theorem view_onHero {msg : HeroMsg} (hne : playerId ≠ msg.playerId) :
    (r.onHero msg).view playerId = r.view playerId := by
  unfold onHero
  split_ifs
  · unfold LockstepEngine.submitInput
    split_ifs
    · refine view_congr rfl rfl Iff.rfl (fun frame => ?_) ?_ rfl rfl
      · simp only
        by_cases hframe : frame = r.lockstep.currentFrame
        · rw [hframe, Function.update_self]
          cases r.lockstep.frameBuffer r.lockstep.currentFrame with
          | none => exact Function.update_of_ne hne _ _
          | some fi => exact Function.update_of_ne hne _ _
        · rw [Function.update_of_ne hframe]
      · exact Function.update_of_ne hne _ _
    · rfl
  · rfl

/-- The room or its engine has the player. -/
def Has (r : BattleRoom) (playerId : UInt64) : Prop :=
  (r.findPlayer playerId).isSome = true ∨ playerId ∈ r.lockstep.allPlayers

instance (r : BattleRoom) (playerId : UInt64) : Decidable (r.Has playerId) :=
  inferInstanceAs (Decidable (_ ∨ _))

theorem onHero_of_not_has {msg : HeroMsg} (h : ¬ r.Has msg.playerId) : r.onHero msg = r := by
  unfold onHero
  split_ifs
  · unfold LockstepEngine.submitInput
    rw [if_pos fun hmem => h (.inr hmem)]
  · rfl

theorem findPlayer_of_not_has (h : ¬ r.Has playerId) : r.findPlayer playerId = none := by
  rw [← Option.not_isSome_iff_eq_none]
  exact fun hsome => h (.inl hsome)

end View

end BattleRoom

/-! ## Messages -/

/-- The player that a message names. -/
def RoomMessage.player : RoomMessage → Option UInt64
  | .playerEnter playerId _ | .playerReconnect playerId _ | .playerLeave playerId
  | .playerAction playerId | .battleReady playerId => some playerId
  | .playerMove msg => some msg.playerId
  | .hero msg => some msg.playerId
  | .roomBroadcast _ => none

section Messages

variable {fromFloat : UInt32 → Fixed} {cfg : BattleRoomConfig} {s : Roster} {msg : RoomMessage}
  {playerId : UInt64}

/-- A message changes nothing about the players that it does not name. -/
theorem Roster.view_onMessage (hplayer : msg.player ≠ some playerId) :
    (s.onMessage fromFloat cfg msg).room.view playerId = s.room.view playerId := by
  have hne : ∀ pid, msg.player = some pid → playerId ≠ pid := by
    rintro pid hpid rfl
    exact hplayer hpid
  cases msg with
  | playerEnter pid connId =>
    show (s.onPlayerEnter cfg pid connId).room.view playerId = _
    rw [onPlayerEnter_room]
    exact BattleRoom.view_onPlayerEnter (hne pid rfl)
  | playerReconnect pid connId =>
    show (s.handleReconnect pid connId).room.view playerId = _
    rw [handleReconnect_room]
    exact BattleRoom.view_handleReconnect (hne pid rfl)
  | playerLeave pid =>
    show (s.onPlayerLeave pid).room.view playerId = _
    rw [onPlayerLeave_room]
    unfold BattleRoom.onPlayerLeave
    split_ifs
    · exact BattleRoom.view_markDisconnected (hne pid rfl)
    · exact BattleRoom.view_removePlayer (hne pid rfl)
  | playerMove msg => exact BattleRoom.view_onHero (hne msg.playerId rfl)
  | hero msg => exact BattleRoom.view_onHero (hne msg.playerId rfl)
  | battleReady pid => exact BattleRoom.view_onBattleReady (hne pid rfl)
  | playerAction pid => rfl
  | roomBroadcast payload => rfl

/-- Nor about one that the room does not have, unless it is to let the player in. -/
theorem Roster.view_onMessage_of_not_has (hconn : msg.connId = none)
    (hplayer : msg.player = some playerId) (hnot : ¬ s.room.Has playerId) :
    (s.onMessage fromFloat cfg msg).room.view playerId = s.room.view playerId := by
  have hfind := BattleRoom.findPlayer_of_not_has hnot
  cases msg with
  | playerEnter pid connId => cases hconn
  | playerReconnect pid connId => cases hconn
  | playerLeave pid =>
    cases hplayer
    show (s.onPlayerLeave playerId).room.view playerId = _
    rw [onPlayerLeave_room]
    unfold BattleRoom.onPlayerLeave BattleRoom.markDisconnected BattleRoom.removePlayer
    rw [hfind]
    split_ifs <;> rfl
  | playerMove msg =>
    cases hplayer
    exact congrArg (BattleRoom.view · msg.playerId) (BattleRoom.onHero_of_not_has hnot)
  | hero msg =>
    cases hplayer
    exact congrArg (BattleRoom.view · msg.playerId) (BattleRoom.onHero_of_not_has hnot)
  | battleReady pid =>
    cases hplayer
    refine BattleRoom.view_congr_players ?_ rfl rfl rfl rfl
    show (s.room.onBattleReady playerId).findPlayer playerId = _
    rw [BattleRoom.findPlayer_onBattleReady, hfind]
    rfl
  | playerAction pid => rfl
  | roomBroadcast payload => rfl

end Messages

/-! ## Authentic events -/

/-- The packet that is being handled. -/
def Gateway.packet : Gateway → Option Packet
  | .handling pkt => some pkt
  | _ => none

namespace RealtimeServer

/-- What the server holds about a player in a room: in one that is not there, what a new
one would. -/
def view (s : RealtimeServer) (roomId : UInt32) (playerId : UInt64) : PlayerView :=
  match s.rooms.lookup roomId with
  | some room => room.roster.room.view playerId
  | none => (BattleRoom.new roomConfig).view playerId

/-- Who has come into the room on which connection. -/
def entries (s : RealtimeServer) (roomId : UInt32) : List (UInt64 × Source) :=
  match s.rooms.lookup roomId with
  | some room => room.entries
  | none => []

/-- The event is that a thread takes a message for the room which has come on a
connection of the player; and the player comes in with it, or has come in on that
connection before. -/
def ActsFor (owner : Source → UInt64) (s : RealtimeServer) (e : ServerEvent) (roomId : UInt32)
    (playerId : UInt64) : Prop :=
  ∃ thread env, e = .process thread ∧ (s.queues thread).head? = some env ∧ env.roomId = roomId ∧
    owner env.source = playerId ∧
    (env.msg.connId ≠ none ∨ (playerId, env.source) ∈ s.entries roomId)

/-- The event changes what the server holds about a player in a room only if it acts for
the player, or is a tick. -/
def Authentic (d : Decoders) (owner : Source → UInt64) (s : RealtimeServer) (e : ServerEvent) :
    Prop :=
  ∀ s' roomId playerId, next d s e = some s' → s'.view roomId playerId ≠ s.view roomId playerId →
    s.ActsFor owner e roomId playerId ∨ ∃ id passes won, e = .tick id passes won

/-- The packet that is handled names the player of its connection. A message for a player
that the room has, unless it is to let the player in, has come on a connection on which
the player has come in. -/
def Honest (d : Decoders) (owner : Source → UInt64) (s : RealtimeServer) : ServerEvent → Prop
  | .handle gateway => ∀ g ∈ s.gateways[gateway]?, ∀ pkt ∈ g.packet, ∀ req ∈ d.read pkt,
    ∀ playerId ∈ req.2.player, owner ⟨gateway, readU64BE pkt.payload 0⟩ = playerId
  | .process thread => ∀ env ∈ (s.queues thread).head?, ∀ room ∈ s.rooms.lookup env.roomId,
    env.msg.connId = none → ∀ playerId ∈ env.msg.player, room.roster.room.Has playerId →
    (playerId, env.source) ∈ room.entries
  | _ => True

instance (d : Decoders) (owner : Source → UInt64) (s : RealtimeServer) (e : ServerEvent) :
    Decidable (s.Honest d owner e) :=
  match e with
  | .handle gateway =>
    decidable_of_iff ((s.gateways[gateway]?.all fun g => g.packet.all fun pkt =>
      (d.read pkt).all fun req => req.2.player.all fun playerId =>
        owner ⟨gateway, readU64BE pkt.payload 0⟩ = playerId) = true)
      (by simp only [Honest, Option.all_eq_true, Option.mem_def, decide_eq_true_eq])
  | .process thread =>
    decidable_of_iff (((s.queues thread).head?.all fun env => (s.rooms.lookup env.roomId).all fun room =>
      env.msg.connId.isSome || env.msg.player.all fun playerId =>
        !decide (room.roster.room.Has playerId) || decide ((playerId, env.source) ∈ room.entries)) = true)
      (by simp only [Honest, Option.all_eq_true, Option.mem_def, Bool.or_eq_true, Bool.not_eq_true',
        decide_eq_false_iff_not, decide_eq_true_eq, ← imp_iff_not_or, Option.isSome_iff_ne_none])
  | .connect | .packet _ _ | .close _ | .tick _ _ _ => .isTrue trivial

/-- The message names the player of its connection. -/
def Owned (owner : Source → UInt64) (env : Envelope) : Prop :=
  ∀ playerId, env.msg.player = some playerId → owner env.source = playerId

section Authentic

variable {d : Decoders} {owner : Source → UInt64} {s s' : RealtimeServer} {e : ServerEvent}

/-- Messages in the queues name the players of their connections. -/
theorem holds_owned_next (h : Holds (fun _ => True) (Owned owner) s) (hhonest : s.Honest d owner e)
    (hstep : next d s e = some s') : Holds (fun _ => True) (Owned owner) s' := by
  refine h.next trivial (fun _ _ _ _ => trivial) (fun _ _ _ _ _ _ => trivial) ?_ hstep
  rintro gateway pkt roomId msg rfl hpkt hread playerId hplayer
  exact hhonest _ hpkt pkt rfl (roomId, msg) hread playerId hplayer

theorem view_createRoom (roomId id : UInt32) (playerId : UInt64) :
    (s.createRoom roomId).view id playerId = s.view id playerId := by
  unfold createRoom
  split
  · rfl
  · next hnone =>
    unfold view
    simp only [Assoc.lookup_assign]
    by_cases hid : id = roomId
    · rw [if_pos hid, hid, hnone]
      rfl
    · rw [if_neg hid]

theorem view_handlePacket (gateway : ℕ) (pkt : Packet) (roomId : UInt32) (playerId : UInt64) :
    (s.handlePacket d gateway pkt).view roomId playerId = s.view roomId playerId := by
  unfold handlePacket
  split
  · rfl
  · dsimp only
    split
    · exact view_createRoom _ roomId playerId
    · rfl

theorem view_routePacket (gateway : ℕ) (pkt : Packet) (roomId : UInt32) (playerId : UInt64) :
    (s.routePacket gateway pkt).view roomId playerId = s.view roomId playerId := by
  unfold routePacket bindClientRoute
  split_ifs <;> rfl

/-- What a message that names the player of its connection does. -/
theorem actsFor_of_deliver {thread : Fin 4} {env : Envelope} {roomId : UInt32} {playerId : UInt64}
    (hhead : (s.queues thread).head? = some env) (hown : Owned owner env)
    (hhonest : s.Honest d owner (.process thread))
    (hview : (s.deliver d env).view roomId playerId ≠ s.view roomId playerId) :
    s.ActsFor owner (.process thread) roomId playerId := by
  unfold deliver at hview
  cases hroom : s.rooms.lookup env.roomId with
  | none =>
    rw [hroom] at hview
    exact absurd rfl hview
  | some room =>
    simp only [hroom] at hview
    unfold view at hview
    simp only [Assoc.lookup_assign] at hview
    by_cases hid : roomId = env.roomId
    · subst hid
      rw [if_pos rfl, hroom] at hview
      have hchanged : (room.roster.onMessage d.fromFloat roomConfig env.msg).room.view playerId ≠
          room.roster.room.view playerId := hview
      have hplayer : env.msg.player = some playerId := by
        by_contra hother
        exact hchanged (Roster.view_onMessage hother)
      refine ⟨thread, env, rfl, hhead, rfl, hown playerId hplayer, ?_⟩
      by_cases hconn : env.msg.connId = none
      · right
        have hhas : room.roster.room.Has playerId := by
          by_contra hnot
          exact hchanged (Roster.view_onMessage_of_not_has hconn hplayer hnot)
        unfold entries
        rw [hroom]
        exact hhonest env hhead room hroom hconn playerId hplayer hhas
      · exact .inl hconn
    · rw [if_neg hid] at hview
      exact absurd rfl hview

/-- An honest event is authentic. -/
theorem Honest.authentic (h : Holds (fun _ => True) (Owned owner) s)
    (hhonest : s.Honest d owner e) : s.Authentic d owner e := by
  intro s' roomId playerId hstep hview
  cases e with
  | connect =>
    cases hstep
    exact absurd rfl hview
  | packet gateway pkt =>
    simp only [next] at hstep
    split_ifs at hstep
    cases hstep
    exact absurd (view_routePacket gateway pkt roomId playerId) hview
  | handle gateway =>
    simp only [next] at hstep
    split at hstep
    · cases hstep
      exact absurd (view_handlePacket gateway _ roomId playerId) hview
    · cases hstep
  | close gateway =>
    simp only [next] at hstep
    split_ifs at hstep
    cases hstep
    exact absurd rfl hview
  | process thread =>
    simp only [next] at hstep
    split at hstep
    · cases hstep
    · next env rest hqueue =>
      cases hstep
      have hhead : (s.queues thread).head? = some env := by rw [hqueue]; rfl
      have hown : Owned owner env := h.queues thread env (hqueue ▸ List.mem_cons_self)
      -- what the rooms hold does not depend on the queue
      have hsame : (deliver d { s with queues := Function.update s.queues thread rest } env).view
          roomId playerId = (s.deliver d env).view roomId playerId := by
        unfold deliver
        dsimp only
        cases s.rooms.lookup env.roomId <;> rfl
      exact .inl (actsFor_of_deliver hhead hown hhonest (hsame ▸ hview))
  | tick id passes won => exact .inr ⟨id, passes, won, rfl⟩

/-- Where every packet names the player of its connection, and a player is not acted for on
a connection on which the player has not come in, nothing acts for anyone else. -/
theorem authentic_of_honest (d : Decoders) (owner : Source → UInt64) (battleMode : Bool)
    (events : List ServerEvent)
    (hok : RunOk (next d) (fun s e => s.Honest d owner e) (start battleMode) events) :
    RunOk (next d) (fun s e => s.Authentic d owner e) (start battleMode) events :=
  runOk_of_invariant (I := Holds (fun _ => True) (Owned owner))
    (fun _ _ _ h hhonest hstep => holds_owned_next h hhonest hstep)
    (fun _ _ h hhonest => Honest.authentic h hhonest) (holds_start trivial battleMode) hok

end Authentic

/-! ## Two players of one gateway -/

/-- The packet comes through the only gateway and is taken to the first room. -/
def throughGateway (pkt : Packet) : List ServerEvent :=
  [.packet 0 pkt, .handle 0, .process (pickThread 1)]

/-- The players 1 and 2 enter the first room on the connections 1 and 2. -/
def bothEnter : List ServerEvent :=
  .connect :: (throughGateway (clientPacket cmdRealtimeEnter 1 1 1) ++
    throughGateway (clientPacket cmdRealtimeEnter 2 1 2))

/-- Each connection is the one of the player of that number. -/
def sameNumber (source : Source) : UInt64 := source.conn

/-- The second one leaves: the run is honest. -/
theorem authentic_ownLeave :
    RunOk (next noRequests) (fun s e => s.Authentic noRequests sameNumber e) (start true)
      (bothEnter ++ throughGateway (clientPacket cmdRealtimeLeave 2 1 2)) :=
  authentic_of_honest noRequests sameNumber true _ (by decide)

/-- The second one asks for the first one to leave, and that happens. -/
theorem foreignLeave_not_authentic :
    ¬ ∀ (d : Decoders) (owner : Source → UInt64) (battleMode : Bool) (events : List ServerEvent),
      RunOk (next d) (fun s e => s.Authentic d owner e) (start battleMode) events := by
  intro h
  have hrun := h noRequests sameNumber true
    ((bothEnter ++ [.packet 0 (clientPacket cmdRealtimeLeave 2 1 1), .handle 0]) ++ [.process 1])
  have hlast := ((runOk_append.mp hrun).2 _ rfl).1 _ 1 1 rfl
  have hgone : ∀ {v w : PlayerView}, v.info.isSome ≠ w.info.isSome → v ≠ w := by
    rintro v w hne rfl
    exact hne rfl
  rcases hlast (hgone (by decide)) with ⟨thread, env, heq, hhead, -, hown, -⟩ | ⟨_, _, _, heq⟩
  · cases heq
    cases hhead
    revert hown
    decide
  · cases heq

end RealtimeServer

end Gmaker.Realtime
