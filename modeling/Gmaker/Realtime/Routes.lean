import Gmaker.Realtime.Server

/-!
# Gmaker.Realtime.Routes — which gateway a snapshot goes to

Every gateway numbers the connections of its clients by itself, and the server has one
route for an id: the gateway through which it has come last. A room knows its players by
these ids. `delivers_exact` says when a snapshot nevertheless reaches the right client:
as long as no packet comes through one gateway with the id under which a connected player
of a room has come in through another, and a player that is let in still has the route.
-/

namespace Gmaker.Realtime

open Gmaker.Lib Gmaker.Net

namespace RealtimeServer

/-! ## Gateways and routes -/

/-- The gateway is connected. -/
def isOpen (s : RealtimeServer) (gateway : ℕ) : Bool := (s.gateways[gateway]?).any Gateway.isOpen

/-- Where the route of a client should lead: to its gateway, if that is connected. -/
def route (s : RealtimeServer) (source : Source) : Option ℕ :=
  if s.isOpen source.gateway then some source.gateway else none

section Frame

variable {d : Decoders} {s s' : RealtimeServer} {e : ServerEvent} {gateway j : ℕ} {pkt : Packet}
  {g : Gateway}

@[simp] theorem createRoom_gateways (roomId : UInt32) :
    (s.createRoom roomId).gateways = s.gateways := by
  unfold createRoom
  split <;> rfl

@[simp] theorem createRoom_clientRoutes (roomId : UInt32) :
    (s.createRoom roomId).clientRoutes = s.clientRoutes := by
  unfold createRoom
  split <;> rfl

@[simp] theorem handlePacket_gateways :
    (s.handlePacket d gateway pkt).gateways = s.gateways := by
  unfold handlePacket
  split
  · rfl
  · dsimp only
    split
    · exact createRoom_gateways _
    · rfl

@[simp] theorem handlePacket_clientRoutes :
    (s.handlePacket d gateway pkt).clientRoutes = s.clientRoutes := by
  unfold handlePacket
  split
  · rfl
  · dsimp only
    split
    · exact createRoom_clientRoutes _
    · rfl

@[simp] theorem routePacket_gateways : (s.routePacket gateway pkt).gateways = s.gateways := by
  unfold routePacket bindClientRoute
  split_ifs <;> rfl

@[simp] theorem routePacket_rooms : (s.routePacket gateway pkt).rooms = s.rooms := by
  unfold routePacket bindClientRoute
  split_ifs <;> rfl

@[simp] theorem deliver_gateways (env : Envelope) : (s.deliver d env).gateways = s.gateways := by
  unfold deliver
  split <;> rfl

@[simp] theorem deliver_clientRoutes (env : Envelope) :
    (s.deliver d env).clientRoutes = s.clientRoutes := by
  unfold deliver
  split <;> rfl

/-- The route that a packet leaves behind. -/
theorem lookup_routePacket (connId : UInt64) :
    (s.routePacket gateway pkt).clientRoutes.lookup connId =
      if 8 ≤ pkt.payload.length ∧ connId = readU64BE pkt.payload 0 ∧ connId ≠ 0 then some gateway
      else s.clientRoutes.lookup connId := by
  unfold routePacket bindClientRoute
  by_cases hlen : 8 ≤ pkt.payload.length
  · rw [if_pos hlen]
    by_cases hzero : readU64BE pkt.payload 0 = 0
    · rw [if_pos hzero, if_neg]
      rintro ⟨-, heq, hne⟩
      exact hne (heq.trans hzero)
    · rw [if_neg hzero]
      simp only [Assoc.lookup_assign]
      by_cases heq : connId = readU64BE pkt.payload 0
      · rw [if_pos heq, if_pos ⟨hlen, heq, heq ▸ hzero⟩]
      · rw [if_neg heq, if_neg fun h => heq h.2.1]
  · rw [if_neg hlen, if_neg fun h => hlen h.1]

theorem isOpen_setGateway (hlt : gateway < s.gateways.length) :
    (s.setGateway gateway g).isOpen j = if j = gateway then g.isOpen else s.isOpen j := by
  unfold isOpen setGateway
  simp only [List.getElem?_set]
  by_cases hj : j = gateway
  · rw [if_pos hj.symm, if_pos hlt, if_pos hj]
    rfl
  · rw [if_neg (Ne.symm hj), if_neg hj]

/-- A step of a gateway's connection that leaves it open. -/
theorem isOpen_setGateway_same {old : Gateway} (hold : s.gateways[gateway]? = some old)
    (hsame : g.isOpen = old.isOpen) : (s.setGateway gateway g).isOpen j = s.isOpen j := by
  obtain ⟨hlt, -⟩ := List.getElem?_eq_some_iff.mp hold
  rw [isOpen_setGateway hlt]
  split_ifs with hj
  · rw [hsame]
    unfold isOpen
    rw [hj, hold]
    rfl
  · rfl

/-- A new gateway takes no number that is in use. -/
theorem isOpen_connect (hlt : j < s.gateways.length) :
    isOpen { s with gateways := s.gateways ++ [.idle] } j = s.isOpen j := by
  unfold isOpen
  rw [List.getElem?_append_left hlt]

theorem length_gateways_le (hstep : next d s e = some s') :
    s.gateways.length ≤ s'.gateways.length := by
  cases e with
  | connect =>
    cases hstep
    simp
  | packet gateway pkt =>
    simp only [next] at hstep
    split_ifs at hstep
    cases hstep
    simp [setGateway]
  | handle gateway =>
    simp only [next] at hstep
    split at hstep
    · cases hstep
      simp [setGateway]
    · cases hstep
  | close gateway =>
    simp only [next] at hstep
    split_ifs at hstep
    cases hstep
    simp [onClientClose, setGateway]
  | process thread =>
    simp only [next] at hstep
    split at hstep
    · cases hstep
    · cases hstep
      simp
  | tick roomId passes won =>
    obtain ⟨room, -, hrest⟩ := Option.bind_eq_some_iff.mp hstep
    obtain ⟨roster, -, heq⟩ := Option.bind_eq_some_iff.mp hrest
    cases heq
    exact le_rfl

end Frame

end RealtimeServer

/-! ## Clients of a room -/

namespace ServedRoom

/-- The player is connected to the room, and has come in last on the connection. -/
def Client (room : ServedRoom) (playerId : UInt64) (source : Source) : Prop :=
  ∃ info, room.roster.room.findPlayer playerId = some info ∧ info.isConnected = true ∧
    room.entries.lookup playerId = some source

/-- The log has a known gateway for everyone, and for the players of the room the
connection that the room knows them by. -/
structure Wf (gateways : ℕ) (room : ServedRoom) : Prop where
  placed : ∀ entry ∈ room.entries, entry.2.gateway < gateways
  current : ∀ playerId info, room.roster.room.findPlayer playerId = some info →
    ∃ source, room.entries.lookup playerId = some source ∧ source.conn = info.connId

variable {fromFloat : UInt32 → Fixed} {room : ServedRoom} {source src : Source} {msg : RoomMessage}
  {playerId connId : UInt64} {info : PlayerInfo} {n : ℕ}

theorem lookup_entries_of_letsIn
    (hlet : room.roster.letsIn roomConfig msg = some (playerId, connId)) :
    (room.onMessage fromFloat source msg).entries.lookup playerId = some source := by
  unfold onMessage
  rw [hlet]
  exact List.lookup_cons_self

theorem lookup_entries_of_not_letsIn
    (hlet : ∀ connId, room.roster.letsIn roomConfig msg ≠ some (playerId, connId)) :
    (room.onMessage fromFloat source msg).entries.lookup playerId = room.entries.lookup playerId := by
  unfold onMessage
  cases hother : room.roster.letsIn roomConfig msg with
  | none => rfl
  | some entry =>
    have hne : playerId ≠ entry.1 := by
      rintro rfl
      exact hlet entry.2 hother
    show List.lookup playerId ((entry.1, source) :: room.entries) = _
    rw [List.lookup_cons, beq_false_of_ne hne]

theorem find_of_letsIn (fromFloat : UInt32 → Fixed) (source : Source)
    (hlet : room.roster.letsIn roomConfig msg = some (playerId, connId)) :
    ∃ info, (room.onMessage fromFloat source msg).roster.room.findPlayer playerId = some info ∧
      info.connId = connId ∧ info.isConnected = true :=
  Roster.findPlayer_of_letsIn hlet

/-- Who is in the room after a message has come in by it, or was there before. -/
theorem find_onMessage
    (hfind : (room.onMessage fromFloat source msg).roster.room.findPlayer playerId = some info) :
    (room.roster.letsIn roomConfig msg = some (playerId, info.connId) ∧
        (room.onMessage fromFloat source msg).entries.lookup playerId = some source) ∨
      (∃ old, room.roster.room.findPlayer playerId = some old ∧ old.connId = info.connId ∧
        (info.isConnected = true → old.isConnected = true)) ∧
        (room.onMessage fromFloat source msg).entries.lookup playerId =
          room.entries.lookup playerId := by
  by_cases hlet : ∃ connId, room.roster.letsIn roomConfig msg = some (playerId, connId)
  · obtain ⟨connId, hlet⟩ := hlet
    obtain ⟨new, hnew, hconn, -⟩ := find_of_letsIn fromFloat source hlet
    cases hnew.symm.trans hfind
    exact .inl ⟨hconn ▸ hlet, lookup_entries_of_letsIn hlet⟩
  · push Not at hlet
    have hold := (Roster.findPlayer_of_onMessage hfind).resolve_left (hlet info.connId)
    exact .inr ⟨hold, lookup_entries_of_not_letsIn hlet⟩

theorem client_of_letsIn (hlet : room.roster.letsIn roomConfig msg = some (playerId, connId)) :
    (room.onMessage fromFloat source msg).Client playerId source := by
  obtain ⟨info, hinfo, -, hconnected⟩ := find_of_letsIn fromFloat source hlet
  exact ⟨info, hinfo, hconnected, lookup_entries_of_letsIn hlet⟩

theorem client_of_onMessage (h : (room.onMessage fromFloat source msg).Client playerId src) :
    (src = source ∧ room.roster.letsIn roomConfig msg ≠ none) ∨ room.Client playerId src := by
  obtain ⟨info, hfind, hconnected, hentry⟩ := h
  rcases find_onMessage hfind with ⟨hlet, hnew⟩ | ⟨⟨old, hold, -, hkeep⟩, hsame⟩
  · refine .inl ⟨?_, by simp [hlet]⟩
    exact Option.some.inj (hentry.symm.trans hnew)
  · exact .inr ⟨old, hold, hkeep hconnected, hsame ▸ hentry⟩

theorem client_of_tick {passes : ℕ} {won : Bool} {roster : Roster}
    (hstep : room.roster.tick roomConfig passes won = some roster)
    (h : Client { room with roster } playerId src) : room.Client playerId src := by
  obtain ⟨info, hfind, hconnected, hentry⟩ := h
  exact ⟨info, Roster.findPlayer_of_tick hstep hfind, hconnected, hentry⟩

theorem wf_new (n : ℕ) : Wf n { roster := .new roomConfig } := by
  refine ⟨fun entry hmem => ?_, fun playerId info hfind => ?_⟩
  · cases hmem
  · cases hfind

theorem Wf.mono (h : room.Wf n) {m : ℕ} (hle : n ≤ m) : room.Wf m :=
  ⟨fun entry hmem => (h.placed entry hmem).trans_le hle, h.current⟩

theorem Wf.onMessage (h : room.Wf n) (hplaced : source.gateway < n)
    (hconn : ∀ connId, msg.connId = some connId → connId = source.conn) :
    (room.onMessage fromFloat source msg).Wf n := by
  constructor
  · intro entry hmem
    unfold ServedRoom.onMessage at hmem
    split at hmem
    · rcases List.mem_cons.mp hmem with rfl | hold
      · exact hplaced
      · exact h.placed entry hold
    · exact h.placed entry hmem
  · intro playerId info hfind
    rcases find_onMessage hfind with ⟨hlet, hnew⟩ | ⟨⟨old, hold, hsame, -⟩, hentries⟩
    · exact ⟨source, hnew, (hconn _ (connId_of_letsIn hlet)).symm⟩
    · rw [hentries, ← hsame]
      exact h.current playerId old hold

theorem Wf.tick (h : room.Wf n) {passes : ℕ} {won : Bool} {roster : Roster}
    (hstep : room.roster.tick roomConfig passes won = some roster) :
    Wf n { room with roster } :=
  ⟨h.placed, fun playerId info hfind =>
    h.current playerId info (Roster.findPlayer_of_tick hstep hfind)⟩

end ServedRoom

namespace RealtimeServer

/-! ## Routed clients -/

/-- The message is of a known gateway, and names the connection it has come on. -/
structure EnvelopeWf (gateways : ℕ) (env : Envelope) : Prop where
  placed : env.source.gateway < gateways
  conn : ∀ connId, env.msg.connId = some connId → connId = env.source.conn

/-- Rooms and messages are of known gateways, and routes lead to connected ones. -/
structure Wf (s : RealtimeServer) : Prop where
  holds : Holds (ServedRoom.Wf s.gateways.length) (EnvelopeWf s.gateways.length) s
  keyed : s.clientRoutes.keys.Nodup
  live : ∀ connId gateway, s.clientRoutes.lookup connId = some gateway → s.isOpen gateway = true

/-- The route of every connected player of a room leads to the player's gateway. -/
def Routed (s : RealtimeServer) : Prop :=
  ∀ roomId room playerId source, s.rooms.lookup roomId = some room →
    room.Client playerId source → s.clientRoutes.lookup source.conn = s.route source

/-- A snapshot for the client of a connected player goes to the client's gateway with the
client's id, if that gateway is connected, and to no other gateway. -/
def Delivers (s : RealtimeServer) : Prop :=
  ∀ roomId room playerId info source snap audience,
    s.rooms.lookup roomId = some room → room.roster.room.findPlayer playerId = some info →
    info.isConnected = true → room.entries.lookup playerId = some source →
    info.connId ∈ room.roster.room.targetConns audience →
    (s.isOpen source.gateway = true → (source.gateway, snapshotPacket snap source.conn) ∈
      s.onRoomBroadcast snap (room.roster.room.targetConns audience)) ∧
    ∀ gateway pkt, (gateway, pkt) ∈ s.onRoomBroadcast snap (room.roster.room.targetConns audience) →
      addressee pkt = source.conn → gateway = source.gateway

/-- A packet does not come with the id of a player that has come in through another
gateway; and who is let in still has the route. -/
def KeepsRoutes (s : RealtimeServer) : ServerEvent → Prop
  | .packet gateway pkt => s.gateways[gateway]? = some .idle → 8 ≤ pkt.payload.length →
    readU64BE pkt.payload 0 ≠ 0 → ∀ roomId room playerId source, s.rooms.lookup roomId = some room →
    room.Client playerId source → source.conn = readU64BE pkt.payload 0 → source.gateway = gateway
  | .process thread => ∀ env room, (s.queues thread).head? = some env →
    s.rooms.lookup env.roomId = some room → room.roster.letsIn roomConfig env.msg ≠ none →
    s.clientRoutes.lookup env.source.conn = s.route env.source
  | _ => True

section Routed

variable {d : Decoders} {s s' : RealtimeServer} {e : ServerEvent}

theorem isOpen_of_idle {gateway : ℕ} (hidle : s.gateways[gateway]? = some .idle) :
    s.isOpen gateway = true := by
  unfold isOpen
  rw [hidle]
  rfl

theorem lt_of_isOpen {gateway : ℕ} (hopen : s.isOpen gateway = true) :
    gateway < s.gateways.length := by
  unfold isOpen at hopen
  by_contra hge
  rw [List.getElem?_eq_none (Nat.le_of_not_lt hge)] at hopen
  cases hopen

theorem Wf.live_next (h : s.Wf) (hstep : next d s e = some s') (connId : UInt64) (gateway : ℕ)
    (hroute : s'.clientRoutes.lookup connId = some gateway) : s'.isOpen gateway = true := by
  cases e with
  | connect =>
    cases hstep
    have hopen := h.live connId gateway hroute
    exact (isOpen_connect (lt_of_isOpen hopen)).trans hopen
  | packet g pkt =>
    simp only [next] at hstep
    split_ifs at hstep with hidle
    cases hstep
    have hsame : ∀ j, ((s.routePacket g pkt).setGateway g (.handling pkt)).isOpen j = s.isOpen j := by
      intro j
      have hset : (s.routePacket g pkt).gateways[g]? = some .idle := by
        rw [routePacket_gateways]
        exact hidle
      rw [isOpen_setGateway_same (g := .handling pkt) hset rfl]
      unfold isOpen
      rw [routePacket_gateways]
    rw [hsame]
    have hnew : (s.routePacket g pkt).clientRoutes.lookup connId = some gateway := hroute
    rw [lookup_routePacket] at hnew
    split_ifs at hnew
    · cases hnew
      exact isOpen_of_idle hidle
    · exact h.live connId gateway hnew
  | handle g =>
    simp only [next] at hstep
    split at hstep
    · next pkt hpkt =>
      cases hstep
      have hset : (s.handlePacket d g pkt).gateways[g]? = some (.handling pkt) := by
        rw [handlePacket_gateways]
        exact hpkt
      rw [isOpen_setGateway_same (g := .idle) hset rfl]
      have hold : (s.handlePacket d g pkt).clientRoutes.lookup connId = some gateway := hroute
      rw [handlePacket_clientRoutes] at hold
      unfold isOpen
      rw [handlePacket_gateways]
      exact h.live connId gateway hold
    · cases hstep
  | close g =>
    simp only [next] at hstep
    split_ifs at hstep with hidle
    cases hstep
    obtain ⟨hlt, -⟩ := List.getElem?_eq_some_iff.mp hidle
    obtain ⟨hold, hne⟩ := (Assoc.lookup_filter_eq_some h.keyed _).mp hroute
    show (s.setGateway g .closed).isOpen gateway = true
    rw [isOpen_setGateway hlt, if_neg (by simpa using hne)]
    exact h.live connId gateway hold
  | process thread =>
    simp only [next] at hstep
    split at hstep
    · cases hstep
    · cases hstep
      rw [deliver_clientRoutes] at hroute
      unfold isOpen
      rw [deliver_gateways]
      exact h.live connId gateway hroute
  | tick roomId passes won =>
    obtain ⟨room, -, hrest⟩ := Option.bind_eq_some_iff.mp hstep
    obtain ⟨roster, -, heq⟩ := Option.bind_eq_some_iff.mp hrest
    cases heq
    exact h.live connId gateway hroute

theorem Wf.keyed_next (h : s.Wf) (hstep : next d s e = some s') : s'.clientRoutes.keys.Nodup := by
  cases e with
  | connect =>
    cases hstep
    exact h.keyed
  | packet g pkt =>
    simp only [next] at hstep
    split_ifs at hstep
    cases hstep
    show (s.routePacket g pkt).clientRoutes.keys.Nodup
    unfold routePacket bindClientRoute
    split_ifs
    · exact h.keyed
    · exact Assoc.nodup_assign h.keyed _ _
    · exact h.keyed
  | handle g =>
    simp only [next] at hstep
    split at hstep
    · cases hstep
      show (s.handlePacket d g _).clientRoutes.keys.Nodup
      rw [handlePacket_clientRoutes]
      exact h.keyed
    · cases hstep
  | close g =>
    simp only [next] at hstep
    split_ifs at hstep
    cases hstep
    exact Assoc.nodup_filter h.keyed _
  | process thread =>
    simp only [next] at hstep
    split at hstep
    · cases hstep
    · cases hstep
      rw [deliver_clientRoutes]
      exact h.keyed
  | tick roomId passes won =>
    obtain ⟨room, -, hrest⟩ := Option.bind_eq_some_iff.mp hstep
    obtain ⟨roster, -, heq⟩ := Option.bind_eq_some_iff.mp hrest
    cases heq
    exact h.keyed

theorem Wf.next (h : s.Wf) (hstep : RealtimeServer.next d s e = some s') : s'.Wf := by
  refine ⟨?_, h.keyed_next hstep, h.live_next hstep⟩
  have hle := length_gateways_le hstep
  have hgrown : Holds (ServedRoom.Wf s'.gateways.length) (EnvelopeWf s'.gateways.length) s :=
    h.holds.mono (fun room hroom => hroom.mono hle)
      fun env henv => ⟨henv.placed.trans_le hle, henv.conn⟩
  refine hgrown.next (ServedRoom.wf_new _) ?_ ?_ ?_ hstep
  · exact fun room env hroom henv => hroom.onMessage henv.placed henv.conn
  · exact fun room passes won roster hroom htick => hroom.tick htick
  · intro gateway pkt roomId msg _ hpkt hread
    obtain ⟨hlt, -⟩ := List.getElem?_eq_some_iff.mp hpkt
    exact ⟨hlt.trans_le hle, fun connId hconn => connId_read hread hconn⟩

theorem start_gateways (battleMode : Bool) :
    (start battleMode).gateways = [] ∧ (start battleMode).clientRoutes = [] := by
  cases battleMode <;> exact ⟨rfl, rfl⟩

theorem wf_start (battleMode : Bool) : (start battleMode).Wf := by
  obtain ⟨hgateways, hroutes⟩ := start_gateways battleMode
  refine ⟨holds_start (ServedRoom.wf_new _) battleMode, ?_, fun connId gateway hlookup => ?_⟩
  · rw [hroutes]
    exact List.nodup_nil
  · rw [hroutes] at hlookup
    cases hlookup

/-- Nobody is in a new room. -/
theorem not_client_new (playerId : UInt64) (source : Source) :
    ¬ ServedRoom.Client { roster := .new roomConfig } playerId source := by
  rintro ⟨info, hfind, -⟩
  cases hfind

theorem routed_start (battleMode : Bool) : (start battleMode).Routed := by
  have hempty := holds_start (P := fun room => ∀ playerId source, ¬ room.Client playerId source)
    (Q := fun _ => True) not_client_new battleMode
  exact fun roomId room playerId source hroom hclient =>
    absurd hclient (hempty.rooms roomId room hroom playerId source)

/-- The gateway of a client of a room has connected before. -/
theorem Wf.lt_of_client (h : s.Wf) {roomId : UInt32} {room : ServedRoom} {playerId : UInt64}
    {source : Source} (hroom : s.rooms.lookup roomId = some room)
    (hclient : room.Client playerId source) : source.gateway < s.gateways.length := by
  obtain ⟨info, -, -, hentry⟩ := hclient
  exact (h.holds.rooms roomId room hroom).placed _ (Assoc.mem_of_lookup hentry)

theorem rooms_handlePacket {gateway : ℕ} {pkt : Packet} {roomId : UInt32} {room : ServedRoom}
    (hroom : (s.handlePacket d gateway pkt).rooms.lookup roomId = some room) :
    s.rooms.lookup roomId = some room ∨ room = { roster := .new roomConfig } := by
  have hcreate : ∀ id, (s.createRoom id).rooms.lookup roomId = some room →
      s.rooms.lookup roomId = some room ∨ room = { roster := .new roomConfig } := by
    intro id hid
    unfold createRoom at hid
    split at hid
    · exact .inl hid
    · simp only [Assoc.lookup_assign] at hid
      split_ifs at hid
      · cases hid
        exact .inr rfl
      · exact .inl hid
  unfold handlePacket at hroom
  split at hroom
  · exact .inl hroom
  · dsimp only at hroom
    split at hroom
    · exact hcreate _ hroom
    · exact .inl hroom

/-- A packet through a gateway: the routes of the other clients with its id are lost. -/
theorem routed_packet_iff (h : s.Routed) {g : ℕ} {pkt : Packet}
    (hidle : s.gateways[g]? = some .idle) :
    ((s.routePacket g pkt).setGateway g (.handling pkt)).Routed ↔
      s.KeepsRoutes (.packet g pkt) := by
  have hroute (source : Source) :
      ((s.routePacket g pkt).setGateway g (.handling pkt)).route source = s.route source := by
    have hset : (s.routePacket g pkt).gateways[g]? = some .idle := by
      rw [routePacket_gateways]
      exact hidle
    unfold route
    rw [isOpen_setGateway_same (g := .handling pkt) hset rfl]
    unfold isOpen
    rw [routePacket_gateways]
  have hrooms : ((s.routePacket g pkt).setGateway g (.handling pkt)).rooms = s.rooms :=
    routePacket_rooms
  unfold Routed
  simp only [hroute, hrooms]
  constructor
  · intro hrouted _ hlen hne roomId room playerId source hroom hclient hconn
    have hnew : (s.routePacket g pkt).clientRoutes.lookup source.conn = s.route source :=
      hrouted roomId room playerId source hroom hclient
    rw [lookup_routePacket, if_pos ⟨hlen, hconn, hconn ▸ hne⟩] at hnew
    unfold route at hnew
    split_ifs at hnew
    exact (Option.some.inj hnew).symm
  · intro hkeep roomId room playerId source hroom hclient
    show (s.routePacket g pkt).clientRoutes.lookup source.conn = s.route source
    rw [lookup_routePacket]
    split_ifs with hbind
    · obtain ⟨hlen, hconn, hne⟩ := hbind
      have hgateway := hkeep hidle hlen (hconn ▸ hne) roomId room playerId source hroom hclient hconn
      unfold route
      rw [hgateway, if_pos (isOpen_of_idle hidle)]
    · exact h roomId room playerId source hroom hclient

/-- A gateway that closes takes the routes to it along. -/
theorem Routed.onClientClose (h : s.Routed) (hwf : s.Wf) {g : ℕ} (hlt : g < s.gateways.length) :
    (s.onClientClose g).Routed := by
  intro roomId room playerId source hroom hclient
  have hold := h roomId room playerId source hroom hclient
  have hroute : (s.onClientClose g).route source =
      if source.gateway = g then none else s.route source := by
    show (if (s.setGateway g .closed).isOpen source.gateway then _ else _) = _
    rw [isOpen_setGateway hlt]
    by_cases hg : source.gateway = g
    · rw [if_pos hg, if_pos hg]
      rfl
    · rw [if_neg hg, if_neg hg]
      rfl
  rw [hroute]
  refine Option.ext fun gateway => ?_
  show List.lookup source.conn (s.clientRoutes.filter fun route => route.2 ≠ g) = some gateway ↔ _
  rw [Assoc.lookup_filter_eq_some hwf.keyed, hold]
  unfold route
  by_cases hg : source.gateway = g
  · rw [if_pos hg]
    split_ifs
    · simp only [Option.some.injEq, decide_eq_true_eq, iff_false, not_and, not_not]
      exact fun heq => heq ▸ hg
    · simp
  · rw [if_neg hg]
    split_ifs
    · simp only [Option.some.injEq, decide_eq_true_eq, and_iff_left_iff_imp]
      exact fun heq => heq ▸ hg
    · simp

/-- A message that lets somebody in: everyone else's route is as it was. -/
theorem routed_deliver_iff (h : s.Routed) (env : Envelope) :
    (s.deliver d env).Routed ↔ ∀ room, s.rooms.lookup env.roomId = some room →
      room.roster.letsIn roomConfig env.msg ≠ none →
      s.clientRoutes.lookup env.source.conn = s.route env.source := by
  have hroute (source : Source) : (s.deliver d env).route source = s.route source := by
    unfold route isOpen
    rw [deliver_gateways]
  unfold Routed
  simp only [hroute, deliver_clientRoutes]
  unfold deliver
  cases hroom : s.rooms.lookup env.roomId with
  | none => exact iff_of_true h fun room hnone => nomatch hnone
  | some room =>
    constructor
    · intro hrouted room' heq hlet
      cases heq
      obtain ⟨⟨playerId, connId⟩, hentry⟩ := Option.ne_none_iff_exists'.mp hlet
      have hclient : (room.onMessage d.fromFloat env.source env.msg).Client playerId env.source :=
        ServedRoom.client_of_letsIn hentry
      refine hrouted env.roomId _ playerId env.source ?_ hclient
      simp only [Assoc.lookup_assign, if_true]
    · intro hkeep roomId room' playerId source hroom' hclient
      simp only [Assoc.lookup_assign] at hroom'
      split_ifs at hroom' with hid
      · cases hroom'
        rcases ServedRoom.client_of_onMessage hclient with ⟨rfl, hlet⟩ | hold
        · exact hkeep room rfl hlet
        · exact h env.roomId room playerId source hroom hold
      · exact h roomId room' playerId source hroom' hclient

/-- One event keeps the routes in exactly the case named. -/
theorem routed_next_iff (hwf : s.Wf) (h : s.Routed) (hstep : RealtimeServer.next d s e = some s') :
    s'.Routed ↔ s.KeepsRoutes e := by
  cases e with
  | connect =>
    cases hstep
    refine iff_of_true (fun roomId room playerId source hroom hclient => ?_) trivial
    unfold route
    rw [isOpen_connect (hwf.lt_of_client hroom hclient)]
    exact h roomId room playerId source hroom hclient
  | packet g pkt =>
    simp only [RealtimeServer.next] at hstep
    split_ifs at hstep with hidle
    cases hstep
    exact routed_packet_iff h hidle
  | handle g =>
    simp only [RealtimeServer.next] at hstep
    split at hstep
    · next pkt hpkt =>
      cases hstep
      refine iff_of_true (fun roomId room playerId source hroom hclient => ?_) trivial
      have hset : (s.handlePacket d g pkt).gateways[g]? = some (.handling pkt) := by
        rw [handlePacket_gateways]
        exact hpkt
      unfold route
      rw [isOpen_setGateway_same (g := .idle) hset rfl]
      show (s.handlePacket d g pkt).clientRoutes.lookup source.conn = _
      unfold isOpen
      rw [handlePacket_clientRoutes, handlePacket_gateways]
      rcases rooms_handlePacket hroom with hold | rfl
      · exact h roomId room playerId source hold hclient
      · exact absurd hclient (not_client_new playerId source)
    · cases hstep
  | close g =>
    simp only [RealtimeServer.next] at hstep
    split_ifs at hstep with hidle
    cases hstep
    obtain ⟨hlt, -⟩ := List.getElem?_eq_some_iff.mp hidle
    exact iff_of_true (h.onClientClose hwf hlt) trivial
  | process thread =>
    simp only [RealtimeServer.next] at hstep
    split at hstep
    · cases hstep
    · next env rest hqueue =>
      cases hstep
      have hs : Routed { s with queues := Function.update s.queues thread rest } := h
      refine (routed_deliver_iff hs env).trans ⟨fun hkeep env' room henv => ?_, fun hkeep room => ?_⟩
      · rw [hqueue] at henv
        cases henv
        exact hkeep room
      · exact hkeep env room (by rw [hqueue]; rfl)
  | tick roomId passes won =>
    obtain ⟨room, hroom, hrest⟩ := Option.bind_eq_some_iff.mp hstep
    obtain ⟨roster, htick, heq⟩ := Option.bind_eq_some_iff.mp hrest
    cases heq
    refine iff_of_true (fun id room' playerId source hroom' hclient => ?_) trivial
    simp only [Assoc.lookup_assign] at hroom'
    split_ifs at hroom' with hid
    · cases hroom'
      exact h roomId room playerId source hroom (ServedRoom.client_of_tick htick hclient)
    · exact h id room' playerId source hroom' hclient

/-! ## Snapshots -/

/-- With every route in place the snapshots arrive. -/
theorem Routed.delivers (h : s.Routed) (hwf : s.Wf) : s.Delivers := by
  intro roomId room playerId info source snap audience hroom hfind hconnected hentry htarget
  have hroute := h roomId room playerId source hroom ⟨info, hfind, hconnected, hentry⟩
  obtain ⟨source', hentry', hconn⟩ :=
    (hwf.holds.rooms roomId room hroom).current playerId info hfind
  cases hentry.symm.trans hentry'
  unfold route at hroute
  constructor
  · intro hopen
    rw [if_pos hopen] at hroute
    exact mem_onRoomBroadcast.mpr ⟨source.conn, hconn ▸ htarget, hroute, rfl⟩
  · intro gateway pkt hsent haddressee
    obtain ⟨connId, -, hlookup, rfl⟩ := mem_onRoomBroadcast.mp hsent
    rw [addressee_snapshotPacket] at haddressee
    rw [haddressee, hroute] at hlookup
    split_ifs at hlookup
    exact (Option.some.inj hlookup).symm

/-- Conversely, a snapshot to all tells where the routes lead. -/
theorem Delivers.routed (h : s.Delivers) (hwf : s.Wf) : s.Routed := by
  rintro roomId room playerId source hroom ⟨info, hfind, hconnected, hentry⟩
  obtain ⟨source', hentry', hconn⟩ :=
    (hwf.holds.rooms roomId room hroom).current playerId info hfind
  cases hentry.symm.trans hentry'
  have htarget : info.connId ∈ room.roster.room.targetConns .all := by
    refine List.mem_map.mpr ⟨info, List.mem_filter.mpr ⟨?_, hconnected⟩, rfl⟩
    exact List.mem_of_find?_eq_some hfind
  obtain ⟨hsent, honly⟩ := h roomId room playerId info source
    { roomId, frameSeq := 0, timestampMs := 0 } .all hroom hfind hconnected hentry htarget
  unfold route
  split_ifs with hopen
  · obtain ⟨connId, -, hlookup, hpkt⟩ := mem_onRoomBroadcast.mp (hsent hopen)
    have hsame := congrArg addressee hpkt
    rw [addressee_snapshotPacket, addressee_snapshotPacket] at hsame
    rw [hsame]
    exact hlookup
  · -- a route would be one to a gateway that is connected
    cases hlookup : s.clientRoutes.lookup source.conn with
    | none => rfl
    | some gateway =>
      have hgateway := honly gateway _
        (mem_onRoomBroadcast.mpr ⟨source.conn, hconn ▸ htarget, hlookup, rfl⟩)
        (addressee_snapshotPacket _ _)
      exact absurd (hgateway ▸ hwf.live _ _ hlookup) hopen

/-- The snapshots of all rooms reach the right clients throughout a run if and only if
every event of the run keeps the routes. -/
theorem delivers_exact (d : Decoders) (battleMode : Bool) (events : List ServerEvent) :
    RunOk (RealtimeServer.next d) KeepsRoutes (start battleMode) events ↔
      ∀ before s, before <+: events → run (RealtimeServer.next d) (start battleMode) before = some s →
        s.Delivers := by
  refine runOk_iff_of_implies (I := fun s => s.Wf ∧ s.Routed) ?_ ?_ ?_ ?_
    ⟨wf_start battleMode, routed_start battleMode⟩
  · intro s e hnone
    cases e with
    | packet gateway pkt =>
      intro hidle
      simp [RealtimeServer.next, hidle] at hnone
    | process thread =>
      intro env room hhead
      cases hqueue : s.queues thread with
      | nil => simp [hqueue] at hhead
      | cons env' rest => simp [RealtimeServer.next, hqueue] at hnone
    | _ => trivial
  · exact fun s hs => hs.2.delivers hs.1
  · exact fun s e s' hs hkeep hstep => ⟨hs.1.next hstep, (routed_next_iff hs.1 hs.2 hstep).mpr hkeep⟩
  · intro s e s' hs hstep hdelivers
    exact (routed_next_iff hs.1 hs.2 hstep).mp (hdelivers.routed (hs.1.next hstep))

end Routed

/-! ## Two gateways with the same id -/

/-- The first clients of two gateways, both with the id 1, enter the first room. -/
def firstClients : List ServerEvent :=
  [.connect, .connect, .packet 0 (clientPacket cmdRealtimeEnter 1 1 1), .handle 0,
    .process (pickThread 1), .packet 1 (clientPacket cmdRealtimeEnter 1 1 2)]

/-- From then on the snapshots for the first one go to the second gateway. -/
theorem firstClients_not_delivers :
    ¬ ∀ (d : Decoders) (battleMode : Bool) (events : List ServerEvent) (s : RealtimeServer),
      run (next d) (start battleMode) events = some s → s.Delivers := by
  intro h
  have hdelivers := h noRequests true firstClients _ rfl
  obtain ⟨-, honly⟩ := hdelivers 1 _ 1 _ ⟨0, 1⟩ { roomId := 1, frameSeq := 0, timestampMs := 0 } .all
    rfl rfl rfl rfl (by decide)
  have hwrong := honly 1 _ (mem_onRoomBroadcast.mpr ⟨1, by decide, by decide, rfl⟩)
    (addressee_snapshotPacket _ _)
  cases hwrong

end RealtimeServer

end Gmaker.Realtime
