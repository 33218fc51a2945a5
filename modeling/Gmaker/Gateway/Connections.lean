import Gmaker.Gateway.Bind

/-!
# Gmaker.Gateway.Connections — one gateway over four transports

The TCP, WebSocket, KCP and UDP servers each number their own connections; the
gateway keeps what it knows of a connection under a key that it makes of that number.
The machine is generic in the keys `κ`. With `connId` it is the gateway of the
source, which goes by `ID()`; with `ownIndex` it is a gateway that goes by the
connection itself, to compare it with.

There is one label for each callback of a server, for each packet of an upstream and
for each critical section inside them, where other threads may come in between.
`on_connect` is a connection's first callback, and its callbacks come one after the
other.
-/

namespace Gmaker.Gateway

open Gmaker.Lib Gmaker.Net

/-! ## Connections -/

inductive Transport where
  | tcp
  | ws
  | kcp
  | udp
deriving DecidableEq

/-- Where a connection is. -/
inductive Stage where
  /-- numbered by its server; the gateway has not been told -/
  | accepted
  | serving
  /-- in `HandlePlayerBind`: the request is good, about to note it as pending -/
  | checked (playerId : UInt64) (seqId : UInt32) (payload : Bytes)
  /-- noted as pending, about to be forwarded -/
  | noted (seqId : UInt32) (payload : Bytes)
  /-- in the close callback: about to leave its room -/
  | closing
  /-- about to clean up the player's state -/
  | roomLeft
  /-- about to leave `clients_` -/
  | cleaned
  | closed
deriving DecidableEq

namespace Stage

/-- Handed to the gateway, and not closed yet. -/
def live : Stage → Bool
  | accepted | closed => false
  | _ => true

/-- The close callback has not begun. -/
def isOpen : Stage → Bool
  | serving | checked .. | noted .. => true
  | _ => false

/-- The close callback has not cleaned up the player's state. -/
def uncleaned : Stage → Bool
  | serving | checked .. | noted .. | closing | roomLeft => true
  | _ => false

theorem live_of_uncleaned {stage : Stage} (h : stage.uncleaned = true) : stage.live = true := by
  cases stage with
  | accepted => cases h
  | closed => cases h
  | _ => rfl

theorem uncleaned_of_isOpen {stage : Stage} (h : stage.isOpen = true) : stage.uncleaned = true := by
  cases stage with
  | serving => rfl
  | checked => rfl
  | noted => rfl
  | _ => cases h

theorem live_of_isOpen {stage : Stage} (h : stage.isOpen = true) : stage.live = true :=
  live_of_uncleaned (uncleaned_of_isOpen h)

end Stage

/-- A connection of one of the servers. -/
structure Conn (κ : Type) where
  transport : Transport
  id : κ
  stage : Stage := .accepted
deriving DecidableEq

/-! ## Rooms -/

section Rooms

variable {κ : Type} [DecidableEq κ]

/-- `room_members_` and `conn_room_`; a room without members has no entry. -/
structure Rooms (κ : Type) where
  members : UInt64 → Finset κ := fun _ => ∅
  connRoom : κ → Option UInt64 := fun _ => none

namespace Rooms

/-- `CMD_GW_ROOM_JOIN`. -/
def join (g : Rooms κ) (room : UInt64) (conn : κ) : Rooms κ where
  members := Function.update g.members room (insert conn (g.members room))
  connRoom := Function.update g.connRoom conn (some room)

/-- `CMD_GW_ROOM_LEAVE`: the connection leaves the room that is named, and is in no
room afterwards, whichever it was in. -/
def leave (g : Rooms κ) (room : UInt64) (conn : κ) : Rooms κ where
  members := Function.update g.members room ((g.members room).erase conn)
  connRoom := Function.update g.connRoom conn none

/-- The first part of the close callbacks. -/
def cleanup (g : Rooms κ) (conn : κ) : Rooms κ :=
  match g.connRoom conn with
  | none => g
  | some room => g.leave room conn

/-! The same rooms under other keys: `S` holds the connections that are told apart, `H`
those that upstreams have been told of. -/

variable {ν : Type} [DecidableEq ν] {f : κ → ν} {S H : Set κ} {a : Rooms κ} {b : Rooms ν} {k : κ}

omit [DecidableEq κ] [DecidableEq ν] in
/-- `b` is `a` under other keys, as far as the connections in `S` are concerned. -/
structure Renamed (f : κ → ν) (S H : Set κ) (a : Rooms κ) (b : Rooms ν) : Prop where
  room : ∀ k ∈ S, b.connRoom (f k) = a.connRoom k
  member : ∀ r, ∀ k ∈ S, f k ∈ b.members r ↔ k ∈ a.members r
  roomSource : ∀ k r, a.connRoom k = some r → k ∈ H
  roomTarget : ∀ y r, b.connRoom y = some r → ∃ k ∈ H, f k = y
  memberSource : ∀ k r, k ∈ a.members r → k ∈ H
  memberTarget : ∀ y r, y ∈ b.members r → ∃ k ∈ H, f k = y

namespace Renamed

theorem join (h : Renamed f S H a b) (halone : Alone f S k) (hk : k ∈ H) (r : UInt64) :
    Renamed f S H (a.join r k) (b.join r (f k)) := by
  have hname : ∀ j ∈ S, f j = f k ↔ j = k :=
    fun j hj => ⟨fun hname => halone j hj hname, fun hjk => by rw [hjk]⟩
  unfold Rooms.join
  constructor
  · intro j hj
    simp only [Function.update_apply, hname j hj]
    split_ifs
    · rfl
    · exact h.room j hj
  · intro q j hj
    simp only [Function.update_apply]
    split_ifs with hq
    · rw [Finset.mem_insert, Finset.mem_insert, hname j hj, h.member r j hj]
    · exact h.member q j hj
  · intro j q hq
    simp only [Function.update_apply] at hq
    split_ifs at hq with hjk
    · exact hjk ▸ hk
    · exact h.roomSource j q hq
  · intro y q hq
    simp only [Function.update_apply] at hq
    split_ifs at hq with hy
    · exact ⟨k, hk, hy.symm⟩
    · exact h.roomTarget y q hq
  · intro j q hj
    simp only [Function.update_apply] at hj
    split_ifs at hj with hq
    · rcases Finset.mem_insert.mp hj with rfl | hold
      · exact hk
      · exact h.memberSource j r hold
    · exact h.memberSource j q hj
  · intro y q hy
    simp only [Function.update_apply] at hy
    split_ifs at hy with hq
    · rcases Finset.mem_insert.mp hy with rfl | hold
      · exact ⟨k, hk, rfl⟩
      · exact h.memberTarget y r hold
    · exact h.memberTarget y q hy

theorem leave (h : Renamed f S H a b) (halone : Alone f S k) (r : UInt64) :
    Renamed f S H (a.leave r k) (b.leave r (f k)) := by
  have hname : ∀ j ∈ S, f j = f k ↔ j = k :=
    fun j hj => ⟨fun hname => halone j hj hname, fun hjk => by rw [hjk]⟩
  unfold Rooms.leave
  constructor
  · intro j hj
    simp only [Function.update_apply, hname j hj]
    split_ifs
    · rfl
    · exact h.room j hj
  · intro q j hj
    simp only [Function.update_apply]
    split_ifs with hq
    · rw [Finset.mem_erase, Finset.mem_erase, Ne, Ne, hname j hj, h.member r j hj]
    · exact h.member q j hj
  · intro j q hq
    simp only [Function.update_apply] at hq
    split_ifs at hq with hjk
    exact h.roomSource j q hq
  · intro y q hq
    simp only [Function.update_apply] at hq
    split_ifs at hq with hy
    exact h.roomTarget y q hq
  · intro j q hj
    simp only [Function.update_apply] at hj
    split_ifs at hj with hq
    · exact h.memberSource j r (Finset.mem_of_mem_erase hj)
    · exact h.memberSource j q hj
  · intro y q hy
    simp only [Function.update_apply] at hy
    split_ifs at hy with hq
    · exact h.memberTarget y r (Finset.mem_of_mem_erase hy)
    · exact h.memberTarget y q hy

theorem cleanup (h : Renamed f S H a b) (hk : k ∈ S) (halone : Alone f S k) :
    Renamed f S H (a.cleanup k) (b.cleanup (f k)) := by
  unfold Rooms.cleanup
  rw [h.room k hk]
  cases a.connRoom k with
  | none => exact h
  | some r => exact h.leave halone r

omit [DecidableEq κ] [DecidableEq ν] in
/-- Connections that no upstream has been told of yet come to be told apart; others
stop to be. Upstreams are told of more. -/
theorem change (h : Renamed f S H a b) {T I : Set κ}
    (hnew : ∀ k ∈ T, k ∉ S → ∀ j ∈ H, f j ≠ f k) (hsub : H ⊆ I) : Renamed f T I a b := by
  constructor
  · intro k hk
    by_cases hold : k ∈ S
    · exact h.room k hold
    · -- there is no entry for it in either table
      have ha : a.connRoom k = none := by
        by_contra hne
        obtain ⟨r, hr⟩ := Option.ne_none_iff_exists'.mp hne
        exact hnew k hk hold k (h.roomSource k r hr) rfl
      rw [ha]
      by_contra hne
      obtain ⟨r, hr⟩ := Option.ne_none_iff_exists'.mp hne
      obtain ⟨j, hj, hname⟩ := h.roomTarget _ r hr
      exact hnew k hk hold j hj hname
  · intro r k hk
    by_cases hold : k ∈ S
    · exact h.member r k hold
    · constructor
      · intro hmem
        obtain ⟨j, hj, hname⟩ := h.memberTarget _ r hmem
        exact absurd hname (hnew k hk hold j hj)
      · intro hmem
        exact absurd rfl (hnew k hk hold k (h.memberSource k r hmem))
  · intro k r hr
    exact hsub (h.roomSource k r hr)
  · intro y r hr
    obtain ⟨k, hk, hname⟩ := h.roomTarget y r hr
    exact ⟨k, hsub hk, hname⟩
  · intro k r hmem
    exact hsub (h.memberSource k r hmem)
  · intro y r hmem
    obtain ⟨k, hk, hname⟩ := h.memberTarget y r hmem
    exact ⟨k, hsub hk, hname⟩

omit [DecidableEq κ] [DecidableEq ν] in
theorem congr (h : Renamed f S H a b) {g : κ → ν} (hS : ∀ k ∈ S, g k = f k)
    (hH : ∀ k ∈ H, g k = f k) : Renamed g S H a b := by
  constructor
  · intro k hk
    rw [hS k hk]
    exact h.room k hk
  · intro r k hk
    rw [hS k hk]
    exact h.member r k hk
  · exact h.roomSource
  · intro y r hr
    obtain ⟨k, hk, hname⟩ := h.roomTarget y r hr
    exact ⟨k, hk, (hH k hk).trans hname⟩
  · exact h.memberSource
  · intro y r hmem
    obtain ⟨k, hk, hname⟩ := h.memberTarget y r hmem
    exact ⟨k, hk, (hH k hk).trans hname⟩

end Renamed

end Rooms

end Rooms

/-! ## What goes out -/

/-- A packet to a client. -/
inductive Message where
  | handshake
  | error (seqId : UInt32) (code : UInt32) (msg : String)
  | kick (reason : String)
  /-- an answer to the forwarded request `j` -/
  | response (j : ℕ) (payload : Bytes)
  | roomBroadcast (room : UInt64) (payload : Bytes)
deriving DecidableEq

/-- An empty payload is sent without encryption. -/
def Message.empty : Message → Bool
  | .response _ payload | .roomBroadcast _ payload => payload.isEmpty
  | _ => false

/-- What is done to a connection, given by its index. -/
inductive Output where
  /-- encrypted with the key; an empty key stands for a plain packet -/
  | packet (dest : ℕ) (msg : Message) (key : Bytes)
  /-- `Close` or `CloseAfterWrite` -/
  | close (dest : ℕ)
deriving DecidableEq

/-! ## The gateway -/

/-- A request that was forwarded to an upstream, with the key that goes before its
payload. -/
structure Request (κ : Type) where
  /-- log: the connection it came from -/
  conn : ℕ
  id : κ
  cmdId : UInt32
  seqId : UInt32
  payload : Bytes
deriving DecidableEq

/-- What `OnUpstreamPacket` still has to do for an approved bind. -/
inductive Job (κ : Type) where
  /-- `BindPlayer` -/
  | bind (playerId : UInt64) (id : κ)
  /-- `KickConnection` -/
  | kick (id : κ)
  | done
deriving DecidableEq

/-- The servers' counters and connections, and the gateway's tables. `udp_clients_` is
left out: nothing is ever put into it. -/
structure State (κ : Type) where
  counters : Transport → UInt64 := fun _ => 0
  conns : List (Conn κ) := []
  /-- `clients_`, and the connections by their index -/
  clients : κ → Option ℕ := fun _ => none
  wsClients : κ → Option ℕ := fun _ => none
  kcpClients : κ → Option ℕ := fun _ => none
  sessions : κ → Option Bytes := fun _ => none
  rooms : Rooms κ := {}
  players : Players κ := {}
  requests : List (Request κ) := []
  jobs : List (Job κ) := []
  /-- log; the packets of one broadcast go out in no given order -/
  outbox : List (Finset Output) := []

/-- How the forwarding of a request ends. -/
inductive Forward where
  /-- `RouteToPool` finds no pool -/
  | unrouted
  /-- `SendPacket` fails -/
  | failed
  | sent
deriving DecidableEq

/-- What can happen. Upstreams name a connection by the key that came with one of its
requests, given by its index `j`. -/
inductive GatewayEvent where
  | accept (transport : Transport)
  /-- `on_connect` -/
  | connect (i : ℕ)
  /-- a handshake that succeeds with this key -/
  | handshake (i : ℕ) (key : Bytes)
  /-- a packet, decrypted -/
  | packet (i : ℕ) (cmdId : UInt32) (seqId : UInt32) (payload : Bytes) (forward : Forward)
  | bindStore (i : ℕ) (now : ℤ)
  | bindSend (i : ℕ) (forward : Forward)
  | close (i : ℕ)
  | closeRoom (i : ℕ)
  | closePlayer (i : ℕ)
  | closeClient (i : ℕ)
  /-- a UDP session runs out -/
  | expire (i : ℕ)
  | roomJoin (j : ℕ) (room : UInt64)
  | roomLeave (j : ℕ) (room : UInt64)
  /-- a `CMD_GW_PLAYER_BIND` packet with the request's number -/
  | bindRes (j : ℕ) (answer : Bytes)
  /-- one that is too short to name a connection -/
  | bindResShort (seqId : UInt32)
  | bindPlayer (k : ℕ)
  | kick (k : ℕ)
  /-- the unicast of an answer; also what follows a bind that was matched -/
  | respond (j : ℕ) (payload : Bytes)
  | roomBroadcast (room : UInt64) (payload : Bytes)
  | heartbeat (now : ℤ)
deriving DecidableEq

/-- `protocol::CMD_SYS_HANDSHAKE`. -/
def cmdSysHandshake : UInt32 := 0x2

/-- `protocol::CMD_GW_PLAYER_BIND`. -/
def cmdGwPlayerBind : UInt32 := 0x1020

/-- `gs::errors::AUTH_FAILED`. -/
def authFailed : UInt32 := 100

namespace State

variable {κ : Type} [DecidableEq κ]

/-- Change a connection. -/
def setStage (g : State κ) (i : ℕ) (c : Conn κ) (stage : Stage) : State κ :=
  { g with conns := g.conns.set i { c with stage } }

/-- Add to the log. -/
def emit (g : State κ) (out : Finset Output) : State κ := { g with outbox := g.outbox ++ [out] }

/-- The connection that a packet for the key is written to. -/
def target (g : State κ) (id : κ) : Option ℕ :=
  (g.clients id).map fun conn => ((g.wsClients id).or (g.kcpClients id)).getD conn

/-- The key to encrypt a packet with, if there is one. -/
def keyFor (g : State κ) (id : κ) (msg : Message) : Bytes :=
  if msg.empty then [] else (g.sessions id).getD []

/-- `SendToClientDirect`, `SendErrorAndClose` and `KickConnection`: send, and close
after the write. -/
def sendAndClose (g : State κ) (id : κ) (msg : Message) : Finset Output :=
  match g.clients id, g.target id with
  | some conn, some dest => {.packet dest msg (g.keyFor id msg), .close conn}
  | _, _ => ∅

/-- `build_response_for` and `enqueue_to_client`: without a session key only an empty
packet is sent. -/
def deliver (g : State κ) (id : κ) (msg : Message) : Finset Output :=
  if msg.empty ∨ g.keyFor id msg ≠ [] then
    match g.target id with
    | some dest => {.packet dest msg (g.keyFor id msg)}
    | none => ∅
  else ∅

/-- A request goes to an upstream, after the connection's key. -/
def forward (g : State κ) (i : ℕ) (id : κ) (cmdId seqId : UInt32) (payload : Bytes) : State κ :=
  { g with requests := g.requests ++ [{ conn := i, id, cmdId, seqId, payload }] }

/-- `OnClientConnect`, `OnWebSocketConnect` and `OnKCPConnect`. -/
def onConnect (g : State κ) (i : ℕ) (c : Conn κ) : State κ :=
  let g := { g.setStage i c .serving with clients := Function.update g.clients c.id (some i) }
  match c.transport with
  | .ws => { g with wsClients := Function.update g.wsClients c.id (some i) }
  | .kcp => { g with kcpClients := Function.update g.kcpClients c.id (some i) }
  | _ => g

variable (codec : BindCodec)

/-- `HandlePlayerBind`, up to the pending bind. -/
def handlePlayerBind (g : State κ) (i : ℕ) (c : Conn κ) (seqId : UInt32) (payload : Bytes) :
    State κ :=
  if g.players.isPlayerBound c.id then
    g.emit (g.sendAndClose c.id (.error seqId invalidParam "already bound"))
  else
    match codec.parseReq payload with
    | none => g.emit (g.sendAndClose c.id (.error seqId invalidParam "invalid bind request"))
    | some req =>
      if req.playerId = 0 ∨ req.token = [] then
        g.emit (g.sendAndClose c.id (.error seqId invalidParam "invalid bind request"))
      else g.setStage i c (.checked req.playerId seqId payload)

/-- `OnClientPacket`. -/
def onClientPacket (g : State κ) (i : ℕ) (c : Conn κ) (cmdId seqId : UInt32) (payload : Bytes)
    (forward : Forward) : State κ :=
  if cmdId = cmdGwPlayerBind then g.handlePlayerBind codec i c seqId payload
  else if 0xFF < cmdId ∧ ¬ g.players.isPlayerBound c.id then
    g.emit (g.sendAndClose c.id (.error seqId authFailed "player not bound"))
  else if forward = .sent then g.forward i c.id cmdId seqId payload
  else g

/-- A WebSocket that is not in `ws_clients_` any more: its packets close it. -/
def lost (g : State κ) (c : Conn κ) : Bool := c.transport = .ws && (g.wsClients c.id).isNone

/-- `HandleHandshake`, when it succeeds. -/
def onHandshake (g : State κ) (i : ℕ) (c : Conn κ) (key : Bytes) : State κ :=
  if g.lost c then g.emit {.close i}
  else
    { g.emit {.packet i .handshake []} with
      sessions := Function.update g.sessions c.id (some key) }

/-- A packet of a client: `EncryptionMiddleware` and `OnClientPacket`, or `OnUDPPacket`.
A handshake that fails, or no handshake before, closes the connection. -/
def onPacket (g : State κ) (i : ℕ) (c : Conn κ) (cmdId seqId : UInt32) (payload : Bytes)
    (forward : Forward) : State κ :=
  match c.transport with
  | .udp => if forward = .sent then g.forward i c.id cmdId seqId payload else g
  | _ =>
    if g.lost c ∨ cmdId = cmdSysHandshake ∨ (g.sessions c.id).getD [] = [] then g.emit {.close i}
    else g.onClientPacket codec i c cmdId seqId payload forward

/-- The end of `HandlePlayerBind`. -/
def bindSend (g : State κ) (i : ℕ) (c : Conn κ) (seqId : UInt32) (payload : Bytes) :
    Forward → State κ
  | .unrouted =>
    let g := { g with players := (g.players.takePending c.id seqId).1 }
    g.emit (g.sendAndClose c.id (.error seqId serviceUnavailable "bind service unavailable"))
  | .failed => { g with players := g.players.erasePending c.id }
  | .sent => g.forward i c.id cmdGwPlayerBind seqId payload

/-- The close callbacks, up to the room; a KCP connection or WebSocket that is not in
its own table any more is not cleaned up. -/
def onClose (g : State κ) (i : ℕ) (c : Conn κ) : Option (State κ) :=
  match c.transport with
  | .tcp => some (g.setStage i c .closing)
  | .ws =>
    if (g.wsClients c.id).isNone then some (g.setStage i c .closed)
    else some { g.setStage i c .closing with
      wsClients := Function.update g.wsClients c.id none }
  | .kcp =>
    if (g.kcpClients c.id).isNone then some (g.setStage i c .closed)
    else some { g.setStage i c .closing with
      kcpClients := Function.update g.kcpClients c.id none }
  | .udp => none

/-- `OnUpstreamPacket` on a `CMD_GW_PLAYER_BIND` packet. -/
def onBindRes (g : State κ) (j : ℕ) (r : Request κ) (answer : Bytes) : State κ :=
  match codec.parseRes answer with
  | none => { g with players := (g.players.takePending r.id r.seqId).1 }
  | some res =>
    match g.players.takePending r.id r.seqId with
    | (_, none) => g
    | (players, some playerId) =>
      let g := { g with players }
      if res.code = 0 ∧ 0 < playerId then { g with jobs := g.jobs ++ [.bind playerId r.id] }
      else if res.code ≠ 0 then g.emit (g.sendAndClose r.id (.response j answer))
      else g

/-- `BindPlayer`, and whom to kick. No connection has the ID 0, which stands for none
there, before its server's counter wraps around. -/
def bindPlayer (g : State κ) (k : ℕ) (playerId : UInt64) (id : κ) : State κ :=
  let (players, oldConn) := g.players.bindPlayer playerId id
  { g with players, jobs := g.jobs.set k ((oldConn.map Job.kick).getD .done) }

/-- A step of connection `i`, if it is at a stage that `f` takes. -/
def connStep (g : State κ) (i : ℕ) (f : Conn κ → Option (State κ)) : Option (State κ) :=
  g.conns[i]?.bind f

variable (newId : Transport → UInt64 → ℕ → κ)

/-- One step. A new connection's key is made of its server's number; `newId` may also
look at its index. -/
def next (g : State κ) : GatewayEvent → Option (State κ)
  | .accept transport =>
    let n := g.counters transport + 1
    some { g with
      counters := Function.update g.counters transport n
      conns := g.conns ++ [{ transport, id := newId transport n g.conns.length }] }
  | .connect i =>
    g.connStep i fun c =>
      if c.stage = .accepted ∧ c.transport ≠ .udp then some (g.onConnect i c) else none
  | .handshake i key =>
    g.connStep i fun c =>
      if c.stage = .serving ∧ c.transport ≠ .udp then
        some (g.onHandshake i c key)
      else none
  | .packet i cmdId seqId payload forward =>
    g.connStep i fun c =>
      if c.stage = .serving then some (g.onPacket codec i c cmdId seqId payload forward)
      else if c.stage = .accepted ∧ c.transport = .udp then
        some ((g.setStage i c .serving).onPacket codec i c cmdId seqId payload forward)
      else none
  | .bindStore i now =>
    g.connStep i fun c =>
      match c.stage with
      | .checked playerId seqId payload =>
        some { g.setStage i c (.noted seqId payload) with
          players := g.players.setPending c.id { playerId, seqId, createdAt := now } }
      | _ => none
  | .bindSend i forward =>
    g.connStep i fun c =>
      match c.stage with
      | .noted seqId payload => some ((g.setStage i c .serving).bindSend i c seqId payload forward)
      | _ => none
  | .close i => g.connStep i fun c => if c.stage = .serving then g.onClose i c else none
  | .closeRoom i =>
    g.connStep i fun c =>
      if c.stage = .closing then
        some { g.setStage i c .roomLeft with rooms := g.rooms.cleanup c.id }
      else none
  | .closePlayer i =>
    g.connStep i fun c =>
      if c.stage = .roomLeft then
        some { g.setStage i c .cleaned with players := g.players.cleanupPlayerState c.id }
      else none
  | .closeClient i =>
    g.connStep i fun c =>
      if c.stage = .cleaned then
        some { g.setStage i c .closed with
          clients := Function.update g.clients c.id none
          sessions := Function.update g.sessions c.id none }
      else none
  | .expire i =>
    g.connStep i fun c =>
      if c.transport = .udp ∧ c.stage ∈ [.accepted, .serving] then some (g.setStage i c .closed)
      else none
  | .roomJoin j room => g.requests[j]?.map fun r => { g with rooms := g.rooms.join room r.id }
  | .roomLeave j room => g.requests[j]?.map fun r => { g with rooms := g.rooms.leave room r.id }
  | .bindRes j answer => g.requests[j]?.map fun r => g.onBindRes codec j r answer
  | .bindResShort seqId => some { g with players := g.players.erasePendingSeq seqId }
  | .bindPlayer k => do
    match ← g.jobs[k]? with
    | .bind playerId id => some (g.bindPlayer k playerId id)
    | _ => none
  | .kick k => do
    match ← g.jobs[k]? with
    | .kick id =>
      some ({ g with jobs := g.jobs.set k .done }.emit
        (g.sendAndClose id (.kick "account login elsewhere")))
    | _ => none
  | .respond j payload =>
    g.requests[j]?.map fun r => g.emit (g.deliver r.id (.response j payload))
  | .roomBroadcast room payload =>
    some (g.emit ((g.rooms.members room).biUnion fun id =>
      g.deliver id (.roomBroadcast room payload)))
  | .heartbeat now => some { g with players := g.players.expirePending now }

/-- `ID()`: the servers count from 1, each for itself; the adapter of a WebSocket sets
the highest bit. -/
def connId (transport : Transport) (n : UInt64) (_ : ℕ) : UInt64 :=
  if transport = .ws then n ||| 0x8000000000000000 else n

/-- The connection itself. -/
def ownIndex (_ : Transport) (_ : UInt64) (i : ℕ) : ℕ := i

end State

end Gmaker.Gateway
