import Gmaker.Chat.Room
import Gmaker.Lib.Assoc
import Gmaker.Lib.Machine

/-!
# Gmaker.Chat.Service — the chat service

The requests of the chat service, each with its two branches: on Redis, whose keys hold the
records of the rooms, their last messages and who is where, and on the maps in memory that stand
in for it. The tables behind the database proxy, the ids and the time are what the environment
answers to a request.
-/

namespace Gmaker.Chat

open Gmaker.Lib

/-! ## Redis -/

/-- The keys that the service uses, by type. -/
structure RedisStore where
  strings : String → Option String
  lists : String → List String
  sets : String → Finset String

namespace RedisStore

def empty : RedisStore := ⟨fun _ => none, fun _ => [], fun _ => ∅⟩

/-- `SET`. -/
def set (r : RedisStore) (key value : String) : RedisStore :=
  { r with strings := Function.update r.strings key (some value) }

theorem strings_set (r : RedisStore) (key value k : String) :
    (r.set key value).strings k = if k = key then some value else r.strings k :=
  Function.update_apply _ _ _ _

/-- `LPUSH` and `LTRIM 0 stop`. -/
def pushTrim (r : RedisStore) (key value : String) (stop : ℕ) : RedisStore :=
  { r with lists := Function.update r.lists key ((value :: r.lists key).take (stop + 1)) }

/-- `LRANGE 0 stop`. -/
def range (r : RedisStore) (key : String) (stop : ℕ) : List String := (r.lists key).take (stop + 1)

/-- `SADD`. -/
def sadd (r : RedisStore) (key member : String) : RedisStore :=
  { r with sets := Function.update r.sets key (insert member (r.sets key)) }

/-- `SREM`. -/
def srem (r : RedisStore) (key member : String) : RedisStore :=
  { r with sets := Function.update r.sets key ((r.sets key).erase member) }

/-- `DEL` of a set. -/
def delSet (r : RedisStore) (key : String) : RedisStore :=
  { r with sets := Function.update r.sets key ∅ }

end RedisStore

/-- `%d`. -/
def decimal (n : UInt64) : String := n.toNat.repr

def roomInfoKey (roomID : UInt64) : String := "chat:room:" ++ decimal roomID ++ ":info"

def roomMsgsKey (roomID : UInt64) : String := "chat:room:" ++ decimal roomID ++ ":msgs"

def roomMembersKey (roomID : UInt64) : String := "chat:room:" ++ decimal roomID ++ ":members"

def playerRoomsKey (playerID : UInt64) : String := "player:" ++ decimal playerID ++ ":rooms"

namespace RedisStore

/-- A player is filed under the room, and the room under the player. -/
def addMember (r : RedisStore) (roomId playerId : UInt64) : RedisStore :=
  (r.sadd (roomMembersKey roomId) (decimal playerId)).sadd (playerRoomsKey playerId)
    (decimal roomId)

def removeMember (r : RedisStore) (roomId playerId : UInt64) : RedisStore :=
  (r.srem (roomMembersKey roomId) (decimal playerId)).srem (playerRoomsKey playerId)
    (decimal roomId)

/-- A room is stored as closed, and its members are deleted. -/
def closeRoom (r : RedisStore) (room : ChatRoomInfo) (roomId now : UInt64) : RedisStore :=
  let closed : StoredRoom := ⟨roomId, room.name, room.creatorId, room.createdAt, some now⟩
  (r.set (roomInfoKey roomId) closed.text).delSet (roomMembersKey roomId)

end RedisStore

/-! ## Requests and responses -/

/-- What an `Exec` of the database proxy comes to. -/
inductive ExecAnswer where
  | failed
  | refused
  | done
deriving DecidableEq

/-- What the environment answers while a request is served. -/
structure Env where
  /-- `time.Now().Unix()`. -/
  now : UInt64
  /-- What `IDGen.NextID` returns; nothing is an error. -/
  id : Option UInt64
  /-- The row of the room in the table, if the query finds one. -/
  row : Option ChatRoomInfo
  exec : ExecAnswer
deriving DecidableEq

inductive Request where
  | createRoom (name : String) (creatorId : UInt64)
  | joinRoom (roomId playerId : UInt64)
  | leaveRoom (roomId playerId : UInt64)
  | sendMsg (roomId senderId : UInt64) (content senderName : String)
  | getHistory (roomId : UInt64) (limit : UInt32)
  | closeRoom (roomId operatorId : UInt64)
deriving DecidableEq

/-- `commonpb.Result`. -/
structure Result where
  ok : Bool
  code : UInt32
  msg : String
deriving DecidableEq

def Result.success : Result := ⟨true, 0, ""⟩

/-- What is sent: responses, the notification of a message, and control messages for the gateway. -/
inductive Output where
  | createRoomRes (result : Result) (room : Option ChatRoomInfo)
  | joinRoomRes (result : Result) (room : Option ChatRoomInfo) (recentMsgs : List ChatMessage)
  | leaveRoomRes (result : Result)
  | sendMsgRes (result : Result) (msg : Option ChatMessage)
  | msgNotify (msg : ChatMessage)
  | getHistoryRes (result : Result) (msgs : List ChatMessage)
  | closeRoomRes (result : Result)
  | roomJoin (roomId : UInt64)
  | roomLeave (roomId : UInt64)
deriving DecidableEq

/-! ## The service -/

structure ChatService where
  /-- `DB != nil`. -/
  hasDB : Bool
  redis : Option RedisStore
  memRooms : Assoc UInt64 ChatRoomInfo
  memMsgs : UInt64 → List ChatMessage

namespace ChatService

/-- `NewChatService`. -/
def new (hasDB : Bool) (redis : Option RedisStore) : ChatService := ⟨hasDB, redis, [], fun _ => []⟩

variable (conv : FloatConv)

/-- What `GetRoom` finds in Redis. -/
def redisRoom (s : ChatService) (roomID : UInt64) : Option ChatRoomInfo :=
  s.redis.bind fun r => (r.strings (roomInfoKey roomID)).bind fun data =>
    if data = "" then none else readInfo conv roomID data

/-- `GetRoom`. -/
def getRoom (s : ChatService) (env : Env) (roomID : UInt64) : Option ChatRoomInfo :=
  match s.redisRoom conv roomID with
  | some room => some room
  | none => if s.hasDB then env.row else s.memRooms.lookup roomID

/-- What is stored for a room, in Redis or in memory. -/
def storeRoom (s : ChatService) (room : StoredRoom) : ChatService :=
  match s.redis with
  | some r => { s with redis := some (r.set (roomInfoKey room.roomId) room.text) }
  | none => { s with memRooms := s.memRooms.assign room.roomId room.info }

/-- `HandleCreateRoom`. -/
def handleCreateRoom (s : ChatService) (env : Env) (name : String) (creatorId : UInt64) :
    ChatService × List Output :=
  match env.id with
  | none => (s, [.createRoomRes ⟨false, 500, "internal error"⟩ none])
  | some roomID =>
    let room : StoredRoom := ⟨roomID, name, creatorId, env.now, none⟩
    if s.hasDB ∧ env.exec = .failed then (s, [.createRoomRes ⟨false, 500, "db error"⟩ none])
    else if s.hasDB ∧ env.exec = .refused then
      (s, [.createRoomRes ⟨false, 500, "db exec failed"⟩ none])
    else (s.storeRoom room, [.createRoomRes .success (some room.info)])

/-- The messages of a room, from the latest on, as they are read from Redis. -/
def redisMsgs (r : RedisStore) (roomId : UInt64) (count : ℕ) : List ChatMessage :=
  ((r.range (roomMsgsKey roomId) (count - 1)).filterMap readMessage).reverse

/-- The last messages of a room in memory. -/
def memLast (s : ChatService) (roomId : UInt64) (count : ℕ) : List ChatMessage :=
  let list := s.memMsgs roomId
  list.drop (if count < list.length then list.length - count else 0)

/-- The last messages, the oldest first. -/
def lastMsgs (s : ChatService) (roomId : UInt64) (count : ℕ) : List ChatMessage :=
  match s.redis with
  | some r => redisMsgs r roomId count
  | none => s.memLast roomId count

/-- `HandleJoinRoom`; who is where is only kept in Redis. -/
def handleJoinRoom (s : ChatService) (env : Env) (roomId playerId : UInt64) :
    ChatService × List Output :=
  match s.getRoom conv env roomId with
  | none => (s, [.joinRoomRes ⟨false, 404, "room not found"⟩ none []])
  | some room =>
    if room.status ≠ 0 then (s, [.joinRoomRes ⟨false, 403, "room closed"⟩ none []])
    else
      ({ s with redis := s.redis.map (·.addMember roomId playerId) },
        [.roomJoin roomId, .joinRoomRes .success (some room) (s.lastMsgs roomId 50)])

/-- `HandleLeaveRoom`. -/
def handleLeaveRoom (s : ChatService) (roomId playerId : UInt64) : ChatService × List Output :=
  ({ s with redis := s.redis.map (·.removeMember roomId playerId) },
    [.roomLeave roomId, .leaveRoomRes .success])

/-- The message that is made of a request. -/
def newMessage (env : Env) (roomId senderId : UInt64) (content senderName : String) :
    ChatMessage where
  -- an error of the generator is not looked at
  msgId := env.id.getD 0
  roomId := roomId
  senderId := senderId
  senderName := if senderName = "" then "Player" ++ decimal senderId else senderName
  content := content
  sentAt := env.now

/-- `HandleSendMsg`; a message is stored in Redis, a hundred of them, and nowhere else. -/
def handleSendMsg (s : ChatService) (env : Env) (roomId senderId : UInt64)
    (content senderName : String) : ChatService × List Output :=
  match s.getRoom conv env roomId with
  | none => (s, [.sendMsgRes ⟨false, 403, "room not available"⟩ none])
  | some room =>
    if room.status ≠ 0 then (s, [.sendMsgRes ⟨false, 403, "room not available"⟩ none])
    else
      let msg := newMessage env roomId senderId content senderName
      ({ s with redis := s.redis.map fun r => r.pushTrim (roomMsgsKey roomId) msg.text 99 },
        [.sendMsgRes .success (some msg), .msgNotify msg])

/-- `HandleGetHistory`. -/
def handleGetHistory (s : ChatService) (roomId : UInt64) (limit : UInt32) :
    ChatService × List Output :=
  let limit := if limit = 0 ∨ 100 < limit then 50 else limit
  (s, [.getHistoryRes .success (s.lastMsgs roomId limit.toNat)])

/-- What `HandleCloseRoom` does to a room that it was allowed to close. -/
def closeStored (s : ChatService) (room : ChatRoomInfo) (roomId now : UInt64) : ChatService :=
  { s with
    redis := s.redis.map (·.closeRoom room roomId now)
    memRooms :=
      match s.memRooms.lookup roomId with
      | some r => s.memRooms.assign roomId { r with status := 1, closedAt := now }
      | none => s.memRooms }

/-- `HandleCloseRoom`. -/
def handleCloseRoom (s : ChatService) (env : Env) (roomId operatorId : UInt64) :
    ChatService × List Output :=
  match s.getRoom conv env roomId with
  | none => (s, [.closeRoomRes ⟨false, 404, "room not found"⟩])
  | some room =>
    if room.creatorId ≠ operatorId then (s, [.closeRoomRes ⟨false, 403, "not creator"⟩])
    else if s.hasDB ∧ env.exec = .failed then (s, [.closeRoomRes ⟨false, 500, "db error"⟩])
    else if s.hasDB ∧ env.exec = .refused then (s, [.closeRoomRes ⟨false, 500, "db exec failed"⟩])
    else (s.closeStored room roomId env.now, [.roomLeave roomId, .closeRoomRes .success])

/-- A request. -/
def handle (s : ChatService) (env : Env) : Request → ChatService × List Output
  | .createRoom name creatorId => s.handleCreateRoom env name creatorId
  | .joinRoom roomId playerId => s.handleJoinRoom conv env roomId playerId
  | .leaveRoom roomId playerId => s.handleLeaveRoom roomId playerId
  | .sendMsg roomId senderId content senderName =>
    s.handleSendMsg conv env roomId senderId content senderName
  | .getHistory roomId limit => s.handleGetHistory roomId limit
  | .closeRoom roomId operatorId => s.handleCloseRoom conv env roomId operatorId

/-! ## What the handlers answer -/

variable {conv} {s : ChatService} {env : Env} {roomId : UInt64} {room : ChatRoomInfo}

theorem handleJoinRoom_of_none (h : s.getRoom conv env roomId = none) (playerId : UInt64) :
    s.handleJoinRoom conv env roomId playerId =
      (s, [.joinRoomRes ⟨false, 404, "room not found"⟩ none []]) := by
  unfold handleJoinRoom
  rw [h]

theorem handleJoinRoom_of_closed (h : s.getRoom conv env roomId = some room)
    (hstatus : room.status ≠ 0) (playerId : UInt64) :
    s.handleJoinRoom conv env roomId playerId =
      (s, [.joinRoomRes ⟨false, 403, "room closed"⟩ none []]) := by
  unfold handleJoinRoom
  rw [h]
  exact if_pos hstatus

theorem handleJoinRoom_of_open (h : s.getRoom conv env roomId = some room)
    (hstatus : room.status = 0) (playerId : UInt64) :
    s.handleJoinRoom conv env roomId playerId =
      ({ s with redis := s.redis.map (·.addMember roomId playerId) },
        [.roomJoin roomId, .joinRoomRes .success (some room) (s.lastMsgs roomId 50)]) := by
  unfold handleJoinRoom
  rw [h]
  exact if_neg (not_not.mpr hstatus)

/-- A message is not sent to a room that is not there or closed. -/
theorem handleSendMsg_of_unavailable
    (h : ∀ room, s.getRoom conv env roomId = some room → room.status ≠ 0) (senderId : UInt64)
    (content senderName : String) :
    s.handleSendMsg conv env roomId senderId content senderName =
      (s, [.sendMsgRes ⟨false, 403, "room not available"⟩ none]) := by
  unfold handleSendMsg
  cases hroom : s.getRoom conv env roomId with
  | none => rfl
  | some room => exact if_pos (h room hroom)

theorem handleSendMsg_of_open (h : s.getRoom conv env roomId = some room)
    (hstatus : room.status = 0) (senderId : UInt64) (content senderName : String) :
    s.handleSendMsg conv env roomId senderId content senderName =
      ({ s with redis := s.redis.map (·.pushTrim (roomMsgsKey roomId)
          (newMessage env roomId senderId content senderName).text 99) },
        [.sendMsgRes .success (some (newMessage env roomId senderId content senderName)),
          .msgNotify (newMessage env roomId senderId content senderName)]) := by
  unfold handleSendMsg
  rw [h]
  exact if_neg (not_not.mpr hstatus)

theorem handleCloseRoom_of_none (h : s.getRoom conv env roomId = none) (operatorId : UInt64) :
    s.handleCloseRoom conv env roomId operatorId =
      (s, [.closeRoomRes ⟨false, 404, "room not found"⟩]) := by
  unfold handleCloseRoom
  rw [h]

theorem handleCloseRoom_of_ne (h : s.getRoom conv env roomId = some room) {operatorId : UInt64}
    (hop : operatorId ≠ room.creatorId) :
    s.handleCloseRoom conv env roomId operatorId =
      (s, [.closeRoomRes ⟨false, 403, "not creator"⟩]) := by
  unfold handleCloseRoom
  rw [h]
  exact if_pos (Ne.symm hop)

/-- The creator closes the room, if the database agrees. -/
theorem handleCloseRoom_of_creator (h : s.getRoom conv env roomId = some room)
    (hdb : s.hasDB = true → env.exec = .done) :
    s.handleCloseRoom conv env roomId room.creatorId =
      (s.closeStored room roomId env.now, [.roomLeave roomId, .closeRoomRes .success]) := by
  unfold handleCloseRoom
  rw [h]
  dsimp only
  rw [if_neg (not_not.mpr rfl), if_neg, if_neg]
  · rintro ⟨hhas, hrefused⟩
    cases (hdb hhas).symm.trans hrefused
  · rintro ⟨hhas, hfailed⟩
    cases (hdb hhas).symm.trans hfailed

end ChatService

end Gmaker.Chat
