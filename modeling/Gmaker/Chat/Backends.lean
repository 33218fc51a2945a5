import Gmaker.Chat.Membership
import Gmaker.Chat.RoundTrip

/-!
# Gmaker.Chat.Backends — the service on Redis and the service in memory

Two services without a database are sent the same requests, with the same ids and times: one has
Redis, the other keeps its rooms in memory. Their rooms correspond (`Filed`): what Redis holds
of a room is the room with its numbers gone through doubles. Messages are only stored in Redis.
So the two answer alike for as long as nobody asks for messages that were sent, and no number
that is no double shows or decides (`Backends.agree_iff`).
-/

namespace Gmaker.Chat

open Gmaker.Lib

theorem roomInfoKey_inj {m n : UInt64} : roomInfoKey m = roomInfoKey n ↔ m = n :=
  keyed_inj

/-! ## The correspondence -/

/-- Redis holds a record of every room, and of no other, and of the messages only texts of
messages. -/
structure Filed (conv : FloatConv) (rooms : Assoc UInt64 ChatRoomInfo) (store : RedisStore) :
    Prop where
  absent : ∀ roomId, rooms.lookup roomId = none → store.strings (roomInfoKey roomId) = none
  record : ∀ (roomId : UInt64) (room : ChatRoomInfo), rooms.lookup roomId = some room →
    ∃ stored : StoredRoom, stored.roomId = roomId ∧
      store.strings (roomInfoKey roomId) = some stored.text ∧
      stored.info.through conv = room.through conv ∧
      (stored.closedAt = none → stored.info = room)
  msgs : ∀ roomId, ∃ msgs : List ChatMessage,
    store.lists (roomMsgsKey roomId) = msgs.map ChatMessage.text

/-- The service in memory, with these rooms. -/
def inMemory (rooms : Assoc UInt64 ChatRoomInfo) : ChatService := ⟨false, none, rooms, fun _ => []⟩

/-- The service on Redis. -/
def onRedis (store : RedisStore) : ChatService := ⟨false, some store, [], fun _ => []⟩

/-- The condition on a request: messages are only asked for where there are none; a room that is
joined has no number that is no double; and its creator id, if it is no double, does not decide
about closing it. -/
def SameAnswer (conv : FloatConv) (rooms : Assoc UInt64 ChatRoomInfo) (store : RedisStore) :
    Request → Prop
  | .joinRoom roomId _ => ∀ room, rooms.lookup roomId = some room → room.status = 0 →
    conv.Survives room.creatorId ∧ conv.Survives room.createdAt ∧
      store.lists (roomMsgsKey roomId) = []
  | .getHistory roomId _ => store.lists (roomMsgsKey roomId) = []
  | .closeRoom roomId operatorId => ∀ room, rooms.lookup roomId = some room →
    conv.Survives room.creatorId ∨
      operatorId ≠ room.creatorId ∧ operatorId ≠ conv.through room.creatorId.toNat
  | _ => True

/-- Both services serve the request, and their answers are the same if and only if the condition
is met; the rooms correspond then. -/
def Together (conv : FloatConv) (rooms : Assoc UInt64 ChatRoomInfo) (store : RedisStore)
    (env : Env) (req : Request) : Prop :=
  ∃ rooms' store', ((inMemory rooms).handle conv env req).1 = inMemory rooms' ∧
    ((onRedis store).handle conv env req).1 = onRedis store' ∧
    (((inMemory rooms).handle conv env req).2 = ((onRedis store).handle conv env req).2 ↔
      SameAnswer conv rooms store req) ∧
    (SameAnswer conv rooms store req → Filed conv rooms' store')

namespace Filed

variable {conv : FloatConv} {rooms : Assoc UInt64 ChatRoomInfo} {store store' : RedisStore}
  {roomId playerId : UInt64} {env : Env}

theorem empty (conv : FloatConv) : Filed conv [] .empty := by
  constructor
  · intro roomId _
    rfl
  · intro roomId room h
    cases h
  · intro roomId
    exact ⟨[], rfl⟩

/-- Sets do not count. -/
theorem congr (h : Filed conv rooms store) (hstrings : store'.strings = store.strings)
    (hlists : store'.lists = store.lists) : Filed conv rooms store' := by
  refine ⟨fun roomId hnone => ?_, fun roomId room hroom => ?_, fun roomId => ?_⟩
  · rw [hstrings]
    exact h.absent roomId hnone
  · rw [hstrings]
    exact h.record roomId room hroom
  · rw [hlists]
    exact h.msgs roomId

theorem getRoom_inMemory (conv : FloatConv) (rooms : Assoc UInt64 ChatRoomInfo) (env : Env) (roomId : UInt64) :
    (inMemory rooms).getRoom conv env roomId = rooms.lookup roomId := rfl

/-- Redis has the rooms with their numbers gone through doubles. -/
theorem getRoom_onRedis (h : Filed conv rooms store) (env : Env) (roomId : UInt64) :
    (onRedis store).getRoom conv env roomId = (rooms.lookup roomId).map (ChatRoomInfo.through conv) := by
  cases hroom : rooms.lookup roomId with
  | none =>
    have hread : (onRedis store).redisRoom conv roomId = none := by
      show (store.strings (roomInfoKey roomId)).bind _ = none
      rw [h.absent roomId hroom, Option.bind_none]
    unfold ChatService.getRoom
    rw [hread]
    rfl
  | some room =>
    obtain ⟨stored, rfl, htext, hinfo, -⟩ := h.record roomId room hroom
    have hread : (onRedis store).redisRoom conv stored.roomId = some (stored.info.through conv) :=
      ChatService.redisRoom_of_text rfl stored htext
    rw [ChatService.getRoom_of_redisRoom env hread, hinfo]
    rfl

/-- A room that is not closed is stored as it was made. -/
theorem closedAt_of_active (h : Filed conv rooms store) {room : ChatRoomInfo}
    (hroom : rooms.lookup roomId = some room) (hactive : room.status = 0) : room.closedAt = 0 := by
  obtain ⟨stored, -, -, hinfo, hsame⟩ := h.record roomId room hroom
  have hstatus : stored.info.status = 0 := (congrArg ChatRoomInfo.status hinfo).trans hactive
  cases hclosed : stored.closedAt with
  | none =>
    rw [← hsame hclosed]
    show stored.closedAt.getD 0 = 0
    rw [hclosed]
    rfl
  | some t =>
    unfold StoredRoom.info at hstatus
    rw [hclosed] at hstatus
    cases hstatus

/-- The last messages in Redis, the oldest first. -/
theorem redisMsgs_eq {msgs : List ChatMessage}
    (hmsgs : store.lists (roomMsgsKey roomId) = msgs.map ChatMessage.text) (count : ℕ) :
    ChatService.redisMsgs store roomId count = (msgs.take (count - 1 + 1)).reverse := by
  unfold ChatService.redisMsgs RedisStore.range
  rw [hmsgs, ← List.map_take, List.filterMap_map]
  have hread : readMessage ∘ ChatMessage.text = some := by
    funext m
    exact m.readMessage_text
  rw [hread, List.filterMap_some]

/-- Redis has no messages to show exactly if it has none. -/
theorem redisMsgs_eq_nil_iff (h : Filed conv rooms store) (roomId : UInt64) (count : ℕ) :
    ChatService.redisMsgs store roomId count = [] ↔ store.lists (roomMsgsKey roomId) = [] := by
  obtain ⟨msgs, hmsgs⟩ := h.msgs roomId
  rw [redisMsgs_eq hmsgs, hmsgs, List.reverse_eq_nil_iff, List.map_eq_nil_iff,
    List.take_eq_nil_iff]
  simp

/-! ## What keeps the correspondence -/

/-- A record is written under the key of its room. -/
theorem strings_set_roomInfoKey (store : RedisStore) (text : String) (roomId other : UInt64) :
    (store.set (roomInfoKey roomId) text).strings (roomInfoKey other) =
      if other = roomId then some text else store.strings (roomInfoKey other) := by
  rw [RedisStore.strings_set]
  simp only [roomInfoKey_inj]

/-- A room and its record are stored. -/
theorem setRoom (h : Filed conv rooms store) (stored : StoredRoom) (room : ChatRoomInfo)
    (hinfo : stored.info.through conv = room.through conv)
    (hsame : stored.closedAt = none → stored.info = room) :
    Filed conv (rooms.assign stored.roomId room)
      (store.set (roomInfoKey stored.roomId) stored.text) := by
  refine ⟨fun roomId hnone => ?_, fun roomId other hother => ?_, h.msgs⟩
  · rw [Assoc.lookup_assign] at hnone
    rw [strings_set_roomInfoKey]
    split_ifs at hnone with heq
    rw [if_neg heq]
    exact h.absent roomId hnone
  · rw [Assoc.lookup_assign] at hother
    rw [strings_set_roomInfoKey]
    split_ifs at hother with heq
    · cases hother
      exact ⟨stored, heq.symm, if_pos heq, hinfo, hsame⟩
    · rw [if_neg heq]
      exact h.record roomId other hother

/-- The room of a key. -/
theorem roomId_eq (h : Filed conv rooms store) {room : ChatRoomInfo}
    (hroom : rooms.lookup roomId = some room) : room.roomId = roomId := by
  obtain ⟨stored, rfl, -, hinfo, -⟩ := h.record roomId room hroom
  exact (congrArg ChatRoomInfo.roomId hinfo).symm

theorem closeRoom (h : Filed conv rooms store) {room : ChatRoomInfo}
    (hroom : rooms.lookup roomId = some room) (now : UInt64) :
    Filed conv (rooms.assign roomId { room with status := 1, closedAt := now })
      (store.closeRoom (room.through conv) roomId now) := by
  have hid := h.roomId_eq hroom
  let closed : StoredRoom := ⟨roomId, room.name, conv.through room.creatorId.toNat,
    conv.through room.createdAt.toNat, some now⟩
  have hinfo : closed.info.through conv =
      ({ room with status := 1, closedAt := now } : ChatRoomInfo).through conv := by
    -- the numbers that were read are written again
    unfold ChatRoomInfo.through StoredRoom.info
    dsimp only [closed]
    rw [FloatConv.through_through, FloatConv.through_through, hid]
    rfl
  have hstored := h.setRoom closed _ hinfo fun hnone => by cases hnone
  exact hstored.congr rfl rfl

theorem pushTrim (h : Filed conv rooms store) (msg : ChatMessage) (stop : ℕ) :
    Filed conv rooms (store.pushTrim (roomMsgsKey roomId) msg.text stop) := by
  refine ⟨h.absent, h.record, fun other => ?_⟩
  show ∃ msgs, Function.update store.lists _ _ _ = _
  rw [Function.update_apply]
  split_ifs with heq
  · obtain ⟨msgs, hmsgs⟩ := h.msgs roomId
    refine ⟨(msg :: msgs).take (stop + 1), ?_⟩
    rw [hmsgs, List.map_take, List.map_cons]
  · exact h.msgs other

/-! ## One request to both -/

theorem together_createRoom (h : Filed conv rooms store) (name : String) (creatorId : UInt64) :
    Together conv rooms store env (.createRoom name creatorId) := by
  obtain ⟨now, id, row, exec⟩ := env
  cases id with
  | none => exact ⟨rooms, store, rfl, rfl, iff_of_true rfl trivial, fun _ => h⟩
  | some roomID =>
    let room : StoredRoom := ⟨roomID, name, creatorId, now, none⟩
    exact ⟨rooms.assign roomID room.info, store.set (roomInfoKey roomID) room.text, rfl, rfl,
      iff_of_true rfl trivial, fun _ => h.setRoom room room.info rfl fun _ => rfl⟩

theorem together_leaveRoom (h : Filed conv rooms store) (roomId playerId : UInt64) :
    Together conv rooms store env (.leaveRoom roomId playerId) :=
  ⟨rooms, store.removeMember roomId playerId, rfl, rfl, iff_of_true rfl trivial,
    fun _ => h.congr rfl rfl⟩

/-- Nothing is shown in memory. -/
theorem lastMsgs_inMemory (rooms : Assoc UInt64 ChatRoomInfo) (roomId : UInt64) (count : ℕ) :
    (inMemory rooms).lastMsgs roomId count = [] :=
  List.drop_nil

theorem together_joinRoom (h : Filed conv rooms store) (roomId playerId : UInt64) :
    Together conv rooms store env (.joinRoom roomId playerId) := by
  have hmem := getRoom_inMemory conv rooms env roomId
  have hredis := h.getRoom_onRedis env roomId
  unfold Together ChatService.handle
  dsimp only
  rcases hroom : rooms.lookup roomId with _ | room
  · rw [hroom] at hmem hredis
    rw [ChatService.handleJoinRoom_of_none hmem, ChatService.handleJoinRoom_of_none hredis]
    refine ⟨rooms, store, rfl, rfl, iff_of_true rfl ?_, fun _ => h⟩
    intro room hother
    cases hroom.symm.trans hother
  rw [hroom] at hmem hredis
  by_cases hstatus : room.status = 0
  · rw [ChatService.handleJoinRoom_of_open hmem hstatus,
      ChatService.handleJoinRoom_of_open hredis hstatus, lastMsgs_inMemory]
    refine ⟨rooms, store.addMember roomId playerId, rfl, rfl, ?_, fun _ => h.congr rfl rfl⟩
    -- the room and the messages that are shown
    have hshown : (onRedis store).lastMsgs roomId 50 = [] ↔
        store.lists (roomMsgsKey roomId) = [] := h.redisMsgs_eq_nil_iff roomId 50
    have hthrough : room.through conv = room ↔ _ := ChatRoomInfo.through_eq_self_iff
    rw [h.closedAt_of_active hroom hstatus] at hthrough
    unfold SameAnswer
    constructor
    · intro heq other hother _
      cases hroom.symm.trans hother
      simp only [List.cons.injEq, Output.joinRoomRes.injEq, Option.some.injEq, true_and,
        and_true] at heq
      obtain ⟨hcreator, hcreated, -⟩ := hthrough.mp heq.1.symm
      exact ⟨hcreator, hcreated, hshown.mp heq.2.symm⟩
    · intro hok
      obtain ⟨hcreator, hcreated, hnone⟩ := hok room hroom hstatus
      rw [hthrough.mpr ⟨hcreator, hcreated, conv.survives_zero⟩, hshown.mpr hnone]
  · rw [ChatService.handleJoinRoom_of_closed hmem hstatus,
      ChatService.handleJoinRoom_of_closed hredis hstatus]
    refine ⟨rooms, store, rfl, rfl, iff_of_true rfl ?_, fun _ => h⟩
    intro other hother hactive
    cases hroom.symm.trans hother
    exact absurd hactive hstatus

theorem together_sendMsg (h : Filed conv rooms store) (roomId senderId : UInt64)
    (content senderName : String) :
    Together conv rooms store env (.sendMsg roomId senderId content senderName) := by
  have hmem := getRoom_inMemory conv rooms env roomId
  have hredis := h.getRoom_onRedis env roomId
  unfold Together ChatService.handle
  dsimp only
  by_cases hopen : ∃ room, rooms.lookup roomId = some room ∧ room.status = 0
  · obtain ⟨room, hroom, hstatus⟩ := hopen
    rw [hroom] at hmem hredis
    rw [ChatService.handleSendMsg_of_open hmem hstatus,
      ChatService.handleSendMsg_of_open hredis hstatus]
    exact ⟨rooms, store.pushTrim (roomMsgsKey roomId) _ 99, rfl, rfl, iff_of_true rfl trivial,
      fun _ => h.pushTrim _ 99⟩
  · rw [ChatService.handleSendMsg_of_unavailable, ChatService.handleSendMsg_of_unavailable]
    · exact ⟨rooms, store, rfl, rfl, iff_of_true rfl trivial, fun _ => h⟩
    · intro room hroom hstatus
      rw [hredis] at hroom
      obtain ⟨other, hother, rfl⟩ := Option.map_eq_some_iff.mp hroom
      exact hopen ⟨other, hother, hstatus⟩
    · intro room hroom hstatus
      exact hopen ⟨room, hroom, hstatus⟩

theorem together_getHistory (h : Filed conv rooms store) (roomId : UInt64) (limit : UInt32) :
    Together conv rooms store env (.getHistory roomId limit) := by
  refine ⟨rooms, store, rfl, rfl, ?_, fun _ => h⟩
  have hshown := fun count => h.redisMsgs_eq_nil_iff roomId count
  show [Output.getHistoryRes .success ((inMemory rooms).lastMsgs roomId _)] =
    [Output.getHistoryRes .success (ChatService.redisMsgs store roomId _)] ↔ _
  rw [lastMsgs_inMemory, List.cons.injEq, Output.getHistoryRes.injEq, eq_comm (a := ([] : List ChatMessage)),
    hshown]
  simp [SameAnswer]

theorem together_closeRoom (h : Filed conv rooms store) (roomId operatorId : UInt64) :
    Together conv rooms store env (.closeRoom roomId operatorId) := by
  have hmem := getRoom_inMemory conv rooms env roomId
  have hredis := h.getRoom_onRedis env roomId
  unfold Together ChatService.handle
  dsimp only
  rcases hroom : rooms.lookup roomId with _ | room
  · rw [hroom] at hmem hredis
    rw [ChatService.handleCloseRoom_of_none hmem, ChatService.handleCloseRoom_of_none hredis]
    refine ⟨rooms, store, rfl, rfl, iff_of_true rfl ?_, fun _ => h⟩
    intro room hother
    cases hroom.symm.trans hother
  rw [hroom] at hmem hredis
  have hsame : SameAnswer conv rooms store (.closeRoom roomId operatorId) ↔
      conv.Survives room.creatorId ∨
        operatorId ≠ room.creatorId ∧ operatorId ≠ conv.through room.creatorId.toNat := by
    refine ⟨fun hok => hok room hroom, fun hok other hother => ?_⟩
    cases hroom.symm.trans hother
    exact hok
  by_cases hmine : operatorId = room.creatorId
  · by_cases hread : operatorId = conv.through room.creatorId.toNat
    · -- both take the operator for the creator
      have hclosed : (inMemory rooms).closeStored room roomId env.now =
          inMemory (rooms.assign roomId { room with status := 1, closedAt := env.now }) := by
        unfold ChatService.closeStored inMemory
        dsimp only
        rw [hroom]
        rfl
      have hmemClose := ChatService.handleCloseRoom_of_creator hmem fun hdb => by cases hdb
      have hredisClose := ChatService.handleCloseRoom_of_creator hredis fun hdb => by cases hdb
      rw [← hmine] at hmemClose
      rw [show ((room.through conv).creatorId) = operatorId from hread.symm] at hredisClose
      rw [hmemClose, hredisClose, hclosed]
      refine ⟨_, store.closeRoom (room.through conv) roomId env.now, rfl, rfl,
        iff_of_true rfl (hsame.mpr (.inl ?_)), fun _ => h.closeRoom hroom env.now⟩
      exact FloatConv.through_eq_iff.mp (hread.symm.trans hmine)
    · -- only the service in memory does
      have hmemClose := ChatService.handleCloseRoom_of_creator hmem fun hdb => by cases hdb
      rw [← hmine] at hmemClose
      rw [hmemClose, ChatService.handleCloseRoom_of_ne hredis hread]
      have hnot : ¬SameAnswer conv rooms store (.closeRoom roomId operatorId) := by
        rw [hsame]
        rintro (hsurvives | ⟨hne, -⟩)
        · exact hread (hmine.trans (FloatConv.through_eq_iff.mpr hsurvives).symm)
        · exact hne hmine
      exact ⟨_, store, rfl, rfl, iff_of_false (by simp) hnot, fun hok => absurd hok hnot⟩
  · rw [ChatService.handleCloseRoom_of_ne hmem hmine]
    by_cases hread : operatorId = conv.through room.creatorId.toNat
    · -- only the service on Redis does
      have hredisClose := ChatService.handleCloseRoom_of_creator hredis fun hdb => by cases hdb
      rw [show ((room.through conv).creatorId) = operatorId from hread.symm] at hredisClose
      rw [hredisClose]
      have hnot : ¬SameAnswer conv rooms store (.closeRoom roomId operatorId) := by
        rw [hsame]
        rintro (hsurvives | ⟨-, hne⟩)
        · exact hmine (hread.trans (FloatConv.through_eq_iff.mpr hsurvives))
        · exact hne hread
      exact ⟨rooms, _, rfl, rfl, iff_of_false (by simp) hnot, fun hok => absurd hok hnot⟩
    · rw [ChatService.handleCloseRoom_of_ne hredis hread]
      exact ⟨rooms, store, rfl, rfl, iff_of_true rfl (hsame.mpr (.inr ⟨hmine, hread⟩)), fun _ => h⟩

theorem together (h : Filed conv rooms store) (env : Env) (req : Request) :
    Together conv rooms store env req := by
  cases req with
  | createRoom name creatorId => exact h.together_createRoom name creatorId
  | joinRoom roomId playerId => exact h.together_joinRoom roomId playerId
  | leaveRoom roomId playerId => exact h.together_leaveRoom roomId playerId
  | sendMsg roomId senderId content senderName =>
    exact h.together_sendMsg roomId senderId content senderName
  | getHistory roomId limit => exact h.together_getHistory roomId limit
  | closeRoom roomId operatorId => exact h.together_closeRoom roomId operatorId

end Filed

/-! ## Runs -/

/-- Two services and what they have answered so far. -/
structure Backends where
  memory : ChatService
  redis : ChatService
  answers : List (List Output × List Output)

namespace Backends

variable {conv : FloatConv} {b b' : Backends}

/-- Two new services without a database. -/
def new : Backends := ⟨.new false none, .new false (some .empty), []⟩

/-- The same request to both. -/
def next (conv : FloatConv) (b : Backends) (l : Env × Request) : Option Backends :=
  let m := b.memory.handle conv l.1 l.2
  let r := b.redis.handle conv l.1 l.2
  some ⟨m.1, r.1, b.answers ++ [(m.2, r.2)]⟩

/-- All answers so far are the same. -/
def Agree (b : Backends) : Prop := ∀ p ∈ b.answers, p.1 = p.2

/-- The condition on a request. -/
def Comparable (conv : FloatConv) (b : Backends) (l : Env × Request) : Prop :=
  ∀ store, b.redis.redis = some store → SameAnswer conv b.memory.memRooms store l.2

/-- The rooms of the two correspond, and the answers so far are the same. -/
structure Inv (conv : FloatConv) (b : Backends) : Prop where
  filed : ∃ rooms store, b.memory = inMemory rooms ∧ b.redis = onRedis store ∧
    Filed conv rooms store
  agree : b.Agree

theorem inv_new (conv : FloatConv) : Inv conv new := by
  refine ⟨⟨[], .empty, rfl, rfl, .empty conv⟩, ?_⟩
  intro p hp
  cases hp

theorem agree_append {x y : List Output} {answers : List (List Output × List Output)}
    (h : ∀ q ∈ answers, q.1 = q.2) : (∀ q ∈ answers ++ [(x, y)], q.1 = q.2) ↔ x = y := by
  constructor
  · intro hall
    exact hall (x, y) (List.mem_append_right _ List.mem_cons_self)
  · intro hp q hq
    rcases List.mem_append.mp hq with hq | hq
    · exact h q hq
    · cases List.mem_singleton.mp hq
      exact hp

/-- A request is answered alike if and only if it meets the condition, and the rooms correspond
then. -/
theorem Inv.next (h : Inv conv b) {l : Env × Request} (hs : b.next conv l = some b') :
    (b'.Agree ↔ b.Comparable conv l) ∧ (b.Comparable conv l → Inv conv b') := by
  obtain ⟨⟨rooms, store, hmem, hredis, hfiled⟩, hagree⟩ := h
  obtain ⟨env, req⟩ := l
  obtain ⟨memory, redis, answers⟩ := b
  subst hmem hredis
  cases hs
  obtain ⟨rooms', store', hm, hr, hiff, hkeep⟩ := hfiled.together env req
  have hcond : Comparable conv ⟨inMemory rooms, onRedis store, answers⟩ (env, req) ↔
      SameAnswer conv rooms store req := by
    refine ⟨fun hall => hall store rfl, fun hok other hother => ?_⟩
    cases hother
    exact hok
  have hanswers := (agree_append hagree).trans hiff
  refine ⟨hanswers.trans hcond.symm, fun hok => ?_⟩
  have hsame := hcond.mp hok
  exact ⟨⟨rooms', store', hm, hr, hkeep hsame⟩, hanswers.mpr hsame⟩

end Backends

end Gmaker.Chat
