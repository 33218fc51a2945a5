import Gmaker.Chat.Service

/-!
# Gmaker.Chat.RoundTrip — a room in Redis and back

A room that was stored in Redis is read back with its numbers gone through doubles. It is the
room that was stored, and its creator and nobody else may close it, exactly if its numbers are
doubles (`ChatService.roundTrip_iff`).
-/

namespace Gmaker.Chat

open Gmaker.Lib

variable {conv : FloatConv} {s : ChatService} {r : RedisStore}

/-- A record is not the empty text. -/
theorem StoredRoom.text_ne_empty (room : StoredRoom) : room.text ≠ "" := by
  intro h
  have hlist := congrArg String.toList h
  unfold StoredRoom.text Json.marshal at hlist
  rw [String.toList_ofList] at hlist
  cases hlist

namespace ChatService

/-- What is read of a record under the key of its room. -/
theorem redisRoom_of_text (hredis : s.redis = some r) (room : StoredRoom)
    (htext : r.strings (roomInfoKey room.roomId) = some room.text) :
    s.redisRoom conv room.roomId = some (room.info.through conv) := by
  unfold redisRoom
  rw [hredis, Option.bind_some, htext, Option.bind_some, if_neg room.text_ne_empty]
  exact room.readInfo_text conv

theorem getRoom_of_redisRoom {room : ChatRoomInfo} {roomID : UInt64} (env : Env)
    (h : s.redisRoom conv roomID = some room) : s.getRoom conv env roomID = some room := by
  unfold getRoom
  rw [h]

/-- A room that was stored in Redis is read back with its numbers gone through doubles. -/
theorem getRoom_storeRoom (conv : FloatConv) (hredis : s.redis = some r) (env : Env) (room : StoredRoom) :
    (s.storeRoom room).getRoom conv env room.roomId = some (room.info.through conv) := by
  have hstore : (s.storeRoom room).redis = some (r.set (roomInfoKey room.roomId) room.text) := by
    unfold storeRoom
    rw [hredis]
  refine getRoom_of_redisRoom env (redisRoom_of_text hstore room ?_)
  exact Function.update_self _ _ _

/-- `HandleCloseRoom` takes the operator for the creator. -/
def AcceptsOperator (conv : FloatConv) (s : ChatService) (env : Env) (roomId operatorId : UInt64) :
    Prop :=
  (s.handleCloseRoom conv env roomId operatorId).2 ≠ [.closeRoomRes ⟨false, 403, "not creator"⟩]

theorem acceptsOperator_iff {room : ChatRoomInfo} {env : Env} {roomId operatorId : UInt64}
    (h : s.getRoom conv env roomId = some room) :
    s.AcceptsOperator conv env roomId operatorId ↔ operatorId = room.creatorId := by
  unfold AcceptsOperator
  by_cases hop : operatorId = room.creatorId
  · refine iff_of_true ?_ hop
    unfold handleCloseRoom
    rw [h]
    dsimp only
    rw [if_neg (not_not.mpr hop.symm)]
    split_ifs <;> simp
  · rw [handleCloseRoom_of_ne h hop]
    exact iff_of_false (not_not.mpr rfl) hop

/-- A room that is stored in Redis is read back as it is, and its creator and nobody else is
taken for the creator, if and only if its numbers are doubles. -/
theorem roundTrip_iff (conv : FloatConv) (s : ChatService) (r : RedisStore) (env : Env)
    (room : StoredRoom) :
    (({ s with redis := some r }.storeRoom room).getRoom conv env room.roomId = some room.info ∧
        ∀ operatorId, ({ s with redis := some r }.storeRoom room).AcceptsOperator conv env
          room.roomId operatorId ↔ operatorId = room.creatorId) ↔
      conv.Survives room.creatorId ∧ conv.Survives room.createdAt ∧
        conv.Survives (room.closedAt.getD 0) := by
  have hread := getRoom_storeRoom conv (s := { s with redis := some r }) rfl env room
  rw [hread, Option.some.injEq, ChatRoomInfo.through_eq_self_iff]
  refine and_iff_left_of_imp fun h operatorId => ?_
  have hcreator : conv.through room.creatorId.toNat = room.creatorId :=
    FloatConv.through_eq_iff.mpr h.1
  rw [acceptsOperator_iff hread]
  show _ = conv.through room.creatorId.toNat ↔ _
  rw [hcreator]

/-- A creator whose id is no double may not close the room, and another player may. -/
theorem not_roundTrip_snowflake : ∃ s : ChatService,
    s = ((new false (some .empty)).handleCreateRoom ⟨1700000000, some 1, none, .done⟩ "lobby"
      9007199254740993).1 ∧
      s.getRoom .amd64 ⟨1700000000, none, none, .done⟩ 1 =
        some ⟨1, "lobby", 9007199254740992, 0, 1700000000, 0⟩ ∧
      ¬s.AcceptsOperator .amd64 ⟨1700000000, none, none, .done⟩ 1 9007199254740993 ∧
      s.AcceptsOperator .amd64 ⟨1700000000, none, none, .done⟩ 1 9007199254740992 := by
  have hread := getRoom_storeRoom .amd64 (s := new false (some .empty)) rfl
    ⟨1700000000, none, none, .done⟩ ⟨1, "lobby", 9007199254740993, 1700000000, none⟩
  have hthrough : (StoredRoom.info ⟨1, "lobby", 9007199254740993, 1700000000, none⟩).through .amd64 =
      ⟨1, "lobby", 9007199254740992, 0, 1700000000, 0⟩ := by
    decide
  rw [hthrough] at hread
  refine ⟨_, rfl, hread, ?_, ?_⟩
  · refine fun h => absurd ((acceptsOperator_iff hread).mp h) ?_
    decide
  · exact (acceptsOperator_iff hread).mpr rfl

end ChatService

end Gmaker.Chat
