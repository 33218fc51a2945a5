import Gmaker.Chat.Service

/-!
# Gmaker.Chat.Membership — who is where, from both sides

The members of a room and the rooms of a player are two sets in Redis. Joining and leaving edit
both; closing a room deletes the members and leaves the players' rooms as they are. The two
agree all along in exactly those runs in which a room that is closed has no members
(`ChatService.symmetric_iff`).
-/

namespace Gmaker.Chat

open Gmaker.Lib

/-! ## The keys -/

theorem decimal_inj {m n : UInt64} : decimal m = decimal n ↔ m = n := by
  unfold decimal
  rw [natRepr_inj, UInt64.toNat_inj]

/-- A number between two texts is told from another one. -/
theorem keyed_inj {before after : String} {m n : UInt64} :
    before ++ decimal m ++ after = before ++ decimal n ++ after ↔ m = n := by
  rw [String.append_left_inj, String.append_right_inj, decimal_inj]

theorem roomMembersKey_inj {m n : UInt64} : roomMembersKey m = roomMembersKey n ↔ m = n :=
  keyed_inj

theorem playerRoomsKey_inj {m n : UInt64} : playerRoomsKey m = playerRoomsKey n ↔ m = n :=
  keyed_inj

/-- The first letter tells a player's key from a room's. -/
theorem playerRoomsKey_ne (p roomId : UInt64) : playerRoomsKey p ≠ roomMembersKey roomId := by
  intro h
  have hlist := congrArg String.toList h
  unfold playerRoomsKey roomMembersKey at hlist
  simp only [String.toList_append] at hlist
  cases hlist

namespace RedisStore

/-- Room and player are filed under each other. -/
def Symmetric (r : RedisStore) : Prop :=
  ∀ roomId p, decimal roomId ∈ r.sets (playerRoomsKey p) ↔
    decimal p ∈ r.sets (roomMembersKey roomId)

variable {r : RedisStore}

theorem Symmetric.empty : Symmetric empty := by
  intro roomId p
  show _ ∈ (∅ : Finset String) ↔ _ ∈ (∅ : Finset String)
  simp

/-- Only the sets count. -/
theorem Symmetric.congr {r' : RedisStore} (h : r.Symmetric) (hsets : r'.sets = r.sets) :
    r'.Symmetric := by
  unfold Symmetric
  rw [hsets]
  exact h

theorem sets_sadd (r : RedisStore) (key member k : String) :
    (r.sadd key member).sets k = if k = key then insert member (r.sets key) else r.sets k :=
  Function.update_apply _ _ _ _

theorem sets_srem (r : RedisStore) (key member k : String) :
    (r.srem key member).sets k = if k = key then (r.sets key).erase member else r.sets k :=
  Function.update_apply _ _ _ _

variable {roomId playerId m p : UInt64}

theorem mem_rooms_addMember :
    decimal m ∈ (r.addMember roomId playerId).sets (playerRoomsKey p) ↔
      m = roomId ∧ p = playerId ∨ decimal m ∈ r.sets (playerRoomsKey p) := by
  unfold addMember
  rw [sets_sadd]
  split_ifs with hp
  · cases playerRoomsKey_inj.mp hp
    rw [Finset.mem_insert, decimal_inj, sets_sadd, if_neg (playerRoomsKey_ne _ _)]
    simp
  · rw [sets_sadd, if_neg (playerRoomsKey_ne _ _)]
    rw [playerRoomsKey_inj] at hp
    simp [hp]

theorem mem_members_addMember :
    decimal p ∈ (r.addMember roomId playerId).sets (roomMembersKey m) ↔
      m = roomId ∧ p = playerId ∨ decimal p ∈ r.sets (roomMembersKey m) := by
  unfold addMember
  rw [sets_sadd, if_neg (playerRoomsKey_ne playerId m).symm, sets_sadd]
  split_ifs with hm
  · cases roomMembersKey_inj.mp hm
    rw [Finset.mem_insert, decimal_inj]
    simp
  · rw [roomMembersKey_inj] at hm
    simp [hm]

theorem mem_rooms_removeMember :
    decimal m ∈ (r.removeMember roomId playerId).sets (playerRoomsKey p) ↔
      ¬(m = roomId ∧ p = playerId) ∧ decimal m ∈ r.sets (playerRoomsKey p) := by
  unfold removeMember
  rw [sets_srem]
  split_ifs with hp
  · cases playerRoomsKey_inj.mp hp
    rw [Finset.mem_erase, Ne, decimal_inj, sets_srem, if_neg (playerRoomsKey_ne _ _)]
    simp
  · rw [sets_srem, if_neg (playerRoomsKey_ne _ _)]
    rw [playerRoomsKey_inj] at hp
    simp [hp]

theorem mem_members_removeMember :
    decimal p ∈ (r.removeMember roomId playerId).sets (roomMembersKey m) ↔
      ¬(m = roomId ∧ p = playerId) ∧ decimal p ∈ r.sets (roomMembersKey m) := by
  unfold removeMember
  rw [sets_srem, if_neg (playerRoomsKey_ne playerId m).symm, sets_srem]
  split_ifs with hm
  · cases roomMembersKey_inj.mp hm
    rw [Finset.mem_erase, Ne, decimal_inj]
    simp
  · rw [roomMembersKey_inj] at hm
    simp [hm]

theorem Symmetric.addMember (h : r.Symmetric) (roomId playerId : UInt64) :
    (r.addMember roomId playerId).Symmetric := by
  intro m p
  rw [mem_rooms_addMember, mem_members_addMember, h m p]

theorem Symmetric.removeMember (h : r.Symmetric) (roomId playerId : UInt64) :
    (r.removeMember roomId playerId).Symmetric := by
  intro m p
  rw [mem_rooms_removeMember, mem_members_removeMember, h m p]

/-- A room has no members. -/
def Deserted (r : RedisStore) (roomId : UInt64) : Prop :=
  ∀ p, decimal p ∉ r.sets (roomMembersKey roomId)

theorem sets_closeRoom (room : ChatRoomInfo) (now : UInt64) (key : String) :
    (r.closeRoom room roomId now).sets key =
      if key = roomMembersKey roomId then ∅ else r.sets key :=
  Function.update_apply _ _ _ _

/-- A room that is closed stays with those players who were its members. -/
theorem symmetric_closeRoom_iff (h : r.Symmetric) (room : ChatRoomInfo) (now : UInt64) :
    (r.closeRoom room roomId now).Symmetric ↔ r.Deserted roomId := by
  have hrooms : ∀ p, (r.closeRoom room roomId now).sets (playerRoomsKey p) =
      r.sets (playerRoomsKey p) := by
    intro p
    rw [sets_closeRoom, if_neg (playerRoomsKey_ne p roomId)]
  constructor
  · intro hclosed p hmember
    -- the room is still among the player's
    have hroom := (h roomId p).mpr hmember
    rw [← hrooms p] at hroom
    have hgone := (hclosed roomId p).mp hroom
    rw [sets_closeRoom, if_pos rfl] at hgone
    exact Finset.notMem_empty _ hgone
  · intro hempty m p
    rw [hrooms p, h m p, sets_closeRoom]
    split_ifs with hm
    · cases roomMembersKey_inj.mp hm
      exact iff_of_false (hempty p) (Finset.notMem_empty _)
    · rfl

end RedisStore

/-! ## Runs of the service -/

namespace ChatService

variable {conv : FloatConv} {s s' : ChatService} {r : RedisStore}

/-- The service serves a request. -/
def next (conv : FloatConv) (s : ChatService) (l : Env × Request) : Option ChatService :=
  some (s.handle conv l.1 l.2).1

/-- The two sides of the membership agree. -/
def Symmetric (s : ChatService) : Prop := ∃ r, s.redis = some r ∧ r.Symmetric

/-- The condition on a request: a room that it closes has no members. -/
def ClosesDeserted (conv : FloatConv) (s : ChatService) : Env × Request → Prop
  | (env, .closeRoom roomId operatorId) =>
    ∀ room, s.getRoom conv env roomId = some room → room.creatorId = operatorId →
      (s.hasDB = true → env.exec = .done) → ∀ r, s.redis = some r → r.Deserted roomId
  | _ => True

/-- What a request does to Redis, as far as sets go. -/
inductive SetStep (conv : FloatConv) (s : ChatService) (l : Env × Request) (r r' : RedisStore) :
    Prop where
  | same (h : r'.sets = r.sets)
  | join (roomId playerId : UInt64) (h : r' = r.addMember roomId playerId)
  | leave (roomId playerId : UInt64) (h : r' = r.removeMember roomId playerId)
  | close (roomId operatorId : UInt64) (room : ChatRoomInfo) (hl : l.2 = .closeRoom roomId operatorId)
    (hroom : s.getRoom conv l.1 roomId = some room) (hop : room.creatorId = operatorId)
    (hexec : s.hasDB = true → l.1.exec = .done) (h : r' = r.closeRoom room roomId l.1.now)

theorem setStep (conv : FloatConv) (hredis : s.redis = some r) (env : Env) (req : Request) :
    ∃ r', (s.handle conv env req).1.redis = some r' ∧ SetStep conv s (env, req) r r' := by
  cases req with
  | createRoom name creatorId =>
    show ∃ r', (s.handleCreateRoom env name creatorId).1.redis = some r' ∧ _
    unfold handleCreateRoom storeRoom
    rw [hredis]
    split
    · exact ⟨r, hredis, .same rfl⟩
    · dsimp only
      split_ifs
      · exact ⟨r, hredis, .same rfl⟩
      · exact ⟨r, hredis, .same rfl⟩
      · exact ⟨_, rfl, .same rfl⟩
  | joinRoom roomId playerId =>
    show ∃ r', (s.handleJoinRoom conv env roomId playerId).1.redis = some r' ∧ _
    unfold handleJoinRoom
    split
    · exact ⟨r, hredis, .same rfl⟩
    · split_ifs
      · exact ⟨r, hredis, .same rfl⟩
      · refine ⟨r.addMember roomId playerId, ?_, .join roomId playerId rfl⟩
        show s.redis.map _ = _
        rw [hredis, Option.map_some]
  | leaveRoom roomId playerId =>
    refine ⟨r.removeMember roomId playerId, ?_, .leave roomId playerId rfl⟩
    show s.redis.map _ = _
    rw [hredis, Option.map_some]
  | sendMsg roomId senderId content senderName =>
    show ∃ r', (s.handleSendMsg conv env roomId senderId content senderName).1.redis = some r' ∧ _
    unfold handleSendMsg
    split
    · exact ⟨r, hredis, .same rfl⟩
    · split_ifs
      · exact ⟨r, hredis, .same rfl⟩
      · refine ⟨r.pushTrim (roomMsgsKey roomId)
          (newMessage env roomId senderId content senderName).text 99, ?_, .same rfl⟩
        show s.redis.map _ = _
        rw [hredis, Option.map_some]
  | getHistory roomId limit => exact ⟨r, hredis, .same rfl⟩
  | closeRoom roomId operatorId =>
    show ∃ r', (s.handleCloseRoom conv env roomId operatorId).1.redis = some r' ∧ _
    unfold handleCloseRoom
    split
    · exact ⟨r, hredis, .same rfl⟩
    · rename_i room hroom
      split_ifs with hop hfailed hrefused
      · exact ⟨r, hredis, .same rfl⟩
      · exact ⟨r, hredis, .same rfl⟩
      · exact ⟨r, hredis, .same rfl⟩
      · refine ⟨r.closeRoom room roomId env.now, ?_, .close roomId operatorId room rfl hroom
          (not_not.mp hop) (fun hdb => ?_) rfl⟩
        · show s.redis.map _ = _
          rw [hredis, Option.map_some]
        · cases hexec : env.exec with
          | failed => exact absurd ⟨hdb, hexec⟩ hfailed
          | refused => exact absurd ⟨hdb, hexec⟩ hrefused
          | done => rfl

/-- A request keeps the two sides in agreement if and only if a room that it closes has no
members. -/
theorem symmetric_next (h : s.Symmetric) {l : Env × Request} (hs : s.next conv l = some s') :
    s'.Symmetric ↔ s.ClosesDeserted conv l := by
  obtain ⟨r, hredis, hsym⟩ := h
  obtain ⟨env, req⟩ := l
  cases hs
  obtain ⟨r', hredis', hstep⟩ := setStep conv hredis env req
  have hiff : Symmetric (s.handle conv env req).1 ↔ r'.Symmetric := by
    refine ⟨?_, fun h => ⟨r', hredis', h⟩⟩
    rintro ⟨r'', hr'', h⟩
    cases hredis'.symm.trans hr''
    exact h
  rw [hiff]
  -- what the request does to the sets, and whether it closes a room
  cases req with
  | closeRoom roomId operatorId =>
    constructor
    · intro h room hroom hop hexec r'' hr''
      cases hredis.symm.trans hr''
      have hclosed : r' = r.closeRoom room roomId env.now := by
        have hhandle : (s.handleCloseRoom conv env roomId operatorId).1.redis =
            some (r.closeRoom room roomId env.now) := by
          rw [← hop, handleCloseRoom_of_creator hroom hexec]
          show s.redis.map _ = _
          rw [hredis, Option.map_some]
        exact Option.some.inj (hredis'.symm.trans hhandle)
      rw [hclosed] at h
      exact (RedisStore.symmetric_closeRoom_iff hsym room env.now).mp h
    · intro hok
      cases hstep with
      | same h => exact hsym.congr h
      | join m p h => exact h ▸ hsym.addMember m p
      | leave m p h => exact h ▸ hsym.removeMember m p
      | close m operator room hl hroom hop hexec h =>
        cases hl
        rw [h, RedisStore.symmetric_closeRoom_iff hsym]
        exact hok room hroom hop hexec r hredis
  | _ =>
    refine iff_of_true ?_ trivial
    cases hstep with
    | same h => exact hsym.congr h
    | join m p h => exact h ▸ hsym.addMember m p
    | leave m p h => exact h ▸ hsym.removeMember m p
    | close m operator room hl => cases hl

/-- A room is among a player's rooms exactly if the player is among its members, all along, in
exactly those runs in which a room that is closed has no members. -/
theorem symmetric_iff (conv : FloatConv) (hasDB : Bool) (ls : List (Env × Request)) :
    RunOk (next conv) (ClosesDeserted conv) (new hasDB (some .empty)) ls ↔
      ∀ ms t, ms <+: ls → run (next conv) (new hasDB (some .empty)) ms = some t → t.Symmetric := by
  refine runOk_iff ?_ (fun s l s' h hs => symmetric_next h hs) ⟨_, rfl, .empty⟩
  intro s l hnone
  cases hnone

/-- Player 7 makes a room, joins it and closes it. -/
def closeWithMember : List (Env × Request) :=
  [(⟨1700000000, some 1, none, .done⟩, .createRoom "lobby" 7),
    (⟨1700000001, none, none, .done⟩, .joinRoom 1 7),
    (⟨1700000002, none, none, .done⟩, .closeRoom 1 7)]

/-- The closed room stays among the player's rooms, and the player is not among its members. -/
theorem not_symmetric_closeWithMember : ∃ t r,
    run (next .amd64) (new false (some .empty)) closeWithMember = some t ∧ t.redis = some r ∧
      decimal 1 ∈ r.sets (playerRoomsKey 7) ∧ decimal 7 ∉ r.sets (roomMembersKey 1) := by
  have hsteps : (run (next .amd64) (new false (some .empty)) closeWithMember).bind (fun t =>
      t.redis.map fun r => decide (decimal 1 ∈ r.sets (playerRoomsKey 7) ∧
        decimal 7 ∉ r.sets (roomMembersKey 1))) = some true := by
    decide
  obtain ⟨t, ht, hmap⟩ := Option.bind_eq_some_iff.mp hsteps
  obtain ⟨r, hr, hdec⟩ := Option.map_eq_some_iff.mp hmap
  exact ⟨t, r, ht, hr, of_decide_eq_true hdec⟩

end ChatService

end Gmaker.Chat
