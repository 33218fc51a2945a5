import Gmaker.Lib.Double
import Gmaker.Lib.Json

/-!
# Gmaker.Chat.Room — the record of a room

What the chat service writes to Redis for a room is a JSON object made from a map, without the
room's id, and what it reads back goes through a map whose numbers are doubles. A message is
written and read as a structure, whose numbers stay whole. `StoredRoom.readInfo_text` says what
becomes of a record: it comes back as it was, but for numbers that are no doubles.
-/

namespace Gmaker.Chat

open Gmaker.Lib

/-! ## Rooms and messages -/

/-- `chatpb.ChatRoomInfo`. -/
structure ChatRoomInfo where
  roomId : UInt64
  name : String
  creatorId : UInt64
  /-- 0 is active, 1 is closed. -/
  status : UInt32
  createdAt : UInt64
  closedAt : UInt64
deriving DecidableEq

/-- `chatpb.ChatMessage`. -/
structure ChatMessage where
  msgId : UInt64
  roomId : UInt64
  senderId : UInt64
  senderName : String
  content : String
  sentAt : UInt64
deriving DecidableEq

/-! ## Numbers that go through doubles -/

/-- What a conversion to `uint64` makes of the double 2^64 is up to the machine; to write it and
to read it again changes nothing more. -/
structure FloatConv where
  top : UInt64
  stable : Representable 53 top.toNat ∨ 2 ^ 64 - 2 ^ 10 ≤ top.toNat

namespace FloatConv

/-- A machine on which 2^64 becomes 2^63. -/
def amd64 : FloatConv := ⟨2 ^ 63, by decide +kernel⟩

variable {conv : FloatConv} {n : UInt64}

/-- `uint64(v)` for a whole double. -/
def toUint64 (conv : FloatConv) (v : ℕ) : UInt64 := if v < 2 ^ 64 then .ofNat v else conv.top

/-- A number that was written in decimal, read as a `float64` and converted to `uint64`. -/
def through (conv : FloatConv) (n : ℕ) : UInt64 := conv.toUint64 (roundBits 53 n)

/-- A number that comes back as it was. -/
def Survives (conv : FloatConv) (n : UInt64) : Prop :=
  Representable 53 n.toNat ∨ 2 ^ 64 - 2 ^ 10 ≤ n.toNat ∧ n = conv.top

instance (conv : FloatConv) (n : UInt64) : Decidable (conv.Survives n) := by
  unfold Survives
  infer_instance

/-- The highest numbers lie in the last binade, in units of 2048. -/
theorem roundBits_high {n : ℕ} (hn : n < 2 ^ 64) (hge : 2 ^ 63 ≤ n) :
    roundBits 53 n =
      (if 2 * (n % 2048) < 2048 ∨ 2 * (n % 2048) = 2048 ∧ n / 2048 % 2 = 0 then n / 2048
        else n / 2048 + 1) * 2048 := by
  have hsize : n.size = 64 := le_antisymm (Nat.size_le.mpr hn) (Nat.lt_size.mpr hge)
  unfold roundBits excess
  rw [hsize]
  norm_num

/-- What becomes 2^64 is within half a unit of it. -/
theorem roundBits_of_ge {n : ℕ} (hn : n < 2 ^ 64) (hge : 2 ^ 64 - 2 ^ 10 ≤ n) :
    roundBits 53 n = 2 ^ 64 := by
  rw [roundBits_high hn (by omega), if_neg (by omega)]
  omega

theorem roundBits_of_lt {n : ℕ} (hlt : n < 2 ^ 64 - 2 ^ 10) : roundBits 53 n < 2 ^ 64 := by
  rcases Nat.lt_or_ge n (2 ^ 63) with hlow | hhigh
  · -- below the last binade the carry stays below 2^64
    have hsize : n.size ≤ 63 := Nat.size_le.mpr hlow
    have hq := div_excess_lt 53 n
    have hunit : 2 ^ excess 53 n ≤ 2 ^ 10 := Nat.pow_le_pow_right (by decide) (by unfold excess; omega)
    have hbound : (n / 2 ^ excess 53 n + 1) * 2 ^ excess 53 n ≤ 2 ^ 53 * 2 ^ 10 :=
      Nat.mul_le_mul hq hunit
    rcases roundBits_cases 53 n with h | ⟨h, -⟩
    · rw [h]
      have hle : n / 2 ^ excess 53 n * 2 ^ excess 53 n ≤ n := Nat.div_mul_le_self n _
      omega
    · omega
  · rw [roundBits_high (by omega) hhigh]
    split_ifs <;> omega

theorem through_of_ge (hn : 2 ^ 64 - 2 ^ 10 ≤ n.toNat) : conv.through n.toNat = conv.top := by
  unfold through toUint64
  rw [roundBits_of_ge n.toNat_lt hn, if_neg (lt_irrefl _)]

theorem through_of_lt (hn : n.toNat < 2 ^ 64 - 2 ^ 10) :
    (conv.through n.toNat).toNat = roundBits 53 n.toNat := by
  have hlt := roundBits_of_lt hn
  unfold through toUint64
  rw [if_pos hlt, UInt64.toNat_ofNat', Nat.mod_eq_of_lt hlt]

/-- Exactly these numbers come back as they were. -/
theorem through_eq_iff : conv.through n.toNat = n ↔ conv.Survives n := by
  unfold Survives
  rw [← roundBits_eq_self_iff (by decide)]
  rcases Nat.lt_or_ge n.toNat (2 ^ 64 - 2 ^ 10) with hlt | hge
  · rw [← UInt64.toNat_inj, through_of_lt hlt]
    exact ⟨.inl, fun h => h.resolve_right fun h' => absurd h'.1 hlt.not_ge⟩
  · rw [through_of_ge hge]
    refine ⟨fun h => .inr ⟨hge, h.symm⟩, ?_⟩
    rintro (h | ⟨-, h⟩)
    · have hn := n.toNat_lt
      rw [roundBits_of_ge hn hge] at h
      omega
    · exact h.symm

/-- What came back once comes back as it is from then on. -/
theorem survives_through (conv : FloatConv) (n : UInt64) :
    conv.Survives (conv.through n.toNat) := by
  rcases Nat.lt_or_ge n.toNat (2 ^ 64 - 2 ^ 10) with hlt | hge
  · left
    rw [through_of_lt hlt]
    exact representable_roundBits (by decide) _
  · rw [through_of_ge hge]
    exact conv.stable.imp_right fun h => ⟨h, rfl⟩

theorem through_through (conv : FloatConv) (n : UInt64) :
    conv.through (conv.through n.toNat).toNat = conv.through n.toNat :=
  through_eq_iff.mpr (survives_through conv n)

end FloatConv

/-! ## The record of a room -/

/-- A room as it was last stored: made, or closed at some time. -/
structure StoredRoom where
  roomId : UInt64
  name : String
  creatorId : UInt64
  createdAt : UInt64
  closedAt : Option UInt64
deriving DecidableEq

/-- The keys of a map are written in order. -/
def numField (name : String) (n : UInt64) : String × Json.Value := (name, .num n.toNat)

namespace StoredRoom

/-- The room that the record is of. -/
def info (r : StoredRoom) : ChatRoomInfo where
  roomId := r.roomId
  name := r.name
  creatorId := r.creatorId
  status := if r.closedAt.isSome then 1 else 0
  createdAt := r.createdAt
  closedAt := r.closedAt.getD 0

/-- The map that `json.Marshal` is given, with its keys in order. -/
def fields (r : StoredRoom) : Json.Object :=
  match r.closedAt with
  | none => [numField "created_at" r.createdAt, numField "creator_id" r.creatorId,
      ("name", .str r.name), ("status", .num 0)]
  | some closedAt => [numField "closed_at" closedAt, numField "created_at" r.createdAt,
      numField "creator_id" r.creatorId, ("name", .str r.name), ("status", .num 1)]

/-- What is stored. -/
def text (r : StoredRoom) : String := Json.marshal r.fields

end StoredRoom

/-- `info[key].(string)`, or the zero value. -/
def stringAt (info : Json.Object) (key : String) : String :=
  match info.lookup key with
  | some (.str s) => s
  | _ => ""

/-- `info[key].(float64)` as a `uint64`, or the zero value. -/
def uintAt (conv : FloatConv) (info : Json.Object) (key : String) : UInt64 :=
  match info.lookup key with
  | some (.num n) => conv.through n
  | _ => 0

/-- `info[key].(float64)` as a `uint32`, or the zero value; the status is small. -/
def statusAt (info : Json.Object) (key : String) : UInt32 :=
  match info.lookup key with
  | some (.num n) => .ofNat (roundBits 53 n)
  | _ => 0

/-- What `GetRoom` makes of a text. -/
def readInfo (conv : FloatConv) (roomId : UInt64) (data : String) : Option ChatRoomInfo :=
  (Json.unmarshal data).map fun info =>
    { roomId := roomId
      name := stringAt info "name"
      creatorId := uintAt conv info "creator_id"
      status := statusAt info "status"
      createdAt := uintAt conv info "created_at"
      closedAt := uintAt conv info "closed_at" }

/-- A room whose numbers have gone through doubles. -/
def ChatRoomInfo.through (conv : FloatConv) (r : ChatRoomInfo) : ChatRoomInfo :=
  { r with
    creatorId := conv.through r.creatorId.toNat
    createdAt := conv.through r.createdAt.toNat
    closedAt := conv.through r.closedAt.toNat }

/-- The room stays as it is exactly if its numbers do. -/
theorem ChatRoomInfo.through_eq_self_iff {conv : FloatConv} {r : ChatRoomInfo} :
    r.through conv = r ↔
      conv.Survives r.creatorId ∧ conv.Survives r.createdAt ∧ conv.Survives r.closedAt := by
  rw [← FloatConv.through_eq_iff, ← FloatConv.through_eq_iff, ← FloatConv.through_eq_iff]
  obtain ⟨roomId, name, creatorId, status, createdAt, closedAt⟩ := r
  unfold ChatRoomInfo.through
  simp only [ChatRoomInfo.mk.injEq, true_and]

theorem FloatConv.survives_zero (conv : FloatConv) : conv.Survives 0 :=
  .inl ⟨0, 0, by decide, rfl⟩

@[simp] theorem FloatConv.through_zero (conv : FloatConv) : conv.through 0 = 0 :=
  FloatConv.through_eq_iff.mpr conv.survives_zero

/-- A record is read as the room with its numbers gone through doubles. -/
theorem StoredRoom.readInfo_text (conv : FloatConv) (r : StoredRoom) :
    readInfo conv r.roomId r.text = some (r.info.through conv) := by
  unfold readInfo StoredRoom.text
  rw [Json.unmarshal_marshal, Option.map_some]
  obtain ⟨roomId, name, creatorId, createdAt, closedAt⟩ := r
  have hzero : roundBits 53 0 = 0 := by decide
  have hone : roundBits 53 1 = 1 := by decide
  cases closedAt with
  | none =>
    simp [StoredRoom.fields, StoredRoom.info, ChatRoomInfo.through, numField, stringAt, uintAt,
      statusAt, List.lookup_cons, hzero]
  | some closedAt =>
    simp [StoredRoom.fields, StoredRoom.info, ChatRoomInfo.through, numField, stringAt, uintAt,
      statusAt, List.lookup_cons, hone]

/-! ## The text of a message -/

/-- `omitempty`: what is zero or empty is left out. -/
def omitEmpty (o : Json.Object) : Json.Object :=
  o.filter fun f => f.2 ≠ .num 0 ∧ f.2 ≠ .str ""

/-- What `json.Marshal` is given for a message. -/
def ChatMessage.fields (m : ChatMessage) : Json.Object :=
  [numField "msg_id" m.msgId, numField "room_id" m.roomId, numField "sender_id" m.senderId,
    ("sender_name", .str m.senderName), ("content", .str m.content), numField "sent_at" m.sentAt]

def ChatMessage.text (m : ChatMessage) : String := Json.marshal (omitEmpty m.fields)

/-- A field of type `uint64`; what is not there is zero. -/
def uint64Field (o : Json.Object) (key : String) : Option UInt64 :=
  match o.lookup key with
  | none => some 0
  | some (.num n) => if n < 2 ^ 64 then some (.ofNat n) else none
  | some (.str _) => none

/-- A field of type `string`; what is not there is empty. -/
def stringField (o : Json.Object) (key : String) : Option String :=
  match o.lookup key with
  | none => some ""
  | some (.str s) => some s
  | some (.num _) => none

/-- What `json.Unmarshal` makes of the text of a message. -/
def readMessage (text : String) : Option ChatMessage :=
  (Json.unmarshal text).bind fun o => do
    return {
      msgId := ← uint64Field o "msg_id"
      roomId := ← uint64Field o "room_id"
      senderId := ← uint64Field o "sender_id"
      senderName := ← stringField o "sender_name"
      content := ← stringField o "content"
      sentAt := ← uint64Field o "sent_at" }

theorem lookup_omitEmpty {o : Json.Object} (hkeys : (o.map Prod.fst).Nodup) (key : String) :
    (omitEmpty o).lookup key = (o.lookup key).filter fun v => v ≠ .num 0 ∧ v ≠ .str "" := by
  induction o with
  | nil => rfl
  | cons f o ih =>
    obtain ⟨name, v⟩ := f
    obtain ⟨hname, hrest⟩ := List.nodup_cons.mp hkeys
    unfold omitEmpty at ih ⊢
    rw [List.lookup_cons, List.filter_cons]
    by_cases hkey : key = name
    · subst hkey
      rw [beq_self_eq_true]
      split_ifs with hv
      · rw [List.lookup_cons, beq_self_eq_true]
        exact (if_pos hv).symm
      · -- the name is not there again
        have hnone : o.lookup key = none := by
          rw [List.lookup_eq_none_iff]
          intro p hp
          have hne : key ≠ p.1 := fun h => hname (List.mem_map.mpr ⟨p, hp, h.symm⟩)
          simpa using hne
        rw [ih hrest, hnone]
        exact (if_neg hv).symm
    · rw [beq_false_of_ne hkey]
      split_ifs with hv
      · rw [List.lookup_cons, beq_false_of_ne hkey]
        exact ih hrest
      · exact ih hrest

theorem uint64Field_omitEmpty {o : Json.Object} (hkeys : (o.map Prod.fst).Nodup) {key : String}
    {n : UInt64} (h : o.lookup key = some (.num n.toNat)) :
    uint64Field (omitEmpty o) key = some n := by
  unfold uint64Field
  rw [lookup_omitEmpty hkeys, h]
  by_cases hzero : n = 0
  · subst hzero
    rfl
  · have hne : n.toNat ≠ 0 := fun h => hzero (UInt64.toNat_inj.mp h)
    simp [Option.filter, hne, n.toNat_lt]

theorem stringField_omitEmpty {o : Json.Object} (hkeys : (o.map Prod.fst).Nodup) {key s : String}
    (h : o.lookup key = some (.str s)) : stringField (omitEmpty o) key = some s := by
  unfold stringField
  rw [lookup_omitEmpty hkeys, h]
  by_cases hempty : s = ""
  · subst hempty
    rfl
  · simp [Option.filter, hempty]

/-- A message is read as it was written. -/
theorem ChatMessage.readMessage_text (m : ChatMessage) : readMessage m.text = some m := by
  have hkeys : (m.fields.map Prod.fst).Nodup := by
    show ["msg_id", "room_id", "sender_id", "sender_name", "content", "sent_at"].Nodup
    decide
  unfold readMessage ChatMessage.text
  rw [Json.unmarshal_marshal, Option.bind_some,
    uint64Field_omitEmpty hkeys (n := m.msgId) rfl, uint64Field_omitEmpty hkeys (n := m.roomId) rfl,
    uint64Field_omitEmpty hkeys (n := m.senderId) rfl, stringField_omitEmpty hkeys (s := m.senderName) rfl,
    stringField_omitEmpty hkeys (s := m.content) rfl, uint64Field_omitEmpty hkeys (n := m.sentAt) rfl]
  rfl

end Gmaker.Chat
