import Gmaker.Chat.RoundTrip
import Gmaker.Lib.Protowire

/-!
# Gmaker.Chat.SharedRecord — one record, two services

The chat service stores a room as JSON; `GetPlayerRooms` of the player service reads the same
key as a `ChatRoomInfo` in the wire format of protocol buffers. No byte of a JSON text is below
32, so no tag in it has a field number below 4: whatever is made of a record, it has no id, no
name and no creator. `not_mem_getPlayerRooms` says that no room comes through.
-/

namespace Gmaker.Chat

open Gmaker.Lib Gmaker.Lib.Protowire

/-! ## The reader -/

/-- The UTF-8 bytes of a text. -/
def utf8 (s : String) : List UInt8 := s.toList.flatMap String.utf8EncodeChar

/-- The text of UTF-8 bytes. -/
def ofUtf8 (bs : List UInt8) : Option String := String.fromUTF8? ⟨bs.toArray⟩

/-- A field whose value is a varint. -/
def varintField (bs : List UInt8) (f : ℕ → ChatRoomInfo) : Option (ChatRoomInfo × List UInt8) :=
  (consumeVarint bs).map fun r => (f r.1, r.2)

/-- A field of a `ChatRoomInfo`, and what is left behind it. What is unknown, or of another wire
type, is skipped. -/
def readField (room : ChatRoomInfo) (num typ : ℕ) (bs : List UInt8) :
    Option (ChatRoomInfo × List UInt8) :=
  match num, typ with
  | 1, 0 => varintField bs fun n => { room with roomId := .ofNat n }
  | 2, 2 => (consumeBytes bs).bind fun r => (ofUtf8 r.1).map fun s => ({ room with name := s }, r.2)
  | 3, 0 => varintField bs fun n => { room with creatorId := .ofNat n }
  | 4, 0 => varintField bs fun n => { room with status := .ofNat n }
  | 5, 0 => varintField bs fun n => { room with createdAt := .ofNat n }
  | 6, 0 => varintField bs fun n => { room with closedAt := .ofNat n }
  | num, typ => (consumeFieldValue num typ bs).map fun rest => (room, rest)

/-- `MaxValidNumber`. -/
def maxValidNumber : ℕ := 2 ^ 29 - 1

/-- The fields of a message up to its end, one for a unit of fuel. -/
def readFields : ℕ → ChatRoomInfo → List UInt8 → Option ChatRoomInfo
  | _, room, [] => some room
  | 0, _, _ => none
  | fuel + 1, room, b :: bs =>
    (consumeTag (b :: bs)).bind fun (num, typ, rest) =>
      -- a group that was not begun is not ended either
      if num < 1 ∨ maxValidNumber < num ∨ typ = 4 then none
      else (readField room num typ rest).bind fun r => readFields fuel r.1 r.2

/-- `proto.Unmarshal` into a `ChatRoomInfo`. -/
def unmarshalRoom (text : String) : Option ChatRoomInfo :=
  readFields (utf8 text).length ⟨0, "", 0, 0, 0, 0⟩ (utf8 text)

/-- What `GetPlayerRooms` makes of the record of one room. -/
def playerRoom (r : RedisStore) (rid : UInt64) : Option ChatRoomInfo :=
  if rid = 0 then none
  else (r.strings (roomInfoKey rid)).bind fun infoStr =>
    if infoStr = "" then none else unmarshalRoom infoStr

/-- `ParseUint`, with its error left out: what is no number is 0, what is too large the largest. -/
def parseRoomID (s : String) : UInt64 :=
  match parseDigits s.toList with
  | none => 0
  | some n => if n < 2 ^ 64 then .ofNat n else .ofNat (2 ^ 64 - 1)

/-- `GetPlayerRooms`, for the members of the player's set in some order. -/
def getPlayerRooms (r : RedisStore) (roomIDs : List String) : List ChatRoomInfo :=
  roomIDs.filterMap fun ridStr => playerRoom r (parseRoomID ridStr)

/-! ## What is left of a message -/

variable {room room' : ChatRoomInfo} {num typ fuel : ℕ} {bs rest : List UInt8}

theorem varintField_cases {f : ℕ → ChatRoomInfo} (h : varintField bs f = some (room', rest)) :
    rest <:+ bs ∧ ∃ n, room' = f n := by
  obtain ⟨r, hr, heq⟩ := Option.map_eq_some_iff.mp h
  cases heq
  exact ⟨(suffix_of_consumeVarintUpTo hr).1, r.1, rfl⟩

theorem suffix_of_readField (h : readField room num typ bs = some (room', rest)) : rest <:+ bs := by
  unfold readField at h
  split at h
  · exact (varintField_cases h).1
  · obtain ⟨r, hr, hmap⟩ := Option.bind_eq_some_iff.mp h
    obtain ⟨name, -, heq⟩ := Option.map_eq_some_iff.mp hmap
    cases heq
    exact suffix_of_consumeBytes hr
  · exact (varintField_cases h).1
  · exact (varintField_cases h).1
  · exact (varintField_cases h).1
  · exact (varintField_cases h).1
  · obtain ⟨r, hr, heq⟩ := Option.map_eq_some_iff.mp h
    cases heq
    exact suffix_of_consumeFieldValue hr

/-- A unit of fuel for each byte is enough: more changes nothing. -/
theorem readFields_fuel (hfuel : bs.length ≤ fuel) :
    readFields (fuel + 1) room bs = readFields fuel room bs := by
  induction fuel generalizing room bs with
  | zero =>
    cases List.length_eq_zero_iff.mp (Nat.le_zero.mp hfuel)
    rfl
  | succ fuel ih =>
    cases bs with
    | nil => rfl
    | cons b bs =>
      rw [readFields, readFields]
      refine Option.bind_congr fun ⟨num, typ, rest⟩ htag => ?_
      have hlt := (suffix_of_consumeTag htag).2
      dsimp only
      split_ifs
      · rfl
      · refine Option.bind_congr fun r hr => ih ?_
        have hle := (suffix_of_readField hr).length_le
        rw [List.length_cons] at hlt hfuel
        omega

/-! ## Texts without small bytes -/

/-- Fields from 4 on leave the id, the name and the creator alone. -/
theorem readField_of_four_le (hnum : 4 ≤ num) (h : readField room num typ bs = some (room', rest)) :
    room'.roomId = room.roomId ∧ room'.name = room.name ∧ room'.creatorId = room.creatorId := by
  unfold readField at h
  split at h
  · omega
  · omega
  · omega
  · obtain ⟨-, n, rfl⟩ := varintField_cases h
    exact ⟨rfl, rfl, rfl⟩
  · obtain ⟨-, n, rfl⟩ := varintField_cases h
    exact ⟨rfl, rfl, rfl⟩
  · obtain ⟨-, n, rfl⟩ := varintField_cases h
    exact ⟨rfl, rfl, rfl⟩
  · obtain ⟨r, -, heq⟩ := Option.map_eq_some_iff.mp h
    cases heq
    exact ⟨rfl, rfl, rfl⟩

/-- Of bytes from 32 on no id, no name and no creator is read. -/
theorem readFields_of_large (hbytes : ∀ b ∈ bs, 32 ≤ b.toNat)
    (h : readFields fuel room bs = some room') :
    room'.roomId = room.roomId ∧ room'.name = room.name ∧ room'.creatorId = room.creatorId := by
  induction fuel generalizing room bs with
  | zero =>
    cases bs with
    | nil =>
      cases h
      exact ⟨rfl, rfl, rfl⟩
    | cons b bs => cases h
  | succ fuel ih =>
    cases bs with
    | nil =>
      cases h
      exact ⟨rfl, rfl, rfl⟩
    | cons b bs =>
      rw [readFields] at h
      obtain ⟨⟨num, typ, rest⟩, htag, h⟩ := Option.bind_eq_some_iff.mp h
      dsimp only at h
      split_ifs at h
      obtain ⟨⟨next, rest'⟩, hfield, hrest⟩ := Option.bind_eq_some_iff.mp h
      have hsuffix := (suffix_of_readField hfield).trans (suffix_of_consumeTag htag).1
      obtain ⟨hid, hname, hcreator⟩ :=
        readField_of_four_le (four_le_of_consumeTag hbytes htag) hfield
      obtain ⟨hid', hname', hcreator'⟩ := ih (fun c hc => hbytes c (hsuffix.subset hc)) hrest
      exact ⟨hid'.trans hid, hname'.trans hname, hcreator'.trans hcreator⟩

/-- The bytes of a character that is no control character. -/
theorem le_of_mem_utf8EncodeChar {c : Char} (hc : Json.Printable c) {b : UInt8}
    (hb : b ∈ String.utf8EncodeChar c) : 32 ≤ b.toNat := by
  have hval : 32 ≤ c.val.toNat := hc
  unfold String.utf8EncodeChar at hb
  dsimp only at hb
  split_ifs at hb
  all_goals
    simp only [List.mem_cons, List.not_mem_nil, or_false] at hb
  · subst hb
    rw [UInt8.toNat_ofNat']
    omega
  · rcases hb with rfl | rfl
    all_goals
      rw [UInt8.toNat_ofNat']
      omega
  · rcases hb with rfl | rfl | rfl
    all_goals
      rw [UInt8.toNat_ofNat']
      omega
  · rcases hb with rfl | rfl | rfl | rfl
    all_goals
      rw [UInt8.toNat_ofNat']
      omega

/-- What is made of a record has no id, no name and no creator. -/
theorem unmarshalRoom_text (stored : StoredRoom) (h : unmarshalRoom stored.text = some room) :
    room.roomId = 0 ∧ room.name = "" ∧ room.creatorId = 0 := by
  refine readFields_of_large (fun b hb => ?_) h
  obtain ⟨c, hc, hb⟩ := List.mem_flatMap.mp hb
  exact le_of_mem_utf8EncodeChar (Json.printable_marshal hc) hb

/-! ## Every record -/

/-- What Redis holds after these rooms were stored in order. -/
def storeAll (rooms : List StoredRoom) : RedisStore :=
  rooms.foldl (fun r room => r.set (roomInfoKey room.roomId) room.text) .empty

theorem exists_of_strings_storeAll {rooms : List StoredRoom} {key text : String}
    (h : (storeAll rooms).strings key = some text) : ∃ room ∈ rooms, text = room.text := by
  induction rooms using List.reverseRecOn with
  | nil => cases h
  | append_singleton rooms room ih =>
    unfold storeAll at h ih
    rw [List.foldl_concat, RedisStore.strings_set] at h
    split_ifs at h
    · cases h
      exact ⟨room, List.mem_append_right _ List.mem_cons_self, rfl⟩
    · obtain ⟨other, hother, heq⟩ := ih h
      exact ⟨other, List.mem_append_left _ hother, heq⟩

theorem playerRoom_storeAll {rooms : List StoredRoom} {rid : UInt64}
    (h : playerRoom (storeAll rooms) rid = some room) :
    rid ≠ 0 ∧ room.roomId = 0 ∧ room.name = "" ∧ room.creatorId = 0 := by
  unfold playerRoom at h
  split_ifs at h with hzero
  obtain ⟨text, htext, hif⟩ := Option.bind_eq_some_iff.mp h
  split_ifs at hif
  obtain ⟨stored, -, rfl⟩ := exists_of_strings_storeAll htext
  exact ⟨hzero, unmarshalRoom_text stored hif⟩

/-- Whatever rooms the chat service has stored: of none the player service reads the record as
that room, and no room on a player's list has an id, a name or a creator. -/
theorem not_mem_getPlayerRooms (rooms : List StoredRoom) (roomIDs : List String) :
    (∀ stored ∈ rooms, playerRoom (storeAll rooms) stored.roomId ≠ some stored.info) ∧
      ∀ info ∈ getPlayerRooms (storeAll rooms) roomIDs,
        info.roomId = 0 ∧ info.name = "" ∧ info.creatorId = 0 := by
  constructor
  · intro stored _ h
    obtain ⟨hne, hid, -⟩ := playerRoom_storeAll h
    exact hne hid
  · intro info hinfo
    obtain ⟨ridStr, -, hroom⟩ := List.mem_filterMap.mp hinfo
    exact (playerRoom_storeAll hroom).2

/-- Player 7 makes a room and joins it, and has no rooms on the list. -/
theorem getPlayerRooms_lobby : ∃ r,
    ((ChatService.new false (some .empty)).handleCreateRoom ⟨1700000000, some 1, none, .done⟩
      "lobby" 7).1.redis = some r ∧
      decimal 1 ∈ (r.addMember 1 7).sets (playerRoomsKey 7) ∧
      getPlayerRooms (r.addMember 1 7) [decimal 1] = [] := by
  refine ⟨_, rfl, ?_⟩
  have h : decide (decimal 1 ∈ ((RedisStore.set .empty (roomInfoKey 1)
      (StoredRoom.text ⟨1, "lobby", 7, 1700000000, none⟩)).addMember 1 7).sets (playerRoomsKey 7) ∧
      getPlayerRooms ((RedisStore.set .empty (roomInfoKey 1)
        (StoredRoom.text ⟨1, "lobby", 7, 1700000000, none⟩)).addMember 1 7) [decimal 1] = []) =
      true := by
    decide
  exact of_decide_eq_true h

end Gmaker.Chat
