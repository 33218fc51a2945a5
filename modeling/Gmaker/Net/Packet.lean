import Gmaker.Lib.Bytes

/-!
# Gmaker.Net.Packet — the 34-byte packet header

The wire format that the C++ and the Go side share: a big-endian header of
`headerSize` bytes whose first field is the length of the whole packet, then the
payload. `encodePacket` and `parseHeader` are the two directions;
`parseHeader_encodePacket` is the round trip.
-/

namespace Gmaker.Net

open Gmaker.Lib

/-- A byte string (`Buffer`, `[]byte`). -/
abbrev Bytes := List UInt8

/-- `HEADER_SIZE`, `HeaderSize`. -/
def headerSize : ℕ := 34

/-- `MAX_PACKET_LEN`, `MaxPacketLen`: 16 MB. -/
def maxPacketLen : ℕ := 16 * 1024 * 1024

/-- `MAGIC_VALUE`, `MagicValue`. -/
def magicValue : UInt16 := 0x9D7F

/-! ## Flags -/

/-- `Flag::ENCRYPT`, `FlagEncrypt`. -/
def flagEncrypt : UInt32 := (1 : UInt32) <<< 0
/-- `Flag::RPC_REQ`, `FlagRPCReq`. -/
def flagRpcReq : UInt32 := (1 : UInt32) <<< 4
/-- `Flag::RPC_RES`, `FlagRPCRes`. -/
def flagRpcRes : UInt32 := (1 : UInt32) <<< 5
/-- `Flag::ROOM_BCAST`, `FlagRoomBcast`. -/
def flagRoomBcast : UInt32 := (1 : UInt32) <<< 8

/-- `HasFlag`. -/
def hasFlag (flags f : UInt32) : Bool := (flags &&& f) != 0

/-! ## Packets -/

/-- The fixed header. -/
structure Header where
  length : UInt32 := 0
  magic : UInt16 := magicValue
  cmdId : UInt32 := 0
  seqId : UInt32 := 0
  flags : UInt32 := 0
  userId : UInt64 := 0
  zoneId : UInt32 := 0
  serviceId : UInt32 := 0
deriving DecidableEq

/-- A header and its payload. -/
structure Packet where
  header : Header
  payload : Bytes
deriving DecidableEq

/-! ## Big-endian fields -/

def writeU16BE (v : UInt16) : Bytes := toBE 2 v.toNat
def writeU32BE (v : UInt32) : Bytes := toBE 4 v.toNat
def writeU64BE (v : UInt64) : Bytes := toBE 8 v.toNat

/-- `ReadU16BE` at offset `i`. -/
def readU16BE (p : Bytes) (i : ℕ) : UInt16 := UInt16.ofNat (ofBE ((p.drop i).take 2))
/-- `ReadU32BE` at offset `i`. -/
def readU32BE (p : Bytes) (i : ℕ) : UInt32 := UInt32.ofNat (ofBE ((p.drop i).take 4))
/-- `ReadU64BE` at offset `i`. -/
def readU64BE (p : Bytes) (i : ℕ) : UInt64 := UInt64.ofNat (ofBE ((p.drop i).take 8))

@[simp] theorem length_writeU16BE (v : UInt16) : (writeU16BE v).length = 2 := length_toBE _ _
@[simp] theorem length_writeU32BE (v : UInt32) : (writeU32BE v).length = 4 := length_toBE _ _
@[simp] theorem length_writeU64BE (v : UInt64) : (writeU64BE v).length = 8 := length_toBE _ _

/-- A field of `w` bytes is found where it was written. -/
theorem field_at {before field after : Bytes} {i w : ℕ} (hi : before.length = i)
    (hw : field.length = w) : ((before ++ (field ++ after)).drop i).take w = field := by
  rw [← hi, List.drop_left, ← hw, List.take_left]

theorem readU16BE_writeU16BE {b a : Bytes} {i : ℕ} (v : UInt16)
    (hi : b.length = i) : readU16BE (b ++ (writeU16BE v ++ a)) i = v := by
  rw [readU16BE, field_at hi (length_writeU16BE v), writeU16BE, ofBE_toBE_of_lt v.toNat_lt,
    UInt16.ofNat_toNat]

theorem readU32BE_writeU32BE {b a : Bytes} {i : ℕ} (v : UInt32)
    (hi : b.length = i) : readU32BE (b ++ (writeU32BE v ++ a)) i = v := by
  rw [readU32BE, field_at hi (length_writeU32BE v), writeU32BE, ofBE_toBE_of_lt v.toNat_lt,
    UInt32.ofNat_toNat]

theorem readU64BE_writeU64BE {b a : Bytes} {i : ℕ} (v : UInt64)
    (hi : b.length = i) : readU64BE (b ++ (writeU64BE v ++ a)) i = v := by
  rw [readU64BE, field_at hi (length_writeU64BE v), writeU64BE, ofBE_toBE_of_lt v.toNat_lt,
    UInt64.ofNat_toNat]

/-! ## The header on the wire -/

/-- The header fields in wire order. -/
def encodeHeader (h : Header) : Bytes :=
  writeU32BE h.length ++ (writeU16BE h.magic ++ (writeU32BE h.cmdId ++ (writeU32BE h.seqId ++
    (writeU32BE h.flags ++ (writeU64BE h.userId ++ (writeU32BE h.zoneId ++
      writeU32BE h.serviceId))))))

/-- `EncodePacket`: the length field is computed from the payload. -/
def encodePacket (p : Packet) : Bytes :=
  encodeHeader { p.header with length := UInt32.ofNat (headerSize + p.payload.length) } ++ p.payload

/-- The header fields of a buffer of at least `headerSize` bytes. -/
def parseHeader (p : Bytes) : Header where
  length := readU32BE p 0
  magic := readU16BE p 4
  cmdId := readU32BE p 6
  seqId := readU32BE p 10
  flags := readU32BE p 14
  userId := readU64BE p 18
  zoneId := readU32BE p 26
  serviceId := readU32BE p 30

@[simp] theorem length_encodeHeader (h : Header) : (encodeHeader h).length = headerSize := by
  simp [encodeHeader, headerSize]

/-- The header read from a buffer is the one that was written at its front. -/
theorem parseHeader_encodeHeader (h : Header) (rest : Bytes) :
    parseHeader (encodeHeader h ++ rest) = h := by
  let upToMagic := writeU32BE h.length ++ writeU16BE h.magic
  let upToSeq := upToMagic ++ (writeU32BE h.cmdId ++ writeU32BE h.seqId)
  let upToUser := upToSeq ++ (writeU32BE h.flags ++ writeU64BE h.userId)
  have hlen := fun after => readU32BE_writeU32BE (b := []) (a := after) h.length rfl
  have hmagic := fun after =>
    readU16BE_writeU16BE (b := writeU32BE h.length) (a := after) h.magic rfl
  have hcmd := fun after => readU32BE_writeU32BE (b := upToMagic) (a := after) h.cmdId rfl
  have hseq := fun after => readU32BE_writeU32BE (b := upToMagic ++ writeU32BE h.cmdId)
    (a := after) h.seqId rfl
  have hflags := fun after => readU32BE_writeU32BE (b := upToSeq) (a := after) h.flags rfl
  have huser := fun after => readU64BE_writeU64BE (b := upToSeq ++ writeU32BE h.flags)
    (a := after) h.userId rfl
  have hzone := fun after => readU32BE_writeU32BE (b := upToUser) (a := after) h.zoneId rfl
  have hservice := fun after => readU32BE_writeU32BE (b := upToUser ++ writeU32BE h.zoneId)
    (a := after) h.serviceId rfl
  simp only [upToMagic, upToSeq, upToUser, List.append_assoc, List.nil_append, List.length_append,
    List.length_nil, length_writeU16BE, length_writeU32BE, length_writeU64BE, Nat.reduceAdd]
    at hlen hmagic hcmd hseq hflags huser hzone hservice
  simp only [parseHeader, encodeHeader, List.append_assoc, hlen, hmagic, hcmd, hseq, hflags,
    huser, hzone, hservice]

/-- Decoding the header of an encoded packet gives the packet's header, with the
length of the whole packet in it. -/
theorem parseHeader_encodePacket (p : Packet) :
    parseHeader (encodePacket p) =
      { p.header with length := UInt32.ofNat (headerSize + p.payload.length) } :=
  parseHeader_encodeHeader _ _

end Gmaker.Net
