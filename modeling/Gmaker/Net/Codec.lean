import Gmaker.Lib.Ring
import Gmaker.Net.TcpStream

/-!
# Gmaker.Net.Codec — one wire format in C++ and in Go

Both sides write the header by hand, field by field at fixed offsets into a fresh
buffer; C++ takes the bytes of a field apart by shifts. Both encoders are shown equal
to `encodePacket`, which puts the fields one after the other, and both decoders to
accept exactly what it produces (`codec_agrees`).
-/

namespace Gmaker.Net

open Gmaker.Lib

/-! ## Writing at an offset -/

/-- The next field of a fresh buffer. -/
theorem writeAt_fresh {b bs : Bytes} {i n : ℕ} (hi : b.length = i) :
    writeAt (b ++ List.replicate (bs.length + n) 0) i bs = (b ++ bs) ++ List.replicate n 0 := by
  unfold writeAt
  rw [← hi, List.take_left, List.drop_append, List.drop_replicate, Nat.add_sub_cancel_left,
    Nat.add_sub_cancel_left, List.drop_eq_nil_of_le (Nat.le_add_right _ _), List.nil_append,
    List.append_assoc]

/-! ## The C++ side -/

namespace Cpp

/-- `WriteU16BE`. -/
def writeU16BE (v : UInt16) : Bytes := [(v >>> 8).toUInt8, v.toUInt8]

/-- `WriteU32BE`. -/
def writeU32BE (v : UInt32) : Bytes :=
  [(v >>> 24).toUInt8, (v >>> 16).toUInt8, (v >>> 8).toUInt8, v.toUInt8]

/-- `WriteU64BE`. -/
def writeU64BE (v : UInt64) : Bytes :=
  [(v >>> 56).toUInt8, (v >>> 48).toUInt8, (v >>> 40).toUInt8, (v >>> 32).toUInt8,
    (v >>> 24).toUInt8, (v >>> 16).toUInt8, (v >>> 8).toUInt8, v.toUInt8]

/-- `EncodePacket`. -/
def encodePacket (pkt : Packet) : Bytes :=
  let payloadSize := pkt.payload.length
  let buf : Bytes := List.replicate (headerSize + payloadSize) 0
  let totalLen := UInt32.ofNat headerSize + UInt32.ofNat payloadSize
  let buf := writeAt buf 0 (writeU32BE totalLen)
  let buf := writeAt buf 4 (writeU16BE pkt.header.magic)
  let buf := writeAt buf 6 (writeU32BE pkt.header.cmdId)
  let buf := writeAt buf 10 (writeU32BE pkt.header.seqId)
  let buf := writeAt buf 14 (writeU32BE pkt.header.flags)
  let buf := writeAt buf 18 (writeU64BE pkt.header.userId)
  let buf := writeAt buf 26 (writeU32BE pkt.header.zoneId)
  let buf := writeAt buf 30 (writeU32BE pkt.header.serviceId)
  if 0 < payloadSize then writeAt buf headerSize pkt.payload else buf

/-- Byte `i` of the buffer. -/
def byteAt (p : Bytes) (i : ℕ) : UInt8 := p.getD i 0

/-- `ReadU16BE`. -/
def readU16BE (p : Bytes) (i : ℕ) : UInt16 :=
  (byteAt p i).toUInt16 <<< 8 ||| (byteAt p (i + 1)).toUInt16

/-- `ReadU32BE`. -/
def readU32BE (p : Bytes) (i : ℕ) : UInt32 :=
  (byteAt p i).toUInt32 <<< 24 ||| (byteAt p (i + 1)).toUInt32 <<< 16 |||
    (byteAt p (i + 2)).toUInt32 <<< 8 ||| (byteAt p (i + 3)).toUInt32

/-- `ReadU64BE`. -/
def readU64BE (p : Bytes) (i : ℕ) : UInt64 :=
  (byteAt p i).toUInt64 <<< 56 ||| (byteAt p (i + 1)).toUInt64 <<< 48 |||
    (byteAt p (i + 2)).toUInt64 <<< 40 ||| (byteAt p (i + 3)).toUInt64 <<< 32 |||
    (byteAt p (i + 4)).toUInt64 <<< 24 ||| (byteAt p (i + 5)).toUInt64 <<< 16 |||
    (byteAt p (i + 6)).toUInt64 <<< 8 ||| (byteAt p (i + 7)).toUInt64

/-- `DecodeHeader`, of a buffer of at least `HEADER_SIZE` bytes. -/
def decodeHeader (data : Bytes) : Header where
  length := readU32BE data 0
  magic := readU16BE data 4
  cmdId := readU32BE data 6
  seqId := readU32BE data 10
  flags := readU32BE data 14
  userId := readU64BE data 18
  zoneId := readU32BE data 26
  serviceId := readU32BE data 30

/-- `DecodePacket`. -/
def decodePacket (data : Bytes) : Option Packet :=
  if data.length < headerSize ∨ maxPacketLen < data.length then none
  else
    let h := decodeHeader data
    if h.magic ≠ magicValue ∨ h.length.toNat ≠ data.length then none
    else if h.length.toNat < headerSize ∨ maxPacketLen < h.length.toNat then none
    else some { header := h, payload := data.drop headerSize }

/-! ### Bytes by shifts -/

theorem writeU16BE_eq (v : UInt16) : writeU16BE v = Net.writeU16BE v := by
  simp only [writeU16BE, Net.writeU16BE, toBE, List.cons.injEq, and_true, ← UInt8.toNat_inj]
  refine ⟨?_, ?_⟩
  · simp [Nat.shiftRight_eq_div_pow]
  · simp

theorem writeU32BE_eq (v : UInt32) : writeU32BE v = Net.writeU32BE v := by
  simp only [writeU32BE, Net.writeU32BE, toBE, List.cons.injEq, and_true, ← UInt8.toNat_inj]
  refine ⟨?_, ?_, ?_, ?_⟩
  · simp [Nat.shiftRight_eq_div_pow]
  · simp [Nat.shiftRight_eq_div_pow]
  · simp [Nat.shiftRight_eq_div_pow]
  · simp

theorem writeU64BE_eq (v : UInt64) : writeU64BE v = Net.writeU64BE v := by
  simp only [writeU64BE, Net.writeU64BE, toBE, List.cons.injEq, and_true, ← UInt8.toNat_inj]
  refine ⟨?_, ?_, ?_, ?_, ?_, ?_, ?_, ?_⟩
  · simp [Nat.shiftRight_eq_div_pow]
  · simp [Nat.shiftRight_eq_div_pow]
  · simp [Nat.shiftRight_eq_div_pow]
  · simp [Nat.shiftRight_eq_div_pow]
  · simp [Nat.shiftRight_eq_div_pow]
  · simp [Nat.shiftRight_eq_div_pow]
  · simp [Nat.shiftRight_eq_div_pow]
  · simp

/-- The first of the bytes is shifted to the top. -/
theorem ofBE_cons_or (b : UInt8) (bs : Bytes) :
    ofBE (b :: bs) = b.toNat <<< (8 * bs.length) ||| ofBE bs := by
  have hlt : ofBE bs < 2 ^ (8 * bs.length) := by
    rw [pow_mul]
    exact ofBE_lt bs
  rw [ofBE, ← Nat.shiftLeft_add_eq_or_of_lt hlt, Nat.shiftLeft_eq, pow_mul]
  rfl

/-- A byte is not cut off when it is shifted within the width. -/
theorem byte_shiftLeft_mod (b : UInt8) {k w m : ℕ} (hm : m = 2 ^ w) (hk : 8 + k ≤ w) :
    b.toNat <<< k % m = b.toNat <<< k := by
  have hb : b.toNat < 2 ^ 8 := b.toNat_lt
  rw [hm]
  refine Nat.mod_eq_of_lt ?_
  calc b.toNat <<< k = b.toNat * 2 ^ k := Nat.shiftLeft_eq _ _
    _ < 2 ^ 8 * 2 ^ k := Nat.mul_lt_mul_of_pos_right hb (Nat.two_pow_pos k)
    _ = 2 ^ (8 + k) := (pow_add 2 8 k).symm
    _ ≤ 2 ^ w := Nat.pow_le_pow_right (by decide) hk

/-- The bytes from an offset on, one by one. -/
theorem take_succ_drop {p : Bytes} {i n : ℕ} (hlen : i + (n + 1) ≤ p.length) :
    (p.drop i).take (n + 1) = byteAt p i :: (p.drop (i + 1)).take n := by
  have hi : i < p.length := by omega
  rw [List.drop_eq_getElem_cons hi, List.take_succ_cons, byteAt, List.getD_eq_getElem _ _ hi]

theorem readU16BE_eq {p : Bytes} {i : ℕ} (hlen : i + 2 ≤ p.length) :
    readU16BE p i = Net.readU16BE p i := by
  rw [Net.readU16BE, take_succ_drop hlen, take_succ_drop (by omega), List.take_zero,
    ofBE_cons_or, ofBE_cons_or]
  apply UInt16.toNat_inj.mp
  simp [readU16BE, ofBE]

theorem readU32BE_eq {p : Bytes} {i : ℕ} (hlen : i + 4 ≤ p.length) :
    readU32BE p i = Net.readU32BE p i := by
  have hlt := ofBE_lt ((p.drop i).take 4)
  have h4 : ((p.drop i).take 4).length = 4 := by
    rw [List.length_take, List.length_drop]
    omega
  rw [h4] at hlt
  apply UInt32.toNat_inj.mp
  rw [Net.readU32BE, UInt32.toNat_ofNat_of_lt' hlt, take_succ_drop hlen, take_succ_drop (by omega),
    take_succ_drop (by omega), take_succ_drop (by omega), List.take_zero,
    ofBE_cons_or, ofBE_cons_or, ofBE_cons_or, ofBE_cons_or]
  have hmod := fun (b : UInt8) (k : ℕ) (hk : 8 + k ≤ 32) =>
    byte_shiftLeft_mod (m := 4294967296) b (by decide : _ = 2 ^ 32) hk
  simp [readU32BE, ofBE, Nat.lor_assoc, Nat.add_assoc, hmod]

theorem readU64BE_eq {p : Bytes} {i : ℕ} (hlen : i + 8 ≤ p.length) :
    readU64BE p i = Net.readU64BE p i := by
  have hlt := ofBE_lt ((p.drop i).take 8)
  have h8 : ((p.drop i).take 8).length = 8 := by
    rw [List.length_take, List.length_drop]
    omega
  rw [h8] at hlt
  apply UInt64.toNat_inj.mp
  rw [Net.readU64BE, UInt64.toNat_ofNat_of_lt' hlt, take_succ_drop hlen, take_succ_drop (by omega),
    take_succ_drop (by omega), take_succ_drop (by omega), take_succ_drop (by omega),
    take_succ_drop (by omega), take_succ_drop (by omega), take_succ_drop (by omega), List.take_zero,
    ofBE_cons_or, ofBE_cons_or, ofBE_cons_or, ofBE_cons_or, ofBE_cons_or, ofBE_cons_or,
    ofBE_cons_or, ofBE_cons_or]
  have hmod := fun (b : UInt8) (k : ℕ) (hk : 8 + k ≤ 64) =>
    byte_shiftLeft_mod (m := 18446744073709551616) b (by decide : _ = 2 ^ 64) hk
  simp [readU64BE, ofBE, Nat.lor_assoc, Nat.add_assoc, hmod]

theorem decodeHeader_eq {data : Bytes} (hlen : headerSize ≤ data.length) :
    decodeHeader data = parseHeader data := by
  have h34 : 34 ≤ data.length := hlen
  unfold decodeHeader parseHeader
  rw [readU32BE_eq (by omega), readU16BE_eq (by omega), readU32BE_eq (by omega),
    readU32BE_eq (by omega), readU32BE_eq (by omega), readU64BE_eq (by omega),
    readU32BE_eq (by omega), readU32BE_eq (by omega)]

end Cpp

/-! ## The Go side -/

namespace Go

/-- `Packet.Encode`: a buffer of `Length` bytes; `none` stands for the panic when the
header does not fit. -/
def encode (p : Packet) : Option Bytes :=
  let length := p.header.length.toNat
  if length < headerSize then none
  else
    let buf : Bytes := List.replicate length 0
    let buf := writeAt buf 0 (writeU32BE p.header.length)
    let buf := writeAt buf 4 (writeU16BE p.header.magic)
    let buf := writeAt buf 6 (writeU32BE p.header.cmdId)
    let buf := writeAt buf 10 (writeU32BE p.header.seqId)
    let buf := writeAt buf 14 (writeU32BE p.header.flags)
    let buf := writeAt buf 18 (writeU64BE p.header.userId)
    let buf := writeAt buf 26 (writeU32BE p.header.zoneId)
    let buf := writeAt buf 30 (writeU32BE p.header.serviceId)
    some (writeAt buf headerSize (p.payload.take (length - headerSize)))

/-- `TCPConn.SendPacket` without a session key: the bytes that are sent. -/
def sendPacket (p : Packet) : Option Bytes :=
  encode { p with header :=
    { p.header with length := UInt32.ofNat headerSize + UInt32.ofNat p.payload.length } }

/-- A reader that has these bytes and no more. -/
def bytesReader : Source Bytes where
  setReadDeadline _ r := r
  readFull n r := if n ≤ r.length then (.ok (r.take n), r.drop n) else (.error .eof, [])

/-- `DecodeHeader` and `ReadPayload`: the packet, and the bytes that have not been read. -/
def decode (bs : Bytes) : Option (Packet × Bytes) :=
  match decodeHeader bytesReader bs with
  | (.ok header, r) =>
    match readPayload bytesReader header r with
    | (.ok payload, r) => some ({ header, payload }, r)
    | (.error _, _) => none
  | (.error _, _) => none

end Go

/-! ## The encoders -/

/-- The packet with the length that both encoders put into it. -/
def Packet.sized (p : Packet) : Packet :=
  { p with header := { p.header with length := UInt32.ofNat (headerSize + p.payload.length) } }

/-- What both sides can send: the protocol's magic, and at most `maxPacketLen` bytes. -/
structure Packet.Sendable (p : Packet) : Prop where
  magic : p.header.magic = magicValue
  length : headerSize + p.payload.length ≤ maxPacketLen

theorem encodePacket_eq (p : Packet) : encodePacket p = encodeHeader p.sized.header ++ p.payload := rfl

theorem Packet.Sendable.toNat_length {p : Packet} (h : p.Sendable) :
    p.sized.header.length.toNat = headerSize + p.payload.length := by
  have hlt : headerSize + p.payload.length < 2 ^ 32 := lt_of_le_of_lt h.length (by decide)
  exact UInt32.toNat_ofNat_of_lt' hlt

/-- Fields written one after the other into a fresh buffer. -/
theorem writeAt_header (h : Header) (n : ℕ) :
    writeAt (writeAt (writeAt (writeAt (writeAt (writeAt (writeAt (writeAt
      (List.replicate (headerSize + n) 0) 0 (writeU32BE h.length)) 4 (writeU16BE h.magic))
      6 (writeU32BE h.cmdId)) 10 (writeU32BE h.seqId)) 14 (writeU32BE h.flags))
      18 (writeU64BE h.userId)) 26 (writeU32BE h.zoneId)) 30 (writeU32BE h.serviceId) =
    encodeHeader h ++ List.replicate n 0 := by
  -- a field of `w` bytes, written at `i`, where the buffer is written up to
  have hfield : ∀ {b field : Bytes} {i w m : ℕ}, b.length = i → field.length = w →
      writeAt (b ++ List.replicate (w + m) 0) i field = (b ++ field) ++ List.replicate m 0 := by
    intro b field i w m hi hw
    rw [← hw]
    exact writeAt_fresh hi
  have hstart : (List.replicate (headerSize + n) 0 : Bytes) =
      [] ++ List.replicate (4 + (2 + (4 + (4 + (4 + (8 + (4 + (4 + n)))))))) 0 := by
    rw [List.nil_append]
    congr 1
    unfold headerSize
    omega
  let b1 := [] ++ writeU32BE h.length
  let b2 := b1 ++ writeU16BE h.magic
  let b3 := b2 ++ writeU32BE h.cmdId
  let b4 := b3 ++ writeU32BE h.seqId
  let b5 := b4 ++ writeU32BE h.flags
  let b6 := b5 ++ writeU64BE h.userId
  let b7 := b6 ++ writeU32BE h.zoneId
  have h1 : b1.length = 4 := by simp [b1]
  have h2 : b2.length = 6 := by simp [b2, h1]
  have h3 : b3.length = 10 := by simp [b3, h2]
  have h4 : b4.length = 14 := by simp [b4, h3]
  have h5 : b5.length = 18 := by simp [b5, h4]
  have h6 : b6.length = 26 := by simp [b6, h5]
  have h7 : b7.length = 30 := by simp [b7, h6]
  rw [hstart, hfield (b := []) (i := 0) rfl (length_writeU32BE _), hfield h1 (length_writeU16BE _),
    hfield h2 (length_writeU32BE _), hfield h3 (length_writeU32BE _),
    hfield h4 (length_writeU32BE _), hfield h5 (length_writeU64BE _),
    hfield h6 (length_writeU32BE _), hfield h7 (length_writeU32BE _)]
  simp [b1, b2, b3, b4, b5, b6, b7, encodeHeader]

/-- The payload after the header. -/
theorem writeAt_payload (h : Header) (payload : Bytes) :
    writeAt (encodeHeader h ++ List.replicate payload.length 0) headerSize payload =
      encodeHeader h ++ payload := by
  have hfresh : writeAt (encodeHeader h ++ List.replicate (payload.length + 0) 0) headerSize payload =
      encodeHeader h ++ payload ++ List.replicate 0 0 := writeAt_fresh (length_encodeHeader h)
  rw [Nat.add_zero, List.replicate_zero, List.append_nil] at hfresh
  exact hfresh

theorem ofNat_headerSize_add (n : ℕ) :
    UInt32.ofNat headerSize + UInt32.ofNat n = UInt32.ofNat (headerSize + n) :=
  UInt32.ofNat_add _ _ ▸ rfl

namespace Cpp

/-- The C++ encoder, for every packet. -/
theorem encodePacket_eq (p : Packet) : Cpp.encodePacket p = Net.encodePacket p := by
  have hheader := writeAt_header p.sized.header p.payload.length
  unfold Cpp.encodePacket
  simp only [writeU16BE_eq, writeU32BE_eq, writeU64BE_eq, ofNat_headerSize_add]
  simp only [Packet.sized] at hheader
  rw [hheader, Net.encodePacket_eq]
  split_ifs with hpayload
  · exact writeAt_payload _ _
  · have hnil : p.payload = [] := List.length_eq_zero_iff.mp (by omega)
    simp [hnil, Packet.sized]

end Cpp

namespace Go

/-- The Go encoder, for what can be sent. -/
theorem sendPacket_eq {p : Packet} (h : p.Sendable) : sendPacket p = some (encodePacket p) := by
  have hlength := h.toNat_length
  have hheader := writeAt_header p.sized.header p.payload.length
  have hsized : { p with header :=
      { p.header with length := UInt32.ofNat headerSize + UInt32.ofNat p.payload.length } } =
        p.sized := by
    rw [ofNat_headerSize_add]
    rfl
  unfold sendPacket
  rw [hsized]
  unfold Go.encode
  simp only [hlength]
  rw [if_neg (by omega), hheader, Nat.add_sub_cancel_left, encodePacket_eq]
  have hpayload : p.sized.payload.take p.payload.length = p.payload := List.take_length
  rw [hpayload, writeAt_payload]

end Go

/-! ## The decoders -/

section Fields

variable {bs : Bytes} {i : ℕ}

/-- A number from `w` bytes is written as these bytes. -/
theorem toBE_field {w : ℕ} (hlen : i + w ≤ bs.length) :
    toBE w (ofBE ((bs.drop i).take w)) = (bs.drop i).take w := by
  have hw : ((bs.drop i).take w).length = w := by
    rw [List.length_take, List.length_drop]
    omega
  have hlt := ofBE_lt ((bs.drop i).take w)
  rw [hw] at hlt
  apply ofBE_inj
  · rw [length_toBE, hw]
  · exact ofBE_toBE_of_lt hlt

theorem field_lt {w : ℕ} (hlen : i + w ≤ bs.length) : ofBE ((bs.drop i).take w) < 256 ^ w := by
  have hlt := ofBE_lt ((bs.drop i).take w)
  rwa [List.length_take, List.length_drop, Nat.min_eq_left (by omega)] at hlt

theorem writeU16BE_readU16BE (hlen : i + 2 ≤ bs.length) :
    writeU16BE (readU16BE bs i) = (bs.drop i).take 2 := by
  rw [writeU16BE, readU16BE, UInt16.toNat_ofNat_of_lt' (field_lt hlen), toBE_field hlen]

theorem writeU32BE_readU32BE (hlen : i + 4 ≤ bs.length) :
    writeU32BE (readU32BE bs i) = (bs.drop i).take 4 := by
  rw [writeU32BE, readU32BE, UInt32.toNat_ofNat_of_lt' (field_lt hlen), toBE_field hlen]

theorem writeU64BE_readU64BE (hlen : i + 8 ≤ bs.length) :
    writeU64BE (readU64BE bs i) = (bs.drop i).take 8 := by
  rw [writeU64BE, readU64BE, UInt64.toNat_ofNat_of_lt' (field_lt hlen), toBE_field hlen]

/-- A field and what comes after it. -/
theorem field_append_drop (bs : Bytes) (i w : ℕ) (after : Bytes) :
    (bs.drop i).take w ++ (bs.drop (i + w) ++ after) = bs.drop i ++ after := by
  rw [← List.append_assoc, ← List.drop_drop, List.take_append_drop]

end Fields

/-- The header of a string is what stands in front of it. -/
theorem encodeHeader_parseHeader {bs : Bytes} (hlen : headerSize ≤ bs.length) :
    encodeHeader (parseHeader bs) ++ bs.drop headerSize = bs := by
  have h34 : 34 ≤ bs.length := hlen
  have hlast : (bs.drop 30).take 4 ++ bs.drop headerSize = bs.drop 30 := by
    have h := field_append_drop bs 30 4 []
    rwa [List.append_nil, List.append_nil] at h
  have hfield := fun i w => field_append_drop bs i w []
  simp only [List.append_nil] at hfield
  unfold encodeHeader parseHeader
  simp only [List.append_assoc]
  rw [writeU32BE_readU32BE (by omega), writeU16BE_readU16BE (by omega),
    writeU32BE_readU32BE (by omega), writeU32BE_readU32BE (by omega),
    writeU32BE_readU32BE (by omega), writeU64BE_readU64BE (by omega),
    writeU32BE_readU32BE (by omega), writeU32BE_readU32BE (by omega), hlast, hfield 26 4,
    hfield 18 8, hfield 14 4, hfield 10 4, hfield 6 4, hfield 4 2, hfield 0 4, List.drop_zero]

/-- A string with a length field that is its length is the encoding of what is read from it. -/
theorem encodePacket_parse {bs : Bytes} (hlen : headerSize ≤ bs.length)
    (hlength : (parseHeader bs).length.toNat = bs.length) :
    encodePacket { header := parseHeader bs, payload := bs.drop headerSize } = bs := by
  have hsize : headerSize + (bs.drop headerSize).length = bs.length := by
    rw [List.length_drop]
    omega
  unfold encodePacket
  simp only
  rw [hsize, ← hlength, UInt32.ofNat_toNat]
  exact encodeHeader_parseHeader hlen

/-- What is read from an encoding. -/
structure Packet.Read (p : Packet) (bs : Bytes) : Prop where
  header : parseHeader bs = p.sized.header
  payload : bs.drop headerSize = p.payload
  length : bs.length = headerSize + p.payload.length

theorem Packet.read_encodePacket (p : Packet) : p.Read (encodePacket p) where
  header := parseHeader_encodePacket p
  payload := by
    rw [encodePacket_eq, ← length_encodeHeader p.sized.header, List.drop_left]
  length := by
    rw [encodePacket_eq, List.length_append, length_encodeHeader]

/-- The good strings: as long as their length field says, within the limits, and with
the protocol's magic. -/
structure WellFormed (bs : Bytes) : Prop where
  header : headerSize ≤ bs.length
  limit : bs.length ≤ maxPacketLen
  magic : (parseHeader bs).magic = magicValue
  length : (parseHeader bs).length.toNat = bs.length

/-- They are what is encoded. -/
theorem wellFormed_iff {bs : Bytes} :
    WellFormed bs ↔ ∃ p : Packet, p.Sendable ∧ encodePacket p = bs := by
  constructor
  · intro h
    have hsize : headerSize + (bs.drop headerSize).length = bs.length := by
      have := h.header
      rw [List.length_drop]
      omega
    refine ⟨{ header := parseHeader bs, payload := bs.drop headerSize }, ⟨h.magic, ?_⟩,
      encodePacket_parse h.header h.length⟩
    rw [hsize]
    exact h.limit
  · rintro ⟨p, hp, rfl⟩
    have hread := p.read_encodePacket
    have hlength := hread.length
    refine ⟨by omega, ?_, ?_, ?_⟩
    · rw [hlength]
      exact hp.length
    · rw [hread.header]
      exact hp.magic
    · rw [hread.header, hp.toNat_length, hlength]

namespace Cpp

/-- `DecodePacket` checks just that. -/
theorem decodePacket_eq (bs : Bytes) (q : Packet) :
    decodePacket bs = some q ↔
      WellFormed bs ∧ q = { header := parseHeader bs, payload := bs.drop headerSize } := by
  unfold decodePacket
  by_cases hlimits : bs.length < headerSize ∨ maxPacketLen < bs.length
  · rw [if_pos hlimits]
    constructor
    · intro h
      cases h
    · rintro ⟨h, -⟩
      have h1 := h.header
      have h2 := h.limit
      omega
  · have hlen : headerSize ≤ bs.length := by omega
    rw [if_neg hlimits]
    simp only [decodeHeader_eq hlen]
    by_cases hbad : (parseHeader bs).magic ≠ magicValue ∨
        (parseHeader bs).length.toNat ≠ bs.length
    · rw [if_pos hbad]
      constructor
      · intro h
        cases h
      · rintro ⟨h, -⟩
        rcases hbad with hmagic | hlength
        · exact absurd h.magic hmagic
        · exact absurd h.length hlength
    · rw [if_neg hbad]
      push Not at hbad
      -- the length has been compared with a size that is within the limits
      rw [if_neg (by rw [hbad.2]; exact hlimits)]
      constructor
      · intro h
        cases h
        exact ⟨⟨hlen, by omega, hbad.1, hbad.2⟩, rfl⟩
      · rintro ⟨-, rfl⟩
        rfl

/-- What `DecodePacket` accepts, and what it returns for it. -/
theorem decodePacket_iff (bs : Bytes) (q : Packet) :
    decodePacket bs = some q ↔ ∃ p : Packet, p.Sendable ∧ encodePacket p = bs ∧ q = p.sized := by
  rw [decodePacket_eq]
  constructor
  · rintro ⟨h, rfl⟩
    obtain ⟨p, hp, rfl⟩ := wellFormed_iff.mp h
    have hread := p.read_encodePacket
    refine ⟨p, hp, encodePacket_eq p, ?_⟩
    rw [hread.header, hread.payload]
    rfl
  · rintro ⟨p, hp, rfl, rfl⟩
    have hread := p.read_encodePacket
    rw [encodePacket_eq]
    refine ⟨wellFormed_iff.mpr ⟨p, hp, rfl⟩, ?_⟩
    rw [hread.header, hread.payload]
    rfl

end Cpp

namespace Go

theorem bytesReader_ok {bs : Bytes} {n : ℕ} (hn : n ≤ bs.length) :
    bytesReader.readFull n bs = (.ok (bs.take n), bs.drop n) := if_pos hn

theorem bytesReader_eof {bs : Bytes} {n : ℕ} (hn : bs.length < n) :
    bytesReader.readFull n bs = (.error .eof, []) := if_neg (not_le.mpr hn)

/-- A header in front of other bytes. -/
structure HeaderInFront (bs : Bytes) : Prop where
  header : headerSize ≤ bs.length
  valid : validLength (parseHeader bs).length = true
  magic : (parseHeader bs).magic = magicValue

/-- `DecodeHeader` reads it and nothing else. -/
theorem decodeHeader_ok (bs : Bytes) (h : Header) (r : Bytes) :
    Net.decodeHeader bytesReader bs = (.ok h, r) ↔
      HeaderInFront bs ∧ h = parseHeader bs ∧ r = bs.drop headerSize := by
  have h34 : headerSize = 34 := rfl
  unfold Net.decodeHeader
  by_cases h4 : bs.length < 4
  · rw [bytesReader_eof h4]
    constructor
    · intro hok
      cases hok
    · rintro ⟨hfront, -⟩
      have := hfront.header
      omega
  · rw [bytesReader_ok (not_lt.mp h4)]
    simp only
    have hfirst : (bs.take 4).length = 4 := by
      rw [List.length_take]
      omega
    have hfield : readU32BE (bs.take 4) 0 = (parseHeader bs).length := by
      unfold parseHeader readU32BE
      rw [List.drop_zero, List.drop_zero, List.take_take, min_self]
    rw [hfield]
    by_cases hvalid : validLength (parseHeader bs).length = true
    · rw [if_pos hvalid]
      by_cases hshort : (bs.drop 4).length < headerSize - 4
      · rw [bytesReader_eof hshort]
        constructor
        · intro hok
          cases hok
        · rintro ⟨hfront, -⟩
          have := hfront.header
          rw [List.length_drop] at hshort
          omega
      · rw [bytesReader_ok (not_lt.mp hshort)]
        have hlen : headerSize ≤ bs.length := by
          rw [List.length_drop] at hshort
          omega
        -- the header from its two parts is the header of the whole
        have hwhole : headerOf (parseHeader bs).length ((bs.drop 4).take (headerSize - 4)) =
            parseHeader bs := by
          rw [← hfield, headerOf_eq hfirst]
          have htake : bs.take 4 ++ (bs.drop 4).take (headerSize - 4) = bs.take headerSize := by
            rw [h34, ← List.take_add]
          have hall : headerSize ≤ (bs.take headerSize).length := by
            rw [List.length_take]
            omega
          rw [htake, ← parseHeader_append hall, List.take_append_drop]
        simp only
        rw [hwhole, List.drop_drop]
        by_cases hmagic : (parseHeader bs).magic = magicValue
        · rw [if_pos hmagic]
          constructor
          · intro hok
            cases hok
            exact ⟨⟨hlen, hvalid, hmagic⟩, rfl, rfl⟩
          · rintro ⟨-, rfl, rfl⟩
            rfl
        · rw [if_neg hmagic]
          constructor
          · intro hok
            cases hok
          · rintro ⟨hfront, -⟩
            exact absurd hfront.magic hmagic
    · rw [if_neg hvalid]
      constructor
      · intro hok
        cases hok
      · rintro ⟨hfront, -⟩
        exact absurd hfront.valid hvalid

/-- `ReadPayload` after it. -/
theorem readPayload_ok {h : Header} (hlength : headerSize ≤ h.length.toNat) (bs payload r : Bytes) :
    readPayload bytesReader h bs = (.ok payload, r) ↔
      h.length.toNat - headerSize ≤ bs.length ∧ payload = bs.take (h.length.toNat - headerSize) ∧
        r = bs.drop (h.length.toNat - headerSize) := by
  have hcast : (h.length.toNat : ℤ) - (headerSize : ℤ) = ((h.length.toNat - headerSize : ℕ) : ℤ) := by
    omega
  unfold readPayload
  simp only [hcast]
  generalize h.length.toNat - headerSize = n
  by_cases hnone : (n : ℤ) ≤ 0
  · have hzero : n = 0 := by omega
    subst hzero
    rw [if_pos hnone]
    constructor
    · intro hok
      cases hok
      exact ⟨Nat.zero_le _, rfl, rfl⟩
    · rintro ⟨-, rfl, rfl⟩
      rfl
  · rw [if_neg hnone, Int.toNat_natCast]
    by_cases hn : n ≤ bs.length
    · rw [bytesReader_ok hn]
      constructor
      · intro hok
        cases hok
        exact ⟨hn, rfl, rfl⟩
      · rintro ⟨-, rfl, rfl⟩
        rfl
    · rw [bytesReader_eof (not_le.mp hn)]
      constructor
      · intro hok
        cases hok
      · rintro ⟨hle, -⟩
        exact absurd hle hn

theorem validLength_iff (length : UInt32) :
    validLength length = true ↔ headerSize ≤ length.toNat ∧ length.toNat ≤ maxPacketLen := by
  simp [validLength]

/-- A frame in front of other bytes. -/
theorem decode_eq (bs : Bytes) (q : Packet) (rest : Bytes) :
    decode bs = some (q, rest) ↔
      HeaderInFront bs ∧ (parseHeader bs).length.toNat ≤ bs.length ∧
        q = { header := parseHeader bs,
              payload := (bs.drop headerSize).take ((parseHeader bs).length.toNat - headerSize) } ∧
        rest = bs.drop (parseHeader bs).length.toNat := by
  unfold decode
  rcases hheader : Net.decodeHeader bytesReader bs with ⟨e | h, r⟩
  · constructor
    · intro hok
      cases hok
    · rintro ⟨hfront, -⟩
      have hok := (decodeHeader_ok bs _ _).mpr ⟨hfront, rfl, rfl⟩
      rw [hheader] at hok
      cases hok
  · obtain ⟨hfront, rfl, rfl⟩ := (decodeHeader_ok bs h r).mp hheader
    have hlength := ((validLength_iff _).mp hfront.valid).1
    have hlen := hfront.header
    have hdrop : (bs.drop headerSize).drop ((parseHeader bs).length.toNat - headerSize) =
        bs.drop (parseHeader bs).length.toNat := by
      rw [List.drop_drop]
      congr 1
      omega
    simp only
    rcases hpayload : readPayload bytesReader (parseHeader bs) (bs.drop headerSize) with
      ⟨e | payload, r⟩
    · constructor
      · intro hok
        cases hok
      · rintro ⟨-, hle, -⟩
        have hok := (readPayload_ok hlength (bs.drop headerSize) _ _).mpr
          ⟨by rw [List.length_drop]; omega, rfl, rfl⟩
        rw [hpayload] at hok
        cases hok
    · obtain ⟨hle, rfl, rfl⟩ := (readPayload_ok hlength _ _ _).mp hpayload
      rw [List.length_drop] at hle
      rw [hdrop]
      constructor
      · intro hok
        cases hok
        exact ⟨hfront, by omega, rfl, rfl⟩
      · rintro ⟨-, -, rfl, rfl⟩
        rfl

/-- What the Go side reads, and what it leaves. -/
theorem decode_iff (bs : Bytes) (q : Packet) (rest : Bytes) :
    decode bs = some (q, rest) ↔
      ∃ p : Packet, p.Sendable ∧ encodePacket p ++ rest = bs ∧ q = p.sized := by
  rw [decode_eq]
  constructor
  · rintro ⟨hfront, hle, rfl, rfl⟩
    have hvalid := (validLength_iff _).mp hfront.valid
    -- the bytes of the frame alone
    have hlen : (bs.take (parseHeader bs).length.toNat).length = (parseHeader bs).length.toNat := by
      rw [List.length_take]
      omega
    have hparse : parseHeader (bs.take (parseHeader bs).length.toNat) = parseHeader bs := by
      have hall : headerSize ≤ (bs.take (parseHeader bs).length.toNat).length := by
        rw [hlen]
        exact hvalid.1
      rw [← parseHeader_append hall, List.take_append_drop]
    have hgood : WellFormed (bs.take (parseHeader bs).length.toNat) := by
      refine ⟨?_, ?_, ?_, ?_⟩
      · rw [hlen]
        exact hvalid.1
      · rw [hlen]
        exact hvalid.2
      · rw [hparse]
        exact hfront.magic
      · rw [hparse, hlen]
    obtain ⟨p, hp, hbytes⟩ := wellFormed_iff.mp hgood
    have hread := p.read_encodePacket
    rw [hbytes] at hread
    refine ⟨p, hp, ?_, ?_⟩
    · rw [hbytes, List.take_append_drop]
    · have hpayload := hread.payload
      rw [List.drop_take] at hpayload
      rw [hpayload, ← hparse, hread.header]
      rfl
  · rintro ⟨p, hp, rfl, rfl⟩
    have hread := p.read_encodePacket
    have hlength := hread.length
    have hparse : parseHeader (encodePacket p ++ rest) = p.sized.header := by
      rw [parseHeader_append (by omega), hread.header]
    have hlen : (encodePacket p ++ rest).length = (encodePacket p).length + rest.length :=
      List.length_append
    refine ⟨⟨by omega, ?_, ?_⟩, ?_, ?_, ?_⟩
    · rw [hparse, validLength_iff, hp.toNat_length]
      exact ⟨Nat.le_add_right _ _, hp.length⟩
    · rw [hparse]
      exact hp.magic
    · rw [hparse, hp.toNat_length]
      omega
    · rw [hparse, hp.toNat_length, Nat.add_sub_cancel_left, List.drop_append_of_le_length (by omega),
        hread.payload, List.take_left]
      rfl
    · rw [hparse, hp.toNat_length, ← hlength, List.drop_left]

end Go

/-! ## One format -/

/-- What can be sent is sent as the same bytes by both sides and comes back from both
decoders, whatever follows it in the stream; and a decoder accepts a string only if it is
what the encoder of its side makes of a packet that can be sent. -/
theorem codec_agrees :
    (∀ p : Packet, p.Sendable →
      Go.sendPacket p = some (Cpp.encodePacket p) ∧
        Cpp.decodePacket (Cpp.encodePacket p) = some p.sized ∧
        ∀ rest, Go.decode (Cpp.encodePacket p ++ rest) = some (p.sized, rest)) ∧
      (∀ bs : Bytes, (∃ q, Cpp.decodePacket bs = some q) ↔
        ∃ p : Packet, p.Sendable ∧ Cpp.encodePacket p = bs) ∧
      ∀ bs : Bytes, (∃ q, Go.decode bs = some (q, [])) ↔
        ∃ p : Packet, p.Sendable ∧ Go.sendPacket p = some bs := by
  refine ⟨?_, ?_, ?_⟩
  · intro p hp
    have hbytes := Cpp.encodePacket_eq p
    refine ⟨?_, ?_, ?_⟩
    · rw [hbytes]
      exact Go.sendPacket_eq hp
    · exact (Cpp.decodePacket_iff _ _).mpr ⟨p, hp, rfl, rfl⟩
    · intro rest
      rw [hbytes]
      exact (Go.decode_iff _ _ _).mpr ⟨p, hp, rfl, rfl⟩
  · intro bs
    constructor
    · rintro ⟨q, hq⟩
      obtain ⟨p, hp, hbytes, -⟩ := (Cpp.decodePacket_iff bs q).mp hq
      exact ⟨p, hp, hbytes⟩
    · rintro ⟨p, hp, hbytes⟩
      exact ⟨p.sized, (Cpp.decodePacket_iff bs p.sized).mpr ⟨p, hp, hbytes, rfl⟩⟩
  · intro bs
    constructor
    · rintro ⟨q, hq⟩
      obtain ⟨p, hp, hbytes, -⟩ := (Go.decode_iff bs q []).mp hq
      rw [List.append_nil] at hbytes
      exact ⟨p, hp, by rw [Go.sendPacket_eq hp, hbytes]⟩
    · rintro ⟨p, hp, hbytes⟩
      rw [Go.sendPacket_eq hp, Option.some.injEq] at hbytes
      exact ⟨p.sized, (Go.decode_iff bs p.sized []).mpr ⟨p, hp, by rw [List.append_nil, hbytes], rfl⟩⟩

/-- A packet of one byte, to both decoders. -/
theorem codec_agrees_one :
    let p : Packet := { header := { cmdId := 7, userId := 9 }, payload := [1] }
    p.Sendable ∧ Go.sendPacket p = some (Cpp.encodePacket p) ∧
      Cpp.decodePacket (Cpp.encodePacket p) = some p.sized ∧
      ∀ rest, Go.decode (Cpp.encodePacket p ++ rest) = some (p.sized, rest) := by
  intro p
  have hp : p.Sendable := ⟨rfl, by decide⟩
  exact ⟨hp, codec_agrees.1 p hp⟩

end Gmaker.Net
