import Gmaker.Net.Codec
import Gmaker.Net.RingBuffer

/-!
# Gmaker.Net.TcpFraming — the read side of `AsyncTCPConnection`

The bytes of a read go into the ring buffer, and `ProcessReadBuffer` takes the packets
out again: in place when the packet does not go round the end of the buffer, and
otherwise through a copy, on the stack or on the heap. `frame_spec` says that the three
ways agree with `nextPacket`, and so what is handed out does not depend on how the
stream was cut into reads (`receive_eq`).
-/

namespace Gmaker.Net.TcpRead

open Gmaker.Lib

/-! ## One packet -/

/-- `MAX_READ_BUF_BYTES`: 64 MB. -/
def maxReadBufBytes : ℕ := 64 * 1024 * 1024

/-- The size of `temp_buf`. -/
def tempBufSize : ℕ := 64 * 1024

/-- How one round of the loop ends, up to the call of `on_data_`. -/
inductive Frame where
  /-- not enough data -/
  | stop
  /-- `Close` and return -/
  | bad (ring : RingBuffer)
  | packet (pkt : Packet) (ring : RingBuffer)

/-- Decrypt, if there is a key and the packet says so. -/
def openFrame (s : Session) (pkt : Packet) (ring : RingBuffer) : Frame :=
  match s.openPacket pkt with
  | some pkt => .packet pkt ring
  | none => .bad ring

/-- The packet in `length` bytes at the front of `p`. -/
def packetAt (length : UInt32) (p : Bytes) : Packet where
  header := { Cpp.decodeHeader p with length := length }
  payload := (p.drop headerSize).take (length.toNat - headerSize)

/-- The slow path: the bytes have been copied and consumed. -/
def openCopy (s : Session) (length : UInt32) (copy : Bytes) (ring : RingBuffer) : Frame :=
  if Cpp.readU16BE copy 4 ≠ magicValue then .bad ring
  else openFrame s (packetAt length copy) ring

/-- One round of `ProcessReadBuffer`. -/
def frame (s : Session) (ring : RingBuffer) : Frame :=
  if ring.size < 4 then .stop
  else
    let length := Cpp.readU32BE (ring.readAt 0 4) 0
    if length.toNat < headerSize ∨ maxPacketLen < length.toNat then .bad ring
    else if ring.size < length.toNat then .stop
    else if ring.isContiguous 0 length.toNat then
      let p := ring.dataAt 0
      if Cpp.readU16BE p 4 ≠ magicValue then .bad ring
      else openFrame s (packetAt length p) (ring.consume length.toNat)
    else if tempBufSize < length.toNat then
      openCopy s length (ring.readAt 0 length.toNat) (ring.consume length.toNat)
    else
      let tempBuf := writeAt (List.replicate tempBufSize 0) 0 (ring.readAt 0 length.toNat)
      openCopy s length tempBuf (ring.consume length.toNat)

/-- Less than a packet: no length yet, or fewer bytes than a good length says. -/
def Partial (bs : Bytes) : Prop :=
  bs.length < 4 ∨ validLength (readU32BE bs 0) = true ∧ bs.length < (readU32BE bs 0).toNat

instance (bs : Bytes) : Decidable (Partial bs) := by unfold Partial; infer_instance

/-- What a round does, told by the bytes in the buffer alone. -/
def FrameSpec (s : Session) (bs : Bytes) : Frame → Prop
  | .stop => Partial bs
  | .bad _ => nextPacket s bs = .malformed
  | .packet pkt ring => nextPacket s bs = .complete (pkt, ring.bytes)

section Frame

variable {s : Session} {ring : RingBuffer} {bs : Bytes} {length : UInt32}

theorem validLength_eq_true : validLength length = true ↔
    ¬ (length.toNat < headerSize ∨ maxPacketLen < length.toNat) := by
  rw [Go.validLength_iff, not_or, not_lt, not_lt]

/-- The packet does not depend on what follows its bytes. -/
theorem packetAt_take {p : Bytes} (hlength : headerSize ≤ length.toNat)
    (hp : length.toNat ≤ p.length) (hfront : p.take length.toNat = bs.take length.toNat) :
    packetAt length p =
      { header := { parseHeader bs with length := length }
        payload := (bs.take length.toNat).drop headerSize } ∧
      Cpp.readU16BE p 4 = (parseHeader bs).magic := by
  have h34 : headerSize = 34 := rfl
  have hlen : (p.take length.toNat).length = length.toNat := by
    rw [List.length_take]
    omega
  have hparse : parseHeader p = parseHeader bs := by
    calc parseHeader p = parseHeader (p.take length.toNat ++ p.drop length.toNat) := by
          rw [List.take_append_drop]
      _ = parseHeader (p.take length.toNat) := parseHeader_append (by omega)
      _ = parseHeader (bs.take length.toNat) := by rw [hfront]
      _ = parseHeader (bs.take length.toNat ++ bs.drop length.toNat) :=
          (parseHeader_append (by rw [← hfront]; omega)).symm
      _ = parseHeader bs := by rw [List.take_append_drop]
  constructor
  · unfold packetAt
    rw [Cpp.decodeHeader_eq (by omega), hparse, ← hfront, List.drop_take]
  · rw [Cpp.readU16BE_eq (by omega), ← hparse]
    rfl

/-- The end that the paths have in common. -/
theorem open_spec {p : Bytes} {ring' : RingBuffer} (h4 : 4 ≤ bs.length)
    (hlength : length = readU32BE bs 0) (hvalid : validLength length = true)
    (hle : length.toNat ≤ bs.length) (hp : length.toNat ≤ p.length)
    (hfront : p.take length.toNat = bs.take length.toNat)
    (hring : ring'.bytes = bs.drop length.toNat) (bad : RingBuffer) :
    FrameSpec s bs (if Cpp.readU16BE p 4 ≠ magicValue then .bad bad
      else openFrame s (packetAt length p) ring') := by
  have hrange := (Go.validLength_iff _).mp hvalid
  obtain ⟨hpacket, hmagic⟩ := packetAt_take hrange.1 hp hfront
  have hheader : nextHeader bs =
      if (parseHeader bs).magic = magicValue then .complete (parseHeader bs) else .malformed := by
    unfold nextHeader
    rw [if_neg (by omega), if_neg (by rw [← hlength, hvalid]; simp), if_neg (by omega)]
  have hself : { parseHeader bs with length := length } = parseHeader bs := by
    rw [hlength]
    rfl
  rw [hpacket, hmagic, hself]
  by_cases hm : (parseHeader bs).magic = magicValue
  · rw [if_neg (not_not.mpr hm)]
    rw [if_pos hm] at hheader
    have hlen : (parseHeader bs).length = length := hlength.symm
    have henough : ¬bs.length < length.toNat := by omega
    unfold openFrame
    rcases hopen : s.openPacket { header := parseHeader bs,
                                  payload := (bs.take length.toNat).drop headerSize } with _ | pkt
    · change nextPacket s bs = .malformed
      unfold nextPacket
      simp only [hheader, hlen, if_neg henough, hopen]
    · change nextPacket s bs = .complete (pkt, ring'.bytes)
      unfold nextPacket
      simp only [hheader, hlen, if_neg henough, hopen, hring]
  · rw [if_pos hm]
    rw [if_neg hm] at hheader
    change nextPacket s bs = .malformed
    unfold nextPacket
    rw [hheader]

/-- Whichever way it is taken, the packet is the next one of the buffered bytes. -/
theorem frame_spec (s : Session) (ring : RingBuffer) : FrameSpec s ring.bytes (frame s ring) := by
  have hlen := ring.length_bytes
  unfold frame
  by_cases h4 : ring.size < 4
  · rw [if_pos h4]
    exact Or.inl (by omega)
  have hfield : Cpp.readU32BE (ring.readAt 0 4) 0 = readU32BE ring.bytes 0 := by
    have hfour : (ring.readAt 0 4).length = 4 := by
      rw [ring.readAt_eq (by omega), List.length_take, List.length_drop]
      omega
    rw [Cpp.readU32BE_eq (by omega), ring.readAt_eq (by omega), readU32BE, readU32BE,
      List.drop_zero, List.drop_zero, List.take_take]
    rfl
  simp only [hfield]
  rw [if_neg h4]
  generalize hlength : readU32BE ring.bytes 0 = length
  by_cases hinvalid : length.toNat < headerSize ∨ maxPacketLen < length.toNat
  · -- a bad length is found before the rest is there
    rw [if_pos hinvalid]
    change nextPacket s ring.bytes = .malformed
    have hvalid : validLength (readU32BE ring.bytes 0) = false := by
      rw [hlength]
      exact Bool.eq_false_iff.mpr fun h => validLength_eq_true.mp h hinvalid
    unfold nextPacket nextHeader
    rw [if_neg (by omega), if_pos hvalid]
  have hvalid := validLength_eq_true.mpr hinvalid
  rw [if_neg hinvalid]
  by_cases hshort : ring.size < length.toNat
  · rw [if_pos hshort]
    refine Or.inr ⟨?_, ?_⟩
    · rw [hlength]
      exact hvalid
    · rw [hlength]
      omega
  rw [if_neg hshort]
  by_cases hcontiguous : ring.isContiguous 0 length.toNat = true
  · -- in place
    rw [if_pos hcontiguous]
    have hfront := ring.dataAt_eq hcontiguous
    rw [List.drop_zero] at hfront
    have hp : length.toNat ≤ (ring.dataAt 0).length := by
      have htake := congrArg List.length hfront
      rw [List.length_take, List.length_take] at htake
      omega
    exact open_spec (by omega) hlength.symm hvalid (by omega) hp hfront (ring.bytes_consume _) ring
  rw [if_neg hcontiguous]
  have hcopy : ring.readAt 0 length.toNat = ring.bytes.take length.toNat := by
    rw [ring.readAt_eq (by omega), List.drop_zero]
  have hcopyLen : (ring.readAt 0 length.toNat).length = length.toNat := by
    rw [hcopy, List.length_take]
    omega
  by_cases hlarge : tempBufSize < length.toNat
  · rw [if_pos hlarge]
    refine open_spec (by omega) hlength.symm hvalid (by omega) hcopyLen.ge ?_
      (ring.bytes_consume _) _
    rw [hcopy, List.take_take, min_self]
  · -- behind the copy, the rest of `temp_buf`
    rw [if_neg hlarge]
    have hroom : 0 + (ring.readAt 0 length.toNat).length ≤
        (List.replicate tempBufSize (0 : UInt8)).length := by
      rw [List.length_replicate]
      omega
    refine open_spec (by omega) hlength.symm hvalid (by omega) ?_ ?_ (ring.bytes_consume _) _
    · rw [length_writeAt hroom, List.length_replicate]
      omega
    · unfold writeAt
      rw [List.take_zero, List.nil_append, List.take_append_of_le_length hcopyLen.ge, hcopy,
        List.take_take, min_self]

end Frame

/-! ## The connection -/

/-- A call on the connection that closes it. -/
inductive Call where
  | close
  | closeAfterWrite
deriving DecidableEq

/-- What happens at the read side, in order: a packet is passed to `on_data_`, or
`Close` is called. -/
inductive Entry where
  | packet (pkt : Packet)
  | close
deriving DecidableEq

/-- The read side of a connection. `user` is what `on_data_` keeps. -/
structure Receiver (σ : Type) where
  ring : RingBuffer
  user : σ
  closed : Bool := false
  closing : Bool := false
  closeAfterWrite : Bool := false
  /-- `DoClose` has been posted and has not run -/
  posted : Bool := false
  /-- `uv_close` has not been called -/
  reading : Bool := true
  log : List Entry := []

/-- `on_data_`, with the calls it makes on the connection. -/
abbrev DataCallback (σ : Type) := σ → Packet → σ × List Call

namespace Receiver

variable {σ : Type}

/-- `DoClose`. -/
def doClose (c : Receiver σ) : Receiver σ := { c with reading := false }

/-- `Close`; a call from the loop thread runs `DoClose` at once. -/
def close (c : Receiver σ) (onLoop : Bool) : Receiver σ :=
  let c := { c with log := c.log ++ [.close] }
  if c.closed then c
  else
    let c := { c with closed := true }
    if c.closing then c
    else
      let c := { c with closing := true }
      if onLoop then c.doClose else { c with posted := true }

/-- `CloseAfterWrite`, at the read side. -/
def doCloseAfterWrite (c : Receiver σ) : Receiver σ :=
  if c.closed || c.closing || c.closeAfterWrite then c
  else { c with closed := true, closeAfterWrite := true }

/-- A call made by `on_data_`, which runs on the loop thread. -/
def call (c : Receiver σ) : Call → Receiver σ
  | .close => c.close true
  | .closeAfterWrite => c.doCloseAfterWrite

/-- Pass a packet to `on_data_`. -/
def deliver (onData : DataCallback σ) (c : Receiver σ) (pkt : Packet) : Receiver σ :=
  let (user, calls) := onData c.user pkt
  calls.foldl call { c with user, log := c.log ++ [.packet pkt] }

/-- What the calls do, they do not do to the buffer. -/
@[simp] theorem ring_call (c : Receiver σ) (a : Call) : (c.call a).ring = c.ring := by
  cases a with
  | close =>
    unfold call close
    simp only
    split_ifs <;> rfl
  | closeAfterWrite =>
    unfold call doCloseAfterWrite
    split_ifs <;> rfl

theorem ring_calls (calls : List Call) (c : Receiver σ) : (calls.foldl call c).ring = c.ring := by
  induction calls generalizing c with
  | nil => rfl
  | cons a calls ih => rw [List.foldl_cons, ih, ring_call]

@[simp] theorem ring_deliver (onData : DataCallback σ) (c : Receiver σ) (pkt : Packet) :
    (c.deliver onData pkt).ring = c.ring := ring_calls _ _

/-- A packet takes some of the buffer. -/
theorem size_lt_of_frame {s : Session} {ring ring' : RingBuffer} {pkt : Packet}
    (h : frame s ring = .packet pkt ring') : ring'.size < ring.size := by
  have hspec := frame_spec s ring
  rw [h] at hspec
  rw [← ring.length_bytes, ← ring'.length_bytes]
  exact length_lt_of_nextPacket hspec

/-- `ProcessReadBuffer`. -/
def processReadBuffer (s : Session) (onData : DataCallback σ) (c : Receiver σ) : Receiver σ :=
  match _h : frame s c.ring with
  | .stop => c
  | .bad ring => { c with ring }.close true
  | .packet pkt ring => processReadBuffer s onData ({ c with ring }.deliver onData pkt)
termination_by c.ring.size
decreasing_by
  rw [ring_deliver]
  exact size_lt_of_frame _h

/-- `OnRead`, of some bytes. -/
def onRead (s : Session) (onData : DataCallback σ) (c : Receiver σ) (chunk : Bytes) : Receiver σ :=
  if chunk = [] then c
  else
    let c := { c with ring := c.ring.append chunk }
    if maxReadBufBytes < c.ring.size then c.close true else c.processReadBuffer s onData

/-- One read after the other, until `uv_close` is called. -/
def receive (s : Session) (onData : DataCallback σ) : Receiver σ → List Bytes → Receiver σ
  | c, [] => c
  | c, chunk :: chunks =>
    if c.reading then receive s onData (c.onRead s onData chunk) chunks else c

end Receiver

/-- The packets that were passed to `on_data_`. -/
def packets (log : List Entry) : List Packet :=
  log.filterMap fun
    | .packet pkt => some pkt
    | .close => none

@[simp] theorem packets_packet (log : List Entry) (pkt : Packet) :
    packets (log ++ [.packet pkt]) = packets log ++ [pkt] := by
  rw [packets, packets, List.filterMap_append]
  rfl

@[simp] theorem packets_close (log : List Entry) : packets (log ++ [.close]) = packets log := by
  rw [packets, packets, List.filterMap_append]
  exact List.append_nil _

/-! ## The stream -/

section Stream

variable {s : Session} {bs as : Bytes}

/-- What is malformed stays so when more bytes follow. -/
theorem nextPacket_malformed_append (h : nextPacket s bs = .malformed) :
    nextPacket s (bs ++ as) = .malformed := by
  have hlen : (bs ++ as).length = bs.length + as.length := List.length_append
  unfold nextPacket at h
  cases hh : nextHeader bs with
  | incomplete =>
    rw [hh] at h
    cases h
  | malformed =>
    unfold nextPacket
    rw [nextHeader_append (by rw [hh]; simp), hh]
  | complete hd =>
    rw [hh] at h
    simp only at h
    split_ifs at h with hshort
    have hopen : s.openPacket
        { header := hd, payload := (bs.take hd.length.toNat).drop headerSize } = none := by
      cases hopen : s.openPacket
          { header := hd, payload := (bs.take hd.length.toNat).drop headerSize } with
      | none => rfl
      | some pkt =>
        rw [hopen] at h
        cases h
    unfold nextPacket
    rw [nextHeader_append (by rw [hh]; simp), hh]
    simp only
    rw [if_neg (by omega), List.take_append_of_le_length (by omega), hopen]

theorem decodeStream_of_malformed (h : nextPacket s bs = .malformed) : decodeStream s bs = [] :=
  decodeStream_of_not fun p => by rw [h]; simp

/-- A partial packet is none. -/
theorem Partial.not_complete (h : Partial bs) (p : Packet × Bytes) :
    nextPacket s bs ≠ .complete p := by
  intro hp
  obtain ⟨hd, hh, hle, -, -⟩ := nextPacket_complete hp
  obtain ⟨h34, rfl, -⟩ := nextHeader_complete hh
  have h34' : 34 ≤ bs.length := h34
  rcases h with h4 | ⟨-, hshort⟩
  · omega
  · have hfield : (parseHeader bs).length = readU32BE bs 0 := rfl
    rw [hfield] at hle
    omega

theorem Partial.decodeStream (h : Partial bs) : Net.decodeStream s bs = [] :=
  decodeStream_of_not h.not_complete

theorem Partial.length_le (h : Partial bs) : bs.length ≤ maxPacketLen := by
  rcases h with h4 | ⟨hvalid, hshort⟩
  · exact h4.le.trans (by decide)
  · exact hshort.le.trans ((Go.validLength_iff _).mp hvalid).2

theorem partial_nil : Partial [] := Or.inl (by decide)

end Stream

/-! ## Reads -/

section Reads

variable {σ : Type} {s : Session} {onData : DataCallback σ} {c : Receiver σ}

/-- Not closed in any way. -/
structure Receiver.Open (c : Receiver σ) : Prop where
  closed : c.closed = false
  closing : c.closing = false
  reading : c.reading = true

/-- What has become of the buffered bytes: their packets are passed on, and either the
rest is partial, or they are malformed, and the connection is closed. -/
structure Processed (s : Session) (c r : Receiver σ) : Prop where
  packets : packets r.log = packets c.log ++ decodeStream s c.ring.bytes
  rest : r.Open ∧ Partial r.ring.bytes ∧
        (∀ as, decodeStream s (c.ring.bytes ++ as) =
          decodeStream s c.ring.bytes ++ decodeStream s (r.ring.bytes ++ as)) ∨
      r.reading = false ∧
        ∀ as, decodeStream s (c.ring.bytes ++ as) = decodeStream s c.ring.bytes

theorem Receiver.Open.close (h : c.Open) : (c.close true).reading = false := by
  unfold Receiver.close
  simp [h.closed, h.closing, Receiver.doClose]

@[simp] theorem Receiver.packets_close (c : Receiver σ) (onLoop : Bool) :
    packets (c.close onLoop).log = packets c.log := by
  have hlog : (c.close onLoop).log = c.log ++ [.close] := by
    unfold Receiver.close
    simp only
    split_ifs <;> rfl
  rw [hlog, TcpRead.packets_close]

/-- A callback that does not close. -/
def Harmless (onData : DataCallback σ) : Prop := ∀ user pkt, (onData user pkt).2 = []

theorem Harmless.deliver (h : Harmless onData) (c : Receiver σ) (pkt : Packet) :
    c.deliver onData pkt =
      { c with user := (onData c.user pkt).1, log := c.log ++ [.packet pkt] } := by
  change ((onData c.user pkt).2).foldl Receiver.call _ = _
  rw [h c.user pkt]
  rfl

theorem processReadBuffer_spec (hcalls : Harmless onData) (hopen : c.Open) :
    Processed s c (c.processReadBuffer s onData) := by
  induction c using Receiver.processReadBuffer.induct s onData with
  | case1 c hframe =>
    have hspec := frame_spec s c.ring
    rw [hframe] at hspec
    have hnil : decodeStream s c.ring.bytes = [] := Partial.decodeStream hspec
    rw [Receiver.processReadBuffer, hframe]
    refine ⟨by rw [hnil, List.append_nil], Or.inl ⟨hopen, hspec, fun as => ?_⟩⟩
    rw [hnil, List.nil_append]
  | case2 c ring hframe =>
    have hspec := frame_spec s c.ring
    rw [hframe] at hspec
    have hnil : decodeStream s c.ring.bytes = [] := decodeStream_of_malformed hspec
    have hring : ({ c with ring } : Receiver σ).Open := ⟨hopen.closed, hopen.closing, hopen.reading⟩
    rw [Receiver.processReadBuffer, hframe]
    refine ⟨?_, Or.inr ⟨hring.close, fun as => ?_⟩⟩
    · rw [Receiver.packets_close, hnil, List.append_nil]
    · rw [hnil, decodeStream_of_malformed (nextPacket_malformed_append hspec)]
  | case3 c pkt ring hframe ih =>
    have hspec := frame_spec s c.ring
    rw [hframe] at hspec
    have hdeliver := hcalls.deliver { c with ring } pkt
    have hring : (({ c with ring } : Receiver σ).deliver onData pkt).Open := by
      rw [hdeliver]
      exact ⟨hopen.closed, hopen.closing, hopen.reading⟩
    have hrest := ih hring
    have hstep : c.processReadBuffer s onData =
        (({ c with ring } : Receiver σ).deliver onData pkt).processReadBuffer s onData := by
      rw [Receiver.processReadBuffer, hframe]
    have hbytes : (({ c with ring } : Receiver σ).deliver onData pkt).ring.bytes = ring.bytes := by
      rw [Receiver.ring_deliver]
    have hfirst : decodeStream s c.ring.bytes = pkt :: decodeStream s ring.bytes :=
      decodeStream_of_complete hspec
    have happend : ∀ as, decodeStream s (c.ring.bytes ++ as) =
        pkt :: decodeStream s (ring.bytes ++ as) :=
      fun as => decodeStream_of_complete (nextPacket_append hspec)
    rw [hstep]
    refine ⟨?_, ?_⟩
    · rw [hrest.packets, hbytes, hdeliver, hfirst, packets_packet, List.append_assoc]
      rfl
    · rcases hrest.rest with ⟨ho, hpart, hmore⟩ | ⟨hshut, hmore⟩
      · refine Or.inl ⟨ho, hpart, fun as => ?_⟩
        have hthis := hmore as
        rw [hbytes] at hthis
        rw [happend, hfirst, hthis]
        rfl
      · refine Or.inr ⟨hshut, fun as => ?_⟩
        have hthis := hmore as
        rw [hbytes] at hthis
        rw [happend, hfirst, hthis]

/-- A read of at most this size fits behind a partial packet. -/
theorem onRead_spec {chunk : Bytes} (hcalls : Harmless onData) (hopen : c.Open)
    (hpart : Partial c.ring.bytes) (hchunk : chunk.length ≤ maxReadBufBytes - maxPacketLen) :
    Processed s { c with ring := c.ring.append chunk } (c.onRead s onData chunk) := by
  have hle := hpart.length_le
  have hbytes := c.ring.bytes_append chunk
  unfold Receiver.onRead
  by_cases hnil : chunk = []
  · subst hnil
    rw [List.append_nil] at hbytes
    have hnone : decodeStream s c.ring.bytes = [] := hpart.decodeStream
    rw [if_pos rfl]
    refine ⟨?_, Or.inl ⟨hopen, hpart, fun as => ?_⟩⟩
    · rw [hbytes, hnone, List.append_nil]
    · rw [hbytes, hnone, List.nil_append]
  · have hmax : maxPacketLen ≤ maxReadBufBytes := by decide
    have hsize : ¬ maxReadBufBytes < (c.ring.append chunk).size := by
      rw [← (c.ring.append chunk).length_bytes, hbytes, List.length_append]
      omega
    have hring : ({ c with ring := c.ring.append chunk } : Receiver σ).Open :=
      ⟨hopen.closed, hopen.closing, hopen.reading⟩
    rw [if_neg hnil]
    simp only
    rw [if_neg hsize]
    exact processReadBuffer_spec hcalls hring

theorem receive_spec {chunks : List Bytes} (hcalls : Harmless onData) (hopen : c.Open)
    (hpart : Partial c.ring.bytes)
    (hchunks : ∀ chunk ∈ chunks, chunk.length ≤ maxReadBufBytes - maxPacketLen) :
    packets (c.receive s onData chunks).log =
        packets c.log ++ decodeStream s (c.ring.bytes ++ chunks.flatten) ∧
      ((c.receive s onData chunks).reading = true →
        Partial (c.receive s onData chunks).ring.bytes) := by
  induction chunks generalizing c with
  | nil =>
    have hnone : decodeStream s c.ring.bytes = [] := hpart.decodeStream
    refine ⟨?_, fun _ => hpart⟩
    rw [List.flatten_nil, List.append_nil, hnone, List.append_nil]
    rfl
  | cons chunk chunks ih =>
    have hchunk := hchunks chunk List.mem_cons_self
    have hrest := fun d hd => hchunks d (List.mem_cons_of_mem chunk hd)
    have hread : Processed s { c with ring := c.ring.append chunk } (c.onRead s onData chunk) :=
      onRead_spec hcalls hopen hpart hchunk
    have hbytes := c.ring.bytes_append chunk
    have hpackets := hread.packets
    have hstep : c.receive s onData (chunk :: chunks) =
        (c.onRead s onData chunk).receive s onData chunks := by
      rw [Receiver.receive, if_pos hopen.reading]
    rw [hstep, List.flatten_cons, ← List.append_assoc]
    simp only [hbytes] at hpackets
    rcases hread.rest with ⟨ho, hp, hmore⟩ | ⟨hshut, hmore⟩
    · obtain ⟨hih, hlast⟩ := ih ho hp hrest
      have hthis := hmore chunks.flatten
      simp only [hbytes] at hthis
      refine ⟨?_, hlast⟩
      rw [hih, hpackets, hthis, List.append_assoc]
    · -- no read comes after `uv_close`
      have hthis := hmore chunks.flatten
      simp only [hbytes] at hthis
      have hstop : (c.onRead s onData chunk).receive s onData chunks = c.onRead s onData chunk := by
        cases chunks with
        | nil => rfl
        | cons d ds =>
          rw [Receiver.receive, hshut]
          exact if_neg (by simp)
      rw [hstop]
      refine ⟨?_, fun h => ?_⟩
      · rw [hpackets, hthis]
      · rw [hshut] at h
        cases h

end Reads

/-! ## Framing -/

/-- A connection with nothing in its buffer, wherever in the circle its positions are. -/
def Receiver.init {σ : Type} (ring : RingBuffer) (user : σ) : Receiver σ := { ring, user }

/-- However the stream is cut into reads, and wherever the buffer goes round, `on_data_`
gets the packets of the stream up to the first malformed one; and as long as there is
none, at most a part of one packet is left in the buffer. -/
theorem receive_eq {σ : Type} (onData : DataCallback σ) (ring : RingBuffer) (user : σ)
    (chunks : List Bytes) (hcalls : Harmless onData) (hring : ring.bytes = [])
    (hchunks : ∀ chunk ∈ chunks, chunk.length ≤ maxReadBufBytes - maxPacketLen) :
    packets ((Receiver.init ring user).receive {} onData chunks).log =
        decodeStream {} chunks.flatten ∧
      (((Receiver.init ring user).receive {} onData chunks).reading = true →
        Partial ((Receiver.init ring user).receive {} onData chunks).ring.bytes) := by
  have hpart : Partial (Receiver.init ring user).ring.bytes := by
    change Partial ring.bytes
    rw [hring]
    exact partial_nil
  have hopen : (Receiver.init ring user).Open := ⟨rfl, rfl, rfl⟩
  obtain ⟨hpackets, hlast⟩ := receive_spec (s := {}) hcalls hopen hpart hchunks
  have hbytes : (Receiver.init ring user).ring.bytes = [] := hring
  rw [hbytes, List.nil_append] at hpackets
  exact ⟨hpackets, hlast⟩

/-- A packet and the front of another one, in three reads, the buffer going round. -/
theorem receive_eq_three :
    let ring := RingBuffer.new 50 (by decide)
    let stream := encodePacket { header := { cmdId := 7 }, payload := [1, 2] } ++ [0, 0, 0]
    let c := (Receiver.init ring ()).receive {} (fun _ _ => ((), []))
      [stream.take 3, (stream.drop 3).take 30, stream.drop 33]
    packets c.log = decodeStream {} stream ∧ (c.reading = true → Partial c.ring.bytes) := by
  refine receive_eq (fun _ _ => ((), [])) (RingBuffer.new 50 (by decide)) () _ (fun _ _ => rfl) rfl ?_
  decide

end Gmaker.Net.TcpRead
