import Gmaker.Lib.Tokens
import Gmaker.Net.Packet

/-!
# Gmaker.Net.TcpReader — the read loop of the Go connection

`TCPConn.readLoop` reads a header under a deadline of 200 ms and, when the deadline
expires, simply tries again; the payload is read without a deadline. The bytes come
from the kernel in arbitrary pieces and go through a `bufio.Reader`.

`DecodeHeader` and `ReadPayload` take any `io.Reader`; here they are generic in a
`Source`. The connection's own source is the buffered reader, `bufio`; `plain` is the
abstract one, which only has the bytes and the expiries in their order
(`Gmaker.Lib.Tokens`). `readLoop_bufio` shows that the loop does the same on both:
neither the pieces nor the buffer matter.

The expiries do matter. `DecodeHeader` drops what it has read of a header when it
fails, so an expiry in the middle of a header loses the bytes in front of it
(`delivered_exact`).
-/

namespace Gmaker.Net

open Gmaker.Lib

/-! ## Headers and payloads -/

/-- An `io.Reader` under a read deadline, with `io.ReadFull`. -/
structure Source (σ : Type) where
  setReadDeadline : Bool → σ → σ
  readFull : ℕ → σ → Except ReadError Bytes × σ

/-- Why `DecodeHeader` fails. -/
inductive HeaderError where
  | read (e : ReadError)
  /-- "invalid packet length" -/
  | invalidLength
  /-- "invalid magic" -/
  | invalidMagic
deriving DecidableEq

variable {σ τ : Type}

/-- Whether the length field is one of a packet. -/
def validLength (length : UInt32) : Bool :=
  headerSize ≤ length.toNat && length.toNat ≤ maxPacketLen

/-- The header whose first four bytes hold the length; `buf` holds the others. -/
def headerOf (length : UInt32) (buf : Bytes) : Header where
  length
  magic := readU16BE buf 0
  cmdId := readU32BE buf 2
  seqId := readU32BE buf 6
  flags := readU32BE buf 10
  userId := readU64BE buf 14
  zoneId := readU32BE buf 22
  serviceId := readU32BE buf 26

/-- `DecodeHeader`. -/
def decodeHeader (src : Source σ) (r : σ) : Except HeaderError Header × σ :=
  match src.readFull 4 r with
  | (.error e, r) => (.error (.read e), r)
  | (.ok buf, r) =>
    let length := readU32BE buf 0
    if validLength length then
      match src.readFull (headerSize - 4) r with
      | (.error e, r) => (.error (.read e), r)
      | (.ok buf, r) =>
        let h := headerOf length buf
        if h.magic = magicValue then (.ok h, r) else (.error .invalidMagic, r)
    else (.error .invalidLength, r)

/-- `ReadPayload`. -/
def readPayload (src : Source σ) (h : Header) (r : σ) : Except ReadError Bytes × σ :=
  let payloadLen : ℤ := h.length.toNat - headerSize
  if payloadLen ≤ 0 then (.ok [], r) else src.readFull payloadLen.toNat r

/-! ## The loop -/

/-- What `TCPConn` decrypts with: a key, empty when there is none, and
`crypto.DecryptPacketPayload`. -/
structure Session where
  sessionKey : Bytes := []
  decryptPacketPayload : Bytes → Bytes → Option Bytes := fun _ _ => none

/-- The packet as it is handed to `onData`. -/
def Session.openPacket (s : Session) (pkt : Packet) : Option Packet :=
  if s.sessionKey ≠ [] ∧ hasFlag pkt.header.flags flagEncrypt then
    (s.decryptPacketPayload s.sessionKey pkt.payload).map fun dec =>
      { header := { pkt.header with flags := pkt.header.flags &&& ~~~flagEncrypt }, payload := dec }
  else some pkt

/-- `readLoop`, heartbeat checking off: the packets that `onData` gets, or `none` when
the passes are used up. -/
def readLoop (s : Session) (src : Source σ) : ℕ → σ → List Packet → Option (List Packet)
  | 0, _, _ => none
  | passes + 1, r, out =>
    match decodeHeader src (src.setReadDeadline true r) with
    | (.error e, r) =>
      let r := src.setReadDeadline false r
      if e = .read .timeout then readLoop s src passes r out else some out
    | (.ok h, r) =>
      match readPayload src h (src.setReadDeadline false r) with
      | (.error _, _) => some out
      | (.ok payload, r) =>
        match s.openPacket { header := h, payload } with
        | none => some out
        | some pkt => readLoop s src passes r (out ++ [pkt])

/-! ## Sources that do the same -/

/-- `f` takes a reader of one source to a reader of another that does the same. -/
structure Simulates (src : Source σ) (tgt : Source τ) (f : σ → τ) : Prop where
  setReadDeadline : ∀ on r, f (src.setReadDeadline on r) = tgt.setReadDeadline on (f r)
  readFull : ∀ n r, tgt.readFull n (f r) = ((src.readFull n r).1, f (src.readFull n r).2)

section Simulates

variable {src : Source σ} {tgt : Source τ} {f : σ → τ}

theorem Simulates.decodeHeader (h : Simulates src tgt f) (r : σ) :
    decodeHeader tgt (f r) = ((decodeHeader src r).1, f (decodeHeader src r).2) := by
  unfold Net.decodeHeader
  rw [h.readFull]
  rcases src.readFull 4 r with ⟨e | buf, r⟩
  · rfl
  · simp only
    split_ifs
    · rw [h.readFull]
      rcases src.readFull (headerSize - 4) r with ⟨e | buf, r⟩
      · rfl
      · simp only
        split_ifs <;> rfl
    · rfl

theorem Simulates.readPayload (h : Simulates src tgt f) (hd : Header) (r : σ) :
    readPayload tgt hd (f r) = ((readPayload src hd r).1, f (readPayload src hd r).2) := by
  unfold Net.readPayload
  simp only
  split_ifs
  · rfl
  · exact h.readFull _ r

/-- The loop hands out the same packets. -/
theorem Simulates.readLoop (h : Simulates src tgt f) (s : Session) (passes : ℕ) (r : σ)
    (out : List Packet) : readLoop s tgt passes (f r) out = readLoop s src passes r out := by
  induction passes generalizing r out with
  | zero => rfl
  | succ passes ih =>
    unfold Net.readLoop
    rw [← h.setReadDeadline, h.decodeHeader]
    rcases Net.decodeHeader src (src.setReadDeadline true r) with ⟨e | hd, r⟩
    · simp only
      rw [← h.setReadDeadline, ih]
    · simp only
      rw [← h.setReadDeadline, h.readPayload]
      rcases Net.readPayload src hd (src.setReadDeadline false r) with ⟨e | payload, r⟩
      · rfl
      · simp only
        cases s.openPacket { header := hd, payload } with
        | none => rfl
        | some pkt => exact ih r (out ++ [pkt])

end Simulates

/-! ## The buffered reader -/

/-- What the kernel has for the connection next: some bytes, or 200 ms without
any. -/
inductive Arrival where
  | data (bs : Bytes)
  | expiry
deriving DecidableEq

/-- `conn.Read` into a buffer of `cap` bytes: an expiry is an error only while a
deadline is set, and the end of the arrivals is the end of the stream. -/
def rawRead (deadline : Bool) (cap : ℕ) : List Arrival → Except ReadError Bytes × List Arrival
  | [] => (.error .eof, [])
  | .expiry :: raw => if deadline then (.error .timeout, raw) else rawRead deadline cap raw
  | .data [] :: raw => rawRead deadline cap raw
  | .data (b :: bs) :: raw => (.ok ((b :: bs).take cap), .data ((b :: bs).drop cap) :: raw)

/-- The buffer of `bufio.NewReader`. -/
def bufSize : ℕ := 4096

/-- `bufio.Reader` over the connection: the bytes it has buffered. -/
structure Reader where
  buf : Bytes := []
  raw : List Arrival
  deadline : Bool := false

/-- `bufio.Reader.Read` of up to `n` bytes: buffered ones first; a large read goes
past the empty buffer, any other fills it once. -/
def Reader.read (n : ℕ) (r : Reader) : Except ReadError Bytes × Reader :=
  if r.buf ≠ [] then (.ok (r.buf.take n), { r with buf := r.buf.drop n })
  else if bufSize ≤ n then
    match rawRead r.deadline n r.raw with
    | (res, raw) => (res, { r with raw })
  else
    match rawRead r.deadline bufSize r.raw with
    | (.error e, raw) => (.error e, { r with raw })
    | (.ok bs, raw) => (.ok (bs.take n), { r with buf := bs.drop n, raw })

/-- The loop of `io.ReadFull`; every read gives a byte at least, so that `missing`
passes are enough. -/
def Reader.readMissing : ℕ → ℕ → Reader → Except ReadError Bytes × Reader
  | 0, _, r => (.ok [], r)
  | passes + 1, missing, r =>
    if missing = 0 then (.ok [], r)
    else
      match r.read missing with
      | (.error e, r) => (.error e, r)
      | (.ok bs, r) =>
        match readMissing passes (missing - bs.length) r with
        | (.error e, r) => (.error e, r)
        | (.ok rest, r) => (.ok (bs ++ rest), r)

/-- The connection's source. -/
def bufio : Source Reader where
  setReadDeadline on r := { r with deadline := on }
  readFull n r := r.readMissing n n

/-! ## The plain reader -/

/-- The bytes and the expiries that are still to come. -/
structure TokenReader where
  tokens : List (Token UInt8)
  deadline : Bool := false

/-- The source that has no buffer and no pieces. -/
def plain : Source TokenReader where
  setReadDeadline on r := { r with deadline := on }
  readFull n r :=
    match takeExact r.deadline n r.tokens with
    | (res, tokens) => (res, { r with tokens })

/-- Arrivals one by one. -/
def arrivalTokens : List Arrival → List (Token UInt8)
  | [] => []
  | .data bs :: raw => bs.map .item ++ arrivalTokens raw
  | .expiry :: raw => .expiry :: arrivalTokens raw

/-- The buffered bytes come before what the kernel has. -/
def Reader.plain (r : Reader) : TokenReader where
  tokens := r.buf.map .item ++ arrivalTokens r.raw
  deadline := r.deadline

section Refinement

/-- A read of the connection hands out a piece of the arrivals. -/
theorem rawRead_piece (deadline : Bool) (cap : ℕ) (hcap : 0 < cap) (raw : List Arrival) :
    Piece deadline (arrivalTokens raw) (rawRead deadline cap raw).1
      (arrivalTokens (rawRead deadline cap raw).2) := by
  fun_induction rawRead deadline cap raw with
  | case1 => exact .eof
  | case2 raw hon => exact .timeout hon
  | case3 raw hoff ih => exact .skip (by simpa using hoff) ih
  | case4 raw ih => exact ih
  | case5 b bs raw =>
    rw [arrivalTokens, arrivalTokens, map_item_split (b :: bs) cap]
    exact .items (by simp; omega)

theorem length_rawRead_le {deadline : Bool} {cap : ℕ} {raw raw' : List Arrival} {bs : Bytes}
    (h : rawRead deadline cap raw = (.ok bs, raw')) : bs.length ≤ cap := by
  fun_induction rawRead deadline cap raw with
  | case1 => cases h
  | case2 raw hon => cases h
  | case3 raw hoff ih => exact ih h
  | case4 raw ih => exact ih h
  | case5 b bs' raw =>
    cases h
    exact List.length_take_le _ _

/-- So does a read through the buffer, and it gives at most what was asked for. -/
theorem read_piece {n : ℕ} (hn : 0 < n) (r : Reader) :
    Piece r.deadline r.plain.tokens (r.read n).1 (r.read n).2.plain.tokens ∧
      (r.read n).2.deadline = r.deadline ∧ ∀ bs, (r.read n).1 = .ok bs → bs.length ≤ n := by
  obtain ⟨buf, raw, deadline⟩ := r
  unfold Reader.read Reader.plain
  by_cases hbuf : buf = []
  · subst hbuf
    rw [if_neg (by simp)]
    by_cases hlarge : bufSize ≤ n
    · rw [if_pos hlarge]
      have hpiece := rawRead_piece deadline n hn raw
      rcases hres : rawRead deadline n raw with ⟨res, raw'⟩
      rw [hres] at hpiece
      refine ⟨hpiece, rfl, fun bs hbs => ?_⟩
      cases hbs
      exact length_rawRead_le hres
    · rw [if_neg hlarge]
      have hpiece := rawRead_piece deadline bufSize (by decide) raw
      rcases hres : rawRead deadline bufSize raw with ⟨e | bs, raw'⟩
      · rw [hres] at hpiece
        exact ⟨hpiece, rfl, fun bs hbs => by cases hbs⟩
      · rw [hres] at hpiece
        refine ⟨hpiece.take hn, rfl, fun bs' hbs => ?_⟩
        cases hbs
        exact List.length_take_le _ _
  · rw [if_pos hbuf]
    have hsplit := map_item_split buf n (arrivalTokens raw)
    refine ⟨?_, rfl, fun bs hbs => ?_⟩
    · simp only
      rw [hsplit]
      exact .items (by simp [hbuf]; omega)
    · cases hbs
      exact List.length_take_le _ _

/-- Reading the missing bytes piece by piece. -/
theorem readMissing_eq_takeExact (passes missing : ℕ) (hle : missing ≤ passes) (r : Reader) :
    takeExact r.deadline missing r.plain.tokens =
        ((r.readMissing passes missing).1, (r.readMissing passes missing).2.plain.tokens) ∧
      (r.readMissing passes missing).2.deadline = r.deadline := by
  induction passes generalizing missing r with
  | zero =>
    rw [Nat.le_zero.mp hle]
    exact ⟨takeExact_zero _ _, rfl⟩
  | succ passes ih =>
    unfold Reader.readMissing
    by_cases hzero : missing = 0
    · rw [if_pos hzero, hzero]
      exact ⟨takeExact_zero _ _, rfl⟩
    · rw [if_neg hzero]
      have hpos : 0 < missing := Nat.pos_of_ne_zero hzero
      obtain ⟨hpiece, hdeadline, hlen⟩ := read_piece hpos r
      rcases hres : r.read missing with ⟨e | bs, r'⟩
      · rw [hres] at hpiece hdeadline
        exact ⟨takeExact_piece_error hpiece hpos, hdeadline⟩
      · rw [hres] at hpiece hdeadline hlen
        have hbs : bs.length ≤ missing := hlen bs rfl
        obtain ⟨hne, htake⟩ := takeExact_piece hpiece hbs
        have hlt : missing - bs.length ≤ passes := by
          have := List.length_pos_iff.mpr hne
          omega
        obtain ⟨hrest, hdeadline'⟩ := ih (missing - bs.length) hlt r'
        have hd : r'.deadline = r.deadline := hdeadline
        rw [htake, ← hd, hrest]
        simp only
        rcases hmissing : r'.readMissing passes (missing - bs.length) with ⟨e | rest, r''⟩
        · rw [hmissing] at hdeadline'
          exact ⟨rfl, hdeadline'⟩
        · rw [hmissing] at hdeadline'
          exact ⟨rfl, hdeadline'⟩

theorem bufio_simulates_plain : Simulates bufio plain Reader.plain := by
  refine ⟨fun on r => rfl, fun n r => ?_⟩
  obtain ⟨htake, hdeadline⟩ := readMissing_eq_takeExact n n le_rfl r
  change (match takeExact r.deadline n r.plain.tokens with
    | (res, tokens) => (res, { r.plain with tokens })) = _
  rw [htake]
  change (_, TokenReader.mk _ r.deadline) = _
  rw [← hdeadline]
  rfl

/-- Neither the pieces nor the buffer matter to the loop. -/
theorem readLoop_bufio (s : Session) (passes : ℕ) (r : Reader) (out : List Packet) :
    readLoop s bufio passes r out = readLoop s plain passes r.plain out :=
  (bufio_simulates_plain.readLoop s passes r out).symm

end Refinement

end Gmaker.Net
