import Gmaker.Gateway.Connections
import Gmaker.Gateway.RoomMaps
import Gmaker.Net.Codec
import Gmaker.Net.TcpStream

/-!
# Gmaker.Gateway.Forwarding — how long a packet is when it is passed on

The gateway takes packets of at most `maxPacketLen` bytes, and so does everybody it passes them on
to. A client's packet gets eight bytes longer, but it has been decrypted before, or it came in a
datagram. A packet of an upstream gets eight bytes shorter and is then encrypted, which takes 28
bytes: the longest twenty lengths are too long for the client (`forward_fits_iff`).
-/

namespace Gmaker.Gateway

open Gmaker.Lib Gmaker.Net RoomMaps

/-! ## Encryption -/

/-- AES-256-GCM, as OpenSSL computes it. -/
structure Gcm where
  /-- The ciphertext and the tag, for a key, a nonce and a plaintext. -/
  encrypt : Bytes → Vector UInt8 12 → Bytes → Option (Bytes × Vector UInt8 16)
  /-- The plaintext, for a key, a nonce, a ciphertext and a tag. -/
  decrypt : Bytes → Bytes → Bytes → Bytes → Option Bytes

/-- GCM encrypts byte by byte, and with a good key it encrypts whatever an `int` can count. -/
structure Gcm.Documented (gcm : Gcm) : Prop where
  length_encrypt : ∀ {key nonce plaintext sealed},
    gcm.encrypt key nonce plaintext = some sealed → sealed.1.length = plaintext.length
  length_decrypt : ∀ {key nonce ciphertext tag plaintext},
    gcm.decrypt key nonce ciphertext tag = some plaintext → plaintext.length = ciphertext.length
  encrypts : ∀ {key : Bytes} {plaintext : Bytes} (nonce), key.length = 32 → plaintext.length < 2 ^ 31 →
    (gcm.encrypt key nonce plaintext).isSome

/-- `AESGCMEncrypt`, with what the random generator gives. -/
def aesGcmEncrypt (gcm : Gcm) (random : Option (Vector UInt8 12)) (key plaintext : Bytes) :
    Option Bytes :=
  if key.length ≠ 32 then none
  else random.bind fun nonce =>
    (gcm.encrypt key nonce plaintext).map fun sealed => nonce.toList ++ sealed.1 ++ sealed.2.toList

/-- `AESGCMDecrypt`. -/
def aesGcmDecrypt (gcm : Gcm) (key data : Bytes) : Option Bytes :=
  if key.length ≠ 32 then none
  else if data.length < 12 + 16 then none
  else gcm.decrypt key (data.take 12) ((data.drop 12).take (data.length - 12 - 16))
    (data.drop (data.length - 16))

section Lengths

variable {gcm : Gcm} {random : Option (Vector UInt8 12)} {key plaintext data out : Bytes}

theorem length_aesGcmEncrypt (hgcm : gcm.Documented)
    (h : aesGcmEncrypt gcm random key plaintext = some out) : out.length = plaintext.length + 28 := by
  unfold aesGcmEncrypt at h
  split_ifs at h
  rcases Option.bind_eq_some_iff.mp h with ⟨nonce, -, hsealed⟩
  rcases Option.map_eq_some_iff.mp hsealed with ⟨sealed, hencrypt, rfl⟩
  rw [List.length_append, List.length_append, Vector.length_toList, Vector.length_toList,
    hgcm.length_encrypt hencrypt]
  omega

theorem length_aesGcmDecrypt (hgcm : gcm.Documented) (h : aesGcmDecrypt gcm key data = some out) :
    out.length + 28 = data.length := by
  unfold aesGcmDecrypt at h
  split_ifs at h with hkey hshort
  rw [hgcm.length_decrypt h, List.length_take, List.length_drop]
  omega

end Lengths

/-! ## The gateway -/

/-- What is in the gateway's tables when a packet comes, and what its surroundings do. -/
structure View where
  /-- `sessions_` -/
  sessions : UInt64 → Option Bytes
  /-- there is an entry in `clients_` -/
  clients : UInt64 → Bool
  players : Players UInt64
  /-- `room_members_`, in the order in which a set is gone through -/
  members : UInt64 → List UInt64
  /-- `RouteToPool` finds a pool for the command that takes the packet -/
  pool : UInt32 → Bool
  /-- the random bytes for the packet to a connection -/
  random : UInt64 → Option (Vector UInt8 12)

/-- Who sends a packet to the gateway. -/
inductive Source where
  | client (transport : Transport) (conn : UInt64)
  | upstream
deriving DecidableEq

/-- A packet with another payload. -/
def withPayload (pkt : Packet) (payload : Bytes) : Packet where
  header := { pkt.header with length := UInt32.ofNat (headerSize + payload.length) }
  payload := payload

/-- The payload goes on behind the connection's ID. -/
def extend (conn : UInt64) (pkt : Packet) : Packet :=
  withPayload pkt (writeU64BE conn ++ pkt.payload)

/-- The answer of an upstream without the connection's ID. -/
def plainRes (pkt : Packet) : Packet :=
  withPayload { pkt with header := { pkt.header with flags := pkt.header.flags &&& ~~~flagEncrypt } }
    (pkt.payload.drop 8)

/-- An encrypted packet. -/
def encrypted (pkt : Packet) (payload : Bytes) : Packet :=
  withPayload { pkt with header := { pkt.header with flags := pkt.header.flags ||| flagEncrypt } }
    payload

namespace View

variable (gcm : Gcm) (codec : BindCodec)

/-- `GetSessionKey`. -/
def getSessionKey (v : View) (conn : UInt64) : Bytes := (v.sessions conn).getD []

/-- `EncryptionMiddleware::OnPacket`; without a result the connection is closed. -/
def decryptPacket (v : View) (conn : UInt64) (pkt : Packet) : Option Packet :=
  if v.getSessionKey conn = [] then none
  else if pkt.payload = [] then some pkt
  else (aesGcmDecrypt gcm (v.getSessionKey conn) pkt.payload).map fun plaintext =>
    { pkt with payload := plaintext }

/-- What `HandlePlayerBind` forwards. -/
def handlePlayerBind (v : View) (conn : UInt64) (pkt : Packet) : Option Packet :=
  if v.players.isPlayerBound conn then none
  else (codec.parseReq pkt.payload).bind fun req =>
    if req.playerId = 0 ∨ req.token = [] then none
    else if v.pool pkt.header.cmdId then some (extend conn pkt) else none

/-- What `OnClientPacket` forwards. -/
def onClientPacket (v : View) (conn : UInt64) (pkt : Packet) : Option Packet :=
  if pkt.header.cmdId = cmdGwPlayerBind then v.handlePlayerBind codec conn pkt
  else if 0xFF < pkt.header.cmdId ∧ v.players.isPlayerBound conn = false then none
  else if v.pool pkt.header.cmdId then some (extend conn pkt) else none

/-- What is forwarded of a packet of a client: `OnUDPPacket` does not decrypt. -/
def fromClient (v : View) (transport : Transport) (conn : UInt64) (pkt : Packet) : Option Packet :=
  match transport with
  | .udp => if v.pool pkt.header.cmdId then some (extend conn pkt) else none
  | _ =>
    -- a handshake is answered and not forwarded
    if pkt.header.cmdId = cmdSysHandshake then none
    else (v.decryptPacket gcm conn pkt).bind (v.onClientPacket codec conn)

/-- `build_response_for`. -/
def buildResponseFor (v : View) (target : UInt64) (res : Packet) : Option Packet :=
  if res.payload = [] then some (withPayload res [])
  else if v.getSessionKey target = [] then none
  else (aesGcmEncrypt gcm (v.random target) (v.getSessionKey target) res.payload).map (encrypted res)

/-- `enqueue_to_client`. -/
def enqueueToClient (v : View) (target : UInt64) (res : Packet) : List Packet :=
  if v.clients target then [res] else []

/-- `SendToClientDirect`: without a key, the packet goes as it is. -/
def sendToClientDirect (v : View) (conn : UInt64) (pkt : Packet) : List Packet :=
  if v.clients conn = false then []
  else if v.getSessionKey conn = [] ∨ pkt.payload = [] then [pkt]
  else ((aesGcmEncrypt gcm (v.random conn) (v.getSessionKey conn) pkt.payload).map
    (encrypted pkt)).toList

/-- Whom an answer goes to: those in a room, or one connection. -/
def targets (v : View) (pkt : Packet) : List UInt64 :=
  let id := readU64BE pkt.payload 0
  if hasFlag pkt.header.flags flagRoomBcast then v.members id else [id]

/-- The last part of `OnUpstreamPacket`. -/
def respond (v : View) (pkt : Packet) : List Packet :=
  if pkt.payload.length < 8 then []
  else (v.targets pkt).flatMap fun target =>
    (v.buildResponseFor gcm target (plainRes pkt)).toList.flatMap (v.enqueueToClient target)

/-- `OnUpstreamPacket` on a `CMD_GW_PLAYER_BIND` packet. -/
def onBindResponse (v : View) (pkt : Packet) : List Packet :=
  if pkt.payload.length < 8 then []
  else
    let conn := readU64BE pkt.payload 0
    match codec.parseRes (pkt.payload.drop 8) with
    | none => []
    | some res =>
      match (v.players.takePending conn pkt.header.seqId).2 with
      | none => []
      | some _ =>
        if res.code = 0 then v.respond gcm pkt
        else if conn = 0 then []
        else v.sendToClientDirect gcm conn (plainRes pkt)

/-- What `OnUpstreamPacket` sends to clients. -/
def onUpstreamPacket (v : View) (pkt : Packet) : List Packet :=
  if pkt.header.cmdId = cmdGwRoomJoin ∨ pkt.header.cmdId = cmdGwRoomLeave then []
  else if pkt.header.cmdId = cmdGwPlayerBind then v.onBindResponse gcm codec pkt
  else v.respond gcm pkt

/-- The packets that are passed on. -/
def forward (v : View) (src : Source) (pkt : Packet) : List Packet :=
  match src with
  | .client transport conn => (v.fromClient gcm codec transport conn pkt).toList
  | .upstream => v.onUpstreamPacket gcm codec pkt

end View

/-! ## Lengths -/

section Packets

variable {pkt : Packet}

/-- What goes onto the wire is good if and only if the packet is short enough. -/
theorem wellFormed_encodePacket_iff : WellFormed (encodePacket pkt) ↔ pkt.Sendable := by
  have hread := pkt.read_encodePacket
  constructor
  · intro h
    have hmagic := h.magic
    have hlimit := h.limit
    rw [hread.header] at hmagic
    rw [hread.length] at hlimit
    exact ⟨hmagic, hlimit⟩
  · intro h
    exact wellFormed_iff.mpr ⟨pkt, h, rfl⟩

/-- What `DecodePacket` accepts: WebSockets, KCP and UDP. -/
theorem sendable_of_decodePacket {bs : Bytes} (h : Cpp.decodePacket bs = some pkt) :
    pkt.Sendable ∧ headerSize + pkt.payload.length = bs.length := by
  rcases (Cpp.decodePacket_iff bs pkt).mp h with ⟨p, hp, rfl, rfl⟩
  rw [Cpp.encodePacket_eq]
  exact ⟨⟨hp.magic, hp.length⟩, p.read_encodePacket.length.symm⟩

/-- What the read loop of a TCP connection without a key hands over. -/
theorem sendable_of_nextPacket {s : Session} {bs rest : Bytes} (hkey : s.sessionKey = [])
    (h : nextPacket s bs = .complete (pkt, rest)) : pkt.Sendable := by
  rcases nextPacket_complete h with ⟨hd, hheader, hle, hopen, -⟩
  rcases nextHeader_complete hheader with ⟨-, hparse, hlow⟩
  -- without a key the payload stays as it is
  have hplain : s.openPacket { header := hd, payload := (bs.take hd.length.toNat).drop headerSize } =
      some { header := hd, payload := (bs.take hd.length.toNat).drop headerSize } := by
    rw [Session.openPacket, if_neg]
    rintro ⟨hne, -⟩
    exact hne hkey
  cases hplain.symm.trans hopen
  unfold nextHeader at hheader
  split_ifs at hheader with h4 hvalid h34 hmagic
  rw [← hparse] at hmagic
  have hlimit := (Go.validLength_iff _).mp (by simpa using hvalid)
  refine ⟨by simpa using hmagic, ?_⟩
  have hlength : readU32BE bs 0 = hd.length := by
    rw [hparse]
    rfl
  rw [hlength] at hlimit
  simp only [List.length_drop, List.length_take]
  omega

theorem length_extend (conn : UInt64) (pkt : Packet) :
    (extend conn pkt).payload.length = pkt.payload.length + 8 := by
  change (writeU64BE conn ++ pkt.payload).length = _
  rw [List.length_append, length_writeU64BE, Nat.add_comm]

end Packets

/-! ## From a client -/

/-- The packet was taken off a connection: it is good, and a datagram says its length in 16 bits. -/
structure Accepted (src : Source) (pkt : Packet) : Prop where
  sendable : pkt.Sendable
  datagram : ∀ conn, src = .client .udp conn → headerSize + pkt.payload.length < 2 ^ 16

namespace View

variable {gcm : Gcm} {codec : BindCodec} {v : View} {transport : Transport} {conn : UInt64}
  {pkt pkt' out : Packet}

/-- The payload is nothing, or the nonce and the tag are gone. -/
theorem decryptPacket_cases (hgcm : gcm.Documented) (h : v.decryptPacket gcm conn pkt = some pkt') :
    pkt'.header = pkt.header ∧
      (pkt'.payload = [] ∨ pkt'.payload.length + 28 = pkt.payload.length) := by
  unfold decryptPacket at h
  split_ifs at h with hkey hempty
  · cases h
    exact ⟨rfl, Or.inl hempty⟩
  · rcases Option.map_eq_some_iff.mp h with ⟨plaintext, hdecrypt, rfl⟩
    exact ⟨rfl, Or.inr (length_aesGcmDecrypt hgcm hdecrypt)⟩

theorem onClientPacket_cases (h : v.onClientPacket codec conn pkt = some out) :
    out = extend conn pkt := by
  unfold onClientPacket at h
  split_ifs at h
  · unfold handlePlayerBind at h
    by_cases hbound : v.players.isPlayerBound conn = true
    · rw [if_pos hbound] at h
      cases h
    · rw [if_neg hbound] at h
      rcases Option.bind_eq_some_iff.mp h with ⟨req, -, h⟩
      split_ifs at h
      exact (Option.some.inj h).symm
  · exact (Option.some.inj h).symm

/-- A packet of a client is passed on behind the connection's ID. -/
theorem fromClient_cases (h : v.fromClient gcm codec transport conn pkt = some out) :
    transport = .udp ∧ out = extend conn pkt ∨
      ∃ pkt', v.decryptPacket gcm conn pkt = some pkt' ∧ out = extend conn pkt' := by
  unfold fromClient at h
  split at h
  · left
    split_ifs at h
    exact ⟨rfl, (Option.some.inj h).symm⟩
  · right
    split_ifs at h
    rcases Option.bind_eq_some_iff.mp h with ⟨pkt', hdecrypt, hforward⟩
    exact ⟨pkt', hdecrypt, onClientPacket_cases hforward⟩

/-- It is never too long. -/
theorem sendable_fromClient (hgcm : gcm.Documented) (haccepted : Accepted (.client transport conn) pkt)
    (h : v.fromClient gcm codec transport conn pkt = some out) : out.Sendable := by
  have hlimit := haccepted.sendable.length
  have hheader : headerSize = 34 := rfl
  have hmax : maxPacketLen = 16777216 := rfl
  rcases fromClient_cases h with ⟨rfl, rfl⟩ | ⟨pkt', hdecrypt, rfl⟩
  · have hdatagram := haccepted.datagram conn rfl
    refine ⟨haccepted.sendable.magic, ?_⟩
    rw [length_extend]
    omega
  · rcases decryptPacket_cases hgcm hdecrypt with ⟨hsame, hpayload⟩
    refine ⟨(congrArg Header.magic hsame).trans haccepted.sendable.magic, ?_⟩
    rw [length_extend]
    rcases hpayload with hnil | hlength
    · rw [hnil, List.length_nil]
      omega
    · omega

/-! ## From an upstream -/

/-- A packet that is sent for another: with the same magic, and not much longer. -/
structure Answers (pkt out : Packet) : Prop where
  magic : out.header.magic = pkt.header.magic
  length : out.payload.length ≤ pkt.payload.length - 8 + 28

theorem length_plainRes (pkt : Packet) :
    (plainRes pkt).payload.length = pkt.payload.length - 8 := List.length_drop

theorem length_encrypted (hgcm : gcm.Documented) {random : Option (Vector UInt8 12)}
    {key payload : Bytes} (h : aesGcmEncrypt gcm random key (plainRes pkt).payload = some payload) :
    (encrypted (plainRes pkt) payload).payload.length = pkt.payload.length - 8 + 28 := by
  change payload.length = _
  rw [length_aesGcmEncrypt hgcm h, length_plainRes]

theorem answers_encrypted (hgcm : gcm.Documented) {random : Option (Vector UInt8 12)}
    {key payload : Bytes} (h : aesGcmEncrypt gcm random key (plainRes pkt).payload = some payload) :
    Answers pkt (encrypted (plainRes pkt) payload) :=
  ⟨rfl, (length_encrypted hgcm h).le⟩

theorem answers_buildResponseFor (hgcm : gcm.Documented) {target : UInt64}
    (h : v.buildResponseFor gcm target (plainRes pkt) = some out) : Answers pkt out := by
  unfold buildResponseFor at h
  split_ifs at h
  · cases h
    exact ⟨rfl, Nat.zero_le _⟩
  · rcases Option.map_eq_some_iff.mp h with ⟨payload, hencrypt, rfl⟩
    exact answers_encrypted hgcm hencrypt

theorem answers_sendToClientDirect (hgcm : gcm.Documented)
    (h : out ∈ v.sendToClientDirect gcm conn (plainRes pkt)) : Answers pkt out := by
  unfold sendToClientDirect at h
  split_ifs at h
  · cases h
  · rw [List.mem_singleton.mp h]
    refine ⟨rfl, ?_⟩
    rw [length_plainRes]
    omega
  · rw [Option.mem_toList] at h
    rcases Option.map_eq_some_iff.mp h with ⟨payload, hencrypt, rfl⟩
    exact answers_encrypted hgcm hencrypt

theorem answers_respond (hgcm : gcm.Documented) (h : out ∈ v.respond gcm pkt) : Answers pkt out := by
  unfold respond at h
  split_ifs at h
  · cases h
  · rcases List.mem_flatMap.mp h with ⟨target, -, hin⟩
    rcases List.mem_flatMap.mp hin with ⟨res, hres, hout⟩
    unfold enqueueToClient at hout
    split_ifs at hout
    · rw [List.mem_singleton.mp hout]
      exact answers_buildResponseFor hgcm (Option.mem_toList.mp hres)
    · cases hout

theorem answers_onUpstreamPacket (hgcm : gcm.Documented)
    (h : out ∈ v.onUpstreamPacket gcm codec pkt) : Answers pkt out := by
  unfold onUpstreamPacket at h
  split_ifs at h
  · cases h
  · unfold onBindResponse at h
    split_ifs at h
    · cases h
    · dsimp only at h
      split at h
      · cases h
      · split at h
        · cases h
        · split_ifs at h
          · exact answers_respond hgcm h
          · cases h
          · exact answers_sendToClientDirect hgcm h
  · exact answers_respond hgcm h

/-- The packet is one that is passed on, if somebody is there to take it. -/
def PassedOn (codec : BindCodec) (pkt : Packet) : Prop :=
  pkt.header.cmdId ≠ cmdGwRoomJoin ∧ pkt.header.cmdId ≠ cmdGwRoomLeave ∧
    (pkt.header.cmdId = cmdGwPlayerBind → ∃ res, codec.parseRes (pkt.payload.drop 8) = some res ∧
      (res.code = 0 ∨ readU64BE pkt.payload 0 ≠ 0))

theorem passedOn_of_mem (h : out ∈ v.onUpstreamPacket gcm codec pkt) : PassedOn codec pkt := by
  unfold onUpstreamPacket at h
  split_ifs at h with hcontrol hbind
  · cases h
  · rcases not_or.mp hcontrol with ⟨hjoin, hleave⟩
    refine ⟨hjoin, hleave, fun _ => ?_⟩
    unfold onBindResponse at h
    split_ifs at h
    · cases h
    · dsimp only at h
      split at h
      · cases h
      · next res hparse =>
        refine ⟨res, hparse, ?_⟩
        split at h
        · cases h
        · split_ifs at h with hcode hconn
          · exact Or.inl hcode
          · cases h
          · exact Or.inr hconn
  · rcases not_or.mp hcontrol with ⟨hjoin, hleave⟩
    exact ⟨hjoin, hleave, fun hcmd => absurd hcmd hbind⟩

/-- A gateway to which everybody is connected, with one key for all, in all rooms, with a bind to
answer. -/
def busy (seqId : UInt32) : View where
  sessions _ := some (List.replicate 32 0)
  clients _ := true
  players := { pendingBinds := fun _ => some ⟨1, seqId, 0⟩ }
  members _ := [1]
  pool _ := true
  random _ := some (Vector.replicate 12 0)

/-- There the packet goes to somebody, encrypted. -/
theorem exists_encrypted (hgcm : gcm.Documented) (hlimit : headerSize + pkt.payload.length ≤ maxPacketLen)
    (hlong : 8 < pkt.payload.length) (target : UInt64) (seqId : UInt32) : ∃ payload,
    aesGcmEncrypt gcm ((busy seqId).random target) ((busy seqId).getSessionKey target)
      (plainRes pkt).payload = some payload := by
  have hkey : ((busy seqId).getSessionKey target).length = 32 := List.length_replicate
  have hlength : (plainRes pkt).payload.length < 2 ^ 31 := by
    have hmax : maxPacketLen = 16777216 := rfl
    rw [length_plainRes]
    omega
  obtain ⟨sealed, hsealed⟩ := Option.isSome_iff_exists.mp
    (hgcm.encrypts (Vector.replicate 12 0) hkey hlength)
  refine ⟨(Vector.replicate 12 0).toList ++ sealed.1 ++ sealed.2.toList, ?_⟩
  unfold aesGcmEncrypt
  rw [if_neg (not_not.mpr hkey)]
  change Option.map _ (gcm.encrypt _ (Vector.replicate 12 0) _) = _
  rw [hsealed, Option.map_some]

theorem getSessionKey_busy (seqId : UInt32) (target : UInt64) :
    (busy seqId).getSessionKey target ≠ [] := List.cons_ne_nil _ _

theorem plainRes_ne_nil (hlong : 8 < pkt.payload.length) : (plainRes pkt).payload ≠ [] := by
  rw [← List.length_pos_iff_ne_nil, length_plainRes]
  exact Nat.sub_pos_of_lt hlong

/-- Whomever the packet is for, there it is queued. -/
theorem exists_respond (hgcm : gcm.Documented) (hlimit : headerSize + pkt.payload.length ≤ maxPacketLen)
    (hlong : 8 < pkt.payload.length) (seqId : UInt32) :
    ∃ out ∈ (busy seqId).respond gcm pkt, out.payload.length = pkt.payload.length - 8 + 28 := by
  obtain ⟨target, htarget⟩ : ∃ target, target ∈ (busy seqId).targets pkt := by
    unfold targets
    dsimp only
    split_ifs
    · exact ⟨1, List.mem_singleton_self _⟩
    · exact ⟨_, List.mem_singleton_self _⟩
  rcases exists_encrypted hgcm hlimit hlong target seqId with ⟨payload, hpayload⟩
  refine ⟨encrypted (plainRes pkt) payload, ?_, length_encrypted hgcm hpayload⟩
  unfold respond
  rw [if_neg (by omega), List.mem_flatMap]
  refine ⟨target, htarget, ?_⟩
  rw [buildResponseFor, if_neg (plainRes_ne_nil hlong), if_neg (getSessionKey_busy seqId target),
    hpayload]
  exact List.mem_singleton_self _

/-- And there it is sent at once. -/
theorem exists_sendToClientDirect (hgcm : gcm.Documented)
    (hlimit : headerSize + pkt.payload.length ≤ maxPacketLen) (hlong : 8 < pkt.payload.length)
    (seqId : UInt32) (conn : UInt64) :
    ∃ out ∈ (busy seqId).sendToClientDirect gcm conn (plainRes pkt),
      out.payload.length = pkt.payload.length - 8 + 28 := by
  rcases exists_encrypted hgcm hlimit hlong conn seqId with ⟨payload, hpayload⟩
  refine ⟨encrypted (plainRes pkt) payload, ?_, length_encrypted hgcm hpayload⟩
  unfold sendToClientDirect
  rw [if_neg (by simp [busy]),
    if_neg (not_or.mpr ⟨getSessionKey_busy seqId conn, plainRes_ne_nil hlong⟩), hpayload]
  exact List.mem_singleton_self _

/-- The gateway that waits for this answer passes it on, 20 bytes longer. -/
theorem exists_of_passedOn (hgcm : gcm.Documented) (hpassed : PassedOn codec pkt)
    (hlimit : headerSize + pkt.payload.length ≤ maxPacketLen) (hlong : 8 < pkt.payload.length) :
    ∃ out ∈ (busy pkt.header.seqId).onUpstreamPacket gcm codec pkt,
      out.payload.length = pkt.payload.length - 8 + 28 := by
  obtain ⟨seqId, hseq⟩ : ∃ seqId, seqId = pkt.header.seqId := ⟨_, rfl⟩
  rcases hpassed with ⟨hjoin, hleave, hbind⟩
  rw [← hseq]
  unfold onUpstreamPacket
  rw [if_neg (not_or.mpr ⟨hjoin, hleave⟩)]
  split_ifs with hcmd
  · rcases hbind hcmd with ⟨res, hparse, hcode⟩
    have hpending : ((busy seqId).players.takePending (readU64BE pkt.payload 0) pkt.header.seqId).2 =
        some 1 := by
      rw [← hseq]
      unfold Players.takePending busy
      dsimp only
      rw [if_pos rfl]
    unfold onBindResponse
    rw [if_neg (by omega)]
    dsimp only
    rw [hparse]
    dsimp only
    rw [hpending]
    dsimp only
    -- a bind that failed goes past the queue
    by_cases hzero : res.code = 0
    · rw [if_pos hzero]
      exact exists_respond hgcm hlimit hlong seqId
    · rw [if_neg hzero, if_neg (hcode.resolve_left hzero)]
      exact exists_sendToClientDirect hgcm hlimit hlong seqId (readU64BE pkt.payload 0)
  · exact exists_respond hgcm hlimit hlong seqId

/-! ## Who passes on what -/

/-- For every packet that the gateway accepts, whatever is in its tables: everything it passes on
goes onto the wire as a packet that the other side accepts, if and only if the packet is from a
client, or is at least 20 bytes shorter than the longest packets, or is not one that is passed on.
-/
theorem forward_fits_iff (gcm : Gcm) (codec : BindCodec) (hgcm : gcm.Documented) (src : Source)
    (pkt : Packet) (haccepted : Accepted src pkt) :
    (∀ v : View, ∀ out ∈ v.forward gcm codec src pkt, WellFormed (encodePacket out)) ↔
      src ≠ .upstream ∨ headerSize + pkt.payload.length + 20 ≤ maxPacketLen ∨
        ¬ PassedOn codec pkt := by
  have hlimit := haccepted.sendable.length
  have hheader : headerSize = 34 := rfl
  have hmax : maxPacketLen = 16777216 := rfl
  simp only [wellFormed_encodePacket_iff]
  constructor
  · intro h
    by_contra hnot
    push Not at hnot
    rcases hnot with ⟨rfl, hlong, hpassed⟩
    -- some gateway passes the packet on, with the nonce and the tag
    rcases exists_of_passedOn hgcm hpassed hlimit (by omega) with ⟨out, hout, hlength⟩
    have hfits := (h _ out hout).length
    omega
  · intro h v out hout
    cases src with
    | client transport conn =>
      exact sendable_fromClient hgcm haccepted (Option.mem_toList.mp hout)
    | upstream =>
      have hanswers := answers_onUpstreamPacket hgcm hout
      rcases h with hne | hshort | hkept
      · exact absurd rfl hne
      · refine ⟨hanswers.magic.trans haccepted.sendable.magic, ?_⟩
        have hlength := hanswers.length
        omega
      · exact absurd (passedOn_of_mem hout) hkept

/-- A cipher that leaves everything as it is. -/
def plainGcm : Gcm where
  encrypt key _ plaintext :=
    if key.length = 32 then some (plaintext, Vector.replicate 16 0) else none
  decrypt _ _ ciphertext _ := some ciphertext

theorem documented_plainGcm : plainGcm.Documented where
  length_encrypt := by
    intro key nonce plaintext sealed h
    change (if key.length = 32 then some (plaintext, Vector.replicate 16 0) else none) = _ at h
    split_ifs at h
    cases h
    rfl
  length_decrypt := by
    intro key nonce ciphertext tag plaintext h
    cases h
    rfl
  encrypts := by
    intro key plaintext nonce hkey _
    change (if key.length = 32 then some (plaintext, Vector.replicate 16 0) else none).isSome = _
    rw [if_pos hkey]
    rfl

/-- An answer to connection 7 of which nothing is left but the header. -/
theorem forward_fits_iff_empty :
    let pkt : Packet := { header := { cmdId := 0x30001 }, payload := writeU64BE 7 }
    let codec : BindCodec := { parseReq := fun _ => none, parseRes := fun _ => none }
    (∀ v : View, ∀ out ∈ v.forward plainGcm codec .upstream pkt, WellFormed (encodePacket out)) ↔
      Source.upstream ≠ .upstream ∨ headerSize + pkt.payload.length + 20 ≤ maxPacketLen ∨
        ¬ PassedOn codec pkt := by
  intro pkt codec
  have haccepted : Accepted .upstream pkt := by
    refine ⟨⟨rfl, by decide⟩, ?_⟩
    intro conn hsrc
    cases hsrc
  exact forward_fits_iff plainGcm codec documented_plainGcm .upstream pkt haccepted

/-- A message of the chat service to connection 7, of 16 MB. -/
def longestAnswer : Packet where
  header := { cmdId := 0x30001 }
  payload := writeU64BE 7 ++ List.replicate (maxPacketLen - headerSize - 8) 0

/-- It is accepted, and what becomes of it, whatever cipher that is, is too long. -/
theorem not_forward_fits : Accepted .upstream longestAnswer ∧
    ∀ (gcm : Gcm) (codec : BindCodec), gcm.Documented → ¬ ∀ v : View,
      ∀ out ∈ v.forward gcm codec .upstream longestAnswer, WellFormed (encodePacket out) := by
  have hlength : longestAnswer.payload.length = maxPacketLen - headerSize := by
    change (writeU64BE 7 ++ List.replicate (maxPacketLen - headerSize - 8) 0).length = _
    rw [List.length_append, length_writeU64BE, List.length_replicate]
    rfl
  have hheader : headerSize = 34 := rfl
  have hmax : maxPacketLen = 16777216 := rfl
  refine ⟨⟨⟨rfl, by omega⟩, ?_⟩, ?_⟩
  · intro conn hsrc
    cases hsrc
  · intro gcm codec hgcm h
    have hother : ∀ cmdId : UInt32, cmdId ≠ 0x30001 → longestAnswer.header.cmdId ≠ cmdId := by
      intro cmdId hne heq
      exact hne heq.symm
    have hpassed : PassedOn codec longestAnswer :=
      ⟨hother _ (by decide), hother _ (by decide), fun hcmd => absurd hcmd (hother _ (by decide))⟩
    rcases exists_of_passedOn hgcm hpassed (by omega) (by omega) with ⟨out, hout, hlong⟩
    have hfits := (wellFormed_encodePacket_iff.mp (h _ out hout)).length
    omega

end View

end Gmaker.Gateway
