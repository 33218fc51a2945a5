import Gmaker.Lib.Bytes
import Gmaker.Lib.Scan

/-!
# Gmaker.Lib.WebSocket — the frames of RFC 6455 and the messages they make

The reference that a WebSocket server is compared with: how a client writes a frame
(`Frame.encode`), how a frame is read off the front of a stream (`readFrame`), and how the
frames of a stream make messages (`take`, `decode`). The one thing a server chooses is how
long a message may be.

A frame carries what makes it well formed, so that reading is exact in both directions:
`readFrame` finds a frame if and only if the stream begins with that frame as a client
writes it (`readFrame_iff`).
-/

namespace Gmaker.Lib.WebSocket

open Gmaker.Lib

/-! ## Frames -/

/-- What a frame is for. -/
inductive Opcode where
  | continuation
  | text
  | binary
  | close
  | ping
  | pong
deriving DecidableEq

/-- The four bits on the wire. -/
def Opcode.code : Opcode → ℕ
  | .continuation => 0
  | .text => 1
  | .binary => 2
  | .close => 8
  | .ping => 9
  | .pong => 10

/-- The other codes are reserved. -/
def Opcode.ofCode (n : ℕ) : Option Opcode :=
  [.continuation, .text, .binary, .close, .ping, .pong].find? fun op => op.code = n

def Opcode.isControl : Opcode → Bool
  | .close | .ping | .pong => true
  | .continuation | .text | .binary => false

theorem Opcode.code_lt (op : Opcode) : op.code < 16 := by cases op <;> decide

theorem Opcode.ofCode_iff {n : ℕ} {op : Opcode} : ofCode n = some op ↔ op.code = n := by
  constructor
  · intro h
    exact of_decide_eq_true (List.find?_some (p := fun op : Opcode => op.code = n) h)
  · rintro rfl
    cases op <;> rfl

/-- Masking and unmasking: the key goes round. -/
def mask (key : List.Vector UInt8 4) (bs : List UInt8) : List UInt8 :=
  bs.mapIdx fun i b => b ^^^ key.toList.getD (i % 4) 0

@[simp] theorem length_mask (key : List.Vector UInt8 4) (bs : List UInt8) :
    (mask key bs).length = bs.length := List.length_mapIdx

@[simp] theorem mask_mask (key : List.Vector UInt8 4) (bs : List UInt8) :
    mask key (mask key bs) = bs := by
  unfold mask
  rw [List.mapIdx_mapIdx]
  refine List.ext_getElem (List.length_mapIdx) fun i hi hi' => ?_
  rw [List.getElem_mapIdx]
  change bs[i] ^^^ _ ^^^ _ = _
  rw [UInt8.xor_assoc, UInt8.xor_self, UInt8.xor_zero]

variable {limit : ℕ}

/-- A frame of a client, unmasked: control frames are short and in one piece. -/
@[ext] structure Frame (limit : ℕ) where
  fin : Bool
  opcode : Opcode
  key : List.Vector UInt8 4
  payload : List UInt8
  length_le : payload.length ≤ limit
  control : opcode.isControl = true → fin = true ∧ payload.length ≤ 125

/-! ## On the wire -/

/-- The seven bits of the length: 126 and 127 announce a longer field. -/
def shortLength (n : ℕ) : ℕ := if n < 126 then n else if n < 65536 then 126 else 127

/-- The longer field, of the least size that will do. -/
def longLength (n : ℕ) : List UInt8 := if n < 126 then [] else if n < 65536 then toBE 2 n else toBE 8 n

/-- The first byte: the end of a message, three bits that are not used, the opcode. -/
def firstByte (fin : Bool) (op : Opcode) : UInt8 := UInt8.ofNat (cond fin 128 0 + op.code)

/-- The second byte of a masked frame. -/
def secondByte (n : ℕ) : UInt8 := UInt8.ofNat (128 + shortLength n)

/-- The frame as a client writes it. -/
def Frame.encode (f : Frame limit) : List UInt8 :=
  firstByte f.fin f.opcode :: secondByte f.payload.length ::
    (longLength f.payload.length ++ (f.key.toList ++ mask f.key f.payload))

theorem shortLength_le (n : ℕ) : shortLength n ≤ 127 := by
  unfold shortLength
  split_ifs <;> omega

theorem toNat_firstByte (fin : Bool) (op : Opcode) :
    (firstByte fin op).toNat = cond fin 128 0 + op.code := by
  have hcode := op.code_lt
  rw [firstByte, UInt8.toNat_ofNat']
  cases fin <;> exact Nat.mod_eq_of_lt (by simp only [cond_true, cond_false]; omega)

theorem toNat_secondByte (n : ℕ) : (secondByte n).toNat = 128 + shortLength n := by
  have hle := shortLength_le n
  rw [secondByte, UInt8.toNat_ofNat']
  exact Nat.mod_eq_of_lt (by omega)

/-! ## Reading a frame -/

/-- The length, once its seven bits are known. -/
def readLength (short : ℕ) : Reader UInt8 ℕ :=
  if short < 126 then Reader.pure short
  else if short = 126 then
    Reader.bind (Reader.take 2) fun ext =>
      Reader.require (126 ≤ ofBE ext.toList) fun _ => Reader.pure (ofBE ext.toList)
  else
    Reader.bind (Reader.take 8) fun ext =>
      Reader.require (65536 ≤ ofBE ext.toList ∧ ofBE ext.toList < 2 ^ 63) fun _ =>
        Reader.pure (ofBE ext.toList)

/-- The key and the payload behind the lengths. -/
def readBody (limit : ℕ) (fin : Bool) (op : Opcode)
    (hfin : op.isControl = true → fin = true) (n : ℕ) : Reader UInt8 (Frame limit) :=
  Reader.require (n ≤ limit ∧ (op.isControl = true → n ≤ 125)) fun hn =>
    Reader.bind (Reader.take 4) fun key => Reader.bind (Reader.take n) fun data =>
      Reader.pure
        { fin
          opcode := op
          key
          payload := mask key data.toList
          length_le := by
            rw [length_mask, data.toList_length]
            exact hn.1
          control := by
            intro hop
            rw [length_mask, data.toList_length]
            exact ⟨hfin hop, hn.2 hop⟩ }

/-- What is behind the first two bytes, once they are taken apart. -/
def readOpened (limit : ℕ) (fin : Bool) (code short : ℕ) : Reader UInt8 (Frame limit) :=
  Reader.choose (Opcode.ofCode code) fun op =>
    Reader.require (op.isControl = true → fin = true) fun hfin =>
      Reader.bind (readLength short) (readBody limit fin op hfin)

/-- The frame at the front of the stream. -/
def readFrame (limit : ℕ) : Reader UInt8 (Frame limit) :=
  Reader.bind (Reader.take 2) fun head =>
    Reader.require (head.head.toNat / 16 % 8 = 0 ∧ 128 ≤ head.tail.head.toNat) fun _ =>
      readOpened limit (decide (128 ≤ head.head.toNat)) (head.head.toNat % 16)
        (head.tail.head.toNat % 128)

theorem steady_readLength (short : ℕ) : (readLength short).Steady := by
  unfold readLength
  split_ifs
  · exact Reader.steady_pure _
  · exact (Reader.steady_take 2).bind fun _ => .require fun _ => Reader.steady_pure _
  · exact (Reader.steady_take 8).bind fun _ => .require fun _ => Reader.steady_pure _

/-- The pieces of the stream do not matter to a frame. -/
theorem steady_readFrame (limit : ℕ) : (readFrame limit).Steady := by
  refine (Reader.steady_take 2).bind fun head => .require fun _ => ?_
  refine .choose fun op => .require fun hfin => (steady_readLength _).bind fun n => ?_
  exact .require fun _ => (Reader.steady_take 4).bind fun key =>
    (Reader.steady_take n).bind fun data => Reader.steady_pure _

/-! ## Reading is the inverse of writing -/

theorem readLength_longLength {n : ℕ} (hn : n < 2 ^ 63) (rest : List UInt8) :
    readLength (shortLength n) (longLength n ++ rest) = .found n rest := by
  unfold readLength shortLength longLength
  split_ifs with h1 h2 h3 h4 h5
  all_goals first | omega | skip
  · rfl
  · obtain ⟨ext, hext⟩ : ∃ ext : List.Vector UInt8 2, ext.toList = toBE 2 n :=
      ⟨⟨_, length_toBE 2 n⟩, rfl⟩
    have hval : ofBE ext.toList = n := by
      rw [hext]
      exact ofBE_toBE_of_lt (by omega)
    rw [← hext, Reader.bind_found (Reader.take_append_left ext rest),
      Reader.require_pos (by omega), hval, Reader.pure]
  · obtain ⟨ext, hext⟩ : ∃ ext : List.Vector UInt8 8, ext.toList = toBE 8 n :=
      ⟨⟨_, length_toBE 8 n⟩, rfl⟩
    have hval : ofBE ext.toList = n := by
      rw [hext]
      exact ofBE_toBE_of_lt (by omega)
    rw [← hext, Reader.bind_found (Reader.take_append_left ext rest),
      Reader.require_pos (by omega), hval, Reader.pure]

theorem readLength_eq_found {short n : ℕ} {bs rest : List UInt8} (hshort : short ≤ 127)
    (h : readLength short bs = .found n rest) :
    short = shortLength n ∧ bs = longLength n ++ rest := by
  unfold readLength at h
  split_ifs at h with h1 h2
  · cases h
    unfold shortLength longLength
    rw [if_pos h1, if_pos h1]
    exact ⟨rfl, rfl⟩
  · obtain ⟨ext, mid, htake, hreq⟩ := Reader.bind_eq_found h
    obtain ⟨hge, hpure⟩ := Reader.require_eq_found hreq
    cases hpure
    have hlt : ofBE ext.toList < 65536 := by
      have hpow := ofBE_lt ext.toList
      rw [ext.toList_length] at hpow
      exact hpow
    unfold shortLength longLength
    rw [if_neg (by omega), if_pos hlt, if_neg (by omega), if_pos hlt]
    refine ⟨h2, ?_⟩
    rw [Reader.take_eq_found htake]
    congr 1
    refine ofBE_inj (by rw [length_toBE, ext.toList_length]) ?_
    rw [ofBE_toBE_of_lt hlt]
  · obtain ⟨ext, mid, htake, hreq⟩ := Reader.bind_eq_found h
    obtain ⟨⟨hge, htop⟩, hpure⟩ := Reader.require_eq_found hreq
    cases hpure
    unfold shortLength longLength
    rw [if_neg (by omega), if_neg (by omega), if_neg (by omega), if_neg (by omega)]
    refine ⟨by omega, ?_⟩
    rw [Reader.take_eq_found htake]
    congr 1
    refine ofBE_inj (by rw [length_toBE, ext.toList_length]) ?_
    rw [ofBE_toBE_of_lt (by omega)]

theorem toList_two {τ : Type} (v : List.Vector τ 2) : v.toList = [v.head, v.tail.head] := by
  obtain ⟨l, hl⟩ := v
  obtain ⟨a, b, rfl⟩ := List.length_eq_two.mp hl
  rfl

theorem readBody_encode {n : ℕ} (f : Frame limit) (hfin : f.opcode.isControl = true → f.fin = true)
    (hn : n = f.payload.length) (rest : List UInt8) :
    readBody limit f.fin f.opcode hfin n (f.key.toList ++ (mask f.key f.payload ++ rest)) =
      .found f rest := by
  subst hn
  obtain ⟨data, hdata⟩ : ∃ data : List.Vector UInt8 f.payload.length,
      data.toList = mask f.key f.payload := ⟨⟨_, length_mask f.key f.payload⟩, rfl⟩
  have hpayload : mask f.key data.toList = f.payload := by
    rw [hdata, mask_mask]
  rw [readBody, Reader.require_pos ⟨f.length_le, fun hop => (f.control hop).2⟩,
    Reader.bind_found (Reader.take_append_left f.key _), ← hdata,
    Reader.bind_found (Reader.take_append_left data rest), Reader.pure]
  congr 1
  exact Frame.ext rfl rfl rfl hpayload

theorem readBody_eq_found {fin : Bool} {op : Opcode} {hfin : op.isControl = true → fin = true}
    {n : ℕ} {bs rest : List UInt8} {f : Frame limit}
    (h : readBody limit fin op hfin n bs = .found f rest) :
    f.fin = fin ∧ f.opcode = op ∧ f.payload.length = n ∧
      bs = f.key.toList ++ (mask f.key f.payload ++ rest) := by
  obtain ⟨hn, hbind⟩ := Reader.require_eq_found h
  obtain ⟨key, mid, hkey, hbind⟩ := Reader.bind_eq_found hbind
  obtain ⟨data, mid', hdata, hpure⟩ := Reader.bind_eq_found hbind
  cases hpure
  refine ⟨rfl, rfl, ?_, ?_⟩
  · rw [length_mask, data.toList_length]
  · rw [Reader.take_eq_found hkey, Reader.take_eq_found hdata, mask_mask]

theorem readOpened_encode (hlimit : limit < 2 ^ 63) (f : Frame limit) (rest : List UInt8) :
    readOpened limit f.fin f.opcode.code (shortLength f.payload.length)
      (longLength f.payload.length ++ (f.key.toList ++ (mask f.key f.payload ++ rest))) =
        .found f rest := by
  have hlen := f.length_le
  rw [readOpened, Opcode.ofCode_iff.mpr rfl, Reader.choose,
    Reader.require_pos fun hc => (f.control hc).1,
    Reader.bind_found (readLength_longLength (by omega) _)]
  exact readBody_encode f _ rfl rest

theorem readFrame_of_lt {bs : List UInt8} (h : bs.length < 2) : readFrame limit bs = .more :=
  Reader.bind_more _ (Reader.take_of_lt h)

theorem readFrame_cons (b0 b1 : UInt8) (bs : List UInt8) :
    readFrame limit (b0 :: b1 :: bs) =
      Reader.require (b0.toNat / 16 % 8 = 0 ∧ 128 ≤ b1.toNat) (fun _ =>
        readOpened limit (decide (128 ≤ b0.toNat)) (b0.toNat % 16) (b1.toNat % 128)) bs := by
  have hle : 2 ≤ (b0 :: b1 :: bs).length := by
    rw [List.length_cons, List.length_cons]
    omega
  obtain ⟨head, hhead, htake⟩ := Reader.take_of_le hle
  rw [toList_two] at hhead
  injection hhead with h0 htail
  injection htail with h1
  rw [readFrame, Reader.bind_found htake, h0, h1]
  rfl

theorem readOpened_of_none {fin : Bool} {code short : ℕ} (h : Opcode.ofCode code = none)
    (bs : List UInt8) : readOpened limit fin code short bs = .bad := by
  rw [readOpened, h, Reader.choose]

/-- A control frame that is not the whole message is refused. -/
theorem readOpened_of_not_fin {fin : Bool} {code short : ℕ} {op : Opcode}
    (hop : Opcode.ofCode code = some op) (h : ¬(op.isControl = true → fin = true))
    (bs : List UInt8) : readOpened limit fin code short bs = .bad := by
  rw [readOpened, hop, Reader.choose, Reader.require_neg h]

theorem readOpened_of_some {fin : Bool} {code short : ℕ} {op : Opcode}
    (hop : Opcode.ofCode code = some op) (h : op.isControl = true → fin = true)
    (bs : List UInt8) :
    readOpened limit fin code short bs =
      Reader.bind (readLength short) (readBody limit fin op h) bs := by
  rw [readOpened, hop, Reader.choose, Reader.require_pos h]

theorem readOpened_eq_found {fin : Bool} {code short : ℕ} {bs rest : List UInt8}
    {f : Frame limit} (h : readOpened limit fin code short bs = .found f rest) :
    ∃ op hfin n mid, Opcode.ofCode code = some op ∧ readLength short bs = .found n mid ∧
      readBody limit fin op hfin n mid = .found f rest := by
  obtain ⟨op, hop, hreq⟩ := Reader.choose_eq_found h
  obtain ⟨hfin, hbind⟩ := Reader.require_eq_found hreq
  obtain ⟨n, mid, hlength, hbody⟩ := Reader.bind_eq_found hbind
  exact ⟨op, hfin, n, mid, hop, hlength, hbody⟩

/-- Whatever the opcode, a length that is refused refuses the frame. -/
theorem readOpened_of_bad {fin : Bool} {code short : ℕ} {bs : List UInt8}
    (h : ∀ op hfin, Reader.bind (readLength short) (readBody limit fin op hfin) bs = .bad) :
    readOpened limit fin code short bs = .bad := by
  rcases hop : Opcode.ofCode code with _ | op
  · exact readOpened_of_none hop bs
  · by_cases hfin : op.isControl = true → fin = true
    · rw [readOpened_of_some hop hfin, h op hfin]
    · exact readOpened_of_not_fin hop hfin bs

theorem readBody_of_not {fin : Bool} {op : Opcode} {hfin : op.isControl = true → fin = true}
    {n : ℕ} (h : ¬(n ≤ limit ∧ (op.isControl = true → n ≤ 125))) (bs : List UInt8) :
    readBody limit fin op hfin n bs = .bad := Reader.require_neg h _ bs

theorem readBody_ne_found {fin : Bool} {op : Opcode} {hfin : op.isControl = true → fin = true}
    {n : ℕ} {bs : List UInt8} (h : bs.length < 4 + n) (f : Frame limit) (rest : List UInt8) :
    readBody limit fin op hfin n bs ≠ .found f rest := by
  intro hfound
  obtain ⟨-, -, hn, rfl⟩ := readBody_eq_found hfound
  rw [List.length_append, List.length_append, f.key.toList_length, length_mask] at h
  omega

theorem readBody_of_le {fin : Bool} {op : Opcode} (hfin : op.isControl = true → fin = true)
    {n : ℕ} {bs : List UInt8} (hn : n ≤ limit ∧ (op.isControl = true → n ≤ 125))
    (h : 4 + n ≤ bs.length) :
    ∃ f : Frame limit, readBody limit fin op hfin n bs = .found f (bs.drop (4 + n)) ∧
      f.fin = fin ∧ f.opcode = op ∧ f.payload.length = n ∧ f.key.toList = bs.take 4 ∧
      f.payload = mask f.key ((bs.drop 4).take n) := by
  have hdata : n ≤ (bs.drop 4).length := by
    rw [List.length_drop]
    omega
  have hle : 4 ≤ bs.length := by omega
  obtain ⟨key, hkey, htake⟩ := Reader.take_of_le hle
  obtain ⟨data, hbytes, htake'⟩ := Reader.take_of_le hdata
  rw [readBody, Reader.require_pos hn, Reader.bind_found htake, Reader.bind_found htake',
    Reader.pure, List.drop_drop]
  refine ⟨_, rfl, rfl, rfl, ?_, hkey, ?_⟩
  · rw [length_mask, data.toList_length]
  · rw [← hbytes]

theorem readFrame_encode (hlimit : limit < 2 ^ 63) (f : Frame limit) (rest : List UInt8) :
    readFrame limit (f.encode ++ rest) = .found f rest := by
  obtain ⟨head, hhead⟩ : ∃ head : List.Vector UInt8 2,
      head.toList = [firstByte f.fin f.opcode, secondByte f.payload.length] := ⟨⟨_, rfl⟩, rfl⟩
  have hsplit : f.encode ++ rest = head.toList ++ (longLength f.payload.length ++
      (f.key.toList ++ (mask f.key f.payload ++ rest))) := by
    rw [hhead, Frame.encode]
    simp only [List.cons_append, List.nil_append, List.append_assoc]
  rw [toList_two] at hhead
  injection hhead with h0 htail
  injection htail with h1
  have hcode := f.opcode.code_lt
  have hshort := shortLength_le f.payload.length
  have hb0 : head.head.toNat = cond f.fin 128 0 + f.opcode.code := by
    rw [h0, toNat_firstByte]
  have hb1 : head.tail.head.toNat = 128 + shortLength f.payload.length := by
    rw [h1, toNat_secondByte]
  -- the parts of the first byte
  have hfin : decide (128 ≤ head.head.toNat) = f.fin := by
    rw [hb0]
    cases f.fin
    · exact decide_eq_false (by simp only [cond_false]; omega)
    · exact decide_eq_true (by simp only [cond_true]; omega)
  have hop : head.head.toNat % 16 = f.opcode.code := by
    rw [hb0]
    cases f.fin <;> simp only [cond_true, cond_false] <;> omega
  have hrsv : head.head.toNat / 16 % 8 = 0 := by
    rw [hb0]
    cases f.fin <;> simp only [cond_true, cond_false] <;> omega
  have hlow : head.tail.head.toNat % 128 = shortLength f.payload.length := by omega
  rw [hsplit, readFrame, Reader.bind_found (Reader.take_append_left head _),
    Reader.require_pos ⟨hrsv, by omega⟩, hfin, hop, hlow]
  exact readOpened_encode hlimit f rest

theorem readFrame_eq_found {bs rest : List UInt8} {f : Frame limit}
    (h : readFrame limit bs = .found f rest) : bs = f.encode ++ rest := by
  obtain ⟨head, mid, hhead, hreq⟩ := Reader.bind_eq_found h
  obtain ⟨⟨hrsv, hmasked⟩, hopened⟩ := Reader.require_eq_found hreq
  obtain ⟨op, hfin, n, mid', hop, hlength, hbody⟩ := readOpened_eq_found hopened
  have hb0 := head.head.toNat_lt
  have hb1 := head.tail.head.toNat_lt
  obtain ⟨hshort, rfl⟩ := readLength_eq_found (by omega) hlength
  obtain ⟨hf, ho, hn, rfl⟩ := readBody_eq_found hbody
  rw [Opcode.ofCode_iff] at hop
  have hfirst : head.head = firstByte f.fin f.opcode := by
    apply UInt8.toNat_inj.mp
    rw [toNat_firstByte, hf, ho, hop]
    by_cases h128 : 128 ≤ head.head.toNat
    · rw [decide_eq_true h128, cond_true]
      omega
    · rw [decide_eq_false h128, cond_false]
      omega
  have hsecond : head.tail.head = secondByte f.payload.length := by
    apply UInt8.toNat_inj.mp
    rw [toNat_secondByte, hn, ← hshort]
    omega
  rw [Reader.take_eq_found hhead, toList_two, hfirst, hsecond, Frame.encode, hn]
  simp only [List.cons_append, List.nil_append, List.append_assoc]

/-- A frame is found exactly where a client has written one. -/
theorem readFrame_iff (hlimit : limit < 2 ^ 63) {bs rest : List UInt8} {f : Frame limit} :
    readFrame limit bs = .found f rest ↔ bs = f.encode ++ rest := by
  constructor
  · exact readFrame_eq_found
  · rintro rfl
    exact readFrame_encode hlimit f rest

theorem length_encode_pos (f : Frame limit) : 0 < f.encode.length := Nat.succ_pos _

theorem length_rest_lt {bs rest : List UInt8} {f : Frame limit}
    (h : readFrame limit bs = .found f rest) : rest.length < bs.length := by
  have hpos := length_encode_pos f
  rw [readFrame_eq_found h, List.length_append]
  omega

/-! ## Messages -/

/-- What a message holds. -/
inductive Kind where
  | text
  | binary
deriving DecidableEq

/-- What a stream gives its reader: a message, or a ping to be answered. -/
inductive Output where
  | message (kind : Kind) (payload : List UInt8)
  | ping (payload : List UInt8)
deriving DecidableEq

/-- The message that has begun and not ended. -/
abbrev Part := Option (Kind × List UInt8)

/-- The first frame of a message. -/
def begin (kind : Kind) (f : Frame limit) : Part → Option (Part × List Output)
  | some _ => none
  | none =>
    if f.fin then some (none, [.message kind f.payload]) else some (some (kind, f.payload), [])

/-- A further frame of a message. -/
def extend (f : Frame limit) : Part → Option (Part × List Output)
  | none => none
  | some (kind, payload) =>
    if limit < payload.length + f.payload.length then none
    else if f.fin then some (none, [.message kind (payload ++ f.payload)])
    else some (some (kind, payload ++ f.payload), [])

/-- A frame joins the others: `none` when the stream ends with it, by a close frame or
because no such frame may come here. -/
def join (part : Part) (f : Frame limit) : Option (Part × List Output) :=
  match f.opcode with
  | .close => none
  | .ping => some (part, [.ping f.payload])
  | .pong => some (part, [])
  | .text => begin .text f part
  | .binary => begin .binary f part
  | .continuation => extend f part

/-- Everything a stream gives, up to its end or its first error. -/
def decode (limit : ℕ) (part : Part) (bs : List UInt8) : List Output :=
  match _h : readFrame limit bs with
  | .more => []
  | .bad => []
  | .found f rest =>
    match join part f with
    | none => []
    | some (part', out) => out ++ decode limit part' rest
termination_by bs.length
decreasing_by exact length_rest_lt _h

theorem decode_found {part part' : Part} {bs rest : List UInt8} {f : Frame limit}
    {out : List Output} (h : readFrame limit bs = .found f rest)
    (hjoin : join part f = some (part', out)) :
    decode limit part bs = out ++ decode limit part' rest := by
  rw [decode]
  split
  · rename_i hmore
    rw [hmore] at h
    cases h
  · rename_i hbad
    rw [hbad] at h
    cases h
  · rename_i f' rest' hfound
    rw [hfound] at h
    cases h
    rw [hjoin]

theorem decode_of_not_found {part : Part} {bs : List UInt8}
    (h : ∀ f rest, readFrame limit bs = .found f rest → join part f = none) :
    decode limit part bs = [] := by
  rw [decode]
  split
  · rfl
  · rfl
  · rename_i f rest hfound
    rw [h f rest hfound]

/-- A frame as a client writes it joins the others. -/
theorem decode_encode (hlimit : limit < 2 ^ 63) {part part' : Part} {f : Frame limit}
    {out : List Output} (hjoin : join part f = some (part', out)) (rest : List UInt8) :
    decode limit part (f.encode ++ rest) = out ++ decode limit part' rest :=
  decode_found (readFrame_encode hlimit f rest) hjoin

/-! ## The end of a stream -/

/-- The stream ends here: what comes next is refused, or is its last frame. -/
inductive Ends (limit : ℕ) (part : Part) (bs : List UInt8) : Prop
  | bad (h : readFrame limit bs = .bad)
  | last (f : Frame limit) (rest : List UInt8) (h : readFrame limit bs = .found f rest)
      (hjoin : join part f = none)

/-- The stream has ended, here or further on. -/
inductive Over (limit : ℕ) : Part → List UInt8 → Prop
  | here {part : Part} {bs : List UInt8} (h : Ends limit part bs) : Over limit part bs
  | later {part part' : Part} {bs rest : List UInt8} {f : Frame limit} {out : List Output}
      (h : readFrame limit bs = .found f rest) (hjoin : join part f = some (part', out))
      (hrest : Over limit part' rest) : Over limit part bs

theorem Ends.append {part : Part} {bs : List UInt8} (h : Ends limit part bs) (later : List UInt8) :
    Ends limit part (bs ++ later) := by
  cases h with
  | bad h => exact .bad ((steady_readFrame limit).bad _ later h)
  | last f rest h hjoin => exact .last f _ ((steady_readFrame limit).found _ later _ _ h) hjoin

theorem Ends.decode {part : Part} {bs : List UInt8} (h : Ends limit part bs) :
    decode limit part bs = [] := by
  refine decode_of_not_found fun f rest hfound => ?_
  cases h with
  | bad h =>
    rw [h] at hfound
    cases hfound
  | last f' rest' h hjoin =>
    rw [h] at hfound
    cases hfound
    exact hjoin

/-- A stream that has ended gives nothing more, whatever comes. -/
theorem Over.decode_append {part : Part} {bs : List UInt8} (h : Over limit part bs)
    (later : List UInt8) : decode limit part (bs ++ later) = decode limit part bs := by
  induction h with
  | here h => rw [h.decode, (h.append later).decode]
  | later h hjoin hrest ih =>
    rw [decode_found h hjoin, decode_found ((steady_readFrame limit).found _ later _ _ h) hjoin, ih]

end Gmaker.Lib.WebSocket
