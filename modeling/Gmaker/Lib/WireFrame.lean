import Gmaker.Lib.WebSocket

/-!
# Gmaker.Lib.WireFrame — frames of either side, as they are on the wire

A frame of RFC 6455 with or without a masking key, its payload as it is sent. What comes
before the payload is a `WireHeader`; that its length has the least encoding and that
control frames are short and whole is part of the type. `readHeader` and `readWire` read
them off the front of a stream, and find one exactly where it was written (`readHeader_iff`,
`readWire_iff`).
-/

namespace Gmaker.Lib.WebSocket

open Gmaker.Lib

/-! ## Headers -/

/-- What comes before the payload. -/
@[ext] structure WireHeader where
  fin : Bool
  opcode : Opcode
  key : Option (List.Vector UInt8 4)
  length : ℕ
  length_lt : length < 2 ^ 63
  control : opcode.isControl = true → fin = true ∧ length ≤ 125

/-- The second byte: whether there is a key, and the seven bits of the length. -/
def lengthByte (masked : Bool) (n : ℕ) : UInt8 := UInt8.ofNat (cond masked 128 0 + shortLength n)

/-- The key, if there is one. -/
def keyBytes : Option (List.Vector UInt8 4) → List UInt8
  | none => []
  | some key => key.toList

/-- The header on the wire. -/
def WireHeader.encode (h : WireHeader) : List UInt8 :=
  firstByte h.fin h.opcode :: lengthByte h.key.isSome h.length ::
    (longLength h.length ++ keyBytes h.key)

/-- The size of the longer field of the length. -/
def extSize (short : ℕ) : ℕ := if short = 126 then 2 else if short = 127 then 8 else 0

/-- How many bytes the header at the front of a stream has, by its second byte. -/
def wireHeaderSize (bs : List UInt8) : ℕ :=
  let second := (bs.getD 1 0).toNat
  2 + extSize (second % 128) + (if 128 ≤ second then 4 else 0)

/-- A frame. -/
@[ext] structure WireFrame where
  header : WireHeader
  data : List UInt8
  length_eq : data.length = header.length

/-- The frame on the wire. -/
def WireFrame.encode (f : WireFrame) : List UInt8 := f.header.encode ++ f.data

theorem toNat_lengthByte (masked : Bool) (n : ℕ) :
    (lengthByte masked n).toNat = cond masked 128 0 + shortLength n := by
  have hle := shortLength_le n
  rw [lengthByte, UInt8.toNat_ofNat']
  cases masked <;> exact Nat.mod_eq_of_lt (by simp only [cond_true, cond_false]; omega)

/-! ## Reading -/

/-- The key. -/
def readKey (masked : Bool) : Reader UInt8 (Option (List.Vector UInt8 4)) :=
  if masked then Reader.bind (Reader.take 4) fun key => Reader.pure (some key)
  else Reader.pure none

/-- What is behind the first two bytes. -/
def readTail (fin : Bool) (op : Opcode) (masked : Bool) (short : ℕ) : Reader UInt8 WireHeader :=
  Reader.require (op.isControl = true → fin = true ∧ short ≤ 125) fun _ =>
    Reader.bind (readLength short) fun n =>
      Reader.require (n < 2 ^ 63 ∧ (op.isControl = true → fin = true ∧ n ≤ 125)) fun hn =>
        Reader.bind (readKey masked) fun key =>
          Reader.pure { fin, opcode := op, key, length := n, length_lt := hn.1, control := hn.2 }

/-- The header at the front of the stream. -/
def readHeader : Reader UInt8 WireHeader :=
  Reader.bind (Reader.take 2) fun head =>
    Reader.require (head.head.toNat / 16 % 8 = 0) fun _ =>
      Reader.choose (Opcode.ofCode (head.head.toNat % 16)) fun op =>
        readTail (decide (128 ≤ head.head.toNat)) op (decide (128 ≤ head.tail.head.toNat))
          (head.tail.head.toNat % 128)

/-- The frame at the front of the stream. -/
def readWire : Reader UInt8 WireFrame :=
  Reader.bind readHeader fun header =>
    Reader.bind (Reader.take header.length) fun data =>
      Reader.pure { header, data := data.toList, length_eq := data.toList_length }

theorem steady_readKey (masked : Bool) : (readKey masked).Steady := by
  unfold readKey
  split_ifs
  · exact (Reader.steady_take 4).bind fun _ => Reader.steady_pure _
  · exact Reader.steady_pure _

theorem steady_readHeader : readHeader.Steady := by
  refine (Reader.steady_take 2).bind fun head => .require fun _ => .choose fun op => ?_
  refine .require fun _ => (steady_readLength _).bind fun n => .require fun _ => ?_
  exact (steady_readKey _).bind fun key => Reader.steady_pure _

/-! ## Reading is the inverse of writing -/

theorem readKey_keyBytes (key : Option (List.Vector UInt8 4)) (rest : List UInt8) :
    readKey key.isSome (keyBytes key ++ rest) = .found key rest := by
  cases key with
  | none => rfl
  | some key =>
    change Reader.bind (Reader.take 4) _ _ = _
    rw [keyBytes, Reader.bind_found (Reader.take_append_left key rest), Reader.pure]

theorem readKey_eq_found {masked : Bool} {key : Option (List.Vector UInt8 4)}
    {bs rest : List UInt8} (h : readKey masked bs = .found key rest) :
    masked = key.isSome ∧ bs = keyBytes key ++ rest := by
  unfold readKey at h
  split_ifs at h with hmasked
  · rcases Reader.bind_eq_found h with ⟨k, mid, htake, hpure⟩
    cases hpure
    exact ⟨hmasked, Reader.take_eq_found htake⟩
  · cases h
    exact ⟨Bool.eq_false_of_not_eq_true hmasked, rfl⟩

/-- The parts of the first byte. -/
theorem firstByte_parts (fin : Bool) (op : Opcode) :
    (firstByte fin op).toNat / 16 % 8 = 0 ∧ (firstByte fin op).toNat % 16 = op.code ∧
      decide (128 ≤ (firstByte fin op).toNat) = fin := by
  have hcode := op.code_lt
  rw [toNat_firstByte]
  cases fin with
  | true =>
    simp only [cond_true]
    exact ⟨by omega, by omega, decide_eq_true (by omega)⟩
  | false =>
    simp only [cond_false]
    exact ⟨by omega, by omega, decide_eq_false (by omega)⟩

/-- The parts of the second byte. -/
theorem lengthByte_parts (masked : Bool) (n : ℕ) :
    (lengthByte masked n).toNat % 128 = shortLength n ∧
      decide (128 ≤ (lengthByte masked n).toNat) = masked := by
  have hle := shortLength_le n
  rw [toNat_lengthByte]
  cases masked with
  | true =>
    simp only [cond_true]
    exact ⟨by omega, decide_eq_true (by omega)⟩
  | false =>
    simp only [cond_false]
    exact ⟨by omega, decide_eq_false (by omega)⟩

/-- A byte is put together from the parts that a header has. -/
theorem firstByte_of_parts {b : UInt8} {op : Opcode} (hrsv : b.toNat / 16 % 8 = 0)
    (hop : op.code = b.toNat % 16) : b = firstByte (decide (128 ≤ b.toNat)) op := by
  have hlt := b.toNat_lt
  apply UInt8.toNat_inj.mp
  rw [toNat_firstByte, hop]
  by_cases htop : 128 ≤ b.toNat
  · rw [decide_eq_true htop, cond_true]
    omega
  · rw [decide_eq_false htop, cond_false]
    omega

theorem lengthByte_of_parts {b : UInt8} {n : ℕ} (hshort : b.toNat % 128 = shortLength n) :
    b = lengthByte (decide (128 ≤ b.toNat)) n := by
  have hlt := b.toNat_lt
  apply UInt8.toNat_inj.mp
  rw [toNat_lengthByte, ← hshort]
  by_cases htop : 128 ≤ b.toNat
  · rw [decide_eq_true htop, cond_true]
    omega
  · rw [decide_eq_false htop, cond_false]
    omega

theorem shortLength_le_of_le {n : ℕ} (h : n ≤ 125) : shortLength n ≤ 125 := by
  rw [shortLength, if_pos (by omega)]
  exact h

theorem readTail_encode (h : WireHeader) (rest : List UInt8) :
    readTail h.fin h.opcode h.key.isSome (shortLength h.length)
      (longLength h.length ++ (keyBytes h.key ++ rest)) = .found h rest := by
  have hshort : h.opcode.isControl = true → h.fin = true ∧ shortLength h.length ≤ 125 :=
    fun hc => ⟨(h.control hc).1, shortLength_le_of_le (h.control hc).2⟩
  rw [readTail, Reader.require_pos hshort,
    Reader.bind_found (readLength_longLength h.length_lt _),
    Reader.require_pos ⟨h.length_lt, h.control⟩, Reader.bind_found (readKey_keyBytes h.key rest),
    Reader.pure]

/-- The first two bytes of a stream, taken apart. -/
theorem readHeader_cons (b0 b1 : UInt8) (bs : List UInt8) :
    readHeader (b0 :: b1 :: bs) =
      Reader.require (b0.toNat / 16 % 8 = 0) (fun _ =>
        Reader.choose (Opcode.ofCode (b0.toNat % 16)) fun op =>
          readTail (decide (128 ≤ b0.toNat)) op (decide (128 ≤ b1.toNat)) (b1.toNat % 128)) bs := by
  have htake := Reader.take_append_left (⟨[b0, b1], rfl⟩ : List.Vector UInt8 2) bs
  change Reader.take 2 (b0 :: b1 :: bs) = _ at htake
  rw [readHeader, Reader.bind_found htake]
  rfl

theorem readHeader_encode (h : WireHeader) (rest : List UInt8) :
    readHeader (h.encode ++ rest) = .found h rest := by
  obtain ⟨hrsv, hop, hfin⟩ := firstByte_parts h.fin h.opcode
  obtain ⟨hlow, hmasked⟩ := lengthByte_parts h.key.isSome h.length
  rw [WireHeader.encode, List.cons_append, List.cons_append, List.append_assoc, readHeader_cons,
    Reader.require_pos hrsv, hop, Opcode.ofCode_iff.mpr rfl, Reader.choose, hfin, hlow, hmasked]
  exact readTail_encode h rest

theorem readTail_eq_found {fin masked : Bool} {op : Opcode} {short : ℕ} {bs rest : List UInt8}
    {h : WireHeader} (hshort : short ≤ 127) (hfound : readTail fin op masked short bs = .found h rest) :
    h.fin = fin ∧ h.opcode = op ∧ h.key.isSome = masked ∧ shortLength h.length = short ∧
      bs = longLength h.length ++ (keyBytes h.key ++ rest) := by
  rcases Reader.require_eq_found hfound with ⟨-, hbind⟩
  rcases Reader.bind_eq_found hbind with ⟨n, mid, hlength, hreq⟩
  rcases Reader.require_eq_found hreq with ⟨hn, hbind⟩
  rcases Reader.bind_eq_found hbind with ⟨key, mid', hkey, hpure⟩
  cases hpure
  rcases readLength_eq_found hshort hlength with ⟨hlow, rfl⟩
  rcases readKey_eq_found hkey with ⟨hmasked, rfl⟩
  exact ⟨rfl, rfl, hmasked.symm, hlow.symm, rfl⟩

theorem readHeader_eq_found {bs rest : List UInt8} {h : WireHeader}
    (hfound : readHeader bs = .found h rest) : bs = h.encode ++ rest := by
  rcases Reader.bind_eq_found hfound with ⟨head, mid, hhead, hreq⟩
  rcases Reader.require_eq_found hreq with ⟨hrsv, hchoose⟩
  rcases Reader.choose_eq_found hchoose with ⟨op, hop, htail⟩
  have hlt := head.tail.head.toNat_lt
  rcases readTail_eq_found (by omega) htail with ⟨hfin, rfl, hmasked, hlow, rfl⟩
  have hfirst := firstByte_of_parts hrsv (Opcode.ofCode_iff.mp hop)
  have hsecond := lengthByte_of_parts hlow.symm
  rw [Reader.take_eq_found hhead, toList_two, WireHeader.encode, hfin, hmasked, ← hfirst,
    ← hsecond]
  simp only [List.cons_append, List.nil_append, List.append_assoc]

/-- A frame is found exactly where it was written. -/
theorem readWire_iff {bs rest : List UInt8} {f : WireFrame} :
    readWire bs = .found f rest ↔ bs = f.encode ++ rest := by
  constructor
  · intro hfound
    rcases Reader.bind_eq_found hfound with ⟨header, mid, hheader, hbind⟩
    rcases Reader.bind_eq_found hbind with ⟨data, mid', hdata, hpure⟩
    cases hpure
    rw [readHeader_eq_found hheader, Reader.take_eq_found hdata, WireFrame.encode,
      List.append_assoc]
  · rintro rfl
    obtain ⟨data, hdata⟩ : ∃ data : List.Vector UInt8 f.header.length, data.toList = f.data :=
      ⟨⟨f.data, f.length_eq⟩, rfl⟩
    rw [WireFrame.encode, List.append_assoc, readWire,
      Reader.bind_found (readHeader_encode f.header _), ← hdata,
      Reader.bind_found (Reader.take_append_left data rest), Reader.pure]
    congr 1
    exact WireFrame.ext rfl hdata

/-! ## How much of a header there is -/

theorem length_longLength (n : ℕ) : (longLength n).length = extSize (shortLength n) := by
  unfold longLength extSize shortLength
  split_ifs <;> first | omega | simp

theorem readLength_eq_more {short : ℕ} {bs : List UInt8} (hshort : short ≤ 127)
    (h : readLength short bs = .more) : bs.length < extSize short := by
  have hfield : ∀ {n : ℕ} {p : ℕ → Prop} [DecidablePred p],
      Reader.bind (Reader.take n) (fun ext : List.Vector UInt8 n =>
        Reader.require (p (ofBE ext.toList)) fun _ => Reader.pure (ofBE ext.toList)) bs = .more →
      bs.length < n := by
    intro n p _ hmore
    by_contra hle
    rcases Reader.take_of_le (not_lt.mp hle) with ⟨ext, -, hfound⟩
    rw [Reader.bind_found hfound] at hmore
    by_cases hp : p (ofBE ext.toList)
    · rw [Reader.require_pos hp] at hmore
      cases hmore
    · rw [Reader.require_neg hp] at hmore
      cases hmore
  unfold readLength at h
  unfold extSize
  split_ifs at h with h1 h2
  · cases h
  · rw [if_pos h2]
    exact hfield (p := fun n => 126 ≤ n) h
  · rw [if_neg h2, if_pos (by omega)]
    exact hfield (p := fun n => 65536 ≤ n ∧ n < 2 ^ 63) h

theorem readKey_eq_more {masked : Bool} {bs : List UInt8} (h : readKey masked bs = .more) :
    masked = true ∧ bs.length < 4 := by
  unfold readKey at h
  split_ifs at h with hmasked
  · refine ⟨hmasked, ?_⟩
    by_contra hle
    rcases Reader.take_of_le (not_lt.mp hle) with ⟨key, -, hfound⟩
    rw [Reader.bind_found hfound] at h
    cases h
  · cases h

/-- A reader that waits does so in its first part or in its second one. -/
theorem bind_eq_more {α β : Type} {r : Reader UInt8 α} {k : α → Reader UInt8 β} {bs : List UInt8}
    (h : Reader.bind r k bs = .more) :
    r bs = .more ∨ ∃ a mid, r bs = .found a mid ∧ k a mid = .more := by
  cases hr : r bs with
  | more => exact Or.inl rfl
  | bad =>
    rw [Reader.bind_bad _ hr] at h
    cases h
  | found a mid =>
    rw [Reader.bind_found hr] at h
    exact Or.inr ⟨a, mid, rfl, h⟩

theorem require_eq_more {α : Type} {p : Prop} [Decidable p] {r : p → Reader UInt8 α}
    {bs : List UInt8} (h : Reader.require p r bs = .more) : ∃ hp : p, r hp bs = .more := by
  by_cases hp : p
  · rw [Reader.require_pos hp] at h
    exact ⟨hp, h⟩
  · rw [Reader.require_neg hp] at h
    cases h

/-- What is missing behind the first two bytes. -/
theorem readTail_eq_more {fin masked : Bool} {op : Opcode} {short : ℕ} {bs : List UInt8}
    (hshort : short ≤ 127) (h : readTail fin op masked short bs = .more) :
    bs.length < extSize short + cond masked 4 0 := by
  rcases require_eq_more h with ⟨-, hbind⟩
  rcases bind_eq_more hbind with hlength | ⟨n, mid, hlength, hreq⟩
  · have hlt := readLength_eq_more hshort hlength
    omega
  · rcases readLength_eq_found hshort hlength with ⟨rfl, rfl⟩
    rcases require_eq_more hreq with ⟨_, hrest⟩
    rcases bind_eq_more hrest with hkey | ⟨key, mid', -, hpure⟩
    · rcases readKey_eq_more hkey with ⟨rfl, hlt⟩
      rw [List.length_append, length_longLength, cond_true]
      omega
    · cases hpure

/-- Where no header is found and none refused, some of its bytes are missing. -/
theorem lt_wireHeaderSize_of_more {bs : List UInt8} (h : readHeader bs = .more) :
    bs.length < wireHeaderSize bs := by
  rcases bs with _ | ⟨b0, _ | ⟨b1, bs⟩⟩
  · simp [wireHeaderSize]
  · simp [wireHeaderSize, extSize]
  · have hlow : b1.toNat % 128 ≤ 127 := by omega
    rw [readHeader_cons] at h
    rcases require_eq_more h with ⟨-, hchoose⟩
    cases hop : Opcode.ofCode (b0.toNat % 16) with
    | none =>
      rw [hop] at hchoose
      cases hchoose
    | some op =>
      rw [hop] at hchoose
      have hlt := readTail_eq_more hlow hchoose
      simp only [wireHeaderSize, List.getD_cons_succ, List.getD_cons_zero, List.length_cons]
      by_cases htop : 128 ≤ b1.toNat
      · rw [decide_eq_true htop, cond_true] at hlt
        rw [if_pos htop]
        omega
      · rw [decide_eq_false htop, cond_false] at hlt
        rw [if_neg htop]
        omega

end Gmaker.Lib.WebSocket
