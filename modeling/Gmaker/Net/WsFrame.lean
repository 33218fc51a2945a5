import Gmaker.Lib.WireFrame
import Gmaker.Net.WsStream

/-!
# Gmaker.Net.WsFrame — parsing one WebSocket frame

`ParseWSFrame` looks at the front of a byte string and says how many bytes of it a frame
takes, or that more are needed, or that no frame begins so. It makes the tests of
`ProcessWSFrames` in another order, takes frames without a key, and has no limit of its
own on the payload. Its verdict is that of the reader of `Gmaker.Lib.WireFrame`
(`parseWSFrame_spec`), from which everything follows.

A byte string has fewer than `2 ^ 63` bytes, as everything that is in memory.
-/

namespace Gmaker.Net.WsFrame

open Gmaker.Lib Gmaker.Lib.WebSocket Gmaker.Net.WsReader

/-! ## The parser -/

/-- `IsControlOpcode`. -/
def isControlOpcode (opcode : UInt8) : Bool := opcode &&& 0x8 ≠ 0

/-- How a call of `ParseWSFrame` ends, with what it leaves in `out` and in
`payload_offset`. -/
inductive Parsed where
  | more
  | error
  | frame (out : WSFrame) (payloadOffset : ℕ)

/-- What is returned; a cast to `intptr_t` may come round. -/
def Parsed.ret : Parsed → ℤ
  | .more => 0
  | .error => -1
  | .frame out payloadOffset => Int.bmod (payloadOffset + out.payloadLen : ℕ) (2 ^ 64)

@[simp] theorem ret_error : Parsed.error.ret = -1 := rfl

/-- The extended length: the length of the payload and the position behind it. -/
inductive Extended where
  | more
  | error
  | known (payloadLen pos : ℕ)

/-- The extended length of `ParseWSFrame`. -/
def extended (data : Bytes) (payloadLen : ℕ) : Extended :=
  if payloadLen = 126 then
    if data.length < 4 then .more
    else
      let payloadLen := shiftIn ((data.drop 2).take 2)
      if payloadLen < 126 then .error else .known payloadLen 4
  else if payloadLen = 127 then
    if data.length < 10 then .more
    else
      let payloadLen := shiftIn ((data.drop 2).take 8)
      if data.getD 2 0 &&& 0x80 ≠ 0 ∨ payloadLen < 65536 then .error else .known payloadLen 10
  else .known payloadLen 2

/-- `ParseWSFrame`; `out` is new, so that its key is zero if the frame has none. -/
def parseWSFrame (data : Bytes) : Parsed :=
  if data.length < 2 then .more
  else
    let data0 := data.getD 0 0
    let data1 := data.getD 1 0
    if data0 &&& 0x70 ≠ 0 then .error
    else
      let fin := decide (data0 &&& 0x80 ≠ 0)
      let opcode := data0 &&& 0x0F
      let masked := decide (data1 &&& 0x80 ≠ 0)
      let payloadLen := (data1 &&& 0x7F).toNat
      if isKnownOpcode opcode = false then .error
      else if isControlOpcode opcode = true ∧ (fin = false ∨ 125 < payloadLen) then .error
      else
        match extended data payloadLen with
        | .more => .more
        | .error => .error
        | .known payloadLen pos =>
          if isControlOpcode opcode = true ∧ 125 < payloadLen then .error
          else if masked = true ∧ data.length < pos + 4 then .more
          else
            let maskKey := if masked then (data.drop pos).take 4 else [0, 0, 0, 0]
            let pos := if masked then pos + 4 else pos
            if sizeMax - pos < payloadLen then .error
            else if data.length < pos + payloadLen then .more
            else .frame { fin, opcode, masked, payloadLen, maskKey } pos

/-! ## The parser and the reader -/

/-- What is left in `out` for a frame. -/
def outOf (h : WireHeader) : WSFrame where
  fin := h.fin
  opcode := UInt8.ofNat h.opcode.code
  masked := h.key.isSome
  payloadLen := h.length
  maskKey := if h.key.isSome then keyBytes h.key else [0, 0, 0, 0]

/-- How the call ends, as the reader has it. -/
inductive ParseSpec (data : Bytes) : Parsed → Prop
  | more (hmore : readWire data = .more) : ParseSpec data .more
  | error (hbad : readHeader data = .bad) : ParseSpec data .error
  | frame (f : WireFrame) (rest : Bytes) (hfound : data = f.encode ++ rest) :
      ParseSpec data (.frame (outOf f.header) f.header.encode.length)

/-- The extended length, as the reader has it. -/
inductive ExtendedSpec (data : Bytes) (short : ℕ) : Extended → Prop
  | more (hmore : readLength short (data.drop 2) = .more) : ExtendedSpec data short .more
  | error (hbad : readLength short (data.drop 2) = .bad) : ExtendedSpec data short .error
  | known (n pos : ℕ) (hfound : readLength short (data.drop 2) = .found n (data.drop pos))
      (hpos : pos = 2 + extSize short) (hle : pos ≤ data.length) (hn : n < 2 ^ 63) :
      ExtendedSpec data short (.known n pos)

theorem extended_spec {data : Bytes} {short : ℕ} (hshort : short ≤ 127) (hdata : 2 ≤ data.length) :
    ExtendedSpec data short (extended data short) := by
  have hdrop : (data.drop 2).length = data.length - 2 := List.length_drop
  unfold extended
  by_cases h126 : short = 126
  · rw [if_pos h126]
    have hread : readLength short = Reader.bind (Reader.take 2) fun ext =>
        Reader.require (126 ≤ ofBE ext.toList) fun _ => Reader.pure (ofBE ext.toList) := by
      rw [readLength, if_neg (by omega), if_pos h126]
    by_cases h4 : data.length < 4
    · rw [if_pos h4]
      refine .more ?_
      rw [hread, Reader.bind_more _ (Reader.take_of_lt (by omega))]
    · rw [if_neg h4]
      have hle : 2 ≤ (data.drop 2).length := by omega
      obtain ⟨ext, hext, hfound⟩ := Reader.take_of_le hle
      simp only [shiftIn_eq, ← hext]
      split_ifs with hsmall
      · refine .error ?_
        rw [hread, Reader.bind_found hfound]
        exact Reader.require_neg (not_le.mpr hsmall) _ _
      · have hlt := ofBE_lt ext.toList
        rw [ext.toList_length] at hlt
        refine .known _ _ ?_ ?_ (by omega) (by omega)
        · rw [hread, Reader.bind_found hfound, List.drop_drop]
          exact Reader.require_pos (not_lt.mp hsmall) _ _
        · rw [extSize, if_pos h126]
  · rw [if_neg h126]
    by_cases h127 : short = 127
    · rw [if_pos h127]
      have hread : readLength short = Reader.bind (Reader.take 8) fun ext =>
          Reader.require (65536 ≤ ofBE ext.toList ∧ ofBE ext.toList < 2 ^ 63) fun _ =>
            Reader.pure (ofBE ext.toList) := by
        rw [readLength, if_neg (by omega), if_neg h126]
      by_cases h10 : data.length < 10
      · rw [if_pos h10]
        refine .more ?_
        rw [hread, Reader.bind_more _ (Reader.take_of_lt (by omega))]
      · rw [if_neg h10]
        have hle : 8 ≤ (data.drop 2).length := by omega
        obtain ⟨ext, hext, hfound⟩ := Reader.take_of_le hle
        -- the source looks at the top bit of the first byte, the reader at the number
        have htop : data.getD 2 0 = ext.toList.getD 0 0 := by
          rw [hext, List.getD_eq_getElem?_getD, List.getD_eq_getElem?_getD,
            List.getElem?_take_of_lt (by decide), List.getElem?_drop]
        simp only [shiftIn_eq, htop, ← hext, top_iff, top_ofBE_iff ext.toList_length]
        split_ifs with hbad
        · refine .error ?_
          rw [hread, Reader.bind_found hfound]
          refine Reader.require_neg (fun h => ?_) _ _
          rcases hbad with hhuge | hsmall
          · exact absurd h.2 (not_lt.mpr hhuge)
          · exact absurd h.1 (not_le.mpr hsmall)
        · push Not at hbad
          refine .known _ _ ?_ ?_ (by omega) hbad.1
          · rw [hread, Reader.bind_found hfound, List.drop_drop]
            exact Reader.require_pos ⟨hbad.2, hbad.1⟩ _ _
          · rw [extSize, if_neg h126, if_pos h127]
    · rw [if_neg h127]
      refine .known _ _ ?_ ?_ hdata (by omega)
      · rw [readLength, if_pos (by omega), Reader.pure]
      · rw [extSize, if_neg h126, if_neg h127]

theorem isControlOpcode_eq {opcode : UInt8} {op : Opcode} (h : opcode.toNat = op.code) :
    isControlOpcode opcode = op.isControl := by
  rw [opcode_eq h]
  cases op <;> rfl

/-- The key, where all of it is there. -/
theorem readKey_of_le {data : Bytes} {masked : Bool} {pos : ℕ}
    (h : ¬ (masked = true ∧ data.length < pos + 4)) :
    ∃ key, readKey masked (data.drop pos) = .found key (data.drop (if masked then pos + 4 else pos)) ∧
      key.isSome = masked ∧
      (if masked then (data.drop pos).take 4 else [0, 0, 0, 0]) =
        (if key.isSome then keyBytes key else [0, 0, 0, 0]) := by
  cases masked with
  | false => exact ⟨none, rfl, rfl, rfl⟩
  | true =>
    have hle : 4 ≤ (data.drop pos).length := by
      rw [List.length_drop]
      have hlen : ¬ data.length < pos + 4 := fun hlt => h ⟨rfl, hlt⟩
      omega
    obtain ⟨key, hkey, hfound⟩ := Reader.take_of_le hle
    refine ⟨some key, ?_, rfl, hkey.symm⟩
    rw [readKey, if_pos rfl, Reader.bind_found hfound, Reader.pure, List.drop_drop, if_pos rfl]

/-- Behind the header the call only looks at how much data there is: it has already
refused a payload whose end would not fit in a `size_t`. -/
theorem parseSpec_of_header {data : Bytes} {header : WireHeader} {stop : ℕ}
    (hheader : readHeader data = .found header (data.drop stop)) (hend : stop ≤ data.length)
    (hstop : stop ≤ 14) :
    ParseSpec data
      (if sizeMax - stop < header.length then .error
      else if data.length < stop + header.length then .more
      else .frame (outOf header) stop) := by
  have hsplit := readHeader_eq_found hheader
  have hlast : stop = header.encode.length := by
    have hlen := congrArg List.length hsplit
    rw [List.length_append, List.length_drop] at hlen
    omega
  have hfits : ¬ sizeMax - stop < header.length := by
    have hlt := header.length_lt
    unfold sizeMax
    omega
  rw [if_neg hfits]
  by_cases hshort : data.length < stop + header.length
  · rw [if_pos hshort]
    refine .more ?_
    rw [readWire, Reader.bind_found hheader]
    refine Reader.bind_more _ (Reader.take_of_lt ?_)
    rw [List.length_drop]
    omega
  · rw [if_neg hshort]
    have hpayload : ((data.drop stop).take header.length).length = header.length := by
      rw [List.length_take_of_le]
      rw [List.length_drop]
      omega
    have hdata : data = WireFrame.encode ⟨header, _, hpayload⟩ ++
        (data.drop stop).drop header.length := by
      rw [WireFrame.encode, List.append_assoc, List.take_append_drop]
      exact hsplit
    rw [hlast]
    exact .frame _ _ hdata

/-- The call ends as the reader does. -/
theorem parseWSFrame_spec (data : Bytes) : ParseSpec data (parseWSFrame data) := by
  unfold parseWSFrame
  by_cases h2 : data.length < 2
  · rw [if_pos h2]
    exact .more (Reader.bind_more _ (Reader.bind_more _ (Reader.take_of_lt h2)))
  rw [if_neg h2]
  obtain ⟨b0, b1, tail, rfl⟩ : ∃ b0 b1 tail, data = b0 :: b1 :: tail := by
    rcases data with _ | ⟨b0, _ | ⟨b1, tail⟩⟩
    · exact (h2 (by simp)).elim
    · exact (h2 (by simp)).elim
    · exact ⟨b0, b1, tail, rfl⟩
  have hb1 := b1.toNat_lt
  simp only [List.getD_cons_zero, List.getD_cons_succ, toNat_and_7F]
  -- the bits of the extensions
  by_cases hrsv : b0 &&& 0x70 ≠ 0
  · rw [if_pos hrsv]
    refine .error ?_
    rw [readHeader_cons, Reader.require_neg]
    exact fun h => hrsv ((reserved_iff b0).mpr h)
  rw [if_neg hrsv]
  have hrsv' := (reserved_iff b0).mp (not_not.mp hrsv)
  by_cases hunknown : isKnownOpcode (b0 &&& 0x0F) = false
  · rw [if_pos hunknown]
    refine .error ?_
    rw [isKnownOpcode_eq, toNat_and_0F, Option.isSome_eq_false_iff,
      Option.isNone_iff_eq_none] at hunknown
    rw [readHeader_cons, Reader.require_pos hrsv', hunknown, Reader.choose]
  rw [if_neg hunknown]
  obtain ⟨op, hop, hcode⟩ := exists_opcode hunknown
  have hfin : decide (b0 &&& 0x80 ≠ 0) = decide (128 ≤ b0.toNat) := decide_eq_decide.mpr (top_iff b0)
  have hmask : decide (b1 &&& 0x80 ≠ 0) = decide (128 ≤ b1.toNat) := decide_eq_decide.mpr (top_iff b1)
  rw [isControlOpcode_eq hcode, hfin, hmask]
  have hheader : readHeader (b0 :: b1 :: tail) =
      readTail (decide (128 ≤ b0.toNat)) op (decide (128 ≤ b1.toNat)) (b1.toNat % 128) tail := by
    rw [readHeader_cons, Reader.require_pos hrsv', hop, Reader.choose]
  -- from here on the two flags count, not the bytes that they are taken from
  generalize decide (128 ≤ b0.toNat) = fin at hheader ⊢
  generalize decide (128 ≤ b1.toNat) = masked at hheader ⊢
  -- a control frame that is a part of a message, or whose length would be extended
  by_cases hcontrol : op.isControl = true ∧ (fin = false ∨ 125 < b1.toNat % 128)
  · rw [if_pos hcontrol]
    refine .error ?_
    rw [hheader, readTail, Reader.require_neg]
    intro h
    rcases hcontrol with ⟨hc, hpart | hlong⟩
    · rw [(h hc).1] at hpart
      cases hpart
    · exact absurd (h hc).2 (not_le.mpr hlong)
  rw [if_neg hcontrol]
  push Not at hcontrol
  have hshort : op.isControl = true → fin = true ∧ b1.toNat % 128 ≤ 125 := by
    intro hc
    exact ⟨Bool.not_eq_false _ ▸ (hcontrol hc).1, (hcontrol hc).2⟩
  rw [readTail, Reader.require_pos hshort] at hheader
  have hle : b1.toNat % 128 ≤ 127 := by omega
  have hext : ExtendedSpec (b0 :: b1 :: tail) (b1.toNat % 128)
      (extended (b0 :: b1 :: tail) (b1.toNat % 128)) := extended_spec hle (not_lt.mp h2)
  generalize extended (b0 :: b1 :: tail) (b1.toNat % 128) = ext at hext ⊢
  cases hext with
  | more hmore =>
    refine .more (Reader.bind_more _ ?_)
    rw [hheader]
    exact Reader.bind_more _ hmore
  | error hbad =>
    refine .error ?_
    rw [hheader]
    exact Reader.bind_bad _ hbad
  | known n pos hlength hpos hle hn =>
    have hlength' : readLength (b1.toNat % 128) tail = .found n ((b0 :: b1 :: tail).drop pos) :=
      hlength
    rw [Reader.bind_found hlength'] at hheader
    simp only []
    -- the source tests the length of a control frame once more
    by_cases hlong : op.isControl = true ∧ 125 < n
    · rw [if_pos hlong]
      refine .error ?_
      rw [hheader, Reader.require_neg]
      exact fun h => absurd (h.2 hlong.1).2 (not_le.mpr hlong.2)
    rw [if_neg hlong]
    have hok : n < 2 ^ 63 ∧ (op.isControl = true → fin = true ∧ n ≤ 125) := by
      refine ⟨hn, fun hc => ⟨(hshort hc).1, ?_⟩⟩
      by_contra hgt
      exact hlong ⟨hc, not_le.mp hgt⟩
    rw [Reader.require_pos hok] at hheader
    -- the key may still be on its way
    by_cases hkeyless : masked = true ∧ (b0 :: b1 :: tail).length < pos + 4
    · rw [if_pos hkeyless]
      refine .more (Reader.bind_more _ ?_)
      have hlt : ((b0 :: b1 :: tail).drop pos).length < 4 := by
        rw [List.length_drop]
        omega
      have hkey : readKey masked ((b0 :: b1 :: tail).drop pos) = .more := by
        rw [readKey, if_pos hkeyless.1]
        exact Reader.bind_more _ (Reader.take_of_lt hlt)
      rw [hheader, Reader.bind_more _ hkey]
    rw [if_neg hkeyless]
    obtain ⟨key, hkey, hsome, hbytes⟩ := readKey_of_le hkeyless
    rw [Reader.bind_found hkey, Reader.pure] at hheader
    -- the header is there; where it ends, the payload begins
    have hend : (if masked then pos + 4 else pos) ≤ (b0 :: b1 :: tail).length := by
      split_ifs with hm
      · by_contra hlt
        exact hkeyless ⟨hm, not_le.mp hlt⟩
      · exact hle
    have hsmall : (if masked then pos + 4 else pos) ≤ 14 := by
      unfold extSize at hpos
      split_ifs at hpos ⊢ <;> omega
    have hout : outOf ⟨fin, op, key, n, hok.1, hok.2⟩ =
        { fin
          opcode := b0 &&& 0x0F
          masked
          payloadLen := n
          maskKey := if key.isSome then keyBytes key else [0, 0, 0, 0] } := by
      rw [outOf, opcode_eq hcode, hsome]
    rw [hbytes, ← hout]
    exact parseSpec_of_header hheader hend hsmall

/-! ## Verdicts -/

/-- The bytes are those of one frame. -/
def WellFormedFrame (bs : Bytes) : Prop := ∃ f : WireFrame, f.encode = bs

/-- The bytes begin with the header of a frame. -/
def BeginsWithHeader (bs : Bytes) : Prop := ∃ h : WireHeader, h.encode <+: bs

variable {data later : Bytes}

theorem readWire_of_bad (h : readHeader data = .bad) : readWire data = .bad := Reader.bind_bad _ h

theorem parseWSFrame_of_bad (h : readHeader data = .bad) : parseWSFrame data = .error := by
  have hspec := parseWSFrame_spec data
  generalize parseWSFrame data = p at hspec ⊢
  cases hspec with
  | more hmore =>
    rw [readWire_of_bad h] at hmore
    cases hmore
  | error _ => rfl
  | frame f rest hfound =>
    have hwire := readWire_iff.mpr hfound
    rw [readWire_of_bad h] at hwire
    cases hwire

/-- A frame is recognised exactly where it was written. -/
theorem parseWSFrame_of_encode (f : WireFrame) (rest : Bytes) :
    parseWSFrame (f.encode ++ rest) = .frame (outOf f.header) f.header.encode.length := by
  have hwire : readWire (f.encode ++ rest) = .found f rest := readWire_iff.mpr rfl
  have hspec := parseWSFrame_spec (f.encode ++ rest)
  generalize hdata : f.encode ++ rest = data at hwire hspec ⊢
  generalize parseWSFrame data = p at hspec ⊢
  cases hspec with
  | more hmore =>
    rw [hmore] at hwire
    cases hwire
  | error hbad =>
    rw [readWire_of_bad hbad] at hwire
    cases hwire
  | frame f' rest' hfound =>
    rw [readWire_iff.mpr hfound] at hwire
    cases hwire
    rfl

theorem length_encode (f : WireFrame) :
    f.encode.length = f.header.encode.length + f.header.length := by
  rw [WireFrame.encode, List.length_append, f.length_eq]

/-- A size that is in memory does not come round. -/
theorem bmod_of_lt {n : ℕ} (h : n < 2 ^ 63) : Int.bmod n (2 ^ 64) = n :=
  Int.bmod_eq_of_le_mul_two (by omega) (by omega)

/-- In memory, what is returned is the size of the frame. -/
theorem ret_of_encode {f : WireFrame} (h : f.encode.length < 2 ^ 63) :
    (Parsed.frame (outOf f.header) f.header.encode.length).ret = (f.encode.length : ℕ) := by
  have hsize : f.header.encode.length + (outOf f.header).payloadLen = f.encode.length :=
    (length_encode f).symm
  unfold Parsed.ret
  simp only [hsize]
  exact bmod_of_lt h

/-- The three verdicts, of what is in memory. -/
theorem ret_cases (hdata : data.length < 2 ^ 63) :
    (parseWSFrame data).ret = 0 ∧ readWire data = .more ∨
      parseWSFrame data = .error ∧ readHeader data = .bad ∨
      ∃ (f : WireFrame) (rest : Bytes), data = f.encode ++ rest ∧
        (parseWSFrame data).ret = (f.encode.length : ℕ) := by
  have hspec := parseWSFrame_spec data
  generalize parseWSFrame data = p at hspec ⊢
  cases hspec with
  | more hmore => exact Or.inl ⟨rfl, hmore⟩
  | error hbad => exact Or.inr (Or.inl ⟨rfl, hbad⟩)
  | frame f rest hfound =>
    refine Or.inr (Or.inr ⟨f, rest, hfound, ret_of_encode ?_⟩)
    rw [hfound, List.length_append] at hdata
    omega

theorem ret_eq_iff (hdata : data.length < 2 ^ 63) {n : ℕ} (hn : 0 < n) :
    (parseWSFrame data).ret = n ↔ n ≤ data.length ∧ WellFormedFrame (data.take n) := by
  constructor
  · intro hret
    rcases ret_cases hdata with ⟨hzero, -⟩ | ⟨herror, -⟩ | ⟨f, rest, hfound, hlen⟩
    · omega
    · rw [herror, ret_error] at hret
      omega
    · have hnlen : n = f.encode.length := by omega
      rw [hfound, hnlen, List.take_left, List.length_append]
      exact ⟨Nat.le_add_right _ _, f, rfl⟩
  · rintro ⟨hle, f, hf⟩
    have hsplit : data = f.encode ++ data.drop n := by
      rw [hf, List.take_append_drop]
    have hlen : f.encode.length = n := by
      rw [hf, List.length_take_of_le hle]
    have hparse := parseWSFrame_of_encode f (data.drop n)
    rw [← hsplit] at hparse
    have hret := ret_of_encode (f := f) (by omega)
    rwa [← hparse, hlen] at hret

/-- What is refused is refused whatever comes. -/
theorem not_wellFormed_of_neg (hdata : data.length < 2 ^ 63) (hneg : (parseWSFrame data).ret < 0)
    (later : Bytes) (n : ℕ) : ¬ WellFormedFrame ((data ++ later).take n) := by
  rintro ⟨f, hf⟩
  have hbad : readHeader data = .bad := by
    rcases ret_cases hdata with ⟨hzero, -⟩ | ⟨-, hbad⟩ | ⟨g, rest, -, hlen⟩
    · omega
    · exact hbad
    · omega
  have hlater := readWire_of_bad (steady_readHeader.bad data later hbad)
  have hwire : readWire (data ++ later) = .found f ((data ++ later).drop n) :=
    readWire_iff.mpr (by rw [hf, List.take_append_drop])
  rw [hlater] at hwire
  cases hwire

/-- A header of which all bytes are there, and which is none, is refused. -/
theorem error_of_malformed (hsize : wireHeaderSize data ≤ data.length) (h : ¬ BeginsWithHeader data) :
    parseWSFrame data = .error := by
  apply parseWSFrame_of_bad
  cases hread : readHeader data with
  | more => exact absurd (lt_wireHeaderSize_of_more hread) (not_lt.mpr hsize)
  | bad => rfl
  | found header rest => exact (h ⟨header, rest, (readHeader_eq_found hread).symm⟩).elim

/-- What comes later changes no verdict but that more is needed. -/
theorem parseWSFrame_append (h : (parseWSFrame data).ret ≠ 0) (later : Bytes) :
    parseWSFrame (data ++ later) = parseWSFrame data := by
  have hspec := parseWSFrame_spec data
  generalize hp : parseWSFrame data = p at hspec h ⊢
  cases hspec with
  | more hmore => exact (h rfl).elim
  | error hbad => exact parseWSFrame_of_bad (steady_readHeader.bad data later hbad)
  | frame f rest hfound => rw [hfound, List.append_assoc, parseWSFrame_of_encode]

/-! ## Frames of the server -/

/-- The opcode and the payload are those of a frame: the opcode is known, and a control
frame is short. -/
def IsFrame (opcode : UInt8) (payload : Bytes) : Prop :=
  isKnownOpcode opcode = true ∧ (isControlOpcode opcode = true → payload.length ≤ 125)

/-- Parsing what `EncodeWSFrame` makes gives the opcode, the length and the payload, and
takes all of it. -/
def Recovers (opcode : UInt8) (payload : Bytes) : Prop :=
  ∃ out payloadOffset, parseWSFrame (encodeWSFrame opcode payload) = .frame out payloadOffset ∧
    out.opcode = opcode ∧ out.payloadLen = payload.length ∧
    ((encodeWSFrame opcode payload).drop payloadOffset).take out.payloadLen = payload ∧
    payloadOffset + out.payloadLen = (encodeWSFrame opcode payload).length

/-- The first byte of a frame of the server. -/
theorem firstByte_eq {opcode : UInt8} {op : Opcode} (h : opcode.toNat = op.code) :
    0x80 ||| (opcode &&& 0x0F) = firstByte true op := by
  rw [opcode_eq h]
  cases op <;> rfl

/-- The lengths of a frame of the server. -/
theorem encodeWSFrameHeader_eq {opcode : UInt8} {n : ℕ} {h : WireHeader}
    (hop : opcode.toNat = h.opcode.code) (hfin : h.fin = true) (hkey : h.key = none)
    (hn : h.length = n) : encodeWSFrameHeader opcode n = h.encode := by
  subst hn
  rw [encodeWSFrameHeader, WireHeader.encode, firstByte_eq hop, hfin, hkey, keyBytes,
    List.append_nil]
  congr 1
  unfold lengthByte shortLength longLength
  by_cases h126 : h.length < 126
  · simp only [if_pos h126, Option.isSome_none, cond_false, Nat.zero_add]
  · by_cases h65536 : h.length < 65536
    · have hle : h.length ≤ 0xFFFF := by omega
      simp only [if_neg h126, if_pos h65536, if_pos hle, Option.isSome_none, cond_false,
        Nat.zero_add]
      rfl
    · have hle : ¬ h.length ≤ 0xFFFF := by omega
      simp only [if_neg h126, if_neg h65536, if_neg hle, Option.isSome_none, cond_false,
        Nat.zero_add]
      rfl

/-- Exactly the frames come back as they were given. -/
theorem recovers_iff {opcode : UInt8} {payload : Bytes} (hpayload : payload.length < 2 ^ 63) :
    Recovers opcode payload ↔ IsFrame opcode payload := by
  constructor
  · rintro ⟨out, off, hparse, hop, hlen, -, -⟩
    have hspec := parseWSFrame_spec (encodeWSFrame opcode payload)
    rw [hparse] at hspec
    generalize encodeWSFrame opcode payload = data at hspec
    cases hspec with
    | frame f rest hfound =>
      have hcode : opcode.toNat = f.header.opcode.code := by
        have hlt := f.header.opcode.code_lt
        rw [← hop, outOf, UInt8.toNat_ofNat', Nat.mod_eq_of_lt (by omega)]
      constructor
      · rw [isKnownOpcode_eq, hcode, Opcode.ofCode_iff.mpr rfl, Option.isSome_some]
      · intro hcontrol
        rw [isControlOpcode_eq hcode] at hcontrol
        rw [← hlen]
        exact (f.header.control hcontrol).2
  · rintro ⟨hknown, hcontrol⟩
    rw [isKnownOpcode_eq, Option.isSome_iff_exists] at hknown
    rcases hknown with ⟨op, hop⟩
    have hcode : opcode.toNat = op.code := (Opcode.ofCode_iff.mp hop).symm
    rw [isControlOpcode_eq hcode] at hcontrol
    let header : WireHeader :=
      { fin := true
        opcode := op
        key := none
        length := payload.length
        length_lt := hpayload
        control := fun hc => ⟨rfl, hcontrol hc⟩ }
    let f : WireFrame := { header, data := payload, length_eq := rfl }
    have hencode : encodeWSFrame opcode payload = f.encode := by
      rw [encodeWSFrame, encodeWSFrameHeader_eq (h := header) hcode rfl rfl rfl]
      rfl
    have hparse := parseWSFrame_of_encode f []
    rw [List.append_nil, ← hencode] at hparse
    refine ⟨_, _, hparse, (opcode_eq hcode).symm, rfl, ?_, ?_⟩
    · rw [hencode, WireFrame.encode, List.drop_left]
      exact List.take_length
    · rw [hencode, length_encode]
      rfl

/-! ## The copy in the connection -/

/-- A frame as a client writes it, as it is on the wire. -/
def toWire (f : Frame maxMessageBytes) : WireFrame where
  header :=
    { fin := f.fin
      opcode := f.opcode
      key := some f.key
      length := f.payload.length
      length_lt := f.length_le.trans_lt (by decide)
      control := f.control }
  data := mask f.key f.payload
  length_eq := length_mask _ _

theorem encode_toWire (f : Frame maxMessageBytes) : (toWire f).encode = f.encode := by
  rw [WireFrame.encode, WireHeader.encode, Frame.encode]
  simp only [toWire, keyBytes, List.cons_append, List.append_assoc]
  rfl

/-- The frame is as `readFront` leaves it: with the key that stands before the payload. -/
theorem maskKey_of_ready {rb : RingBuffer} {frame : WSFrame} {headerLen : ℕ}
    (h : readFront rb = .ready frame headerLen) :
    frame.masked = true ∧ frame.maskKey = rb.readAt (headerLen - 4) 4 ∧
      headerLen + frame.payloadLen ≤ rb.size ∧ 4 ≤ headerLen := by
  unfold readFront at h
  simp only [] at h
  generalize extendedLength rb _ = len at h
  cases len with
  | wait => split_ifs at h
  | fail code => split_ifs at h
  | known payloadLen pos =>
    simp only [] at h
    split_ifs at h with _ _ _ hsize
    cases h
    exact ⟨rfl, rfl, not_lt.mp hsize, Nat.le_add_left 4 _⟩

theorem parseWSFrame_of_ready {rb : RingBuffer} {frame : WSFrame} {headerLen : ℕ}
    (h : readFront rb = .ready frame headerLen) :
    parseWSFrame rb.bytes = .frame frame headerLen ∧ frame.masked = true ∧
      frame.payloadLen ≤ maxMessageBytes := by
  obtain ⟨hmasked, hkey, hsize, hheader⟩ := maskKey_of_ready h
  have hspec := readFront_spec rb
  rw [h] at hspec
  cases hspec with
  | ready _ _ f hfound hfin hop hlen hpayload =>
    have hbytes := readFrame_eq_found hfound
    rw [← encode_toWire] at hbytes
    have hparse := parseWSFrame_of_encode (toWire f) (rb.bytes.drop (headerLen + frame.payloadLen))
    rw [← hbytes] at hparse
    -- the header ends where the payload begins
    have hall : (toWire f).encode.length = headerLen + frame.payloadLen := by
      have htotal := congrArg List.length hbytes
      rw [List.length_append, List.length_drop, rb.length_bytes] at htotal
      omega
    have hoff : (toWire f).header.encode.length = headerLen := by
      rw [length_encode, hlen] at hall
      exact Nat.add_right_cancel hall
    have hkeyAt : frame.maskKey = f.key.toList := by
      let front := firstByte f.fin f.opcode :: lengthByte true f.payload.length ::
        longLength f.payload.length
      have hheaderBytes : (toWire f).header.encode = front ++ f.key.toList := rfl
      have hfront : front.length = headerLen - 4 := by
        rw [hheaderBytes, List.length_append, f.key.toList_length] at hoff
        omega
      rw [hkey, rb.readAt_eq (by omega), hbytes, WireFrame.encode, hheaderBytes,
        List.append_assoc, List.append_assoc]
      exact field_at hfront f.key.toList_length
    have hout : outOf (toWire f).header = frame := by
      rcases frame with ⟨fin, opcode, masked, payloadLen, maskKey⟩
      simp only at hfin hop hlen hmasked hkeyAt
      subst hfin hmasked hlen hkeyAt
      rw [opcode_eq hop]
      rfl
    rw [hoff, hout] at hparse
    exact ⟨hparse, hmasked, hlen ▸ f.length_le⟩

/-- The tests of `ProcessWSFrames` let a frame pass exactly if `ParseWSFrame` finds it, with
a key and no longer than a message may be. -/
theorem ready_iff {rb : RingBuffer} {frame : WSFrame} {headerLen : ℕ} :
    readFront rb = .ready frame headerLen ↔
      parseWSFrame rb.bytes = .frame frame headerLen ∧ frame.masked = true ∧
        frame.payloadLen ≤ maxMessageBytes := by
  constructor
  · exact parseWSFrame_of_ready
  · rintro ⟨hparse, hmasked, hmax⟩
    have hspec := parseWSFrame_spec rb.bytes
    rw [hparse] at hspec
    obtain ⟨f, rest, hf⟩ : ∃ (f : Frame maxMessageBytes) (rest : Bytes),
        readFrame maxMessageBytes rb.bytes = .found f rest := by
      cases hspec with
      | frame w rest hfound =>
        rcases Option.isSome_iff_exists.mp hmasked with ⟨key, hkey⟩
        have hlen : (mask key w.data).length = w.header.length := by
          rw [length_mask, w.length_eq]
        let f : Frame maxMessageBytes :=
          { fin := w.header.fin
            opcode := w.header.opcode
            key
            payload := mask key w.data
            length_le := hlen ▸ hmax
            control := hlen ▸ w.header.control }
        have hwire : toWire f = w := by
          refine WireFrame.ext (WireHeader.ext rfl rfl hkey.symm hlen) ?_
          exact mask_mask key w.data
        refine ⟨f, rest, ?_⟩
        rw [readFrame_iff (by decide), hfound, ← encode_toWire, hwire]
    have hfront := readFront_spec rb
    generalize hready : readFront rb = front at hfront
    cases hfront with
    | wait hsize hnone => exact (hnone f rest hf).elim
    | fail code hbad =>
      rw [hf] at hbad
      cases hbad
    | ready frame' headerLen' _ _ _ _ _ _ =>
      have hsame := (parseWSFrame_of_ready hready).1
      rw [hparse] at hsame
      cases hsame
      rfl

/-! ## The grammar -/

/-- What is returned says how many bytes a frame takes, refuses what no frame begins with,
and stays; the frames of the server come back; and what the connection lets pass are the
masked frames that are short enough. -/
theorem parseWSFrame_grammar (data : Bytes) (hdata : data.length < 2 ^ 63) :
    (∀ n : ℕ, 0 < n →
      ((parseWSFrame data).ret = n ↔ n ≤ data.length ∧ WellFormedFrame (data.take n))) ∧
    ((parseWSFrame data).ret < 0 → ∀ later n, ¬ WellFormedFrame ((data ++ later).take n)) ∧
    (wireHeaderSize data ≤ data.length → ¬ BeginsWithHeader data → (parseWSFrame data).ret < 0) ∧
    ((parseWSFrame data).ret ≠ 0 → ∀ later, parseWSFrame (data ++ later) = parseWSFrame data) ∧
    (∀ opcode (payload : Bytes), payload.length < 2 ^ 63 →
      (Recovers opcode payload ↔ IsFrame opcode payload)) ∧
    ∀ rb : RingBuffer, rb.bytes = data → ∀ frame headerLen,
      readFront rb = .ready frame headerLen ↔
        parseWSFrame data = .frame frame headerLen ∧ frame.masked = true ∧
          frame.payloadLen ≤ maxMessageBytes := by
  refine ⟨fun n hn => ret_eq_iff hdata hn, not_wellFormed_of_neg hdata, ?_,
    parseWSFrame_append, fun opcode payload => recovers_iff, ?_⟩
  · intro hsize hbad
    rw [error_of_malformed hsize hbad, ret_error]
    decide
  · rintro rb rfl frame headerLen
    exact ready_iff

/-- A ping of two bytes, with the key `[1, 2, 3, 4]`. -/
theorem parseWSFrame_grammar_ping :
    (parseWSFrame [0x89, 0x82, 1, 2, 3, 4, 105, 107]).ret = (8 : ℕ) ↔
      8 ≤ [0x89, 0x82, 1, 2, 3, 4, 105, 107].length ∧
        WellFormedFrame ([0x89, 0x82, 1, 2, 3, 4, 105, 107].take 8) :=
  (parseWSFrame_grammar [0x89, 0x82, 1, 2, 3, 4, 105, 107] (by decide)).1 8 (by decide)

/-- The opcode 3 is none: its frame is made and not taken. -/
theorem not_recovers_reserved :
    ¬ ∀ (opcode : UInt8) (payload : Bytes), payload.length < 2 ^ 63 → Recovers opcode payload := by
  intro h
  rcases h 3 [] (by decide) with ⟨out, off, hparse, -⟩
  have herror : parseWSFrame (encodeWSFrame 3 []) = .error := rfl
  rw [herror] at hparse
  cases hparse

end Gmaker.Net.WsFrame
