import Gmaker.Net.WsReader

/-!
# Gmaker.Net.WsStream — WebSocket reassembly is the reference decoder

The frame loop of a connection compared with `Gmaker.Lib.WebSocket`, the limit being
`MAX_MESSAGE_BYTES`: each pass that goes on takes the frame the reference finds
(`pass_spec`), and a pass that ends the loop does so where the reference has nothing more
or has come to the end of the stream. So what a connection has handled is what the
reference decodes of all the bytes that came before it was closed (`handled_exact`), up to
the message whose callback closes it.
-/

namespace Gmaker.Net.WsReader

open Gmaker.Lib
open Gmaker.Lib.WebSocket

/-! ## Bytes and bits -/

/-- Where the reserved bits and the top bit of a byte stand in its number. -/
theorem header_bits : ∀ n : Fin 256,
    (UInt8.ofNat n &&& 0x70 = 0 ↔ (n : ℕ) / 16 % 8 = 0) ∧
      (UInt8.ofNat n &&& 0x80 ≠ 0 ↔ 128 ≤ (n : ℕ)) := by
  decide +kernel

theorem reserved_iff (b : UInt8) : b &&& 0x70 = 0 ↔ b.toNat / 16 % 8 = 0 := by
  have hbits := (header_bits ⟨b.toNat, b.toNat_lt⟩).1
  rwa [UInt8.ofNat_toNat] at hbits

theorem top_iff (b : UInt8) : b &&& 0x80 ≠ 0 ↔ 128 ≤ b.toNat := by
  have hbits := (header_bits ⟨b.toNat, b.toNat_lt⟩).2
  rwa [UInt8.ofNat_toNat] at hbits

theorem toNat_and_7F (b : UInt8) : (b &&& 0x7F).toNat = b.toNat % 128 := by
  rw [UInt8.toNat_and]
  exact Nat.and_two_pow_sub_one_eq_mod b.toNat 7

theorem toNat_and_0F (b : UInt8) : (b &&& 0x0F).toNat = b.toNat % 16 := by
  rw [UInt8.toNat_and]
  exact Nat.and_two_pow_sub_one_eq_mod b.toNat 4

/-- Shifting bytes in reads them as a big-endian number. -/
theorem shiftIn_eq (ext : Bytes) : shiftIn ext = ofBE ext := by
  have hfold : ∀ (ext : Bytes) (n : ℕ), ext.foldl (fun n b => n <<< 8 ||| b.toNat) n =
      n * 256 ^ ext.length + ofBE ext := by
    intro ext
    induction ext with
    | nil =>
      intro n
      rw [List.foldl_nil, List.length_nil, pow_zero, Nat.mul_one, ofBE, Nat.add_zero]
    | cons b ext ih =>
      intro n
      have hb : n <<< 8 ||| b.toNat = n * 256 + b.toNat := by
        rw [← Nat.shiftLeft_add_eq_or_of_lt b.toNat_lt, Nat.shiftLeft_eq]
      rw [List.foldl_cons, ih, hb, List.length_cons, ofBE]
      ring
  rw [shiftIn, hfold, Nat.zero_mul, Nat.zero_add]

theorem unmaskWSPayload_eq (payload : Bytes) (key : List.Vector UInt8 4) :
    unmaskWSPayload payload key.toList = mask key payload := by
  unfold unmaskWSPayload mask
  congr 1
  funext i b
  rw [show i &&& 3 = i % 4 from Nat.and_two_pow_sub_one_eq_mod i 2]

/-- The top bit of eight bytes. -/
theorem top_ofBE_iff {ext : Bytes} (hlen : ext.length = 8) :
    128 ≤ (ext.getD 0 0).toNat ↔ 2 ^ 63 ≤ ofBE ext := by
  cases ext with
  | nil => cases hlen
  | cons b ext =>
    have hlen' : ext.length = 7 := Nat.succ.inj hlen
    have hlt := ofBE_lt ext
    have hhalf : 2 ^ 63 = 128 * 256 ^ 7 := rfl
    change 128 ≤ b.toNat ↔ _
    rw [hlen'] at hlt
    rw [ofBE, hlen', hhalf]
    generalize 256 ^ 7 = unit at hlt ⊢
    constructor
    · intro h
      exact (Nat.mul_le_mul_right unit h).trans (Nat.le_add_right _ _)
    · intro h
      by_contra hb
      have hle : b.toNat + 1 ≤ 128 := by omega
      have hmul := Nat.mul_le_mul_right unit hle
      rw [Nat.add_mul, Nat.one_mul] at hmul
      omega

/-- The opcode of the source is the one of the reference. -/
theorem opcode_eq {opcode : UInt8} {op : Opcode} (h : opcode.toNat = op.code) :
    opcode = UInt8.ofNat op.code := by
  rw [← h, UInt8.ofNat_toNat]

theorem isKnownOpcode_eq (opcode : UInt8) :
    isKnownOpcode opcode = (Opcode.ofCode opcode.toNat).isSome := by
  rw [Bool.eq_iff_iff, Option.isSome_iff_exists]
  constructor
  · intro h
    unfold isKnownOpcode at h
    simp only [Bool.or_eq_true, beq_iff_eq] at h
    rcases h with ((((rfl | rfl) | rfl) | rfl) | rfl) | rfl
    exacts [⟨.continuation, rfl⟩, ⟨.text, rfl⟩, ⟨.binary, rfl⟩, ⟨.close, rfl⟩, ⟨.ping, rfl⟩,
      ⟨.pong, rfl⟩]
  · rintro ⟨op, hop⟩
    rw [opcode_eq (Opcode.ofCode_iff.mp hop).symm]
    cases op <;> rfl

theorem exists_opcode {b : UInt8} (h : ¬isKnownOpcode (b &&& 0x0F) = false) :
    ∃ op, Opcode.ofCode (b.toNat % 16) = some op ∧ (b &&& 0x0F).toNat = op.code := by
  rw [isKnownOpcode_eq, toNat_and_0F, Bool.not_eq_false, Option.isSome_iff_exists] at h
  obtain ⟨op, hop⟩ := h
  exact ⟨op, hop, by rw [toNat_and_0F, Opcode.ofCode_iff.mp hop]⟩

theorem isControlOpcode_eq {opcode : UInt8} {op : Opcode} (h : opcode.toNat = op.code) :
    isControlOpcode opcode = op.isControl := by
  rw [opcode_eq h]
  cases op <;> rfl

/-! ## The front of the buffer -/

/-- The extended length, as the reference has it. -/
inductive LengthSpec (rb : RingBuffer) (short : ℕ) : Length → Prop
  | wait (hsize : rb.size < 10) (hmore : readLength short (rb.bytes.drop 2) = .more) :
      LengthSpec rb short .wait
  | fail (code : UInt16) (hbad : readLength short (rb.bytes.drop 2) = .bad) :
      LengthSpec rb short (.fail code)
  | known (n headerLen : ℕ)
      (hfound : readLength short (rb.bytes.drop 2) = .found n (rb.bytes.drop headerLen))
      (hle : headerLen ≤ 10) : LengthSpec rb short (.known n headerLen)

theorem extendedLength_spec (rb : RingBuffer) {short : ℕ} (hshort : short ≤ 127) :
    LengthSpec rb short (extendedLength rb short) := by
  have hlen := rb.length_bytes
  have hdrop : (rb.bytes.drop 2).length = rb.size - 2 := by
    rw [List.length_drop, hlen]
  unfold extendedLength
  by_cases h126 : short = 126
  · rw [if_pos h126]
    have hread : readLength short = Reader.bind (Reader.take 2) fun ext =>
        Reader.require (126 ≤ ofBE ext.toList) fun _ => Reader.pure (ofBE ext.toList) := by
      rw [readLength, if_neg (by omega), if_pos h126]
    by_cases h4 : rb.size < 4
    · rw [if_pos h4]
      refine .wait (by omega) ?_
      rw [hread, Reader.bind_more _ (Reader.take_of_lt (by omega))]
    · rw [if_neg h4]
      have htake : rb.readAt 2 2 = (rb.bytes.drop 2).take 2 := rb.readAt_eq (by omega)
      have hle : 2 ≤ (rb.bytes.drop 2).length := by omega
      obtain ⟨ext, hext, hfound⟩ := Reader.take_of_le hle
      simp only [shiftIn_eq, htake, ← hext]
      split_ifs with hsmall
      · refine .fail _ ?_
        rw [hread, Reader.bind_found hfound]
        exact Reader.require_neg (not_le.mpr hsmall) _ _
      · refine .known _ _ ?_ (by omega)
        rw [hread, Reader.bind_found hfound, List.drop_drop]
        exact Reader.require_pos (not_lt.mp hsmall) _ _
  · rw [if_neg h126]
    by_cases h127 : short = 127
    · rw [if_pos h127]
      have hread : readLength short = Reader.bind (Reader.take 8) fun ext =>
          Reader.require (65536 ≤ ofBE ext.toList ∧ ofBE ext.toList < 2 ^ 63) fun _ =>
            Reader.pure (ofBE ext.toList) := by
        rw [readLength, if_neg (by omega), if_neg h126]
      by_cases h10 : rb.size < 10
      · rw [if_pos h10]
        refine .wait h10 ?_
        rw [hread, Reader.bind_more _ (Reader.take_of_lt (by omega))]
      · rw [if_neg h10]
        have htake : rb.readAt 2 8 = (rb.bytes.drop 2).take 8 := rb.readAt_eq (by omega)
        have hle : 8 ≤ (rb.bytes.drop 2).length := by omega
        obtain ⟨ext, hext, hfound⟩ := Reader.take_of_le hle
        simp only [shiftIn_eq, htake, ← hext, top_iff, top_ofBE_iff ext.toList_length]
        split_ifs with hhuge hsmall
        · refine .fail _ ?_
          rw [hread, Reader.bind_found hfound]
          exact Reader.require_neg (fun h => absurd h.2 (not_lt.mpr hhuge)) _ _
        · refine .fail _ ?_
          rw [hread, Reader.bind_found hfound]
          exact Reader.require_neg (fun h => absurd h.1 (not_le.mpr hsmall)) _ _
        · refine .known _ _ ?_ (by omega)
          rw [hread, Reader.bind_found hfound, List.drop_drop]
          exact Reader.require_pos ⟨not_lt.mp hsmall, not_le.mp hhuge⟩ _ _
    · rw [if_neg h127]
      refine .known _ _ ?_ (by omega)
      rw [readLength, if_pos (by omega), Reader.pure]

/-- The front of the buffer, as the reference has it. -/
inductive FrontSpec (rb : RingBuffer) : Front → Prop
  | wait (hsize : rb.size < maxMessageBytes + 14)
      (hnone : ∀ f rest, readFrame maxMessageBytes rb.bytes ≠ .found f rest) : FrontSpec rb .wait
  | fail (code : UInt16) (hbad : readFrame maxMessageBytes rb.bytes = .bad) :
      FrontSpec rb (.fail code)
  | ready (frame : WSFrame) (headerLen : ℕ) (f : Frame maxMessageBytes)
      (hfound : readFrame maxMessageBytes rb.bytes =
        .found f (rb.bytes.drop (headerLen + frame.payloadLen)))
      (hfin : frame.fin = f.fin) (hop : frame.opcode.toNat = f.opcode.code)
      (hlen : frame.payloadLen = f.payload.length)
      (hpayload : unmaskWSPayload (rb.readAt headerLen frame.payloadLen) frame.maskKey =
        f.payload) : FrontSpec rb (.ready frame headerLen)

theorem readFront_spec (rb : RingBuffer) : FrontSpec rb (readFront rb) := by
  have hlen := rb.length_bytes
  have hmax : maxMessageBytes = 16777216 := rfl
  have hsizeMax : sizeMax = 18446744073709551615 := rfl
  unfold readFront
  by_cases h2 : rb.size < 2
  · rw [if_pos h2]
    refine .wait (by omega) fun f rest => ?_
    rw [readFrame_of_lt (by omega)]
    nofun
  rw [if_neg h2]
  obtain ⟨b0, b1, tail, hbytes⟩ : ∃ b0 b1 tail, rb.bytes = b0 :: b1 :: tail := by
    rcases hbs : rb.bytes with _ | ⟨b0, _ | ⟨b1, tail⟩⟩
    · rw [hbs, List.length_nil] at hlen
      omega
    · rw [hbs, List.length_singleton] at hlen
      omega
    · exact ⟨b0, b1, tail, rfl⟩
  have hhdr : rb.readAt 0 2 = [b0, b1] := by
    rw [rb.readAt_eq (by omega), hbytes]
    rfl
  have hb1 := b1.toNat_lt
  simp only [hhdr, List.getD_cons_zero, List.getD_cons_succ]
  by_cases hhead : b0 &&& 0x70 ≠ 0 ∨ ¬(b1 &&& 0x80 ≠ 0)
  · rw [if_pos hhead]
    refine .fail _ ?_
    rw [hbytes, readFrame_cons, Reader.require_neg]
    rintro ⟨hrsv, hmasked⟩
    rcases hhead with h | h
    · exact h ((reserved_iff b0).mpr hrsv)
    · exact h ((top_iff b1).mpr hmasked)
  rw [if_neg hhead]
  push Not at hhead
  have hframe : readFrame maxMessageBytes rb.bytes = readOpened maxMessageBytes
      (decide (128 ≤ b0.toNat)) (b0.toNat % 16) (b1.toNat % 128) (rb.bytes.drop 2) := by
    rw [hbytes, readFrame_cons,
      Reader.require_pos ⟨(reserved_iff b0).mp hhead.1, (top_iff b1).mp hhead.2⟩]
    rfl
  have hshort : b1.toNat % 128 ≤ 127 := by omega
  have hspec := extendedLength_spec rb hshort
  rw [toNat_and_7F]
  generalize extendedLength rb (b1.toNat % 128) = len at hspec ⊢
  cases hspec with
  | wait hsize hmore =>
    refine .wait (by omega) fun f rest hfound => ?_
    rw [hframe] at hfound
    obtain ⟨op, hfin, n, mid, hop, hlength, -⟩ := readOpened_eq_found hfound
    rw [hmore] at hlength
    cases hlength
  | fail code hbad =>
    refine .fail code ?_
    rw [hframe]
    exact readOpened_of_bad fun op hfin => Reader.bind_bad _ hbad
  | known n headerLen hlength hle =>
    simp only []
    have hfinEq : decide (b0 &&& 0x80 ≠ 0) = decide (128 ≤ b0.toNat) := decide_eq_decide.mpr (top_iff b0)
    rw [hfinEq]
    split_ifs with hlong hshort hunknown hcontrol
    -- too long, not all there, of no known kind, a control frame that may not be, complete
    · refine .fail _ ?_
      rw [hframe]
      refine readOpened_of_bad fun op hfin => ?_
      rw [Reader.bind_found hlength]
      exact readBody_of_not (fun h => by omega) _
    · refine .wait (by omega) fun f rest hfound => ?_
      rw [hframe] at hfound
      obtain ⟨op, hfin, n', mid, hop, hlength', hbody⟩ := readOpened_eq_found hfound
      rw [hlength] at hlength'
      cases hlength'
      refine readBody_ne_found ?_ f rest hbody
      rw [List.length_drop]
      omega
    · refine .fail _ ?_
      rw [isKnownOpcode_eq, toNat_and_0F, Option.isSome_eq_false_iff, Option.isNone_iff_eq_none]
        at hunknown
      rw [hframe]
      exact readOpened_of_none hunknown _
    · obtain ⟨op, hop, hcode⟩ := exists_opcode hunknown
      rw [isControlOpcode_eq hcode] at hcontrol
      refine .fail _ ?_
      rw [hframe]
      by_cases hfin : op.isControl = true → decide (128 ≤ b0.toNat) = true
      · rw [readOpened_of_some hop hfin, Reader.bind_found hlength]
        refine readBody_of_not (fun h => ?_) _
        rcases hcontrol.2 with hpart | hbig
        · rw [hfin hcontrol.1] at hpart
          cases hpart
        · exact absurd (h.2 hcontrol.1) (not_le.mpr hbig)
      · exact readOpened_of_not_fin hop hfin _
    · obtain ⟨op, hop, hcode⟩ := exists_opcode hunknown
      rw [isControlOpcode_eq hcode] at hcontrol
      push Not at hcontrol
      have hfin : op.isControl = true → decide (128 ≤ b0.toNat) = true := by
        intro hc
        exact Bool.not_eq_false _ ▸ (hcontrol hc).1
      have hle' : n ≤ maxMessageBytes := by omega
      have hfits : 4 + n ≤ (rb.bytes.drop headerLen).length := by
        rw [List.length_drop]
        omega
      obtain ⟨f, hbody, hf, ho, hn, hkey, hdata⟩ :=
        readBody_of_le hfin ⟨hle', fun hc => (hcontrol hc).2⟩ hfits
      refine .ready _ _ f ?_ hf.symm (by rw [hcode, ho]) hn.symm ?_
      · rw [hframe, readOpened_of_some hop hfin, Reader.bind_found hlength, hbody, List.drop_drop]
        simp only [Nat.add_assoc]
      · have hkeyAt : rb.readAt (headerLen + 4 - 4) 4 = f.key.toList := by
          rw [Nat.add_sub_cancel, rb.readAt_eq (by omega), hkey]
        change unmaskWSPayload (rb.readAt (headerLen + 4) n) (rb.readAt (headerLen + 4 - 4) 4) = _
        rw [hkeyAt, unmaskWSPayload_eq, hdata, rb.readAt_eq (by omega), List.drop_drop]

/-! ## A pass -/

/-- The message that is being put together. -/
def Conn.part (c : Conn) : Part :=
  if c.fragmenting then some (toMessageType c.fragmentedOpcode, c.fragmentedPayload) else none

/-- What the read side looks at is the same. -/
structure SameReading (c c' : Conn) : Prop where
  wsReadBuf : c'.wsReadBuf = c.wsReadBuf
  part : c'.part = c.part
  handled : c'.handled = c.handled

theorem SameReading.rfl' (c : Conn) : SameReading c c := ⟨rfl, rfl, rfl⟩

/-- At most one thing has been handled; the connection is closed if that closes it. -/
inductive Handles (env : Env) (c c' : Conn) : List Output → Prop
  | nothing (hhandled : c'.handled = c.handled) (hstate : c'.state = c.state) : Handles env c c' []
  | one (o : Output) (hhandled : c'.handled = c.handled ++ [o])
      (hstate : c'.state = if env.react (c.handled ++ [o]) = .close then .closing else c.state) :
      Handles env c c' [o]

variable {env : Env} {c c' : Conn}

@[simp] theorem react_wsReadBuf (r : Reaction) : (c.react r).wsReadBuf = c.wsReadBuf := by
  cases r <;> rfl

@[simp] theorem react_part (r : Reaction) : (c.react r).part = c.part := by
  cases r <;> rfl

@[simp] theorem react_handled (r : Reaction) : (c.react r).handled = c.handled := by
  cases r <;> rfl

@[simp] theorem react_state (r : Reaction) :
    (c.react r).state = if r = .close then .closing else c.state := by
  cases r <;> rfl

theorem sameReading_queueFrame (frame : Bytes) : SameReading c (c.queueFrame frame) := by
  unfold Conn.queueFrame
  split_ifs <;> exact ⟨rfl, rfl, rfl⟩

theorem queueFrame_state (frame : Bytes) : (c.queueFrame frame).state = c.state := by
  unfold Conn.queueFrame
  split_ifs <;> rfl

theorem sameReading_sendCloseAndDrain (code : UInt16) :
    SameReading c (c.sendCloseAndDrain env code) := by
  obtain ⟨hbuf, hpart, hhandled⟩ := sameReading_queueFrame (c := c) (encodeWSCloseFrame code)
  unfold Conn.sendCloseAndDrain
  simp only []
  split_ifs
  · exact ⟨rfl, rfl, rfl⟩
  · exact ⟨hbuf, hpart, hhandled⟩
  · exact ⟨hbuf, hpart, hhandled⟩
  · unfold Conn.close
    split_ifs <;> exact ⟨rfl, rfl, rfl⟩

/-- What a pass has done, as the reference has it: it waits, it is at the end of the
stream, or it has taken a frame. -/
inductive PassSpec (env : Env) (c : Conn) : Bool × Conn → Prop
  | waits (hsize : c.wsReadBuf.size < maxMessageBytes + 14)
      (hnone : ∀ f rest, readFrame maxMessageBytes c.wsReadBuf.bytes ≠ .found f rest) :
      PassSpec env c (false, c)
  | ends (c' : Conn) (hends : Ends maxMessageBytes c.part c.wsReadBuf.bytes)
      (hsame : SameReading c c') : PassSpec env c (false, c')
  | goes (c' : Conn) (f : Frame maxMessageBytes) (out : List Output)
      (hfound : readFrame maxMessageBytes c.wsReadBuf.bytes = .found f c'.wsReadBuf.bytes)
      (hjoin : join c.part f = some (c'.part, out)) (hhandles : Handles env c c' out) :
      PassSpec env c (true, c')

theorem handles_onMessage {c₀ : Conn} (kind : Kind) (msg : Bytes) (hhandled : c.handled = c₀.handled)
    (hstate : c.state = c₀.state) : Handles env c₀ (c.onMessage env kind msg) [.message kind msg] := by
  refine .one _ ?_ ?_
  · rw [Conn.onMessage, react_handled, hhandled]
  · rw [Conn.onMessage, react_state, hhandled, hstate]

@[simp] theorem onMessage_wsReadBuf (kind : Kind) (msg : Bytes) :
    (c.onMessage env kind msg).wsReadBuf = c.wsReadBuf := react_wsReadBuf _

@[simp] theorem onMessage_part (kind : Kind) (msg : Bytes) :
    (c.onMessage env kind msg).part = c.part := react_part _

@[simp] theorem answerPing_wsReadBuf (controlData : Bytes) :
    (c.answerPing env controlData).wsReadBuf = c.wsReadBuf := by
  rw [Conn.answerPing, react_wsReadBuf, (sameReading_queueFrame _).wsReadBuf]

@[simp] theorem answerPing_part (controlData : Bytes) :
    (c.answerPing env controlData).part = c.part := by
  rw [Conn.answerPing, react_part, (sameReading_queueFrame _).part]
  rfl

theorem handles_answerPing (controlData : Bytes) :
    Handles env c (c.answerPing env controlData) [.ping controlData] := by
  refine .one _ ?_ ?_
  · rw [Conn.answerPing, react_handled, (sameReading_queueFrame _).handled]
  · rw [Conn.answerPing, react_state, queueFrame_state]

theorem part_of_idle (h : c.fragmenting = false) : c.part = none := by
  rw [Conn.part, h]
  rfl

theorem part_of_fragmenting (h : c.fragmenting = true) :
    c.part = some (toMessageType c.fragmentedOpcode, c.fragmentedPayload) := by
  rw [Conn.part, h]
  rfl

/-- The first frame of a message. -/
theorem pass_begin {opcode : UInt8} {kind : Kind} {totalLen : ℕ} (f : Frame maxMessageBytes)
    (hfound : readFrame maxMessageBytes c.wsReadBuf.bytes =
      .found f (c.consume totalLen).wsReadBuf.bytes)
    (hkind : toMessageType opcode = kind) (hjoin : join c.part f = begin kind f c.part) :
    PassSpec env c
      (if c.fragmenting then (false, c.failProtocol env 1002)
      else if f.fin then
        (true, (c.consume totalLen).onMessage env (toMessageType opcode) f.payload)
      else
        (true, { c with
          fragmenting := true
          fragmentedOpcode := opcode
          fragmentedPayload := f.payload }.consume totalLen)) := by
  by_cases hfrag : c.fragmenting
  · rw [if_pos hfrag]
    rw [part_of_fragmenting hfrag, begin] at hjoin
    refine .ends _ (.last f _ hfound ?_) (sameReading_sendCloseAndDrain _)
    rwa [part_of_fragmenting hfrag]
  · rw [if_neg hfrag]
    have hidle : c.part = none := part_of_idle (Bool.not_eq_true _ ▸ hfrag)
    rw [hidle, begin] at hjoin
    by_cases hfin : f.fin
    · rw [if_pos hfin] at hjoin ⊢
      rw [hkind]
      refine .goes _ f _ ?_ ?_ (handles_onMessage kind f.payload rfl rfl)
      · rw [onMessage_wsReadBuf, hfound]
      · rw [hidle, hjoin, onMessage_part]
        exact congrArg (fun part => some (part, _)) hidle.symm
    · rw [if_neg hfin] at hjoin ⊢
      refine .goes _ f [] hfound ?_ (.nothing rfl rfl)
      rw [hidle, hjoin, ← hkind]
      rfl

/-- A further frame of a message. -/
theorem pass_extend {totalLen : ℕ} (f : Frame maxMessageBytes)
    (hfound : readFrame maxMessageBytes c.wsReadBuf.bytes =
      .found f (c.consume totalLen).wsReadBuf.bytes)
    (hjoin : join c.part f = extend f c.part) :
    PassSpec env c
      (if c.fragmenting = false then (false, c.failProtocol env 1002)
      else if maxMessageBytes < c.fragmentedPayload.length + f.payload.length then
        (false, c.failProtocol env 1009)
      else if f.fin then
        (true, ({ c with
          fragmenting := false
          fragmentedOpcode := 0
          fragmentedPayload := [] }.consume totalLen).onMessage env
            (toMessageType c.fragmentedOpcode) (c.fragmentedPayload ++ f.payload))
      else
        (true, { c with
          fragmentedPayload := c.fragmentedPayload ++ f.payload }.consume totalLen)) := by
  by_cases hidle : c.fragmenting = false
  · rw [if_pos hidle]
    rw [part_of_idle hidle, extend] at hjoin
    refine .ends _ (.last f _ hfound ?_) (sameReading_sendCloseAndDrain _)
    rwa [part_of_idle hidle]
  · rw [if_neg hidle]
    have hfrag : c.fragmenting = true := Bool.not_eq_false _ ▸ hidle
    have hpart := part_of_fragmenting hfrag
    rw [hpart, extend] at hjoin
    by_cases hlong : maxMessageBytes < c.fragmentedPayload.length + f.payload.length
    · rw [if_pos hlong] at hjoin ⊢
      refine .ends _ (.last f _ hfound ?_) (sameReading_sendCloseAndDrain _)
      rwa [hpart]
    · rw [if_neg hlong] at hjoin ⊢
      by_cases hfin : f.fin
      · rw [if_pos hfin] at hjoin ⊢
        refine .goes _ f _ ?_ ?_ (handles_onMessage _ _ rfl rfl)
        · rw [onMessage_wsReadBuf, hfound]
          rfl
        · rw [hpart, hjoin, onMessage_part]
          rfl
      · rw [if_neg hfin] at hjoin ⊢
        refine .goes _ f [] hfound ?_ (.nothing rfl rfl)
        rw [hpart, hjoin, part_of_fragmenting]
        · rfl
        · exact hfrag

theorem takeFrame_spec {frame : WSFrame} {headerLen : ℕ} (f : Frame maxMessageBytes)
    (hfound : readFrame maxMessageBytes c.wsReadBuf.bytes =
      .found f (c.wsReadBuf.bytes.drop (headerLen + frame.payloadLen)))
    (hfin : frame.fin = f.fin) (hop : frame.opcode.toNat = f.opcode.code)
    (hlen : frame.payloadLen = f.payload.length)
    (hpayload : unmaskWSPayload (c.wsReadBuf.readAt headerLen frame.payloadLen) frame.maskKey =
      f.payload) : PassSpec env c (c.takeFrame env frame headerLen) := by
  have hopcode := opcode_eq hop
  rw [← RingBuffer.bytes_consume] at hfound
  have hends : join c.part f = none → Ends maxMessageBytes c.part c.wsReadBuf.bytes :=
    fun hjoin => .last f _ hfound hjoin
  unfold Conn.takeFrame
  simp only [hpayload, hfin]
  cases hf : f.opcode with
  | close =>
    have hjoin : join c.part f = none := by rw [join, hf]
    rw [hf] at hopcode
    rw [hopcode]
    exact .ends _ (hends hjoin) (sameReading_sendCloseAndDrain _)
  | ping =>
    have hjoin : join c.part f = some (c.part, [.ping f.payload]) := by rw [join, hf]
    rw [hf] at hopcode
    rw [hopcode]
    refine .goes ((c.answerPing env f.payload).consume _) f [.ping f.payload] ?_ ?_ ?_
    · rw [hfound, Conn.consume, answerPing_wsReadBuf]
    · rw [hjoin]
      exact congrArg (fun part => some (part, _)) (answerPing_part f.payload).symm
    · have hanswer : Handles env c (c.answerPing env f.payload) [.ping f.payload] :=
        handles_answerPing f.payload
      cases hanswer with
      | one _ hhandled hstate => exact .one _ hhandled hstate
  | pong =>
    have hjoin : join c.part f = some (c.part, []) := by rw [join, hf]
    rw [hf] at hopcode
    rw [hopcode]
    exact .goes _ f [] hfound hjoin (.nothing rfl rfl)
  | text =>
    rw [hf] at hopcode
    have hjoin : join c.part f = begin .text f c.part := by rw [join, hf]
    rw [hopcode]
    exact pass_begin f hfound rfl hjoin
  | binary =>
    rw [hf] at hopcode
    have hjoin : join c.part f = begin .binary f c.part := by rw [join, hf]
    rw [hopcode]
    exact pass_begin f hfound rfl hjoin
  | continuation =>
    rw [hf] at hopcode
    have hjoin : join c.part f = extend f c.part := by rw [join, hf]
    rw [hopcode, hlen]
    exact pass_extend f (hlen ▸ hfound) hjoin

theorem pass_spec (env : Env) (c : Conn) : PassSpec env c (c.pass env) := by
  have hfront := readFront_spec c.wsReadBuf
  unfold Conn.pass
  generalize readFront c.wsReadBuf = front at hfront ⊢
  cases hfront with
  | wait hsize hnone => exact .waits hsize hnone
  | fail code hbad => exact .ends _ (.bad hbad) (sameReading_sendCloseAndDrain code)
  | ready frame headerLen f hfound hfin hop hlen hpayload =>
    exact takeFrame_spec f hfound hfin hop hlen hpayload

/-- At the end of the stream the loop ends, and nothing has changed. -/
theorem pass_of_ends (h : Ends maxMessageBytes c.part c.wsReadBuf.bytes) :
    (c.pass env).1 = false ∧ SameReading c (c.pass env).2 := by
  have hspec := pass_spec env c
  generalize c.pass env = r at hspec ⊢
  cases hspec with
  | waits hsize hnone => exact ⟨rfl, .rfl' c⟩
  | ends c' hends hsame => exact ⟨rfl, hsame⟩
  | goes c' f out hfound hjoin hhandles =>
    exfalso
    cases h with
    | bad hbad =>
      rw [hbad] at hfound
      cases hfound
    | last f' rest' hlast hnone =>
      rw [hlast] at hfound
      cases hfound
      rw [hnone] at hjoin
      cases hjoin

/-! ## What is heard of a stream -/

/-- Of the outputs behind `past`, those up to the one that closes the connection. -/
def heard (env : Env) : List Output → List Output → List Output
  | _, [] => []
  | past, o :: os =>
    o :: (if env.react (past ++ [o]) = .close then [] else heard env (past ++ [o]) os)

/-- A connection that nothing closes hears everything. -/
theorem heard_of_open (h : ∀ past, env.react past ≠ .close) (past os : List Output) :
    heard env past os = os := by
  induction os generalizing past with
  | nil => rfl
  | cons o os ih => rw [heard, if_neg (h _), ih]

/-- The connection is at the place of the stream where the reference is. -/
def Follows (env : Env) (c : Conn) (recv : Bytes) : Prop :=
  ∀ later, heard env [] (decode maxMessageBytes none (recv ++ later)) =
    c.handled ++ heard env c.handled (decode maxMessageBytes c.part (c.wsReadBuf.bytes ++ later))

/-- The connection has handled all that it will, whatever comes. -/
def Finished (env : Env) (c : Conn) (recv : Bytes) : Prop :=
  ∀ later, heard env [] (decode maxMessageBytes none (recv ++ later)) = c.handled

/-- How a connection can stand to what it has received, between two reads: it waits for
the rest of a frame; it is at the end of the stream; it has been closed. -/
inductive Stands (env : Env) (c : Conn) (recv : Bytes) : Prop
  | waiting (hfollows : Follows env c recv) (hsize : c.wsReadBuf.size < maxMessageBytes + 14)
      (hnone : ∀ f rest, readFrame maxMessageBytes c.wsReadBuf.bytes ≠ .found f rest)
  | ended (hends : Ends maxMessageBytes c.part c.wsReadBuf.bytes) (hfinished : Finished env c recv)
  | closed (hstate : c.state ≠ .connected)
      (hexact : heard env [] (decode maxMessageBytes none recv) = c.handled)

theorem Stands.exact {recv : Bytes} (h : Stands env c recv) :
    c.handled = heard env [] (decode maxMessageBytes none recv) := by
  cases h with
  | waiting hfollows hsize hnone =>
    have hnow := hfollows []
    rw [List.append_nil, List.append_nil,
      decode_of_not_found fun f rest hfound => absurd hfound (hnone f rest), heard,
      List.append_nil] at hnow
    exact hnow.symm
  | ended hends hfinished =>
    rw [← List.append_nil recv]
    exact (hfinished []).symm
  | closed hstate hexact => exact hexact.symm

/-- At its end, a stream that was followed is finished. -/
theorem Follows.finished {recv : Bytes} (h : Follows env c recv)
    (hends : Ends maxMessageBytes c.part c.wsReadBuf.bytes) : Finished env c recv := by
  intro later
  rw [h later, (hends.append later).decode, heard, List.append_nil]

theorem Finished.append {recv chunk : Bytes} (h : Finished env c recv)
    (hhandled : c'.handled = c.handled) : Finished env c' (recv ++ chunk) := by
  intro later
  rw [List.append_assoc, h, hhandled]

/-- A frame that is taken: the reference goes on behind it, or the connection is closed. -/
theorem Follows.goes {recv : Bytes} {f : Frame maxMessageBytes} {out : List Output}
    (h : Follows env c recv) (hstate : c.state = .connected)
    (hfound : readFrame maxMessageBytes c.wsReadBuf.bytes = .found f c'.wsReadBuf.bytes)
    (hjoin : join c.part f = some (c'.part, out)) (hhandles : Handles env c c' out) :
    (c'.state = .connected ∧ Follows env c' recv) ∨
      (c'.state ≠ .connected ∧ Finished env c' recv) := by
  have hnext : ∀ later, decode maxMessageBytes c.part (c.wsReadBuf.bytes ++ later) =
      out ++ decode maxMessageBytes c'.part (c'.wsReadBuf.bytes ++ later) := by
    intro later
    exact decode_found ((steady_readFrame _).found _ later _ _ hfound) hjoin
  cases hhandles with
  | nothing hhandled hstate' =>
    refine .inl ⟨hstate'.trans hstate, fun later => ?_⟩
    rw [h later, hnext, hhandled, List.nil_append]
  | one o hhandled hstate' =>
    by_cases hclose : env.react (c.handled ++ [o]) = .close
    · rw [if_pos hclose] at hstate'
      refine .inr ⟨by rw [hstate']; nofun, fun later => ?_⟩
      rw [h later, hnext, List.singleton_append, heard, if_pos hclose, hhandled]
    · rw [if_neg hclose] at hstate'
      refine .inl ⟨hstate'.trans hstate, fun later => ?_⟩
      rw [h later, hnext, List.singleton_append, heard, if_neg hclose, hhandled,
        List.append_assoc, List.singleton_append]

/-- The frame loop. -/
theorem processWSFrames_stands {recv : Bytes} {passes : ℕ} (h : Follows env c recv)
    (hstate : c.state = .connected) (hpasses : c.wsReadBuf.size < passes) :
    Stands env (c.processWSFrames env passes) recv := by
  induction passes generalizing c with
  | zero => omega
  | succ passes ih =>
    have hspec := pass_spec env c
    rw [Conn.processWSFrames, if_pos hstate]
    generalize c.pass env = r at hspec ⊢
    cases hspec with
    | waits hsize hnone => exact .waiting h hsize hnone
    | ends c' hends hsame =>
      have hfinished := h.finished hends
      rw [← hsame.part, ← hsame.wsReadBuf] at hends
      refine .ended hends fun later => ?_
      exact (hfinished later).trans hsame.handled.symm
    | goes c' f out hfound hjoin hhandles =>
      have hshorter := length_rest_lt hfound
      rw [RingBuffer.length_bytes, RingBuffer.length_bytes] at hshorter
      rcases h.goes hstate hfound hjoin hhandles with ⟨hstate', hfollows⟩ | ⟨hstate', hfinished⟩
      · have hlt : c'.wsReadBuf.size < passes := by omega
        exact ih hfollows hstate' hlt
      · -- the callback has closed the connection: the loop looks at the state, and ends
        have hstop : c'.processWSFrames env passes = c' := by
          cases passes with
          | zero => rfl
          | succ passes => rw [Conn.processWSFrames, if_neg hstate']
        change Stands env (c'.processWSFrames env passes) recv
        rw [hstop]
        refine .closed hstate' ?_
        rw [← List.append_nil recv]
        exact hfinished []

/-! ## Runs -/

/-- The size of a read: no more than 1 MB. -/
def maxChunk : ℕ := 1024 * 1024

/-- No read brings more than that. -/
def SmallChunks (es : List Event) : Prop :=
  ∀ chunk, Event.data chunk ∈ es → chunk.length ≤ maxChunk

/-- What the read side looks at is the same, and the connection as open, or closed. -/
theorem Stands.of_same {recv : Bytes} (h : Stands env c recv) (hsame : SameReading c c')
    (hstate : c'.state = c.state ∨ c'.state ≠ .connected) : Stands env c' recv := by
  obtain ⟨hbuf, hpart, hhandled⟩ := hsame
  rcases hstate with hstate | hstate
  · cases h with
    | waiting hfollows hsize hnone =>
      refine .waiting (fun later => ?_) (hbuf ▸ hsize) (hbuf ▸ hnone)
      rw [hfollows later, hbuf, hpart, hhandled]
    | ended hends hfinished =>
      refine .ended (hpart ▸ hbuf ▸ hends) fun later => ?_
      rw [hfinished later, hhandled]
    | closed hclosed hexact => exact .closed (hstate ▸ hclosed) (hexact.trans hhandled.symm)
  · exact .closed hstate (h.exact.symm.trans hhandled.symm)

theorem stands_append_read {recv chunk : Bytes} (h : Stands env c recv)
    (hstate : c.state = .connected) (hchunk : chunk.length ≤ maxChunk) :
    Stands env (c.onDataReceived env chunk) (recv ++ chunk) := by
  have hmax : maxMessageBytes = 16777216 := rfl
  have hbuf : maxReadBufBytes = 67108864 := rfl
  have hchunk' : maxChunk = 1048576 := rfl
  unfold Conn.onDataReceived
  rw [if_pos hstate]
  split_ifs with hfull
  · -- the buffer is full: then it does not wait for the rest of a frame
    have hsame : SameReading c (c.sendCloseAndDrain env 1009) :=
      sameReading_sendCloseAndDrain 1009
    cases h with
    | waiting hfollows hsize hnone => omega
    | ended hends hfinished =>
      refine .ended ?_ (hfinished.append hsame.handled)
      change Ends _ (c.sendCloseAndDrain env 1009).part (c.sendCloseAndDrain env 1009).wsReadBuf.bytes
      rw [hsame.part, hsame.wsReadBuf]
      exact hends
    | closed hclosed hexact => exact absurd hstate hclosed
  · have hbytes := c.wsReadBuf.bytes_append chunk
    cases h with
    | waiting hfollows hsize hnone =>
      refine processWSFrames_stands (fun later => ?_) hstate (Nat.lt_succ_self _)
      rw [List.append_assoc, hfollows (chunk ++ later), ← List.append_assoc, ← hbytes]
      rfl
    | ended hends hfinished =>
      -- the frame at the front is refused again
      let c₁ : Conn := { c with wsReadBuf := c.wsReadBuf.append chunk }
      have hends₁ : Ends maxMessageBytes c₁.part c₁.wsReadBuf.bytes := by
        change Ends _ c.part (c.wsReadBuf.append chunk).bytes
        rw [hbytes]
        exact hends.append chunk
      have hpass : (c₁.pass env).1 = false ∧ SameReading c₁ (c₁.pass env).2 := pass_of_ends hends₁
      obtain ⟨hstop, hsame⟩ := hpass
      have hloop : c₁.processWSFrames env (c₁.wsReadBuf.size + 1) = (c₁.pass env).2 := by
        rw [Conn.processWSFrames, if_pos hstate]
        simp only [hstop, Bool.false_eq_true, if_false]
      change Stands env (c₁.processWSFrames env (c₁.wsReadBuf.size + 1)) _
      rw [hloop]
      refine .ended ?_ (hfinished.append hsame.handled)
      rw [hsame.part, hsame.wsReadBuf]
      exact hends₁
    | closed hclosed hexact => exact absurd hstate hclosed

/-- What an event does that is not a read. -/
theorem step_of_not_data {e : Event} (h : ∀ chunk, e ≠ .data chunk) :
    e.bytes = [] ∧ SameReading c (step env c e) ∧
      ((step env c e).state = c.state ∨ (step env c e).state ≠ .connected) := by
  cases e with
  | data chunk => exact absurd rfl (h chunk)
  | send frame => exact ⟨rfl, sameReading_queueFrame frame, .inl (queueFrame_state frame)⟩
  | ping =>
    change _ ∧ SameReading c c.checkLiveness ∧ (c.checkLiveness.state = c.state ∨ _)
    unfold Conn.checkLiveness
    split_ifs
    · exact ⟨rfl, .rfl' c, .inl rfl⟩
    · obtain ⟨hbuf, hpart, hhandled⟩ := sameReading_queueFrame (c := c) (encodeWSFrame opcodePing [])
      exact ⟨rfl, ⟨hbuf, hpart, hhandled⟩, .inl (queueFrame_state _)⟩
  | close =>
    change _ ∧ SameReading c c.close ∧ (c.close.state = c.state ∨ _)
    unfold Conn.close
    split_ifs <;> exact ⟨rfl, ⟨rfl, rfl, rfl⟩, .inl rfl⟩
  | closeAfterWrite =>
    change _ ∧ SameReading c c.callCloseAfterWrite ∧ (c.callCloseAfterWrite.state = c.state ∨ _)
    unfold Conn.callCloseAfterWrite
    split_ifs <;> exact ⟨rfl, ⟨rfl, rfl, rfl⟩, .inl rfl⟩
  | doClose => exact ⟨rfl, ⟨rfl, rfl, rfl⟩, .inr (by nofun)⟩
  | closeDone =>
    change _ ∧ SameReading c c.onCloseDone ∧ (c.onCloseDone.state = c.state ∨
      c.onCloseDone.state ≠ .connected)
    unfold Conn.onCloseDone
    split_ifs
    · exact ⟨rfl, ⟨rfl, rfl, rfl⟩, .inr (by nofun)⟩
    · exact ⟨rfl, .rfl' c, .inl rfl⟩

/-- What one event does. -/
theorem stands_step {recv : Bytes} (e : Event) (h : Stands env c recv)
    (hchunk : ∀ chunk, e = .data chunk → chunk.length ≤ maxChunk) :
    Stands env (step env c e) (recv ++ if c.state = .connected then e.bytes else []) := by
  by_cases hdata : ∃ chunk, e = .data chunk
  · obtain ⟨chunk, rfl⟩ := hdata
    by_cases hstate : c.state = .connected
    · rw [if_pos hstate]
      exact stands_append_read h hstate (hchunk chunk rfl)
    · rw [if_neg hstate, List.append_nil]
      change Stands env (c.onDataReceived env chunk) recv
      rw [Conn.onDataReceived, if_neg hstate]
      exact h
  · have hother : ∀ chunk, e ≠ .data chunk := fun chunk he => hdata ⟨chunk, he⟩
    obtain ⟨hbytes, hsame, hstate⟩ :
        e.bytes = [] ∧ SameReading c (step env c e) ∧
          ((step env c e).state = c.state ∨ (step env c e).state ≠ .connected) :=
      step_of_not_data hother
    rw [hbytes, ite_self, List.append_nil]
    exact h.of_same hsame hstate

theorem stands_run {recv : Bytes} (es : List Event) (h : Stands env c recv)
    (hsmall : SmallChunks es) : Stands env (run env c es) (recv ++ received env c es) := by
  induction es generalizing c recv with
  | nil =>
    rw [received, List.append_nil]
    exact h
  | cons e es ih =>
    have hstep := stands_step e h fun chunk he => hsmall chunk (he ▸ List.mem_cons_self)
    have hrest := ih hstep fun chunk he => hsmall chunk (List.mem_cons_of_mem e he)
    rw [received, ← List.append_assoc]
    exact hrest

theorem stands_afterHandshake (env : Env) (rest : Bytes) :
    Stands env (afterHandshake env rest) rest := by
  refine processWSFrames_stands (fun later => ?_) rfl (Nat.lt_succ_self _)
  rw [List.nil_append]
  congr 2
  change rest ++ later = (if rest ≠ [] then _ else _ : RingBuffer).bytes ++ later
  split_ifs with hrest
  · rw [RingBuffer.bytes_append, RingBuffer.bytes_new, List.nil_append]
  · rw [RingBuffer.bytes_new, not_ne_iff.mp hrest]

theorem received_append (c : Conn) (es later : List Event) :
    received env c (es ++ later) = received env c es ++ received env (run env c es) later := by
  induction es generalizing c with
  | nil => rfl
  | cons e es ih =>
    rw [List.cons_append, received, received, ih, List.append_assoc]
    rfl

/-- WebSocket reassembly, however the stream is cut: the messages that are delivered and
the pings that are answered are those the reference decodes of the bytes that came before
the connection was closed, in their order; and once the stream has ended, by an error or by
a close frame, nothing is delivered whatever follows. -/
theorem handled_exact (env : Env) (rest : Bytes) (es later : List Event)
    (hsmall : SmallChunks (es ++ later)) :
    (run env (afterHandshake env rest) es).handled =
        heard env [] (decode maxMessageBytes none
          (rest ++ received env (afterHandshake env rest) es)) ∧
      (Over maxMessageBytes none (rest ++ received env (afterHandshake env rest) es) →
        (run env (afterHandshake env rest) (es ++ later)).handled =
          (run env (afterHandshake env rest) es).handled) := by
  have hes : SmallChunks es := fun chunk h => hsmall chunk (List.mem_append_left later h)
  have hnow := (stands_run es (stands_afterHandshake env rest) hes).exact
  refine ⟨hnow, fun hover => ?_⟩
  rw [(stands_run (es ++ later) (stands_afterHandshake env rest) hsmall).exact, hnow,
    received_append, ← List.append_assoc, hover.decode_append]

/-- "Hi", in one frame. -/
def hiFrame : Frame maxMessageBytes where
  fin := true
  opcode := .text
  key := ⟨[1, 2, 3, 4], rfl⟩
  payload := [72, 105]
  length_le := by decide
  control := by decide

/-- A close frame. -/
def closeFrame : Frame maxMessageBytes where
  fin := true
  opcode := .close
  key := ⟨[1, 2, 3, 4], rfl⟩
  payload := [3, 232]
  length_le := by decide
  control := by decide

/-- A callback that leaves the connection open. -/
def quiet : Env where
  react := fun _ => .stay
  closeWritten := true

/-- "Hi", and behind the close frame nothing. -/
theorem handled_exact_hi :
    (run quiet (afterHandshake quiet []) [.data (hiFrame.encode ++ closeFrame.encode)]).handled =
        [.message .text [72, 105]] ∧
      (run quiet (afterHandshake quiet [])
        [.data (hiFrame.encode ++ closeFrame.encode), .data hiFrame.encode]).handled =
          [.message .text [72, 105]] := by
  have hlimit : maxMessageBytes < 2 ^ 63 := by decide
  have hrecv : received quiet (afterHandshake quiet [])
      [.data (hiFrame.encode ++ closeFrame.encode)] = hiFrame.encode ++ closeFrame.encode := by
    have hopen : (afterHandshake quiet []).state = .connected := rfl
    rw [received, if_pos hopen, received, List.append_nil]
    rfl
  have hjoin : join none hiFrame = some (none, [.message .text [72, 105]]) := rfl
  have hread : readFrame maxMessageBytes closeFrame.encode = .found closeFrame [] := by
    rw [← List.append_nil closeFrame.encode]
    exact readFrame_encode hlimit closeFrame []
  have hclose : Ends maxMessageBytes none closeFrame.encode := .last closeFrame [] hread rfl
  have hdecode : decode maxMessageBytes none (hiFrame.encode ++ closeFrame.encode) =
      [.message .text [72, 105]] := by
    rw [decode_encode hlimit hjoin, hclose.decode, List.append_nil]
  have hsmall : SmallChunks ([.data (hiFrame.encode ++ closeFrame.encode)] ++
      [.data hiFrame.encode]) := by
    intro chunk hmem
    simp only [List.cons_append, List.nil_append, List.mem_cons, Event.data.injEq,
      List.not_mem_nil, or_false] at hmem
    rcases hmem with rfl | rfl <;> decide
  obtain ⟨hnow, hlater⟩ := handled_exact quiet [] [.data (hiFrame.encode ++ closeFrame.encode)]
    [.data hiFrame.encode] hsmall
  rw [hrecv, List.nil_append, hdecode, heard_of_open (by nofun)] at hnow
  refine ⟨hnow, ?_⟩
  rw [← hnow]
  refine hlater ?_
  rw [hrecv, List.nil_append]
  exact .later (readFrame_encode hlimit hiFrame _) hjoin (.here hclose)

end Gmaker.Net.WsReader
