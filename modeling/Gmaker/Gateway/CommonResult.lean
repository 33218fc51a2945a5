import Gmaker.Lib.Protowire
import Gmaker.Net.Buffer

/-!
# Gmaker.Gateway.CommonResult — the result the gateway writes by hand

The gateway answers a client in its own name with a `common.Result`, which it writes without the
library of protocol buffers. The loop of `AppendVarint` writes the bytes of `varint`
(`appendVarint_eq`), so the rules of the wire format read the payload back
(`encodeCommonResultPayload_correct`).
-/

namespace Gmaker.Gateway

open Gmaker.Lib Gmaker.Lib.Protowire Gmaker.Net

/-! ## The writer -/

/-- `AppendVarint`: the value moves down by seven bits until seven are left. -/
def appendVarint (out : Bytes) (value : UInt64) : Bytes :=
  if 0x80 ≤ value then appendVarint (out ++ [value.toUInt8 ||| 0x80]) (value >>> 7)
  else out ++ [value.toUInt8]
termination_by value.toNat
decreasing_by
  rename_i hlarge
  have hle := UInt64.le_iff_toNat_le.mp hlarge
  rw [UInt64.toNat_shiftRight]
  simp only [UInt64.reduceToNat, Nat.reduceMod, Nat.shiftRight_eq_div_pow] at hle ⊢
  omega

/-- `EncodeCommonResultPayload`. -/
def encodeCommonResultPayload (code : UInt32) (msg : ByteVector) : Bytes :=
  let out := appendVarint [] (((2 : UInt32) <<< 3) ||| 0).toUInt64
  let out := appendVarint out code.toUInt64
  if msg.val.isEmpty then out
  else
    let out := appendVarint out (((3 : UInt32) <<< 3) ||| 2).toUInt64
    let out := appendVarint out msg.size
    out ++ msg.val

/-! ## The reader -/

/-- `common.Result`, its message as the bytes on the wire. -/
structure CommonResult where
  ok : Bool := false
  code : UInt32 := 0
  msg : Bytes := []
  deriving DecidableEq

/-- A field of a `common.Result`. What is unknown, or of another wire type, is skipped. -/
def CommonResult.field (r : CommonResult) (num typ : ℕ) (bs : Bytes) :
    Option (CommonResult × Bytes) :=
  match num, typ with
  | 1, 0 => (consumeVarint bs).map fun (n, rest) => ({ r with ok := n != 0 }, rest)
  | 2, 0 => (consumeVarint bs).map fun (n, rest) => ({ r with code := .ofNat n }, rest)
  | 3, 2 => (consumeBytes bs).map fun (value, rest) => ({ r with msg := value }, rest)
  | num, typ => (consumeFieldValue num typ bs).map fun rest => (r, rest)

/-- A payload as a `common.Result`. -/
def decodeCommonResult (payload : Bytes) : Option CommonResult :=
  consumeFields CommonResult.field payload.length {} payload

/-! ## What the loop writes -/

variable {out : Bytes} {value : UInt64}

/-- The low byte of a value, with the top bit set: seven bits of the value, and more to come. -/
theorem toUInt8_or (value : UInt64) :
    value.toUInt8 ||| 0x80 = UInt8.ofNat (value.toNat % 128 + 128) := by
  have hsplit : ∀ b : UInt8, b ||| 0x80 = UInt8.ofNat (b.toNat % 128 + 128) := by decide +kernel
  rw [hsplit, UInt64.toNat_toUInt8, Nat.mod_mod_of_dvd _ (by norm_num)]

/-- Each turn of the loop is a step of `varint`. -/
theorem appendVarint_eq (out : Bytes) (value : UInt64) :
    appendVarint out value = out ++ varint value.toNat := by
  fun_induction appendVarint out value with
  | case1 out value hlarge ih =>
    have hle : 128 ≤ value.toNat := UInt64.le_iff_toNat_le.mp hlarge
    have hshift : (value >>> 7).toNat = value.toNat / 128 := by
      rw [UInt64.toNat_shiftRight]
      simp [Nat.shiftRight_eq_div_pow]
    rw [ih, hshift, varint.eq_def value.toNat, if_neg (Nat.not_lt_of_le hle), toUInt8_or,
      List.append_assoc, List.singleton_append]
  | case2 out value hsmall =>
    have hlt : value.toNat < 128 := by
      rw [UInt64.le_iff_toNat_le] at hsmall
      exact Nat.lt_of_not_le hsmall
    have hbyte : value.toUInt8 = UInt8.ofNat value.toNat := by
      rw [← UInt8.toNat_inj, UInt64.toNat_toUInt8, UInt8.toNat_ofNat']
    rw [varint, if_pos hlt, hbyte]

/-- The code is always written, the message only when there is one. -/
theorem encodeCommonResultPayload_eq (code : UInt32) (msg : ByteVector) :
    encodeCommonResultPayload code msg =
      varint 16 ++ (varint code.toNat ++
        if msg.val = [] then []
        else varint 26 ++ (varint msg.val.length ++ msg.val)) := by
  have hcode : code.toUInt64.toNat = code.toNat := UInt32.toNat_toUInt64 code
  unfold encodeCommonResultPayload
  simp only [appendVarint_eq, hcode, ByteVector.toNat_size, List.isEmpty_iff, List.nil_append]
  split_ifs with hempty
  · rw [List.append_nil]
    rfl
  · simp only [List.append_assoc]
    rfl

/-! ## What is read -/

theorem CommonResult.field_code (r : CommonResult) (code : UInt32) (rest : Bytes) :
    r.field 2 0 (varint code.toNat ++ rest) = some ({ r with code := code }, rest) := by
  have hlt : code.toNat < 2 ^ 64 := code.toNat_lt.trans (by norm_num)
  change (consumeVarint (varint code.toNat ++ rest)).map
    (fun (n, rest) => ({ r with code := .ofNat n }, rest)) = _
  simp only [consumeVarint_varint rest hlt, Option.map_some, UInt32.ofNat_toNat]

theorem CommonResult.field_msg (r : CommonResult) (msg : ByteVector) :
    r.field 3 2 (varint msg.val.length ++ msg.val) = some ({ r with msg := msg.val }, []) := by
  have hlt : msg.val.length < 2 ^ 64 := lt_of_le_of_lt msg.property (by norm_num [maxSize])
  have hread := consumeBytes_varint [] hlt
  rw [List.append_nil] at hread
  change (consumeBytes (varint msg.val.length ++ msg.val)).map
    (fun (value, rest) => ({ r with msg := value }, rest)) = _
  simp only [hread, Option.map_some]

/-- Two units of fuel are enough, since there are two fields at most. -/
theorem consumeFields_encodeCommonResultPayload (fuel : ℕ) (code : UInt32) (msg : ByteVector) :
    consumeFields CommonResult.field (fuel + 2) {} (encodeCommonResultPayload code msg) =
      some { ok := false, code := code, msg := msg.val } := by
  rw [encodeCommonResultPayload_eq, consumeFields_varint (by norm_num) (by norm_num) (by norm_num)
    (CommonResult.field_code {} code _)]
  split_ifs with hempty
  · rw [consumeFields_nil, hempty]
  · rw [consumeFields_varint (by norm_num) (by norm_num) (by norm_num)
      (CommonResult.field_msg _ msg), consumeFields_nil]

/-- The payload has a byte at least for the tag and for the code. -/
theorem two_le_length_encodeCommonResultPayload (code : UInt32) (msg : ByteVector) :
    2 ≤ (encodeCommonResultPayload code msg).length := by
  have htag := List.length_pos_iff.mpr (varint_ne_nil 16)
  have hcode := List.length_pos_iff.mpr (varint_ne_nil code.toNat)
  rw [encodeCommonResultPayload_eq, List.length_append, List.length_append]
  omega

/-- Whatever the code and the message are, the payload is read back as a result with this code and
this message; and what the loop appends for a value are ten bytes at most, which are read back as
the value whatever follows. -/
theorem encodeCommonResultPayload_correct :
    (∀ (code : UInt32) (msg : ByteVector),
      decodeCommonResult (encodeCommonResultPayload code msg) =
        some { ok := false, code := code, msg := msg.val }) ∧
      ∀ (out : Bytes) (value : UInt64), ∃ bs, appendVarint out value = out ++ bs ∧
        bs.length ≤ 10 ∧ ∀ rest, consumeVarint (bs ++ rest) = some (value.toNat, rest) := by
  constructor
  · intro code msg
    obtain ⟨fuel, hfuel⟩ :=
      Nat.exists_eq_add_of_le' (two_le_length_encodeCommonResultPayload code msg)
    rw [decodeCommonResult, hfuel]
    exact consumeFields_encodeCommonResultPayload fuel code msg
  · intro out value
    refine ⟨varint value.toNat, appendVarint_eq out value, ?_, ?_⟩
    · exact length_varint_le (value.toNat_lt.trans (by norm_num))
    · intro rest
      exact consumeVarint_varint rest value.toNat_lt

end Gmaker.Gateway
