import Gmaker.Net.Codec

/-!
# Gmaker.Realtime.ReplayRecorder — recorded inputs of a battle on disk

`ReplayRecorder` keeps the seed of a battle and the inputs and the state hash of every
frame; `serialize` writes them big-endian and length-prefixed, `deserializeReplay` reads
them back with a running offset. The decoder tests nothing: `data[off + i]` and
`data.begin() + off + isize` are taken as they come, so an access that leaves the vector is
a `Fault` of the model, at which the run ends. What it reads without one is exactly what
begins with a recording (`deserializeReplay_ok_iff`).
-/

namespace Gmaker.Realtime

open Gmaker.Lib
open Gmaker.Net (Bytes)

/-- `ReplayFrame`. -/
structure ReplayFrame where
  frameNo : UInt32
  inputBytes : Bytes
  expectedHash : UInt64
deriving DecidableEq

/-- `ReplayRecorder`. -/
structure ReplayRecorder where
  seed : UInt64
  frames : List ReplayFrame := []
deriving DecidableEq

namespace ReplayRecorder

/-- `record_frame`. -/
def recordFrame (r : ReplayRecorder) (frameNo : UInt32) (inputBytes : Bytes) (hash : UInt64) :
    ReplayRecorder :=
  { r with frames := r.frames ++ [⟨frameNo, inputBytes, hash⟩] }

/-! ## Writing -/

/-- `put_u64`. -/
def putU64 (out : Bytes) (v : UInt64) : Bytes := out ++ Net.Cpp.writeU64BE v

/-- `put_u32`. -/
def putU32 (out : Bytes) (v : UInt32) : Bytes := out ++ Net.Cpp.writeU32BE v

/-- One turn of the loop of `serialize`. -/
def putFrame (out : Bytes) (f : ReplayFrame) : Bytes :=
  let out := putU32 out f.frameNo
  let out := putU32 out (UInt32.ofNat f.inputBytes.length)
  let out := out ++ f.inputBytes
  putU64 out f.expectedHash

/-- `serialize`. -/
def serialize (r : ReplayRecorder) : Bytes :=
  let out := putU64 [] r.seed
  let out := putU32 out (UInt32.ofNat r.frames.length)
  r.frames.foldl putFrame out

/-! ## Reading -/

/-- An access that leaves the vector. -/
inductive Fault where
  /-- `data[i]` is read. -/
  | read (i : ℕ)
  /-- A range that ends at `data.begin() + stop` is formed. -/
  | range (stop : ℕ)
deriving DecidableEq

/-- The access is at or beyond the end of the vector, the end of a range strictly beyond. -/
def Fault.Outside (data : Bytes) : Fault → Prop
  | .read i => data.length ≤ i
  | .range stop => data.length < stop

/-- `data[i]`. -/
def byteAt (data : Bytes) (i : ℕ) : Except Fault UInt8 :=
  match data[i]? with
  | some b => .ok b
  | none => .error (.read i)

/-- The range from `data.begin() + off` to `data.begin() + off + n`. -/
def subRange (data : Bytes) (off n : ℕ) : Except Fault Bytes :=
  if off + n ≤ data.length then .ok ((data.drop off).take n) else .error (.range (off + n))

/-- The loop of `get_u64` and `get_u32` over its first `k` bytes. -/
def getBytes (w : ℕ) (data : Bytes) (off k : ℕ) : Except Fault (BitVec w) :=
  (List.range k).foldlM (fun v i => do
    let b ← byteAt data (off + i)
    return (v <<< 8 ||| b.toBitVec.setWidth w)) 0

/-- `get_u64`: the value and the offset behind it. -/
def getU64 (data : Bytes) (off : ℕ) : Except Fault (UInt64 × ℕ) := do
  let v ← getBytes 64 data off 8
  return (UInt64.ofBitVec v, off + 8)

/-- `get_u32`. -/
def getU32 (data : Bytes) (off : ℕ) : Except Fault (UInt32 × ℕ) := do
  let v ← getBytes 32 data off 4
  return (UInt32.ofBitVec v, off + 4)

/-- The loop of `deserialize_replay`, with `count` turns to go. -/
def readFrames (data : Bytes) : ℕ → ℕ → ReplayRecorder → Except Fault ReplayRecorder
  | 0, _, rec => .ok rec
  | count + 1, off, rec => do
    let (frameNo, off) ← getU32 data off
    let (isize, off) ← getU32 data off
    let input ← subRange data off isize.toNat
    let off := off + isize.toNat
    let (hash, off) ← getU64 data off
    readFrames data count off (rec.recordFrame frameNo input hash)

/-- `deserialize_replay`. -/
def deserializeReplay (data : Bytes) : Except Fault ReplayRecorder := do
  let (seed, off) ← getU64 data 0
  let (count, off) ← getU32 data off
  readFrames data count.toNat off { seed := seed }

/-! ## The fields -/

/-- What begins with `a ++ b` begins with `a`, and behind it with `b`. -/
theorem append_prefix_iff {τ : Type*} {a b l : List τ} :
    a ++ b <+: l ↔ a <+: l ∧ b <+: l.drop a.length := by
  constructor
  · rintro ⟨rest, rfl⟩
    constructor
    · rw [List.append_assoc]
      exact List.prefix_append _ _
    · rw [List.append_assoc, List.drop_left]
      exact List.prefix_append _ _
  · rintro ⟨⟨rest, rfl⟩, hb⟩
    rw [List.drop_left] at hb
    exact (List.prefix_append_right_inj a).mpr hb

/-- What begins with `bs` from an offset on, and the bytes there. -/
theorem prefix_drop_iff {τ : Type*} {bs l : List τ} {off : ℕ} :
    bs <+: l.drop off ↔ (l.drop off).take bs.length = bs := by
  rw [List.prefix_iff_eq_take]
  exact eq_comm

theorem length_of_prefix_drop {bs l : Bytes} {off : ℕ} (hpos : 0 < bs.length)
    (h : bs <+: l.drop off) : off + bs.length ≤ l.length := by
  have hlen := h.length_le
  rw [List.length_drop] at hlen
  omega

theorem bind_ok_iff {α β : Type} {x : Except Fault α} {f : α → Except Fault β} {b : β} :
    x >>= f = .ok b ↔ ∃ a, x = .ok a ∧ f a = .ok b := by
  cases x with
  | error e => simp [bind, Except.bind]
  | ok a => simp [bind, Except.bind]

theorem lt_of_byteAt {data : Bytes} {i : ℕ} {b : UInt8} (h : byteAt data i = .ok b) :
    i < data.length := by
  unfold byteAt at h
  split at h
  · rename_i hb
    exact (List.getElem?_eq_some_iff.mp hb).1
  · cases h

/-- `(v << 8) | b` puts one more byte behind a number that leaves room for it. -/
theorem shiftIn {w k n : ℕ} {b : UInt8} (hw : 8 * (k + 1) ≤ w) (hn : n < 2 ^ (8 * k)) :
    BitVec.ofNat w n <<< 8 ||| b.toBitVec.setWidth w = BitVec.ofNat w (n * 256 + b.toNat) := by
  have hb : b.toNat < 2 ^ 8 := b.toNat_lt
  have hroom : 2 ^ (8 * k + 8) ≤ 2 ^ w := Nat.pow_le_pow_right (by decide) (by omega)
  have hlow : (2 : ℕ) ^ 8 ≤ 2 ^ w := Nat.pow_le_pow_right (by decide) (by omega)
  have hfew : (2 : ℕ) ^ (8 * k) ≤ 2 ^ w := Nat.pow_le_pow_right (by decide) (by omega)
  have hshift : n <<< 8 < 2 ^ w := by
    rw [Nat.shiftLeft_eq]
    calc n * 2 ^ 8 < 2 ^ (8 * k) * 2 ^ 8 := Nat.mul_lt_mul_of_pos_right hn (by decide)
      _ = 2 ^ (8 * k + 8) := (pow_add 2 _ _).symm
      _ ≤ 2 ^ w := hroom
  apply BitVec.eq_of_toNat_eq
  rw [BitVec.toNat_or, BitVec.toNat_shiftLeft, BitVec.toNat_ofNat, BitVec.toNat_setWidth,
    BitVec.toNat_ofNat, Nat.mod_eq_of_lt (hn.trans_le hfew), Nat.mod_eq_of_lt hshift,
    UInt8.toNat_toBitVec, Nat.mod_eq_of_lt (hb.trans_le hlow), ← Nat.shiftLeft_add_eq_or_of_lt hb,
    Nat.shiftLeft_eq]
  refine (Nat.mod_eq_of_lt ?_).symm
  calc n * 256 + b.toNat < (n + 1) * 2 ^ 8 := by omega
    _ ≤ 2 ^ (8 * k) * 2 ^ 8 := Nat.mul_le_mul_right _ hn
    _ = 2 ^ (8 * k + 8) := (pow_add 2 _ _).symm
    _ ≤ 2 ^ w := hroom

/-- Within the vector the loop puts together the number of the bytes it has passed. -/
theorem getBytes_eq {w off : ℕ} {data : Bytes} (k : ℕ) (hw : 8 * k ≤ w)
    (hlen : off + k ≤ data.length) :
    getBytes w data off k = .ok (BitVec.ofNat w (ofBE ((data.drop off).take k))) := by
  induction k with
  | zero => simp [getBytes, ofBE, pure, Except.pure]
  | succ k ih =>
    have hk : off + k < data.length := by omega
    have hstep : getBytes w data off (k + 1) = (do
        let v ← getBytes w data off k
        let b ← byteAt data (off + k)
        return (v <<< 8 ||| b.toBitVec.setWidth w)) := by
      rw [getBytes, List.range_succ, List.foldlM_append]
      simp [getBytes]
    have htake : (data.drop off).take (k + 1) = (data.drop off).take k ++ [data[off + k]] := by
      rw [List.take_add_one, List.getElem?_drop, List.getElem?_eq_getElem hk, Option.toList_some]
    have hbyte : byteAt data (off + k) = .ok data[off + k] := by
      rw [byteAt, List.getElem?_eq_getElem hk]
    -- `k` bytes leave room for one more
    have hsmall : ofBE ((data.drop off).take k) < 2 ^ (8 * k) := by
      have hlt := ofBE_lt ((data.drop off).take k)
      rw [List.length_take_of_le (by rw [List.length_drop]; omega)] at hlt
      rwa [pow_mul]
    rw [hstep, ih (by omega) (by omega), hbyte, htake, ofBE_concat]
    exact congrArg Except.ok (shiftIn hw hsmall)

/-- A loop that got past its bytes found them in the vector. -/
theorem le_of_getBytes {w off k : ℕ} {data : Bytes} {v : BitVec w}
    (h : getBytes w data off (k + 1) = .ok v) : off + (k + 1) ≤ data.length := by
  rw [getBytes, List.range_succ, List.foldlM_append] at h
  rcases bind_ok_iff.mp h with ⟨u, -, hlast⟩
  rw [List.foldlM_cons] at hlast
  rcases bind_ok_iff.mp hlast with ⟨_, hbyte, -⟩
  rcases bind_ok_iff.mp hbyte with ⟨b, hb, -⟩
  have hlt := lt_of_byteAt hb
  omega

/-- The bytes of a number from an offset on. -/
theorem toBE_prefix_iff {data : Bytes} {off w n : ℕ} (hw : 0 < w) (hn : n < 256 ^ w) :
    toBE w n <+: data.drop off ↔
      off + w ≤ data.length ∧ n = ofBE ((data.drop off).take w) := by
  constructor
  · intro hpre
    constructor
    · simpa using length_of_prefix_drop (by simpa using hw) hpre
    · have htake := prefix_drop_iff.mp hpre
      rw [length_toBE] at htake
      rw [htake, ofBE_toBE_of_lt hn]
  · rintro ⟨hlen, rfl⟩
    have hbytes : ((data.drop off).take w).length = w :=
      List.length_take_of_le (by rw [List.length_drop]; omega)
    rw [prefix_drop_iff, length_toBE]
    refine ofBE_inj ?_ ?_
    · rw [hbytes, length_toBE]
    · rw [ofBE_toBE_of_lt hn]

/-- What the loop of a whole word reads. -/
theorem getBytes_ok_iff {w k off : ℕ} {data : Bytes} {v : BitVec w} (hw : 8 * (k + 1) = w) :
    getBytes w data off (k + 1) = .ok v ↔ toBE (k + 1) v.toNat <+: data.drop off := by
  have hpow : (256 : ℕ) ^ (k + 1) = 2 ^ w := by
    rw [← hw, pow_mul]
    rfl
  have hv : v.toNat < 256 ^ (k + 1) := hpow ▸ v.isLt
  rw [toBE_prefix_iff (Nat.succ_pos k) hv]
  constructor
  · intro h
    have hlen := le_of_getBytes h
    rw [getBytes_eq _ hw.le hlen] at h
    refine ⟨hlen, ?_⟩
    rw [← Except.ok.inj h, BitVec.toNat_ofNat, ← hpow]
    have hlt := ofBE_lt ((data.drop off).take (k + 1))
    rw [List.length_take_of_le (by rw [List.length_drop]; omega)] at hlt
    exact Nat.mod_eq_of_lt hlt
  · rintro ⟨hlen, hval⟩
    rw [getBytes_eq _ hw.le hlen, ← hval, BitVec.ofNat_toNat, BitVec.setWidth_eq]

theorem getU64_ok_iff {data : Bytes} {off off' : ℕ} {v : UInt64} :
    getU64 data off = .ok (v, off') ↔ Net.writeU64BE v <+: data.drop off ∧ off' = off + 8 := by
  constructor
  · intro h
    rcases bind_ok_iff.mp h with ⟨u, hu, heq⟩
    rcases Prod.mk.inj (Except.ok.inj heq) with ⟨rfl, rfl⟩
    exact ⟨(getBytes_ok_iff rfl).mp hu, rfl⟩
  · rintro ⟨hpre, rfl⟩
    exact bind_ok_iff.mpr ⟨v.toBitVec, (getBytes_ok_iff rfl).mpr hpre, rfl⟩

theorem getU32_ok_iff {data : Bytes} {off off' : ℕ} {v : UInt32} :
    getU32 data off = .ok (v, off') ↔ Net.writeU32BE v <+: data.drop off ∧ off' = off + 4 := by
  constructor
  · intro h
    rcases bind_ok_iff.mp h with ⟨u, hu, heq⟩
    rcases Prod.mk.inj (Except.ok.inj heq) with ⟨rfl, rfl⟩
    exact ⟨(getBytes_ok_iff rfl).mp hu, rfl⟩
  · rintro ⟨hpre, rfl⟩
    exact bind_ok_iff.mpr ⟨v.toBitVec, (getBytes_ok_iff rfl).mpr hpre, rfl⟩

theorem subRange_ok_iff {data bs : Bytes} {off n : ℕ} (hoff : off ≤ data.length) :
    subRange data off n = .ok bs ↔ bs <+: data.drop off ∧ bs.length = n := by
  unfold subRange
  constructor
  · intro h
    split at h
    · rcases Except.ok.inj h with rfl
      refine ⟨List.take_prefix _ _, List.length_take_of_le ?_⟩
      rw [List.length_drop]
      omega
    · cases h
  · rintro ⟨hpre, rfl⟩
    have hlen := hpre.length_le
    rw [List.length_drop] at hlen
    rw [if_pos (by omega), prefix_drop_iff.mp hpre]

/-! ## Frames -/

/-- The size of the input fits its field. -/
def ReplayFrame.Sized (f : ReplayFrame) : Prop := f.inputBytes.length < 2 ^ 32

/-- The counts fit their fields. -/
structure Sized (r : ReplayRecorder) : Prop where
  frames : r.frames.length < 2 ^ 32
  inputs : ∀ f ∈ r.frames, ReplayFrame.Sized f

/-- The bytes of a frame. -/
def frameBytes (f : ReplayFrame) : Bytes :=
  Net.writeU32BE f.frameNo ++ (Net.writeU32BE (UInt32.ofNat f.inputBytes.length) ++
    (f.inputBytes ++ Net.writeU64BE f.expectedHash))

@[simp] theorem length_frameBytes (f : ReplayFrame) :
    (frameBytes f).length = 4 + (4 + (f.inputBytes.length + 8)) := by
  simp [frameBytes]

theorem foldl_putFrame (fs : List ReplayFrame) (out : Bytes) :
    fs.foldl putFrame out = out ++ fs.flatMap frameBytes := by
  induction fs generalizing out with
  | nil => simp
  | cons f fs ih =>
    rw [List.foldl_cons, ih, List.flatMap_cons]
    simp [putFrame, putU32, putU64, frameBytes, Net.Cpp.writeU32BE_eq, Net.Cpp.writeU64BE_eq]

/-- The seed, the number of frames, the frames. -/
theorem serialize_eq (r : ReplayRecorder) :
    r.serialize = Net.writeU64BE r.seed ++ (Net.writeU32BE (UInt32.ofNat r.frames.length) ++
      r.frames.flatMap frameBytes) := by
  rw [serialize, foldl_putFrame]
  simp [putU32, putU64, Net.Cpp.writeU32BE_eq, Net.Cpp.writeU64BE_eq]

/-- One turn of the decoder's loop. -/
theorem readFrames_succ_ok_iff {data : Bytes} {count off : ℕ} {rec r : ReplayRecorder} :
    readFrames data (count + 1) off rec = .ok r ↔
      ∃ f : ReplayFrame, ReplayFrame.Sized f ∧ frameBytes f <+: data.drop off ∧
        readFrames data count (off + (frameBytes f).length)
          (rec.recordFrame f.frameNo f.inputBytes f.expectedHash) = .ok r := by
  constructor
  · intro h
    rcases bind_ok_iff.mp h with ⟨⟨frameNo, off₁⟩, h₁, h⟩
    rcases bind_ok_iff.mp h with ⟨⟨isize, off₂⟩, h₂, h⟩
    rcases bind_ok_iff.mp h with ⟨input, h₃, h⟩
    rcases bind_ok_iff.mp h with ⟨⟨hash, off₃⟩, h₄, h⟩
    rcases getU32_ok_iff.mp h₁ with ⟨hno, rfl⟩
    rcases getU32_ok_iff.mp h₂ with ⟨hsize, rfl⟩
    rcases getU64_ok_iff.mp h₄ with ⟨hhash, rfl⟩
    have hoff := length_of_prefix_drop (by simp) hsize
    rw [Net.length_writeU32BE] at hoff
    rcases (subRange_ok_iff hoff).mp h₃ with ⟨hinput, hlen⟩
    have hcount : UInt32.ofNat input.length = isize := by
      rw [hlen, UInt32.ofNat_toNat]
    refine ⟨⟨frameNo, input, hash⟩, ?_, ?_, ?_⟩
    · rw [ReplayFrame.Sized, hlen]
      exact isize.toNat_lt
    · -- each field begins where the one before it ends
      rw [← hlen] at hhash
      simp only [frameBytes, hcount, append_prefix_iff, List.drop_drop, Net.length_writeU32BE]
      exact ⟨hno, hsize, hinput, hhash⟩
    · rw [length_frameBytes, hlen]
      simpa only [Nat.add_assoc] using h
  · -- the fields stand where the four reads look for them
    rintro ⟨f, hf, hpre, h⟩
    simp only [frameBytes, append_prefix_iff, List.drop_drop, Net.length_writeU32BE] at hpre
    rcases hpre with ⟨hno, hsize, hinput, hhash⟩
    have hoff := length_of_prefix_drop (by simp) hsize
    rw [Net.length_writeU32BE] at hoff
    have hcount : (UInt32.ofNat f.inputBytes.length).toNat = f.inputBytes.length := by
      rw [UInt32.toNat_ofNat', Nat.mod_eq_of_lt hf]
    refine bind_ok_iff.mpr ⟨_, getU32_ok_iff.mpr ⟨hno, rfl⟩, ?_⟩
    refine bind_ok_iff.mpr ⟨_, getU32_ok_iff.mpr ⟨hsize, rfl⟩, ?_⟩
    refine bind_ok_iff.mpr ⟨_, (subRange_ok_iff hoff).mpr ⟨hinput, hcount.symm⟩, ?_⟩
    rw [hcount]
    refine bind_ok_iff.mpr ⟨_, getU64_ok_iff.mpr ⟨hhash, rfl⟩, ?_⟩
    rw [length_frameBytes] at h
    simpa only [Nat.add_assoc] using h

/-- The decoder's loop reads `count` frames that stand one after the other from the offset
on. -/
theorem readFrames_ok_iff {data : Bytes} {count off : ℕ} {rec r : ReplayRecorder} :
    readFrames data count off rec = .ok r ↔
      ∃ fs : List ReplayFrame, fs.length = count ∧ (∀ f ∈ fs, ReplayFrame.Sized f) ∧
        fs.flatMap frameBytes <+: data.drop off ∧ r = { rec with frames := rec.frames ++ fs } := by
  induction count generalizing off rec with
  | zero =>
    constructor
    · intro h
      exact ⟨[], rfl, by simp, by simp, by simpa using (Except.ok.inj h).symm⟩
    · rintro ⟨fs, hlen, -, -, rfl⟩
      rw [List.length_eq_zero_iff.mp hlen, List.append_nil]
      rfl
  | succ count ih =>
    rw [readFrames_succ_ok_iff]
    constructor
    · rintro ⟨f, hf, hpre, h⟩
      rcases ih.mp h with ⟨fs, hlen, hfs, hrest, rfl⟩
      refine ⟨f :: fs, by rw [List.length_cons, hlen], ?_, ?_, ?_⟩
      · exact List.forall_mem_cons.mpr ⟨hf, hfs⟩
      · rw [List.flatMap_cons, append_prefix_iff, List.drop_drop]
        exact ⟨hpre, hrest⟩
      · simp [recordFrame]
    · rintro ⟨fs, hlen, hfs, hpre, rfl⟩
      rcases List.exists_cons_of_length_eq_add_one hlen with ⟨f, gs, rfl⟩
      rw [List.flatMap_cons, append_prefix_iff, List.drop_drop] at hpre
      rcases List.forall_mem_cons.mp hfs with ⟨hf, hgs⟩
      refine ⟨f, hf, hpre.1, ih.mpr ⟨gs, Nat.succ.inj hlen, hgs, hpre.2, ?_⟩⟩
      simp [recordFrame]

/-- The decoder reads a recording exactly from what begins with its bytes. -/
theorem deserializeReplay_ok_iff {data : Bytes} {r : ReplayRecorder} :
    deserializeReplay data = .ok r ↔ r.Sized ∧ r.serialize <+: data := by
  rw [serialize_eq]
  constructor
  · intro h
    rcases bind_ok_iff.mp h with ⟨⟨seed, off₁⟩, h₁, h⟩
    rcases bind_ok_iff.mp h with ⟨⟨count, off₂⟩, h₂, h⟩
    rcases getU64_ok_iff.mp h₁ with ⟨hseed, rfl⟩
    rcases getU32_ok_iff.mp h₂ with ⟨hcount, rfl⟩
    rcases readFrames_ok_iff.mp h with ⟨fs, hlen, hfs, hpre, rfl⟩
    simp only [List.nil_append]
    refine ⟨⟨hlen ▸ count.toNat_lt, hfs⟩, ?_⟩
    rw [hlen, UInt32.ofNat_toNat]
    simp only [append_prefix_iff, List.drop_drop, Net.length_writeU32BE, Net.length_writeU64BE]
    exact ⟨hseed, hcount, hpre⟩
  · rintro ⟨hsized, hpre⟩
    simp only [append_prefix_iff, List.drop_drop, Net.length_writeU32BE,
      Net.length_writeU64BE] at hpre
    rcases hpre with ⟨hseed, hcount, hpre⟩
    have hlen : (UInt32.ofNat r.frames.length).toNat = r.frames.length := by
      rw [UInt32.toNat_ofNat', Nat.mod_eq_of_lt hsized.frames]
    refine bind_ok_iff.mpr ⟨_, getU64_ok_iff.mpr ⟨hseed, rfl⟩, ?_⟩
    refine bind_ok_iff.mpr ⟨_, getU32_ok_iff.mpr ⟨hcount, rfl⟩, ?_⟩
    simp only [hlen]
    exact readFrames_ok_iff.mpr ⟨r.frames, rfl, hsized.inputs, hpre, by simp⟩

/-! ## Out of bounds -/

/-- A run that ends in a fault ends in an access outside. -/
def FaultsOutside {α : Type} (data : Bytes) (x : Except Fault α) : Prop :=
  ∀ e, x = .error e → e.Outside data

theorem FaultsOutside.bind {α β : Type} {data : Bytes} {x : Except Fault α}
    {f : α → Except Fault β} (hx : FaultsOutside data x) (hf : ∀ a, FaultsOutside data (f a)) :
    FaultsOutside data (x >>= f) := by
  cases x with
  | error e' =>
    intro e h
    exact hx e (congrArg Except.error (Except.error.inj h))
  | ok a => exact hf a

theorem FaultsOutside.ok {α : Type} {data : Bytes} {a : α} :
    FaultsOutside data (Except.ok a : Except Fault α) := by
  intro e h
  cases h

theorem byteAt_faultsOutside (data : Bytes) (i : ℕ) : FaultsOutside data (byteAt data i) := by
  intro e h
  unfold byteAt at h
  split at h
  · cases h
  · rename_i hnone
    rcases Except.error.inj h with rfl
    exact List.getElem?_eq_none_iff.mp hnone

theorem subRange_faultsOutside (data : Bytes) (off n : ℕ) :
    FaultsOutside data (subRange data off n) := by
  intro e h
  unfold subRange at h
  split at h
  · cases h
  · rename_i hlen
    rcases Except.error.inj h with rfl
    exact not_le.mp hlen

theorem getBytes_faultsOutside (w : ℕ) (data : Bytes) (off k : ℕ) :
    FaultsOutside data (getBytes w data off k) := by
  unfold getBytes
  generalize (0 : BitVec w) = v
  induction List.range k generalizing v with
  | nil => exact .ok
  | cons i is ih =>
    rw [List.foldlM_cons]
    exact ((byteAt_faultsOutside data (off + i)).bind fun _ => .ok).bind fun v => ih v

theorem getU64_faultsOutside (data : Bytes) (off : ℕ) : FaultsOutside data (getU64 data off) :=
  (getBytes_faultsOutside 64 data off 8).bind fun _ => .ok

theorem getU32_faultsOutside (data : Bytes) (off : ℕ) : FaultsOutside data (getU32 data off) :=
  (getBytes_faultsOutside 32 data off 4).bind fun _ => .ok

theorem readFrames_faultsOutside (data : Bytes) (count off : ℕ) (rec : ReplayRecorder) :
    FaultsOutside data (readFrames data count off rec) := by
  induction count generalizing off rec with
  | zero => exact .ok
  | succ count ih =>
    refine (getU32_faultsOutside data off).bind fun no => ?_
    refine (getU32_faultsOutside data no.2).bind fun size => ?_
    refine (subRange_faultsOutside data size.2 size.1.toNat).bind fun input => ?_
    refine (getU64_faultsOutside data _).bind fun hash => ?_
    exact ih _ _

/-- Every fault of the decoder is an access outside the vector. -/
theorem deserializeReplay_faultsOutside (data : Bytes) :
    FaultsOutside data (deserializeReplay data) := by
  refine (getU64_faultsOutside data 0).bind fun seed => ?_
  refine (getU32_faultsOutside data seed.2).bind fun count => ?_
  exact readFrames_faultsOutside _ _ _ _

/-! ## Results -/

/-- What `serialize` writes is read back: the seed, and the frames in their order. -/
theorem deserializeReplay_serialize (seed : UInt64) (frames : List ReplayFrame)
    (hcount : frames.length < 2 ^ 32) (hinputs : ∀ f ∈ frames, f.inputBytes.length < 2 ^ 32) :
    deserializeReplay (ReplayRecorder.mk seed frames).serialize = .ok ⟨seed, frames⟩ :=
  deserializeReplay_ok_iff.mpr ⟨⟨hcount, hinputs⟩, List.prefix_rfl⟩

theorem deserializeReplay_serialize_one :
    deserializeReplay (ReplayRecorder.mk 42 [⟨7, [1, 2, 3], 99⟩]).serialize =
      .ok ⟨42, [⟨7, [1, 2, 3], 99⟩]⟩ :=
  deserializeReplay_serialize 42 [⟨7, [1, 2, 3], 99⟩] (by decide) (by decide)

/-- The data begins with a recording; what stands behind it is not looked at. -/
def WellFormed (data : Bytes) : Prop := ∃ r : ReplayRecorder, r.Sized ∧ r.serialize <+: data

/-- No access of the decoder lies outside the vector, and nothing malformed is read as a
recording. -/
structure DecodesSafely (data : Bytes) : Prop where
  inside : ∀ e, deserializeReplay data = .error e → ¬ e.Outside data
  rejects : ¬ WellFormed data → ∀ r, deserializeReplay data ≠ .ok r

/-- The decoder has no way to reject: what is not well formed makes it leave the vector. -/
theorem decodesSafely_iff (data : Bytes) : DecodesSafely data ↔ WellFormed data := by
  constructor
  · intro h
    cases hd : deserializeReplay data with
    | error e => exact (h.inside e hd (deserializeReplay_faultsOutside data e hd)).elim
    | ok r => exact ⟨r, deserializeReplay_ok_iff.mp hd⟩
  · intro h
    constructor
    · rcases h with ⟨r, hr⟩
      intro e he
      rw [deserializeReplay_ok_iff.mpr hr] at he
      cases he
    · intro hbad
      exact (hbad h).elim

/-- One frame whose input is said to have `2 ^ 32 - 1` bytes, in a file of twenty. -/
theorem not_decodesSafely_inflated : ¬ ∀ data, DecodesSafely data := by
  intro h
  have hfault : deserializeReplay
      [0, 0, 0, 0, 0, 0, 0, 42, 0, 0, 0, 1, 0, 0, 0, 0, 255, 255, 255, 255] =
      .error (.range (20 + 4294967295)) := by decide
  refine (h _).inside _ hfault ?_
  rw [Fault.Outside]
  decide

end ReplayRecorder

end Gmaker.Realtime
