import Gmaker.Lib.Base64
import Gmaker.Lib.Ring
import Gmaker.Lib.Sha1
import Gmaker.Net.Codec

/-!
# Gmaker.Net.WsAccept — the answer to a WebSocket key

`ComputeWSAccept` hashes the key of a client and a fixed string and writes the hash in
base 64. SHA-1 is written by hand: the five variables stay where they are and change their
parts from round to round, the message schedule is kept in sixteen words, and a message is
taken in piece by piece through a buffer of 64 bytes. The call table of `SHA1Transform` is
as the source has it; all of it is shown to compute what `Gmaker.Lib.Sha1` states
(`sha1Raw_eq`), whatever the buffer on the stack held before.
-/

namespace Gmaker.Net.WsAccept

open Gmaker.Lib

/-! ## Rounds -/

/-- `rol`. -/
def rol (value bits : UInt32) : UInt32 := (value <<< bits) ||| (value >>> (32 - bits))

/-- The variables `a`, `b0` to `b3`. -/
abbrev Regs := Fin 5 → UInt32

/-- `b[16]`. -/
abbrev Words := Fin 16 → UInt32

/-- `i & 15`. -/
def slot (i : ℕ) : Fin 16 := Fin.ofNat 16 i

/-- `blk`: the word, and the words with it. -/
def blk (b : Words) (i : ℕ) : UInt32 × Words :=
  let w := rol (b (slot (i + 13)) ^^^ b (slot (i + 8)) ^^^ b (slot (i + 2)) ^^^ b (slot i)) 1
  (w, Function.update b (slot i) w)

/-- What a macro adds up apart from the word: its function and its constant. -/
structure Macro where
  fromBlock : Bool
  fn : UInt32 → UInt32 → UInt32 → UInt32
  const : UInt32

/-- The use of a macro, with its arguments. -/
structure Call where
  body : Macro
  v : Fin 5
  w : Fin 5
  x : Fin 5
  y : Fin 5
  z : Fin 5
  i : ℕ

/-- The word that is added: `b[i]`, or `blk(b, i)`. -/
def Call.fetch (c : Call) (b : Words) : UInt32 × Words :=
  if c.body.fromBlock then (b (slot c.i), b) else blk b c.i

/-- The body of a macro. -/
def Call.run (c : Call) (s : Regs × Words) : Regs × Words :=
  let (word, b) := c.fetch s.2
  let r := s.1
  let r := Function.update r c.z
    (r c.z + (c.body.fn (r c.w) (r c.x) (r c.y) + word + c.body.const + rol (r c.v) 5))
  let r := Function.update r c.w (rol (r c.w) 30)
  (r, b)

/-- `R0`, its word straight from the block. -/
def r0 : Fin 5 → Fin 5 → Fin 5 → Fin 5 → Fin 5 → ℕ → Call :=
  .mk { fromBlock := true, fn := fun w x y => (w &&& (x ^^^ y)) ^^^ y, const := 0x5A827999 }

/-- `R1`. -/
def r1 : Fin 5 → Fin 5 → Fin 5 → Fin 5 → Fin 5 → ℕ → Call :=
  .mk { fromBlock := false, fn := fun w x y => (w &&& (x ^^^ y)) ^^^ y, const := 0x5A827999 }

/-- `R2`. -/
def r2 : Fin 5 → Fin 5 → Fin 5 → Fin 5 → Fin 5 → ℕ → Call :=
  .mk { fromBlock := false, fn := fun w x y => w ^^^ x ^^^ y, const := 0x6ED9EBA1 }

/-- `R3`. -/
def r3 : Fin 5 → Fin 5 → Fin 5 → Fin 5 → Fin 5 → ℕ → Call :=
  .mk { fromBlock := false, fn := fun w x y => ((w ||| x) &&& y) ||| (w &&& x), const := 0x8F1BBCDC }

/-- `R4`. -/
def r4 : Fin 5 → Fin 5 → Fin 5 → Fin 5 → Fin 5 → ℕ → Call :=
  .mk { fromBlock := false, fn := fun w x y => w ^^^ x ^^^ y, const := 0xCA62C1D6 }

section Table

def a : Fin 5 := 0
def b0 : Fin 5 := 1
def b1 : Fin 5 := 2
def b2 : Fin 5 := 3
def b3 : Fin 5 := 4

/-- The calls of `SHA1Transform`. -/
def calls : List Call :=
  [ r0 a b0 b1 b2 b3 0, r0 b3 a b0 b1 b2 1, r0 b2 b3 a b0 b1 2, r0 b1 b2 b3 a b0 3,
    r0 b0 b1 b2 b3 a 4, r0 a b0 b1 b2 b3 5, r0 b3 a b0 b1 b2 6, r0 b2 b3 a b0 b1 7,
    r0 b1 b2 b3 a b0 8, r0 b0 b1 b2 b3 a 9, r0 a b0 b1 b2 b3 10, r0 b3 a b0 b1 b2 11,
    r0 b2 b3 a b0 b1 12, r0 b1 b2 b3 a b0 13, r0 b0 b1 b2 b3 a 14, r0 a b0 b1 b2 b3 15,
    r1 b3 a b0 b1 b2 16, r1 b2 b3 a b0 b1 17, r1 b1 b2 b3 a b0 18, r1 b0 b1 b2 b3 a 19,
    r2 a b0 b1 b2 b3 20, r2 b3 a b0 b1 b2 21, r2 b2 b3 a b0 b1 22, r2 b1 b2 b3 a b0 23,
    r2 b0 b1 b2 b3 a 24, r2 a b0 b1 b2 b3 25, r2 b3 a b0 b1 b2 26, r2 b2 b3 a b0 b1 27,
    r2 b1 b2 b3 a b0 28, r2 b0 b1 b2 b3 a 29, r2 a b0 b1 b2 b3 30, r2 b3 a b0 b1 b2 31,
    r2 b2 b3 a b0 b1 32, r2 b1 b2 b3 a b0 33, r2 b0 b1 b2 b3 a 34, r2 a b0 b1 b2 b3 35,
    r2 b3 a b0 b1 b2 36, r2 b2 b3 a b0 b1 37, r2 b1 b2 b3 a b0 38, r2 b0 b1 b2 b3 a 39,
    r3 a b0 b1 b2 b3 40, r3 b3 a b0 b1 b2 41, r3 b2 b3 a b0 b1 42, r3 b1 b2 b3 a b0 43,
    r3 b0 b1 b2 b3 a 44, r3 a b0 b1 b2 b3 45, r3 b3 a b0 b1 b2 46, r3 b2 b3 a b0 b1 47,
    r3 b1 b2 b3 a b0 48, r3 b0 b1 b2 b3 a 49, r3 a b0 b1 b2 b3 50, r3 b3 a b0 b1 b2 51,
    r3 b2 b3 a b0 b1 52, r3 b1 b2 b3 a b0 53, r3 b0 b1 b2 b3 a 54, r3 a b0 b1 b2 b3 55,
    r3 b3 a b0 b1 b2 56, r3 b2 b3 a b0 b1 57, r3 b1 b2 b3 a b0 58, r3 b0 b1 b2 b3 a 59,
    r4 a b0 b1 b2 b3 60, r4 b3 a b0 b1 b2 61, r4 b2 b3 a b0 b1 62, r4 b1 b2 b3 a b0 63,
    r4 b0 b1 b2 b3 a 64, r4 a b0 b1 b2 b3 65, r4 b3 a b0 b1 b2 66, r4 b2 b3 a b0 b1 67,
    r4 b1 b2 b3 a b0 68, r4 b0 b1 b2 b3 a 69, r4 a b0 b1 b2 b3 70, r4 b3 a b0 b1 b2 71,
    r4 b2 b3 a b0 b1 72, r4 b1 b2 b3 a b0 73, r4 b0 b1 b2 b3 a 74, r4 a b0 b1 b2 b3 75,
    r4 b3 a b0 b1 b2 76, r4 b2 b3 a b0 b1 77, r4 b1 b2 b3 a b0 78, r4 b0 b1 b2 b3 a 79]

end Table

/-- `SHA1Transform`. -/
def sha1Transform (state : Regs) (buffer : Bytes) : Regs :=
  let b : Words := fun i => Cpp.readU32BE buffer (4 * i)
  let r := (calls.foldl (fun s c => c.run s) (state, b)).1
  fun j => state j + r j

/-! ## Messages -/

/-- `SHA1Ctx`. -/
structure SHA1Ctx where
  state : Regs
  count : UInt64
  buffer : Bytes

/-- `SHA1Init`: the buffer is left as it is. -/
def sha1Init (buffer : Bytes) : SHA1Ctx where
  state := ![0x67452301, 0xEFCDAB89, 0x98BADCFE, 0x10325476, 0xC3D2E1F0]
  count := 0
  buffer

/-- `(count >> 3) & 63`. -/
def inBuffer (count : UInt64) : ℕ := ((count >>> 3) &&& 63).toNat

/-- The loop of `SHA1Update`, from `data[i]` on: the state, and the `i` it ends with. -/
def updateLoop (data : Bytes) (state : Regs) (i : ℕ) : Regs × ℕ :=
  if i + 63 < data.length then
    updateLoop data (sha1Transform state ((data.drop i).take 64)) (i + 64)
  else (state, i)
termination_by data.length - i
decreasing_by omega

/-- `SHA1Update`. -/
def sha1Update (ctx : SHA1Ctx) (data : Bytes) : SHA1Ctx :=
  let len := data.length
  let j := inBuffer ctx.count
  let count := ctx.count + UInt64.ofNat len <<< 3
  if 63 < j + len then
    let buffer := writeAt ctx.buffer j (data.take (64 - j))
    let r := updateLoop data (sha1Transform ctx.state buffer) (64 - j)
    { state := r.1, count, buffer := writeAt buffer 0 (data.drop r.2) }
  else { state := ctx.state, count, buffer := writeAt ctx.buffer j data }

/-- `SHA1Final`. -/
def sha1Final (ctx : SHA1Ctx) : Bytes :=
  let finalcount := ctx.count
  let i := inBuffer finalcount
  let buffer := writeAt ctx.buffer i [0x80]
  let i := i + 1
  let (state, buffer, i) :=
    if 56 < i then
      let buffer := writeAt buffer i (List.replicate (64 - i) 0)
      (sha1Transform ctx.state buffer, buffer, 0)
    else (ctx.state, buffer, i)
  let buffer := writeAt buffer i (List.replicate (56 - i) 0)
  let buffer := writeAt buffer 56 ((List.range 8).map fun b =>
    ((finalcount >>> UInt64.ofNat ((7 - b) * 8)) &&& 0xFF).toUInt8)
  let state := sha1Transform state buffer
  (List.range 20).map fun i =>
    ((state (Fin.ofNat 5 (i >>> 2)) >>> UInt32.ofNat ((3 - (i &&& 3)) * 8)) &&& 0xFF).toUInt8

/-- `SHA1Raw`; `stack` is what the buffer holds before it is written. -/
def sha1Raw (stack : List.Vector UInt8 64) (data : Bytes) : Bytes :=
  sha1Final (sha1Update (sha1Init stack.toList) data)

/-! ## Base 64 -/

/-- The bytes of a string literal. -/
def ascii (s : String) : Bytes := s.toList.map fun c => UInt8.ofNat c.toNat

/-- `BASE64_CHARS`. -/
def base64Chars : Bytes :=
  ascii "ABCDEFGHIJKLMNOPQRSTUVWXYZabcdefghijklmnopqrstuvwxyz0123456789+/"

/-- `BASE64_CHARS[n & 0x3F]`. -/
def base64Char (n : UInt32) : UInt8 := base64Chars.getD (n &&& 0x3F).toNat 0

/-- The loop of `Base64Encode`, from `data[i]` on. -/
def base64Loop (data : Bytes) (i : ℕ) : Bytes :=
  if i < data.length then
    let v := (Cpp.byteAt data i).toUInt32 <<< 16
    let v := if i + 1 < data.length then v ||| (Cpp.byteAt data (i + 1)).toUInt32 <<< 8 else v
    let v := if i + 2 < data.length then v ||| (Cpp.byteAt data (i + 2)).toUInt32 else v
    base64Char (v >>> 18) :: base64Char (v >>> 12) ::
      (if i + 1 < data.length then base64Char (v >>> 6) else 61) ::
      (if i + 2 < data.length then base64Char v else 61) :: base64Loop data (i + 3)
  else []
termination_by data.length - i
decreasing_by omega

/-- `Base64Encode`. -/
def base64Encode (data : Bytes) : Bytes := base64Loop data 0

/-- `kMagic`. -/
def kMagic : Bytes := ascii "258EAFA5-E914-47DA-95CA-C5AB0DC85B11"

/-- `ComputeWSAccept`. -/
def computeWSAccept (stack : List.Vector UInt8 64) (wsKey : Bytes) : Bytes :=
  base64Encode (sha1Raw stack (wsKey ++ kMagic))

/-! ## The calls, round by round -/

/-- The variable that is `v` in round `t`. -/
def front (t : ℕ) : Fin 5 := Fin.ofNat 5 (4 * t)

/-- The call of round `t`. -/
def callOf (t : ℕ) : Call :=
  let body := if t < 16 then r0 else if t < 20 then r1 else if t < 40 then r2
    else if t < 60 then r3 else r4
  body (front t) (front t + 1) (front t + 2) (front t + 3) (front t + 4) t

theorem calls_eq : calls = (List.range 80).map callOf := rfl

theorem front_succ (t : ℕ) : front (t + 1) = front t + 4 := by
  apply Fin.ext
  simp only [front, Fin.ofNat, Fin.val_add]
  omega

theorem ch_eq (x y z : UInt32) : (x &&& (y ^^^ z)) ^^^ z = Sha1.ch x y z := by
  unfold Sha1.ch
  apply UInt32.toBitVec_inj.mp
  simp only [UInt32.toBitVec_xor, UInt32.toBitVec_and, UInt32.toBitVec_not]
  ext i hi
  simp only [BitVec.getElem_xor, BitVec.getElem_and, BitVec.getElem_not]
  cases x.toBitVec[i] <;> cases y.toBitVec[i] <;> cases z.toBitVec[i] <;> rfl

theorem maj_eq (x y z : UInt32) : ((x ||| y) &&& z) ||| (x &&& y) = Sha1.maj x y z := by
  unfold Sha1.maj
  apply UInt32.toBitVec_inj.mp
  simp only [UInt32.toBitVec_xor, UInt32.toBitVec_and, UInt32.toBitVec_or]
  ext i hi
  simp only [BitVec.getElem_xor, BitVec.getElem_and, BitVec.getElem_or]
  cases x.toBitVec[i] <;> cases y.toBitVec[i] <;> cases z.toBitVec[i] <;> rfl

/-- The call of a round uses the function and the constant of the round. -/
theorem body_callOf (t : ℕ) :
    (callOf t).body.fn = Sha1.f t ∧ (callOf t).body.const = Sha1.k t ∧
      (callOf t).body.fromBlock = decide (t < 16) := by
  have hch : (fun w x y : UInt32 => (w &&& (x ^^^ y)) ^^^ y) = Sha1.ch := by
    funext w x y
    exact ch_eq w x y
  have hmaj : (fun w x y : UInt32 => ((w ||| x) &&& y) ||| (w &&& x)) = Sha1.maj := by
    funext w x y
    exact maj_eq w x y
  unfold callOf Sha1.f Sha1.k
  -- `R0` and `R1` differ only in where they take the word from
  by_cases h16 : t < 16
  · have h20 : t < 20 := by omega
    simp only [if_pos h16, if_pos h20, r0, hch, decide_eq_true h16, and_self]
  by_cases h20 : t < 20
  · simp only [if_neg h16, if_pos h20, r1, hch, decide_eq_false h16, and_self]
  by_cases h40 : t < 40
  · simp only [if_neg h16, if_neg h20, if_pos h40, r2, decide_eq_false h16, and_self, and_true]
    rfl
  by_cases h60 : t < 60
  · simp only [if_neg h16, if_neg h20, if_neg h40, if_pos h60, r3, hmaj, decide_eq_false h16,
      and_self]
  · simp only [if_neg h16, if_neg h20, if_neg h40, if_neg h60, r4, decide_eq_false h16, and_self,
      and_true]
    rfl

theorem args_callOf (t : ℕ) :
    (callOf t).v = front t ∧ (callOf t).w = front t + 1 ∧ (callOf t).x = front t + 2 ∧
      (callOf t).y = front t + 3 ∧ (callOf t).z = front t + 4 ∧ (callOf t).i = t := by
  unfold callOf
  simp only
  split_ifs <;> exact ⟨rfl, rfl, rfl, rfl, rfl, rfl⟩

/-! ### The variables -/

/-- From `v` on, the variables hold the five values. -/
structure Turned (r : Regs) (v : Fin 5) (q : Sha1.Vars) : Prop where
  a : r v = q.a
  b : r (v + 1) = q.b
  c : r (v + 2) = q.c
  d : r (v + 3) = q.d
  e : r (v + 4) = q.e

/-- The places of the five values, one round later. -/
theorem places_succ (v : Fin 5) :
    v + 4 + 1 = v ∧ v + 4 + 2 = v + 1 ∧ v + 4 + 3 = v + 2 ∧ v + 4 + 4 = v + 3 := by
  revert v
  decide

theorem places_ne (v : Fin 5) :
    v ≠ v + 4 ∧ v + 1 ≠ v + 4 ∧ v + 2 ≠ v + 4 ∧ v + 3 ≠ v + 4 ∧ v ≠ v + 1 ∧ v + 2 ≠ v + 1 ∧
      v + 3 ≠ v + 1 := by
  revert v
  decide

/-- A call makes the values those of the next round, from the next variable on. -/
theorem Turned.run {r : Regs} {b b' : Words} {q : Sha1.Vars} {t : ℕ} {w : UInt32}
    (h : Turned r (front t) q) (hfetch : (callOf t).fetch b = (w, b')) :
    Turned ((callOf t).run (r, b)).1 (front (t + 1)) (Sha1.step t w q) := by
  obtain ⟨hfn, hconst, -⟩ := body_callOf t
  obtain ⟨hv, hw, hx, hy, hz, -⟩ := args_callOf t
  rw [front_succ]
  simp only [Call.run, hfetch, hfn, hconst, hv, hw, hx, hy, hz]
  generalize front t = v at h
  obtain ⟨h1, h2, h3, h4⟩ := places_succ v
  obtain ⟨n04, n14, n24, n34, n01, n21, n31⟩ := places_ne v
  constructor
  · -- the sum takes the place of the value that is no longer needed
    rw [Function.update_of_ne (Ne.symm n14), Function.update_self, h.a, h.b, h.c, h.d, h.e]
    simp only [Sha1.step]
    have hrol : rol q.a 5 = Sha1.rotl 5 q.a := rfl
    rw [hrol]
    ac_rfl
  · rw [h1, Function.update_of_ne n01, Function.update_of_ne n04, h.a]
    rfl
  · rw [h2, Function.update_self, Function.update_of_ne n14, h.b]
    rfl
  · rw [h3, Function.update_of_ne n21, Function.update_of_ne n24, h.c]
    rfl
  · rw [h4, Function.update_of_ne n31, Function.update_of_ne n34, h.d]
    rfl

/-! ### The words -/

/-- The sixteen words are the last ones of the schedule before round `t`, or the first
ones of all. -/
def Window (b : Words) (m : ℕ → UInt32) (t : ℕ) : Prop :=
  ∀ j, j < max t 16 → max t 16 ≤ j + 16 → b (slot j) = Sha1.schedule m j

theorem slot_eq_iff {i j : ℕ} : slot i = slot j ↔ i % 16 = j % 16 := by
  rw [slot, slot, Fin.ext_iff]
  rfl

theorem schedule_of_le {m : ℕ → UInt32} {t : ℕ} (h : 16 ≤ t) :
    Sha1.schedule m t = Sha1.rotl 1 (Sha1.schedule m (t - 3) ^^^ Sha1.schedule m (t - 8) ^^^
      Sha1.schedule m (t - 14) ^^^ Sha1.schedule m (t - 16)) := by
  conv_lhs => rw [Sha1.schedule, if_neg (not_lt.mpr h)]

/-- The word of a round is fetched, and the sixteen words go on. -/
theorem Window.fetch {b : Words} {m : ℕ → UInt32} {t : ℕ} (h : Window b m t) :
    ∃ b', (callOf t).fetch b = (Sha1.schedule m t, b') ∧ Window b' m (t + 1) := by
  obtain ⟨-, -, hblock⟩ := body_callOf t
  obtain ⟨-, -, -, -, -, hi⟩ := args_callOf t
  unfold Call.fetch
  rw [hblock, hi]
  by_cases h16 : t < 16
  · refine ⟨b, ?_, ?_⟩
    · rw [if_pos (decide_eq_true h16), h t (by omega) (by omega)]
    · intro j hj hj'
      exact h j (by omega) (by omega)
  · -- the slots of the source count upwards, the schedule looks back
    have hlast : ∀ d, 0 < d → d ≤ 16 → b (slot (t + 16 - d)) = Sha1.schedule m (t - d) := by
      intro d hd hd'
      have hslot : slot (t + 16 - d) = slot (t - d) := by
        rw [slot_eq_iff]
        omega
      rw [hslot]
      exact h (t - d) (by omega) (by omega)
    have hword : rol (b (slot (t + 13)) ^^^ b (slot (t + 8)) ^^^ b (slot (t + 2)) ^^^ b (slot t)) 1 =
        Sha1.schedule m t := by
      have h3 := hlast 3 (by decide) (by decide)
      have h8 := hlast 8 (by decide) (by decide)
      have h14 := hlast 14 (by decide) (by decide)
      have hfirst := hlast 16 (by decide) (by decide)
      rw [Nat.add_sub_cancel] at hfirst
      rw [schedule_of_le (not_lt.mp h16), ← h3, ← h8, ← h14, ← hfirst]
      rfl
    refine ⟨Function.update b (slot t) (Sha1.schedule m t), ?_, ?_⟩
    · rw [if_neg (by simpa using h16), blk, hword]
    · intro j hj hj'
      -- the new word takes the slot of the one that drops out of the window
      by_cases hjt : j = t
      · rw [hjt, Function.update_self]
      · have hne : slot j ≠ slot t := by
          rw [Ne, slot_eq_iff]
          omega
        rw [Function.update_of_ne hne]
        exact h j (by omega) (by omega)

/-! ### A block -/

/-- The state as the five words of a hash value. -/
def varsOf (r : Regs) : Sha1.Vars := ⟨r 0, r 1, r 2, r 3, r 4⟩

/-- After so many calls the variables and the words are those of the rounds. -/
theorem run_calls {r : Regs} {b : Words} {m : ℕ → UInt32} (hb : Window b m 0) (n : ℕ) :
    let s := (List.range n).foldl (fun s t => (callOf t).run s) (r, b)
    Turned s.1 (front n) (Sha1.rounds m (varsOf r) n) ∧ Window s.2 m n := by
  induction n with
  | zero => exact ⟨⟨rfl, rfl, rfl, rfl, rfl⟩, hb⟩
  | succ n ih =>
    simp only [List.range_succ, List.foldl_append, List.foldl_cons, List.foldl_nil]
    generalize (List.range n).foldl (fun s t => (callOf t).run s) (r, b) = s at ih ⊢
    rcases ih with ⟨hturned, hwindow⟩
    rcases hwindow.fetch with ⟨b', hfetch, hnext⟩
    constructor
    · exact hturned.run hfetch
    · have hwords : ((callOf n).run s).2 = b' := by
        simp only [Call.run, hfetch]
      rw [hwords]
      exact hnext

/-- `SHA1Transform` computes the next hash value. -/
theorem varsOf_sha1Transform (state : Regs) {block : Bytes} (hlen : block.length = 64) :
    varsOf (sha1Transform state block) = Sha1.compress (varsOf state) block := by
  have hb : Window (fun i => Cpp.readU32BE block (4 * i)) (Sha1.word block) 0 := by
    intro j hj _
    have hslot : (slot j : ℕ) = j := Nat.mod_eq_of_lt (by omega)
    simp only [hslot]
    rw [Cpp.readU32BE_eq (by omega), Sha1.schedule, if_pos (by omega)]
    rfl
  have hrun := (run_calls (r := state) hb 80).1
  rw [← List.foldl_map (f := callOf) (g := fun s c => Call.run c s), ← calls_eq] at hrun
  generalize hr : (calls.foldl (fun s c => Call.run c s)
    (state, fun i => Cpp.readU32BE block (4 * i))).1 = r at hrun
  have hsum : sha1Transform state block = fun j => state j + r j := by
    rw [← hr]
    rfl
  rw [hsum]
  generalize hq : Sha1.rounds (Sha1.word block) (varsOf state) 80 = q at hrun
  have hcompress : Sha1.compress (varsOf state) block =
      ⟨q.a + state 0, q.b + state 1, q.c + state 2, q.d + state 3, q.e + state 4⟩ := by
    rw [← hq]
    rfl
  rw [hcompress, ← hrun.a, ← hrun.b, ← hrun.c, ← hrun.d, ← hrun.e]
  simp only [varsOf, UInt32.add_comm (state _)]
  rfl

/-! ## A buffer that is filled from the front -/

/-- The buffer begins with the bytes. -/
structure Filled (buffer xs : Bytes) : Prop where
  size : buffer.length = 64
  front : xs <+: buffer

theorem Filled.writeAt {buffer xs : Bytes} (h : Filled buffer xs) (ys : Bytes) {i : ℕ}
    (hi : xs.length = i) (hlen : i + ys.length ≤ 64) :
    Filled (writeAt buffer i ys) (xs ++ ys) := by
  constructor
  · rw [length_writeAt (by rw [h.size]; exact hlen), h.size]
  · rcases h.front with ⟨rest, hrest⟩
    rw [Gmaker.Lib.writeAt, ← hrest, ← hi, List.take_left, ← List.append_assoc]
    exact List.prefix_append _ _

theorem Filled.eq {buffer xs : Bytes} (h : Filled buffer xs) (hlen : xs.length = 64) :
    buffer = xs :=
  (h.front.eq_of_length (hlen.trans h.size.symm)).symm

theorem Filled.nil {buffer xs : Bytes} (h : Filled buffer xs) : Filled buffer [] :=
  ⟨h.size, List.nil_prefix⟩

/-! ## A message, piece by piece -/

/-- What is behind the whole blocks of a message. -/
def partialBlock (msg : Bytes) : Bytes := msg.drop (msg.length - msg.length % 64)

theorem length_partialBlock (msg : Bytes) : (partialBlock msg).length = msg.length % 64 := by
  rw [partialBlock, List.length_drop]
  omega

/-- What comes behind a message is taken in behind its whole blocks. -/
theorem absorb_append_behind (h : Sha1.Vars) (msg bs : Bytes) :
    Sha1.absorb h (msg ++ bs) = Sha1.absorb (Sha1.absorb h msg) (partialBlock msg ++ bs) := by
  let whole := msg.take (msg.length - msg.length % 64)
  have hsplit : msg = whole ++ partialBlock msg := (List.take_append_drop _ msg).symm
  have hwhole : 64 ∣ whole.length := by
    rw [List.length_take]
    omega
  have hshort : (partialBlock msg).length < 64 := by
    rw [length_partialBlock]
    omega
  have hmsg : Sha1.absorb h msg = Sha1.absorb h whole := by
    conv_lhs => rw [hsplit, Sha1.absorb_append h hwhole, Sha1.absorb_of_lt hshort]
  conv_lhs => rw [hsplit, List.append_assoc, Sha1.absorb_append h hwhole]
  rw [hmsg]

/-- The context has taken in a message: its whole blocks, its length, and the rest of it. -/
structure Absorbed (ctx : SHA1Ctx) (msg : Bytes) : Prop where
  state : varsOf ctx.state = Sha1.absorb Sha1.initial msg
  count : ctx.count = UInt64.ofNat (8 * msg.length)
  rest : Filled ctx.buffer (partialBlock msg)

theorem absorbed_init (stack : List.Vector UInt8 64) : Absorbed (sha1Init stack.toList) [] := by
  constructor
  · rw [Sha1.absorb_of_lt (by decide)]
    rfl
  · rfl
  · exact ⟨stack.toList_length, List.nil_prefix⟩

theorem inBuffer_eq (n : ℕ) : inBuffer (UInt64.ofNat (8 * n)) = n % 64 := by
  have hshift : (3 : UInt64).toNat % 64 = 3 := rfl
  have hmask : (63 : UInt64).toNat = 2 ^ 6 - 1 := rfl
  rw [inBuffer, UInt64.toNat_and, UInt64.toNat_shiftRight, hshift, hmask,
    Nat.and_two_pow_sub_one_eq_mod, Nat.shiftRight_eq_div_pow, UInt64.toNat_ofNat']
  omega

theorem count_add (n len : ℕ) :
    UInt64.ofNat (8 * n) + UInt64.ofNat len <<< 3 = UInt64.ofNat (8 * (n + len)) := by
  have hshift : (3 : UInt64).toNat % 64 = 3 := rfl
  apply UInt64.toNat_inj.mp
  rw [UInt64.toNat_add, UInt64.toNat_shiftLeft, hshift, Nat.shiftLeft_eq, UInt64.toNat_ofNat',
    UInt64.toNat_ofNat', UInt64.toNat_ofNat']
  omega

/-- The loop takes in the blocks that are whole, and ends behind them. -/
theorem updateLoop_spec (data : Bytes) (state : Regs) {i : ℕ} (hi : i ≤ data.length) :
    varsOf (updateLoop data state i).1 = Sha1.absorb (varsOf state) (data.drop i) ∧
      (updateLoop data state i).2 = data.length - (data.length - i) % 64 := by
  induction state, i using updateLoop.induct data with
  | case1 state i hmore ih =>
    have htake : ((data.drop i).take 64).length = 64 :=
      List.length_take_of_le (by rw [List.length_drop]; omega)
    obtain ⟨hstate, hend⟩ := ih (by omega)
    rw [updateLoop, if_pos hmore]
    constructor
    · rw [hstate, varsOf_sha1Transform state htake, ← Sha1.absorb_block htake, ← List.drop_drop,
        List.take_append_drop]
    · rw [hend]
      omega
  | case2 state i hdone =>
    rw [updateLoop, if_neg hdone]
    constructor
    · rw [Sha1.absorb_of_lt (by rw [List.length_drop]; omega)]
    · simp only
      omega

/-- Data that does not fill up the block waits behind what is there. -/
theorem partialBlock_append_of_lt {msg data : Bytes}
    (h : (partialBlock msg).length + data.length < 64) :
    partialBlock (msg ++ data) = partialBlock msg ++ data := by
  have hlen := length_partialBlock msg
  have hkept : (msg ++ data).length - (msg ++ data).length % 64 =
      msg.length - msg.length % 64 := by
    rw [List.length_append]
    omega
  rw [partialBlock, hkept, List.drop_append_of_le_length (Nat.sub_le _ _), partialBlock]

/-- Otherwise only the end of the data waits. -/
theorem partialBlock_append_of_full {msg data : Bytes}
    (h : 64 ≤ (partialBlock msg).length + data.length) :
    partialBlock (msg ++ data) =
      data.drop (data.length - (data.length - (64 - (partialBlock msg).length)) % 64) := by
  have hlen := length_partialBlock msg
  rw [partialBlock, List.length_append, List.drop_append, List.drop_eq_nil_of_le (by omega),
    List.nil_append]
  congr 1
  omega

/-- `SHA1Update` takes in what it is given. -/
theorem Absorbed.update {ctx : SHA1Ctx} {msg : Bytes} (h : Absorbed ctx msg) (data : Bytes) :
    Absorbed (sha1Update ctx data) (msg ++ data) := by
  have hj : inBuffer ctx.count = (partialBlock msg).length := by
    rw [h.count, inBuffer_eq, length_partialBlock]
  have hlen := length_partialBlock msg
  have hcount : ctx.count + UInt64.ofNat data.length <<< 3 =
      UInt64.ofNat (8 * (msg ++ data).length) := by
    rw [h.count, count_add, List.length_append]
  unfold sha1Update
  simp only [hj]
  by_cases hfull : 63 < (partialBlock msg).length + data.length
  · -- the block in the buffer is completed first
    rw [if_pos hfull]
    have hfirst : (data.take (64 - (partialBlock msg).length)).length =
        64 - (partialBlock msg).length := List.length_take_of_le (by omega)
    have hblock : (partialBlock msg ++ data.take (64 - (partialBlock msg).length)).length = 64 := by
      rw [List.length_append, hfirst]
      omega
    have hfilled := h.rest.writeAt (data.take (64 - (partialBlock msg).length)) rfl (by omega)
    have hbuffer := hfilled.eq hblock
    obtain ⟨hstate, hend⟩ := updateLoop_spec data
      (sha1Transform ctx.state (writeAt ctx.buffer (partialBlock msg).length
        (data.take (64 - (partialBlock msg).length)))) (i := 64 - (partialBlock msg).length) (by omega)
    constructor
    · simp only [hstate]
      rw [hbuffer, varsOf_sha1Transform _ hblock, ← Sha1.absorb_block hblock, List.append_assoc,
        List.take_append_drop, h.state]
      exact (absorb_append_behind _ _ _).symm
    · exact hcount
    · simp only [hend]
      have hrest := partialBlock_append_of_full (Nat.succ_le_of_lt hfull)
      rw [hrest]
      refine hfilled.nil.writeAt _ rfl ?_
      rw [← hrest, length_partialBlock]
      omega
  · -- the data waits in the buffer
    rw [if_neg hfull]
    have hrest := partialBlock_append_of_lt (Nat.lt_succ_of_le (not_lt.mp hfull))
    constructor
    · simp only
      have hshort : (partialBlock msg ++ data).length < 64 := by
        rw [List.length_append]
        omega
      rw [absorb_append_behind, Sha1.absorb_of_lt hshort, h.state]
    · exact hcount
    · rw [hrest]
      exact h.rest.writeAt data rfl (by omega)

/-! ### The last blocks -/

theorem toBE_mod (w n : ℕ) : toBE w (n % 256 ^ w) = toBE w n := by
  apply ofBE_inj
  · rw [length_toBE, length_toBE]
  · rw [ofBE_toBE, ofBE_toBE, Nat.mod_mod]

theorem toUInt8_and_mask64 (x : UInt64) : (x &&& 0xFF).toUInt8 = x.toUInt8 := by
  apply UInt8.toNat_inj.mp
  rw [UInt64.toNat_toUInt8, UInt64.toNat_toUInt8, UInt64.toNat_and]
  have hmask : (0xFF : UInt64).toNat = 2 ^ 8 - 1 := rfl
  rw [hmask, Nat.and_two_pow_sub_one_eq_mod, Nat.mod_mod]

theorem toUInt8_and_mask32 (x : UInt32) : (x &&& 0xFF).toUInt8 = x.toUInt8 := by
  apply UInt8.toNat_inj.mp
  rw [UInt32.toNat_toUInt8, UInt32.toNat_toUInt8, UInt32.toNat_and]
  have hmask : (0xFF : UInt32).toNat = 2 ^ 8 - 1 := rfl
  rw [hmask, Nat.and_two_pow_sub_one_eq_mod, Nat.mod_mod]

/-- The eight bytes behind a message are its length in bits. -/
theorem size_bytes (n : ℕ) :
    ((List.range 8).map fun b =>
      ((UInt64.ofNat (8 * n) >>> UInt64.ofNat ((7 - b) * 8)) &&& 0xFF).toUInt8) =
      toBE 8 (8 * n) := by
  have hwrite : ∀ c : UInt64, ((List.range 8).map fun b =>
      ((c >>> UInt64.ofNat ((7 - b) * 8)) &&& 0xFF).toUInt8) = Cpp.writeU64BE c := by
    intro c
    simp only [toUInt8_and_mask64, Cpp.writeU64BE]
    have hlast : c >>> UInt64.ofNat ((7 - 7) * 8) = c := UInt64.shiftRight_zero
    conv_rhs => rw [← hlast]
    rfl
  rw [hwrite, Cpp.writeU64BE_eq, Net.writeU64BE, UInt64.toNat_ofNat']
  exact toBE_mod 8 (8 * n)

/-- The digest is written word by word. -/
theorem digest_bytes (state : Regs) :
    ((List.range 20).map fun i =>
      ((state (Fin.ofNat 5 (i >>> 2)) >>> UInt32.ofNat ((3 - (i &&& 3)) * 8)) &&& 0xFF).toUInt8) =
      (varsOf state).bytes := by
  have hword : ∀ x : UInt32, toBE 4 x.toNat =
      (List.range 4).map fun i => (x >>> UInt32.ofNat ((3 - i) * 8)).toUInt8 := by
    intro x
    have hlast : x >>> UInt32.ofNat ((3 - 3) * 8) = x := UInt32.shiftRight_zero
    have hwrite : toBE 4 x.toNat = Cpp.writeU32BE x := (Cpp.writeU32BE_eq x).symm
    rw [hwrite, Cpp.writeU32BE]
    conv_lhs => rw [← hlast]
    rfl
  simp only [toUInt8_and_mask32, Sha1.Vars.bytes, varsOf, hword]
  rfl

/-- Zeros and the length end a block that has room for them. -/
theorem Filled.finish {buffer xs size : Bytes} (h : Filled buffer xs) (hlen : xs.length ≤ 56)
    (hsize : size.length = 8) :
    Gmaker.Lib.writeAt (Gmaker.Lib.writeAt buffer xs.length (List.replicate (56 - xs.length) 0))
      56 size = xs ++ List.replicate (56 - xs.length) 0 ++ size := by
  have hzeros := h.writeAt (List.replicate (56 - xs.length) 0) rfl
    (by rw [List.length_replicate]; omega)
  have hfront : (xs ++ List.replicate (56 - xs.length) (0 : UInt8)).length = 56 := by
    rw [List.length_append, List.length_replicate]
    omega
  refine (hzeros.writeAt size hfront (by omega)).eq ?_
  rw [List.length_append, hfront, hsize]

/-- `SHA1Final` takes in the padding: one block more, or two when the length does not fit
behind the message. -/
theorem Absorbed.final {ctx : SHA1Ctx} {msg : Bytes} (h : Absorbed ctx msg) :
    sha1Final ctx = Sha1.digest msg := by
  have hlen := length_partialBlock msg
  have hi : inBuffer ctx.count = (partialBlock msg).length := by
    rw [h.count, inBuffer_eq, hlen]
  have hone := h.rest.writeAt [0x80] rfl
    (by rw [List.length_singleton]; omega)
  have hone_length : (partialBlock msg ++ [(0x80 : UInt8)]).length =
      (partialBlock msg).length + 1 := by
    rw [List.length_append, List.length_singleton]
  have hsize : (toBE 8 (8 * msg.length)).length = 8 := length_toBE 8 _
  rw [Sha1.digest, absorb_append_behind, ← h.state, Sha1.padding]
  unfold sha1Final
  simp only [digest_bytes, hi]
  rw [h.count, size_bytes]
  by_cases htwo : 56 < (partialBlock msg).length + 1
  · -- the first block is filled up with zeros
    simp only [if_pos htwo]
    have hfirst := hone.writeAt (List.replicate (64 - ((partialBlock msg).length + 1)) 0)
      hone_length (by rw [List.length_replicate]; omega)
    have hfirst_length : (partialBlock msg ++ [0x80] ++
        List.replicate (64 - ((partialBlock msg).length + 1)) (0 : UInt8)).length = 64 := by
      rw [List.length_append, hone_length, List.length_replicate]
      omega
    have hlast := hfirst.nil.finish (Nat.zero_le 56) hsize
    have hlast_length : (([] : Bytes) ++ List.replicate (56 - ([] : Bytes).length) 0 ++
        toBE 8 (8 * msg.length)).length = 64 := by
      rw [List.length_append, hsize, List.nil_append, List.length_replicate, List.length_nil]
    have hzeros : (119 - msg.length % 64) % 64 = 64 - ((partialBlock msg).length + 1) + 56 := by
      omega
    have hsplit : partialBlock msg ++ 0x80 ::
        (List.replicate ((119 - msg.length % 64) % 64) 0 ++ toBE 8 (8 * msg.length)) =
        (partialBlock msg ++ [0x80] ++
          List.replicate (64 - ((partialBlock msg).length + 1)) (0 : UInt8)) ++
          ([] ++ List.replicate (56 - ([] : Bytes).length) 0 ++ toBE 8 (8 * msg.length)) := by
      rw [hzeros, List.replicate_add]
      simp only [List.append_assoc, List.cons_append, List.nil_append, List.length_nil,
        Nat.sub_zero]
    rw [hsplit, Sha1.absorb_block hfirst_length, Sha1.absorb_single hlast_length,
      ← varsOf_sha1Transform _ hfirst_length, ← varsOf_sha1Transform _ hlast_length, ← hlast,
      hfirst.eq hfirst_length]
    rfl
  · -- the length fits behind the message
    simp only [if_neg htwo]
    have hlast := hone.finish (by omega) hsize
    have hlast_length : (partialBlock msg ++ [0x80] ++
        List.replicate (56 - (partialBlock msg ++ [(0x80 : UInt8)]).length) 0 ++
        toBE 8 (8 * msg.length)).length = 64 := by
      rw [List.length_append, hsize, List.length_append, List.length_replicate, hone_length]
      omega
    have hzeros : (119 - msg.length % 64) % 64 =
        56 - (partialBlock msg ++ [(0x80 : UInt8)]).length := by
      omega
    have hsplit : partialBlock msg ++ 0x80 ::
        (List.replicate ((119 - msg.length % 64) % 64) 0 ++ toBE 8 (8 * msg.length)) =
        partialBlock msg ++ [0x80] ++
          List.replicate (56 - (partialBlock msg ++ [(0x80 : UInt8)]).length) 0 ++
          toBE 8 (8 * msg.length) := by
      rw [hzeros]
      simp only [List.append_assoc, List.cons_append, List.nil_append]
    rw [hsplit, Sha1.absorb_single hlast_length, ← varsOf_sha1Transform _ hlast_length, ← hlast,
      hone_length]

/-- `SHA1Raw` returns the digest. -/
theorem sha1Raw_eq (stack : List.Vector UInt8 64) (data : Bytes) :
    sha1Raw stack data = Sha1.digest data :=
  ((absorbed_init stack).update data).final

/-! ## Digits -/

/-- The table holds the digits. -/
theorem base64Chars_eq : base64Chars = (List.range 64).map Base64.digit := by decide

theorem base64Char_eq (n : UInt32) : base64Char n = Base64.digit (n.toNat % 64) := by
  have hmask : (0x3F : UInt32).toNat = 2 ^ 6 - 1 := rfl
  have hlt : n.toNat % 2 ^ 6 < 64 := Nat.mod_lt _ (by decide)
  rw [base64Char, UInt32.toNat_and, hmask, Nat.and_two_pow_sub_one_eq_mod, base64Chars_eq,
    List.getD_eq_getElem _ _ (by rw [List.length_map, List.length_range]; exact hlt),
    List.getElem_map, List.getElem_range]

/-- Three bytes as a number of 24 bits. -/
theorem toNat_group (x y z : UInt8) :
    (x.toUInt32 <<< 16 ||| y.toUInt32 <<< 8 ||| z.toUInt32).toNat =
      x.toNat * 65536 + y.toNat * 256 + z.toNat := by
  have hvalue : x.toNat * 65536 + y.toNat * 256 + z.toNat = ofBE [x, y, z] := by
    simp [ofBE, Nat.add_assoc]
  have hmod := fun (b : UInt8) (k : ℕ) (hk : 8 + k ≤ 32) =>
    Cpp.byte_shiftLeft_mod (m := 4294967296) b (by decide : _ = 2 ^ 32) hk
  rw [hvalue, Cpp.ofBE_cons_or, Cpp.ofBE_cons_or, Cpp.ofBE_cons_or]
  simp [ofBE, Nat.lor_assoc, hmod]

/-- The four digits of a group. -/
theorem base64Char_group (x y z : UInt8) :
    let v := x.toUInt32 <<< 16 ||| y.toUInt32 <<< 8 ||| z.toUInt32
    base64Char (v >>> 18) = Base64.digit (x.toNat / 4) ∧
      base64Char (v >>> 12) = Base64.digit (x.toNat % 4 * 16 + y.toNat / 16) ∧
      base64Char (v >>> 6) = Base64.digit (y.toNat % 16 * 4 + z.toNat / 64) ∧
      base64Char v = Base64.digit (z.toNat % 64) := by
  intro v
  have hv : v.toNat = x.toNat * 65536 + y.toNat * 256 + z.toNat := toNat_group x y z
  have hx := x.toNat_lt
  have hy := y.toNat_lt
  have hz := z.toNat_lt
  have hshift : ∀ (n : UInt32) (k : ℕ), n.toNat % 32 = k → (v >>> n).toNat = v.toNat / 2 ^ k := by
    intro n k hn
    rw [UInt32.toNat_shiftRight, hn, Nat.shiftRight_eq_div_pow]
  simp only [base64Char_eq, hshift 18 18 rfl, hshift 12 12 rfl, hshift 6 6 rfl, hv]
  refine ⟨?_, ?_, ?_, ?_⟩ <;> congr 1 <;> omega

theorem drop_eq_cons {data : Bytes} {i : ℕ} (h : i < data.length) :
    data.drop i = Cpp.byteAt data i :: data.drop (i + 1) := by
  rw [List.drop_eq_getElem_cons h, Cpp.byteAt, List.getD_eq_getElem _ _ h]

/-- What is behind the data reads as zero, which leaves a group as it is. -/
theorem byteAt_of_le {data : Bytes} {i : ℕ} (h : data.length ≤ i) : Cpp.byteAt data i = 0 :=
  List.getD_eq_default _ _ h

/-- The digits that `Base64Encode` writes in one turn. -/
theorem base64Loop_eq {data : Bytes} {i : ℕ} (h : i < data.length) :
    let x := (Cpp.byteAt data i).toNat
    let y := (Cpp.byteAt data (i + 1)).toNat
    let z := (Cpp.byteAt data (i + 2)).toNat
    base64Loop data i =
      Base64.digit (x / 4) :: Base64.digit (x % 4 * 16 + y / 16) ::
        (if i + 1 < data.length then Base64.digit (y % 16 * 4 + z / 64) else Base64.pad) ::
        (if i + 2 < data.length then Base64.digit (z % 64) else Base64.pad) ::
        base64Loop data (i + 3) := by
  intro x y z
  obtain ⟨h18, h12, h6, h0⟩ := base64Char_group (Cpp.byteAt data i) (Cpp.byteAt data (i + 1))
    (Cpp.byteAt data (i + 2))
  have hsecond : (if i + 1 < data.length
      then (Cpp.byteAt data i).toUInt32 <<< 16 ||| (Cpp.byteAt data (i + 1)).toUInt32 <<< 8
      else (Cpp.byteAt data i).toUInt32 <<< 16) =
      (Cpp.byteAt data i).toUInt32 <<< 16 ||| (Cpp.byteAt data (i + 1)).toUInt32 <<< 8 := by
    split
    · rfl
    · rw [byteAt_of_le (i := i + 1) (by omega)]
      exact UInt32.or_zero.symm
  have hthird : ∀ v : UInt32, (if i + 2 < data.length
      then v ||| (Cpp.byteAt data (i + 2)).toUInt32 else v) =
      v ||| (Cpp.byteAt data (i + 2)).toUInt32 := by
    intro v
    split
    · rfl
    · rw [byteAt_of_le (i := i + 2) (by omega)]
      exact UInt32.or_zero.symm
  rw [base64Loop, if_pos h]
  simp only [hsecond, hthird, h18, h12, h6, h0]
  rfl

/-- `Base64Encode` writes the encoding. -/
theorem base64Loop_spec (data : Bytes) (i : ℕ) :
    base64Loop data i = Base64.encode (data.drop i) := by
  induction i using base64Loop.induct data with
  | case1 i hi ih =>
    rw [base64Loop_eq hi, ih, drop_eq_cons hi]
    by_cases h1 : i + 1 < data.length
    · rw [if_pos h1, drop_eq_cons h1]
      by_cases h2 : i + 2 < data.length
      · rw [if_pos h2, drop_eq_cons h2, Base64.encode]
      · -- two bytes are left
        rw [if_neg h2, List.drop_eq_nil_of_le (by omega), List.drop_eq_nil_of_le (by omega),
          byteAt_of_le (i := i + 2) (by omega)]
        rfl
    · -- one byte is left
      rw [if_neg h1, if_neg (by omega), List.drop_eq_nil_of_le (by omega),
        List.drop_eq_nil_of_le (by omega), byteAt_of_le (i := i + 1) (by omega)]
      rfl
  | case2 i hi =>
    rw [base64Loop, if_neg hi, List.drop_eq_nil_of_le (not_lt.mp hi), Base64.encode]

/-! ## The answer -/

/-- The GUID that the WebSocket protocol puts behind the key of a client. -/
def guid : Bytes := ascii "258EAFA5-E914-47DA-95CA-C5AB0DC85B11"

/-- `SHA1Raw` returns the digest of every message, and `ComputeWSAccept` answers every key with
the encoding of the digest of the key and the GUID. -/
theorem computeWSAccept_eq (stack : List.Vector UInt8 64) :
    (∀ data, sha1Raw stack data = Sha1.digest data) ∧
      ∀ wsKey, computeWSAccept stack wsKey = Base64.encode (Sha1.digest (wsKey ++ guid)) := by
  constructor
  · exact sha1Raw_eq stack
  · intro wsKey
    rw [computeWSAccept, base64Encode, sha1Raw_eq, base64Loop_spec, List.drop_zero]
    rfl

end Gmaker.Net.WsAccept
