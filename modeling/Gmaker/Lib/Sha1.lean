import Gmaker.Lib.Bytes

/-!
# Gmaker.Lib.Sha1 — the hash function SHA-1

SHA-1 as its standard states it (FIPS 180-4), for messages of whole bytes: the functions
and constants of the 80 rounds, the message schedule, the hash computation over blocks of
64 bytes and the padding. An implementation differs from it in how it keeps the five
variables and the schedule, and in how it cuts a message into blocks; `absorb_append` and
`absorb_of_lt` are what is needed for the latter.
-/

namespace Gmaker.Lib.Sha1

/-! ## Rounds -/

/-- `ROTL`: `x` turned to the left by `n` bits. -/
def rotl (n x : UInt32) : UInt32 := (x <<< n) ||| (x >>> (32 - n))

def ch (x y z : UInt32) : UInt32 := (x &&& y) ^^^ (~~~x &&& z)

def parity (x y z : UInt32) : UInt32 := x ^^^ y ^^^ z

def maj (x y z : UInt32) : UInt32 := (x &&& y) ^^^ (x &&& z) ^^^ (y &&& z)

/-- The function of round `t`. -/
def f (t : ℕ) : UInt32 → UInt32 → UInt32 → UInt32 :=
  if t < 20 then ch else if t < 40 then parity else if t < 60 then maj else parity

/-- The constant of round `t`. -/
def k (t : ℕ) : UInt32 :=
  if t < 20 then 0x5A827999
  else if t < 40 then 0x6ED9EBA1
  else if t < 60 then 0x8F1BBCDC
  else 0xCA62C1D6

/-- The five working variables, or the five words of a hash value. -/
structure Vars where
  a : UInt32
  b : UInt32
  c : UInt32
  d : UInt32
  e : UInt32
deriving DecidableEq

/-- The message schedule of a block of words. -/
def schedule (m : ℕ → UInt32) (t : ℕ) : UInt32 :=
  if t < 16 then m t
  else rotl 1 (schedule m (t - 3) ^^^ schedule m (t - 8) ^^^ schedule m (t - 14) ^^^
    schedule m (t - 16))
termination_by t
decreasing_by all_goals omega

/-- Round `t` with its word of the schedule. -/
def step (t : ℕ) (w : UInt32) (v : Vars) : Vars where
  a := rotl 5 v.a + f t v.b v.c v.d + v.e + k t + w
  b := v.a
  c := rotl 30 v.b
  d := v.c
  e := v.d

/-- The variables before round `t`. -/
def rounds (m : ℕ → UInt32) (h : Vars) : ℕ → Vars
  | 0 => h
  | t + 1 => step t (schedule m t) (rounds m h t)

/-! ## Blocks -/

/-- Word `i` of a block. -/
def word (block : List UInt8) (i : ℕ) : UInt32 := UInt32.ofNat (ofBE ((block.drop (4 * i)).take 4))

/-- The next hash value. -/
def compress (h : Vars) (block : List UInt8) : Vars :=
  let v := rounds (word block) h 80
  { a := v.a + h.a
    b := v.b + h.b
    c := v.c + h.c
    d := v.d + h.d
    e := v.e + h.e }

/-- The hash value behind all blocks that are whole. -/
def absorb (h : Vars) (bs : List UInt8) : Vars :=
  if 64 ≤ bs.length then absorb (compress h (bs.take 64)) (bs.drop 64) else h
termination_by bs.length
decreasing_by
  rw [List.length_drop]
  omega

/-- The initial hash value. -/
def initial : Vars where
  a := 0x67452301
  b := 0xEFCDAB89
  c := 0x98BADCFE
  d := 0x10325476
  e := 0xC3D2E1F0

/-! ## Messages -/

/-- What is put behind a message of a length: a one, so many zeros that eight bytes are left
in the last block, and the length in bits. -/
def padding (length : ℕ) : List UInt8 :=
  0x80 :: (List.replicate ((119 - length % 64) % 64) 0 ++ toBE 8 (8 * length))

/-- The bytes of a hash value. -/
def Vars.bytes (v : Vars) : List UInt8 :=
  toBE 4 v.a.toNat ++ toBE 4 v.b.toNat ++ toBE 4 v.c.toNat ++ toBE 4 v.d.toNat ++ toBE 4 v.e.toNat

/-- The message digest. -/
def digest (msg : List UInt8) : List UInt8 :=
  (absorb initial (msg ++ padding msg.length)).bytes

/-! ## Cutting into blocks -/

theorem absorb_of_lt {h : Vars} {bs : List UInt8} (hlt : bs.length < 64) : absorb h bs = h := by
  rw [absorb, if_neg (not_le.mpr hlt)]

/-- The first block. -/
theorem absorb_block {h : Vars} {block : List UInt8} (hlen : block.length = 64) (rest : List UInt8) :
    absorb h (block ++ rest) = absorb (compress h block) rest := by
  have hle : 64 ≤ (block ++ rest).length := by
    rw [List.length_append]
    omega
  rw [absorb, if_pos hle, ← hlen, List.take_left, List.drop_left]

/-- One block alone. -/
theorem absorb_single {h : Vars} {block : List UInt8} (hlen : block.length = 64) :
    absorb h block = compress h block := by
  have hnil := absorb_block (h := h) hlen []
  rw [List.append_nil] at hnil
  rw [hnil, absorb_of_lt (by decide)]

/-- Whole blocks can be taken in first. -/
theorem absorb_append (h : Vars) {as : List UInt8} (has : 64 ∣ as.length) (bs : List UInt8) :
    absorb h (as ++ bs) = absorb (absorb h as) bs := by
  induction h, as using absorb.induct with
  | case1 h as hle ih =>
    have htake : (as.take 64).length = 64 := List.length_take_of_le hle
    have hrest : 64 ∣ (as.drop 64).length := by
      rw [List.length_drop]
      exact Nat.dvd_sub has (dvd_refl 64)
    have hfirst : absorb h as = absorb (compress h (as.take 64)) (as.drop 64) := by
      rw [absorb, if_pos hle]
    rw [hfirst, ← ih hrest, ← absorb_block htake, ← List.append_assoc, List.take_append_drop]
  | case2 h as hlt =>
    have hnil : as = [] := by
      rw [← List.length_eq_zero_iff]
      exact Nat.eq_zero_of_dvd_of_lt has (not_le.mp hlt)
    have hnone : absorb h [] = h := absorb_of_lt (by decide)
    rw [hnil, List.nil_append, hnone]

end Gmaker.Lib.Sha1
