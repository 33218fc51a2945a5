import Mathlib
import Gmaker.Lib.Words
import Gmaker.Realtime.Movement

/-!
# Gmaker.Realtime.FixedWords — fixed-point numbers, word by word

`Fixed` has no 128-bit integers to compute with: a product is gathered from the products of the
halves of its factors, a quotient is developed bit by bit, and a square root is Newton's. Here the
operations are the source's own, on words of 64 bits that wrap. They compute what `Fixed.mul`,
`Fixed.div` and `Fixed.sqrt` say (`mulShiftRight32_eq`, `divShiftLeft32_eq`, `fixedSqrt_eq`), and
that is exact as long as the result fits.
-/

namespace Gmaker.Realtime

open Gmaker.Lib

namespace Fixed

/-! ## Words -/

/-- `to_unsigned_abs`. -/
def toUnsignedAbs (v : Int64) : UInt64 := if v < 0 then (-(v + 1)).toUInt64 + 1 else v.toUInt64

/-- `neg ? -static_cast<int64_t>(result) : static_cast<int64_t>(result)`. -/
def signed (neg : Bool) (result : UInt64) : Int64 := if neg then -result.toInt64 else result.toInt64

section Words

variable {x y : UInt64}

theorem toNat_mask (x : UInt64) : (x &&& 0xFFFFFFFF).toNat = x.toNat % 2 ^ 32 := by
  rw [UInt64.toNat_and]
  exact Nat.and_two_pow_sub_one_eq_mod x.toNat 32

theorem toNat_high (x : UInt64) : (x >>> 32).toNat = x.toNat / 2 ^ 32 := by
  rw [UInt64.toNat_shiftRight]
  exact Nat.shiftRight_eq_div_pow x.toNat 32

theorem toNat_double (h : x.toNat < 2 ^ 63) : (x <<< 1).toNat = 2 * x.toNat := by
  rw [UInt64.toNat_shiftLeft]
  change x.toNat <<< 1 % 2 ^ 64 = _
  rw [Nat.shiftLeft_eq]
  omega

/-- Two halves of a word. -/
theorem toNat_join (h : y.toNat < 2 ^ 32) :
    (x <<< 32 ||| y).toNat = (x.toNat * 2 ^ 32 + y.toNat) % 2 ^ 64 := by
  have hx : (x <<< 32).toNat = (x.toNat % 2 ^ 32) <<< 32 := by
    rw [UInt64.toNat_shiftLeft]
    change x.toNat <<< 32 % 2 ^ 64 = _
    rw [Nat.shiftLeft_eq, Nat.shiftLeft_eq]
    omega
  rw [UInt64.toNat_or, hx, ← Nat.shiftLeft_add_eq_or_of_lt h, Nat.shiftLeft_eq]
  omega

theorem toNat_toUInt64 {v : Int64} (h : 0 ≤ v.toInt) : (v.toUInt64.toNat : ℤ) = v.toInt := by
  have hv : 0 ≤ v := Int64.le_iff_toInt_le.mpr h
  rw [Int64.toNat_toUInt64_of_le hv, Int64.toInt_eq_toNatClampNeg hv]

/-- Neither sum nor sign overflows, `INT64_MIN` included. -/
theorem toInt_neg_succ {v : Int64} (h : v.toInt < 0) :
    (v + 1).toInt = v.toInt + 1 ∧ (-(v + 1)).toInt = -(v.toInt + 1) := by
  have hlow := v.le_toInt
  have hsucc : (v + 1).toInt = v.toInt + 1 := by
    rw [Int64.toInt_add]
    exact Int.bmod_eq_of_le (by change _ ≤ v.toInt + 1; omega) (by change v.toInt + 1 < _; omega)
  refine ⟨hsucc, ?_⟩
  rw [Int64.toInt_neg, hsucc]
  exact Int.bmod_eq_of_le (by omega) (by omega)

/-- Every number has a magnitude, `INT64_MIN` included. -/
theorem toNat_toUnsignedAbs (v : Int64) : (toUnsignedAbs v).toNat = v.toInt.natAbs := by
  have hlow := v.le_toInt
  unfold toUnsignedAbs
  split_ifs with hneg
  · have hlt : v.toInt < 0 := Int64.lt_iff_toInt_lt.mp hneg
    have hword := toNat_toUInt64 (v := -(v + 1)) (by rw [(toInt_neg_succ hlt).2]; omega)
    rw [(toInt_neg_succ hlt).2] at hword
    rw [UInt64.toNat_add, UInt64.toNat_one]
    omega
  · have hge : 0 ≤ v.toInt := not_lt.mp fun hlt => hneg (Int64.lt_iff_toInt_lt.mpr hlt)
    have hword := toNat_toUInt64 hge
    omega

theorem toNat_toUnsignedAbs_le (v : Int64) : (toUnsignedAbs v).toNat ≤ 2 ^ 63 := by
  rw [toNat_toUnsignedAbs]
  exact natAbs_le v

/-- A magnitude, cut to a word, with the sign of a product or a quotient. -/
theorem signed_eq (a b : Fixed) {result : UInt64} {magnitude : ℕ}
    (h : result.toNat = magnitude % 2 ^ 64) :
    signed (decide (a < 0) != decide (b < 0)) result = withSign a b magnitude := by
  have hresult : result.toInt64 = Int64.ofInt magnitude := by
    have hword : result = UInt64.ofNat magnitude := by
      apply UInt64.toNat_inj.mp
      rw [h, UInt64.toNat_ofNat']
    rw [hword]
    rfl
  unfold signed withSign
  rw [hresult, Int64.ofInt_neg]
  by_cases ha : a < 0 <;> by_cases hb : b < 0 <;> simp [ha, hb]

end Words

/-! ## Products -/

/-- The words of a product: the halves of the factors, their products, and the sums of these. -/
structure MulWords where
  aLo : UInt64
  aHi : UInt64
  bLo : UInt64
  bHi : UInt64
  ll : UInt64
  lh : UInt64
  hl : UInt64
  hh : UInt64
  mid : UInt64
  resHi32 : UInt64

/-- The words that `mul_shift_right32` computes from the magnitudes. -/
def mulWords (ua ub : UInt64) : MulWords :=
  let aLo := ua &&& 0xFFFFFFFF
  let aHi := ua >>> 32
  let bLo := ub &&& 0xFFFFFFFF
  let bHi := ub >>> 32
  let ll := aLo * bLo
  let lh := aLo * bHi
  let hl := aHi * bLo
  let hh := aHi * bHi
  let mid := (ll >>> 32) + (lh &&& 0xFFFFFFFF) + (hl &&& 0xFFFFFFFF)
  let carry := mid >>> 32
  let resHi32 := hh + (lh >>> 32) + (hl >>> 32) + carry
  { aLo, aHi, bLo, bHi, ll, lh, hl, hh, mid, resHi32 }

/-- `mul_shift_right32`. -/
def mulShiftRight32 (a b : Fixed) : Fixed :=
  let neg := decide (a < 0) != decide (b < 0)
  let w := mulWords (toUnsignedAbs a) (toUnsignedAbs b)
  signed neg (w.resHi32 <<< 32 ||| (w.mid &&& 0xFFFFFFFF))

/-- `operator*`. -/
def opMul (a b : Fixed) : Fixed := mulShiftRight32 a b

/-- The words are what they would be without a bound. -/
structure MulWords.Exact (ua ub : UInt64) (w : MulWords) : Prop where
  a : w.aHi.toNat * 2 ^ 32 + w.aLo.toNat = ua.toNat
  b : w.bHi.toNat * 2 ^ 32 + w.bLo.toNat = ub.toNat
  ll : w.ll.toNat = w.aLo.toNat * w.bLo.toNat
  lh : w.lh.toNat = w.aLo.toNat * w.bHi.toNat
  hl : w.hl.toNat = w.aHi.toNat * w.bLo.toNat
  hh : w.hh.toNat = w.aHi.toNat * w.bHi.toNat
  mid : w.mid.toNat = midSum (2 ^ 32) w.aLo.toNat w.aHi.toNat w.bLo.toNat w.bHi.toNat
  resHi32 : w.resHi32.toNat = highSum (2 ^ 32) w.aLo.toNat w.aHi.toNat w.bLo.toNat w.bHi.toNat

section Products

/-- A product of two halves fits into a word. -/
theorem toNat_mul_of_halves {x y : UInt64} (hx : x.toNat < 2 ^ 32) (hy : y.toNat < 2 ^ 32) :
    (x * y).toNat = x.toNat * y.toNat := by
  rw [UInt64.toNat_mul]
  exact Nat.mod_eq_of_lt (by nlinarith)

variable {ua ub : UInt64} (ha : ua.toNat ≤ 2 ^ 63) (hb : ub.toNat ≤ 2 ^ 63)

include ha hb

/-- No word wraps, as long as the magnitudes are those of numbers with a sign. -/
theorem exact_mulWords : (mulWords ua ub).Exact ua ub := by
  have haLo : (ua &&& 0xFFFFFFFF).toNat = ua.toNat % 2 ^ 32 := toNat_mask ua
  have haHi : (ua >>> 32).toNat = ua.toNat / 2 ^ 32 := toNat_high ua
  have hbLo : (ub &&& 0xFFFFFFFF).toNat = ub.toNat % 2 ^ 32 := toNat_mask ub
  have hbHi : (ub >>> 32).toNat = ub.toNat / 2 ^ 32 := toNat_high ub
  unfold mulWords
  dsimp only
  generalize ua &&& 0xFFFFFFFF = aLo at *
  generalize ua >>> 32 = aHi at *
  generalize ub &&& 0xFFFFFFFF = bLo at *
  generalize ub >>> 32 = bHi at *
  have hll : (aLo * bLo).toNat = aLo.toNat * bLo.toNat := toNat_mul_of_halves (by omega) (by omega)
  have hlh : (aLo * bHi).toNat = aLo.toNat * bHi.toNat := toNat_mul_of_halves (by omega) (by omega)
  have hhl : (aHi * bLo).toNat = aHi.toNat * bLo.toNat := toNat_mul_of_halves (by omega) (by omega)
  have hhh : (aHi * bHi).toNat = aHi.toNat * bHi.toNat := toNat_mul_of_halves (by omega) (by omega)
  have hmid : ((aLo * bLo) >>> 32 + (aLo * bHi &&& 0xFFFFFFFF) + (aHi * bLo &&& 0xFFFFFFFF)).toNat =
      midSum (2 ^ 32) aLo.toNat aHi.toNat bLo.toNat bHi.toNat := by
    -- three summands of 32 bits
    have hlt := (aLo * bLo).toNat_lt
    rw [UInt64.toNat_add, UInt64.toNat_add, toNat_high, toNat_mask, toNat_mask, hll, hlh, hhl,
      midSum]
    rw [hll] at hlt
    omega
  refine ⟨by dsimp only; omega, by dsimp only; omega, hll, hlh, hhl, hhh, hmid, ?_⟩
  -- the upper halves have 31 bits, so that there is room for the carries
  have hhigh : aHi.toNat * bHi.toNat ≤ 2 ^ 31 * 2 ^ 31 := Nat.mul_le_mul (by omega) (by omega)
  have hlt1 := (aLo * bHi).toNat_lt
  have hlt2 := (aHi * bLo).toNat_lt
  have hmidLt := ((aLo * bLo) >>> 32 + (aLo * bHi &&& 0xFFFFFFFF) +
    (aHi * bLo &&& 0xFFFFFFFF)).toNat_lt
  dsimp only
  rw [UInt64.toNat_add, UInt64.toNat_add, UInt64.toNat_add, toNat_high, toNat_high, toNat_high,
    hmid, hlh, hhl, hhh, highSum]
  rw [hmid] at hmidLt
  rw [hlh] at hlt1
  rw [hhl] at hlt2
  omega

/-- The product, without its lowest 32 bits and cut to a word. -/
theorem toNat_mulWords :
    ((mulWords ua ub).resHi32 <<< 32 ||| ((mulWords ua ub).mid &&& 0xFFFFFFFF)).toNat =
      ua.toNat * ub.toNat / 2 ^ 32 % 2 ^ 64 := by
  rcases exact_mulWords ha hb with ⟨hA, hB, _, _, _, _, hmid, hres⟩
  have hlow : ((mulWords ua ub).mid &&& 0xFFFFFFFF).toNat < 2 ^ 32 := by
    rw [toNat_mask]
    exact Nat.mod_lt _ (by norm_num)
  rw [toNat_join hlow, toNat_mask, hmid, hres, ← hA, ← hB, product_div _ _ _ _ (by norm_num)]

end Products

/-- The words give what `Fixed.mul` says. -/
theorem mulShiftRight32_eq (a b : Fixed) : mulShiftRight32 a b = mul a b := by
  have hwords := toNat_mulWords (toNat_toUnsignedAbs_le a) (toNat_toUnsignedAbs_le b)
  rw [toNat_toUnsignedAbs, toNat_toUnsignedAbs] at hwords
  exact signed_eq a b hwords

/-! ## Quotients -/

/-- One pass of the loop of `div_q32_32`: the remainder and the bits so far. -/
def divStep (denom : UInt64) (s : UInt64 × UInt64) : UInt64 × UInt64 :=
  let rem := s.1 <<< 1
  let fracPart := s.2 <<< 1
  if denom ≤ rem then (rem - denom, fracPart ||| 1) else (rem, fracPart)

/-- `div_q32_32`. -/
def divQ3232 (numer denom : UInt64) : UInt64 :=
  if denom = 0 then 0
  else
    let intPart := numer / denom
    let fracPart := ((divStep denom)^[32] (numer % denom, 0)).2
    intPart <<< 32 ||| (fracPart &&& 0xFFFFFFFF)

/-- `div_shift_left32`. -/
def divShiftLeft32 (a b : Fixed) : Fixed :=
  let neg := decide (a < 0) != decide (b < 0)
  signed neg (divQ3232 (toUnsignedAbs a) (toUnsignedAbs b))

/-- `operator/`: it throws if the divisor is zero. -/
def opDiv (a b : Fixed) : Option Fixed := if b = 0 then none else some (divShiftLeft32 a b)

/-- A remainder whose doubling fits, and bits whose doubling fits. -/
def DivFits (s : UInt64 × UInt64) : Prop :=
  (s.1 <<< 1).toNat = 2 * s.1.toNat ∧ (s.2 <<< 1).toNat = 2 * s.2.toNat

section Quotients

variable {numer denom : UInt64} {s : UInt64 × UInt64}

theorem divFits_of_lt (hrem : s.1.toNat < 2 ^ 63) (hfrac : s.2.toNat < 2 ^ 63) : DivFits s :=
  ⟨toNat_double hrem, toNat_double hfrac⟩

/-- A pass that fits is a step of the division. -/
theorem divStep_eq (hfits : DivFits s) :
    ((divStep denom s).1.toNat, (divStep denom s).2.toNat) =
      longStep denom.toNat (s.1.toNat, s.2.toNat) := by
  rcases hfits with ⟨hrem, hfrac⟩
  unfold divStep longStep
  dsimp only
  have hle : denom ≤ s.1 <<< 1 ↔ denom.toNat ≤ 2 * s.1.toNat := by
    rw [UInt64.le_iff_toNat_le, hrem]
  by_cases h : denom.toNat ≤ 2 * s.1.toNat
  · have hbit : (s.2 <<< 1 ||| 1).toNat = 2 * s.2.toNat + 1 := by
      rw [UInt64.toNat_or, hfrac, UInt64.toNat_one]
      exact (Nat.two_pow_add_eq_or_of_lt (i := 1) (b := 1) (by norm_num) s.2.toNat).symm
    rw [if_pos (hle.mpr h), if_pos h, UInt64.toNat_sub_of_le _ _ (hle.mpr h), hrem, hbit]
  · rw [if_neg (hle.not.mpr h), if_neg h, hrem, hfrac]

/-- The loop, from a remainder on: it develops the quotient, and every pass fits. -/
theorem divStep_iterate (hdenom : denom.toNat ≤ 2 ^ 63) {rem : UInt64}
    (hrem : rem.toNat < denom.toNat) : ∀ i ≤ 32,
    (((divStep denom)^[i] (rem, 0)).1.toNat, ((divStep denom)^[i] (rem, 0)).2.toNat) =
      (rem.toNat * 2 ^ i % denom.toNat, rem.toNat * 2 ^ i / denom.toNat) ∧
    DivFits ((divStep denom)^[i] (rem, 0)) := by
  have hpos : 0 < denom.toNat := Nat.zero_lt_of_lt hrem
  intro i
  induction i with
  | zero =>
    intro _
    rw [Function.iterate_zero, id_eq, pow_zero, mul_one, Nat.mod_eq_of_lt hrem,
      Nat.div_eq_of_lt hrem]
    exact ⟨rfl, divFits_of_lt (hrem.trans_le hdenom) (by norm_num)⟩
  | succ i ih =>
    intro hi
    rcases ih (by omega) with ⟨hvalue, hfits⟩
    have hnext : (((divStep denom)^[i + 1] (rem, 0)).1.toNat,
        ((divStep denom)^[i + 1] (rem, 0)).2.toNat) =
          (rem.toNat * 2 ^ (i + 1) % denom.toNat, rem.toNat * 2 ^ (i + 1) / denom.toNat) := by
      rw [Function.iterate_succ_apply', divStep_eq hfits, hvalue, ← longStep_iterate hrem,
        ← longStep_iterate hrem, Function.iterate_succ_apply']
    rcases Prod.mk.inj hnext with ⟨hfst, hsnd⟩
    refine ⟨hnext, divFits_of_lt ?_ ?_⟩
    · rw [hfst]
      exact (Nat.mod_lt _ hpos).trans_le hdenom
    · -- there are no more bits than passes
      have hbits : rem.toNat * 2 ^ (i + 1) / denom.toNat < 2 ^ (i + 1) := by
        rw [Nat.div_lt_iff_lt_mul hpos, Nat.mul_comm]
        exact Nat.mul_lt_mul_of_pos_left hrem (by positivity)
      have hpow : 2 ^ (i + 1) ≤ 2 ^ 32 := Nat.pow_le_pow_right (by norm_num) hi
      rw [hsnd]
      omega

/-- The quotient, cut to a word. -/
theorem toNat_divQ3232 (numer : UInt64) (hzero : denom ≠ 0) (hdenom : denom.toNat ≤ 2 ^ 63) :
    (divQ3232 numer denom).toNat = numer.toNat * 2 ^ 32 / denom.toNat % 2 ^ 64 := by
  have hpos : 0 < denom.toNat := by
    rcases Nat.eq_zero_or_pos denom.toNat with hno | hpos
    · exact absurd (UInt64.toNat_inj.mp hno) hzero
    · exact hpos
  have hrem : (numer % denom).toNat < denom.toNat := by
    rw [UInt64.toNat_mod]
    exact Nat.mod_lt _ hpos
  have hfrac : ((divStep denom)^[32] (numer % denom, 0)).2.toNat =
      numer.toNat % denom.toNat * 2 ^ 32 / denom.toNat := by
    have h := (Prod.mk.inj (divStep_iterate hdenom hrem 32 le_rfl).1).2
    rwa [UInt64.toNat_mod] at h
  have hlt : numer.toNat % denom.toNat * 2 ^ 32 / denom.toNat < 2 ^ 32 := by
    rw [Nat.div_lt_iff_lt_mul hpos, Nat.mul_comm]
    exact Nat.mul_lt_mul_of_pos_left (Nat.mod_lt _ hpos) (by norm_num)
  -- the whole part needs no loop; what the loop develops is less than one
  have hsplit : numer.toNat * 2 ^ 32 / denom.toNat =
      numer.toNat / denom.toNat * 2 ^ 32 + numer.toNat % denom.toNat * 2 ^ 32 / denom.toNat := by
    conv_lhs => rw [← Nat.div_add_mod numer.toNat denom.toNat]
    rw [Nat.add_mul, Nat.mul_assoc, Nat.mul_add_div hpos]
  unfold divQ3232
  rw [if_neg hzero]
  dsimp only
  rw [toNat_join (by rw [toNat_mask]; exact Nat.mod_lt _ (by norm_num)), toNat_mask, hfrac,
    Nat.mod_eq_of_lt hlt, UInt64.toNat_div, hsplit]

end Quotients

theorem toUnsignedAbs_ne_zero {b : Fixed} (hb : b ≠ 0) : toUnsignedAbs b ≠ 0 := by
  intro hzero
  have habs := congrArg UInt64.toNat hzero
  rw [toNat_toUnsignedAbs, UInt64.toNat_zero] at habs
  exact hb (Int64.toInt_inj.mp (Int.natAbs_eq_zero.mp habs))

/-- The words give what `Fixed.div` says. -/
theorem divShiftLeft32_eq (a : Fixed) {b : Fixed} (hb : b ≠ 0) : divShiftLeft32 a b = div a b := by
  have hwords := toNat_divQ3232 (toUnsignedAbs a) (toUnsignedAbs_ne_zero hb)
    (toNat_toUnsignedAbs_le b)
  rw [toNat_toUnsignedAbs, toNat_toUnsignedAbs] at hwords
  exact signed_eq a b hwords

/-! ## What fits is exact -/

/-- A magnitude that fits, with its sign. -/
theorem toInt_withSign {a b : Fixed} {magnitude : ℕ} (h : magnitude < 2 ^ 63) :
    (withSign a b magnitude).toInt =
      if a.toInt < 0 ↔ b.toInt < 0 then (magnitude : ℤ) else -magnitude := by
  have hsign : ∀ x : Fixed, x < 0 ↔ x.toInt < 0 := fun x => Int64.lt_iff_toInt_lt
  unfold withSign
  simp only [hsign]
  split_ifs
  · exact Int64.toInt_ofInt_of_le (by omega) (by omega)
  · exact Int64.toInt_ofInt_of_le (by omega) (by omega)

/-- A quotient that is cut off towards zero, from the magnitudes. -/
theorem tdiv_eq (x y : ℤ) :
    x.tdiv y =
      if x < 0 ↔ y < 0 then ((x.natAbs / y.natAbs : ℕ) : ℤ) else -((x.natAbs / y.natAbs : ℕ) : ℤ) := by
  rcases lt_or_ge x 0 with hx | hx
  · have hxabs : x = -(x.natAbs : ℤ) := by omega
    rcases lt_or_ge y 0 with hy | hy
    · have hyabs : y = -(y.natAbs : ℤ) := by omega
      rw [if_pos (iff_of_true hx hy), Int.ofNat_tdiv]
      conv_lhs => rw [hxabs, hyabs, Int.neg_tdiv, Int.tdiv_neg, neg_neg]
    · have hyabs : y = (y.natAbs : ℤ) := by omega
      rw [if_neg (fun h => not_lt.mpr hy (h.mp hx)), Int.ofNat_tdiv]
      conv_lhs => rw [hxabs, hyabs, Int.neg_tdiv]
  · have hxabs : x = (x.natAbs : ℤ) := by omega
    rcases lt_or_ge y 0 with hy | hy
    · have hyabs : y = -(y.natAbs : ℤ) := by omega
      rw [if_neg (fun h => not_lt.mpr hx (h.mpr hy)), Int.ofNat_tdiv]
      conv_lhs => rw [hxabs, hyabs, Int.tdiv_neg]
    · have hyabs : y = (y.natAbs : ℤ) := by omega
      rw [if_pos (iff_of_false (not_lt.mpr hx) (not_lt.mpr hy)), Int.ofNat_tdiv]
      conv_lhs => rw [hxabs, hyabs]

theorem mul_neg_iff_of_ne {x y : ℤ} (hx : x ≠ 0) (hy : y ≠ 0) : x * y < 0 ↔ ¬(x < 0 ↔ y < 0) := by
  rw [mul_neg_iff]
  omega

/-- A product that fits is exact. -/
theorem toInt_opMul {a b : Fixed} (h : ((a.toInt * b.toInt).tdiv (2 ^ 32)).natAbs < 2 ^ 63) :
    (opMul a b).toInt = (a.toInt * b.toInt).tdiv (2 ^ 32) := by
  have hmagnitude : (a.toInt * b.toInt).natAbs / (2 ^ 32 : ℤ).natAbs =
      a.toInt.natAbs * b.toInt.natAbs / 2 ^ fractionBits := by
    rw [Int.natAbs_mul]
    rfl
  rw [tdiv_eq, hmagnitude] at h ⊢
  have hfits : a.toInt.natAbs * b.toInt.natAbs / 2 ^ fractionBits < 2 ^ 63 := by
    split_ifs at h <;> omega
  unfold opMul
  rw [mulShiftRight32_eq, mul, toInt_withSign hfits]
  -- the signs of the factors say nothing about a product that is zero
  by_cases hzero : a.toInt = 0 ∨ b.toInt = 0
  · have hmul : a.toInt.natAbs * b.toInt.natAbs / 2 ^ fractionBits = 0 := by
      rcases hzero with hzero | hzero <;> simp [hzero]
    simp [hmul]
  · rw [not_or] at hzero
    have hpos : ¬ (2 ^ 32 : ℤ) < 0 := by norm_num
    have hsign := mul_neg_iff_of_ne hzero.1 hzero.2
    by_cases hsame : a.toInt < 0 ↔ b.toInt < 0
    · rw [if_pos hsame, if_pos (iff_of_false (fun hneg => hsign.mp hneg hsame) hpos)]
    · rw [if_neg hsame, if_neg (fun hiff => hpos (hiff.mp (hsign.mpr hsame)))]

/-- A quotient that fits is exact. -/
theorem toInt_divShiftLeft32 {a b : Fixed} (hb : b ≠ 0)
    (h : ((a.toInt * 2 ^ 32).tdiv b.toInt).natAbs < 2 ^ 63) :
    (divShiftLeft32 a b).toInt = (a.toInt * 2 ^ 32).tdiv b.toInt := by
  have hmagnitude : (a.toInt * 2 ^ 32).natAbs / b.toInt.natAbs =
      a.toInt.natAbs * 2 ^ fractionBits / b.toInt.natAbs := by
    rw [Int.natAbs_mul]
    rfl
  have hsign : a.toInt * 2 ^ 32 < 0 ↔ a.toInt < 0 := by omega
  rw [tdiv_eq, hmagnitude] at h ⊢
  have hfits : a.toInt.natAbs * 2 ^ fractionBits / b.toInt.natAbs < 2 ^ 63 := by
    split_ifs at h <;> omega
  rw [divShiftLeft32_eq a hb, div, toInt_withSign hfits]
  simp only [hsign]

/-- The operators are exact where the result fits into 63 bits, and what they compute on the way
is what it would be without a bound: the words of a product, the magnitudes, and the remainder and
the bits of a quotient before each pass. -/
theorem arithmetic_exact (a b : Fixed) :
    (((a.toInt * b.toInt).tdiv (2 ^ 32)).natAbs < 2 ^ 63 →
      (opMul a b).toInt = (a.toInt * b.toInt).tdiv (2 ^ 32)) ∧
    (b ≠ 0 → ((a.toInt * 2 ^ 32).tdiv b.toInt).natAbs < 2 ^ 63 →
      (opDiv a b).map Int64.toInt = some ((a.toInt * 2 ^ 32).tdiv b.toInt)) ∧
    (toUnsignedAbs a).toNat = a.toInt.natAbs ∧ (toUnsignedAbs b).toNat = b.toInt.natAbs ∧
    (mulWords (toUnsignedAbs a) (toUnsignedAbs b)).Exact (toUnsignedAbs a) (toUnsignedAbs b) ∧
    (b ≠ 0 → ∀ i ≤ 32,
      DivFits ((divStep (toUnsignedAbs b))^[i] (toUnsignedAbs a % toUnsignedAbs b, 0))) := by
  refine ⟨toInt_opMul, ?_, toNat_toUnsignedAbs a, toNat_toUnsignedAbs b,
    exact_mulWords (toNat_toUnsignedAbs_le a) (toNat_toUnsignedAbs_le b), ?_⟩
  · intro hb hfits
    unfold opDiv
    rw [if_neg hb, Option.map_some, toInt_divShiftLeft32 hb hfits]
  · intro hb i hi
    have hpos : (toUnsignedAbs b).toNat ≠ 0 := by
      intro hzero
      exact toUnsignedAbs_ne_zero hb (UInt64.toNat_inj.mp hzero)
    have hrem : (toUnsignedAbs a % toUnsignedAbs b).toNat < (toUnsignedAbs b).toNat := by
      rw [UInt64.toNat_mod]
      exact Nat.mod_lt _ (Nat.pos_of_ne_zero hpos)
    exact (divStep_iterate (toNat_toUnsignedAbs_le b) hrem i hi).2

/-- The least number, times a half and divided by minus two. -/
theorem arithmetic_exact_least :
    (opMul Int64.minValue 0x80000000).toInt = -2 ^ 62 ∧
    (opDiv Int64.minValue (fromInt (-2))).map Int64.toInt = some (2 ^ 62) :=
  ⟨(arithmetic_exact Int64.minValue 0x80000000).1 (by decide),
    (arithmetic_exact Int64.minValue (fromInt (-2))).2.1 (by decide) (by decide)⟩

/-! ## Square roots -/

/-- The loop of `fixed_sqrt`, on words. -/
def newtonLoop (n : UInt64) : ℕ → UInt64 → UInt64
  | 0, guess => guess
  | passes + 1, guess =>
    if guess = 0 then guess
    else
      let q := n / guess
      let ng := (guess + q) / 2
      if guess ≤ ng then guess else newtonLoop n passes ng

/-- The guesses at which it adds. -/
def newtonGuesses (n : UInt64) : ℕ → UInt64 → List UInt64
  | 0, _ => []
  | passes + 1, guess =>
    if guess = 0 then []
    else
      let ng := (guess + n / guess) / 2
      guess :: (if guess ≤ ng then [] else newtonGuesses n passes ng)

/-- `fixed_sqrt`. -/
def fixedSqrt (x : Fixed) : Fixed :=
  if x ≤ 0 then fromInt 0
  else
    let n := x.toUInt64
    (newtonLoop n 40 n).toInt64 <<< 16

section Roots

variable {n guess : UInt64}

/-- The sum at a guess below 2 ^ 63 does not wrap. -/
theorem toNat_add_quotient (hn : n.toNat < 2 ^ 63) (hguess : guess.toNat < 2 ^ 63) :
    (guess + n / guess).toNat = guess.toNat + n.toNat / guess.toNat ∧
      guess.toNat + n.toNat / guess.toNat < 2 ^ 64 := by
  have hdiv : n.toNat / guess.toNat ≤ n.toNat := Nat.div_le_self _ _
  rw [UInt64.toNat_add, UInt64.toNat_div]
  generalize n.toNat / guess.toNat = q at *
  omega

theorem toNat_ng (hn : n.toNat < 2 ^ 63) (hguess : guess.toNat < 2 ^ 63) :
    ((guess + n / guess) / 2).toNat = (guess.toNat + n.toNat / guess.toNat) / 2 ∧
      ((guess + n / guess) / 2).toNat < 2 ^ 63 := by
  rcases toNat_add_quotient hn hguess with ⟨hsum, hlt⟩
  have hhalf : ((guess + n / guess) / 2).toNat = (guess.toNat + n.toNat / guess.toNat) / 2 := by
    rw [UInt64.toNat_div, hsum]
    rfl
  exact ⟨hhalf, by omega⟩

/-- The loop on words is the loop on numbers. -/
theorem toNat_newtonLoop (hn : n.toNat < 2 ^ 63) : ∀ passes guess, guess.toNat < 2 ^ 63 →
    (newtonLoop n passes guess).toNat = newtonSqrt n.toNat passes guess.toNat
  | 0, _, _ => rfl
  | passes + 1, guess, hguess => by
    rcases toNat_ng hn hguess with ⟨hng, hlt⟩
    have hzero : guess = 0 ↔ guess.toNat = 0 := by
      rw [← UInt64.toNat_inj]
      rfl
    unfold newtonLoop newtonSqrt
    dsimp only
    simp only [hzero, UInt64.le_iff_toNat_le, hng]
    split_ifs
    · rfl
    · rfl
    · rw [toNat_newtonLoop hn passes _ hlt, hng]

/-- No sum of the loop wraps. -/
theorem lt_of_mem_newtonGuesses (hn : n.toNat < 2 ^ 63) : ∀ passes guess, guess.toNat < 2 ^ 63 →
    ∀ g ∈ newtonGuesses n passes guess, g.toNat + (n / g).toNat < 2 ^ 64
  | 0, _, _, g, hg => by cases hg
  | passes + 1, guess, hguess, g, hg => by
    unfold newtonGuesses at hg
    split_ifs at hg with hzero
    · cases hg
    · rcases List.mem_cons.mp hg with rfl | hrest
      · rw [UInt64.toNat_div]
        exact (toNat_add_quotient hn hguess).2
      · split_ifs at hrest
        · cases hrest
        · exact lt_of_mem_newtonGuesses hn passes _ (toNat_ng hn hguess).2 g hrest

/-- The root with sixteen bits behind it. -/
theorem toInt_shiftLeft (hguess : guess.toNat < 2 ^ 32) :
    (guess.toInt64 <<< 16).toInt = (guess.toNat * 2 ^ 16 : ℕ) := by
  have hshift : guess.toInt64 <<< 16 = (guess <<< 16).toInt64 := rfl
  have hword : guess <<< 16 = UInt64.ofNat (guess.toNat * 2 ^ 16) := by
    apply UInt64.toNat_inj.mp
    rw [UInt64.toNat_shiftLeft, UInt64.toNat_ofNat']
    change guess.toNat <<< 16 % 2 ^ 64 = _
    rw [Nat.shiftLeft_eq]
  rw [hshift, hword, UInt64.toInt64_ofNat', Int64.toInt_ofNat_of_lt (by omega)]

end Roots

/-- The word of a positive number. -/
theorem toNat_of_pos {x : Fixed} (hx : 0 < x) :
    x.toUInt64.toNat = x.toInt.toNat ∧ 0 < x.toInt.toNat ∧ x.toInt.toNat < 2 ^ 63 := by
  have hpos : 0 < x.toInt := Int64.lt_iff_toInt_lt.mp hx
  have hword := toNat_toUInt64 hpos.le
  have hlt := x.toInt_lt
  omega

/-- So many passes or more get to the root. -/
theorem toNat_newtonLoop_of_le {x : Fixed} (hx : 0 < x) {passes : ℕ} (hpasses : 40 ≤ passes) :
    (newtonLoop x.toUInt64 passes x.toUInt64).toNat = x.toInt.toNat.sqrt := by
  rcases toNat_of_pos hx with ⟨hword, hpos, hlt⟩
  have hn : x.toUInt64.toNat < 2 ^ 63 := by rwa [hword]
  rw [toNat_newtonLoop hn passes _ hn, hword]
  exact newtonSqrt_of_le hpos hlt hpasses

theorem toInt_fixedSqrt {x : Fixed} (hx : 0 < x) :
    (fixedSqrt x).toInt = (x.toInt.toNat.sqrt * 2 ^ 16 : ℕ) := by
  have hlt := (toNat_of_pos hx).2.2
  have hroot : x.toInt.toNat.sqrt < 2 ^ 32 := Nat.sqrt_lt.mpr (by omega)
  have hloop := toNat_newtonLoop_of_le hx le_rfl
  unfold fixedSqrt
  rw [if_neg (Int64.not_le.mpr hx)]
  dsimp only
  rw [toInt_shiftLeft (by rwa [hloop]), hloop]

/-- The words give what `Fixed.sqrt` says. -/
theorem fixedSqrt_eq (x : Fixed) : fixedSqrt x = sqrt x := by
  apply Int64.toInt_inj.mp
  rw [toInt_sqrt]
  by_cases hneg : x ≤ 0
  · have hle : x.toInt ≤ 0 := Int64.le_iff_toInt_le.mp hneg
    unfold fixedSqrt
    rw [if_pos hneg, Int.toNat_of_nonpos hle]
    rfl
  · exact toInt_fixedSqrt (Int64.not_le.mp hneg)

/-- The square root of a positive number is the whole root of its raw value, with sixteen bits
behind it; more passes of the loop would not change it, and no sum of the loop wraps. -/
theorem fixedSqrt_exact {x : Fixed} (hx : 0 < x) :
    (fixedSqrt x).toInt = (x.toInt.toNat.sqrt * 2 ^ 16 : ℕ) ∧
    (∀ passes ≥ 40, newtonLoop x.toUInt64 passes x.toUInt64 = newtonLoop x.toUInt64 40 x.toUInt64) ∧
    ∀ guess ∈ newtonGuesses x.toUInt64 40 x.toUInt64,
      guess.toNat + (x.toUInt64 / guess).toNat < 2 ^ 64 := by
  rcases toNat_of_pos hx with ⟨hword, _, hlt⟩
  have hn : x.toUInt64.toNat < 2 ^ 63 := by rwa [hword]
  refine ⟨toInt_fixedSqrt hx, ?_, lt_of_mem_newtonGuesses hn 40 _ hn⟩
  intro passes hpasses
  apply UInt64.toNat_inj.mp
  rw [toNat_newtonLoop_of_le hx hpasses, toNat_newtonLoop_of_le hx le_rfl]

/-- The greatest number. -/
theorem fixedSqrt_exact_greatest : (fixedSqrt Int64.maxValue).toInt = 3037000499 * 2 ^ 16 := by
  have h := (fixedSqrt_exact (x := Int64.maxValue) (by decide)).1
  have hroot : Int64.maxValue.toInt.toNat.sqrt = 3037000499 := (Nat.eq_sqrt.mpr (by decide)).symm
  rw [h, hroot]
  rfl

end Fixed

end Gmaker.Realtime
