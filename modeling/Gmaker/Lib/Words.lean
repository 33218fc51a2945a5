import Mathlib

/-!
# Gmaker.Lib.Words — products and quotients, a piece at a time

What one word cannot hold is computed from pieces: a product from the products of the digits, with
the carries gathered digit by digit (`product_div`), a quotient by shifting and subtracting, a bit
in each step (`longStep_iterate`). The numbers are naturals here; that a piece fits into a word is
for the user to say. Words that have a sign stand last.
-/

namespace Gmaker.Lib

/-! ## Products -/

section Product

variable (β aLo aHi bLo bHi : ℕ)

/-- What comes together at the second digit of a product of two digits each. -/
def midSum : ℕ := aLo * bLo / β + aLo * bHi % β + aHi * bLo % β

/-- What comes together above it. -/
def highSum : ℕ :=
  aHi * bHi + aLo * bHi / β + aHi * bLo / β + midSum β aLo aHi bLo bHi / β

variable {β}

/-- The product without its lowest digit. -/
theorem product_div (hβ : 0 < β) :
    (aHi * β + aLo) * (bHi * β + bLo) / β =
      highSum β aLo aHi bLo bHi * β + midSum β aLo aHi bLo bHi % β := by
  have hproduct : (aHi * β + aLo) * (bHi * β + bLo) =
      β * (aHi * bHi * β + aLo * bHi + aHi * bLo) + aLo * bLo := by ring
  have hlh : aLo * bHi = β * (aLo * bHi / β) + aLo * bHi % β := (Nat.div_add_mod _ _).symm
  have hhl : aHi * bLo = β * (aHi * bLo / β) + aHi * bLo % β := (Nat.div_add_mod _ _).symm
  have hmid : β * (midSum β aLo aHi bLo bHi / β) + midSum β aLo aHi bLo bHi % β =
      aLo * bLo / β + aLo * bHi % β + aHi * bLo % β := Nat.div_add_mod _ _
  rw [hproduct, Nat.mul_add_div hβ]
  calc aHi * bHi * β + aLo * bHi + aHi * bLo + aLo * bLo / β
      = aHi * bHi * β + (β * (aLo * bHi / β) + aLo * bHi % β) +
          (β * (aHi * bLo / β) + aHi * bLo % β) + aLo * bLo / β := by rw [← hlh, ← hhl]
    _ = (aHi * bHi + aLo * bHi / β + aHi * bLo / β) * β +
          (aLo * bLo / β + aLo * bHi % β + aHi * bLo % β) := by ring
    _ = highSum β aLo aHi bLo bHi * β + midSum β aLo aHi bLo bHi % β := by
      rw [← hmid, highSum]
      ring

end Product

/-! ## Quotients -/

/-- One step of the division by `d`: the remainder and the quotient so far. -/
def longStep (d : ℕ) (s : ℕ × ℕ) : ℕ × ℕ :=
  if d ≤ 2 * s.1 then (2 * s.1 - d, 2 * s.2 + 1) else (2 * s.1, 2 * s.2)

/-- So many steps give so many more bits of the quotient. -/
theorem longStep_iterate {d r : ℕ} (hr : r < d) (k : ℕ) :
    (longStep d)^[k] (r, 0) = (r * 2 ^ k % d, r * 2 ^ k / d) := by
  have hd : 0 < d := Nat.zero_lt_of_lt hr
  induction k with
  | zero =>
    rw [Function.iterate_zero, id_eq, pow_zero, mul_one, Nat.mod_eq_of_lt hr, Nat.div_eq_of_lt hr]
  | succ k ih =>
    rw [Function.iterate_succ_apply', ih]
    have hold : r * 2 ^ k = d * (r * 2 ^ k / d) + r * 2 ^ k % d := (Nat.div_add_mod _ _).symm
    have hlt : r * 2 ^ k % d < d := Nat.mod_lt _ hd
    have hpow : r * 2 ^ (k + 1) = 2 * (r * 2 ^ k) := by ring
    rw [hpow]
    generalize r * 2 ^ k % d = rem at *
    generalize r * 2 ^ k / d = q at *
    unfold longStep
    dsimp only
    split_ifs with hle
    · -- the divisor goes into the doubled remainder once
      have hnew : 2 * (r * 2 ^ k) = (2 * rem - d) + d * (2 * q + 1) := by
        rw [hold, Nat.mul_add, Nat.mul_add, Nat.mul_one, Nat.mul_left_comm]
        omega
      rw [hnew, Nat.add_mul_mod_self_left, Nat.add_mul_div_left _ _ hd, Nat.mod_eq_of_lt (by omega),
        Nat.div_eq_of_lt (by omega), Nat.zero_add]
    · have hnew : 2 * (r * 2 ^ k) = 2 * rem + d * (2 * q) := by
        rw [hold, Nat.mul_add, Nat.mul_left_comm]
        omega
      rw [hnew, Nat.add_mul_mod_self_left, Nat.add_mul_div_left _ _ hd, Nat.mod_eq_of_lt (by omega),
        Nat.div_eq_of_lt (by omega), Nat.zero_add]

/-! ## Signs -/

section Signs

variable {h : Int64}

theorem toInt_toInt64_of_lt {x : UInt64} (hx : x.toNat < 2 ^ 63) : x.toInt64.toInt = x.toNat := by
  have hword : x.toInt64 = Int64.ofNat x.toNat := by
    rw [← UInt64.toInt64_ofNat', UInt64.ofNat_toNat]
  rw [hword]
  exact Int64.toInt_ofNat_of_lt hx

/-- The number whose word is the least of those with a sign. -/
theorem ofNat_eq_minValue_iff (n : ℕ) : Int64.ofNat n = Int64.minValue ↔ n % 2 ^ 64 = 2 ^ 63 := by
  have hinj : Function.Injective Int64.toUInt64 :=
    Function.LeftInverse.injective (g := UInt64.toInt64) fun _ => rfl
  rw [← hinj.eq_iff, ← UInt64.toNat_inj, Int64.toUInt64_ofNat', UInt64.toNat_ofNat']
  rfl

/-- The sign can be taken from any word but the least, which is its own negative. -/
theorem toInt_unsigned (hmin : h ≠ Int64.minValue) :
    (if h < 0 then -h else h).toInt = h.toInt.natAbs := by
  have hlow := h.le_toInt
  have hne : h.toInt ≠ -2 ^ 63 := fun heq => hmin (Int64.toInt_inj.mp heq)
  split_ifs with hneg
  · have hlt : h.toInt < 0 := Int64.lt_iff_toInt_lt.mp hneg
    have hfits : (-h.toInt).bmod (2 ^ 64) = -h.toInt := Int.bmod_eq_of_le (by omega) (by omega)
    rw [Int64.toInt_neg, hfits]
    omega
  · have hle : 0 ≤ h.toInt := not_lt.mp fun hlt => hneg (Int64.lt_iff_toInt_lt.mpr hlt)
    omega

end Signs

end Gmaker.Lib
