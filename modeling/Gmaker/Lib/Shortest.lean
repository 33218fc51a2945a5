import Gmaker.Lib.Double

/-!
# Gmaker.Lib.Shortest — whole numbers written from floating point

A whole floating-point number is written with as few significant digits as tell it from the
others, and with zeros after them. A whole number that goes through a double and is written
again is the same below 2^53 (`echo_of_small`).
-/

namespace Gmaker.Lib

/-- The nearest multiple of a unit, of two that are equally near the even one. -/
def roundTo (unit n : ℕ) : ℕ :=
  let q := n / unit
  let r := n % unit
  (if 2 * r < unit ∨ 2 * r = unit ∧ q % 2 = 0 then q else q + 1) * unit

/-- The number with the most zeros, `e` at most, that is read as the double `m`. -/
def shortestFrom (m : ℕ) : ℕ → ℕ
  | 0 => m
  | e + 1 =>
    if roundBits 53 (roundTo (10 ^ (e + 1)) m) = m then roundTo (10 ^ (e + 1)) m
    else shortestFrom m e

/-- What is written for a whole double below 10^21. -/
def shortest (m : ℕ) : ℕ := shortestFrom m 20

/-- A whole number, read as a double and written again. -/
def echo (z : ℤ) : ℤ :=
  if 0 ≤ z then shortest (roundBits 53 z.natAbs) else -shortest (roundBits 53 z.natAbs)

/-- What is written is read as the double again. -/
theorem roundBits_shortestFrom {m : ℕ} (hm : roundBits 53 m = m) (e : ℕ) :
    roundBits 53 (shortestFrom m e) = m := by
  induction e with
  | zero => exact hm
  | succ e ih =>
    rw [shortestFrom]
    split_ifs with h
    · exact h
    · exact ih

/-- From 2^53 on no number is rounded below it. -/
theorem le_roundBits {c : ℕ} (hc : 2 ^ 53 ≤ c) : 2 ^ 53 ≤ roundBits 53 c := by
  have hsize : 53 < c.size := Nat.lt_size.mpr hc
  -- what is kept of the number has its highest bit set
  have hkept : 2 ^ 52 ≤ c / 2 ^ excess 53 c := by
    rw [Nat.le_div_iff_mul_le (by positivity), ← pow_add]
    refine Nat.lt_size.mp ?_
    unfold excess
    omega
  have hunit : 2 ≤ 2 ^ excess 53 c := by
    have hpos : excess 53 c ≠ 0 := by
      unfold excess
      omega
    exact Nat.le_self_pow hpos 2
  have hlow : 2 ^ 53 ≤ c / 2 ^ excess 53 c * 2 ^ excess 53 c :=
    calc 2 ^ 53 = 2 ^ 52 * 2 := by norm_num
      _ ≤ c / 2 ^ excess 53 c * 2 ^ excess 53 c := Nat.mul_le_mul hkept hunit
  rcases roundBits_cases 53 c with h | ⟨h, -⟩
  · rwa [h]
  · rw [h]
    exact hlow.trans (Nat.mul_le_mul_right _ (Nat.le_succ _))

theorem roundBits_of_lt {n : ℕ} (hn : n < 2 ^ 53) : roundBits 53 n = n :=
  roundBits_of_representable ⟨n, 0, hn, by simp⟩

/-- Below 2^53 different numbers are different doubles, so all digits are written. -/
theorem shortest_of_lt {n : ℕ} (hn : n < 2 ^ 53) : shortest n = n := by
  have hread : roundBits 53 (shortest n) = n :=
    roundBits_shortestFrom (roundBits_of_lt hn) 20
  rcases Nat.lt_or_ge (shortest n) (2 ^ 53) with hlt | hge
  · rwa [roundBits_of_lt hlt] at hread
  · have := le_roundBits hge
    omega

theorem echo_of_small {z : ℤ} (hz : z.natAbs < 2 ^ 53) : echo z = z := by
  unfold echo
  rw [roundBits_of_lt hz, shortest_of_lt hz]
  split_ifs <;> omega

example : echo (2 ^ 60) = 1152921504606847000 := by decide

end Gmaker.Lib
