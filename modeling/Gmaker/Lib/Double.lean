import Mathlib

/-!
# Gmaker.Lib.Double — whole numbers as floating-point numbers

A whole number becomes the nearest one that has so many significant bits, and of two that are
equally near the one with an even last bit. What has few enough bits stays as it is
(`roundBits_eq_self_iff`), and what was rounded once stays as it is from then on.
-/

namespace Gmaker.Lib

/-- So many significant bits are enough. -/
def Representable (p n : ℕ) : Prop := ∃ m k, m < 2 ^ p ∧ n = m * 2 ^ k

/-- How many low bits do not fit. -/
def excess (p n : ℕ) : ℕ := n.size - p

/-- The nearest number with `p` significant bits, ties to even. -/
def roundBits (p n : ℕ) : ℕ :=
  let unit := 2 ^ excess p n
  let q := n / unit
  let r := n % unit
  (if 2 * r < unit ∨ 2 * r = unit ∧ q % 2 = 0 then q else q + 1) * unit

variable {p n : ℕ}

/-- What is kept of the number has no more than `p` bits. -/
theorem div_excess_lt (p n : ℕ) : n / 2 ^ excess p n < 2 ^ p := by
  rw [Nat.div_lt_iff_lt_mul (by positivity), ← pow_add]
  refine Nat.size_le.mp ?_
  unfold excess
  omega

theorem roundBits_cases (p n : ℕ) :
    roundBits p n = n / 2 ^ excess p n * 2 ^ excess p n ∨
      roundBits p n = (n / 2 ^ excess p n + 1) * 2 ^ excess p n ∧ n % 2 ^ excess p n ≠ 0 := by
  unfold roundBits
  dsimp only
  split_ifs with h
  · exact .inl rfl
  · refine .inr ⟨rfl, fun hzero => h (.inl ?_)⟩
    rw [hzero]
    positivity

/-- A rounded number has few enough bits. -/
theorem representable_roundBits (hp : 0 < p) (n : ℕ) : Representable p (roundBits p n) := by
  have hlt := div_excess_lt p n
  rcases roundBits_cases p n with h | ⟨h, -⟩
  · exact ⟨_, _, hlt, h⟩
  · rcases Nat.lt_or_ge (n / 2 ^ excess p n + 1) (2 ^ p) with hfit | hover
    · exact ⟨_, _, hfit, h⟩
    · -- the carry goes through all bits
      have hcarry : n / 2 ^ excess p n + 1 = 2 ^ p := by omega
      refine ⟨1, p + excess p n, Nat.one_lt_two_pow hp.ne', ?_⟩
      rw [h, hcarry, one_mul, pow_add]

/-- What has few enough bits is not cut into. -/
theorem mod_excess_of_representable (h : Representable p n) : n % 2 ^ excess p n = 0 := by
  obtain ⟨m, k, hm, rfl⟩ := h
  rcases Nat.lt_or_ge k (excess p (m * 2 ^ k)) with hlt | hle
  · -- the number has `p` bits and `k` zeros at most
    have hsize : (m * 2 ^ k).size ≤ p + k := by
      rw [Nat.size_le, pow_add]
      exact Nat.mul_lt_mul_of_pos_right hm (by positivity)
    unfold excess at hlt
    omega
  · exact Nat.mod_eq_zero_of_dvd ((pow_dvd_pow 2 hle).mul_left m)

theorem roundBits_of_representable (h : Representable p n) : roundBits p n = n := by
  have hmod := mod_excess_of_representable h
  rcases roundBits_cases p n with heq | ⟨-, hne⟩
  · rw [heq, Nat.div_mul_cancel (Nat.dvd_of_mod_eq_zero hmod)]
  · exact absurd hmod hne

/-- Exactly the numbers with few enough bits are kept. -/
theorem roundBits_eq_self_iff (hp : 0 < p) : roundBits p n = n ↔ Representable p n := by
  refine ⟨fun h => ?_, roundBits_of_representable⟩
  rw [← h]
  exact representable_roundBits hp n

instance (p n : ℕ) : Decidable (Representable (p + 1) n) :=
  decidable_of_iff _ (roundBits_eq_self_iff p.succ_pos)

end Gmaker.Lib
