import Mathlib

/-!
# Gmaker.Lib.Newton — whole square roots by Newton's method

The loop starts above the root and takes the mean of the guess and of what the number divided by
it gives, until the guess no longer falls. How many steps it needs is told backwards, from the
root: a guess is good for a number of steps if it is no further above the root than so much. One
more step bears twice the distance, and near the root as much as its square; forty steps are
enough for numbers of 63 bits (`newtonSqrt_eq`).
-/

namespace Gmaker.Lib

/-- The guess falls until it no longer does, and so many times at most. -/
def newtonSqrt (n : ℕ) : ℕ → ℕ → ℕ
  | 0, guess => guess
  | fuel + 1, guess =>
    if guess = 0 then guess
    else
      let next := (guess + n / guess) / 2
      if guess ≤ next then guess else newtonSqrt n fuel next

/-- From `d` above the root the loop gets to it in so many steps. -/
def Reaches (n fuel d : ℕ) : Prop :=
  ∀ guess, n.sqrt ≤ guess → guess ≤ n.sqrt + d → newtonSqrt n fuel guess = n.sqrt

variable {n fuel d d' guess : ℕ}

/-- The guess does not fall below the root. -/
theorem sqrt_le_next (hguess : 0 < guess) : n.sqrt ≤ (guess + n / guess) / 2 := by
  have hroot : n.sqrt * n.sqrt ≤ n := Nat.sqrt_le n
  have hdiv : 2 * n.sqrt - guess ≤ n / guess := by
    rw [Nat.le_div_iff_mul_le hguess]
    rcases le_or_gt (2 * n.sqrt) guess with hfar | hnear
    · rw [Nat.sub_eq_zero_of_le hfar, Nat.zero_mul]
      exact Nat.zero_le n
    · refine le_trans ?_ hroot
      zify [hnear.le]
      nlinarith [sq_nonneg ((n.sqrt : ℤ) - guess)]
  omega

/-- The loop stays at the root. -/
theorem newtonSqrt_sqrt (hn : 0 < n) : ∀ fuel, newtonSqrt n fuel n.sqrt = n.sqrt
  | 0 => rfl
  | fuel + 1 => by
    have hpos : 0 < n.sqrt := Nat.sqrt_pos.mpr hn
    unfold newtonSqrt
    rw [if_neg hpos.ne']
    exact if_pos (sqrt_le_next hpos)

theorem reaches_zero : Reaches n 0 0 := fun _ hle hge => le_antisymm hge hle

theorem Reaches.mono (h : Reaches n fuel d) (hle : d' ≤ d) : Reaches n fuel d' :=
  fun guess hge hup => h guess hge (hup.trans (Nat.add_le_add_left hle _))

/-- One step from `e` above the root leads to `d` above it at most. -/
theorem next_le {e : ℕ} (he : e * e < 2 * d * (n.sqrt + e) + 2 * e) (hpos : 0 < e) :
    (n.sqrt + e + n / (n.sqrt + e)) / 2 ≤ n.sqrt + d := by
  have hn : n < (n.sqrt + 1) * (n.sqrt + 1) := Nat.lt_succ_sqrt n
  have hfar : e ≤ n.sqrt + 2 * d + 1 := by
    by_contra hno
    nlinarith
  have hdiv : n / (n.sqrt + e) < n.sqrt + 2 * d + 2 - e := by
    rw [Nat.div_lt_iff_lt_mul (by omega)]
    zify [(by omega : e ≤ n.sqrt + 2 * d + 2)] at *
    nlinarith
  omega

/-- One more step bears the distances from which it leads as near as before. -/
theorem Reaches.step (hn : 0 < n) (h : Reaches n fuel d)
    (hd : ∀ e, 0 < e → e ≤ d' → e * e < 2 * d * (n.sqrt + e) + 2 * e) :
    Reaches n (fuel + 1) d' := by
  intro guess hge hup
  rcases Nat.eq_or_lt_of_le hge with heq | hgt
  · rw [← heq]
    exact newtonSqrt_sqrt hn (fuel + 1)
  · have hguess : 0 < guess := by omega
    have hnext : (guess + n / guess) / 2 ≤ n.sqrt + d := by
      have he := next_le (hd (guess - n.sqrt) (by omega) (by omega)) (by omega)
      rwa [Nat.add_sub_cancel' hge] at he
    unfold newtonSqrt
    rw [if_neg hguess.ne']
    dsimp only
    split_ifs with hstop
    · -- a guess above the root falls
      exfalso
      have hdiv : n / guess < n.sqrt + 1 := by
        rw [Nat.div_lt_iff_lt_mul hguess]
        exact (Nat.lt_succ_sqrt n).trans_le (Nat.mul_le_mul_left _ hgt)
      omega
    · exact h _ (sqrt_le_next hguess) hnext

/-- Far from the root the distance is halved. -/
theorem Reaches.double (hn : 0 < n) (h : Reaches n fuel d) : Reaches n (fuel + 1) (2 * d + 1) := by
  refine h.step hn fun e hpos he => ?_
  nlinarith [Nat.mul_le_mul_right e he]

/-- Near the root it falls as its square. -/
theorem Reaches.square (hn : 0 < n) (h : Reaches n fuel d) {a : ℕ} (ha : 0 < a)
    (hd : n.sqrt ≤ 2 * (a * a) * d) : Reaches n (fuel + 1) (n.sqrt / a) := by
  refine h.step hn fun e hpos he => ?_
  have hle : e * a ≤ n.sqrt := (Nat.le_div_iff_mul_le ha).mp he
  have hcancel : e * e * (a * a) ≤ 2 * d * n.sqrt * (a * a) := by
    calc e * e * (a * a) = (e * a) * (e * a) := by ring
      _ ≤ n.sqrt * (2 * (a * a) * d) := Nat.mul_le_mul hle (hle.trans hd)
      _ = 2 * d * n.sqrt * (a * a) := by ring
  have hsquare : e * e ≤ 2 * d * n.sqrt := Nat.le_of_mul_le_mul_right hcancel (by positivity)
  nlinarith

/-- Many halvings. -/
theorem Reaches.double_many (hn : 0 < n) (h : Reaches n fuel d) :
    ∀ j, Reaches n (fuel + j) ((d + 1) * 2 ^ j - 1)
  | 0 => by simpa using h
  | j + 1 => by
    have hj := (Reaches.double_many hn h j).double hn
    refine hj.mono ?_
    have hpos : 0 < (d + 1) * 2 ^ j := by positivity
    rw [pow_succ, ← mul_assoc]
    omega

/-- Steps that are left over change nothing. -/
theorem Reaches.more (hn : 0 < n) (h : Reaches n fuel d) : ∀ j, Reaches n (fuel + j) d
  | 0 => h
  | j + 1 => ((Reaches.more hn h j).double hn).mono (by omega)

/-- Forty steps lead from anywhere up to a number of 63 bits to its root. -/
theorem reaches_forty (hn : 0 < n) (hbits : n < 2 ^ 63) : Reaches n 40 n := by
  have hroot : n < (n.sqrt + 1) * (n.sqrt + 1) := Nat.lt_succ_sqrt n
  have hsquare : n.sqrt * n.sqrt ≤ n := Nat.sqrt_le n
  rcases Nat.lt_or_ge n (2 ^ 32) with hsmall | hlarge
  · -- the halvings alone
    exact (reaches_zero.double_many hn 40).mono (by omega)
  · have hs : 2 ^ 16 ≤ n.sqrt := Nat.le_sqrt.mpr hlarge
    have hup : n.sqrt < 3037000500 := Nat.sqrt_lt.mpr (hbits.trans_le (by norm_num))
    -- backwards from the root, while the distance is small against it
    have h2 : Reaches n 2 3 := (reaches_zero.double hn).double hn
    have h3 : Reaches n 3 (n.sqrt / 2 ^ 15) := h2.square hn (by norm_num) (by omega)
    have h4 : Reaches n 4 (n.sqrt / 2 ^ 8) := h3.square hn (by norm_num) (by omega)
    have h5 : Reaches n 5 (n.sqrt / 12) := h4.square hn (by norm_num) (by omega)
    have h6 : Reaches n 6 (n.sqrt / 3) := h5.square hn (by norm_num) (by omega)
    -- and from there twice as far with each step
    refine (h6.double_many hn 34).mono ?_
    have hfar : (n.sqrt + 1) * (n.sqrt + 1) ≤ (n.sqrt + 1) * 2 ^ 32 :=
      Nat.mul_le_mul_left _ (by omega)
    omega

/-- Forty steps lead from a number of 63 bits to its root, and so do more. -/
theorem newtonSqrt_of_le (hn : 0 < n) (hbits : n < 2 ^ 63) (hfuel : 40 ≤ fuel) :
    newtonSqrt n fuel n = n.sqrt := by
  have hmore := (reaches_forty hn hbits).more hn (fuel - 40)
  rw [Nat.add_sub_of_le hfuel] at hmore
  exact hmore n (Nat.sqrt_le_self n) (Nat.le_add_left n _)

theorem newtonSqrt_eq (hn : 0 < n) (hbits : n < 2 ^ 63) : newtonSqrt n 40 n = n.sqrt :=
  newtonSqrt_of_le hn hbits le_rfl

end Gmaker.Lib
