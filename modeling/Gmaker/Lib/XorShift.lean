import Mathlib

/-!
# Gmaker.Lib.XorShift — a word and a shift of it

A function on words that delays carries nothing to a bit from that bit or from a higher one
(`Delays`). Such a function has at most one fixed point, and comes to it from any word in a few
steps (`Delays.iterate_eq`), so a word can be told from its sum with what the function makes of it
(`Delays.xor_injective`). Sums are without carry; a shift to the left delays, and
one to the right does when read backwards.
-/

namespace Gmaker.Lib

variable {w : ℕ}

/-- The bits below `k` agree. -/
def AgreeBelow (k : ℕ) (x y : BitVec w) : Prop := ∀ i < k, x.getLsbD i = y.getLsbD i

section AgreeBelow

variable {k l : ℕ} {x y x' y' : BitVec w}

theorem agreeBelow_zero (x y : BitVec w) : AgreeBelow 0 x y :=
  fun _ hi => absurd hi (Nat.not_lt_zero _)

theorem AgreeBelow.mono (hle : l ≤ k) (h : AgreeBelow k x y) : AgreeBelow l x y :=
  fun i hi => h i (hi.trans_le hle)

theorem AgreeBelow.xor (h : AgreeBelow k x y) (h' : AgreeBelow k x' y') :
    AgreeBelow k (x ^^^ x') (y ^^^ y') := by
  intro i hi
  rw [BitVec.getLsbD_xor, BitVec.getLsbD_xor, h i hi, h' i hi]

theorem AgreeBelow.eq (hle : w ≤ k) (h : AgreeBelow k x y) : x = y :=
  BitVec.eq_of_getLsbD_eq fun i hi => h i (hi.trans_le hle)

end AgreeBelow

/-- `f` makes of the bits below `k` those below `k + d`. -/
def Delays (d : ℕ) (f : BitVec w → BitVec w) : Prop :=
  ∀ k x y, AgreeBelow k x y → AgreeBelow (k + d) (f x) (f y)

section Delays

variable {d e : ℕ} {f g : BitVec w → BitVec w}

theorem delays_const (d : ℕ) (c : BitVec w) : Delays d fun _ => c := fun _ _ _ _ _ _ => rfl

theorem delays_id : Delays 0 fun x : BitVec w => x := fun _ _ _ hxy => hxy

theorem delays_shiftLeft (d : ℕ) : Delays d fun x : BitVec w => x <<< d := by
  intro k x y hxy i hi
  rw [BitVec.getLsbD_shiftLeft, BitVec.getLsbD_shiftLeft]
  by_cases hid : i < d
  · simp [hid]
  · rw [hxy (i - d) (by omega)]

theorem Delays.mono (hle : e ≤ d) (hf : Delays d f) : Delays e f :=
  fun k x y hxy => (hf k x y hxy).mono (by omega)

theorem Delays.xor (hf : Delays d f) (hg : Delays d g) : Delays d fun x => f x ^^^ g x :=
  fun k x y hxy => (hf k x y hxy).xor (hg k x y hxy)

theorem Delays.comp (hf : Delays d f) (hg : Delays e g) : Delays (e + d) (f ∘ g) := by
  intro k x y hxy
  rw [← add_assoc]
  exact hf (k + e) (g x) (g y) (hg k x y hxy)

/-- After `n` steps from anywhere, the bits below `n * d` are those of the fixed point. -/
theorem Delays.agreeBelow_iterate (hf : Delays d f) {z : BitVec w} (hz : f z = z) (s : BitVec w)
    (n : ℕ) : AgreeBelow (n * d) z (f^[n] s) := by
  induction n with
  | zero => exact (Nat.zero_mul d).symm ▸ agreeBelow_zero z s
  | succ n ih =>
    have hstep := hf (n * d) z (f^[n] s) ih
    rw [hz, ← Function.iterate_succ_apply' f n s, ← Nat.succ_mul] at hstep
    exact hstep

theorem Delays.iterate_eq (hf : Delays d f) {z : BitVec w} (hz : f z = z) (s : BitVec w) {n : ℕ}
    (hn : w ≤ n * d) : f^[n] s = z := ((hf.agreeBelow_iterate hz s n).eq hn).symm

/-- The word is the one fixed point of the sum and what the function makes of it. -/
theorem Delays.xor_injective (hd : 0 < d) (hf : Delays d f) :
    Function.Injective fun x => x ^^^ f x := by
  intro x y heq
  have hsum : Delays d fun z => (x ^^^ f x) ^^^ f z := (delays_const d _).xor hf
  have hx : (x ^^^ f x) ^^^ f x = x := by simp
  have hy : (x ^^^ f x) ^^^ f y = y := by
    have hxy : x ^^^ f x = y ^^^ f y := heq
    rw [hxy]
    simp
  have hw : w ≤ w * d := Nat.le_mul_of_pos_right w hd
  exact (hsum.iterate_eq hx 0 hw).symm.trans (hsum.iterate_eq hy 0 hw)

end Delays

/-! ## Shifts -/

theorem xor_shiftLeft_bijective {n : ℕ} (hn : 0 < n) :
    Function.Bijective fun x : BitVec w => x ^^^ x <<< n :=
  Function.Injective.bijective_of_finite (Delays.xor_injective hn (delays_shiftLeft n))

theorem reverse_xor_shiftRight (x : BitVec w) (n : ℕ) :
    (x ^^^ x >>> n).reverse = x.reverse ^^^ x.reverse <<< n := by
  apply BitVec.eq_of_getLsbD_eq
  intro i hi
  rw [BitVec.getLsbD_reverse, BitVec.getMsbD_xor, BitVec.getMsbD_ushiftRight, BitVec.getLsbD_xor,
    BitVec.getLsbD_shiftLeft, BitVec.getLsbD_reverse, BitVec.getLsbD_reverse]
  simp [hi]

theorem xor_shiftRight_bijective {n : ℕ} (hn : 0 < n) :
    Function.Bijective fun x : BitVec w => x ^^^ x >>> n := by
  apply Function.Injective.bijective_of_finite
  intro x y heq
  have hmirror : x.reverse ^^^ x.reverse <<< n = y.reverse ^^^ y.reverse <<< n := by
    rw [← reverse_xor_shiftRight, ← reverse_xor_shiftRight]
    exact congrArg BitVec.reverse heq
  have hreverse : x.reverse = y.reverse := Delays.xor_injective hn (delays_shiftLeft n) hmirror
  calc x = x.reverse.reverse := BitVec.reverse_reverse_eq.symm
    _ = y.reverse.reverse := by rw [hreverse]
    _ = y := BitVec.reverse_reverse_eq

/-- A word is its lowest bits and the rest. -/
theorem low_xor_high (x : BitVec w) (n : ℕ) :
    (x.setWidth n).setWidth w ^^^ x >>> n <<< n = x := by
  apply BitVec.eq_of_getLsbD_eq
  intro i hi
  rw [BitVec.getLsbD_xor, BitVec.getLsbD_shiftLeft, BitVec.getLsbD_ushiftRight,
    BitVec.getLsbD_setWidth, BitVec.getLsbD_setWidth]
  by_cases hin : i < n
  · simp [hi, hin]
  · simp [hi, hin, Nat.add_sub_cancel' (not_lt.mp hin)]

end Gmaker.Lib
