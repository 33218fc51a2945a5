import Mathlib

/-!
# Gmaker.Lib.Bytes — big-endian numbers in byte strings

Fixed-width big-endian encodings of naturals, most significant byte first, and
the two round trips between them. Widths are in bytes; what does not fit is cut
off at the top.
-/

namespace Gmaker.Lib

/-- The `w` big-endian bytes of `n`. -/
def toBE : ℕ → ℕ → List UInt8
  | 0, _ => []
  | w + 1, n => UInt8.ofNat (n / 256 ^ w) :: toBE w n

/-- The number whose big-endian bytes are given. -/
def ofBE : List UInt8 → ℕ
  | [] => 0
  | b :: bs => b.toNat * 256 ^ bs.length + ofBE bs

@[simp] theorem length_toBE (w n : ℕ) : (toBE w n).length = w := by
  induction w with
  | zero => rfl
  | succ w ih => rw [toBE, List.length_cons, ih]

theorem ofBE_lt (bs : List UInt8) : ofBE bs < 256 ^ bs.length := by
  induction bs with
  | nil => exact Nat.one_pos
  | cons b bs ih =>
    have hb : b.toNat + 1 ≤ 256 := b.toNat_lt
    calc ofBE (b :: bs) < b.toNat * 256 ^ bs.length + 256 ^ bs.length :=
          Nat.add_lt_add_left ih _
      _ = (b.toNat + 1) * 256 ^ bs.length := by ring
      _ ≤ 256 * 256 ^ bs.length := Nat.mul_le_mul_right _ hb
      _ = 256 ^ (b :: bs).length := by rw [List.length_cons, pow_succ']

/-- One more byte at the end. -/
theorem ofBE_concat (bs : List UInt8) (b : UInt8) : ofBE (bs ++ [b]) = ofBE bs * 256 + b.toNat := by
  induction bs with
  | nil => simp [ofBE]
  | cons a bs ih =>
    rw [List.cons_append, ofBE, ofBE, ih, List.length_append, List.length_singleton, pow_succ]
    ring

/-- Reading what was written gives the number back, modulo the width. -/
theorem ofBE_toBE (w n : ℕ) : ofBE (toBE w n) = n % 256 ^ w := by
  induction w with
  | zero => simp [toBE, ofBE, Nat.mod_one]
  | succ w ih =>
    have hbyte : n / 256 ^ w % 2 ^ 8 = n / 256 ^ w % 256 := rfl
    rw [toBE, ofBE, length_toBE, ih, UInt8.toNat_ofNat', hbyte, pow_succ 256 w, Nat.mod_mul,
      Nat.mul_comm, Nat.add_comm]

theorem ofBE_toBE_of_lt {w n : ℕ} (h : n < 256 ^ w) : ofBE (toBE w n) = n := by
  rw [ofBE_toBE, Nat.mod_eq_of_lt h]

/-- A number determines its bytes. -/
theorem ofBE_inj {as bs : List UInt8} (hlen : as.length = bs.length) (h : ofBE as = ofBE bs) :
    as = bs := by
  induction as generalizing bs with
  | nil => exact (List.length_eq_zero_iff.mp hlen.symm).symm
  | cons a as ih =>
    cases bs with
    | nil => cases hlen
    | cons b bs =>
      have hlen' : as.length = bs.length := Nat.succ.inj hlen
      have ha := ofBE_lt as
      have hb := ofBE_lt bs
      rw [ofBE, ofBE, hlen'] at h
      rw [hlen'] at ha
      have hpos : 0 < 256 ^ bs.length := Nat.pow_pos (by decide)
      have hhead : a.toNat = b.toNat := by
        have hdiv := congrArg (· / 256 ^ bs.length) h
        simpa [Nat.mul_add_div, Nat.add_div, hpos, Nat.mul_div_cancel, Nat.div_eq_of_lt ha,
          Nat.div_eq_of_lt hb, Nat.mod_eq_of_lt ha, Nat.mod_eq_of_lt hb, ha, hb, not_le.mpr ha,
          not_le.mpr hb] using hdiv
      have htail : ofBE as = ofBE bs := by
        rw [hhead] at h
        exact Nat.add_left_cancel h
      rw [UInt8.toNat_inj.mp hhead, ih hlen' htail]

end Gmaker.Lib
