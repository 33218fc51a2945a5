import Mathlib

/-!
# Gmaker.Lib.Utf8 — bytes as characters

A byte list read character by character. Bytes that start no character count as U+FFFD, one at
a time.
-/

namespace Gmaker.Lib

/-- The character that counts for bytes that are none. -/
def replacementChar : ℕ := 0xFFFD

/-- The code points after `skip` more bytes. -/
def runesFrom : ℕ → List UInt8 → List ℕ
  | _, [] => []
  | skip + 1, _ :: bs => runesFrom skip bs
  | 0, b :: bs =>
    match (b :: bs).toByteArray.utf8DecodeChar? 0 with
    | some c => c.toNat :: runesFrom (c.utf8Size - 1) bs
    | none => replacementChar :: runesFrom 0 bs

/-- The code points of a byte list. -/
def runes (bs : List UInt8) : List ℕ := runesFrom 0 bs

theorem toNat_char_lt (c : Char) : c.toNat < 0x110000 := by
  change c.val.toNat < 0x110000
  rcases c.valid with hlow | hhigh
  · omega
  · omega

theorem lt_of_mem_runesFrom {n c : ℕ} {bs : List UInt8} (hc : c ∈ runesFrom n bs) :
    c < 0x110000 := by
  induction bs generalizing n with
  | nil => exact absurd hc (by simp [runesFrom])
  | cons b bs ih =>
    cases n with
    | succ n => exact ih hc
    | zero =>
      rw [runesFrom] at hc
      split at hc
      · rcases List.mem_cons.mp hc with rfl | hrest
        · exact toNat_char_lt _
        · exact ih hrest
      · rcases List.mem_cons.mp hc with rfl | hrest
        · decide
        · exact ih hrest

theorem lt_of_mem_runes {c : ℕ} {bs : List UInt8} (hc : c ∈ runes bs) : c < 0x110000 :=
  lt_of_mem_runesFrom hc

end Gmaker.Lib
