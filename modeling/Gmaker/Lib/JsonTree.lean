import Mathlib
import Gmaker.Lib.Double

/-!
# Gmaker.Lib.JsonTree — JSON values

JSON values of any depth, as a reader makes them: numbers are floating-point numbers of 64 bits,
and the fields of an object are a map, which is given in the order in which it is gone through.
Two values are the same where the text, the number or the parts are; the order of the fields and
the sign of zero make no difference.
-/

namespace Gmaker.Lib

/-! ## Numbers -/

/-- A finite number of 64 bits: a significand of 53 bits times a power of two, where zero has a
sign. -/
structure Float64 where
  value : ℚ
  negativeZero : Bool
  representable : ∃ m e : ℤ, m.natAbs < 2 ^ 53 ∧ -1074 ≤ e ∧ e ≤ 971 ∧ value = m * 2 ^ e
  value_of_negativeZero : negativeZero = true → value = 0

namespace Float64

/-- Whole numbers of 53 bits. -/
def ofNat (n : ℕ) (h : n < 2 ^ 53) : Float64 where
  value := n
  negativeZero := false
  representable := ⟨n, 0, by simpa using h, by decide, by decide, by simp⟩
  value_of_negativeZero := nofun

/-- A whole number among them has no more than 53 significant bits. -/
theorem representable_natAbs {x : Float64} {z : ℤ} (h : x.value = z) :
    Representable 53 z.natAbs := by
  rcases x.representable with ⟨m, e, hm, _, _, hx⟩
  rcases le_or_gt 0 e with he | he
  · -- a power of two times the significand
    refine ⟨m.natAbs, e.toNat, hm, ?_⟩
    have hz : z = m * 2 ^ e.toNat := by
      have hq : (z : ℚ) = ((m * 2 ^ e.toNat : ℤ) : ℚ) := by
        rw [← h, hx]
        push_cast
        rw [← zpow_natCast, Int.toNat_of_nonneg he]
      exact_mod_cast hq
    rw [hz, Int.natAbs_mul, Int.natAbs_pow]
    rfl
  · -- a part of the significand
    refine ⟨z.natAbs, 0, ?_, by simp⟩
    have hz : m = z * 2 ^ (-e).toNat := by
      have hq : (m : ℚ) = ((z * 2 ^ (-e).toNat : ℤ) : ℚ) := by
        push_cast
        rw [← h, hx, ← zpow_natCast, Int.toNat_of_nonneg (by omega), mul_assoc,
          ← zpow_add₀ (by norm_num), add_neg_cancel, zpow_zero, mul_one]
      exact_mod_cast hq
    refine lt_of_le_of_lt ?_ hm
    rw [hz, Int.natAbs_mul]
    refine Nat.le_mul_of_pos_right _ ?_
    rw [Int.natAbs_pow]
    positivity

end Float64

/-- The whole number as a number of 64 bits. -/
def floatOfInt (z : ℤ) : ℤ := z.sign * roundBits 53 z.natAbs

/-- What has few enough bits stays as it is. -/
theorem floatOfInt_of_representable {z : ℤ} (h : Representable 53 z.natAbs) : floatOfInt z = z := by
  unfold floatOfInt
  rw [roundBits_of_representable h]
  exact Int.sign_mul_natAbs z

/-! ## Values -/

/-- A JSON value. -/
inductive Json where
  | null
  | bool (b : Bool)
  | number (x : Float64)
  | string (s : String)
  | array (items : List Json)
  | object (fields : List (String × Json))

namespace Json

mutual
/-- The values are the same. -/
def same : Json → Json → Bool
  | .null, .null => true
  | .bool b, .bool b' => b = b'
  | .number x, .number y => x.value = y.value
  | .string s, .string s' => s = s'
  | .array items, .array items' => sameItems items items'
  | .object fields, .object fields' =>
    sameFields fields fields' && fields.length = fields'.length
  | _, _ => false

/-- One by one. -/
def sameItems : List Json → List Json → Bool
  | [], [] => true
  | v :: vs, w :: ws => same v w && sameItems vs ws
  | _, _ => false

/-- Every field is there, with the same value. -/
def sameFields : List (String × Json) → List (String × Json) → Bool
  | [], _ => true
  | (k, v) :: fields, fields' =>
    (match fields'.lookup k with
      | some w => same v w
      | none => false) && sameFields fields fields'
end

example : same (.object [("a", .null), ("b", .bool true)])
    (.object [("b", .bool true), ("a", .null)]) = true := by decide

end Json

end Gmaker.Lib
