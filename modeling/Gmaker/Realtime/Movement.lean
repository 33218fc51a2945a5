import Mathlib
import Gmaker.Lib.Newton
import Gmaker.Realtime.Arena

/-!
# Gmaker.Realtime.Movement — how far a hero gets in one frame

The vector of an input is made a direction where it is longer than one, and the hero makes a step
of five thirtieths of a unit in it. The numbers are fixed-point numbers of 64 bits: a square
whose sum does not fit gives a length that says nothing about the vector, and the hero then gets
farther than its speed allows. Where the sum fits, the square root is that of whole numbers and
sixteen bits are lost below it, which makes the step longer by a part in 2 ^ 15 at most.
-/

namespace Gmaker.Realtime

open Gmaker.Lib

/-! ## The arithmetic -/

namespace Fixed

variable {a b x : Fixed}

/-- The loop of the square root is Newton's method. -/
theorem newton_eq (n : ℕ) : ∀ fuel guess, newton n fuel guess = newtonSqrt n fuel guess
  | 0, _ => rfl
  | fuel + 1, guess => by
    rw [newton, newtonSqrt]
    simp only [newton_eq n fuel]

theorem natAbs_le (x : Fixed) : x.toInt.natAbs ≤ 2 ^ 63 := by
  have hlow := x.le_toInt
  have hhigh := x.toInt_lt
  omega

/-- A magnitude that fits is that of the number. -/
theorem natAbs_withSign {magnitude : ℕ} (h : magnitude < 2 ^ 63) :
    (withSign a b magnitude).toInt.natAbs = magnitude := by
  unfold withSign
  split_ifs
  · rw [Int64.toInt_ofInt_of_le (by omega) (by omega)]
    rfl
  · rw [Int64.toInt_ofInt_of_le (by omega) (by omega)]
    omega

/-- A square, in 64 bits. -/
theorem mul_self (x : Fixed) :
    mul x x = Int64.ofInt (x.toInt.natAbs * x.toInt.natAbs / 2 ^ 32 : ℕ) := by
  unfold mul withSign
  rw [if_pos Iff.rfl]
  rfl

/-- The square root of a number: that of the raw number, and sixteen bits. -/
theorem toInt_sqrt (x : Fixed) : (sqrt x).toInt = (x.toInt.toNat.sqrt * 2 ^ 16 : ℕ) := by
  have hlt := x.toInt_lt
  unfold sqrt
  by_cases hpos : x ≤ 0
  · rw [if_pos hpos]
    have hle : x.toInt ≤ 0 := Int64.le_iff_toInt_le.mp hpos
    rw [Int.toNat_of_nonpos hle]
    rfl
  · rw [if_neg hpos]
    have hgt : 0 < x.toInt := by
      by_contra hno
      exact hpos (Int64.le_iff_toInt_le.mpr (not_lt.mp hno))
    have habs : x.toInt.natAbs = x.toInt.toNat := by omega
    have hroot : x.toInt.toNat.sqrt < 2 ^ 32 := Nat.sqrt_lt.mpr (by omega)
    dsimp only
    rw [newton_eq, habs, newtonSqrt_eq (by omega) (by omega)]
    exact Int64.toInt_ofInt_of_le (by omega) (by omega)

end Fixed

/-! ## Sums of 64 bits -/

/-- A number of 64 bits is what it was made from, up to multiples of 2 ^ 64. -/
theorem toInt_ofInt_eq (n : ℤ) : ∃ k : ℤ, (Int64.ofInt n).toInt = n + k * 2 ^ 64 := by
  refine ⟨-n.bdiv (2 ^ 64), ?_⟩
  have h : (Int64.ofInt n).toInt = n.bmod (2 ^ 64) := Int64.toInt_ofInt
  rw [h, Int.bmod_eq_self_sub_bdiv_mul]
  push_cast
  ring

/-- The sum stays inside 64 bits. -/
def InRange (p d : Fixed) : Prop := -2 ^ 63 ≤ p.toInt + d.toInt ∧ p.toInt + d.toInt < 2 ^ 63

instance (p d : Fixed) : Decidable (InRange p d) :=
  inferInstanceAs (Decidable (_ ∧ _))

theorem toInt_add_eq (p d : Fixed) :
    ∃ k : ℤ, (p + d).toInt = p.toInt + d.toInt + k * 2 ^ 64 ∧ (InRange p d ↔ k = 0) := by
  have hlow := (p + d).le_toInt
  have hhigh := (p + d).toInt_lt
  have hk : (p + d).toInt = p.toInt + d.toInt + -(p.toInt + d.toInt).bdiv (2 ^ 64) * 2 ^ 64 := by
    rw [Int64.toInt_add, Int.bmod_eq_self_sub_bdiv_mul]
    push_cast
    ring
  refine ⟨_, hk, ?_⟩
  generalize -(p.toInt + d.toInt).bdiv (2 ^ 64) = k at hk
  unfold InRange
  omega

/-- What is added is moved, where the sum stays inside. -/
theorem moved_of_inRange {p d : Fixed} (h : InRange p d) : (p + d).toInt - p.toInt = d.toInt := by
  rcases toInt_add_eq p d with ⟨k, hk, hzero⟩
  rw [hzero.mp h] at hk
  omega

/-- It is moved by no less in any case. -/
theorem natAbs_le_moved (p d : Fixed) :
    d.toInt.natAbs ≤ ((p + d).toInt - p.toInt).natAbs := by
  have hd := Fixed.natAbs_le d
  rcases toInt_add_eq p d with ⟨k, hk, _⟩
  omega

/-- And by a lot where the sum does not stay inside. -/
theorem moved_far {p d : Fixed} (h : ¬ InRange p d) (hd : d.toInt.natAbs ≤ 2 ^ 62) :
    2 ^ 62 ≤ ((p + d).toInt - p.toInt).natAbs := by
  rcases toInt_add_eq p d with ⟨k, hk, hzero⟩
  have hk0 : k ≠ 0 := fun h0 => h (hzero.mpr h0)
  omega

/-! ## The step -/

/-- `mx` and `mz` after the normalisation, times `step`. -/
def heroStep (mx mz : Fixed) : Fixed × Fixed :=
  let len := Fixed.sqrt (Fixed.mul mx mx + Fixed.mul mz mz)
  let one := Fixed.fromInt 1
  let nx := if one < len then Fixed.div mx len else mx
  let nz := if one < len then Fixed.div mz len else mz
  let step := Fixed.div (Fixed.fromInt 5) (Fixed.fromInt 30)
  (Fixed.mul nx step, Fixed.mul nz step)

/-- The `target` of `ProcessHeroInput`. -/
def moveTarget (pos : FixedVec3) (input : PlayerInput) : FixedVec3 :=
  ⟨pos.x + (heroStep input.moveX input.moveZ).1, 0, pos.z + (heroStep input.moveX input.moveZ).2⟩

/-- The hero is moved to the target. -/
theorem moveHero_eq {F : Type} [FloatOps F] (m : EntityManager F) (heroId : UInt64)
    {input : PlayerInput} (hmove : input.moveX ≠ 0 ∨ input.moveZ ≠ 0) :
    m.moveHero heroId input = m.modify heroId (.onHero fun h => { h with pos := { h.pos with
      x := FloatOps.ofFixed (moveTarget h.pos.toFixed input).x
      z := FloatOps.ofFixed (moveTarget h.pos.toFixed input).z } }) := by
  unfold EntityManager.moveHero
  rw [if_pos hmove]
  simp only [moveTarget, heroStep]

/-! ## Magnitudes -/

/-- The part of a magnitude that the hero moves: `step` is this number, a little less than a
sixth. -/
def sixth (a : ℕ) : ℕ := a * 715827882 / 2 ^ 32

theorem six_mul_sixth_le (a : ℕ) : 6 * sixth a ≤ a := by
  unfold sixth
  omega

theorem sixth_mono {a b : ℕ} (h : a ≤ b) : sixth a ≤ sixth b := by
  unfold sixth
  omega

theorem natAbs_mul_step (x : Fixed) :
    (Fixed.mul x (Fixed.div (Fixed.fromInt 5) (Fixed.fromInt 30))).toInt.natAbs =
      sixth x.toInt.natAbs := by
  have hstep : (Fixed.div (Fixed.fromInt 5) (Fixed.fromInt 30)).toInt.natAbs = 715827882 := by
    decide
  have hx := Fixed.natAbs_le x
  unfold Fixed.mul
  rw [hstep]
  exact Fixed.natAbs_withSign (by unfold Fixed.fractionBits; omega)

/-- A number divided by a length above one. -/
theorem natAbs_div {x len : Fixed} {s : ℕ} (hlen : len.toInt = (s * 2 ^ 16 : ℕ))
    (hs : 2 ^ 16 < s) :
    (Fixed.div x len).toInt.natAbs = x.toInt.natAbs * 2 ^ 32 / (s * 2 ^ 16) := by
  have hx := Fixed.natAbs_le x
  have habs : len.toInt.natAbs = s * 2 ^ 16 := by omega
  unfold Fixed.div
  rw [habs]
  refine Fixed.natAbs_withSign ?_
  rw [Nat.div_lt_iff_lt_mul (by omega)]
  unfold Fixed.fractionBits
  omega

/-- The sum of the squares in 64 bits, if it is not negative. -/
def squaredLength (mx mz : Fixed) : ℕ := (Fixed.mul mx mx + Fixed.mul mz mz).toInt.toNat

/-- The magnitude before `step`. -/
def direction (mx mz : Fixed) (a : ℕ) : ℕ :=
  let s := (squaredLength mx mz).sqrt
  if 2 ^ 16 < s then a * 2 ^ 32 / (s * 2 ^ 16) else a

/-- How far the hero moves, in each coordinate. -/
theorem natAbs_heroStep (mx mz : Fixed) :
    (heroStep mx mz).1.toInt.natAbs = sixth (direction mx mz mx.toInt.natAbs) ∧
      (heroStep mx mz).2.toInt.natAbs = sixth (direction mx mz mz.toInt.natAbs) := by
  have hlen : (Fixed.sqrt (Fixed.mul mx mx + Fixed.mul mz mz)).toInt =
      ((squaredLength mx mz).sqrt * 2 ^ 16 : ℕ) := Fixed.toInt_sqrt _
  unfold heroStep direction
  dsimp only
  generalize Fixed.sqrt (Fixed.mul mx mx + Fixed.mul mz mz) = len at *
  have hone : Fixed.fromInt 1 < len ↔ 2 ^ 16 < (squaredLength mx mz).sqrt := by
    have h1 : (Fixed.fromInt 1).toInt = 2 ^ 32 := by decide
    rw [Int64.lt_iff_toInt_lt, h1, hlen]
    omega
  by_cases hs : 2 ^ 16 < (squaredLength mx mz).sqrt
  · rw [if_pos (hone.mpr hs), if_pos (hone.mpr hs), if_pos hs, if_pos hs, natAbs_mul_step,
      natAbs_mul_step, natAbs_div hlen hs, natAbs_div hlen hs]
    exact ⟨rfl, rfl⟩
  · rw [if_neg (hone.not.mpr hs), if_neg (hone.not.mpr hs), if_neg hs, if_neg hs, natAbs_mul_step,
      natAbs_mul_step]
    exact ⟨rfl, rfl⟩

/-! ## Whether the square fits -/

/-- The square of the length, computed without bound. -/
def exactSquare (mx mz : Fixed) : ℕ :=
  mx.toInt.natAbs * mx.toInt.natAbs / 2 ^ 32 + mz.toInt.natAbs * mz.toInt.natAbs / 2 ^ 32

/-- The sum of the squares is the exact one up to multiples of 2 ^ 64. -/
theorem toInt_sum (mx mz : Fixed) : ∃ k : ℤ,
    (Fixed.mul mx mx + Fixed.mul mz mz).toInt = exactSquare mx mz + k * 2 ^ 64 := by
  rw [Fixed.mul_self, Fixed.mul_self, ← Int64.ofInt_add]
  exact_mod_cast toInt_ofInt_eq (exactSquare mx mz)

/-- It does not wrap if and only if the exact one fits. -/
theorem toInt_sum_eq_iff (mx mz : Fixed) :
    (Fixed.mul mx mx + Fixed.mul mz mz).toInt = exactSquare mx mz ↔
      exactSquare mx mz < 2 ^ 63 := by
  have hlow := (Fixed.mul mx mx + Fixed.mul mz mz).le_toInt
  have hhigh := (Fixed.mul mx mx + Fixed.mul mz mz).toInt_lt
  rcases toInt_sum mx mz with ⟨k, hk⟩
  omega

theorem squaredLength_of_fits {mx mz : Fixed} (h : exactSquare mx mz < 2 ^ 63) :
    squaredLength mx mz = exactSquare mx mz := by
  unfold squaredLength
  rw [(toInt_sum_eq_iff mx mz).mpr h]
  exact Int.toNat_natCast _

/-- A square that wraps is nothing, or too small by 2 ^ 64 at least. -/
theorem squaredLength_of_wraps {mx mz : Fixed} (h : 2 ^ 63 ≤ exactSquare mx mz) :
    squaredLength mx mz < 2 ^ 63 ∧
      (squaredLength mx mz = 0 ∨ squaredLength mx mz + 2 ^ 64 ≤ exactSquare mx mz) := by
  have hhigh := (Fixed.mul mx mx + Fixed.mul mz mz).toInt_lt
  unfold squaredLength
  rcases toInt_sum mx mz with ⟨k, hk⟩
  omega

/-! ## Bounds on the magnitudes -/

/-- The bound, in raw units and times six: one unit and a part in 2 ^ 15. -/
def limit : ℕ := 2 ^ 32 + 2 ^ 17

section Bounds

variable {a b n s : ℕ}

/-- A square and what its last bits can be. -/
theorem squares_lt (hn : n = a * a / 2 ^ 32 + b * b / 2 ^ 32) :
    a * a + b * b < (n + 2) * 2 ^ 32 := by
  omega

theorem le_squares (hn : n ≤ a * a / 2 ^ 32 + b * b / 2 ^ 32) : n * 2 ^ 32 ≤ a * a + b * b := by
  omega

/-- A vector that is not longer than one, by its root. -/
theorem short_le_limit (hn : n = a * a / 2 ^ 32 + b * b / 2 ^ 32) (hs : n.sqrt ≤ 2 ^ 16) :
    a * a + b * b ≤ limit * limit := by
  have hlt : n < (2 ^ 16 + 1) * (2 ^ 16 + 1) := Nat.sqrt_lt.mp (Nat.lt_succ_of_le hs)
  have hsquares := squares_lt hn
  unfold limit
  omega

/-- A vector that is divided by its root. -/
theorem normalised_le_limit (hn : n = a * a / 2 ^ 32 + b * b / 2 ^ 32) (hs : 2 ^ 16 < n.sqrt)
    {a' b' : ℕ} (ha : a' * (n.sqrt * 2 ^ 16) ≤ a * 2 ^ 32)
    (hb : b' * (n.sqrt * 2 ^ 16) ≤ b * 2 ^ 32) : a' * a' + b' * b' ≤ limit * limit := by
  have hsquares := squares_lt hn
  have hroot : n < (n.sqrt + 1) * (n.sqrt + 1) := Nat.lt_succ_sqrt n
  generalize n.sqrt = s at *
  have ha' : a' * s ≤ a * 2 ^ 16 := by nlinarith
  have hb' : b' * s ≤ b * 2 ^ 16 := by nlinarith
  have hscaled : (a' * a' + b' * b') * (s * s) ≤ (a * a + b * b) * 2 ^ 32 := by
    calc (a' * a' + b' * b') * (s * s) = (a' * s) * (a' * s) + (b' * s) * (b' * s) := by ring
      _ ≤ (a * 2 ^ 16) * (a * 2 ^ 16) + (b * 2 ^ 16) * (b * 2 ^ 16) :=
        Nat.add_le_add (Nat.mul_le_mul ha' ha') (Nat.mul_le_mul hb' hb')
      _ = (a * a + b * b) * 2 ^ 32 := by ring
  -- what the root cuts off is small against it
  have hrounding : (s * s + 2 * s + 2) * 2 ^ 64 ≤ limit * limit * (s * s) := by
    unfold limit
    nlinarith
  refine Nat.le_of_mul_le_mul_right ?_ (by positivity : 0 < s * s)
  calc (a' * a' + b' * b') * (s * s) ≤ (a * a + b * b) * 2 ^ 32 := hscaled
    _ ≤ (s * s + 2 * s + 2) * 2 ^ 64 := by nlinarith
    _ ≤ limit * limit * (s * s) := hrounding

/-- One long coordinate is enough to break the bound. -/
theorem limit_lt_of_sixth (h : limit < 6 * sixth a) :
    limit * limit < 36 * (sixth a * sixth a + sixth b * sixth b) := by
  nlinarith [Nat.zero_le (sixth b * sixth b)]

/-- A vector whose square does not fit, taken as it is. -/
theorem limit_lt_of_unnormalised (h : 2 ^ 63 ≤ a * a / 2 ^ 32 + b * b / 2 ^ 32) :
    limit * limit < 36 * (sixth a * sixth a + sixth b * sixth b) := by
  have hsquares := le_squares h
  have hlong : ∀ c : ℕ, 2 ^ 94 ≤ c * c → limit < 6 * sixth c := by
    intro c hc
    have hc' : 2 ^ 47 ≤ c := by
      by_contra hno
      nlinarith
    refine lt_of_lt_of_le ?_ (Nat.mul_le_mul_left 6 (sixth_mono hc'))
    decide
  rcases Nat.lt_or_ge (a * a) (2 ^ 94) with ha | ha
  · rw [Nat.add_comm (sixth a * sixth a)]
    exact limit_lt_of_sixth (hlong b (by omega))
  · exact limit_lt_of_sixth (hlong a ha)

/-- The same vector, divided by the root of what is left of the square. -/
theorem limit_lt_of_normalised {w : ℕ} (hw : w < 2 ^ 63)
    (h : w + 2 ^ 64 ≤ a * a / 2 ^ 32 + b * b / 2 ^ 32) (hs : 2 ^ 16 < w.sqrt) :
    limit * limit < 36 * (sixth (a * 2 ^ 32 / (w.sqrt * 2 ^ 16)) *
      sixth (a * 2 ^ 32 / (w.sqrt * 2 ^ 16)) + sixth (b * 2 ^ 32 / (w.sqrt * 2 ^ 16)) *
      sixth (b * 2 ^ 32 / (w.sqrt * 2 ^ 16))) := by
  have hsquares := le_squares h
  have hroot : w.sqrt * w.sqrt ≤ w := Nat.sqrt_le w
  generalize w.sqrt = s at *
  have hlong : ∀ c : ℕ, 3 * (s * s) * 2 ^ 32 ≤ 2 * (c * c) →
      limit < 6 * sixth (c * 2 ^ 32 / (s * 2 ^ 16)) := by
    intro c hc
    have hc' : 6 * (s * 2 ^ 16) ≤ 5 * c := by
      by_contra hno
      nlinarith
    have hquotient : 5153960755 ≤ c * 2 ^ 32 / (s * 2 ^ 16) := by
      rw [Nat.le_div_iff_mul_le (by omega)]
      omega
    refine lt_of_lt_of_le ?_ (Nat.mul_le_mul_left 6 (sixth_mono hquotient))
    decide
  rcases Nat.lt_or_ge (2 * (a * a)) (3 * (s * s) * 2 ^ 32) with ha | ha
  · rw [Nat.add_comm]
    exact limit_lt_of_sixth (hlong b (by linarith))
  · exact limit_lt_of_sixth (hlong a ha)

end Bounds

/-! ## The distance -/

/-- The distance from the position to the target is five thirtieths of a unit at most, but for a
part in 2 ^ 15, which is what rounding may add. -/
def MovesWithin (pos : FixedVec3) (input : PlayerInput) : Prop :=
  let dx := (moveTarget pos input).x.toInt - pos.x.toInt
  let dz := (moveTarget pos input).z.toInt - pos.z.toInt
  30 ^ 2 * (dx ^ 2 + dz ^ 2) ≤ (5 * (2 ^ 32 + 2 ^ 17)) ^ 2

/-- The squared length does not wrap. -/
def NoWrap (input : PlayerInput) : Prop :=
  (Fixed.mul input.moveX input.moveX + Fixed.mul input.moveZ input.moveZ).toInt =
    exactSquare input.moveX input.moveZ

/-- The condition: the exact square of the vector fits into 63 bits (it is shorter than about
46341 units), and the coordinates of the target stay inside 64 bits. -/
def Moderate (pos : FixedVec3) (input : PlayerInput) : Prop :=
  exactSquare input.moveX input.moveZ < 2 ^ 63 ∧
  InRange pos.x (heroStep input.moveX input.moveZ).1 ∧
  InRange pos.z (heroStep input.moveX input.moveZ).2

/-- The bound in magnitudes. -/
theorem movesWithin_iff_natAbs (pos : FixedVec3) (input : PlayerInput) :
    MovesWithin pos input ↔
      36 * (((moveTarget pos input).x.toInt - pos.x.toInt).natAbs *
        ((moveTarget pos input).x.toInt - pos.x.toInt).natAbs +
        ((moveTarget pos input).z.toInt - pos.z.toInt).natAbs *
        ((moveTarget pos input).z.toInt - pos.z.toInt).natAbs) ≤ limit * limit := by
  unfold MovesWithin
  dsimp only
  generalize (moveTarget pos input).x.toInt - pos.x.toInt = dx
  generalize (moveTarget pos input).z.toInt - pos.z.toInt = dz
  zify
  rw [abs_mul_abs_self, abs_mul_abs_self]
  unfold limit
  push_cast
  constructor <;> intro h <;> nlinarith

variable {pos : FixedVec3} {input : PlayerInput}

/-- A vector whose square fits makes a step within the bound. -/
theorem step_le_limit {mx mz : Fixed} (h : exactSquare mx mz < 2 ^ 63) :
    36 * ((heroStep mx mz).1.toInt.natAbs * (heroStep mx mz).1.toInt.natAbs +
      (heroStep mx mz).2.toInt.natAbs * (heroStep mx mz).2.toInt.natAbs) ≤ limit * limit := by
  rcases natAbs_heroStep mx mz with ⟨hx, hz⟩
  rw [hx, hz]
  have hdirection : direction mx mz mx.toInt.natAbs * direction mx mz mx.toInt.natAbs +
      direction mx mz mz.toInt.natAbs * direction mx mz mz.toInt.natAbs ≤ limit * limit := by
    unfold direction
    rw [squaredLength_of_fits h]
    dsimp only
    split_ifs with hs
    · exact normalised_le_limit rfl hs (Nat.div_mul_le_self _ _) (Nat.div_mul_le_self _ _)
    · exact short_le_limit rfl (not_lt.mp hs)
  have h6x := six_mul_sixth_le (direction mx mz mx.toInt.natAbs)
  have h6z := six_mul_sixth_le (direction mx mz mz.toInt.natAbs)
  nlinarith [Nat.mul_le_mul h6x h6x, Nat.mul_le_mul h6z h6z]

/-- A vector whose square does not fit makes a longer step. -/
theorem limit_lt_step {mx mz : Fixed} (h : 2 ^ 63 ≤ exactSquare mx mz) :
    limit * limit < 36 * ((heroStep mx mz).1.toInt.natAbs * (heroStep mx mz).1.toInt.natAbs +
      (heroStep mx mz).2.toInt.natAbs * (heroStep mx mz).2.toInt.natAbs) := by
  rcases natAbs_heroStep mx mz with ⟨hx, hz⟩
  rcases squaredLength_of_wraps h with ⟨hw, hzero | hless⟩
  · rw [hx, hz]
    unfold direction
    rw [hzero]
    exact limit_lt_of_unnormalised h
  · rw [hx, hz]
    unfold direction
    dsimp only
    split_ifs with hs
    · exact limit_lt_of_normalised hw hless hs
    · exact limit_lt_of_unnormalised h

/-- The hero moves within the bound under exactly this condition. -/
theorem movesWithin_iff : MovesWithin pos input ↔ Moderate pos input := by
  rw [movesWithin_iff_natAbs]
  have hx := natAbs_le_moved pos.x (heroStep input.moveX input.moveZ).1
  have hz := natAbs_le_moved pos.z (heroStep input.moveX input.moveZ).2
  unfold moveTarget Moderate
  dsimp only
  rcases Nat.lt_or_ge (exactSquare input.moveX input.moveZ) (2 ^ 63) with hfits | hwraps
  · have hle := step_le_limit hfits
    constructor
    · intro h
      refine ⟨hfits, ?_, ?_⟩
      · by_contra hout
        have hfar := moved_far hout (by unfold limit at hle; nlinarith)
        unfold limit at h
        nlinarith
      · by_contra hout
        have hfar := moved_far hout (by unfold limit at hle; nlinarith)
        unfold limit at h
        nlinarith
    · rintro ⟨_, hinx, hinz⟩
      rw [moved_of_inRange hinx, moved_of_inRange hinz]
      exact hle
  · have hlt := limit_lt_step hwraps
    constructor
    · intro h
      exfalso
      nlinarith [Nat.mul_le_mul hx hx, Nat.mul_le_mul hz hz]
    · rintro ⟨hfits, _⟩
      omega

/-- The hero moves no farther than its speed allows, by a squared length that does not wrap, under
exactly this condition on the vector and the position. -/
theorem movement_iff (pos : FixedVec3) (input : PlayerInput) :
    MovesWithin pos input ∧ NoWrap input ↔ Moderate pos input := by
  constructor
  · rintro ⟨hwithin, _⟩
    exact movesWithin_iff.mp hwithin
  · intro h
    exact ⟨movesWithin_iff.mpr h, (toInt_sum_eq_iff input.moveX input.moveZ).mpr h.1⟩

/-! ## A long vector -/

/-- A client sends 65536 as `move_x`. -/
def longInput : PlayerInput :=
  { hasInput := true, moveX := Fixed.fromInt 65536 }

/-- Its square wraps to zero, and the hero moves more than ten thousand units. -/
theorem longInput_moves_far :
    ¬ (MovesWithin ⟨0, 0, 0⟩ longInput ∧ NoWrap longInput) := by
  rintro ⟨hwithin, _⟩
  exact absurd (movesWithin_iff.mp hwithin).1 (by decide)

end Gmaker.Realtime
