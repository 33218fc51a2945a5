import Mathlib
import Gmaker.Lib.XorShift
import Gmaker.Realtime.FixedWords

/-!
# Gmaker.Realtime.Prng — the generator of the battle engine

`Xorshift64` replaces its state by its sum with three shifts of it, one after the other. Each of
the three can be undone, so the step is a permutation of the words (`step_bijective`), and it takes
no word but zero to itself (`eq_zero_of_step_eq`). A seed is never zero, so neither are the numbers
drawn, and no number is drawn twice in a row.
-/

namespace Gmaker.Realtime

open Gmaker.Lib

namespace Prng

/-- What `next` makes of `state_`. -/
def step (state : UInt64) : UInt64 :=
  let x := state
  let x := x ^^^ x <<< 13
  let x := x ^^^ x >>> 7
  let x := x ^^^ x <<< 17
  x

/-! ## The step, bit by bit -/

section Step

/-- `x ^= x << 13`. -/
def first (x : BitVec 64) : BitVec 64 := x ^^^ x <<< 13

/-- `x ^= x >> 7`. -/
def second (x : BitVec 64) : BitVec 64 := x ^^^ x >>> 7

/-- `x ^= x << 17`. -/
def third (x : BitVec 64) : BitVec 64 := x ^^^ x <<< 17

theorem toBitVec_step (x : UInt64) : (step x).toBitVec = third (second (first x.toBitVec)) := rfl

theorem toBitVec_bijective : Function.Bijective UInt64.toBitVec :=
  ⟨fun _ _ heq => UInt64.eq_of_toBitVec_eq heq, fun b => ⟨⟨b⟩, rfl⟩⟩

theorem step_bijective : Function.Bijective step := by
  have hfirst : Function.Bijective first := xor_shiftLeft_bijective (by omega)
  have hsecond : Function.Bijective second := xor_shiftRight_bijective (by omega)
  have hthird : Function.Bijective third := xor_shiftLeft_bijective (by omega)
  have hbits : Function.Bijective (UInt64.toBitVec ∘ step) :=
    (hthird.comp (hsecond.comp hfirst)).comp toBitVec_bijective
  exact (Function.Bijective.of_comp_iff' toBitVec_bijective step).mp hbits

@[simp] theorem step_zero : step 0 = 0 := rfl

theorem step_ne_zero {x : UInt64} (hx : x ≠ 0) : step x ≠ 0 := by
  intro hzero
  exact hx (step_bijective.1 (hzero.trans step_zero.symm))

/-! ## No fixed point

Of a fixed point `third z`, the lowest 7 bits of `first (third z)` say the rest: what is above them
is what `third` and `first` have added to `z`, which has come from lower bits of `z`. -/

/-- What `third` and `first` add. -/
def added (z : BitVec 64) : BitVec 64 := z <<< 17 ^^^ (z ^^^ z <<< 17) <<< 13

theorem first_third (z : BitVec 64) : first (third z) = z ^^^ added z := by
  rw [first, third, added, BitVec.xor_assoc]

theorem delays_added : Delays 13 added := by
  have hsquare : Delays 17 fun z : BitVec 64 => z <<< 17 := delays_shiftLeft 17
  have hthird : Delays 0 fun z : BitVec 64 => z ^^^ z <<< 17 :=
    Delays.xor delays_id (hsquare.mono (by omega))
  have hfirst : Delays 13 fun z : BitVec 64 => (z ^^^ z <<< 17) <<< 13 :=
    (delays_shiftLeft 13).comp hthird
  exact (hsquare.mono (by omega)).xor hfirst

/-- `z`, from the lowest bits and what has been added. -/
def fromLow (c : BitVec 7) (z : BitVec 64) : BitVec 64 :=
  c.setWidth 64 ^^^ (added z <<< 7 ^^^ added z)

theorem delays_fromLow (c : BitVec 7) : Delays 13 (fromLow c) := by
  have hshift : Delays 13 fun z => added z <<< 7 :=
    ((delays_shiftLeft 7).comp delays_added).mono (by omega)
  exact (delays_const 13 _).xor (hshift.xor delays_added)

theorem fromLow_eq {z : BitVec 64} (hz : second (first (third z)) = z) :
    fromLow ((first (third z)).setWidth 7) z = z := by
  have hhigh : first (third z) >>> 7 = added z := by
    have hsum : z ^^^ (added z ^^^ first (third z) >>> 7) = z := by
      rw [← BitVec.xor_assoc, ← first_third]
      exact hz
    have hnone : added z ^^^ first (third z) >>> 7 = 0 := by simpa using hsum
    exact (BitVec.xor_eq_zero_iff.mp hnone).symm
  have hlow := low_xor_high (first (third z)) 7
  rw [hhigh] at hlow
  rw [fromLow, ← BitVec.xor_assoc, hlow, first_third]
  simp

/-- None of the 128 words that could be one is a fixed point, but for zero. -/
theorem eq_zero_of_fromLow : ∀ c : BitVec 7,
    second (first (third ((fromLow c)^[5] 0))) = (fromLow c)^[5] 0 → (fromLow c)^[5] 0 = 0 := by
  decide

theorem eq_zero_of_step_eq {x : UInt64} (hx : step x = x) : x = 0 := by
  have hbits : third (second (first x.toBitVec)) = x.toBitVec :=
    (toBitVec_step x).symm.trans (congrArg UInt64.toBitVec hx)
  generalize hz : second (first x.toBitVec) = z at hbits
  have hcycle : second (first (third z)) = z := by rw [hbits, hz]
  have hword := (delays_fromLow _).iterate_eq (fromLow_eq hcycle) 0 (n := 5) (by omega)
  have hzero := eq_zero_of_fromLow ((first (third z)).setWidth 7)
  rw [hword] at hzero
  rw [hzero hcycle] at hbits
  exact UInt64.eq_of_toBitVec_eq hbits.symm

end Step

end Prng

/-! ## The generator -/

/-- `Xorshift64`. -/
structure Xorshift64 where
  state : UInt64
  ne : state ≠ 0
deriving DecidableEq

namespace Xorshift64

open Prng

/-- `seed == 0 ? 0x9E3779B97F4A7C15ull : seed`. -/
def initialState (seed : UInt64) : UInt64 := if seed = 0 then 0x9E3779B97F4A7C15 else seed

theorem initialState_ne_zero (seed : UInt64) : initialState seed ≠ 0 := by
  unfold initialState
  split_ifs with hseed
  · decide
  · exact hseed

/-- `Xorshift64::Xorshift64`. -/
def new (seed : UInt64 := 0x9E3779B97F4A7C15) : Xorshift64 := ⟨initialState seed, initialState_ne_zero seed⟩

/-- `next`: the number drawn, and the generator. -/
def next (g : Xorshift64) : UInt64 × Xorshift64 :=
  (step g.state, ⟨step g.state, step_ne_zero g.ne⟩)

/-- `next_uint32`. -/
def nextUint32 (g : Xorshift64) (max : UInt32) : UInt32 × Xorshift64 :=
  if max = 0 then (0, g)
  else
    let (r, g) := g.next
    ((r >>> 32).toUInt32 % max, g)

/-- `next_fixed_raw`. -/
def nextFixedRaw (g : Xorshift64) : Int64 × Xorshift64 :=
  let (r, g) := g.next
  ((r >>> 32).toInt64, g)

/-- The numbers that a generator draws, one call of `next` after the other. -/
def drawn (g : Xorshift64) : ℕ → UInt64
  | 0 => g.next.1
  | n + 1 => drawn g.next.2 n

section Drawn

variable {g : Xorshift64}

theorem drawn_eq (g : Xorshift64) (n : ℕ) : g.drawn n = step^[n + 1] g.state := by
  induction n generalizing g with
  | zero => rfl
  | succ n ih => exact ih g.next.2

theorem drawn_succ (g : Xorshift64) (n : ℕ) : g.drawn (n + 1) = step (g.drawn n) := by
  rw [drawn_eq, drawn_eq, Function.iterate_succ_apply']

theorem drawn_ne_zero (g : Xorshift64) (n : ℕ) : g.drawn n ≠ 0 := by
  induction n with
  | zero => exact step_ne_zero g.ne
  | succ n ih =>
    rw [drawn_succ]
    exact step_ne_zero ih

theorem drawn_succ_ne (g : Xorshift64) (n : ℕ) : g.drawn (n + 1) ≠ g.drawn n := by
  intro heq
  rw [drawn_succ] at heq
  exact g.drawn_ne_zero n (eq_zero_of_step_eq heq)

/-- The numbers come back to the first one: none is drawn only once. -/
theorem exists_period (g : Xorshift64) : ∃ p > 0, ∀ n, g.drawn (n + p) = g.drawn n := by
  rcases step_bijective.1.mem_periodicPts g.state with ⟨p, hp, hback⟩
  refine ⟨p, hp, ?_⟩
  intro n
  have hstate : step^[p] g.state = g.state := hback
  rw [drawn_eq, drawn_eq, Nat.add_right_comm, Function.iterate_add_apply, hstate]

/-- Generators in different states draw different numbers for ever. -/
theorem state_eq_of_drawn {g' : Xorshift64} {n : ℕ} (heq : g.drawn n = g'.drawn n) :
    g.state = g'.state := by
  rw [drawn_eq, drawn_eq] at heq
  exact step_bijective.1.iterate (n + 1) heq

theorem state_eq_of_drawn_zero : (new 0).state = new.state :=
  @state_eq_of_drawn (new 0) new 3 (by decide)

theorem toNat_high_lt (r : UInt64) : (r >>> 32).toNat < 2 ^ 32 := by
  rw [Fixed.toNat_high]
  have hlt := r.toNat_lt
  omega

theorem toNat_nextUint32 {max : UInt32} (hmax : max ≠ 0) :
    (g.nextUint32 max).1.toNat = g.next.1.toNat / 2 ^ 32 % max.toNat := by
  rw [nextUint32, if_neg hmax]
  change ((g.next.1 >>> 32).toUInt32 % max).toNat = _
  rw [UInt32.toNat_mod, UInt64.toNat_toUInt32, Nat.mod_eq_of_lt (toNat_high_lt _),
    Fixed.toNat_high]

/-- A number below `max` is drawn. -/
theorem nextUint32_lt {max : UInt32} (hmax : max ≠ 0) : (g.nextUint32 max).1 < max := by
  rw [UInt32.lt_iff_toNat_lt, toNat_nextUint32 hmax]
  exact Nat.mod_lt _ (Nat.pos_of_ne_zero fun hzero => hmax (UInt32.toNat_inj.mp hzero))

theorem toInt_nextFixedRaw (g : Xorshift64) :
    g.nextFixedRaw.1.toInt = (g.next.1.toNat / 2 ^ 32 : ℕ) := by
  have hlt := toNat_high_lt g.next.1
  change (g.next.1 >>> 32).toInt64.toInt = _
  rw [toInt_toInt64_of_lt (by omega), Fixed.toNat_high]

/-- A fixed-point number from zero to below one is drawn. -/
theorem nextFixedRaw_lt_one (g : Xorshift64) :
    0 ≤ g.nextFixedRaw.1.toInt ∧ g.nextFixedRaw.1.toInt < 2 ^ 32 := by
  have hlt := toNat_high_lt g.next.1
  rw [Fixed.toNat_high] at hlt
  rw [toInt_nextFixedRaw]
  omega

end Drawn

/-- The step of the generator is a permutation that keeps away from zero, and so does every seed;
the numbers drawn are never zero, and never the same twice in a row. -/
theorem step_permutes :
    Function.Bijective step ∧ (∀ x, x ≠ 0 → step x ≠ 0) ∧
      ∀ seed, initialState seed ≠ 0 ∧
        ∀ n, (new seed).drawn n ≠ 0 ∧ (new seed).drawn (n + 1) ≠ (new seed).drawn n := by
  refine ⟨step_bijective, fun x => step_ne_zero, ?_⟩
  intro seed
  refine ⟨initialState_ne_zero seed, ?_⟩
  intro n
  exact ⟨drawn_ne_zero _ n, drawn_succ_ne _ n⟩

end Xorshift64

end Gmaker.Realtime
