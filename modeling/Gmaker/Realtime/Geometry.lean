import Gmaker.Realtime.Lockstep

/-!
# Gmaker.Realtime.Geometry — numbers and positions of a battle

Positions are vectors of `float`; distances that decide something are computed in
`Fixed`, the 32.32 fixed-point numbers. The arithmetic of `Fixed` is that of the
source, on 64-bit integers.

What `float` computes is a parameter (`FloatOps`): nothing that is proved about a battle
depends on how floats are rounded. `FloatOps ℚ` computes without rounding, for runs on
numbers that a `float` represents exactly.
-/

namespace Gmaker.Realtime

/-! ## Fixed-point numbers -/

namespace Fixed

/-- `FRACTION_BITS`. -/
def fractionBits : ℕ := 32

/-- `Fixed::from_int`. -/
def fromInt (v : ℤ) : Fixed := Int64.ofInt (v * 2 ^ fractionBits)

/-- A magnitude with the sign of a product or a quotient. -/
def withSign (a b : Fixed) (magnitude : ℕ) : Fixed :=
  if a < 0 ↔ b < 0 then Int64.ofInt magnitude else Int64.ofInt (-magnitude)

/-- `operator*`: the middle 64 bits of the product of the magnitudes. -/
def mul (a b : Fixed) : Fixed :=
  withSign a b (a.toInt.natAbs * b.toInt.natAbs / 2 ^ fractionBits)

/-- `operator/`, for a divisor other than zero. -/
def div (a b : Fixed) : Fixed :=
  withSign a b (a.toInt.natAbs * 2 ^ fractionBits / b.toInt.natAbs)

/-- The loop of `fixed_sqrt`: `guess` falls until it no longer does. -/
def newton (n : ℕ) : ℕ → ℕ → ℕ
  | 0, guess => guess
  | fuel + 1, guess =>
    if guess = 0 then guess
    else
      let next := (guess + n / guess) / 2
      if guess ≤ next then guess else newton n fuel next

/-- `fixed_sqrt`. -/
def sqrt (x : Fixed) : Fixed :=
  if x ≤ 0 then 0
  else
    let n := x.toInt.natAbs
    Int64.ofInt (newton n 40 n * 2 ^ 16)

end Fixed

/-! ## Floats -/

/-- The operations of `float` that a battle uses. -/
class FloatOps (F : Type) where
  /-- the literal `n / 10 ^ k` -/
  lit : ℤ → ℕ → F
  add : F → F → F
  sub : F → F → F
  mul : F → F → F
  div : F → F → F
  sqrt : F → F
  atan2 : F → F → F
  lt : F → F → Bool
  le : F → F → Bool
  /-- `Fixed::from_float` -/
  toFixed : F → Fixed
  /-- `Fixed::to_float` -/
  ofFixed : Fixed → F
  /-- `memcpy` into a `uint32_t` -/
  bits : F → UInt32

/-- Floats without rounding; the angle of `atan2` is left at zero. -/
instance : FloatOps ℚ where
  lit n k := n / 10 ^ k
  add := (· + ·)
  sub := (· - ·)
  mul := (· * ·)
  div := (· / ·)
  sqrt x := Nat.sqrt (x * 4 ^ 32).floor.toNat / 2 ^ 32
  atan2 _ _ := 0
  lt x y := decide (x < y)
  le x y := decide (x ≤ y)
  toFixed x := Int64.ofInt (x * 2 ^ 32).floor
  ofFixed x := x.toInt / 2 ^ 32
  bits x := UInt32.ofNat x.num.natAbs

section Vectors

variable {F : Type} [FloatOps F]

open FloatOps

/-- An integer literal. -/
def int (n : ℤ) : F := lit n 0

/-- `Vec3`. -/
structure Vec3 (F : Type) where
  x : F
  y : F
  z : F
deriving DecidableEq

/-- The point of the ground plane with integer coordinates. -/
def Vec3.ground (x z : ℤ) : Vec3 F := ⟨int x, int 0, int z⟩

/-- `FixedVec3`. -/
structure FixedVec3 where
  x : Fixed
  y : Fixed
  z : Fixed
deriving DecidableEq

/-- `PosFixed`. -/
def Vec3.toFixed (p : Vec3 F) : FixedVec3 :=
  ⟨FloatOps.toFixed p.x, FloatOps.toFixed p.y, FloatOps.toFixed p.z⟩

/-- `DistanceXZ`. -/
def distanceXZ (a b : Vec3 F) : F :=
  let dx := sub a.x b.x
  let dz := sub a.z b.z
  sqrt (add (mul dx dx) (mul dz dz))

/-- `DirectionXZ`. -/
def directionXZ (p q : Vec3 F) : Vec3 F :=
  let dx := sub q.x p.x
  let dz := sub q.z p.z
  let len := sqrt (add (mul dx dx) (mul dz dz))
  if lt len (lit 1 3) then .ground 0 0
  else ⟨div dx len, int 0, div dz len⟩

/-- `DistanceXZFixed`. -/
def distanceXZFixed (a b : FixedVec3) : Fixed :=
  let dx := a.x - b.x
  let dz := a.z - b.z
  Fixed.sqrt (Fixed.mul dx dx + Fixed.mul dz dz)

/-- How far something at a speed gets in `deltaMs`. -/
def stepLength (speed : F) (deltaMs : ℕ) : F := div (mul speed (int deltaMs)) (int 1000)

/-- One step of length `step` towards `target`: whether it gets there, and where it is
then; otherwise also which way it faces. -/
def stepTowards (pos target : Vec3 F) (step : F) : Vec3 F × Option F :=
  if le (distanceXZ pos target) step then (target, none)
  else
    let dir := directionXZ pos target
    (⟨add pos.x (mul dir.x step), pos.y, add pos.z (mul dir.z step)⟩, some (atan2 dir.x dir.z))

end Vectors

end Gmaker.Realtime
