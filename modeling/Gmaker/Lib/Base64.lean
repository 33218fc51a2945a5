import Mathlib

/-!
# Gmaker.Lib.Base64 — the base 64 encoding

The encoding of RFC 4648, section 4: three bytes are a number of 24 bits, which is written
with four digits to the base 64; the last one or two bytes are written with two or three
digits, as if zeros followed, and are filled up with `=`.
-/

namespace Gmaker.Lib.Base64

/-- The digits: `A` to `Z`, `a` to `z`, `0` to `9`, `+` and `/`. -/
def digit (n : ℕ) : UInt8 :=
  UInt8.ofNat (if n < 26 then 65 + n
    else if n < 52 then 97 + (n - 26)
    else if n < 62 then 48 + (n - 52)
    else if n = 62 then 43
    else 47)

/-- `=`. -/
def pad : UInt8 := 61

/-- The encoding. -/
def encode : List UInt8 → List UInt8
  | [] => []
  | [x] => [digit (x.toNat / 4), digit (x.toNat % 4 * 16), pad, pad]
  | [x, y] =>
    [digit (x.toNat / 4), digit (x.toNat % 4 * 16 + y.toNat / 16), digit (y.toNat % 16 * 4), pad]
  | x :: y :: z :: rest =>
    digit (x.toNat / 4) :: digit (x.toNat % 4 * 16 + y.toNat / 16) ::
      digit (y.toNat % 16 * 4 + z.toNat / 64) :: digit (z.toNat % 64) :: encode rest

example : encode [102, 111, 111, 98] = [90, 109, 57, 118, 89, 103, 61, 61] := by decide

end Gmaker.Lib.Base64
