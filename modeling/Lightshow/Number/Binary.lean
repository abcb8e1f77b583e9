/-
Binary numbers with a limited significand, in exact arithmetic.

A double holds fifty-three significant bits.  `Binary.nearest` rounds a ratio of naturals to that
many bits, a half going to the even neighbour; `Binary.ofBits` reads the magnitude of a double
back from its bits.  Everything is a natural number times a power of two, so that results can be
bounded and compared without floating point.

* `roundDiv_le` -- a rounded quotient is at most one above the exact one.
-/

namespace Lightshow

/-- Quotient rounded to the nearest integer, a half going to the even one. -/
def roundDiv (num den : Nat) : Nat :=
  let q := num / den
  let r := num % den
  if 2 * r < den then q
  else if den < 2 * r then q + 1
  else if q % 2 = 0 then q else q + 1

theorem roundDiv_le (num den : Nat) : roundDiv num den ≤ num / den + 1 := by
  simp only [roundDiv]; split <;> (try split) <;> (try split) <;> omega

/-- The number `significand * 2 ^ exponent`. -/
structure Binary where
  significand : Nat
  exponent : Int
  deriving DecidableEq, Repr

namespace Binary

/-- Numerator of the number as a ratio of naturals. -/
def num (b : Binary) : Nat := b.significand * Nat.pow 2 b.exponent.toNat

/-- Denominator of the number as a ratio of naturals, a power of two. -/
def den (b : Binary) : Nat := Nat.pow 2 (-b.exponent).toNat

/-- The number of fifty-three significant bits nearest to `num / den`, a half going to the even
significand. -/
def nearest (num den : Nat) : Binary :=
  if num = 0 then ⟨0, 0⟩ else
    -- the quotient lies between `2 ^ 52` and `2 ^ 54` units of the first guess
    let guess : Int := (num.log2 : Int) - den.log2 - 53
    let units (e : Int) : Nat × Nat := (num * Nat.pow 2 (-e).toNat, den * Nat.pow 2 e.toNat)
    let (n, d) := units guess
    let e := if n / d < Nat.pow 2 53 then guess else guess + 1
    let (n, d) := units e
    ⟨roundDiv n d, e⟩

/-- Magnitude of a finite double, read from its bits. -/
def ofBits (bits : UInt64) : Binary :=
  let fraction : Nat := bits.toNat % Nat.pow 2 52
  let field : Nat := bits.toNat / Nat.pow 2 52 % Nat.pow 2 11
  if field = 0 then ⟨fraction, -1074⟩ else ⟨Nat.pow 2 52 + fraction, (field : Int) - 1075⟩

end Binary

end Lightshow
