/-
The shortest decimal that reads back as a given double.

The reals that round to a double form an interval around it, with its ends included exactly when
the significand is even.  `Decimal.shortest` looks on coarser and coarser decimal grids, from one
digit on: on the first grid with a point inside the interval it takes the nearer of the two
neighbours of the value, and of two equally near ones the even.  All comparisons are between
naturals.
-/
import Lightshow.Number.Binary

namespace Lightshow

/-- The number `digits * 10 ^ exponent`. -/
structure Decimal where
  digits : Nat
  exponent : Int
  deriving DecidableEq, Repr

/-- The interval of reals that round to one double, in units of `2 ^ exponent`. -/
structure RoundingInterval where
  low : Nat
  value : Nat
  high : Nat
  exponent : Int
  closed : Bool

namespace RoundingInterval

/-- A quarter of the distance between neighbours is the unit; below a power of two the
neighbours are twice as close. -/
def around (b : Binary) : RoundingInterval where
  low := if b.significand = Nat.pow 2 52 ∧ -1074 < b.exponent then 4 * b.significand - 1
    else 4 * b.significand - 2
  value := 4 * b.significand
  high := 4 * b.significand + 2
  exponent := b.exponent - 2
  closed := b.significand % 2 = 0

/-- Whether `digits * 10 ^ place` lies in the interval. -/
def holds (i : RoundingInterval) (digits : Nat) (place : Int) : Bool :=
  let point := digits * Nat.pow 10 place.toNat * Nat.pow 2 (-i.exponent).toNat
  let unit := Nat.pow 2 i.exponent.toNat * Nat.pow 10 (-place).toNat
  if i.closed then i.low * unit ≤ point ∧ point ≤ i.high * unit
  else i.low * unit < point ∧ point < i.high * unit

end RoundingInterval

namespace Decimal

/-- Number of decimal digits of a natural; zero has one. -/
def length (n : Nat) : Nat := (Nat.toDigits 10 n).length

/-- The `k` with `10 ^ (k - 1) ≤ num / den < 10 ^ k`, for a positive ratio. -/
def magnitude (num den : Nat) : Int :=
  if den ≤ num then length (num / den)
  else 1 - (length ((den + num - 1) / num - 1) : Int)

/-- Drops the zeros at the end of the digits, as many as `fuel` allows. -/
def trim : Nat → Decimal → Decimal
  | 0, d => d
  | fuel + 1, d =>
    if d.digits ≠ 0 ∧ d.digits % 10 = 0 then trim fuel ⟨d.digits / 10, d.exponent + 1⟩ else d

/-- The point of the grid of multiples of `10 ^ place` that is nearest to the value, among those
in its rounding interval. -/
def onGrid? (i : RoundingInterval) (num den : Nat) (place : Int) : Option Decimal :=
  let n := num * Nat.pow 10 (-place).toNat
  let d := den * Nat.pow 10 place.toNat
  let below := n / d
  let above := below + 1
  let nearer := roundDiv n d
  let other := if nearer = below then above else below
  if i.holds nearer place then some ⟨nearer, place⟩
  else if i.holds other place then some ⟨other, place⟩
  else none

/-- The decimal of fewest digits in the rounding interval of a binary number, nearest to it. -/
def shortest (b : Binary) : Decimal :=
  if b.significand = 0 then ⟨0, 0⟩ else
    let i := RoundingInterval.around b
    let top := magnitude b.num b.den
    let found := (List.range 17).findSome? fun (count : Nat) =>
      onGrid? i b.num b.den (top - 1 - count)
    trim 20 (found.getD ⟨roundDiv (b.num * Nat.pow 10 (17 - top).toNat)
      (b.den * Nat.pow 10 (top - 17).toNat), top - 17⟩)

end Decimal

end Lightshow
