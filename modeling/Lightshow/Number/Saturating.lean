/-
Sixty-four-bit amounts that stop at the ends of their range.

A script parameter is any 64-bit integer, and no arithmetic on it may wrap: a result outside the
range becomes the nearest end of it.  Each operation is the exact one on integers, then `nearest`.

* `toInt_nearest` -- the value of `nearest n` is `n` clamped to the range.
-/
namespace Lightshow.Saturating

/-- Smallest 64-bit amount. -/
def least : Int := -9223372036854775808

/-- Largest 64-bit amount. -/
def most : Int := 9223372036854775807

/-- The 64-bit amount nearest to an integer. -/
def nearest (n : Int) : Int64 := Int64.ofInt (max least (min n most))

theorem toInt_nearest (n : Int) : (nearest n).toInt = max least (min n most) := by
  have lower : -2 ^ 63 ≤ max least (min n most) := Int.le_max_left ..
  have upper : max least (min n most) < 2 ^ 63 := by simp only [least, most]; omega
  exact Int64.toInt_ofInt_of_le lower upper

/-- Exact sum, then the nearest amount. -/
def add (a b : Int64) : Int64 := nearest (a.toInt + b.toInt)

/-- Exact difference, then the nearest amount. -/
def sub (a b : Int64) : Int64 := nearest (a.toInt - b.toInt)

/-- Exact product, then the nearest amount. -/
def mul (a b : Int64) : Int64 := nearest (a.toInt * b.toInt)

/-- Magnitude; that of the least amount is the most. -/
def abs (a : Int64) : Int64 := nearest a.toInt.natAbs

end Lightshow.Saturating
