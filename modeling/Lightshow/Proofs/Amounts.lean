/-
Amounts of 64 bits, and numbers without bounds.

Some operations on amounts have no result: a quotient may not fit or have no divisor, bounds may be
crossed, a number may be too wide for its type, and a length of time too long.  Here they say so, and the
ones that commands come to all have a result.

Sums and products stop at the ends of the range of amounts.  What becomes a level or a hue is clamped to a
much smaller range afterwards, so that the stop is not felt; and a speed whose distance from the largest
level stops is so far off that the double nearest to the distance is the same.

* `Amount.div?`, `Amount.clamp?`, `Amount.narrow?`, `Duration.ofSeconds?` -- operations that can fail;
* `Amount.level?_eq`, `Amount.hue?_eq`, `Amount.stretchedHue?_eq`, `tickPause?_eq` -- they do not;
* `tickSeconds_le` -- the rounded seconds are far from the longest duration;
* `toNat_toHue_stretched`, `fadeSeconds_eq`, `tickPause_of_nonpos` -- a stop is not felt.
-/
import Lightshow.Proofs.Perturbing

namespace Lightshow

/-! ### Operations that can fail -/

namespace Amount

/-- The quotient, truncated; there is none by zero, and none that is too large. -/
def div? (a b : Int64) : Option Int64 :=
  if b = 0 ∨ (a = Int64.minValue ∧ b = -1) then none else some (a / b)

/-- The amount between two bounds that is nearest to another; there is none if they are crossed. -/
def clamp? (v low high : Int64) : Option Int64 :=
  if high < low then none else some (if v < low then low else if high < v then high else v)

/-- The amount as a number of that many bits; there is none if it has more, or is negative. -/
def narrow? (bits : Nat) (v : Int64) : Option Nat :=
  if 0 ≤ v.toInt ∧ v.toInt < 2 ^ bits then some v.toInt.toNat else none

/-- The level nearest to an amount. -/
def level? (v : Int64) : Option UInt8 := ((clamp? v 0 levelMax).bind (narrow? 8)).map Nat.toUInt8

/-- The hue nearest to an amount. -/
def hue? (v : Int64) : Option UInt16 := ((clamp? v 0 hueMax).bind (narrow? 16)).map Nat.toUInt16

/-- A hue given on the scale of levels, stretched to the scale of hues. -/
def stretchedHue? (v : Int64) : Option Int64 := div? (Saturating.mul v hueMax) levelMax

end Amount

/-- A nonnegative binary number of seconds; there is no duration longer than the longest. -/
def Duration.ofSeconds? (x : Binary) : Option Duration :=
  let n := roundDiv (x.num * nanosPerSecond) x.den
  if h : n ≤ longest then some ⟨n, h⟩ else none

/-- The wait for a delay and a running adjustment. -/
def tickPause? (delay : UInt32) (adjust : Int64) : Option Duration :=
  let ticks := Saturating.add (Int64.ofNat delay.toNat) adjust
  if ticks ≤ 0 then some .zero else Duration.ofSeconds? (tickSeconds ticks.toInt.toNat)

/-! ### Operations that have a result -/

namespace Amount

theorem toInt_max (a b : Int64) : (max a b).toInt = max a.toInt b.toInt := by
  have unfolded : max a b = if a ≤ b then b else a := rfl
  rw [unfolded]
  split
  next le => rw [Int64.le_iff_toInt_le] at le; omega
  next le => rw [Int64.le_iff_toInt_le] at le; omega

theorem toInt_min (a b : Int64) : (min a b).toInt = min a.toInt b.toInt := by
  have unfolded : min a b = if a ≤ b then a else b := rfl
  rw [unfolded]
  split
  next le => rw [Int64.le_iff_toInt_le] at le; omega
  next le => rw [Int64.le_iff_toInt_le] at le; omega

theorem div?_eq {a b : Int64} (positive : 0 < b.toInt) : div? a b = some (a / b) := by
  refine if_neg fun undefined => ?_
  rcases undefined with rfl | ⟨-, rfl⟩ <;> exact absurd positive (by decide)

/-- Between bounds that are not crossed there is a nearest amount. -/
theorem clamp?_eq (v : Int64) {low high : Int64} (ordered : low.toInt ≤ high.toInt) :
    ∃ c, clamp? v low high = some c ∧ c.toInt = max low.toInt (min v.toInt high.toInt) := by
  rw [clamp?, if_neg (by rw [Int64.lt_iff_toInt_lt]; omega)]
  refine ⟨_, rfl, ?_⟩
  simp only [Int64.lt_iff_toInt_lt]
  split
  · omega
  · split <;> omega

/-- A clamped amount has no more bits than its bounds. -/
theorem narrow?_clamp? (v : Int64) {bits : Nat} {high : Int64} (natural : 0 ≤ high.toInt)
    (small : high.toInt < 2 ^ bits) :
    (clamp? v 0 high).bind (narrow? bits) = some (max 0 (min v.toInt high.toInt)).toNat := by
  have ordered : (0 : Int64).toInt ≤ high.toInt := natural
  obtain ⟨c, clamped, value⟩ := clamp?_eq v ordered
  have value : c.toInt = max 0 (min v.toInt high.toInt) := value
  rw [clamped, Option.bind_some, narrow?, value, if_pos (by omega)]

theorem level?_eq (v : Int64) : level? v = some (toLevel v) := by
  rw [level?, narrow?_clamp? v (by decide) (by decide)]
  rfl

theorem hue?_eq (v : Int64) : hue? v = some (toHue v) := by
  rw [hue?, narrow?_clamp? v (by decide) (by decide)]
  rfl

theorem stretchedHue?_eq (v : Int64) : stretchedHue? v = some (stretchedHue v) :=
  div?_eq (by decide)

end Amount

namespace Binary

/-- A number is rounded in units of which it has at least one. -/
theorem nearest_eq {num : Nat} (nonzero : num ≠ 0) (den : Nat) : ∃ e : Int,
    nearest num den = ⟨roundDiv (num * 2 ^ (-e).toNat) (den * 2 ^ e.toNat), e⟩ ∧
      den * 2 ^ e.toNat ≤ num * 2 ^ (-e).toNat := by
  let guess : Int := (num.log2 : Int) - den.log2 - 53
  let e := if num * 2 ^ (-guess).toNat / (den * 2 ^ guess.toNat) < 2 ^ 53 then guess else guess + 1
  have below : e ≤ (num.log2 : Int) - den.log2 - 52 := by
    simp only [e, guess]
    split <;> omega
  refine ⟨e, if_neg nonzero, ?_⟩
  calc den * 2 ^ e.toNat ≤ 2 ^ (den.log2 + 1) * 2 ^ e.toNat :=
        Nat.mul_le_mul_right _ Nat.lt_log2_self.le
    _ = 2 ^ (den.log2 + 1 + e.toNat) := (Nat.pow_add ..).symm
    _ ≤ 2 ^ (num.log2 + (-e).toNat) := Nat.pow_le_pow_right (by decide) (by omega)
    _ = 2 ^ num.log2 * 2 ^ (-e).toNat := Nat.pow_add ..
    _ ≤ num * 2 ^ (-e).toNat := Nat.mul_le_mul_right _ (Nat.log2_self_le nonzero)

/-- Rounding to so many bits at most doubles a number. -/
theorem num_nearest_le (num den : Nat) :
    (nearest num den).num * den ≤ 2 * num * (nearest num den).den := by
  rcases eq_or_ne num 0 with rfl | nonzero
  · rw [nearest, if_pos rfl, Binary.num, Nat.zero_mul, Nat.zero_mul]
    exact Nat.zero_le _
  obtain ⟨e, rounded, whole⟩ := nearest_eq nonzero den
  rw [rounded]
  show roundDiv (num * 2 ^ (-e).toNat) (den * 2 ^ e.toNat) * 2 ^ e.toNat * den ≤
    2 * num * 2 ^ (-e).toNat
  rw [Nat.mul_assoc 2]
  generalize num * 2 ^ (-e).toNat = n at whole ⊢
  calc _ = roundDiv n (den * 2 ^ e.toNat) * (den * 2 ^ e.toNat) := by ring
    _ ≤ (n / (den * 2 ^ e.toNat) + 1) * (den * 2 ^ e.toNat) := Nat.mul_le_mul_right _ (roundDiv_le _ _)
    _ ≤ n + den * 2 ^ e.toNat := by
      rw [Nat.add_mul, Nat.one_mul]
      exact Nat.add_le_add_right (Nat.div_mul_le_self _ _) _
    _ ≤ 2 * n := by omega

theorem den_pos (b : Binary) : 0 < b.den := Nat.two_pow_pos _

end Binary

/-- Ticks are thirtieths of a second, and rounding at most doubles them, twice. -/
theorem tickSeconds_le (ticks : Nat) :
    (tickSeconds ticks).num * 30 ≤ 4 * ticks * (tickSeconds ticks).den := by
  have first := Binary.num_nearest_le ticks 1
  have positive := (Binary.nearest ticks 1).den_pos
  have second := Binary.num_nearest_le (Binary.nearest ticks 1).num
    (30 * (Binary.nearest ticks 1).den)
  rw [Nat.mul_one] at first
  refine Nat.le_of_mul_le_mul_right ?_ positive
  calc _ ≤ _ := by
        rw [Nat.mul_assoc]
        exact second
    _ ≤ 2 * (2 * ticks * (Binary.nearest ticks 1).den) * (tickSeconds ticks).den :=
      Nat.mul_le_mul_right _ (Nat.mul_le_mul_left 2 first)
    _ = _ := by ring

theorem Duration.ofSeconds?_eq {x : Binary} (limit : Nat) (bounded : x.num ≤ limit * x.den)
    (short : limit * nanosPerSecond < longest) : ofSeconds? x = some (ofSeconds x) := by
  have fits : roundDiv (x.num * nanosPerSecond) x.den ≤ longest :=
    calc _ ≤ x.num * nanosPerSecond / x.den + 1 := roundDiv_le _ _
      _ ≤ limit * nanosPerSecond + 1 := by
        refine Nat.succ_le_succ (Nat.div_le_of_le_mul ?_)
        calc _ ≤ limit * x.den * nanosPerSecond := Nat.mul_le_mul_right _ bounded
          _ = _ := by ring
      _ ≤ longest := short
  rw [ofSeconds?, dif_pos fits]
  exact congrArg some (eq_of_nanos (Nat.min_eq_left fits).symm)

theorem tickPause?_eq (delay : UInt32) (adjust : Int64) :
    tickPause? delay adjust = some (tickPause delay adjust) := by
  rw [tickPause?, tickPause]
  generalize Saturating.add (Int64.ofNat delay.toNat) adjust = ticks
  split
  · rfl
  have := ticks.toInt_lt
  have bounded := tickSeconds_le ticks.toInt.toNat
  have : 4 * ticks.toInt.toNat * (tickSeconds ticks.toInt.toNat).den ≤
    2 ^ 65 * (tickSeconds ticks.toInt.toNat).den := Nat.mul_le_mul_right _ (by omega)
  exact Duration.ofSeconds?_eq (2 ^ 61) (by omega) (by decide)

/-! ### Where a stop is not felt -/

/-- A product that stops at an end of its range is clamped to the same end as the exact one. -/
theorem toNat_toHue_stretched (v : Int64) :
    ((toHue (stretchedHue v)).toNat : Int) = max 0 (min (257 * v.toInt) 65535) := by
  have quotient : (stretchedHue v).toInt =
      (max Saturating.least (min (v.toInt * 65535) Saturating.most)).tdiv 255 := by
    rw [stretchedHue, Int64.toInt_div_of_ne_right _ _ (by decide), Saturating.mul,
      Saturating.toInt_nearest]
    rfl
  rw [toNat_toHue_eq, quotient, Saturating.least, Saturating.most, Int.tdiv_eq_ediv,
    show Int.sign 255 = 1 by rfl]
  split <;> omega

/-- The largest amount and all numbers that are a little larger have the same double. -/
theorem toFloat_of_stopped {n : Nat} (low : 2 ^ 63 ≤ n) (high : n < 2 ^ 63 + 256) :
    (UInt64.ofNat n).toFloat = (UInt64.ofNat (2 ^ 63 - 1)).toFloat := by
  have all : ∀ k : Fin 256,
      (UInt64.ofNat (2 ^ 63 + k)).toFloat = (UInt64.ofNat (2 ^ 63 - 1)).toFloat := by
    decide +kernel
  obtain ⟨k, rfl⟩ := Nat.exists_eq_add_of_le low
  exact all ⟨k, by omega⟩

/-- A distance that stops has the same double as the exact one. -/
theorem fadeSeconds_eq (speed : Int64) : ∃ n : UInt64,
    (n.toNat : Int) = max 0 (255 - speed.toInt) ∧ fadeSeconds speed = n.toFloat / 300.0 := by
  have low := speed.le_toInt
  have stopped : (max 0 (Saturating.sub levelMax speed)).toInt =
      max 0 (min (255 - speed.toInt) (2 ^ 63 - 1)) := by
    rw [Amount.toInt_max, Saturating.sub, Saturating.toInt_nearest, Saturating.least, Saturating.most,
      show levelMax.toInt = 255 by rfl, show (0 : Int64).toInt = 0 by rfl]
    omega
  have value : (max 0 (Saturating.sub levelMax speed)).toUInt64.toNat =
      (max 0 (min (255 - speed.toInt) (2 ^ 63 - 1))).toNat := by
    rw [Int64.toNat_toUInt64_of_le, ← stopped]
    · rfl
    · rw [Int64.le_iff_toInt_le, stopped]
      exact Int.le_max_left ..
  have fits : (max 0 (255 - speed.toInt)).toNat < 2 ^ 64 := by omega
  refine ⟨UInt64.ofNat (max 0 (255 - speed.toInt)).toNat, ?_, ?_⟩
  · rw [UInt64.toNat_ofNat_of_lt' fits]
    omega
  rw [fadeSeconds]
  congr 1
  by_cases stops : 255 - speed.toInt < 2 ^ 63
  · refine congrArg UInt64.toFloat (UInt64.toNat_inj.mp ?_)
    rw [value, UInt64.toNat_ofNat_of_lt' fits]
    omega
  · have most : (max 0 (Saturating.sub levelMax speed)).toUInt64 = UInt64.ofNat (2 ^ 63 - 1) := by
      refine UInt64.toNat_inj.mp ?_
      rw [value, UInt64.toNat_ofNat_of_lt' (by decide)]
      omega
    rw [most]
    exact (toFloat_of_stopped (by omega) (by omega)).symm

/-- A wait of nothing or less is no wait. -/
theorem tickPause_of_nonpos {delay : UInt32} {adjust : Int64}
    (past : (delay.toNat : Int) + adjust.toInt ≤ 0) : tickPause delay adjust = .zero := by
  have small := delay.toNat_lt
  have ticks : Saturating.add (Int64.ofNat delay.toNat) adjust ≤ 0 := by
    rw [Int64.le_iff_toInt_le, Saturating.add, Saturating.toInt_nearest,
      Int64.toInt_ofNat_of_lt (by omega), Saturating.least, Saturating.most]
    show _ ≤ (0 : Int)
    omega
  exact if_pos ticks

end Lightshow
