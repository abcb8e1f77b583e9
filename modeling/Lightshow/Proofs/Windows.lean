/-
Where chance can move a level.

A level moves by an offset that is drawn below the magnitude of the variance and shifted down by half
of it, and is brought back into its bounds.  The amounts in between have 64 bits and stop at the ends of
their range, but for a level of 16 bits a stop is never felt: a sum that stops is far beyond the upper
bound either way.  So the result is the exact sum, clamped, and the results of all offsets are an
interval without gaps.

* `Jitter.toInt_moved` -- the level after an offset, in exact integers;
* `Jitter.exists_clamped_iff` -- the levels that some offset leads to;
* `Draws.exists_below` -- every offset is drawn from some source of draws;
* `jitter_covers` -- what comes out of a random move, and all that can.
-/
import Mathlib
import Lightshow.Playback.Draws
import Lightshow.Playback.Jitter

namespace Lightshow

/-! ### Offsets -/

namespace Jitter

theorem spread_le (variance : Int64) : spread variance ≤ 9223372036854775807 := Nat.min_le_right ..

theorem spread_eq (variance : Int64) : spread variance =
    if variance = Int64.minValue then 2 ^ 63 - 1 else variance.toInt.natAbs := by
  have least : variance = Int64.minValue ↔ variance.toInt = -9223372036854775808 :=
    Int64.toInt_inj.symm
  have low := variance.le_toInt
  have high := variance.toInt_lt
  rw [spread]
  split
  next h =>
    rw [least] at h
    omega
  next h =>
    rw [least] at h
    omega

/-- A level moved by an offset in exact integers, and brought into its bounds. -/
def clamped (base upper : Int) (spread offset : Nat) : Int :=
  max 0 (min (base + offset - (spread / 2 : Nat)) upper)

variable {base upper : Int64} {spread offset : Nat}

/-- The exact sum, clamped. -/
theorem toInt_moved (low : 0 ≤ base.toInt) (inside : base.toInt ≤ upper.toInt)
    (small : upper.toInt ≤ 65535) (below : offset < spread) (bounded : spread ≤ 9223372036854775807) :
    (moved base upper spread offset).toInt = clamped base.toInt upper.toInt spread offset := by
  -- the sum may stop at the largest amount; it is far beyond the upper bound then
  have candidate : (Saturating.sub (Saturating.add base (Int64.ofNat offset))
      (Int64.ofNat (spread / 2))).toInt =
        min (base.toInt + offset) Saturating.most - (spread / 2 : Nat) := by
    rw [Saturating.sub, Saturating.add, Saturating.toInt_nearest, Saturating.toInt_nearest,
      Int64.toInt_ofNat_of_lt (by omega), Int64.toInt_ofNat_of_lt (by omega), Saturating.least,
      Saturating.most]
    omega
  rw [moved, candidate, clamped, Saturating.most, Int64.toInt_ofInt_of_le (by omega) (by omega)]
  omega

theorem moved_eq_ofInt (low : 0 ≤ base.toInt) (inside : base.toInt ≤ upper.toInt)
    (small : upper.toInt ≤ 65535) (below : offset < spread) (bounded : spread ≤ 9223372036854775807) :
    moved base upper spread offset = Int64.ofInt (clamped base.toInt upper.toInt spread offset) := by
  rw [← toInt_moved low inside small below bounded, Int64.ofInt_toInt]

/-- The levels that some offset leads to are an interval: the sum goes up by one with the offset, and
clamping leaves no gap. -/
theorem exists_clamped_iff {base upper : Int} (low : 0 ≤ base) (inside : base ≤ upper)
    (some_spread : 0 < spread) (y : Int) :
    (∃ offset : Fin spread, clamped base upper spread offset = y) ↔
      max 0 (base - (spread / 2 : Nat)) ≤ y ∧ y ≤ min upper (base + spread - 1 - (spread / 2 : Nat)) := by
  simp only [clamped]
  constructor
  · rintro ⟨⟨offset, below⟩, rfl⟩
    dsimp only
    omega
  · rintro ⟨least, most⟩
    refine ⟨⟨(y - base + (spread / 2 : Nat)).toNat, by omega⟩, ?_⟩
    dsimp only
    omega

end Jitter

/-! ### Sources of draws -/

namespace Draws

theorem le_zone (limit : Nat) : limit - 1 ≤ zone limit := by
  rw [zone]
  have := Nat.le_mul_of_pos_right limit (Nat.pow_pos (n := 63 - limit.log2) (by decide : 0 < 2))
  exact Nat.sub_le_sub_right this 1

/-- Every offset is drawn from some source. -/
theorem exists_below {limit : Nat} (small : limit < 2 ^ 63) (positive : 0 < limit) (r : Fin limit) :
    ∃ d : Draws, (d.below limit positive).1 = r := by
  -- the least draw whose product with the limit reaches the offset in its upper half
  let v := (r.val * 2 ^ 64 + (limit - 1)) / limit
  have above : r.val * 2 ^ 64 ≤ v * limit := by
    have := Nat.lt_div_mul_add positive (a := r.val * 2 ^ 64 + (limit - 1))
    show _ ≤ (r.val * 2 ^ 64 + (limit - 1)) / limit * limit
    omega
  have close : v * limit ≤ r.val * 2 ^ 64 + (limit - 1) := Nat.div_mul_le_self _ _
  have word : v < 2 ^ 64 := by
    refine Nat.div_lt_of_lt_mul ?_
    have := Nat.mul_le_mul_right (2 ^ 64) (Nat.le_sub_one_of_lt r.isLt)
    omega
  have same : v.toUInt64.toNat = v := UInt64.toNat_ofNat_of_lt' word
  have fair : v.toUInt64.toNat * limit % Nat.pow 2 64 ≤ zone limit := by
    have left : v * limit % 2 ^ 64 = v * limit - r.val * 2 ^ 64 := by omega
    have := le_zone limit
    show v.toUInt64.toNat * limit % 2 ^ 64 ≤ zone limit
    rw [same]
    omega
  refine ⟨start [v.toUInt64] 0, ?_⟩
  have first : (start [v.toUInt64] 0).next.1 = v.toUInt64 := rfl
  rw [below, show (start [v.toUInt64] 0).listed.length + patience = patience + 1 by rfl, draw]
  dsimp only
  rw [first, if_pos fair]
  refine Fin.ext ?_
  show v.toUInt64.toNat * limit / 2 ^ 64 = r.val
  rw [same]
  omega

end Draws

/-! ### Random moves -/

/-- **A random move is the exact sum, clamped, and reaches its whole window.**  Without variance the
level stays, and nothing is drawn; with some, one offset is drawn. -/
theorem jitter_covers {σ : Type} {roll : (limit : Nat) → 0 < limit → StateM σ (Fin limit)}
    {base upper variance : Int64} (low : 0 ≤ base) (inside : base ≤ upper) (small : upper ≤ 65535)
    (each : ∀ positive (offset : Fin (Jitter.spread variance)),
      ∃ s, ((roll _ positive).run s).1 = offset) :
    Jitter.spread variance =
        (if variance = Int64.minValue then 2 ^ 63 - 1 else variance.toInt.natAbs) ∧
      (variance = 0 → ∀ (m : Type → Type) [Monad m] (draw : (limit : Nat) → 0 < limit → m (Fin limit)),
        jitter draw base upper variance = pure base) ∧
      ∀ nonzero : variance ≠ 0,
        (∀ (m : Type → Type) [Monad m] [LawfulMonad m]
          (draw : (limit : Nat) → 0 < limit → m (Fin limit)),
          jitter draw base upper variance =
            (fun offset : Fin _ => Int64.ofInt (Jitter.clamped base.toInt upper.toInt
              (Jitter.spread variance) offset)) <$> draw _ (Jitter.spread_pos nonzero)) ∧
        ∀ y : Int, (∃ s, ((jitter roll base upper variance).run s).1.toInt = y) ↔
          max 0 (base.toInt - (Jitter.spread variance / 2 : Nat)) ≤ y ∧
            y ≤ min upper.toInt
              (base.toInt + Jitter.spread variance - 1 - (Jitter.spread variance / 2 : Nat)) := by
  rw [Int64.le_iff_toInt_le] at low inside small
  have low : 0 ≤ base.toInt := low
  have small : upper.toInt ≤ 65535 := small
  have bounded := Jitter.spread_le variance
  refine ⟨Jitter.spread_eq variance, fun zero m _ draw => dif_pos zero, fun nonzero => ?_⟩
  -- the sum stays within 64 bits, so that it is exact before it is clamped
  have once (m : Type → Type) [Monad m] [LawfulMonad m]
      (draw : (limit : Nat) → 0 < limit → m (Fin limit)) :
      jitter draw base upper variance =
        (fun offset : Fin _ => Int64.ofInt (Jitter.clamped base.toInt upper.toInt
          (Jitter.spread variance) offset)) <$> draw _ (Jitter.spread_pos nonzero) := by
    rw [jitter, dif_neg nonzero, ← bind_pure_comp]
    refine congrArg (draw _ _ >>= ·) (funext fun offset => ?_)
    rw [Jitter.moved_eq_ofInt low inside small offset.isLt bounded]
  refine ⟨once, fun y => ?_⟩
  rw [← Jitter.exists_clamped_iff low inside (Jitter.spread_pos nonzero), once]
  -- and what is clamped can be read off the integer it is made to
  have back (offset : Nat) : (Int64.ofInt (Jitter.clamped base.toInt upper.toInt
      (Jitter.spread variance) offset)).toInt =
        Jitter.clamped base.toInt upper.toInt (Jitter.spread variance) offset := by
    rw [Int64.toInt_ofInt_of_le] <;> simp only [Jitter.clamped] <;> omega
  constructor
  · rintro ⟨s, rfl⟩
    exact ⟨_, (back _).symm⟩
  · rintro ⟨offset, rfl⟩
    obtain ⟨s, hs⟩ := each (Jitter.spread_pos nonzero) offset
    refine ⟨s, ?_⟩
    show (Int64.ofInt (Jitter.clamped base.toInt upper.toInt (Jitter.spread variance)
      ((roll _ _).run s).1)).toInt = _
    rw [hs, back]

/-- From a hundred, a variance of minus ten leads to 95 at the least and to 104 at the most. -/
theorem jitter_covers_hundred :
    ((0 : Int64) ≤ 100 ∧ (100 : Int64) ≤ 255 ∧ (255 : Int64) ≤ 65535 ∧
      ∀ positive (offset : Fin (Jitter.spread (-10))),
        ∃ d : Draws, (d.below (Jitter.spread (-10)) positive).1 = offset) ∧
      ∀ y : Int, (∃ d : Draws,
        ((jitter (m := StateM Draws) (fun limit positive d => d.below limit positive)
          100 255 (-10)).run d).1.toInt = y) ↔ 95 ≤ y ∧ y ≤ 104 := by
  have ten : Jitter.spread (-10) = 10 := by decide
  have each : ∀ positive (offset : Fin (Jitter.spread (-10))),
      ∃ d : Draws, (d.below (Jitter.spread (-10)) positive).1 = offset :=
    fun positive => Draws.exists_below (by rw [ten]; decide) positive
  have low : (0 : Int64) ≤ 100 := by decide
  have inside : (100 : Int64) ≤ 255 := by decide
  have small : (255 : Int64) ≤ 65535 := by decide
  refine ⟨⟨low, inside, small, each⟩, fun y => ?_⟩
  obtain ⟨-, -, moves⟩ := @jitter_covers Draws (fun limit positive d => d.below limit positive)
    100 255 (-10) low inside small each
  refine ((moves (by decide)).2 y).trans ?_
  rw [ten, show (100 : Int64).toInt = 100 by rfl, show (255 : Int64).toInt = 255 by rfl]
  omega

end Lightshow
