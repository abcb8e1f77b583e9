/-
Jitter: moving a channel by chance.

A channel moves by an offset that is drawn below the magnitude of the variance and shifted down by
half of it, and stays between zero and its upper end.  No variance means no move and no draw.

* `Jitter.moved` -- the channel after a given offset;
* `jitter` -- the channel after an offset that is drawn.
-/
import Lightshow.Number.Saturating

namespace Lightshow

namespace Jitter

/-- Magnitude of a variance; that of the least amount counts as the most. -/
def spread (variance : Int64) : Nat := min variance.toInt.natAbs 9223372036854775807

theorem spread_pos {variance : Int64} (h : variance ≠ 0) : 0 < spread variance := by
  have : variance.toInt ≠ 0 := fun h' => h (Int64.toInt_inj.1 (by simpa using h'))
  simp only [spread]; omega

/-- The channel `base` moved by an offset, in bounds. -/
def moved (base upper : Int64) (spread offset : Nat) : Int64 :=
  let candidate := Saturating.sub (Saturating.add base (Int64.ofNat offset))
    (Int64.ofNat (spread / 2))
  Int64.ofInt (min (max candidate.toInt 0) upper.toInt)

end Jitter

/-- The channel `base` moved by a drawn offset; `roll` draws below a limit. -/
def jitter {m : Type → Type} [Monad m] (roll : (limit : Nat) → 0 < limit → m (Fin limit))
    (base upper variance : Int64) : m Int64 :=
  if h : variance = 0 then pure base
  else do
    let offset ← roll (Jitter.spread variance) (Jitter.spread_pos h)
    pure (Jitter.moved base upper (Jitter.spread variance) offset.val)

end Lightshow
