/-
Lengths of time.

A duration is a whole number of nanoseconds with at most 64 bits of seconds.  What would be
longer becomes the longest one.

* `Duration.doubled`, `Duration.min` -- the steps of a growing retry interval;
* `Duration.ofSeconds` -- a binary number of seconds, to the nearest nanosecond;
* `Duration.secondsText` -- the seconds as they stand in a log line.
-/
import Lightshow.Number.Layout

namespace Lightshow

/-- Number of nanoseconds in the longest duration. -/
def Duration.longest : Nat := 18446744073709551615999999999

/-- A length of time of at most 64 bits of seconds. -/
structure Duration where
  nanos : Nat
  nanos_le : nanos ≤ Duration.longest := by decide
  deriving DecidableEq, Repr

namespace Duration

/-- Nanoseconds in a second. -/
def nanosPerSecond : Nat := 1000000000

/-- That many nanoseconds, or the longest duration. -/
def ofNanos (n : Nat) : Duration := ⟨min n longest, Nat.min_le_right ..⟩

/-- No time. -/
def zero : Duration := ⟨0, Nat.zero_le _⟩

/-- Whole seconds. -/
def ofWholeSeconds (seconds : UInt64) : Duration := ofNanos (seconds.toNat * nanosPerSecond)

/-- A nonnegative binary number of seconds, to the nearest nanosecond, a half going to the even
one. -/
def ofSeconds (x : Binary) : Duration := ofNanos (roundDiv (x.num * nanosPerSecond) x.den)

/-- Whole seconds of the duration. -/
def seconds (d : Duration) : Nat := d.nanos / nanosPerSecond

/-- Nanoseconds of the duration beyond its whole seconds. -/
def subsecond (d : Duration) : Nat := d.nanos % nanosPerSecond

/-- The shorter of two durations. -/
def min (a b : Duration) : Duration := if a.nanos ≤ b.nanos then a else b

/-- Twice the duration, or the longest one. -/
def doubled (d : Duration) : Duration := ofNanos (2 * d.nanos)

/-- The seconds of the duration as a double: whole seconds and fraction rounded each on its own,
then added. -/
def toSeconds (d : Duration) : Float :=
  d.seconds.toUInt64.toFloat + d.subsecond.toUInt64.toFloat / 1000000000.0

/-- The seconds as they stand in a log line. -/
def secondsText (d : Duration) : String := Layout.plain.write d.toSeconds

@[simp] theorem nanos_ofNanos (n : Nat) : (ofNanos n).nanos = Nat.min n longest := rfl

theorem eq_of_nanos {a b : Duration} (h : a.nanos = b.nanos) : a = b := by
  cases a
  cases b
  cases h
  rfl

@[simp] theorem nanos_min (a b : Duration) : (a.min b).nanos = Min.min a.nanos b.nanos := by
  rw [min]
  split <;> omega

@[simp] theorem nanos_doubled (d : Duration) :
    d.doubled.nanos = Min.min (2 * d.nanos) longest := rfl

end Duration

end Lightshow
