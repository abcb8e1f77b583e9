/-
Ticks, the time unit of scripts.

A command waits for its delay and the running time adjustment, together taken as ticks of a
thirtieth of a second.  The wait is computed the way doubles would: the ticks as a double,
divided by thirty, to the nearest nanosecond, but in exact arithmetic.

* `tickPause` -- the wait after a command; a negative total waits no time.
-/
import Lightshow.Number.Saturating
import Lightshow.Time.Duration

namespace Lightshow

/-- Ticks in a second. -/
def ticksPerSecond : Nat := 30

/-- A number of ticks as seconds, rounded as a quotient of doubles. -/
def tickSeconds (ticks : Nat) : Binary :=
  let x := Binary.nearest ticks 1
  Binary.nearest x.num (ticksPerSecond * x.den)

/-- The wait for a delay and a running adjustment. -/
def tickPause (delay : UInt32) (adjust : Int64) : Duration :=
  let ticks := Saturating.add (Int64.ofNat delay.toNat) adjust
  if ticks ≤ 0 then Duration.zero else Duration.ofSeconds (tickSeconds ticks.toInt.toNat)

end Lightshow
