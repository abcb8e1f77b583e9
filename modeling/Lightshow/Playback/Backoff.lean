/-
The growing wait between retries.

The first wait of a streak of failures is the initial interval, every further one is twice the one
before, and none exceeds the ceiling.  A success starts the next streak afresh.
-/
import Lightshow.Time.Duration

namespace Lightshow

/-- A retry interval that doubles up to a ceiling. -/
structure Backoff where
  initial : Duration
  ceiling : Duration
  current : Duration

namespace Backoff

/-- A streak that has not begun. -/
def start (initial ceiling : Duration) : Backoff := ⟨initial, ceiling, initial⟩

/-- From one second to half a minute. -/
def usual : Backoff := start (.ofWholeSeconds 1) (.ofWholeSeconds 30)

/-- The interval to wait now, and the one to wait after it. -/
def next (b : Backoff) : Duration × Backoff :=
  (b.current.min b.ceiling, { b with current := b.current.doubled.min b.ceiling })

/-- The streak is over. -/
def reset (b : Backoff) : Backoff := { b with current := b.initial }

end Backoff

end Lightshow
