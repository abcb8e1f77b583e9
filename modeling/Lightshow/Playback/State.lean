/-
What playback remembers, and what it is told meanwhile.

`PlaybackState` belongs to playback alone and goes from one command to the next.  `Control` is how
a running playback is reached: a request to stop, and one place for a script to go on with.
-/
import Lightshow.Number.Saturating
import Lightshow.Script

namespace Lightshow

/-- Whether the bulb was last told to be on. -/
inductive Power where
  | on
  | off
  deriving DecidableEq, Repr

/-- What playback carries from one command to the next. -/
structure PlaybackState where
  power : Power
  /-- Ticks added to the delay of every command. -/
  timeAdjust : Int64
  deriving DecidableEq, Repr

namespace PlaybackState

/-- Nothing has been told and nothing is added. -/
def initial : PlaybackState := ⟨.off, 0⟩

/-- A zero resets the time adjustment, anything else is added to it. -/
def adjustTime (s : PlaybackState) (delta : Int64) : PlaybackState :=
  { s with timeAdjust := if delta = 0 then 0 else Saturating.add s.timeAdjust delta }

end PlaybackState

/-- What a running playback can be told. -/
structure Control where
  stopping : Bool
  pending : Option Script

namespace Control

/-- Nothing has been told. -/
def idle : Control := ⟨false, none⟩

/-- Asks playback to stop; gives whether it is the first to ask. -/
def requestStop (c : Control) : Bool × Control := (!c.stopping, { c with stopping := true })

/-- Leaves a script to go on with, instead of one left earlier. -/
def submit (c : Control) (s : Script) : Control := { c with pending := some s }

/-- Takes the script that was left. -/
def take (c : Control) : Option Script × Control := (c.pending, { c with pending := none })

end Control

end Lightshow
