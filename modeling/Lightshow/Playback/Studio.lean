/-
A simulated bulb as the whole outside of playback.

The studio answers every question at once: calls go to one simulated bulb, pauses take no time,
and reports are thrown away.  It is what a single command is executed against.

* `Studio.answer` -- the answer to a question, and the studio after it.
-/
import Lightshow.Bulb.Simulated
import Lightshow.Playback.Draws
import Lightshow.Playback.Question
import Lightshow.Playback.State

namespace Lightshow

/-- A simulated bulb, what playback has been told, and where its draws come from. -/
structure Studio where
  bulb : Simulated
  /-- Whether the bulb takes a whole colour only by its three parts. -/
  inParts : Bool
  control : Control
  draws : Draws

namespace Studio

/-- A studio that tells playback nothing. -/
def around (bulb : Simulated) (draws : Draws) : Studio := ⟨bulb, false, .idle, draws⟩

/-- Sends a call to the bulb. -/
def perform (c : Call) (s : Studio) : Except BulbError c.Reply × Studio :=
  let (result, bulb) :=
    if s.inParts then inSteps Simulated.perform c s.bulb else Simulated.perform c s.bulb
  (result, { s with bulb })

/-- The answer to a question, and the studio after it. -/
def answer : (q : Question) → Studio → q.Answer × Studio
  | .connect, s =>
    let (result, bulb) := s.bulb.connect
    (result, { s with bulb })
  | .call _ c, s => s.perform c
  | .pause .., s => ((), s)
  | .stopping, s => (s.control.stopping, s)
  | .nextScript, s =>
    let (script, control) := s.control.take
    (script, { s with control })
  | .roll limit positive, s =>
    let (offset, draws) := s.draws.below limit positive
    (offset, { s with draws })
  | .report _, s => ((), s)

end Studio

end Lightshow
