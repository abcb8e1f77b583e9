/-
What playback asks of the outside.

Everything that playback does to the world, and everything it learns from it, is a question: a
connect, a call through a handle, a pause, a look at the control, a random draw, a report.  So a
playback is a `Dialogue` of questions, and any bulb, clock and control is a way to answer them.
-/
import Lightshow.Dialogue
import Lightshow.Playback.Message

namespace Lightshow

/-- What a pause is for. -/
inductive Pause where
  /-- The wait of a command. -/
  | pacing
  /-- The wait in place of a pass over an empty script. -/
  | idling
  /-- The wait before a retry. -/
  | retrying
  deriving DecidableEq, Repr

/-- A question to the outside. -/
inductive Question where
  /-- Open a handle of the bulb. -/
  | connect
  /-- Send a call through a handle. -/
  | call (handle : Nat) (c : Call)
  | pause (purpose : Pause) (length : Duration)
  /-- Has a stop been requested? -/
  | stopping
  /-- Is there a script to go on with? -/
  | nextScript
  /-- Draw an offset below a limit. -/
  | roll (limit : Nat) (positive : 0 < limit)
  | report (message : Message)

/-- What the outside answers. -/
@[reducible] def Question.Answer : Question → Type
  | .connect => Except BulbError Nat
  | .call _ c => Except BulbError c.Reply
  | .pause .. => Unit
  | .stopping => Bool
  | .nextScript => Option Script
  | .roll limit _ => Fin limit
  | .report _ => Unit

end Lightshow
