/-
Executing one command.

A command turns into calls through one handle, with the state of playback kept at every point: a
call that fails ends the execution, and what had been told to the bulb before stays remembered.

* `execute` -- the calls of a command, and what to do after it.
-/
import Lightshow.Playback.Jitter
import Lightshow.Playback.Question
import Lightshow.Playback.State
import Lightshow.Time.Ticks

namespace Lightshow

/-- An execution asks questions, changes the state of playback, and may fail. -/
abbrev Execution := Talk BulbError PlaybackState Question Question.Answer

namespace Execution

/-- Asks the outside. -/
abbrev ask (q : Question) : Execution q.Answer := Talk.ask q

/-- Sends a call; the execution fails with it. -/
def send (handle : Nat) (c : Call) : Execution c.Reply := do
  match ← ask (.call handle c) with
  | .ok reply => pure reply
  | .error cause => throw cause

/-- Turns the bulb on, unless that was the last it was told. -/
def powerOn (handle : Nat) : Execution Unit := do
  if (← get).power = .off then
    send handle .turnOn
    modify fun s => { s with power := .on }

/-- Turns the bulb off, unless that was the last it was told. -/
def powerOff (handle : Nat) : Execution Unit := do
  if (← get).power = .on then
    send handle .turnOff
    modify fun s => { s with power := .off }

/-- Moves a channel by chance. -/
def jittered (base upper variance : Int64) : Execution Int64 :=
  jitter (fun limit positive => ask (.roll limit positive)) base upper variance

end Execution

/-- Largest saturation, brightness and channel of a colour. -/
def levelMax : Int64 := 255

/-- Largest hue. -/
def hueMax : Int64 := 65535

/-- The level nearest to an amount. -/
def toLevel (v : Int64) : UInt8 := (max 0 (min v.toInt 255)).toNat.toUInt8

/-- The hue nearest to an amount. -/
def toHue (v : Int64) : UInt16 := (max 0 (min v.toInt 65535)).toNat.toUInt16

/-- A hue given on the scale of levels, stretched to the scale of hues. -/
def stretchedHue (v : Int64) : Int64 := Saturating.mul v hueMax / levelMax

/-- Seconds that changes take after a fade command: tenths of a tick, as many as the speed is
below the largest level. -/
def fadeSeconds (speed : Int64) : Float :=
  (max 0 (Saturating.sub levelMax speed)).toUInt64.toFloat / 300.0

/-- What playback does after a command. -/
inductive Dispatch where
  | sleep (length : Duration)
  /-- A stop had been requested, and nothing was done. -/
  | skip
  deriving DecidableEq, Repr

open Execution in
/-- The calls of an instruction. -/
def perform (handle : Nat) (c : Command) : Execution Unit :=
  match c.instruction with
  | .fade => send handle (.setTransition (fadeSeconds (c.param 0)))
  | .timeAdjust => modify fun s => s.adjustTime (c.param 0)
  | .hsb =>
    if c.param 2 = 0 then powerOff handle
    else do
      powerOn handle
      send handle (.setHsb ⟨toHue (stretchedHue (c.param 0)), toLevel (c.param 1),
        toLevel (c.param 2)⟩)
  | .hsbJitter => do
    let hue ← send handle .getHue
    let saturation ← send handle .getSaturation
    let brightness ← send handle .getBrightness
    let hue ← jittered (Int64.ofNat hue.toNat) hueMax (stretchedHue (c.param 0))
    let saturation ← jittered (Int64.ofNat saturation.toNat) levelMax (c.param 1)
    let brightness ← jittered (Int64.ofNat brightness.toNat) levelMax (c.param 2)
    send handle (.setHsb ⟨toHue hue, toLevel saturation, toLevel brightness⟩)
  | .rgb =>
    if c.param 0 = 0 ∧ c.param 1 = 0 ∧ c.param 2 = 0 then powerOff handle
    else do
      powerOn handle
      send handle (.setRgb ⟨toLevel (c.param 0), toLevel (c.param 1), toLevel (c.param 2)⟩)
  | .rgbJitter => do
    let rgb ← send handle .getRgb
    let red ← jittered (Int64.ofNat rgb.red.toNat) levelMax (c.param 0)
    let green ← jittered (Int64.ofNat rgb.green.toNat) levelMax (c.param 1)
    let blue ← jittered (Int64.ofNat rgb.blue.toNat) levelMax (c.param 2)
    send handle (.setRgb ⟨toLevel red, toLevel green, toLevel blue⟩)
  | .unknown _ => pure ()

open Execution in
/-- A command as calls, and the wait after it; once a stop has been requested it does nothing. -/
def execute (handle : Nat) (c : Command) : Execution Dispatch := do
  if ← ask .stopping then return .skip
  perform handle c
  return .sleep (tickPause c.delay (← get).timeAdjust)

end Lightshow
