/-
A light as a Hue bridge describes it.

The bridge tells whether a light is on and, for lights that have them, its brightness, hue and
saturation.  Brightness and saturation that it accepts end at `levelLimit`, and changes take whole
tenths of a second.

* `Hue.State.ofReply` -- the state of a light from the reply of a bridge;
* `Hue.deciseconds`, `Hue.secondsOf` -- transition times in units of the bridge.
-/
import Lightshow.Bulb.Call
import Lightshow.Json.Shape

namespace Lightshow.Hue

open Json (Shape Fields Value Issue)

/-- State of a light of a bridge. -/
structure State where
  on : Bool
  hsb : Hsb
  deriving DecidableEq, Repr

namespace State

/-- How a bridge writes the state of a light. -/
def shape : Shape :=
  .record "LightState" <| .cons "on" .required .boolean <| .cons "bri" .optional (.natural 8) <|
    .cons "hue" .optional (.natural 16) <| .cons "sat" .optional (.natural 8) .nil

/-- How a bridge writes a light. -/
def lightShape : Shape :=
  .record "LightResource" <| .cons "name" .optional .text <| .cons "state" .required shape .nil

/-- A state from its data; a channel that a light does not have is zero. -/
def ofData : shape.Data → State
  | (on, brightness, hue, saturation, ()) =>
    { on
      hsb :=
        { hue := (hue.map UInt16.ofFin).getD 0
          saturation := (saturation.map UInt8.ofFin).getD 0
          brightness := (brightness.map UInt8.ofFin).getD 0 } }

/-- The state of a light in the reply of a bridge. -/
def ofReply (reply : Value) : Except Issue State :=
  match lightShape.ofValue reply with
  | .ok (_, state, ()) => .ok (ofData state)
  | .error issue => .error issue

end State

/-- Largest brightness and saturation that a bridge accepts. -/
def levelLimit : UInt8 := 254

/-- A level that a bridge accepts. -/
def boundedLevel (level : UInt8) : UInt8 := min level levelLimit

/-- Seconds as whole tenths, as many as 16 bits hold. -/
def deciseconds (seconds : Float) : UInt16 := (seconds * 10.0).round.toUInt16

/-- Tenths of a second as seconds. -/
def secondsOf (tenths : UInt16) : Float := tenths.toFloat / 10.0

/-- Seconds that changes take as long as nothing else was set. -/
def usualTransition : Float := 0.4

/-- A field with a natural. -/
def naturalField (name : String) (n : Nat) : String × Value :=
  (name, .number (.natural n.toUInt64))

/-- The field that sets a hue. -/
def hueField (hue : UInt16) : String × Value := naturalField "hue" hue.toNat

/-- The field that sets a saturation. -/
def saturationField (level : UInt8) : String × Value :=
  naturalField "sat" (boundedLevel level).toNat

/-- The field that sets a brightness. -/
def brightnessField (level : UInt8) : String × Value :=
  naturalField "bri" (boundedLevel level).toNat

/-- The fields that set a colour. -/
def colorFields (c : Hsb) : List (String × Value) :=
  [brightnessField c.brightness, hueField c.hue, saturationField c.saturation]

/-- The field that turns a light on or off. -/
def onField (on : Bool) : String × Value := ("on", .bool on)

/-- Name of the field with the time that a change takes. -/
def transitionName : String := "transitiontime"

end Lightshow.Hue
