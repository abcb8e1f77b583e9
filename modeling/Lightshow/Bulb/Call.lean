/-
Calls to a bulb.

A connected bulb understands fifteen calls.  `Call.Reply` is what each of them gives when it
succeeds, `Call.isWrite` tells which ones change the light, and `Call.describe` is the form in
which a call stands in messages.
-/
import Lightshow.Color
import Lightshow.Number.Layout

namespace Lightshow

/-- Settings of a bulb that can be put back later. -/
structure Snapshot where
  on : Bool
  hsb : Hsb
  /-- Seconds that changes take, if they had been set. -/
  transition : Option Float

/-- A call to a connected bulb. -/
inductive Call where
  | getRgb
  | setRgb (rgb : Rgb)
  | getHue
  | getSaturation
  | getBrightness
  | setHue (hue : UInt16)
  | setSaturation (saturation : UInt8)
  | setBrightness (brightness : UInt8)
  | setHsb (hsb : Hsb)
  | getTransition
  | setTransition (seconds : Float)
  | turnOn
  | turnOff
  | saveSnapshot
  | restoreSnapshot (snapshot : Snapshot)

namespace Call

/-- What a successful call gives. -/
@[reducible] def Reply : Call → Type
  | getRgb => Rgb
  | getHue => UInt16
  | getSaturation => UInt8
  | getBrightness => UInt8
  | getTransition => Float
  | saveSnapshot => Snapshot
  | _ => Unit

/-- Whether the call changes the light. -/
def isWrite : Call → Bool
  | getRgb | getHue | getSaturation | getBrightness | getTransition | saveSnapshot => false
  | _ => true

/-- Name of the call. -/
def name : Call → String
  | getRgb => "GetRgb"
  | setRgb _ => "SetRgb"
  | getHue => "GetHue"
  | getSaturation => "GetSaturation"
  | getBrightness => "GetBrightness"
  | setHue _ => "SetHue"
  | setSaturation _ => "SetSaturation"
  | setBrightness _ => "SetBrightness"
  | setHsb _ => "SetHsb"
  | getTransition => "GetTransition"
  | setTransition _ => "SetTransition"
  | turnOn => "TurnOn"
  | turnOff => "TurnOff"
  | saveSnapshot => "SaveSnapshot"
  | restoreSnapshot _ => "RestoreSnapshot"

end Call

/-- A named group of fields as it stands in a message. -/
def describeFields (name : String) (fields : List (String × String)) : String :=
  name ++ " \x7b " ++ ", ".intercalate (fields.map fun f => f.1 ++ ": " ++ f.2) ++ " \x7d"

/-- A colour as it stands in a message. -/
def Rgb.describe (c : Rgb) : String :=
  describeFields "Rgb" [("red", toString c.red.toNat), ("green", toString c.green.toNat),
    ("blue", toString c.blue.toNat)]

/-- A colour as it stands in a message. -/
def Hsb.describe (c : Hsb) : String :=
  describeFields "Hsb" [("hue", toString c.hue.toNat), ("saturation", toString c.saturation.toNat),
    ("brightness", toString c.brightness.toNat)]

/-- A snapshot as it stands in a message. -/
def Snapshot.describe (s : Snapshot) : String :=
  describeFields "BulbSnapshot" [("on", if s.on then "true" else "false"),
    ("hsb", s.hsb.describe),
    ("transition_secs", match s.transition with
      | none => "None"
      | some x => "Some(" ++ Layout.trace.write x ++ ")")]

/-- A call as it stands in a message: its name and its argument, if it takes one. -/
def Call.describe (c : Call) : String :=
  let called (argument : String) : String := c.name ++ "(" ++ argument ++ ")"
  match c with
  | .setRgb rgb => called rgb.describe
  | .setHue hue => called (toString hue.toNat)
  | .setSaturation level => called (toString level.toNat)
  | .setBrightness level => called (toString level.toNat)
  | .setHsb hsb => called hsb.describe
  | .setTransition seconds => called (Layout.trace.write seconds)
  | .restoreSnapshot snapshot => called snapshot.describe
  | _ => c.name

end Lightshow
