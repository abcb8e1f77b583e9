/-
A simulated bulb.

The simulated bulb keeps one light in memory, whichever handle a call comes through, records the
calls that succeeded, and fails on demand: pending failures are used up one by one, connectivity
failures before rejections, and a failed call leaves no trace.

* `Light.reply`, `Light.after` -- what a call gives, and the light after it;
* `Light.after_of_read` -- reading leaves the light as it is;
* `Simulated.connect`, `Simulated.perform` -- opening a handle and sending a call;
* `inSteps` -- a bulb that sets a colour by its three parts.
-/
import Lightshow.Bulb.Error

namespace Lightshow

/-- State of the light of a simulated bulb. -/
structure Light where
  on : Bool
  hsb : Hsb
  rgb : Rgb
  transition : Option Float

namespace Light

/-- A light that is off and black. -/
def dark : Light := ⟨false, ⟨0, 0, 0⟩, ⟨0, 0, 0⟩, none⟩

/-- The light with a colour given by its channels. -/
def withRgb (l : Light) (rgb : Rgb) : Light := { l with rgb, hsb := rgb.toHsb }

/-- The light with a colour given by hue, saturation and brightness. -/
def withHsb (l : Light) (hsb : Hsb) : Light := { l with hsb, rgb := hsb.toRgb }

/-- The settings of the light. -/
def snapshot (l : Light) : Snapshot := ⟨l.on, l.hsb, l.transition⟩

/-- The light after a call. -/
def after (l : Light) : Call → Light
  | .setRgb rgb => l.withRgb rgb
  | .setHue hue => l.withHsb { l.hsb with hue }
  | .setSaturation saturation => l.withHsb { l.hsb with saturation }
  | .setBrightness brightness => l.withHsb { l.hsb with brightness }
  | .setHsb hsb => l.withHsb hsb
  | .setTransition seconds => { l with transition := some seconds }
  | .turnOn => { l with on := true }
  | .turnOff => { l with on := false }
  | .restoreSnapshot s => { l.withHsb s.hsb with on := s.on, transition := s.transition }
  | _ => l

/-- What a call gives. -/
def reply (l : Light) : (c : Call) → c.Reply
  | .getRgb => l.rgb
  | .getHue => l.hsb.hue
  | .getSaturation => l.hsb.saturation
  | .getBrightness => l.hsb.brightness
  | .getTransition => l.transition.getD 0.0
  | .saveSnapshot => l.snapshot
  | .setRgb _ | .setHue _ | .setSaturation _ | .setBrightness _ | .setHsb _ | .setTransition _
  | .turnOn | .turnOff | .restoreSnapshot _ => ()

/-- Reading leaves the light as it is. -/
theorem after_of_read {c : Call} (reads : c.isWrite = false) (l : Light) : l.after c = l := by
  cases c with
  | getRgb | getHue | getSaturation | getBrightness | getTransition | saveSnapshot => rfl
  | _ => exact absurd reads nofun

end Light

/-- A simulated bulb: its light, what happened to it, and the failures still to come. -/
structure Simulated where
  identifier : String
  light : Light
  /-- Successful calls, oldest first. -/
  calls : List Call
  /-- Number of successful connects. -/
  connects : Nat
  failingConnects : Nat
  failingCalls : Nat
  rejectedCalls : Nat

namespace Simulated

/-- A bulb with a light and nothing recorded or pending. -/
def new (identifier : String) (light : Light) : Simulated := ⟨identifier, light, [], 0, 0, 0, 0⟩

/-- Opens a handle, which is numbered by the connects before it. -/
def connect (b : Simulated) : Except BulbError Nat × Simulated :=
  if 0 < b.failingConnects then
    (.error (.connectivity (.unreachable b.identifier)),
      { b with failingConnects := b.failingConnects - 1 })
  else (.ok b.connects, { b with connects := b.connects + 1 })

/-- Address of the bulb in a rejection. -/
def address (b : Simulated) : String := "/lights/" ++ b.identifier

/-- Sends a call. -/
def perform (c : Call) (b : Simulated) : Except BulbError c.Reply × Simulated :=
  if 0 < b.failingCalls then
    (.error (.connectivity (.dropped b.identifier c)),
      { b with failingCalls := b.failingCalls - 1 })
  else if 0 < b.rejectedCalls then
    (.error (.rejected b.address ("simulated rejection of " ++ c.describe)),
      { b with rejectedCalls := b.rejectedCalls - 1 })
  else (.ok (b.light.reply c), { b with light := b.light.after c, calls := b.calls ++ [c] })

/-- The recorded calls that changed the light. -/
def writes (b : Simulated) : List Call := b.calls.filter Call.isWrite

end Simulated

/-- A bulb that has no call for a whole colour: hue, saturation and brightness are set one after
the other, up to the first failure. -/
def inSteps {σ : Type} (perform : (c : Call) → σ → Except BulbError c.Reply × σ) :
    (c : Call) → σ → Except BulbError c.Reply × σ
  | .setHsb hsb, s =>
    match perform (.setHue hsb.hue) s with
    | (.error e, s) => (.error e, s)
    | (.ok _, s) =>
      match perform (.setSaturation hsb.saturation) s with
      | (.error e, s) => (.error e, s)
      | (.ok _, s) => perform (.setBrightness hsb.brightness) s
  | c, s => perform c s

end Lightshow
