/-
Colours and snapshots as JSON data.

* `Rgb.shape`, `Hsb.shape`, `Snapshot.shape` -- how they are written;
* `Rgb.ofData_toData`, `Hsb.ofData_toData`, `Snapshot.ofData_toData` -- nothing is lost.
-/
import Lightshow.Bulb.Call
import Lightshow.Json.Shape

namespace Lightshow

open Json (Shape Fields)

/-- Three levels. -/
def Rgb.shape : Shape :=
  .record "Rgb" <| .cons "red" .required (.natural 8) <| .cons "green" .required (.natural 8) <|
    .cons "blue" .required (.natural 8) .nil

/-- A colour from its data. -/
def Rgb.ofData : Rgb.shape.Data → Rgb
  | (red, green, blue, ()) => ⟨UInt8.ofFin red, UInt8.ofFin green, UInt8.ofFin blue⟩

/-- The data of a colour. -/
def Rgb.toData (c : Rgb) : Rgb.shape.Data := (c.red.toFin, c.green.toFin, c.blue.toFin, ())

@[simp] theorem Rgb.ofData_toData (c : Rgb) : ofData c.toData = c := rfl

/-- A hue of sixteen bits and two levels. -/
def Hsb.shape : Shape :=
  .record "Hsb" <| .cons "hue" .required (.natural 16) <|
    .cons "saturation" .required (.natural 8) <| .cons "brightness" .required (.natural 8) .nil

/-- A colour from its data. -/
def Hsb.ofData : Hsb.shape.Data → Hsb
  | (hue, saturation, brightness, ()) =>
    ⟨UInt16.ofFin hue, UInt8.ofFin saturation, UInt8.ofFin brightness⟩

/-- The data of a colour. -/
def Hsb.toData (c : Hsb) : Hsb.shape.Data :=
  (c.hue.toFin, c.saturation.toFin, c.brightness.toFin, ())

@[simp] theorem Hsb.ofData_toData (c : Hsb) : ofData c.toData = c := rfl

/-- Whether the light is on, its colour, and the seconds that changes take, if they were set. -/
def Snapshot.shape : Shape :=
  .record "BulbSnapshot" <| .cons "on" .required .boolean <| .cons "hsb" .required Hsb.shape <|
    .cons "transition_secs" .required (.nullable .real) .nil

/-- A snapshot from its data. -/
def Snapshot.ofData : Snapshot.shape.Data → Snapshot
  | (on, hsb, transition, ()) => ⟨on, Hsb.ofData hsb, transition⟩

/-- The data of a snapshot. -/
def Snapshot.toData (s : Snapshot) : Snapshot.shape.Data := (s.on, s.hsb.toData, s.transition, ())

@[simp] theorem Snapshot.ofData_toData (s : Snapshot) : ofData s.toData = s := rfl

end Lightshow
