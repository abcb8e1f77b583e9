/-
Colours, and the conversion between their two forms.

A colour is given by red, green and blue, or by hue, saturation and brightness.  One turn of the
colour wheel is the whole range of a 16-bit hue; everything else has 8 bits.  The conversions
are done in doubles and rounded at the end, a half going up.

* `Rgb.toHsb`, `Hsb.toRgb` -- the conversions.
-/
namespace Lightshow

/-- A colour by its channels. -/
structure Rgb where
  red : UInt8
  green : UInt8
  blue : UInt8
  deriving DecidableEq, Repr

/-- A colour by hue, saturation and brightness. -/
structure Hsb where
  hue : UInt16
  saturation : UInt8
  brightness : UInt8
  deriving DecidableEq, Repr

/-- Whether all channels are zero. -/
def Rgb.isBlack (c : Rgb) : Bool := c.red = 0 && c.green = 0 && c.blue = 0

/-- The whole number nearest to one that is not negative, a half going up. -/
def nearest (x : Float) : Float :=
  let whole := x.toUInt64.toFloat
  if 0.5 ≤ x - whole then whole + 1.0 else whole

/-- The angle of a colour in degrees, from its channels, the largest of them and their range. -/
def hueDegrees (r g b largest range : Float) : Float :=
  if range == 0.0 then 0.0
  else if largest == r then
    let sixth := (g - b) / range
    60.0 * (if sixth < 0.0 then sixth + 6.0 else sixth)
  else if largest == g then 60.0 * ((b - r) / range + 2.0)
  else 60.0 * ((r - g) / range + 4.0)

/-- A colour by hue, saturation and brightness, from its channels. -/
def Rgb.toHsb (c : Rgb) : Hsb :=
  let r := c.red.toFloat
  let g := c.green.toFloat
  let b := c.blue.toFloat
  let largest := max (max r g) b
  let range := largest - min (min r g) b
  let saturation := if largest == 0.0 then 0.0 else range / largest * 255.0
  { hue := (nearest (hueDegrees r g b largest range / 360.0 * 65535.0)).toUInt16
    saturation := (nearest saturation).toUInt8
    brightness := max (max c.red c.green) c.blue }

/-- A position on the wheel, in sixths of a turn, brought below a whole turn. -/
def sector (degrees : Float) : Float :=
  let sixths := degrees / 60.0
  if 6.0 ≤ sixths then sixths - 6.0 else sixths

/-- A colour by its channels, from hue, saturation and brightness. -/
def Hsb.toRgb (c : Hsb) : Rgb :=
  let value := c.brightness.toFloat / 255.0
  let chroma := value * (c.saturation.toFloat / 255.0)
  let place := sector (c.hue.toFloat / 65535.0 * 360.0)
  let pair := if 4.0 ≤ place then place - 4.0 else if 2.0 ≤ place then place - 2.0 else place
  let second := chroma * (1.0 - (pair - 1.0).abs)
  let base := value - chroma
  let (r, g, b) :=
    if place < 1.0 then (chroma, second, 0.0)
    else if place < 2.0 then (second, chroma, 0.0)
    else if place < 3.0 then (0.0, chroma, second)
    else if place < 4.0 then (0.0, second, chroma)
    else if place < 5.0 then (second, 0.0, chroma)
    else (chroma, 0.0, second)
  let channel (x : Float) : UInt8 := (nearest ((x + base) * 255.0)).toUInt8
  ⟨channel r, channel g, channel b⟩

end Lightshow
