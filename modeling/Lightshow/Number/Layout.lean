/-
Ways of writing a double.

The digits of a double are always its shortest ones; what differs between the texts that carry
numbers is where positional notation ends, whether a point is kept, and how an exponent is
marked.  Each such format is one `Layout` value, and `Layout.write` writes by it.

* `Layout.json` -- numbers in JSON text;
* `Layout.trace` -- numbers inside a shown bulb call;
* `Layout.plain` -- seconds in a log line;
* `oneDecimal` -- seconds rounded to one decimal, for the summary of a script.
-/
import Lightshow.Number.Shortest

namespace Lightshow

/-- The decisions of one number format. -/
structure Layout where
  /-- Which decimal exponents of the leading digit are written positionally. -/
  positional : Int → Bool
  /-- Whether an integral positional number ends in `.0`. -/
  keepsPoint : Bool
  /-- Sign written before a nonnegative exponent. -/
  plus : String

namespace Layout

/-- JSON writes exponents from -5 to 15 positionally, and marks larger ones with a sign. -/
def json : Layout := ⟨fun e => -5 ≤ e && e ≤ 15, true, "+"⟩

/-- A shown call writes exponents from -4 to 15 positionally, and gives larger ones no sign. -/
def trace : Layout := ⟨fun e => -4 ≤ e && e ≤ 15, true, ""⟩

/-- A log line writes every number positionally, and integral ones without a point. -/
def plain : Layout := ⟨fun _ => true, false, ""⟩

/-- Writes digits with a point after the first `whole` of them, filling up with zeros. -/
def positionalText (l : Layout) (digits : List Char) (whole : Int) : List Char :=
  if whole ≤ 0 then '0' :: '.' :: List.replicate (-whole).toNat '0' ++ digits
  else if digits.length ≤ whole.toNat then
    digits ++ List.replicate (whole.toNat - digits.length) '0'
      ++ (if l.keepsPoint then ['.', '0'] else [])
  else digits.take whole.toNat ++ '.' :: digits.drop whole.toNat

/-- Writes digits with a point after the first and the exponent behind an `e`. -/
def scientificText (l : Layout) (digits : List Char) (exponent : Int) : List Char :=
  let mantissa := match digits with
    | [] => []
    | [d] => [d]
    | d :: rest => d :: '.' :: rest
  let sign := if exponent < 0 then ['-'] else l.plus.toList
  mantissa ++ 'e' :: sign ++ Nat.toDigits 10 exponent.natAbs

/-- Writes a decimal. -/
def decimalText (l : Layout) (d : Decimal) : List Char :=
  let digits := Nat.toDigits 10 d.digits
  if d.digits = 0 then l.positionalText ['0'] 1
  else
    let exponent := d.exponent + digits.length - 1
    if l.positional exponent then l.positionalText digits (exponent + 1)
    else l.scientificText digits exponent

/-- Writes a double. -/
def write (l : Layout) (x : Float) : String :=
  if x.isNaN then "NaN"
  else
    let bits := x.toBits
    let sign := if bits.toNat >>> 63 = 1 then "-" else ""
    if x.isInf then sign ++ "inf"
    else sign ++ String.ofList (l.decimalText (Decimal.shortest (Binary.ofBits bits)))

end Layout

/-- A binary number rounded to one decimal, a half going to the even digit. -/
def oneDecimal (b : Binary) : String :=
  let tenths := roundDiv (10 * b.num) b.den
  toString (tenths / 10) ++ "." ++ toString (tenths % 10)

end Lightshow
