/-
Percent-encoding.

Every part of an address has characters that may not stand in it as they are; those, and all
characters outside ASCII, are written as a `%` and two hexadecimal digits for each byte.

* `Percent.encode` -- a text with the characters of a set encoded;
* `Percent.decode` -- the bytes that a text stands for.
-/
import Lightshow.Number.Numeral

namespace Lightshow.Web.Percent

/-- Control characters and everything beyond ASCII are encoded everywhere. -/
def isControl (c : Char) : Bool := c.toNat < 0x20 || 0x7e < c.toNat

/-- What is encoded in a fragment. -/
def inFragment (c : Char) : Bool := isControl c || " \"<>\x60".toList.contains c

/-- What is encoded in a query. -/
def inQuery (c : Char) : Bool := isControl c || " \"#<>'".toList.contains c

/-- What is encoded in a path. -/
def inPath (c : Char) : Bool := isControl c || " \"#<>?^\x60\x7b\x7d".toList.contains c

/-- Hexadecimal digit in upper case. -/
def hexDigit (n : Nat) : Char := (Nat.digitChar n).toUpper

/-- A byte as three characters. -/
def encodeByte (b : UInt8) : List Char := ['%', hexDigit (b.toNat / 16), hexDigit (b.toNat % 16)]

/-- A text with the characters of a set encoded. -/
def encode (set : Char → Bool) (cs : List Char) : List Char :=
  cs.flatMap fun c => if set c then (String.utf8EncodeChar c).flatMap encodeByte else [c]

/-- The bytes that a text stands for; a `%` without two digits stands for itself. -/
def decode : List Char → List UInt8
  | [] => []
  | '%' :: a :: b :: rest =>
    match Numeral.number? 16 [a, b] with
    | some n => n.toUInt8 :: decode rest
    | none => String.utf8EncodeChar '%' ++ decode (a :: b :: rest)
  | c :: rest => String.utf8EncodeChar c ++ decode rest

end Lightshow.Web.Percent
