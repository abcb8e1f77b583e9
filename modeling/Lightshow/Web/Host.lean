/-
Hosts of an address.

A host is a name or a number of 32 or 128 bits.  What looks like a number has to be one: a host
whose last label is a number in any base is an address of 32 bits, and brackets hold one of 128.

* `Host.parse?` -- the host that a text names;
* `Host.text` -- its one way of being written.
-/
import Lightshow.Web.Percent
import Lightshow.Web.Punycode

namespace Lightshow.Web

/-- Where an address leads to. -/
inductive Host where
  | name (labels : String)
  /-- A number of 32 bits. -/
  | number (n : Nat)
  /-- Eight pieces of 16 bits. -/
  | pieces (ps : List Nat)
  deriving DecidableEq, Repr

namespace Host

/-- The pieces of a text between separators. -/
def split (separator : Char) : List Char → List (List Char)
  | [] => [[]]
  | c :: rest =>
    if c = separator then [] :: split separator rest
    else match split separator rest with
    | [] => [[c]]
    | first :: more => (c :: first) :: more

/-! ### Numbers of 32 bits -/

/-- The number that a label spells: hexadecimal behind `0x`, octal behind a zero, else decimal. -/
def labelNumber? : List Char → Option Nat
  | [] => none
  | '0' :: 'x' :: rest => Numeral.number? 16 rest
  | '0' :: 'X' :: rest => Numeral.number? 16 rest
  | ['0'] => some 0
  | '0' :: rest => Numeral.number? 8 rest
  | cs => Numeral.number? 10 cs

/-- The labels of a name; an empty one at the end does not count. -/
def labelsOf (cs : List Char) : List (List Char) :=
  let labels := split '.' cs
  if 1 < labels.length ∧ labels.getLast? = some [] then labels.dropLast else labels

/-- Whether the last label is a number. -/
def endsInNumber (cs : List Char) : Bool :=
  match (labelsOf cs).getLast? with
  | some last => !last.isEmpty && (last.all Char.isDigit || (labelNumber? last).isSome)
  | none => false

/-- The number that at most four labels spell: one byte each, and the last one all that are left. -/
def number? (cs : List Char) : Option Nat := do
  let ns ← (labelsOf cs).mapM labelNumber?
  let last ← ns.getLast?
  let bytes := ns.dropLast
  if 3 < bytes.length || bytes.any (255 < ·) || Nat.pow 256 (4 - bytes.length) ≤ last then none
  return bytes.foldr (fun b n => n / 256 + b * Nat.pow 256 3) 0 + last

/-- A number as four bytes. -/
def numberText (n : Nat) : String :=
  ".".intercalate ([24, 16, 8, 0].map fun shift => toString (n / Nat.pow 2 shift % 256))

/-! ### Numbers of 128 bits -/

/-- Four decimal bytes without zeros in front, as two pieces. -/
def bytePieces? (cs : List Char) : Option (List Nat) := do
  let bytes ← (split '.' cs).mapM fun b =>
    if b.isEmpty || 3 < b.length || !b.all Char.isDigit || (b.head? = some '0' && b ≠ ['0']) then
      none
    else (Numeral.number? 10 b).filter (· < 256)
  match bytes with
  | [a, b, c, d] => return [a * 256 + b, c * 256 + d]
  | _ => none

/-- One piece of four hexadecimal digits at most. -/
def piece? (cs : List Char) : Option Nat :=
  if cs.isEmpty || 4 < cs.length then none else Numeral.number? 16 cs

/-- The pieces between colons; the last ones may be bytes if `last` says so. -/
def someOf? (last : Bool) (cs : List Char) : Option (List Nat) :=
  if cs.isEmpty then some []
  else
    let parts := split ':' cs
    match parts.getLast? with
    | none => some []
    | some final => do
      let before ← parts.dropLast.mapM piece?
      if last && final.contains '.' then return before ++ (← bytePieces? final)
      return before ++ [← piece? final]

/-- The text up to the first two colons, and the text behind them. -/
def splitAtColons : List Char → Option (List Char × List Char)
  | ':' :: ':' :: rest => some ([], rest)
  | c :: rest => (splitAtColons rest).map fun (a, b) => (c :: a, b)
  | [] => none

/-- Eight pieces, of which a run of zeros may be left out between two colons. -/
def pieces? (cs : List Char) : Option (List Nat) :=
  match splitAtColons cs with
  | none => (someOf? true cs).filter (·.length = 8)
  | some (left, right) => do
    let before ← someOf? false left
    let after ← someOf? true right
    if 7 < before.length + after.length then none
    return before ++ List.replicate (8 - before.length - after.length) 0 ++ after

/-- Length of the run of zeros at the start. -/
def zeros (ps : List Nat) : Nat := (ps.takeWhile (· = 0)).length

/-- The longest run of at least two zeros: where it starts and how long it is. -/
def longestZeros (ps : List Nat) : Option (Nat × Nat) :=
  let runs := (List.range ps.length).map fun i => (i, zeros (ps.drop i))
  let best := runs.foldl (fun b r => if b.2 < r.2 then r else b) (0, 1)
  if 1 < best.2 then some best else none

/-- Pieces in hexadecimal, between colons. -/
def joined (ps : List Nat) : String :=
  ":".intercalate (ps.map fun p => String.ofList (Nat.toDigits 16 p))

/-- Eight pieces with the longest run of zeros left out. -/
def piecesText (ps : List Nat) : String :=
  match longestZeros ps with
  | none => joined ps
  | some (start, length) => joined (ps.take start) ++ "::" ++ joined (ps.drop (start + length))

/-! ### Names -/

/-- Characters that may not stand in a name. -/
def isForbidden (c : Char) : Bool :=
  c.toNat ≤ 0x20 || c.toNat = 0x7f || "#%/:<>?@[\\]^|".toList.contains c

/-- A name in lower case, with ASCII labels. -/
def asciiName (cs : List Char) : List Char :=
  ['.'].intercalate ((split '.' (cs.map Char.toLower)).map Punycode.label)

/-- The host that a text names. -/
def parse? (cs : List Char) : Option Host := do
  if cs.head? = some '[' then
    if cs.getLast? ≠ some ']' then none
    return .pieces (← pieces? (cs.drop 1).dropLast)
  let decoded ← String.fromUTF8? ⟨(Percent.decode cs).toArray⟩
  let name := asciiName decoded.toList
  if name.isEmpty || name.any isForbidden then none
  if endsInNumber name then return .number (← number? name)
  return .name (String.ofList name)

/-- The way a host is written. -/
def text : Host → String
  | .name labels => labels
  | .number n => numberText n
  | .pieces ps => "[" ++ piecesText ps ++ "]"

end Host

end Lightshow.Web
