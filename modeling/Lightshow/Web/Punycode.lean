/-
Host names beyond ASCII, written in ASCII.

A label with other characters becomes `xn--`, its ASCII characters, and the others as digits of
base 36: for each of them, in the order of their code points, how far the walk over all code points
and positions goes on.  How many digits a distance takes depends on the distances before it.

* `Punycode.label` -- a label in ASCII.
-/
namespace Lightshow.Web.Punycode

/-- Digit of base 36. -/
def digit (d : Nat) : Char := Char.ofNat (if d < 26 then 97 + d else 22 + d)

/-- How much the digit at a place takes at most without going on. -/
def threshold (place bias : Nat) : Nat := max 1 (min 26 (place - bias))

/-- Digits of a distance; each takes at least a thirty-fifth of the rest. -/
def distance (bias : Nat) : (fuel : Nat) → (place : Nat) → (q : Nat) → List Char
  | 0, _, _ => []
  | fuel + 1, place, q =>
    let t := threshold place bias
    if q < t then [digit q]
    else digit (t + (q - t) % (36 - t)) :: distance bias fuel (place + 36) ((q - t) / (36 - t))

/-- Steps of the bias for a distance. -/
def settle : (fuel : Nat) → (q : Nat) → (place : Nat) → Nat
  | 0, q, place => place + 36 * q / (q + 38)
  | fuel + 1, q, place =>
    if 455 < q then settle fuel (q / 35) (place + 36) else place + 36 * q / (q + 38)

/-- The bias after a distance, which was the one of the character number `count`. -/
def nextBias (first : Bool) (count q : Nat) : Nat :=
  let q := if first then q / 700 else q / 2
  settle 64 (q + q / count) 0

/-- The walk over the code points: `least` is the next one that counts, `handled` how many
characters lie below it. -/
structure Walk where
  least : Nat
  delta : Nat
  bias : Nat
  handled : Nat
  digits : List Char

/-- Passes one character of the label while the code point `least` is looked for. -/
def Walk.pass (basics : Nat) (w : Walk) (c : Nat) : Walk :=
  if c < w.least then { w with delta := w.delta + 1 }
  else if c = w.least then
    { w with
      digits := w.digits ++ distance w.bias 64 36 w.delta
      bias := nextBias (w.handled = basics) (w.handled + 1) w.delta
      delta := 0
      handled := w.handled + 1 }
  else w

/-- Goes on to each of the code points. -/
def Walk.visit (label : List Nat) (basics : Nat) (w : Walk) (n : Nat) : Walk :=
  let w := { w with delta := w.delta + (n - w.least) * (w.handled + 1), least := n }
  let w := label.foldl (pass basics) w
  { w with delta := w.delta + 1, least := n + 1 }

/-- A label in ASCII. -/
def label (cs : List Char) : List Char :=
  let points := cs.map Char.toNat
  let basic := cs.filter (·.toNat < 128)
  if basic.length = cs.length then cs
  else
    let others := ((points.filter (128 ≤ ·)).mergeSort).eraseDups
    let start : Walk := ⟨128, 0, 72, basic.length, []⟩
    let walk := others.foldl (Walk.visit points basic.length) start
    "xn--".toList ++ basic ++ (if basic.isEmpty then [] else ['-']) ++ walk.digits

end Lightshow.Web.Punycode
