/-
A source of random draws.

A source gives the draws that were listed for it, and then goes on with the sequence that a
64-bit seed starts.  An offset below a limit is taken from the upper half of a 128-bit product,
and a draw whose lower half falls beyond the largest fair zone is rejected, so that no offset is
favoured.

* `Draws.next` -- the next 64-bit draw;
* `Draws.below` -- a fair offset below a limit.
-/

namespace Lightshow

/-- A source of 64-bit draws. -/
structure Draws where
  /-- Draws still to be given as they are. -/
  listed : List UInt64
  seed : UInt64
  /-- Number of draws given so far. -/
  taken : Nat

namespace Draws

/-- A source that starts with listed draws and goes on from a seed. -/
def start (listed : List UInt64) (seed : UInt64) : Draws := ⟨listed, seed, 0⟩

/-- The draw that a state of the sequence stands for. -/
def mix (state : UInt64) : UInt64 :=
  let z := (state ^^^ (state >>> 30)) * 0xBF58476D1CE4E5B9
  let z := (z ^^^ (z >>> 27)) * 0x94D049BB133111EB
  z ^^^ (z >>> 31)

/-- The next draw. -/
def next (d : Draws) : UInt64 × Draws :=
  match d.listed with
  | v :: listed => (v, { d with listed, taken := d.taken + 1 })
  | [] =>
    let seed := d.seed + 0x9E3779B97F4A7C15
    (mix seed, { d with seed, taken := d.taken + 1 })

/-- The largest lower half of a product that is fair to every offset below `limit`. -/
def zone (limit : Nat) : Nat := limit * Nat.pow 2 (63 - limit.log2) - 1

/-- The offset that a draw stands for. -/
def offset (limit : Nat) (positive : 0 < limit) (v : UInt64) : Fin limit :=
  ⟨v.toNat * limit / Nat.pow 2 64, by
    have : v.toNat < Nat.pow 2 64 := v.toNat_lt
    exact Nat.div_lt_of_lt_mul ((Nat.mul_lt_mul_right positive).2 this)⟩

/-- Draws until an offset is fair, at most `tries` times more. -/
def draw (limit : Nat) (positive : 0 < limit) : (tries : Nat) → Draws → Fin limit × Draws
  | 0, d =>
    let (v, d) := d.next
    (offset limit positive v, d)
  | tries + 1, d =>
    let (v, d) := d.next
    if v.toNat * limit % Nat.pow 2 64 ≤ zone limit then (offset limit positive v, d)
    else draw limit positive tries d

/-- Rejected draws in a row after which any draw will do; at most half of all draws are
rejected. -/
def patience : Nat := 1000

/-- A fair offset below a limit. -/
def below (limit : Nat) (positive : 0 < limit) (d : Draws) : Fin limit × Draws :=
  draw limit positive (d.listed.length + patience) d

end Draws

end Lightshow
