/-
Numerals: digits and the numbers that they spell.

* `digit?` -- what a digit counts for in a base of at most sixteen;
* `number?` -- the number that digits of a base spell;
* `digit?_digitChar` -- a digit counts for what it was written for.
-/

namespace Lightshow.Numeral

/-- What a character counts for as a digit of a base; letters may have either case. -/
def digit? (base : Nat) (c : Char) : Option Nat :=
  let value? :=
    if c.isDigit then some (c.toNat - 48)
    else if 'a' ≤ c && c ≤ 'f' then some (c.toNat - 87)
    else if 'A' ≤ c && c ≤ 'F' then some (c.toNat - 55)
    else none
  value?.filter (· < base)

/-- The number that digits of a base spell; without digits it is zero. -/
def number? (base : Nat) (digits : List Char) : Option Nat :=
  digits.foldl (fun n? c => do return (← n?) * base + (← digit? base c)) (some 0)

theorem digit?_digitChar {base n : Nat} (h : n < base) (small : base ≤ 16) :
    digit? base (Nat.digitChar n) = some n := by
  have value : ∀ m < 16, digit? 16 (Nat.digitChar m) = some m := by decide
  have found := value n (by omega)
  simp only [digit?, Option.filter_eq_some_iff] at found ⊢
  exact ⟨found.1, by simpa using h⟩

end Lightshow.Numeral
