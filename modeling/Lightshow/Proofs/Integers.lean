/-
The texts of integers.

An integer of 64 bits has one text, its decimal one: no leading zero, no plus sign, neither point
nor exponent.  Everything else that a number can look like is read as a double.

* `leaf_integerValue` -- an integer is read from its decimal text;
* `Value.Text.eq_toString` -- and from no other.
-/
import Lightshow.Proofs.Grammar

namespace Lightshow.Json

/-! ### From integers to texts -/

/-- The value of an integer. -/
def integerValue (p : Int64) : Value := .number (endInteger (0 ≤ p.toInt) p.toInt.natAbs)

theorem integer?_integerValue (p : Int64) : (integerValue p).integer? = some p := by
  have low := p.le_toInt
  have high := p.toInt_lt
  rw [integerValue, endInteger]
  by_cases positive : 0 ≤ p.toInt
  · have same : p.toInt = p.toInt.natAbs := by omega
    have small : p.toInt.natAbs < 1 <<< 63 := by omega
    have word : p.toInt.natAbs.toUInt64.toNat = p.toInt.natAbs :=
      UInt64.toNat_ofNat_of_lt' (Nat.lt_trans small (by decide))
    rw [if_pos (decide_eq_true positive), Value.integer?, word, if_pos small, ← Int64.ofInt_eq_ofNat,
      ← same, Int64.ofInt_toInt]
  · have same : p.toInt = -p.toInt.natAbs := by omega
    have range : 0 < p.toInt.natAbs ∧ p.toInt.natAbs ≤ 1 <<< 63 := by omega
    rw [if_neg (by simpa using positive), if_pos range, Value.integer?, ← same, Int64.ofInt_toInt]

/-- Digits are read as what they spell, behind a sign. -/
theorem figures_toDigits (positive : Bool) {n : Nat} (h : n < 1 <<< 64) :
    Figures (readDigits positive) (Nat.toDigits 10 n) (endInteger positive n) := by
  constructor
  · intro c hc
    exact isFigure_of_digit (Nat.isDigit_of_mem_toDigits (by decide) (by decide) hc)
  · intro next ends
    exact reads_iff.mpr (readDigits_toDigits positive h ends)

theorem leaf_toDigits {n : Nat} (h : n < 1 <<< 64) :
    Leaf (Nat.toDigits 10 n) (.number (endInteger true n)) := by
  have figures := figures_toDigits true h
  obtain ⟨c, ds, hds⟩ := List.exists_cons_of_ne_nil (Nat.toDigits_ne_nil (n := n) (b := 10))
  have digit : c.isDigit = true :=
    Nat.isDigit_of_mem_toDigits (by decide) (by decide) (hds ▸ List.mem_cons_self)
  rw [hds] at figures ⊢
  exact .positive digit figures

theorem toList_toString_nat (n : Nat) : (toString n).toList = Nat.toDigits 10 n := by
  rw [Nat.toString_eq_ofList_toDigits, String.toList_ofList]

theorem leaf_integerValue (p : Int64) : Leaf (toString p).toList (integerValue p) := by
  have low := p.le_toInt
  have high := p.toInt_lt
  show Leaf (toString p.toInt).toList (.number (endInteger (0 ≤ p.toInt) p.toInt.natAbs))
  generalize p.toInt = i at low high ⊢
  rcases i with n | n
  · rw [Int.ofNat_eq_natCast] at high
    show Leaf (toString n).toList (.number (endInteger true n))
    rw [toList_toString_nat]
    exact leaf_toDigits (by omega)
  · rw [Int.negSucc_eq] at low
    show Leaf ("-" ++ toString (n + 1)).toList (.number (endInteger false (n + 1)))
    rw [String.toList_append, toList_toString_nat]
    exact .negative (figures_toDigits false (by omega))

theorem digits_toString (p : Int64) : ∀ c ∈ (toString p).toList, c.isDigit = true ∨ c = '-' := by
  have digits : ∀ n : Nat, ∀ c ∈ (toString n).toList, c.isDigit = true := by
    intro n c hc
    rw [toList_toString_nat] at hc
    exact Nat.isDigit_of_mem_toDigits (by decide) (by decide) hc
  show ∀ c ∈ (toString p.toInt).toList, _
  rcases p.toInt with n | n
  · exact fun c hc => .inl (digits n c hc)
  · show ∀ c ∈ ("-" ++ toString (n + 1)).toList, _
    rw [String.toList_append]
    intro c hc
    rcases List.mem_append.mp hc with hc | hc
    · exact .inr (List.mem_singleton.mp hc)
    · exact .inl (digits _ c hc)

/-! ### From texts to integers -/

theorem digitChar_digitValue {c : Char} (h : c.isDigit = true) : Nat.digitChar (digitValue c) = c := by
  simp only [Char.isDigit, Bool.and_eq_true, decide_eq_true_eq] at h
  have low : 48 ≤ c.toNat := h.1
  have high : c.toNat ≤ 57 := h.2
  rw [digitValue]
  apply Char.toNat_inj.mp
  rw [Nat.toNat_digitChar_of_lt_ten (by omega)]
  omega

theorem digitValue_lt {c : Char} (h : c.isDigit = true) : digitValue c < 10 := by
  simp only [Char.isDigit, Bool.and_eq_true, decide_eq_true_eq] at h
  have : c.toNat ≤ 57 := h.2
  rw [digitValue]
  omega

/-- More digits behind those of a positive number. -/
theorem toDigits_append {ds : List Char} (digits : ∀ d ∈ ds, d.isDigit = true) {n : Nat} (h : 0 < n) :
    Nat.toDigits 10 n ++ ds = Nat.toDigits 10 (Nat.ofDigitChars 10 ds n) := by
  induction ds generalizing n with
  | nil => exact List.append_nil _
  | cons d ds ih =>
    obtain ⟨first, others⟩ := List.forall_mem_cons.mp digits
    have longer := Nat.toDigits_append_toDigits (b := 10) (by decide) h (digitValue_lt first)
    rw [Nat.toDigits_of_lt_base (digitValue_lt first), digitChar_digitValue first] at longer
    rw [Nat.ofDigitChars_cons, List.append_cons, longer]
    exact ih others (by omega)

/-- Digits without a leading zero are those of the number that they spell. -/
theorem cons_eq_toDigits {c : Char} {ds : List Char} (digit : c.isDigit = true) (zero : c ≠ '0')
    (digits : ∀ d ∈ ds, d.isDigit = true) :
    c :: ds = Nat.toDigits 10 (Nat.ofDigitChars 10 ds (digitValue c)) := by
  have positive : 0 < digitValue c := by
    rw [Nat.pos_iff_ne_zero]
    intro none
    have same := digitChar_digitValue digit
    rw [none] at same
    exact zero same.symm
  rw [← toDigits_append digits positive, Nat.toDigits_of_lt_base (digitValue_lt digit),
    digitChar_digitValue digit]
  rfl

/-- Digits that are all taken spell a number of 64 bits. -/
theorem ofDigitChars_of_fitDigits {ds : List Char} {n : Nat} (small : n < 1 <<< 64)
    (all : ds.length ≤ (fitDigits n ds).2) :
    (fitDigits n ds).1 = Nat.ofDigitChars 10 ds n ∧ Nat.ofDigitChars 10 ds n < 1 <<< 64 := by
  induction ds generalizing n with
  | nil => exact ⟨rfl, small⟩
  | cons d ds ih =>
    have longer : 10 * n + (d.toNat - '0'.toNat) = n * 10 + digitValue d := by
      rw [Nat.mul_comm]
      rfl
    rw [Nat.ofDigitChars_cons, longer]
    rw [fitDigits] at all ⊢
    split_ifs at all ⊢ with fits
    · exact ih fits (Nat.le_of_succ_le_succ all)
    · exact absurd all (by simp)

/-- What has an exponent is a double. -/
theorem real_of_readExponent {p s k cs n rest} (h : Reads (readExponent p s k) cs n rest) :
    ∃ x, n = .real x := by
  obtain ⟨grows, same⟩ := taken_readExponent p s k cs
  rw [Reads, same] at h
  generalize unsigned cs = cs at h
  rcases cs with _ | ⟨c, cs⟩
  · cases h
  rw [taken_readPower] at h
  by_cases digit : c.isDigit = true
  case neg =>
    rw [if_neg digit] at h
    cases h
  rw [if_pos digit] at h
  split at h
  case h_1 =>
    obtain ⟨x, -, found⟩ := Option.map_eq_some_iff.mp h
    exact ⟨x, (Prod.mk.inj found).1.symm⟩
  case h_2 =>
    by_cases large : s ≠ 0 ∧ grows = true
    · rw [if_pos large] at h
      cases h
    · rw [if_neg large] at h
      exact ⟨_, (Prod.mk.inj (Option.some.inj h)).1.symm⟩

theorem real_of_endDouble {p s e cs n rest} (h : Reads (endDouble p s e) cs n rest) :
    ∃ x, n = .real x := by
  rw [Reads, taken_endDouble, Option.map_eq_some_iff] at h
  obtain ⟨x, -, found⟩ := h
  exact ⟨x, (Prod.mk.inj found).1.symm⟩

theorem real_of_readScale {p s k cs n rest} (h : Reads (readScale p s k) cs n rest) :
    ∃ x, n = .real x := by
  rcases readScale_cases h with ⟨c, cs, rfl, -, h⟩ | ⟨-, h⟩
  · exact real_of_readExponent h
  · exact real_of_endDouble h

/-- Nothing is taken behind the digits of an integer. -/
theorem integer_of_readAfterInteger {p s d cs n rest} (h : Reads (readAfterInteger p s d) cs n rest)
    (integer : ∀ x, n ≠ .real x) : cs = rest ∧ d = 0 ∧ n = endInteger p s := by
  rcases readAfterInteger_cases h with plain | ⟨cs, rfl, -, h⟩ | ⟨c, cs, rfl, -, h⟩
  · rw [Reads, taken_readAfterInteger_end plain] at h
    split_ifs at h with more
    · obtain ⟨x, rfl⟩ := real_of_endDouble h
      exact absurd rfl (integer x)
    · obtain ⟨rfl, rfl⟩ := Prod.mk.inj (Option.some.inj h)
      exact ⟨rfl, by omega, rfl⟩
  · obtain ⟨x, rfl⟩ := real_of_readScale h
    exact absurd rfl (integer x)
  · obtain ⟨x, rfl⟩ := real_of_readExponent h
    exact absurd rfl (integer x)

/-- A text that is read as an integer is the digits of its number. -/
theorem integer_of_readDigits {p cs n} (h : Reads (readDigits p) cs n [])
    (integer : ∀ x, n ≠ .real x) :
    ∃ k, k < 1 <<< 64 ∧ cs = Nat.toDigits 10 k ∧ n = endInteger p k := by
  obtain ⟨c, t, rfl, digit, -⟩ := figures_readDigits h
  rw [List.append_nil] at h ⊢
  by_cases zero : c = '0'
  · subst zero
    rw [Reads, taken_readDigits_zero (stops_of_leading_zero h)] at h
    obtain ⟨rfl, -, rfl⟩ := integer_of_readAfterInteger h integer
    exact ⟨0, by decide, rfl, rfl⟩
  · rw [Reads, taken_readDigits_other digit zero] at h
    obtain ⟨none, all, rfl⟩ := integer_of_readAfterInteger h integer
    have digits : ∀ d ∈ t, d.isDigit = true := List.dropWhile_eq_nil_iff.mp none
    have whole : t.takeWhile Char.isDigit = t := List.takeWhile_eq_self_iff.mpr digits
    rw [whole] at all ⊢
    have small : digitValue c < 1 <<< 64 := Nat.lt_trans (digitValue_lt digit) (by decide)
    have fits : t.length ≤ (fitDigits (digitValue c) t).2 := Nat.sub_eq_zero_iff_le.mp all
    obtain ⟨spelled, word⟩ := ofDigitChars_of_fitDigits small fits
    rw [spelled]
    exact ⟨_, word, cons_eq_toDigits digit zero digits, rfl⟩

/-- An integer of 64 bits has no text but its decimal one. -/
theorem Leaf.eq_toString {t : List Char} {v : Value} {p : Int64} (h : Leaf t v)
    (integer : v.integer? = some p) : t = (toString p).toList := by
  show t = (toString p.toInt).toList
  cases h with
  | null | yes | no => cases integer
  | text => cases integer
  | positive digit figures =>
    have read := figures.2 [] fun _ => nofun
    rw [List.append_nil] at read
    obtain ⟨k, word, same, rfl⟩ := integer_of_readDigits read fun x real => nomatch (real ▸ integer)
    rw [endInteger, if_pos rfl, Value.integer?, UInt64.toNat_ofNat_of_lt' word] at integer
    split_ifs at integer with small
    rw [same, ← Option.some.inj integer, Int64.toInt_ofNat_of_lt small, ← toList_toString_nat]
    rfl
  | @negative t n figures =>
    have read := figures.2 [] fun _ => nofun
    rw [List.append_nil] at read
    obtain ⟨k, word, rfl, rfl⟩ := integer_of_readDigits read fun x real => nomatch (real ▸ integer)
    rw [endInteger, if_neg (by decide)] at integer
    by_cases range : 0 < k ∧ k ≤ 1 <<< 63
    case neg =>
      rw [if_neg range] at integer
      cases integer
    rw [if_pos range] at integer
    obtain ⟨k, rfl⟩ := Nat.exists_eq_succ_of_ne_zero (Nat.pos_iff_ne_zero.mp range.1)
    rw [← Option.some.inj integer, Int64.toInt_ofInt_of_le (by omega) (by omega), ← toList_toString_nat]
    show _ = ("-" ++ toString (k + 1)).toList
    rw [String.toList_append]
    rfl

theorem Value.Text.eq_toString {limit : Nat} {t : List Char} {v : Value} {p : Int64}
    (h : Value.Text limit t v) (integer : v.integer? = some p) : t = (toString p).toList := by
  have leaf : Leaf t v := h.leaf_of_value (by rintro _ rfl; cases integer)
    (by rintro _ rfl; cases integer)
  exact leaf.eq_toString integer

end Lightshow.Json
