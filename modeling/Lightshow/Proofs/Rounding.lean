/-
Rounding to doubles.

A double is a sign, a mantissa of 53 bits and an exponent, and what an operation gives is the exact
result with the bits dropped that do not fit.  Here that is read off the definitions of the operations,
on doubles that have been taken apart: within a bound that is wide enough for colours, what a sum, a
product or a quotient is rounded to is off by a fixed small error at most, and whole numbers are not
rounded at all.

* `value?` -- the number that a double stands for;
* `unpack_pack` -- taking apart undoes putting together;
* `exists_value?_roundWithAccuracy` -- how far a number is from what it is rounded to;
* `rounds_add`, `rounds_sub`, `rounds_mul`, `rounds_div` -- the operations;
* `value?_add_whole` -- sums of whole numbers are exact;
* `compare_eq`, `toNat_toInt` -- comparison and truncation.
-/
import Mathlib

namespace Lightshow

open Float.Model (Format UnpackedFloat totalExponent)
open Float.Model.UnpackedFloat

namespace Double

/-- A mantissa and an exponent as they stand in a double: all bits are used, or the exponent is the least. -/
structure Canonical (m : Nat) (e : Int) : Prop where
  small : m < 2 ^ 53
  low : -1074 ≤ e
  high : e ≤ 971
  full : 2 ^ 52 ≤ m ∨ e = -1074

theorem log2_of_full {m : Nat} (low : 2 ^ 52 ≤ m) (small : m < 2 ^ 53) : m.log2 = 52 :=
  (Nat.log2_eq_iff (by omega)).mpr ⟨low, small⟩

theorem unpackSign_packComponents (s : Sign) (e : BitVec 11) (m : BitVec 52) :
    unpackSign (packComponents Format.binary64 s e m) = s.toBitVec := by
  change (s.toBitVec ++ e ++ m).extractLsb' 63 1 = s.toBitVec
  rw [BitVec.extractLsb'_append_eq_of_le (by decide), BitVec.extractLsb'_append_eq_of_le (by decide)]
  cases s <;> rfl

theorem ofBitVec_toBitVec (s : Sign) : Sign.ofBitVec s.toBitVec = s := by cases s <;> rfl

theorem toNat_one_append {m : Nat} (low : 2 ^ 52 ≤ m) (small : m < 2 ^ 53) :
    (1#1 ++ BitVec.ofNat 52 m).toNat = m := by
  rw [BitVec.toNat_append, BitVec.toNat_ofNat, Nat.shiftLeft_eq]
  change 2 ^ 52 ||| m % 2 ^ 52 = m
  rw [Nat.or_comm, Nat.or_two_pow_eq_add_of_lt (Nat.mod_lt m (Nat.two_pow_pos 52))]
  omega

theorem pack_full {s : Sign} {m : Nat} {e : Int} {hm : 0 < m} (h : Canonical m e)
    (full : 2 ^ 52 ≤ m) : pack Format.binary64 (.finite s m e hm) =
      packComponents Format.binary64 s (BitVec.ofNat 11 (e + 1075).toNat) (BitVec.ofNat 52 m) := by
  have biased : e + Format.binary64.exponentBias + Format.binary64.mantissaBitsWithoutImplicit =
      e + 1075 := by
    change e + 1023 + 52 = _
    omega
  have high := h.high
  simp only [pack, biased, log2_of_full full h.small]
  rw [if_neg (by change ¬ 2048 ≤ (e + 1075).toNat + 1; omega),
    if_pos (show 52 + 1 = Format.binary64.mantissaBits from rfl)]

/-- A canonical double that uses all bits is read back as it was packed. -/
theorem unpack_pack_full {s : Sign} {m : Nat} {e : Int} {hm : 0 < m} (h : Canonical m e)
    (full : 2 ^ 52 ≤ m) :
    (Float.Model.pack (.finite s m e hm)).unpack = .finite s m e hm := by
  have low := h.low
  have high := h.high
  have exponent : (BitVec.ofNat 11 (e + 1075).toNat).toNat = (e + 1075).toNat := by
    rw [BitVec.toNat_ofNat, Nat.mod_eq_of_lt (by omega)]
  have notInfinite : BitVec.ofNat 11 (e + 1075).toNat ≠ -1#11 := by
    rw [← BitVec.toNat_inj.ne, exponent]
    change _ ≠ 2047
    omega
  have notZero : BitVec.ofNat 11 (e + 1075).toNat ≠ 0#11 := by
    rw [← BitVec.toNat_inj.ne, exponent]
    change _ ≠ 0
    omega
  have back : ((e + 1075).toNat : Int) - (1023 + 52) = e := by omega
  change unpack Format.binary64 (pack Format.binary64 (.finite s m e hm)) = _
  rw [pack_full h full]
  simp only [unpack, unpackMantissa_packComponents, unpackExponent_packComponents,
    unpackSign_packComponents, ofBitVec_toBitVec]
  rw [if_neg notInfinite, if_neg notZero]
  simp only [exponent, toNat_one_append full h.small]
  congr 1

/-- A canonical double with the least exponent is read back as it was packed. -/
theorem unpack_pack_least {s : Sign} {m : Nat} {hm : 0 < m} (small : m < 2 ^ 52) :
    (Float.Model.pack (.finite s m (-1074) hm)).unpack = .finite s m (-1074) hm := by
  have bits : m.log2 < 52 := (Nat.log2_lt (Nat.ne_of_gt hm)).mpr small
  have mantissa : (BitVec.ofNat 52 m).toNat = m := by
    rw [BitVec.toNat_ofNat, Nat.mod_eq_of_lt small]
  have notZero : BitVec.ofNat 52 m ≠ 0#52 := by
    rw [← BitVec.toNat_inj.ne, mantissa]
    change _ ≠ 0
    omega
  change unpack Format.binary64 (pack Format.binary64 (.finite s m (-1074) hm)) = _
  simp only [pack]
  rw [if_neg (by decide), if_neg (by change ¬ m.log2 + 1 = 53; omega)]
  simp only [unpack, unpackMantissa_packComponents, unpackExponent_packComponents,
    unpackSign_packComponents, ofBitVec_toBitVec]
  rw [if_neg (by decide), if_pos trivial, dif_neg notZero]
  simp only [mantissa]
  rfl

theorem unpack_pack {s : Sign} {m : Nat} {e : Int} {hm : 0 < m} (h : Canonical m e) :
    (Float.Model.pack (.finite s m e hm)).unpack = .finite s m e hm := by
  by_cases full : 2 ^ 52 ≤ m
  · exact unpack_pack_full h full
  · obtain rfl := h.full.resolve_left full
    exact unpack_pack_least (by omega)

theorem unpack_pack_zero (s : Sign) : (Float.Model.pack (.zero s)).unpack = .zero s := by
  cases s <;> rfl

/-! ### Values -/

/-- A number with a sign. -/
def signed : Sign → ℚ → ℚ
  | .negative, x => -x
  | .positive, x => x

theorem signed_zero (s : Sign) : signed s 0 = 0 := by
  cases s
  · exact neg_zero
  · rfl

theorem signed_sub (s : Sign) (x y : ℚ) : signed s x - signed s y = signed s (x - y) := by
  cases s
  · exact (neg_sub' x y).symm
  · rfl

theorem signed_ne_zero {s : Sign} {x : ℚ} (h : x ≠ 0) : signed s x ≠ 0 := by
  cases s
  · exact neg_ne_zero.mpr h
  · exact h

theorem abs_signed (s : Sign) (x : ℚ) : |signed s x| = |x| := by
  cases s
  · exact abs_neg x
  · rfl

/-- The number that an unpacked double stands for, if it stands for one. -/
def value? : UnpackedFloat → Option ℚ
  | .zero _ => some 0
  | .finite s m e _ => some (signed s (m * 2 ^ e))
  | .infinity _ | .notANumber => none

/-! ### Rounding -/

theorem mantissa_shiftRight (em : ExtendedMantissa) (k : Nat) :
    (em >>> k).mantissa = em.mantissa / 2 ^ k := by
  induction k generalizing em with
  | zero => exact (Nat.div_one _).symm
  | succ k ih =>
    change (em >>> k).mantissa / 2 = _
    rw [ih, Nat.div_div_eq_div_mul, Nat.pow_succ]

theorem mantissa_ofMantissaAndAccuracy (m : Nat) (a : Accuracy) :
    (ExtendedMantissa.ofMantissaAndAccuracy m a).mantissa = m := by
  rcases a with _ | (_ | _ | _) <;> rfl

/-- Rounding takes a mantissa up by one at most. -/
theorem roundedMantissa_bounds (em : ExtendedMantissa) :
    em.mantissa ≤ em.roundedMantissa ∧ em.roundedMantissa ≤ em.mantissa + 1 := by
  rcases em with ⟨m, _ | _, _ | _⟩ <;>
    simp only [ExtendedMantissa.roundedMantissa, ExtendedMantissa.accuracy,
      Accuracy.roundToNearestEven] <;> omega

/-- The exponent that a number is rounded to. -/
def target (m : Nat) (e : Int) : Int := Format.binary64.targetExponent (totalExponent m e)

theorem target_eq (m : Nat) (e : Int) : target m e = max (m.log2 + e - 52) (-1074) := by
  simp only [target, Format.targetExponent, totalExponent, Format.mantissaBits, Format.minExponent]
  omega

/-- How many bits of a mantissa are dropped. -/
def dropped (m : Nat) (e : Int) : Nat := (target m e - e).toNat

theorem shiftToTargetExponent_eq (m : Nat) (e : Int) (a : Accuracy) :
    shiftToTargetExponent Format.binary64 m e a =
      (ExtendedMantissa.ofMantissaAndAccuracy m a >>> dropped m e, e + dropped m e) := rfl

theorem div_two_pow_lt {m k : Nat} (h : m.log2 ≤ 52 + k) : m / 2 ^ k < 2 ^ 53 := by
  rw [Nat.div_lt_iff_lt_mul (Nat.two_pow_pos k), ← Nat.pow_add]
  exact Nat.lt_of_lt_of_le Nat.lt_log2_self (Nat.pow_le_pow_right (by decide) (by omega))

theorem le_div_two_pow {m k : Nat} (h : m.log2 = 52 + k) : 2 ^ 52 ≤ m / 2 ^ k := by
  have hm : m ≠ 0 := by
    rintro rfl
    rw [Nat.log2_zero] at h
    omega
  rw [Nat.le_div_iff_mul_le (Nat.two_pow_pos k), ← Nat.pow_add, ← h]
  exact Nat.log2_self_le hm

/-- A mantissa that fits needs no shift. -/
theorem dropped_of_small {m : Nat} {e : Int} (small : m < 2 ^ 53) (low : -1074 ≤ e) :
    dropped m e = 0 := by
  have bits : m.log2 ≤ 52 := by
    by_cases zero : m = 0
    · rw [zero]
      decide
    · exact Nat.le_of_lt_succ ((Nat.log2_lt zero).mpr small)
  rw [dropped, target_eq]
  omega

/-- What a number is rounded to, before its mantissa is shifted once more. -/
def roundedUp (m : Nat) (e : Int) (a : Accuracy) : Nat :=
  (ExtendedMantissa.ofMantissaAndAccuracy m a >>> dropped m e).roundedMantissa

theorem roundedUp_bounds (m : Nat) (e : Int) (a : Accuracy) :
    m / 2 ^ dropped m e ≤ roundedUp m e a ∧ roundedUp m e a ≤ m / 2 ^ dropped m e + 1 := by
  have bounds := roundedMantissa_bounds (ExtendedMantissa.ofMantissaAndAccuracy m a >>> dropped m e)
  rw [mantissa_shiftRight, mantissa_ofMantissaAndAccuracy] at bounds
  exact bounds

theorem roundedUp_le (m : Nat) (e : Int) (a : Accuracy) : roundedUp m e a ≤ 2 ^ 53 := by
  have bits : m.log2 ≤ 52 + dropped m e := by
    rw [dropped, target_eq]
    omega
  have := div_two_pow_lt bits
  have := (roundedUp_bounds m e a).2
  omega

theorem roundWithAccuracy_eq (s : Sign) (m : Nat) (e : Int) (a : Accuracy) :
    roundWithAccuracy Format.binary64 s m e a =
      if h : roundedUp m e a = 0 then .zero s
      else if roundedUp m e a < 2 ^ 53 then
        .finite s (roundedUp m e a) (e + dropped m e) (Nat.pos_of_ne_zero h)
      else .finite s (2 ^ 52) (e + dropped m e + 1) (by decide) := by
  have low : -1074 ≤ e + dropped m e := by
    rw [dropped, target_eq]
    omega
  have most := roundedUp_le m e a
  rw [roundWithAccuracy, shiftToTargetExponent_eq]
  dsimp only
  rw [show (ExtendedMantissa.ofMantissaAndAccuracy m a >>> dropped m e).roundedMantissa =
    roundedUp m e a from rfl, shiftToTargetExponent_eq]
  dsimp only
  -- the second shift does nothing, unless rounding has filled the mantissa up
  by_cases small : roundedUp m e a < 2 ^ 53
  · have none := dropped_of_small small low
    have mantissa : (ExtendedMantissa.ofMantissaAndAccuracy (roundedUp m e a) .exact >>> 0).mantissa =
        roundedUp m e a := mantissa_ofMantissaAndAccuracy _ _
    simp only [none, mantissa, if_pos small, Nat.cast_zero, add_zero]
  · have full : roundedUp m e a = 2 ^ 53 := by omega
    have one : dropped (2 ^ 53) (e + dropped m e) = 1 := by
      rw [dropped, target_eq, Nat.log2_two_pow]
      omega
    rw [full]
    simp only [one]
    rfl

/-- A number with enough bits, or with a small enough exponent, is rounded to its target. -/
theorem add_dropped {m : Nat} {e : Int} (enough : 52 ≤ m.log2 ∨ e ≤ -1074) :
    e + dropped m e = target m e := by
  rw [dropped, target_eq]
  omega

theorem full_or_least {m : Nat} {e : Int} {a : Accuracy} (enough : 52 ≤ m.log2 ∨ e ≤ -1074) :
    2 ^ 52 ≤ roundedUp m e a ∨ e + dropped m e = -1074 := by
  by_cases least : e + dropped m e = -1074
  · exact Or.inr least
  · have reached := add_dropped enough
    have bits : m.log2 = 52 + dropped m e := by
      rw [target_eq] at reached
      omega
    exact Or.inl (Nat.le_trans (le_div_two_pow bits) (roundedUp_bounds m e a).1)

/-- What the double stands for that a number is rounded to. -/
theorem value?_pack_roundWithAccuracy {s : Sign} {m : Nat} {e : Int} {a : Accuracy}
    (enough : 52 ≤ m.log2 ∨ e ≤ -1074) (high : e + dropped m e ≤ 970) :
    value? (Float.Model.pack (roundWithAccuracy Format.binary64 s m e a)).unpack =
      some (signed s (roundedUp m e a * 2 ^ (e + dropped m e))) := by
  have low : -1074 ≤ e + dropped m e := by
    rw [dropped, target_eq]
    omega
  have most := roundedUp_le m e a
  have full := full_or_least (a := a) enough
  rw [roundWithAccuracy_eq]
  by_cases zero : roundedUp m e a = 0
  · rw [dif_pos zero, zero]
    rw [unpack_pack_zero, value?, Nat.cast_zero, zero_mul, signed_zero]
  rw [dif_neg zero]
  by_cases small : roundedUp m e a < 2 ^ 53
  · rw [if_pos small, unpack_pack ⟨small, low, by omega, full⟩]
    rfl
  · -- a power of two has one bit, which goes up into the exponent
    have all : roundedUp m e a = 2 ^ 53 := by omega
    rw [if_neg small, unpack_pack ⟨by decide, by omega, by omega, Or.inl (Nat.le_refl _)⟩, all]
    refine congrArg (fun x => some (signed s x)) ?_
    rw [zpow_add_one₀ (by decide)]
    push_cast
    ring

theorem two_zpow_pos (n : ℤ) : (0 : ℚ) < 2 ^ n := zpow_pos (by norm_num) n

/-- Dropping bits is off by less than the last bit that is kept. -/
theorem abs_roundedUp_sub_le (m : Nat) (e : Int) (a : Accuracy) :
    |(roundedUp m e a : ℚ) * 2 ^ (e + dropped m e) - m * 2 ^ e| ≤ 2 ^ (e + dropped m e) := by
  obtain ⟨low, high⟩ := roundedUp_bounds m e a
  generalize dropped m e = k at *
  generalize roundedUp m e a = r at *
  have above : m ≤ r * 2 ^ k + 2 ^ k := by
    have := Nat.lt_mul_div_succ m (Nat.two_pow_pos k)
    nlinarith
  have below : r * 2 ^ k ≤ m + 2 ^ k := by
    have := Nat.div_mul_le_self m (2 ^ k)
    nlinarith
  have above : (m : ℚ) ≤ r * 2 ^ k + 2 ^ k := by exact_mod_cast above
  have below : (r : ℚ) * 2 ^ k ≤ m + 2 ^ k := by exact_mod_cast below
  have scaled : (r : ℚ) * 2 ^ (e + k) - m * 2 ^ e = 2 ^ e * (r * 2 ^ k - m) := by
    rw [zpow_add₀ (by norm_num), zpow_natCast]
    ring
  rw [scaled, abs_mul, abs_of_pos (two_zpow_pos e), zpow_add₀ (by norm_num), zpow_natCast]
  refine mul_le_mul_of_nonneg_left ?_ (two_zpow_pos e).le
  rw [abs_le]
  constructor <;> linarith

/-- What a number is rounded to is as fine as the number is small. -/
theorem target_le {m : Nat} {e n : Int} (enough : 52 ≤ m.log2 ∨ e ≤ -1074) (low : -1022 ≤ n)
    (bound : (m : ℚ) * 2 ^ e ≤ 2 ^ n) : target m e ≤ n - 52 := by
  rcases Nat.eq_zero_or_pos m with rfl | hm
  · rw [Nat.log2_zero] at enough
    rw [target_eq, Nat.log2_zero]
    omega
  have leading : ((2 : ℚ) ^ m.log2) ≤ m := by exact_mod_cast Nat.log2_self_le (Nat.ne_of_gt hm)
  have least : (2 : ℚ) ^ ((m.log2 : ℤ) + e) ≤ 2 ^ n := by
    rw [zpow_add₀ (by norm_num), zpow_natCast]
    exact le_trans (mul_le_mul_of_nonneg_right leading (two_zpow_pos e).le) bound
  have := (zpow_le_zpow_iff_right₀ (by norm_num)).mp least
  rw [target_eq]
  omega

/-- A number that is rounded stays within the last bit that numbers of its size have. -/
theorem exists_value?_roundWithAccuracy {s : Sign} {m : Nat} {e n : Int} {a : Accuracy}
    (enough : 52 ≤ m.log2 ∨ e ≤ -1074) (low : -1022 ≤ n) (high : n ≤ 1022)
    (bound : (m : ℚ) * 2 ^ e ≤ 2 ^ n) :
    ∃ v, value? (Float.Model.pack (roundWithAccuracy Format.binary64 s m e a)).unpack = some v ∧
      |v - signed s (m * 2 ^ e)| ≤ 2 ^ (n - 52) := by
  have reached := add_dropped enough
  have fine := target_le enough low bound
  refine ⟨_, value?_pack_roundWithAccuracy enough (by omega), ?_⟩
  rw [signed_sub, abs_signed]
  refine le_trans (abs_roundedUp_sub_le m e a) ?_
  exact zpow_le_zpow_right₀ (by norm_num) (by omega)

theorem decreaseExponent_eq (m : Nat) (e t : Int) :
    decreaseExponent m e t = (m <<< (e - t).toNat, e - (e - t).toNat) := rfl

/-- Zeros that are put behind a mantissa do not change the number. -/
theorem shiftLeft_mul (m k : Nat) (e : Int) :
    ((m <<< k : Nat) : ℚ) * 2 ^ (e - k) = m * 2 ^ e := by
  rw [Nat.shiftLeft_eq, zpow_sub₀ (by norm_num), zpow_natCast]
  push_cast
  field_simp

theorem log2_shiftLeft {m : Nat} (hm : 0 < m) (k : Nat) : (m <<< k).log2 = m.log2 + k := by
  have ne : m <<< k ≠ 0 := Nat.ne_of_gt (Nat.shiftLeft_pos_iff.mpr hm)
  obtain ⟨low, high⟩ := (Nat.log2_eq_iff (Nat.ne_of_gt hm)).mp rfl
  refine (Nat.log2_eq_iff ne).mpr ⟨?_, ?_⟩
  · rw [Nat.shiftLeft_eq, Nat.pow_add]
    exact Nat.mul_le_mul_right _ low
  · rw [Nat.shiftLeft_eq, show m.log2 + k + 1 = m.log2 + 1 + k by omega, Nat.pow_add]
    exact Nat.mul_lt_mul_of_pos_right high (Nat.two_pow_pos k)

theorem exists_value?_round {s : Sign} {m : Nat} {e n : Int} (hm : 0 < m) (low : -1022 ≤ n)
    (high : n ≤ 1022) (bound : (m : ℚ) * 2 ^ e ≤ 2 ^ n) :
    ∃ v, value? (Float.Model.pack (round Format.binary64 s m e)).unpack = some v ∧
      |v - signed s (m * 2 ^ e)| ≤ 2 ^ (n - 52) := by
  rw [UnpackedFloat.round, decreaseExponent_eq]
  dsimp only
  rw [show Format.binary64.targetExponent (totalExponent m e) = target m e from rfl]
  generalize hk : (e - target m e).toNat = k
  rw [target_eq] at hk
  have enough : 52 ≤ (m <<< k).log2 ∨ e - k ≤ -1074 := by
    rw [log2_shiftLeft hm]
    omega
  obtain ⟨v, hv, near⟩ := exists_value?_roundWithAccuracy (s := s) (a := .exact) enough low high
    ((shiftLeft_mul m k e).trans_le bound)
  rw [shiftLeft_mul] at near
  exact ⟨v, hv, near⟩

/-- A whole multiple of a power of two is rounded by the last bit that numbers of its size have, and
nothing is made of nothing. -/
theorem exists_value?_normalize {i : Int} {e n : Int} {z : Sign} (low : -1022 ≤ n) (high : n ≤ 1022)
    (bound : |(i : ℚ) * 2 ^ e| ≤ 2 ^ n) :
    ∃ v, value? (Float.Model.pack (UnpackedFloat.normalize Format.binary64 i e z)).unpack = some v ∧
      |v - i * 2 ^ e| ≤ 2 ^ (n - 52) ∧ (i = 0 → v = 0) := by
  rw [UnpackedFloat.normalize]
  rcases lt_trichotomy i 0 with neg | rfl | pos
  · obtain ⟨m, rfl⟩ : ∃ m : Nat, i = -m := ⟨i.natAbs, by omega⟩
    rw [Int.compare_eq_lt.mpr neg, neg_neg, Int.toNat_natCast]
    push_cast at bound ⊢
    rw [neg_mul, abs_neg, abs_of_nonneg (by positivity)] at bound
    obtain ⟨v, hv, near⟩ := exists_value?_round (s := .negative) (by omega) low high bound
    exact ⟨v, hv, by rw [neg_mul]; exact near, by omega⟩
  · refine ⟨0, ?_, by simpa using (two_zpow_pos _).le, fun _ => rfl⟩
    change value? (Float.Model.pack (.zero z)).unpack = _
    rw [unpack_pack_zero]
    rfl
  · obtain ⟨m, rfl⟩ : ∃ m : Nat, i = m := ⟨i.natAbs, by omega⟩
    rw [Int.compare_eq_gt.mpr pos, Int.toNat_natCast]
    push_cast at bound ⊢
    rw [abs_of_nonneg (by positivity)] at bound
    obtain ⟨v, hv, near⟩ := exists_value?_round (s := .positive) (by omega) low high bound
    exact ⟨v, hv, near, by omega⟩

/-! ### Sums, products and quotients -/

/-- An unpacked double as it is read from bits. -/
def Proper : UnpackedFloat → Prop
  | .finite _ m e _ => Canonical m e
  | _ => True

theorem canonical_of_unpack {v : Float.Model} {s : Sign} {m : Nat} {e : Int} {hm : 0 < m}
    (h : v.unpack = .finite s m e hm) : Canonical m e := by
  unfold Float.Model.unpack unpack at h
  dsimp only at h
  have bits := (@unpackMantissa Format.binary64 v.toBits.toBitVec).isLt
  have width := (@unpackExponent Format.binary64 v.toBits.toBitVec).isLt
  change _ < 2 ^ 52 at bits
  change _ < 2 ^ 11 at width
  -- an exponent of ones stands for no number, and one of zeros for the least
  split at h
  · split at h <;> cases h
  next finite =>
    have notAll : (@unpackExponent Format.binary64 v.toBits.toBitVec).toNat ≠ 2047 :=
      fun all => finite (BitVec.eq_of_toNat_eq all)
    split at h
    next least =>
      split at h
      · cases h
      · cases h
        rw [least]
        exact ⟨by omega, by decide, by decide, Or.inr rfl⟩
    next normal =>
      have notNone : (@unpackExponent Format.binary64 v.toBits.toBitVec).toNat ≠ 0 :=
        fun none => normal (BitVec.eq_of_toNat_eq none)
      cases h
      have mantissa : (1#1 ++ @unpackMantissa Format.binary64 v.toBits.toBitVec).toNat =
          2 ^ 52 + (@unpackMantissa Format.binary64 v.toBits.toBitVec).toNat := by
        rw [BitVec.toNat_append, ← Nat.shiftLeft_add_eq_or_of_lt bits]
        rfl
      have exponent : ((@unpackExponent Format.binary64 v.toBits.toBitVec).toNat : Int) -
          (Format.binary64.exponentBias + Format.binary64.mantissaBitsWithoutImplicit) =
          (@unpackExponent Format.binary64 v.toBits.toBitVec).toNat - 1075 := rfl
      rw [mantissa, exponent]
      exact ⟨by omega, by omega, by omega, Or.inl (by omega)⟩

theorem proper_unpack (v : Float.Model) : Proper v.unpack := by
  cases read : v.unpack with
  | finite s m e hm => exact canonical_of_unpack read
  | _ => trivial

theorem Proper.neg {u : UnpackedFloat} (h : Proper u) : Proper u.neg := by cases u <;> exact h

theorem value?_neg {u : UnpackedFloat} {q : ℚ} (h : value? u = some q) : value? u.neg = some (-q) := by
  cases u with
  | zero s => exact congrArg some (Option.some.inj h ▸ neg_zero.symm)
  | finite s m e hm =>
    rw [← Option.some.inj h]
    cases s
    · exact congrArg some (neg_neg _).symm
    · rfl
  | infinity s => cases h
  | notANumber => cases h

theorem value?_pack_proper {u : UnpackedFloat} (h : Proper u) :
    value? (Float.Model.pack u).unpack = value? u := by
  cases u with
  | zero s => rw [unpack_pack_zero]
  | finite s m e hm => rw [unpack_pack h]
  | infinity s => cases s <;> rfl
  | notANumber => rfl

/-- An unpacked double with a value is a zero, or a whole multiple of a power of two. -/
theorem cases_of_value? {u : UnpackedFloat} {q : ℚ} (h : value? u = some q) :
    (∃ s, u = .zero s ∧ q = 0) ∨ ∃ s m e hm, u = .finite s m e hm ∧ q = signed s (m * 2 ^ e) := by
  cases u with
  | zero s => exact Or.inl ⟨s, rfl, (Option.some.inj h).symm⟩
  | finite s m e hm => exact Or.inr ⟨s, m, e, hm, rfl, (Option.some.inj h).symm⟩
  | infinity s => cases h
  | notANumber => cases h

/-- The bound that the numbers here keep to. -/
def bound : ℚ := 2 ^ (17 : ℤ)

theorem one_le_bound : 1 ≤ bound := one_le_zpow₀ (by norm_num) (by decide)

/-- How far a number within the bound is from the double that it is rounded to: the last bit is half
of it. -/
def grain : ℚ := 2 ^ (-34 : ℤ)

theorem grain_nonneg : 0 ≤ grain := (two_zpow_pos _).le

theorem last_bit_le : (2 : ℚ) ^ (17 - 52 : ℤ) ≤ grain := zpow_le_zpow_right₀ (by norm_num) (by decide)

/-- A double stands for a number up to its last bit, and exactly if that is zero. -/
def Rounds (u : Float.Model) (q : ℚ) : Prop :=
  ∃ v, value? u.unpack = some v ∧ |v - q| ≤ grain ∧ (q = 0 → v = 0)

theorem rounds_of_eq {u : Float.Model} {q : ℚ} (h : value? u.unpack = some q) : Rounds u q :=
  ⟨q, h, by rw [sub_self, abs_zero]; exact grain_nonneg, id⟩

theorem apply_mul_two_zpow (s : Sign) (m : Nat) (e : ℤ) :
    (s.apply m : ℚ) * 2 ^ e = signed s (m * 2 ^ e) := by
  cases s
  · simp only [Sign.apply, signed, Int.cast_neg, Int.cast_natCast, neg_mul]
  · rfl

/-- A multiple of a power of two is one of any smaller power. -/
theorem aligned (s : Sign) (m : Nat) {e t : ℤ} (h : t ≤ e) :
    (s.apply (decreaseExponent m e t).1 : ℚ) * 2 ^ t = signed s (m * 2 ^ e) := by
  rw [decreaseExponent_eq, apply_mul_two_zpow]
  have same := shiftLeft_mul m (e - t).toNat e
  rw [show e - (e - t).toNat = t by omega] at same
  exact congrArg (signed s) same

section

variable {u v : UnpackedFloat} {a b : ℚ}

theorem rounds_add (hu : value? u = some a) (hv : value? v = some b) (pu : Proper u) (pv : Proper v)
    (small : |a + b| ≤ bound) :
    Rounds (Float.Model.pack (UnpackedFloat.add Format.binary64 u v)) (a + b) := by
  rcases cases_of_value? hu with ⟨s, rfl, rfl⟩ | ⟨s, m, e, hm, rfl, rfl⟩
  · rcases cases_of_value? hv with ⟨t, rfl, rfl⟩ | ⟨t, m', e', hm', rfl, rfl⟩
    · rw [add_zero]
      refine rounds_of_eq ?_
      cases s <;> cases t <;> rfl
    · rw [zero_add]
      exact rounds_of_eq ((value?_pack_proper pv).trans hv)
  · rcases cases_of_value? hv with ⟨t, rfl, rfl⟩ | ⟨t, m', e', hm', rfl, rfl⟩
    · rw [add_zero]
      exact rounds_of_eq ((value?_pack_proper pu).trans hu)
    · have first := aligned s m (min_le_left e e')
      have second := aligned t m' (min_le_right e e')
      rw [← first, ← second, ← add_mul, ← Int.cast_add] at small ⊢
      obtain ⟨v, hv, near, zero⟩ := exists_value?_normalize (z := .positive) (by decide) (by decide) small
      refine ⟨v, hv, near.trans last_bit_le, fun nothing => zero ?_⟩
      have ne := (two_zpow_pos (min e e')).ne'
      exact_mod_cast (mul_eq_zero.mp nothing).resolve_right ne

theorem neg_apply (t : Sign) (i : Int) : (-t).apply i = -t.apply i := by
  cases t
  · exact (neg_neg i).symm
  · rfl

/-- To take away is to add the negative. -/
theorem sub_eq_add (u v : UnpackedFloat) :
    UnpackedFloat.sub Format.binary64 u v = UnpackedFloat.add Format.binary64 u v.neg := by
  cases u with
  | finite s m e hm =>
    cases v with
    | finite t m' e' hm' =>
      simp only [UnpackedFloat.sub, UnpackedFloat.add, UnpackedFloat.neg, neg_apply, sub_eq_add_neg]
    | _ => rfl
  | _ => cases v <;> rfl

theorem rounds_sub (hu : value? u = some a) (hv : value? v = some b) (pu : Proper u) (pv : Proper v)
    (small : |a - b| ≤ bound) :
    Rounds (Float.Model.pack (UnpackedFloat.sub Format.binary64 u v)) (a - b) := by
  rw [sub_eq_add_neg] at small ⊢
  rw [sub_eq_add]
  exact rounds_add hu (value?_neg hv) pu pv.neg small

theorem signed_mul (s t : Sign) (x y : ℚ) : signed s x * signed t y = signed (s * t) (x * y) := by
  cases s <;> cases t
  · exact neg_mul_neg x y
  · exact neg_mul x y
  · exact mul_neg x y
  · rfl

theorem rounds_mul (hu : value? u = some a) (hv : value? v = some b) (pu : Proper u) (pv : Proper v)
    (small : |a * b| ≤ bound) :
    Rounds (Float.Model.pack (UnpackedFloat.mul Format.binary64 u v)) (a * b) := by
  rcases cases_of_value? hu with ⟨s, rfl, rfl⟩ | ⟨s, m, e, hm, rfl, rfl⟩
  · rw [zero_mul]
    rcases cases_of_value? hv with ⟨t, rfl, rfl⟩ | ⟨t, m', e', hm', rfl, rfl⟩ <;>
      exact rounds_of_eq (value?_pack_proper (u := .zero (s * t)) trivial)
  · rcases cases_of_value? hv with ⟨t, rfl, rfl⟩ | ⟨t, m', e', hm', rfl, rfl⟩
    · rw [mul_zero]
      exact rounds_of_eq (value?_pack_proper (u := .zero (s * t)) trivial)
    · have product : ((m : ℚ) * 2 ^ e) * (m' * 2 ^ e') = ((m * m' : Nat) : ℚ) * 2 ^ (e + e') := by
        rw [zpow_add₀ (by norm_num)]
        push_cast
        ring
      have positive : 0 < m * m' := Nat.mul_pos hm hm'
      -- one full factor is enough, and without any both exponents are least
      have enough : 52 ≤ (m * m').log2 ∨ e + e' ≤ -1074 := by
        rw [Nat.le_log2 (Nat.ne_of_gt positive)]
        rcases Canonical.full pu with full | least
        · exact Or.inl (full.trans (Nat.le_mul_of_pos_right m hm'))
        rcases Canonical.full pv with full | least'
        · exact Or.inl (full.trans (Nat.le_mul_of_pos_left m' hm))
        · omega
      rw [signed_mul, product] at small ⊢
      rw [abs_signed, abs_of_nonneg (by positivity)] at small
      obtain ⟨v, hv, near⟩ := exists_value?_roundWithAccuracy (s := s * t) (a := .exact) enough
        (by decide) (by decide) small
      refine ⟨v, hv, near.trans last_bit_le, fun nothing => absurd nothing ?_⟩
      exact signed_ne_zero (mul_pos (by exact_mod_cast positive) (two_zpow_pos _)).ne'

theorem signed_div (s t : Sign) (x y : ℚ) : signed s x / signed t y = signed (s / t) (x / y) := by
  cases s <;> cases t
  · exact neg_div_neg_eq x y
  · exact neg_div y x
  · exact div_neg x
  · rfl

/-- The exponent that a quotient is computed with. -/
def quotientPlace (m : Nat) (e : Int) (m' : Nat) (e' : Int) : Int :=
  min (e - e') (max (m.log2 + e - m'.log2 - e' - 53) (-1074))

/-- The mantissa that a quotient is computed with, rounded down. -/
def quotient (m : Nat) (e : Int) (m' : Nat) (e' : Int) : Nat :=
  (m <<< (e - e' - quotientPlace m e m' e').toNat) / m'

theorem divCore_eq (m : Nat) (e : Int) (m' : Nat) (e' : Int) :
    ∃ acc, divCore Format.binary64 m e m' e' =
      (quotient m e m' e', quotientPlace m e m' e', acc) := by
  have place : min (e - e') (Format.binary64.targetExponent
      (totalExponent m e - totalExponent m' e')) = quotientPlace m e m' e' := by
    simp only [quotientPlace, Format.targetExponent, totalExponent, Format.mantissaBits,
      Format.minExponent]
    omega
  rw [quotient, ← place]
  exact ⟨_, rfl⟩

theorem shiftLeft_quotientPlace (m : Nat) (e : Int) (m' : Nat) (e' : Int) :
    ((m <<< (e - e' - quotientPlace m e m' e').toNat : Nat) : ℚ) * 2 ^ quotientPlace m e m' e' =
      m * 2 ^ (e - e') := by
  have same := shiftLeft_mul m (e - e' - quotientPlace m e m' e').toNat (e - e')
  have fits : quotientPlace m e m' e' ≤ e - e' := min_le_left _ _
  rwa [show e - e' - (e - e' - quotientPlace m e m' e').toNat = quotientPlace m e m' e' by omega] at same

/-- Rounding a quotient down is off by less than its last bit. -/
theorem quotient_bounds (m : Nat) (e : Int) {m' : Nat} (e' : Int) (hm' : 0 < m') :
    (quotient m e m' e' : ℚ) * 2 ^ quotientPlace m e m' e' ≤ m * 2 ^ e / (m' * 2 ^ e') ∧
      (m : ℚ) * 2 ^ e / (m' * 2 ^ e') ≤
        quotient m e m' e' * 2 ^ quotientPlace m e m' e' + 2 ^ quotientPlace m e m' e' := by
  have positive : (0 : ℚ) < m' := by exact_mod_cast hm'
  have whole : (m : ℚ) * 2 ^ e / (m' * 2 ^ e') =
      ((m <<< (e - e' - quotientPlace m e m' e').toNat : Nat) : ℚ) *
        2 ^ quotientPlace m e m' e' / m' := by
    rw [shiftLeft_quotientPlace, zpow_sub₀ (by norm_num)]
    field_simp
  have low := Nat.div_mul_le_self (m <<< (e - e' - quotientPlace m e m' e').toNat) m'
  have high := Nat.lt_mul_div_succ (m <<< (e - e' - quotientPlace m e m' e').toNat) hm'
  rw [whole, quotient]
  generalize m <<< (e - e' - quotientPlace m e m' e').toNat = i at *
  generalize quotientPlace m e m' e' = t at *
  have unit := two_zpow_pos t
  have low : ((i / m' : Nat) : ℚ) * m' ≤ i := by exact_mod_cast low
  have high : (i : ℚ) ≤ m' * ((i / m' : Nat) + 1) := by exact_mod_cast high.le
  constructor
  · rw [le_div_iff₀ positive]
    nlinarith
  · rw [div_le_iff₀ positive]
    nlinarith

/-- A quotient has enough bits. -/
theorem quotient_enough {m : Nat} (e : Int) {m' : Nat} (e' : Int) (hm : 0 < m) (hm' : 0 < m') :
    52 ≤ (quotient m e m' e').log2 ∨ quotientPlace m e m' e' ≤ -1074 := by
  refine or_iff_not_imp_right.mpr fun notLeast => ?_
  have shift : m'.log2 + 53 ≤ m.log2 + (e - e' - quotientPlace m e m' e').toNat := by
    rw [quotientPlace] at *
    omega
  have most : m' < 2 ^ (m'.log2 + 1) := Nat.lt_log2_self
  have least : 2 ^ m.log2 ≤ m := Nat.log2_self_le (Nat.ne_of_gt hm)
  have big : 2 ^ 52 ≤ quotient m e m' e' := by
    rw [quotient, Nat.le_div_iff_mul_le hm', Nat.shiftLeft_eq]
    calc 2 ^ 52 * m' ≤ 2 ^ 52 * 2 ^ (m'.log2 + 1) := Nat.mul_le_mul_left _ most.le
      _ = 2 ^ (m'.log2 + 53) := by rw [← Nat.pow_add]; congr 1; omega
      _ ≤ 2 ^ (m.log2 + (e - e' - quotientPlace m e m' e').toNat) :=
        Nat.pow_le_pow_right (by decide) shift
      _ = 2 ^ m.log2 * 2 ^ (e - e' - quotientPlace m e m' e').toNat := Nat.pow_add ..
      _ ≤ m * 2 ^ (e - e' - quotientPlace m e m' e').toNat := Nat.mul_le_mul_right _ least
  exact (Nat.le_log2 (by omega)).mpr big

/-- The last bit of a quotient within the bound. -/
theorem quotientPlace_le {m : Nat} {e : Int} {m' : Nat} {e' : Int} (hm : 0 < m) (hm' : 0 < m')
    (small : (m : ℚ) * 2 ^ e / (m' * 2 ^ e') ≤ bound) : quotientPlace m e m' e' ≤ 17 - 52 := by
  have positive : (0 : ℚ) < m' * 2 ^ e' := mul_pos (by exact_mod_cast hm') (two_zpow_pos e')
  rw [div_le_iff₀ positive] at small
  have least : ((2 : ℚ) ^ m.log2) ≤ m := by exact_mod_cast Nat.log2_self_le (Nat.ne_of_gt hm)
  have most : (m' : ℚ) ≤ 2 ^ (m'.log2 + 1) := by
    exact_mod_cast (Nat.lt_log2_self (n := m')).le
  have size : (2 : ℚ) ^ ((m.log2 : ℤ) + e) ≤ 2 ^ (17 + ((m'.log2 + 1 : Nat) + e')) := by
    calc (2 : ℚ) ^ ((m.log2 : ℤ) + e) = 2 ^ m.log2 * 2 ^ e := by
          rw [zpow_add₀ (by norm_num), zpow_natCast]
      _ ≤ m * 2 ^ e := mul_le_mul_of_nonneg_right least (two_zpow_pos e).le
      _ ≤ bound * (m' * 2 ^ e') := small
      _ ≤ bound * (2 ^ (m'.log2 + 1) * 2 ^ e') :=
        mul_le_mul_of_nonneg_left (mul_le_mul_of_nonneg_right most (two_zpow_pos e').le)
          (two_zpow_pos _).le
      _ = 2 ^ (17 + ((m'.log2 + 1 : Nat) + e')) := by
          rw [bound, zpow_add₀ (by norm_num), zpow_add₀ (by norm_num), zpow_natCast]
  have := (zpow_le_zpow_iff_right₀ (by norm_num)).mp size
  rw [quotientPlace]
  push_cast at this
  omega

theorem rounds_div (hu : value? u = some a) (hv : value? v = some b)
    (nonzero : b ≠ 0) (small : |a / b| ≤ bound) :
    Rounds (Float.Model.pack (UnpackedFloat.div Format.binary64 u v)) (a / b) := by
  rcases cases_of_value? hv with ⟨t, rfl, rfl⟩ | ⟨t, m', e', hm', rfl, rfl⟩
  · exact absurd rfl nonzero
  rcases cases_of_value? hu with ⟨s, rfl, rfl⟩ | ⟨s, m, e, hm, rfl, rfl⟩
  · rw [zero_div]
    exact rounds_of_eq (value?_pack_proper (u := .zero (s / t)) trivial)
  · rw [signed_div] at small ⊢
    rw [abs_signed, abs_of_nonneg (by positivity)] at small
    obtain ⟨acc, core⟩ := divCore_eq m e m' e'
    obtain ⟨below, above⟩ := quotient_bounds m e e' hm'
    obtain ⟨v, hv, near⟩ := exists_value?_roundWithAccuracy (s := s / t) (a := acc)
      (quotient_enough e e' hm hm') (by decide) (by decide) (below.trans small)
    have fine : (2 : ℚ) ^ quotientPlace m e m' e' ≤ 2 ^ (17 - 52 : ℤ) :=
      zpow_le_zpow_right₀ (by norm_num) (quotientPlace_le hm hm' small)
    -- rounding down is off by a last bit, and so is rounding what is left
    refine ⟨v, ?_, ?_, fun nothing => absurd nothing ?_⟩
    · rw [UnpackedFloat.div, core]
      exact hv
    · have down : |signed (s / t) (quotient m e m' e' * 2 ^ quotientPlace m e m' e') -
          signed (s / t) (m * 2 ^ e / (m' * 2 ^ e'))| ≤ 2 ^ (17 - 52 : ℤ) := by
        rw [signed_sub, abs_signed, abs_sub_comm, abs_of_nonneg (sub_nonneg.mpr below)]
        exact (sub_le_iff_le_add'.mpr above).trans fine
      have both : (2 : ℚ) ^ (17 - 52 : ℤ) + 2 ^ (17 - 52 : ℤ) = grain := by
        rw [grain]
        norm_num
      exact (abs_sub_le _ _ _).trans ((add_le_add near down).trans both.le)
    · have positive : (0 : ℚ) < m := by exact_mod_cast hm
      have positive' : (0 : ℚ) < m' := by exact_mod_cast hm'
      exact signed_ne_zero (by have := two_zpow_pos e; have := two_zpow_pos e'; positivity)

end

/-! ### Whole numbers -/

/-- Bits that are zero can be dropped. -/
theorem shiftRight_ofMantissa (m k : Nat) :
    ExtendedMantissa.ofMantissaAndAccuracy (m * 2 ^ k) .exact >>> k =
      ExtendedMantissa.ofMantissaAndAccuracy m .exact := by
  induction k generalizing m with
  | zero => exact congrArg (ExtendedMantissa.ofMantissaAndAccuracy · .exact) (Nat.mul_one m)
  | succ k ih =>
    change ExtendedMantissa.shiftRightOne
      (ExtendedMantissa.ofMantissaAndAccuracy (m * 2 ^ (k + 1)) .exact >>> k) = _
    rw [show m * 2 ^ (k + 1) = m * 2 * 2 ^ k by rw [Nat.pow_succ]; ring, ih]
    simp [ExtendedMantissa.shiftRightOne, ExtendedMantissa.ofMantissaAndAccuracy]

theorem roundedUp_mul {m d : Nat} {e : Int} (h : dropped (m * 2 ^ d) e = d) :
    roundedUp (m * 2 ^ d) e .exact = m := by
  rw [roundedUp, h, shiftRight_ofMantissa]
  rfl

theorem roundedUp_of_dropped {m : Nat} {e : Int} (h : dropped m e = 0) : roundedUp m e .exact = m := by
  rw [roundedUp, h]
  rfl

theorem log2_add_le {m n : Nat} {e : Int} (hm : 0 < m) (whole : (m : ℚ) * 2 ^ e = n)
    (small : n < 2 ^ 53) : m.log2 + e ≤ 52 := by
  have leading : ((2 : ℚ) ^ m.log2) ≤ m := by exact_mod_cast Nat.log2_self_le (Nat.ne_of_gt hm)
  have small : (n : ℚ) < 2 ^ (53 : ℤ) := by exact_mod_cast small
  have least : (2 : ℚ) ^ ((m.log2 : ℤ) + e) < 2 ^ (53 : ℤ) := by
    rw [zpow_add₀ (by norm_num), zpow_natCast]
    exact (mul_le_mul_of_nonneg_right leading (two_zpow_pos e).le).trans_lt (whole.trans_lt small)
  have := (zpow_lt_zpow_iff_right₀ (by norm_num)).mp least
  omega

/-- Whole numbers that fit are not rounded. -/
theorem value?_round_whole {s : Sign} {m n : Nat} {e : Int} (hm : 0 < m) (whole : (m : ℚ) * 2 ^ e = n)
    (small : n < 2 ^ 53) :
    value? (Float.Model.pack (UnpackedFloat.round Format.binary64 s m e)).unpack =
      some (signed s n) := by
  have bits := log2_add_le hm whole small
  rw [UnpackedFloat.round, decreaseExponent_eq]
  dsimp only
  rw [show Format.binary64.targetExponent (totalExponent m e) = target m e from rfl]
  by_cases coarse : target m e ≤ e
  · -- zeros are put behind the mantissa, and none is dropped again
    generalize hk : (e - target m e).toNat = k
    rw [target_eq] at coarse hk
    have none : dropped (m <<< k) (e - k) = 0 := by
      rw [dropped, target_eq, log2_shiftLeft hm]
      omega
    have enough : 52 ≤ (m <<< k).log2 ∨ e - k ≤ -1074 := by
      rw [log2_shiftLeft hm]
      omega
    have all : roundedUp (m <<< k) (e - k) .exact = m <<< k := roundedUp_of_dropped none
    rw [value?_pack_roundWithAccuracy enough (by rw [none]; omega), all, none, Nat.cast_zero, add_zero,
      shiftLeft_mul, whole]
  · -- the bits that are dropped belong to the fraction, and there is none
    rw [show (e - target m e).toNat = 0 by omega, Nat.shiftLeft_zero, Nat.cast_zero, sub_zero]
    have place := target_eq m e
    generalize hd : (target m e - e).toNat = d
    have fraction : m = n * 2 ^ ((-e).toNat - d) * 2 ^ d := by
      have scaled : (m : ℚ) = n * 2 ^ (-e).toNat := by
        rw [← whole, mul_assoc, ← zpow_natCast, ← zpow_add₀ (by norm_num),
          show e + ((-e).toNat : Int) = 0 by omega, zpow_zero, mul_one]
      rw [Nat.mul_assoc, ← Nat.pow_add, show (-e).toNat - d + d = (-e).toNat by omega]
      exact_mod_cast scaled
    have drops : dropped m e = d := hd
    have enough : 52 ≤ m.log2 ∨ e ≤ -1074 := by omega
    have all : roundedUp m e .exact = n * 2 ^ ((-e).toNat - d) := by
      rw [fraction] at drops ⊢
      exact roundedUp_mul drops
    rw [value?_pack_roundWithAccuracy enough (by omega), all, drops, ← whole]
    refine congrArg (fun x => some (signed s x)) ?_
    conv_rhs => rw [fraction]
    rw [zpow_add₀ (by norm_num), zpow_natCast]
    push_cast
    ring

theorem value?_normalize_whole {i : Int} {e : Int} {z : Sign} {k : Int} (whole : (i : ℚ) * 2 ^ e = k)
    (small : k.natAbs < 2 ^ 53) :
    value? (Float.Model.pack (UnpackedFloat.normalize Format.binary64 i e z)).unpack = some (k : ℚ) := by
  have scale := two_zpow_pos e
  rw [UnpackedFloat.normalize]
  rcases lt_trichotomy i 0 with neg | rfl | pos
  · obtain ⟨m, rfl⟩ : ∃ m : Nat, i = -m := ⟨i.natAbs, by omega⟩
    have sign : k < 0 := by
      have : (k : ℚ) < 0 := by rw [← whole]; exact mul_neg_of_neg_of_pos (by exact_mod_cast neg) scale
      exact_mod_cast this
    obtain ⟨n, rfl⟩ : ∃ n : Nat, k = -n := ⟨k.natAbs, by omega⟩
    rw [Int.compare_eq_lt.mpr neg, neg_neg, Int.toNat_natCast]
    push_cast at whole ⊢
    exact value?_round_whole (by omega) (by linarith) (by omega)
  · rw [Int.cast_zero, zero_mul] at whole
    rw [← whole]
    exact congrArg value? (unpack_pack_zero z)
  · obtain ⟨m, rfl⟩ : ∃ m : Nat, i = m := ⟨i.natAbs, by omega⟩
    have sign : 0 < k := by
      have : (0 : ℚ) < k := by rw [← whole]; exact mul_pos (by exact_mod_cast pos) scale
      exact_mod_cast this
    obtain ⟨n, rfl⟩ : ∃ n : Nat, k = n := ⟨k.natAbs, by omega⟩
    rw [Int.compare_eq_gt.mpr pos, Int.toNat_natCast]
    push_cast at whole ⊢
    exact value?_round_whole (by omega) whole (by omega)

theorem value?_ofNat {n : Nat} (small : n < 2 ^ 53) :
    value? (Float.Model.ofNat n).unpack = some (n : ℚ) := by
  have whole : ((n : ℤ) : ℚ) * 2 ^ (0 : ℤ) = (n : ℤ) := by rw [zpow_zero, mul_one]
  exact value?_normalize_whole whole small

/-- Sums of whole numbers that fit are not rounded. -/
theorem value?_add_whole {u v : UnpackedFloat} {i j : Int} (hu : value? u = some (i : ℚ))
    (hv : value? v = some (j : ℚ)) (pu : Proper u) (pv : Proper v) (small : (i + j).natAbs < 2 ^ 53) :
    value? (Float.Model.pack (UnpackedFloat.add Format.binary64 u v)).unpack = some ((i + j : Int) : ℚ) := by
  rcases cases_of_value? hu with ⟨s, rfl, zero⟩ | ⟨s, m, e, hm, rfl, size⟩
  · obtain rfl : i = 0 := by exact_mod_cast zero
    rw [Int.zero_add]
    rcases cases_of_value? hv with ⟨t, rfl, zero'⟩ | ⟨t, m', e', hm', rfl, size'⟩
    · rw [zero']
      cases s <;> cases t <;> rfl
    · exact (value?_pack_proper pv).trans hv
  · rcases cases_of_value? hv with ⟨t, rfl, zero'⟩ | ⟨t, m', e', hm', rfl, size'⟩
    · obtain rfl : j = 0 := by exact_mod_cast zero'
      rw [Int.add_zero]
      exact (value?_pack_proper pu).trans hu
    · have first := aligned s m (min_le_left e e')
      have second := aligned t m' (min_le_right e e')
      have sum : ((s.apply (decreaseExponent m e (min e e')).1 +
          t.apply (decreaseExponent m' e' (min e e')).1 : Int) : ℚ) * 2 ^ min e e' = (i + j : Int) := by
        rw [Int.cast_add, add_mul, first, second, ← size, ← size', Int.cast_add]
      exact value?_normalize_whole sum small

/-! ### Comparison -/

/-- Canonical numbers are compared by their exponents first. -/
theorem compare_canonical {m m' : Nat} {e e' : Int} (h : Canonical m e) (h' : Canonical m' e') :
    (compare e e').then (compare m m') = compare ((m : ℚ) * 2 ^ e) (m' * 2 ^ e') := by
  -- with the larger exponent the mantissa is full, so not even the least of them is reached
  have below {m m' : Nat} {e e' : Int} (h : Canonical m e) (h' : Canonical m' e') (lt : e < e') :
      (m : ℚ) * 2 ^ e < m' * 2 ^ e' := by
    have full : 2 ^ 52 ≤ m' := h'.full.resolve_right (by have := h.low; omega)
    have small : (m : ℚ) < 2 ^ 53 := by exact_mod_cast h.small
    have full : (2 : ℚ) ^ 52 ≤ m' := by exact_mod_cast full
    calc (m : ℚ) * 2 ^ e < 2 ^ 53 * 2 ^ e := mul_lt_mul_of_pos_right small (two_zpow_pos e)
      _ = 2 ^ 52 * 2 ^ (e + 1) := by rw [zpow_add_one₀ (by norm_num)]; ring
      _ ≤ 2 ^ 52 * 2 ^ e' :=
        mul_le_mul_of_nonneg_left (zpow_le_zpow_right₀ (by norm_num) (by omega)) (by norm_num)
      _ ≤ m' * 2 ^ e' := mul_le_mul_of_nonneg_right full (two_zpow_pos e').le
  rcases lt_trichotomy e e' with lt | rfl | gt
  · rw [Int.compare_eq_lt.mpr lt, compare_lt_iff_lt.mpr (below h h' lt)]
    rfl
  · rw [show compare e e = .eq from compare_eq_iff_eq.mpr rfl]
    have scale := two_zpow_pos e
    rcases lt_trichotomy m m' with lt | rfl | gt
    · rw [compare_lt_iff_lt.mpr lt, compare_lt_iff_lt.mpr
        (mul_lt_mul_of_pos_right (by exact_mod_cast lt) scale)]
      rfl
    · rw [compare_eq_iff_eq.mpr rfl, compare_eq_iff_eq.mpr rfl]
      rfl
    · rw [compare_gt_iff_gt.mpr gt, compare_gt_iff_gt.mpr
        (mul_lt_mul_of_pos_right (by exact_mod_cast gt) scale)]
      rfl
  · rw [Int.compare_eq_gt.mpr gt, compare_gt_iff_gt.mpr (below h' h gt)]
    rfl

section

variable {u v : UnpackedFloat} {a b : ℚ}

/-- Doubles are compared as the numbers that they stand for. -/
theorem compare_eq (hu : value? u = some a) (hv : value? v = some b) (pu : Proper u) (pv : Proper v) :
    UnpackedFloat.compare u v = some (compare a b) := by
  have swapped (x y : ℚ) : compare (-x) (-y) = (compare x y).swap := by
    rcases lt_trichotomy x y with lt | rfl | gt
    · rw [compare_lt_iff_lt.mpr lt, compare_gt_iff_gt.mpr (neg_lt_neg lt)]
      rfl
    · rw [compare_eq_iff_eq.mpr rfl, compare_eq_iff_eq.mpr rfl]
      rfl
    · rw [compare_gt_iff_gt.mpr gt, compare_lt_iff_lt.mpr (neg_lt_neg gt)]
      rfl
  have positive {m : Nat} (e : Int) (hm : 0 < m) : (0 : ℚ) < m * 2 ^ e :=
    mul_pos (by exact_mod_cast hm) (two_zpow_pos e)
  rcases cases_of_value? hu with ⟨s, rfl, rfl⟩ | ⟨s, m, e, hm, rfl, rfl⟩
  · rcases cases_of_value? hv with ⟨t, rfl, rfl⟩ | ⟨t, m', e', hm', rfl, rfl⟩
    · exact congrArg some (compare_eq_iff_eq.mpr rfl).symm
    · cases t
      · exact congrArg some (compare_gt_iff_gt.mpr (neg_neg_of_pos (positive e' hm'))).symm
      · exact congrArg some (compare_lt_iff_lt.mpr (positive e' hm')).symm
  · rcases cases_of_value? hv with ⟨t, rfl, rfl⟩ | ⟨t, m', e', hm', rfl, rfl⟩
    · cases s
      · exact congrArg some (compare_lt_iff_lt.mpr (neg_neg_of_pos (positive e hm))).symm
      · exact congrArg some (compare_gt_iff_gt.mpr (positive e hm)).symm
    · have here := positive e hm
      have there := positive e' hm'
      cases s <;> cases t
      · exact congrArg some (by rw [compare_canonical pu pv]; exact (swapped _ _).symm)
      · exact congrArg some (compare_lt_iff_lt.mpr (by simp only [signed]; linarith)).symm
      · exact congrArg some (compare_gt_iff_gt.mpr (by simp only [signed]; linarith)).symm
      · exact congrArg some (compare_canonical pu pv)

end

/-! ### Truncation -/

/-- Numbers are truncated towards zero. -/
theorem toNat_toInt {u : UnpackedFloat} {a : ℚ} (hu : value? u = some a) (least most : Int) :
    (u.toInt least most).toNat = ⌊a⌋₊ := by
  rcases cases_of_value? hu with ⟨s, rfl, rfl⟩ | ⟨s, m, e, hm, rfl, rfl⟩
  · exact Nat.floor_zero.symm
  have truncated : UnpackedFloat.toInt least most (.finite s m e hm) =
      s.apply ((m <<< e.toNat) / 2 ^ (-e).toNat : Nat) := by
    have shift : (0 - (e - (e - 0).toNat)).toNat = (-e).toNat := by omega
    rw [UnpackedFloat.toInt, roundToInt, decreaseExponent_eq]
    dsimp only
    rw [shiftToExponent, shift, mantissa_shiftRight, mantissa_ofMantissaAndAccuracy, sub_zero]
  have size : (m : ℚ) * 2 ^ e = ((m <<< e.toNat : Nat) : ℚ) / (2 ^ (-e).toNat : Nat) := by
    have same := shiftLeft_mul m e.toNat e
    rw [← same, show e - e.toNat = -((-e).toNat : Int) by omega, zpow_neg, zpow_natCast, Nat.cast_pow,
      Nat.cast_ofNat, div_eq_mul_inv]
  rw [truncated]
  -- both are zero below zero, where whole parts would be rounded the other way
  cases s
  · have negative : signed .negative ((m : ℚ) * 2 ^ e) ≤ 0 :=
      neg_nonpos.mpr (mul_nonneg (Nat.cast_nonneg m) (two_zpow_pos e).le)
    rw [Nat.floor_of_nonpos negative]
    exact Int.toNat_of_nonpos (neg_nonpos.mpr (Int.natCast_nonneg _))
  · rw [show signed .positive ((m : ℚ) * 2 ^ e) = m * 2 ^ e from rfl, size, Nat.floor_div_eq_div]
    rfl

end Double

end Lightshow
