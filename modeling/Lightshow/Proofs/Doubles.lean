/-
Doubles that stand for numbers.

`Stands` says which number a double stands for, and `Near` that it does so within an error.  Errors add
up along a computation: each operation takes over those of its operands and adds its own.

* `Stands.le_iff`, `Stands.lt_iff`, `Stands.beq_iff` -- doubles are compared as what they stand for;
* `Near.add`, `Near.sub`, `Near.mul`, `Near.div` -- the error after an operation;
* `Near.nearest_eq`, `Near.exists_nearest` -- rounding to a whole number.
-/
import Lightshow.Color
import Lightshow.Proofs.Rounding

namespace Lightshow

/-! ### Doubles and numbers -/

open Double

/-- A double stands for a number. -/
def Stands (x : Float) (q : ℚ) : Prop := value? x.toModel.unpack = some q

namespace Stands

variable {x y : Float} {a b : ℚ}

theorem unique (hx : Stands x a) (hx' : Stands x b) : a = b := Option.some.inj (hx.symm.trans hx')

theorem abs (hx : Stands x a) : Stands x.abs |a| := by
  have proper : Proper x.toModel.unpack.abs := by
    have := proper_unpack x.toModel
    generalize x.toModel.unpack = u at *
    cases u <;> exact this
  refine (value?_pack_proper proper).trans ?_
  rcases cases_of_value? hx with ⟨s, read, rfl⟩ | ⟨s, m, e, hm, read, rfl⟩
  · rw [read, abs_zero]
    rfl
  · rw [read, abs_signed, abs_of_nonneg (mul_nonneg (Nat.cast_nonneg m) (two_zpow_pos e).le)]
    rfl

theorem le_iff (hx : Stands x a) (hy : Stands y b) : x ≤ y ↔ a ≤ b := by
  have same := compare_eq hx hy (proper_unpack _) (proper_unpack _)
  have unfolded : x ≤ y ↔ ((x.toModel.unpack.compare y.toModel.unpack).any (·.isLE)) = true :=
    decide_eq_true_iff
  rw [unfolded, same, Option.any_some, ← compare_le_iff_le]
  cases compare a b <;> decide

theorem lt_iff (hx : Stands x a) (hy : Stands y b) : x < y ↔ a < b := by
  have same := compare_eq hx hy (proper_unpack _) (proper_unpack _)
  have unfolded : x < y ↔ (x.toModel.unpack.compare y.toModel.unpack == some .lt) = true :=
    decide_eq_true_iff
  rw [unfolded, same, ← compare_lt_iff_lt]
  cases compare a b <;> decide

theorem beq_iff (hx : Stands x a) (hy : Stands y b) : (x == y) = true ↔ a = b := by
  have same := compare_eq hx hy (proper_unpack _) (proper_unpack _)
  have unfolded : (x == y) = (x.toModel.unpack.compare y.toModel.unpack == some .eq) := rfl
  rw [unfolded, same, ← compare_eq_iff_eq (a := a)]
  cases compare a b <;> decide

theorem max (hx : Stands x a) (hy : Stands y b) : Stands (max x y) (max a b) := by
  have unfolded : Max.max x y = if x ≤ y then y else x := rfl
  rw [unfolded]
  by_cases le : x ≤ y
  · rw [if_pos le, max_eq_right ((hx.le_iff hy).mp le)]
    exact hy
  · rw [if_neg le, max_eq_left (le_of_not_ge fun le' => le ((hx.le_iff hy).mpr le'))]
    exact hx

theorem min (hx : Stands x a) (hy : Stands y b) : Stands (min x y) (min a b) := by
  have unfolded : Min.min x y = if x ≤ y then x else y := rfl
  rw [unfolded]
  by_cases le : x ≤ y
  · rw [if_pos le, min_eq_left ((hx.le_iff hy).mp le)]
    exact hx
  · rw [if_neg le, min_eq_right (le_of_not_ge fun le' => le ((hx.le_iff hy).mpr le'))]
    exact hy

theorem ofUInt8 (n : UInt8) : Stands n.toFloat n.toNat :=
  value?_ofNat (Nat.lt_trans n.toNat_lt (by decide))

theorem ofUInt16 (n : UInt16) : Stands n.toFloat n.toNat :=
  value?_ofNat (Nat.lt_trans n.toNat_lt (by decide))

theorem ofUInt64 {n : UInt64} (small : n.toNat < 2 ^ 53) : Stands n.toFloat n.toNat :=
  value?_ofNat small

theorem toNat_toUInt64 (hx : Stands x a) (small : a < 2 ^ 64) : x.toUInt64.toNat = ⌊a⌋₊ := by
  have fits : ⌊a⌋₊ < UInt64.size := (Nat.floor_lt' (by decide)).mpr (by exact_mod_cast small)
  have unfolded : x.toUInt64 = UInt64.ofNatClamp (x.toModel.unpack.toInt 0 (UInt64.size - 1)).toNat := rfl
  rw [unfolded, toNat_toInt hx, UInt64.ofNatClamp_eq_ofNat _ fits, UInt64.toNat_ofNat',
    Nat.mod_eq_of_lt fits]

theorem toNat_toUInt8 (hx : Stands x a) (small : a < 2 ^ 8) : x.toUInt8.toNat = ⌊a⌋₊ := by
  have fits : ⌊a⌋₊ < UInt8.size := (Nat.floor_lt' (by decide)).mpr (by exact_mod_cast small)
  have unfolded : x.toUInt8 = UInt8.ofNatClamp (x.toModel.unpack.toInt 0 (UInt8.size - 1)).toNat := rfl
  rw [unfolded, toNat_toInt hx, UInt8.ofNatClamp_eq_ofNat _ fits, UInt8.toNat_ofNat',
    Nat.mod_eq_of_lt fits]

theorem toNat_toUInt16 (hx : Stands x a) (small : a < 2 ^ 16) : x.toUInt16.toNat = ⌊a⌋₊ := by
  have fits : ⌊a⌋₊ < UInt16.size := (Nat.floor_lt' (by decide)).mpr (by exact_mod_cast small)
  have unfolded : x.toUInt16 = UInt16.ofNatClamp (x.toModel.unpack.toInt 0 (UInt16.size - 1)).toNat := rfl
  rw [unfolded, toNat_toInt hx, UInt16.ofNatClamp_eq_ofNat _ fits, UInt16.toNat_ofNat',
    Nat.mod_eq_of_lt fits]

theorem add_whole {i j : Int} (hx : Stands x i) (hy : Stands y j) (small : (i + j).natAbs < 2 ^ 53) :
    Stands (x + y) (i + j : Int) :=
  value?_add_whole hx hy (proper_unpack _) (proper_unpack _) small

theorem sub_whole {i j : Int} (hx : Stands x i) (hy : Stands y j) (small : (i - j).natAbs < 2 ^ 53) :
    Stands (x - y) (i - j : Int) := by
  have negative : value? y.toModel.unpack.neg = some ((-j : Int) : ℚ) := by
    rw [Int.cast_neg]
    exact value?_neg hy
  have sum := value?_add_whole hx negative (proper_unpack _) (proper_unpack _).neg
    (by rw [← sub_eq_add_neg]; exact small)
  rw [← sub_eq_add, ← sub_eq_add_neg] at sum
  exact sum

end Stands

/-- A double stands for a number within an error. -/
def Near (x : Float) (q e : ℚ) : Prop := ∃ v, Stands x v ∧ |v - q| ≤ e

theorem Stands.near {x : Float} {q : ℚ} (h : Stands x q) : Near x q 0 :=
  ⟨q, h, by rw [sub_self, abs_zero]⟩

namespace Near

variable {x y : Float} {a b d e : ℚ}

theorem mono (h : Near x a d) (le : d ≤ e) : Near x a e := by
  obtain ⟨v, hv, near⟩ := h
  exact ⟨v, hv, near.trans le⟩

/-- An operation takes over the error of its operands and rounds once. -/
theorem of_rounds {v : ℚ} (off : |v - a| ≤ d) (small : |a| + d ≤ bound)
    (rounds : |v| ≤ bound → Rounds x.toModel v) : Near x a (d + grain) := by
  have fits : |v| ≤ bound := by
    have := abs_sub_abs_le_abs_sub v a
    linarith
  obtain ⟨r, hr, near, -⟩ := rounds fits
  refine ⟨r, hr, ?_⟩
  have := abs_sub_le r v a
  linarith

theorem add (hx : Near x a d) (hy : Near y b e) (small : |a + b| + (d + e) ≤ bound) :
    Near (x + y) (a + b) (d + e + grain) := by
  obtain ⟨v, hv, nearv⟩ := hx
  obtain ⟨w, hw, nearw⟩ := hy
  have off : |v + w - (a + b)| ≤ d + e := by
    rw [show v + w - (a + b) = (v - a) + (w - b) by ring]
    exact (abs_add_le _ _).trans (add_le_add nearv nearw)
  exact of_rounds off small (rounds_add hv hw (proper_unpack _) (proper_unpack _))

theorem abs (hx : Near x a d) : Near x.abs |a| d := by
  obtain ⟨v, hv, near⟩ := hx
  exact ⟨|v|, hv.abs, (abs_abs_sub_abs_le v a).trans near⟩

theorem sub (hx : Near x a d) (hy : Near y b e) (small : |a - b| + (d + e) ≤ bound) :
    Near (x - y) (a - b) (d + e + grain) := by
  obtain ⟨v, hv, nearv⟩ := hx
  obtain ⟨w, hw, nearw⟩ := hy
  have off : |v - w - (a - b)| ≤ d + e := by
    rw [show v - w - (a - b) = (v - a) - (w - b) by ring]
    exact (abs_sub _ _).trans (add_le_add nearv nearw)
  exact of_rounds off small (rounds_sub hv hw (proper_unpack _) (proper_unpack _))

theorem mul (hx : Near x a d) (hy : Near y b e)
    (small : |a * b| + (|a| * e + |b| * d + d * e) ≤ bound) :
    Near (x * y) (a * b) (|a| * e + |b| * d + d * e + grain) := by
  obtain ⟨v, hv, nearv⟩ := hx
  obtain ⟨w, hw, nearw⟩ := hy
  have off : |v * w - a * b| ≤ |a| * e + |b| * d + d * e := by
    rw [show v * w - a * b = a * (w - b) + b * (v - a) + (v - a) * (w - b) by ring]
    refine (abs_add_three _ _ _).trans ?_
    rw [abs_mul, abs_mul, abs_mul]
    gcongr
    exact (abs_nonneg _).trans nearv
  exact of_rounds off small (rounds_mul hv hw (proper_unpack _) (proper_unpack _))

/-- Division by a number that a double stands for exactly. -/
theorem div (hx : Near x a d) (hy : Stands y b) (positive : 0 < b)
    (small : |a / b| + d / b ≤ bound) : Near (x / y) (a / b) (d / b + grain) := by
  obtain ⟨v, hv, nearv⟩ := hx
  have off : |v / b - a / b| ≤ d / b := by
    rw [← sub_div, abs_div, abs_of_pos positive]
    gcongr
  exact of_rounds off small (rounds_div hv hy positive.ne')

end Near

/-- What the constants of the conversions stand for. -/
structure Constants : Prop where
  zero : Stands 0.0 0
  half : Stands 0.5 (1 / 2)
  one : Stands 1.0 1
  two : Stands 2.0 2
  three : Stands 3.0 3
  four : Stands 4.0 4
  five : Stands 5.0 5
  six : Stands 6.0 6
  sixty : Stands 60.0 60
  level : Stands 255.0 255
  degrees : Stands 360.0 360
  wheel : Stands 65535.0 65535

theorem constants : Constants := by
  constructor <;> (rw [Stands]; decide +kernel)

/-! ### The nearest whole number -/

theorem grain_lt : grain < 1 / 10000000000 := by
  rw [grain]
  norm_num

/-- A number is rounded to a whole number that is not much more than a half away. -/
theorem exists_nearest {x : Float} {v : ℚ} (hx : Stands x v) (low : -(1 / 2) < v) (high : v < 100000) :
    ∃ n : Nat, Stands (nearest x) n ∧ |n - v| ≤ 1 / 2 + grain := by
  have fine := grain_lt
  have positive := grain_nonneg
  have whole : x.toUInt64.toNat = ⌊v⌋₊ := hx.toNat_toUInt64 (high.trans (by norm_num))
  have below : ⌊v⌋₊ < 100000 := (Nat.floor_lt' (by decide)).mpr (by exact_mod_cast high)
  have stands : Stands x.toUInt64.toFloat (⌊v⌋₊ : Nat) := by
    rw [← whole]
    exact Stands.ofUInt64 (by omega)
  -- what is left is rounded too, but it is compared with a half after that
  have rest : v - (⌊v⌋₊ : Nat) < 1 ∧ -(1 / 2) < v - (⌊v⌋₊ : Nat) := by
    rcases lt_or_ge v 0 with negative | natural
    · rw [Nat.floor_of_nonpos negative.le, Nat.cast_zero]
      constructor <;> linarith
    · have := Nat.floor_le natural
      have := Nat.lt_floor_add_one v
      constructor <;> linarith
  have small : |v - (⌊v⌋₊ : Nat)| ≤ bound := by
    have one : |v - (⌊v⌋₊ : Nat)| ≤ 1 := abs_le.mpr ⟨by linarith, by linarith⟩
    exact one.trans one_le_bound
  obtain ⟨r, hr, near, -⟩ := rounds_sub hx stands (proper_unpack _) (proper_unpack _) small
  have near := abs_le.mp near
  have half : Stands (x - x.toUInt64.toFloat) r := hr
  have unfolded : nearest x = if 0.5 ≤ x - x.toUInt64.toFloat then x.toUInt64.toFloat + 1.0
    else x.toUInt64.toFloat := rfl
  rw [unfolded]
  by_cases up : (0.5 : Float) ≤ x - x.toUInt64.toFloat
  · rw [if_pos up]
    have up := (constants.half.le_iff half).mp up
    refine ⟨⌊v⌋₊ + 1, ?_, ?_⟩
    · have sum := Stands.add_whole (i := ⌊v⌋₊) (j := 1) (by exact_mod_cast stands)
        (by exact_mod_cast constants.one) (by omega)
      exact_mod_cast sum
    · push_cast
      rw [abs_le]
      constructor <;> linarith
  · rw [if_neg up]
    have down := not_le.mp fun le => up ((constants.half.le_iff half).mpr le)
    refine ⟨⌊v⌋₊, stands, ?_⟩
    rw [abs_le]
    constructor <;> linarith

/-- A number that is near enough to a whole number is rounded to it. -/
theorem Near.nearest_eq {x : Float} {a e : ℚ} {n : Nat} (hx : Near x a e)
    (close : |a - n| + e + grain < 1 / 2) (small : n ≤ 65536) : Stands (nearest x) n := by
  obtain ⟨v, hv, near⟩ := hx
  have small : (n : ℚ) ≤ 65536 := by exact_mod_cast small
  have fine := grain_nonneg
  have off : |v - n| < 1 / 2 - grain := by
    have := abs_sub_le v a n
    linarith
  have inside := abs_lt.mp off
  obtain ⟨i, hi, half⟩ := exists_nearest hv
    (by have : (0 : ℚ) ≤ n := Nat.cast_nonneg n; linarith) (by linarith)
  have half := abs_le.mp half
  have above : (i : ℚ) < n + 1 := by linarith
  have below : (n : ℚ) < i + 1 := by linarith
  obtain rfl : i = n := by
    have above : i < n + 1 := by exact_mod_cast above
    have below : n < i + 1 := by exact_mod_cast below
    omega
  exact hi

theorem Near.exists_nearest {x : Float} {a e : ℚ} (hx : Near x a e) (fine : e < 1 / 4) (low : 0 ≤ a)
    (high : a ≤ 65536) : ∃ n : Nat, Stands (nearest x) n ∧ |n - a| ≤ 1 / 2 + e + grain := by
  obtain ⟨v, hv, near⟩ := hx
  have inside := abs_le.mp near
  obtain ⟨n, hn, half⟩ := Lightshow.exists_nearest hv (by linarith) (by linarith)
  refine ⟨n, hn, ?_⟩
  have := abs_sub_le (n : ℚ) v a
  linarith

end Lightshow
