/-
Where a colour lies on the wheel.

Apart from grey, a colour lies somewhere between two neighbours of red, yellow, green, cyan, blue and
magenta, and the conversion to hue, saturation and brightness finds the place from the levels.  It is
described twice here: as fractions of a turn, without rounding, and as the doubles that come close to them.

* `Primary.share` -- how much of a primary colour there is at a place;
* `Rgb.place`, `Rgb.exists_lies` -- the place of a colour, by the order of its levels;
* `Rgb.Lies.shows` -- the levels are the shares at that place;
* `Rgb.hue_near`, `Rgb.saturation_near`, `Rgb.toNat_brightness` -- the conversion.
-/
import Lightshow.Proofs.Doubles

namespace Lightshow

open Double

/-! ### The wheel -/

/-- The three primary colours. -/
inductive Primary where
  | red
  | green
  | blue
  deriving DecidableEq, Repr

namespace Primary

/-- The level of a primary colour in a colour. -/
def level : Primary → Rgb → Nat
  | .red, c => c.red.toNat
  | .green, c => c.green.toNat
  | .blue, c => c.blue.toNat

theorem level_le (i : Primary) (c : Rgb) : i.level c ≤ 255 := by
  cases i
  · exact Nat.le_of_lt_succ c.red.toNat_lt
  · exact Nat.le_of_lt_succ c.green.toNat_lt
  · exact Nat.le_of_lt_succ c.blue.toNat_lt

/-- A number brought between zero and one. -/
def clamped (x : ℚ) : ℚ := max (min x 1) 0

/-- How much of a primary colour there is at a place on the wheel, in sixths of a turn. -/
def share : Primary → ℚ → ℚ
  | .red, p => clamped (|p - 3| - 1)
  | .green, p => clamped (2 - |p - 2|)
  | .blue, p => clamped (2 - |p - 4|)

theorem abs_clamped_sub_le (x y : ℚ) : |clamped x - clamped y| ≤ |x - y| := by
  refine (abs_max_sub_max_le_abs _ _ _).trans ((abs_min_sub_min_le_max _ _ _ _).trans ?_)
  rw [sub_self, abs_zero]
  exact max_le le_rfl (abs_nonneg _)

/-- From one place to another the shares change by as much as the place at most. -/
theorem abs_share_sub_le (i : Primary) (p q : ℚ) : |i.share p - i.share q| ≤ |p - q| := by
  cases i with
  | red =>
    refine (abs_clamped_sub_le _ _).trans ?_
    rw [sub_sub_sub_cancel_right]
    refine (abs_abs_sub_abs_le_abs_sub _ _).trans ?_
    rw [sub_sub_sub_cancel_right]
  | green | blue =>
    refine (abs_clamped_sub_le _ _).trans ?_
    rw [sub_sub_sub_cancel_left, abs_sub_comm]
    refine (abs_abs_sub_abs_le_abs_sub _ _).trans ?_
    rw [sub_sub_sub_cancel_right]

theorem clamped_of_nonpos {x : ℚ} (h : x ≤ 0) : clamped x = 0 := by
  rw [clamped, min_eq_left (h.trans zero_le_one), max_eq_right h]

/-- Shares in the two sixths of a turn around each primary colour. -/
theorem share_near {x : ℚ} (low : 0 ≤ x) (high : x ≤ 1) :
    (share .red x = 1 ∧ share .green x = x ∧ share .blue x = 0) ∧
      (share .red (6 - x) = 1 ∧ share .green (6 - x) = 0 ∧ share .blue (6 - x) = x) ∧
      (share .red (2 - x) = x ∧ share .green (2 - x) = 1 ∧ share .blue (2 - x) = 0) ∧
      (share .red (2 + x) = 0 ∧ share .green (2 + x) = 1 ∧ share .blue (2 + x) = x) ∧
      (share .red (4 - x) = 0 ∧ share .green (4 - x) = x ∧ share .blue (4 - x) = 1) ∧
      (share .red (4 + x) = x ∧ share .green (4 + x) = 0 ∧ share .blue (4 + x) = 1) := by
  refine ⟨⟨?_, ?_, ?_⟩, ⟨?_, ?_, ?_⟩, ⟨?_, ?_, ?_⟩, ⟨?_, ?_, ?_⟩, ⟨?_, ?_, ?_⟩, ?_, ?_, ?_⟩ <;>
    grind [share, clamped]

theorem share_red_of_mem {p : ℚ} (low : 2 ≤ p) (high : p ≤ 4) : share .red p = 0 := by
  refine clamped_of_nonpos ?_
  rw [sub_nonpos, abs_le]
  constructor <;> linarith

theorem share_green_of_ge {p : ℚ} (low : 4 ≤ p) : share .green p = 0 := by
  refine clamped_of_nonpos ?_
  rw [abs_of_nonneg (by linarith)]
  linarith

theorem share_blue_of_le {p : ℚ} (high : p ≤ 2) : share .blue p = 0 := by
  refine clamped_of_nonpos ?_
  rw [abs_of_nonpos (by linarith)]
  linarith

end Primary

/-- The largest level of a colour. -/
def Rgb.most (c : Rgb) : Nat := max (max c.red.toNat c.green.toNat) c.blue.toNat

/-- The smallest level of a colour. -/
def Rgb.least (c : Rgb) : Nat := min (min c.red.toNat c.green.toNat) c.blue.toNat

theorem Rgb.least_le_most (c : Rgb) : c.least ≤ c.most := by
  have most : c.most = max (max c.red.toNat c.green.toNat) c.blue.toNat := rfl
  have least : c.least = min (min c.red.toNat c.green.toNat) c.blue.toNat := rfl
  omega

theorem Rgb.most_le (c : Rgb) : c.most ≤ 255 := by
  have most : c.most = max (max c.red.toNat c.green.toNat) c.blue.toNat := rfl
  have red := c.red.toNat_lt
  have green := c.green.toNat_lt
  have blue := c.blue.toNat_lt
  omega

/-- The place of a colour on the wheel, in sixths of a turn. -/
def Rgb.place (c : Rgb) : ℚ :=
  if c.most = c.least then 0
  else if c.most = c.red.toNat then
    if c.blue.toNat ≤ c.green.toNat then (c.green.toNat - c.blue.toNat) / (c.most - c.least)
    else (c.green.toNat - c.blue.toNat) / (c.most - c.least) + 6
  else if c.most = c.green.toNat then (c.blue.toNat - c.red.toNat) / (c.most - c.least) + 2
  else (c.red.toNat - c.green.toNat) / (c.most - c.least) + 4

/-- How a colour lies on the wheel: a fraction `x` of a sixth before or behind a primary colour, as the
level that is neither the largest nor the smallest is `k` above the smallest. -/
inductive Rgb.Lies (c : Rgb) (k : Nat) (x : ℚ) : Prop where
  | behindRed (place : c.place = x) (red : c.red.toNat = c.most) (green : c.green.toNat = c.least + k)
      (blue : c.blue.toNat = c.least)
  | beforeRed (place : c.place = 6 - x) (positive : 0 < k) (red : c.red.toNat = c.most)
      (green : c.green.toNat = c.least) (blue : c.blue.toNat = c.least + k)
  | beforeGreen (place : c.place = 2 - x) (positive : 0 < k) (red : c.red.toNat = c.least + k)
      (green : c.green.toNat = c.most) (blue : c.blue.toNat = c.least)
  | behindGreen (place : c.place = 2 + x) (red : c.red.toNat = c.least) (green : c.green.toNat = c.most)
      (blue : c.blue.toNat = c.least + k)
  | beforeBlue (place : c.place = 4 - x) (positive : 0 < k) (red : c.red.toNat = c.least)
      (green : c.green.toNat = c.least + k) (blue : c.blue.toNat = c.most)
  | behindBlue (place : c.place = 4 + x) (red : c.red.toNat = c.least + k)
      (green : c.green.toNat = c.least) (blue : c.blue.toNat = c.most)

theorem Rgb.exists_lies_div {c : Rgb} (h : c.least < c.most) :
    ∃ k ≤ c.most - c.least, c.Lies k (k / (c.most - c.least)) := by
  have most : c.most = max (max c.red.toNat c.green.toNat) c.blue.toNat := rfl
  have least : c.least = min (min c.red.toNat c.green.toNat) c.blue.toNat := rfl
  -- where levels are equal, red comes before green and green before blue
  by_cases red : c.most = c.red.toNat
  · by_cases order : c.blue.toNat ≤ c.green.toNat
    · refine ⟨c.green.toNat - c.blue.toNat, by omega, .behindRed ?_ red.symm (by omega) (by omega)⟩
      rw [place, if_neg h.ne', if_pos red, if_pos order, Nat.cast_sub order]
    · refine ⟨c.blue.toNat - c.green.toNat, by omega,
        .beforeRed ?_ (by omega) red.symm (by omega) (by omega)⟩
      rw [place, if_neg h.ne', if_pos red, if_neg order, Nat.cast_sub (by omega)]
      ring
  by_cases green : c.most = c.green.toNat
  · by_cases order : c.red.toNat ≤ c.blue.toNat
    · refine ⟨c.blue.toNat - c.red.toNat, by omega,
        .behindGreen ?_ (by omega) green.symm (by omega)⟩
      rw [place, if_neg h.ne', if_neg red, if_pos green, Nat.cast_sub order]
      ring
    · refine ⟨c.red.toNat - c.blue.toNat, by omega,
        .beforeGreen ?_ (by omega) (by omega) green.symm (by omega)⟩
      rw [place, if_neg h.ne', if_neg red, if_pos green, Nat.cast_sub (by omega)]
      ring
  · by_cases order : c.green.toNat ≤ c.red.toNat
    · refine ⟨c.red.toNat - c.green.toNat, by omega,
        .behindBlue ?_ (by omega) (by omega) (by omega)⟩
      rw [place, if_neg h.ne', if_neg red, if_neg green, Nat.cast_sub order]
      ring
    · refine ⟨c.green.toNat - c.red.toNat, by omega,
        .beforeBlue ?_ (by omega) (by omega) (by omega) (by omega)⟩
      rw [place, if_neg h.ne', if_neg red, if_neg green, Nat.cast_sub (by omega)]
      ring

/-- Every colour that is not grey has a place on the wheel, and keeps some distance from the primary
colours unless it lies right behind one. -/
theorem Rgb.exists_lies {c : Rgb} (h : c.least < c.most) : ∃ (k : Nat) (x : ℚ), c.Lies k x ∧
    ((c.most - c.least : Nat) : ℚ) * x = k ∧ 0 ≤ x ∧ x ≤ 1 ∧ (0 < k → 1 / 255 ≤ x) := by
  obtain ⟨k, small, lies⟩ := exists_lies_div h
  have range : 0 < c.most - c.least := Nat.sub_pos_of_lt h
  have narrow : c.most - c.least ≤ 255 := (Nat.sub_le _ _).trans c.most_le
  rw [← Nat.cast_sub h.le] at lies
  generalize c.most - c.least = d at *
  have positive : (0 : ℚ) < d := by exact_mod_cast range
  refine ⟨k, k / d, lies, mul_div_cancel₀ _ positive.ne', by positivity, ?_, fun some => ?_⟩
  · rw [div_le_one positive]
    exact_mod_cast small
  · have some : (1 : ℚ) ≤ k := by exact_mod_cast some
    have narrow : (d : ℚ) ≤ 255 := by exact_mod_cast narrow
    rw [le_div_iff₀ positive]
    linarith

/-- How a level shows in the share of its primary colour: it is the largest, the one between, or the
smallest; and of the smallest there is none at any place that is close, either. -/
inductive Rgb.Shows (c : Rgb) (k : Nat) (x : ℚ) (i : Primary) : Prop where
  | most (level : i.level c = c.most) (share : i.share c.place = 1)
  | between (level : i.level c = c.least + k) (share : i.share c.place = x)
  | least (level : i.level c = c.least) (share : ∀ p, |p - c.place| ≤ 1 / 1000 →
      (k = 0 → p = c.place) → i.share p = 0)

open Primary in
theorem Rgb.Lies.shows {c : Rgb} {k : Nat} {x : ℚ} (lies : c.Lies k x) (low : 0 ≤ x) (high : x ≤ 1)
    (apart : 0 < k → 1 / 255 ≤ x) (i : Primary) : c.Shows k x i := by
  obtain ⟨behindRed, beforeRed, beforeGreen, behindGreen, beforeBlue, behindBlue⟩ := share_near low high
  have near {p q : ℚ} (h : |p - q| ≤ 1 / 1000) : q - 1 / 1000 ≤ p ∧ p ≤ q + 1 / 1000 := by
    have := abs_le.mp h
    constructor <;> linarith
  -- right behind a primary colour the place is met exactly
  have behind {p q : ℚ} (place : c.place = q + x) (close : |p - c.place| ≤ 1 / 1000)
      (exact : k = 0 → p = c.place) : q ≤ p := by
    rcases Nat.eq_zero_or_pos k with zero | positive
    · rw [exact zero, place]
      linarith
    · have := near close
      have := apart positive
      linarith
  cases lies with
  | behindRed place red green blue =>
    cases i
    · exact .most red (place ▸ behindRed.1)
    · exact .between green (place ▸ behindRed.2.1)
    · exact .least blue fun p close _ => share_blue_of_le (by have := near close; linarith)
  | beforeRed place positive red green blue =>
    cases i
    · exact .most red (place ▸ beforeRed.1)
    · exact .least green fun p close _ => share_green_of_ge (by have := near close; linarith)
    · exact .between blue (place ▸ beforeRed.2.2)
  | beforeGreen place positive red green blue =>
    have := apart positive
    cases i
    · exact .between red (place ▸ beforeGreen.1)
    · exact .most green (place ▸ beforeGreen.2.1)
    · exact .least blue fun p close _ => share_blue_of_le (by have := near close; linarith)
  | behindGreen place red green blue =>
    cases i
    · exact .least red fun p close exact =>
        share_red_of_mem (behind place close exact) (by have := near close; linarith)
    · exact .most green (place ▸ behindGreen.2.1)
    · exact .between blue (place ▸ behindGreen.2.2)
  | beforeBlue place positive red green blue =>
    have := apart positive
    cases i
    · exact .least red fun p close _ =>
        share_red_of_mem (by have := near close; linarith) (by have := near close; linarith)
    · exact .between green (place ▸ beforeBlue.2.1)
    · exact .most blue (place ▸ beforeBlue.2.2)
  | behindBlue place red green blue =>
    cases i
    · exact .between red (place ▸ behindBlue.1)
    · exact .least green fun p close exact => share_green_of_ge (behind place close exact)
    · exact .most blue (place ▸ behindBlue.2.2)

/-! ### Hue, saturation and brightness of a colour -/

theorem Rgb.stands_most (c : Rgb) :
    Stands (max (max c.red.toFloat c.green.toFloat) c.blue.toFloat) c.most := by
  have := ((Stands.ofUInt8 c.red).max (Stands.ofUInt8 c.green)).max (Stands.ofUInt8 c.blue)
  rw [most]
  exact_mod_cast this

theorem Rgb.stands_least (c : Rgb) :
    Stands (min (min c.red.toFloat c.green.toFloat) c.blue.toFloat) c.least := by
  have := ((Stands.ofUInt8 c.red).min (Stands.ofUInt8 c.green)).min (Stands.ofUInt8 c.blue)
  rw [least]
  exact_mod_cast this

theorem bound_eq : bound = 131072 := by
  rw [bound]
  norm_num

/-- The difference of two levels, as a fraction of the range. -/
theorem exists_fraction {a b : UInt8} {range : Float} {d : Nat} (hr : Stands range d) (positive : 0 < d)
    (inside : (a.toNat : Int) - b.toNat ≤ d) (inside' : (b.toNat : Int) - a.toNat ≤ d) (small : d ≤ 255) :
    ∃ v, Stands ((a.toFloat - b.toFloat) / range) v ∧ |v - (a.toNat - b.toNat) / d| ≤ grain ∧
      |((a.toNat - b.toNat) / d : ℚ)| ≤ 1 ∧ (v < 0 ↔ a.toNat < b.toNat) := by
  have difference : Stands (a.toFloat - b.toFloat) ((a.toNat - b.toNat : Int) : ℚ) := by
    refine Stands.sub_whole (by exact_mod_cast Stands.ofUInt8 a) (by exact_mod_cast Stands.ofUInt8 b) ?_
    omega
  have positive' : (0 : ℚ) < d := by exact_mod_cast positive
  have inside : ((a.toNat - b.toNat : Int) : ℚ) ≤ d := by exact_mod_cast inside
  have inside' : -(d : ℚ) ≤ ((a.toNat - b.toNat : Int) : ℚ) := by
    have : -(d : Int) ≤ a.toNat - b.toNat := by omega
    exact_mod_cast this
  have fits : |((a.toNat - b.toNat : Int) : ℚ) / d| ≤ 1 := by
    rw [abs_div, abs_of_pos positive', div_le_iff₀ positive', one_mul]
    exact abs_le.mpr ⟨inside', inside⟩
  obtain ⟨v, hv, near, zero⟩ := rounds_div difference hr positive'.ne' (fits.trans one_le_bound)
  refine ⟨v, hv, by exact_mod_cast near, by exact_mod_cast fits, ?_⟩
  have near := abs_le.mp near
  have fine := grain_lt
  have most : (d : ℚ) ≤ 255 := by exact_mod_cast small
  -- the sign survives rounding, as one level is a larger fraction than the error
  rcases lt_trichotomy (a.toNat : Int) b.toNat with less | same | more
  · have apart : ((a.toNat - b.toNat : Int) : ℚ) / d ≤ -(1 / 255) := by
      have less : ((a.toNat - b.toNat : Int) : ℚ) ≤ -1 := by
        have : (a.toNat - b.toNat : Int) ≤ -1 := by omega
        exact_mod_cast this
      rw [div_le_iff₀ positive']
      linarith
    exact ⟨fun _ => by omega, fun _ => by linarith⟩
  · have nothing := zero (by rw [same, sub_self, Int.cast_zero, zero_div])
    rw [nothing]
    exact ⟨fun h => absurd h (lt_irrefl 0), fun h => by omega⟩
  · have apart : 1 / 255 ≤ ((a.toNat - b.toNat : Int) : ℚ) / d := by
      have more : 1 ≤ ((a.toNat - b.toNat : Int) : ℚ) := by
        have : 1 ≤ (a.toNat - b.toNat : Int) := by omega
        exact_mod_cast this
      rw [le_div_iff₀ positive']
      linarith
    exact ⟨fun _ => by linarith, fun _ => by omega⟩

/-- Sixths of a turn are made degrees up to a small error. -/
theorem Near.degrees {x : Float} {q : ℚ} (hx : Near x q (2 * grain)) (small : |q| ≤ 7) :
    Near (60.0 * x) (60 * q) (121 * grain) := by
  have fine := grain_lt
  have positive := grain_nonneg
  refine (constants.sixty.near.mul hx ?_).mono ?_
  · rw [abs_mul, bound_eq, abs_of_nonneg (show (0 : ℚ) ≤ 60 by norm_num)]
    nlinarith
  · rw [abs_of_nonneg (show (0 : ℚ) ≤ 60 by norm_num)]
    linarith

/-- The same for sixths that are counted from a primary colour. -/
theorem Near.degrees_from {x y : Float} {q w : ℚ} (hx : Near x q grain) (small : |q| ≤ 1)
    (hy : Stands y w) (low : 0 ≤ w) (high : w ≤ 6) :
    Near (60.0 * (x + y)) (60 * (q + w)) (121 * grain) := by
  have fine := grain_lt
  have inside := abs_le.mp small
  have size : |q + w| ≤ 7 := abs_le.mpr ⟨by linarith, by linarith⟩
  refine ((hx.add hy.near ?_).mono (by linarith)).degrees size
  rw [bound_eq]
  linarith

/-- The angle of a colour is computed up to a small error. -/
theorem Rgb.near_hueDegrees {c : Rgb} (h : c.least < c.most) {largest range : Float}
    (hl : Stands largest c.most) (hr : Stands range (c.most - c.least : Nat)) :
    Near (hueDegrees c.red.toFloat c.green.toFloat c.blue.toFloat largest range) (60 * c.place)
      (121 * grain) := by
  have most : c.most = max (max c.red.toNat c.green.toNat) c.blue.toNat := rfl
  have least : c.least = min (min c.red.toNat c.green.toNat) c.blue.toNat := rfl
  have red := c.red.toNat_lt
  have green := c.green.toNat_lt
  have blue := c.blue.toNat_lt
  have positive : 0 < c.most - c.least := by omega
  have coloured : ¬ (range == 0.0) = true := by
    rw [hr.beq_iff constants.zero]
    exact_mod_cast positive.ne'
  have cast : ((c.most - c.least : Nat) : ℚ) = c.most - c.least := Nat.cast_sub h.le
  rw [hueDegrees, if_neg coloured, place, if_neg h.ne']
  have isRed : (largest == c.red.toFloat) = true ↔ c.most = c.red.toNat := by
    rw [hl.beq_iff (Stands.ofUInt8 _)]
    exact Nat.cast_inj
  have isGreen : (largest == c.green.toFloat) = true ↔ c.most = c.green.toNat := by
    rw [hl.beq_iff (Stands.ofUInt8 _)]
    exact Nat.cast_inj
  by_cases ofRed : c.most = c.red.toNat
  · rw [if_pos (isRed.mpr ofRed), if_pos ofRed]
    obtain ⟨v, hv, near, small, sign⟩ := exists_fraction (a := c.green) (b := c.blue) hr positive
      (by omega) (by omega) (by omega)
    have sign := (hv.lt_iff constants.zero).trans sign
    rw [cast] at near small
    dsimp only
    by_cases order : c.blue.toNat ≤ c.green.toNat
    · rw [if_pos order, if_neg (sign.not.mpr (by omega))]
      exact Near.degrees ⟨v, hv, near.trans (by linarith [grain_nonneg])⟩
        (small.trans (by norm_num))
    · -- bluish reds lie at the end of the turn
      rw [if_neg order, if_pos (sign.mpr (by omega))]
      exact Near.degrees_from ⟨v, hv, near⟩ small constants.six (by norm_num) (by norm_num)
  rw [if_neg (isRed.not.mpr ofRed), if_neg ofRed]
  by_cases ofGreen : c.most = c.green.toNat
  · rw [if_pos (isGreen.mpr ofGreen), if_pos ofGreen]
    obtain ⟨v, hv, near, small, -⟩ := exists_fraction (a := c.blue) (b := c.red) hr positive
      (by omega) (by omega) (by omega)
    rw [cast] at near small
    exact Near.degrees_from ⟨v, hv, near⟩ small constants.two (by norm_num) (by norm_num)
  · rw [if_neg (isGreen.not.mpr ofGreen), if_neg ofGreen]
    obtain ⟨v, hv, near, small, -⟩ := exists_fraction (a := c.red) (b := c.green) hr positive
      (by omega) (by omega) (by omega)
    rw [cast] at near small
    exact Near.degrees_from ⟨v, hv, near⟩ small constants.four (by norm_num) (by norm_num)

theorem Rgb.stands_range (c : Rgb) :
    Stands (max (max c.red.toFloat c.green.toFloat) c.blue.toFloat -
      min (min c.red.toFloat c.green.toFloat) c.blue.toFloat) (c.most - c.least : Nat) := by
  have le := c.least_le_most
  have small := c.most_le
  have range := Stands.sub_whole (i := c.most) (j := c.least) (by exact_mod_cast c.stands_most)
    (by exact_mod_cast c.stands_least) (by omega)
  rw [← Int.ofNat_sub le] at range
  exact_mod_cast range

theorem toNat_max (a b : UInt8) : (max a b).toNat = max a.toNat b.toNat := by
  have unfolded : max a b = if a ≤ b then b else a := rfl
  rw [unfolded]
  by_cases le : a ≤ b
  · rw [if_pos le, max_eq_right (UInt8.le_iff_toNat_le.mp le)]
  · rw [if_neg le, max_eq_left (le_of_not_ge fun le' => le (UInt8.le_iff_toNat_le.mpr le'))]

theorem Rgb.toNat_brightness (c : Rgb) : c.toHsb.brightness.toNat = c.most := by
  have unfolded : c.toHsb.brightness = max (max c.red c.green) c.blue := rfl
  rw [unfolded, toNat_max, toNat_max, most]

/-- A number that was brought to the nearest whole one, as a hue. -/
theorem Near.toNat_nearest_toUInt16 {x : Float} {a e : ℚ} (hx : Near x a e) (fine : e < 1 / 50000)
    (low : 0 ≤ a) (high : a ≤ 65535) :
    |((nearest x).toUInt16.toNat : ℚ) - a| ≤ 1 / 2 + 1 / 40000 := by
  have tiny := grain_lt
  obtain ⟨n, hn, close⟩ := hx.exists_nearest (by linarith) low (by linarith)
  have inside := abs_le.mp close
  have less : (n : ℚ) < 65536 := by linarith
  rw [hn.toNat_toUInt16 (less.trans_eq (by norm_num)), Nat.floor_natCast]
  linarith

theorem Near.toNat_nearest_toUInt8 {x : Float} {a e : ℚ} (hx : Near x a e) (fine : e < 1 / 50000)
    (low : 0 ≤ a) (high : a ≤ 255) :
    |((nearest x).toUInt8.toNat : ℚ) - a| ≤ 1 / 2 + 1 / 40000 := by
  have tiny := grain_lt
  obtain ⟨n, hn, close⟩ := hx.exists_nearest (by linarith) low (by linarith)
  have inside := abs_le.mp close
  have less : (n : ℚ) < 256 := by linarith
  rw [hn.toNat_toUInt8 (less.trans_eq (by norm_num)), Nat.floor_natCast]
  linarith

theorem Rgb.saturation_near {c : Rgb} (h : 0 < c.most) :
    |(c.toHsb.saturation.toNat : ℚ) - (c.most - c.least : Nat) / c.most * 255| ≤ 1 / 2 + 1 / 40000 := by
  have positive : (0 : ℚ) < c.most := by exact_mod_cast h
  have some : ¬ (max (max c.red.toFloat c.green.toFloat) c.blue.toFloat == 0.0) = true := by
    rw [c.stands_most.beq_iff constants.zero]
    exact positive.ne'
  have part : ((c.most - c.least : Nat) : ℚ) / c.most ≤ 1 := by
    rw [div_le_one positive]
    exact_mod_cast Nat.sub_le _ _
  have low : (0 : ℚ) ≤ ((c.most - c.least : Nat) : ℚ) / c.most := by positivity
  have tiny := grain_lt
  have fine := grain_nonneg
  rw [toHsb]
  dsimp only
  rw [if_neg some]
  refine Near.toNat_nearest_toUInt8 ((c.stands_range.near.div c.stands_most positive ?_).mul
    constants.level.near ?_) ?_ (by linarith) (by linarith)
  · rw [abs_of_nonneg low, zero_div, bound_eq]
    linarith
  · rw [abs_of_nonneg (mul_nonneg low (by norm_num)), abs_of_nonneg low, bound_eq, zero_div,
      abs_of_nonneg (show (0 : ℚ) ≤ 255 by norm_num)]
    linarith
  · rw [abs_of_nonneg low, zero_div, abs_of_nonneg (show (0 : ℚ) ≤ 255 by norm_num)]
    linarith

theorem Rgb.toHsb_grey {c : Rgb} (grey : c.most = c.least) :
    c.toHsb.saturation = 0 ∧ c.toHsb.hue = 0 := by
  have none : (max (max c.red.toFloat c.green.toFloat) c.blue.toFloat -
      min (min c.red.toFloat c.green.toFloat) c.blue.toFloat == 0.0) = true := by
    rw [c.stands_range.beq_iff constants.zero, grey, Nat.sub_self, Nat.cast_zero]
  refine ⟨?_, ?_⟩
  · rcases Nat.eq_zero_or_pos c.most with black | positive
    · have dark : (max (max c.red.toFloat c.green.toFloat) c.blue.toFloat == 0.0) = true := by
        rw [c.stands_most.beq_iff constants.zero, black, Nat.cast_zero]
      rw [toHsb]
      dsimp only
      rw [if_pos dark]
      decide +kernel
    · have near := saturation_near positive
      rw [grey, Nat.sub_self, Nat.cast_zero, zero_div, zero_mul, sub_zero, Nat.abs_cast] at near
      have small : (c.toHsb.saturation.toNat : ℚ) < 1 := by linarith
      have small : c.toHsb.saturation.toNat < 1 := by exact_mod_cast small
      exact UInt8.toNat_inj.mp (Nat.lt_one_iff.mp small)
  · rw [toHsb]
    dsimp only
    rw [hueDegrees, if_pos none]
    decide +kernel

/-- A colour that is not grey does not come close to a whole turn. -/
theorem Rgb.place_mem {c : Rgb} (h : c.least < c.most) : 0 ≤ c.place ∧ c.place ≤ 6 - 1 / 255 := by
  obtain ⟨k, x, lies, -, low, high, apart⟩ := exists_lies h
  cases lies with
  | beforeRed place positive =>
    -- only here a whole turn is near, and it is a level away
    have := apart positive
    rw [place]
    constructor <;> linarith
  | _ place =>
    rw [place]
    constructor <;> linarith

theorem Rgb.hue_near {c : Rgb} (h : c.least < c.most) :
    |(c.toHsb.hue.toNat : ℚ) - 60 * c.place / 360 * 65535| ≤ 1 / 2 + 1 / 40000 := by
  have fine := grain_lt
  have positive := grain_nonneg
  obtain ⟨low, high⟩ := place_mem h
  have angle := near_hueDegrees h c.stands_most c.stands_range
  have low : 0 ≤ 60 * c.place / 360 := by positivity
  have high : 60 * c.place / 360 ≤ 1 := by linarith
  rw [toHsb]
  dsimp only
  refine Near.toNat_nearest_toUInt16 ((angle.div constants.degrees (by norm_num) ?_).mul
    constants.wheel.near ?_) ?_ (by linarith) (by linarith)
  · rw [abs_of_nonneg low, bound_eq]
    linarith
  · rw [abs_of_nonneg (mul_nonneg low (by norm_num)), abs_of_nonneg low, bound_eq,
      abs_of_nonneg (show (0 : ℚ) ≤ 65535 by norm_num)]
    linarith
  · rw [abs_of_nonneg low, abs_of_nonneg (show (0 : ℚ) ≤ 65535 by norm_num)]
    linarith

end Lightshow
