/-
Colours that are converted and converted back.

Hue, saturation and brightness are rounded, so a colour could come back as another one.  The error is
half a step of each at most.  That of the hue is a tiny part of a sixth of a turn; that of the saturation
moves the smallest level by less than half a step, and the level between by less still, so both are rounded
back to what they were, with few exceptions that are tried one by one.

* `Hsb.level_toRgb_eq` -- a level that is less than half a step off is met;
* `Rgb.exists_steps` -- the error of the saturation, in whole numbers;
* `Rgb.amount_near` -- the levels before they are rounded;
* `Rgb.toRgb_toHsb` -- every colour comes back, but for six.
-/
import Lightshow.Proofs.Wheel

namespace Lightshow

open Double

/-! ### Back to the channels -/

/-- What the primary colours get of a colour besides its base, as the conversion has it. -/
def parts (place chroma second : Float) : Float × Float × Float :=
  if place < 1.0 then (chroma, second, 0.0)
  else if place < 2.0 then (second, chroma, 0.0)
  else if place < 3.0 then (0.0, chroma, second)
  else if place < 4.0 then (0.0, second, chroma)
  else if place < 5.0 then (second, 0.0, chroma)
  else (chroma, 0.0, second)

/-- One of three. -/
def Primary.of {α : Type} : Primary → α × α × α → α
  | .red, t => t.1
  | .green, t => t.2.1
  | .blue, t => t.2.2

namespace Hsb

open Primary

/-- The place of a hue on the wheel, in sixths of a turn. -/
def place (c : Hsb) : ℚ := c.hue.toNat / 65535 * 360 / 60

/-- The same as it is computed. -/
def sixths (c : Hsb) : Float := sector (c.hue.toFloat / 65535.0 * 360.0)

/-- The position between two primary colours, as it is computed. -/
def pair (place : Float) : Float :=
  if 4.0 ≤ place then place - 4.0 else if 2.0 ≤ place then place - 2.0 else place

/-- The range of the channels, as it is computed. -/
def chroma (c : Hsb) : Float := c.brightness.toFloat / 255.0 * (c.saturation.toFloat / 255.0)

theorem level_toRgb (c : Hsb) (i : Primary) : i.level c.toRgb =
    (nearest ((i.of (parts c.sixths c.chroma (c.chroma * (1.0 - (pair c.sixths - 1.0).abs))) +
      (c.brightness.toFloat / 255.0 - c.chroma)) * 255.0)).toUInt8.toNat := by
  cases i <;> rfl

theorem exists_sixths {c : Hsb} (h : c.hue.toNat < 65535) :
    ∃ q, Stands c.sixths q ∧ |q - c.place| ≤ 8 * grain ∧ 0 ≤ q ∧ q < 6 := by
  have fine := grain_lt
  have positive := grain_nonneg
  have most : (c.hue.toNat : ℚ) ≤ 65534 := by exact_mod_cast Nat.le_of_lt_succ h
  have low : (0 : ℚ) ≤ c.hue.toNat / 65535 := by positivity
  have high : (c.hue.toNat : ℚ) / 65535 ≤ 65534 / 65535 := by linarith
  have computed : Near (c.hue.toFloat / 65535.0 * 360.0 / 60.0) c.place (8 * grain) := by
    have turn : |(c.hue.toNat : ℚ) / 65535| = c.hue.toNat / 65535 := abs_of_nonneg low
    have degrees : |(c.hue.toNat : ℚ) / 65535 * 360| = c.hue.toNat / 65535 * 360 :=
      abs_of_nonneg (mul_nonneg low (by norm_num))
    have whole : |(360 : ℚ)| = 360 := abs_of_nonneg (by norm_num)
    refine (((Stands.ofUInt16 c.hue).near.div constants.wheel (by norm_num) ?_).mul
      constants.degrees.near ?_).div constants.sixty (by norm_num) ?_ |>.mono ?_
    · rw [turn, bound_eq]
      linarith
    · rw [degrees, turn, whole, bound_eq]
      linarith
    · rw [abs_div, degrees, turn, whole, bound_eq, abs_of_nonneg (show (0 : ℚ) ≤ 60 by norm_num)]
      linarith
    · rw [turn, whole]
      linarith
  obtain ⟨q, hq, near⟩ := computed
  have inside := abs_le.mp near
  have below : c.place ≤ 65534 / 65535 * 6 := by
    rw [place]
    linarith
  have notWhole : ¬ (6.0 : Float) ≤ c.hue.toFloat / 65535.0 * 360.0 / 60.0 := by
    rw [constants.six.le_iff hq]
    linarith
  have same : c.sixths = c.hue.toFloat / 65535.0 * 360.0 / 60.0 := if_neg notWhole
  refine ⟨q, same ▸ hq, near, ?_, by linarith⟩
  -- an error could only lead below zero at the start of the turn, and there is none there
  rcases Nat.eq_zero_or_pos c.hue.toNat with zero | some
  · have start : Stands ((0 : UInt16).toFloat / 65535.0 * 360.0 / 60.0) 0 := by
      rw [Stands]
      decide +kernel
    rw [UInt16.toNat_inj.mp (show c.hue.toNat = (0 : UInt16).toNat from zero)] at hq
    exact (start.unique hq).le
  · have some : (1 : ℚ) ≤ c.hue.toNat := by exact_mod_cast some
    have : 1 / 65535 * 6 ≤ c.place := by
      rw [place]
      linarith
    linarith

/-- The position behind red, green or blue, in sixths of a turn. -/
def behind (q : ℚ) : ℚ := if 4 ≤ q then q - 4 else if 2 ≤ q then q - 2 else q

theorem behind_mem {q : ℚ} (low : 0 ≤ q) (high : q < 6) : 0 ≤ behind q ∧ behind q ≤ 2 := by
  rw [behind]
  split_ifs <;> constructor <;> linarith

/-- The position between two primary colours is computed up to a small error. -/
theorem near_pair {place : Float} {q : ℚ} (hq : Stands place q) (low : 0 ≤ q) (high : q < 6) :
    Near (1.0 - (pair place - 1.0).abs) (1 - |behind q - 1|) (3 * grain) := by
  have positive := grain_nonneg
  have fine := grain_lt
  have between := behind_mem low high
  have near : Near (pair place) (behind q) grain := by
    rw [pair, behind]
    by_cases four : 4 ≤ q
    · have size : |q - 4| ≤ 2 := abs_le.mpr ⟨by linarith, by linarith⟩
      rw [if_pos four, if_pos ((constants.four.le_iff hq).mpr four)]
      exact (hq.near.sub constants.four.near (by rw [bound_eq]; linarith)).mono (by linarith)
    rw [if_neg four, if_neg ((constants.four.le_iff hq).not.mpr four)]
    by_cases two : 2 ≤ q
    · have size : |q - 2| ≤ 4 := abs_le.mpr ⟨by linarith, by linarith⟩
      rw [if_pos two, if_pos ((constants.two.le_iff hq).mpr two)]
      exact (hq.near.sub constants.two.near (by rw [bound_eq]; linarith)).mono (by linarith)
    · rw [if_neg two, if_neg ((constants.two.le_iff hq).not.mpr two)]
      exact hq.near.mono positive
  generalize behind q = r at *
  have size : |r - 1| ≤ 1 := abs_le.mpr ⟨by linarith, by linarith⟩
  have size' : |(1 - |r - 1| : ℚ)| ≤ 1 := abs_le.mpr ⟨by linarith, by linarith [abs_nonneg (r - 1)]⟩
  refine (constants.one.near.sub (near.sub constants.one.near ?_).abs ?_).mono (by linarith)
  · rw [bound_eq]
    linarith
  · rw [bound_eq]
    linarith

/-- What a primary colour gets of the range: all of it, a part of it, or nothing. -/
inductive Portion where
  | all
  | some
  | none

namespace Portion

def take (chroma second : Float) : Portion → Float
  | all => chroma
  | some => second
  | none => 0.0

def amount (x : ℚ) : Portion → ℚ
  | all => 1
  | some => x
  | none => 0

end Portion

/-- What the primary colours get is what their shares are. -/
def Arranged (place : Float) (q : ℚ) (P : Portion × Portion × Portion) : Prop :=
  (∀ chroma second, parts place chroma second =
    (P.1.take chroma second, P.2.1.take chroma second, P.2.2.take chroma second)) ∧
  share .red q = P.1.amount (1 - |behind q - 1|) ∧ share .green q = P.2.1.amount (1 - |behind q - 1|) ∧
    share .blue q = P.2.2.amount (1 - |behind q - 1|)

theorem exists_arranged {place : Float} {q : ℚ} (hq : Stands place q) (low : 0 ≤ q) (high : q < 6) :
    ∃ P, Arranged place q P := by
  -- one case for each sixth of the turn, as the conversion goes through them
  have one := hq.lt_iff constants.one
  have two := hq.lt_iff constants.two
  have three := hq.lt_iff constants.three
  have four := hq.lt_iff constants.four
  have five := hq.lt_iff constants.five
  rcases lt_or_ge q 1 with lt | ge₁
  · have x : 1 - |behind q - 1| = q := by
      rw [behind, if_neg (by linarith), if_neg (by linarith), abs_of_nonpos (by linarith)]
      ring
    refine ⟨(.all, .some, .none), fun _ _ => if_pos (one.mpr lt), ?_⟩
    rw [x]
    exact (share_near low lt.le).1
  have one := one.not.mpr ge₁.not_gt
  rcases lt_or_ge q 2 with lt | ge₂
  · have x : 1 - |behind q - 1| = 2 - q := by
      rw [behind, if_neg (by linarith), if_neg (by linarith), abs_of_nonneg (by linarith)]
      ring
    refine ⟨(.some, .all, .none), fun _ _ => ?_, ?_⟩
    · rw [parts, if_neg one, if_pos (two.mpr lt)]
      rfl
    · have shares := (share_near (show 0 ≤ 2 - q by linarith) (by linarith)).2.2.1
      rw [sub_sub_cancel] at shares
      rwa [x]
  have two := two.not.mpr ge₂.not_gt
  rcases lt_or_ge q 3 with lt | ge₃
  · have x : 1 - |behind q - 1| = q - 2 := by
      rw [behind, if_neg (by linarith), if_pos ge₂, abs_of_nonpos (by linarith)]
      ring
    refine ⟨(.none, .all, .some), fun _ _ => ?_, ?_⟩
    · rw [parts, if_neg one, if_neg two, if_pos (three.mpr lt)]
      rfl
    · have shares := (share_near (show 0 ≤ q - 2 by linarith) (by linarith)).2.2.2.1
      rw [add_sub_cancel] at shares
      rwa [x]
  have three := three.not.mpr ge₃.not_gt
  rcases lt_or_ge q 4 with lt | ge₄
  · have x : 1 - |behind q - 1| = 4 - q := by
      rw [behind, if_neg (by linarith), if_pos ge₂, abs_of_nonneg (by linarith)]
      ring
    refine ⟨(.none, .some, .all), fun _ _ => ?_, ?_⟩
    · rw [parts, if_neg one, if_neg two, if_neg three, if_pos (four.mpr lt)]
      rfl
    · have shares := (share_near (show 0 ≤ 4 - q by linarith) (by linarith)).2.2.2.2.1
      rw [sub_sub_cancel] at shares
      rwa [x]
  have four := four.not.mpr ge₄.not_gt
  rcases lt_or_ge q 5 with lt | ge₅
  · have x : 1 - |behind q - 1| = q - 4 := by
      rw [behind, if_pos ge₄, abs_of_nonpos (by linarith)]
      ring
    refine ⟨(.some, .none, .all), fun _ _ => ?_, ?_⟩
    · rw [parts, if_neg one, if_neg two, if_neg three, if_neg four, if_pos (five.mpr lt)]
      rfl
    · have shares := (share_near (show 0 ≤ q - 4 by linarith) (by linarith)).2.2.2.2.2
      rw [add_sub_cancel] at shares
      rwa [x]
  · have x : 1 - |behind q - 1| = 6 - q := by
      rw [behind, if_pos ge₄, abs_of_nonneg (by linarith)]
      ring
    refine ⟨(.all, .none, .some), fun _ _ => ?_, ?_⟩
    · rw [parts, if_neg one, if_neg two, if_neg three, if_neg four,
        if_neg (five.not.mpr ge₅.not_gt)]
      rfl
    · have shares := (share_near (show 0 ≤ 6 - q by linarith) (by linarith)).2.1
      rw [sub_sub_cancel] at shares
      rwa [x]

/-- The level of a primary colour as it would be without rounding. -/
def amount (c : Hsb) (i : Primary) : ℚ :=
  c.brightness.toNat - c.brightness.toNat * c.saturation.toNat / 255 * (1 - i.share c.place)

theorem share_mem (i : Primary) (p : ℚ) : 0 ≤ i.share p ∧ i.share p ≤ 1 := by
  cases i <;> exact ⟨le_max_right _ _, max_le (min_le_right _ _) zero_le_one⟩

theorem fraction_mem (n : UInt8) : (0 : ℚ) ≤ n.toNat / 255 ∧ (n.toNat : ℚ) / 255 ≤ 1 := by
  have small : (n.toNat : ℚ) ≤ 255 := by exact_mod_cast Nat.le_of_lt_succ n.toNat_lt
  exact ⟨by positivity, by linarith⟩

theorem near_fraction (n : UInt8) : Near (n.toFloat / 255.0) (n.toNat / 255) grain := by
  obtain ⟨low, high⟩ := fraction_mem n
  refine ((Stands.ofUInt8 n).near.div constants.level (by norm_num) ?_).mono (by linarith)
  rw [abs_of_nonneg low, bound_eq]
  linarith

theorem near_chroma (c : Hsb) :
    Near c.chroma (c.brightness.toNat / 255 * (c.saturation.toNat / 255)) (4 * grain) := by
  have fine := grain_lt
  have positive := grain_nonneg
  obtain ⟨low, high⟩ := fraction_mem c.brightness
  obtain ⟨low', high'⟩ := fraction_mem c.saturation
  have product := mul_le_one₀ high low' high'
  refine ((near_fraction _).mul (near_fraction _) ?_).mono ?_
  · rw [abs_of_nonneg (mul_nonneg low low'), abs_of_nonneg low, abs_of_nonneg low', bound_eq]
    nlinarith
  · rw [abs_of_nonneg low, abs_of_nonneg low']
    nlinarith

theorem near_part {c : Hsb} (h : c.hue.toNat < 65535) (i : Primary) :
    Near (i.of (parts c.sixths c.chroma (c.chroma * (1.0 - (pair c.sixths - 1.0).abs))))
      (c.brightness.toNat / 255 * (c.saturation.toNat / 255) * i.share c.place) (20 * grain) := by
  have fine := grain_lt
  have positive := grain_nonneg
  obtain ⟨low, high⟩ := fraction_mem c.brightness
  obtain ⟨low', high'⟩ := fraction_mem c.saturation
  have most := mul_le_one₀ high low' high'
  have least := mul_nonneg low low'
  have chroma := c.near_chroma
  generalize (c.brightness.toNat / 255 * (c.saturation.toNat / 255) : ℚ) = a at *
  obtain ⟨q, hq, close, start, turn⟩ := exists_sixths h
  obtain ⟨P, chosen, red, green, blue⟩ := exists_arranged hq start turn
  have second := near_pair hq start turn
  have inside : 0 ≤ 1 - |behind q - 1| ∧ 1 - |behind q - 1| ≤ 1 := by
    have between := behind_mem start turn
    have := abs_le.mpr (show -1 ≤ behind q - 1 ∧ behind q - 1 ≤ 1 from ⟨by linarith, by linarith⟩)
    exact ⟨by linarith, by linarith [abs_nonneg (behind q - 1)]⟩
  generalize 1 - |behind q - 1| = x at *
  have second : Near (c.chroma * (1.0 - (pair c.sixths - 1.0).abs)) (a * x) (9 * grain) := by
    have product := mul_le_one₀ most inside.1 inside.2
    refine (chroma.mul second ?_).mono ?_
    · rw [abs_of_nonneg (mul_nonneg least inside.1), abs_of_nonneg least, abs_of_nonneg inside.1, bound_eq]
      nlinarith
    · rw [abs_of_nonneg least, abs_of_nonneg inside.1]
      nlinarith
  have share : i.share q = (i.of P).amount x := by cases i <;> assumption
  have part (P : Portion) : Near (P.take c.chroma (c.chroma * (1.0 - (pair c.sixths - 1.0).abs)))
      (a * P.amount x) (9 * grain) := by
    cases P with
    | all => exact (mul_one a).symm ▸ chroma.mono (by linarith)
    | some => exact second
    | none => exact (mul_zero a).symm ▸ constants.zero.near.mono (by linarith)
  have same : i.of (parts c.sixths c.chroma (c.chroma * (1.0 - (pair c.sixths - 1.0).abs))) =
      (i.of P).take c.chroma (c.chroma * (1.0 - (pair c.sixths - 1.0).abs)) := by
    rw [chosen]
    cases i <;> rfl
  rw [same]
  obtain ⟨v, hv, near⟩ := part (i.of P)
  refine ⟨v, hv, ?_⟩
  -- the share was taken at the place as it is computed
  have moved : |a * i.share q - a * i.share c.place| ≤ 8 * grain := by
    rw [← mul_sub, abs_mul, abs_of_nonneg least]
    have := abs_share_sub_le i q c.place
    have := abs_nonneg (i.share q - i.share c.place)
    nlinarith
  rw [← share] at near
  have := abs_sub_le v (a * i.share q) (a * i.share c.place)
  linarith

/-- A level that would be near enough to a whole number is that number. -/
theorem level_toRgb_eq {c : Hsb} (h : c.hue.toNat < 65535) {i : Primary} {n : Nat} (small : n ≤ 255)
    (close : |c.amount i - n| < 1 / 2 - 1 / 100000) : i.level c.toRgb = n := by
  have fine := grain_lt
  have positive := grain_nonneg
  obtain ⟨low, high⟩ := fraction_mem c.brightness
  obtain ⟨low', high'⟩ := fraction_mem c.saturation
  have most := mul_le_one₀ high low' high'
  have least := mul_nonneg low low'
  have share := share_mem i c.place
  have part := near_part h i
  have chroma := c.near_chroma
  -- the level is computed as a part of the range above the least level, times 255
  have scaled : c.amount i = (c.brightness.toNat / 255 * (c.saturation.toNat / 255) * i.share c.place +
      (c.brightness.toNat / 255 - c.brightness.toNat / 255 * (c.saturation.toNat / 255))) * 255 := by
    rw [amount]
    ring
  rw [scaled] at close
  generalize (c.brightness.toNat / 255 * (c.saturation.toNat / 255) : ℚ) = a at *
  have part_le := mul_le_one₀ most share.1 share.2
  have part_nonneg := mul_nonneg least share.1
  have base : |(c.brightness.toNat / 255 - a : ℚ)| ≤ 1 := abs_le.mpr ⟨by linarith, by linarith⟩
  have sum : |(a * i.share c.place + (c.brightness.toNat / 255 - a) : ℚ)| ≤ 2 :=
    abs_le.mpr ⟨by have := abs_le.mp base; linarith, by linarith⟩
  have whole : |(255 : ℚ)| = 255 := abs_of_nonneg (by norm_num)
  have level : Near ((i.of (parts c.sixths c.chroma (c.chroma * (1.0 - (pair c.sixths - 1.0).abs))) +
      (c.brightness.toFloat / 255.0 - c.chroma)) * 255.0)
      ((a * i.share c.place + (c.brightness.toNat / 255 - a)) * 255) (6886 * grain) := by
    refine ((part.add ((near_fraction _).sub chroma ?_) ?_).mul constants.level.near ?_).mono ?_
    · rw [bound_eq]
      linarith
    · rw [bound_eq]
      linarith
    · rw [abs_mul, whole, bound_eq]
      linarith
    · rw [whole]
      linarith
  have rounded := level.nearest_eq (n := n) (by linarith) (by omega)
  have fits : (n : ℚ) < 256 := by
    have : (n : ℚ) ≤ 255 := by exact_mod_cast small
    linarith
  rw [level_toRgb, rounded.toNat_toUInt8 (fits.trans_eq (by norm_num)), Nat.floor_natCast]

end Hsb

/-! ### There and back -/

/-- How far a place is from where it is when it comes out of a hue. -/
def slack : ℚ := 4579 / 100000000

/-- How the saturation can be off by nearly half a step: in half of the levels, or in two ranges. -/
theorem steps_of_halves {M R S n : Nat} (small : M ≤ 255) (le : R ≤ M)
    (steps : M * S = 255 * R + n ∨ M * S + n = 255 * R) (half : 2 * n ≤ M) (large : 126 ≤ n) :
    (n = 126 ∧ R ≤ 128) ∨ (n = 127 ∧ R = 127) ∨
      (n = 126 ∧ (M = 253 ∧ R = 190 ∨ M = 252 ∧ R = 210)) := by
  have sizes : n = 126 ∨ n = 127 := by omega
  have some : 252 ≤ M := by omega
  interval_cases M <;> rcases sizes with rfl | rfl <;> rcases steps with above | below <;> omega

/-- The level between is off by what its place and the range are off by. -/
theorem between_lt {R D : Nat} {x w : ℚ} (r n : Nat) (y : ℚ) (hR : R ≤ r) (hD : D ≤ n) (hy : y ≤ x)
    (hx : x ≤ 1) (close : |w - x| ≤ slack)
    (small : r * slack + n / 255 * (1 - y + slack) < 1 / 2 - 1 / 100000) :
    |(R : ℚ) * (w - x)| + |(D : ℚ) / 255 * (1 - w)| < 1 / 2 - 1 / 100000 := by
  have hR : (R : ℚ) ≤ r := by exact_mod_cast hR
  have hD : (D : ℚ) / 255 ≤ n / 255 := by
    have : (D : ℚ) ≤ n := by exact_mod_cast hD
    linarith
  have inside := abs_le.mp close
  have away : |1 - w| ≤ 1 - y + slack := abs_le.mpr ⟨by linarith, by linarith⟩
  have positive : 0 ≤ slack := (abs_nonneg _).trans close
  have first : |(R : ℚ) * (w - x)| ≤ r * slack := by
    rw [abs_mul, Nat.abs_cast]
    exact mul_le_mul hR close (abs_nonneg _) (Nat.cast_nonneg r)
  have second : |(D : ℚ) / 255 * (1 - w)| ≤ n / 255 * (1 - y + slack) := by
    rw [abs_mul, abs_of_nonneg (show (0 : ℚ) ≤ D / 255 by positivity)]
    exact mul_le_mul hD away (abs_nonneg _) (by positivity)
  linarith

/-- The level between comes back, but for one step in two ranges. -/
theorem between_close {M R S k : Nat} {D : Int} {x w : ℚ} (small : M ≤ 255) (le : R ≤ M)
    (steps : (M * S : Int) = 255 * R + D) (half : 2 * D.natAbs ≤ M) (hx : (R : ℚ) * x = k) (some : 0 < k)
    (low : 0 ≤ x) (high : x ≤ 1) (close : |w - x| ≤ slack)
    (ordinary : ¬(k = 1 ∧ (M = 253 ∧ R = 190 ∨ M = 252 ∧ R = 210))) :
    |(M : ℚ) - M * S / 255 * (1 - w) - (M - R + k)| < 1 / 2 - 1 / 100000 := by
  have product : (M * S : ℚ) = 255 * R + D := by exact_mod_cast steps
  have split : (M : ℚ) - M * S / 255 * (1 - w) - (M - R + k) = R * (w - x) - D / 255 * (1 - w) := by
    rw [product, ← hx]
    ring
  have size : |(D : ℚ) / 255 * (1 - w)| = |(D.natAbs : ℚ) / 255 * (1 - w)| := by
    rw [abs_mul, abs_mul, abs_div, abs_div, Nat.abs_cast, Nat.cast_natAbs, Int.cast_abs]
  have least {r : Nat} (hr : R ≤ r) : 1 ≤ r * x := by
    have hr : (R : ℚ) ≤ r := by exact_mod_cast hr
    have some : (1 : ℚ) ≤ k := by exact_mod_cast some
    nlinarith
  rw [split]
  refine (abs_sub _ _).trans_lt ?_
  rw [size]
  -- the less the saturation leaves of half a step, the narrower is the range, and the wider a step in it
  by_cases few : D.natAbs ≤ 125
  · have := least (show R ≤ 255 by omega)
    exact between_lt 255 125 (1 / 255) (by omega) few (by push_cast at this; linarith) high close
      (by norm_num [slack])
  obtain ⟨nearly, narrow⟩ | ⟨nearly, rfl⟩ | ⟨nearly, wide⟩ :=
    steps_of_halves (S := S) small le (by omega) half (by omega)
  · have := least narrow
    exact between_lt 128 126 (1 / 128) narrow nearly.le (by push_cast at this; linarith) high close
      (by norm_num [slack])
  · have := least (Nat.le_refl 127)
    exact between_lt 127 127 (1 / 127) le_rfl nearly.le (by push_cast at this; linarith) high close
      (by norm_num [slack])
  · have more : (2 : ℚ) ≤ k := by
      have : 2 ≤ k := by
        by_contra less
        exact ordinary ⟨by omega, wide⟩
      exact_mod_cast this
    have : R ≤ 210 := by omega
    have far : 2 / 210 ≤ x := by
      have : (R : ℚ) ≤ 210 := by exact_mod_cast this
      nlinarith
    exact between_lt 210 126 (2 / 210) this nearly.le far high close (by norm_num [slack])

/-- The place of a colour comes out of its hue nearly as it was. -/
theorem Rgb.place_toHsb_near {c : Rgb} (h : c.least < c.most) : |c.toHsb.place - c.place| ≤ slack := by
  have near := abs_le.mp (hue_near h)
  have place : c.toHsb.place - c.place =
      (c.toHsb.hue.toNat - 60 * c.place / 360 * 65535) * (6 / 65535) := by
    rw [Hsb.place]
    ring
  rw [place, slack]
  exact abs_le.mpr ⟨by linarith, by linarith⟩

/-- The place of a primary colour comes out exactly. -/
theorem Rgb.place_toHsb_eq {c : Rgb} (h : c.least < c.most) (primary : c.Lies 0 0) :
    c.toHsb.place = c.place := by
  have near := hue_near h
  have met {n : Nat} (angle : 60 * c.place / 360 * 65535 = n) : (c.toHsb.hue.toNat : ℚ) = n := by
    rw [angle] at near
    have less : |((c.toHsb.hue.toNat - n : Int) : ℚ)| < 1 := by
      push_cast
      linarith
    have none : (c.toHsb.hue.toNat - n : Int) = 0 := Int.abs_lt_one_iff.mp (by exact_mod_cast less)
    exact_mod_cast Int.sub_eq_zero.mp none
  -- the primary colours lie at thirds of a turn, and a turn has a multiple of three steps
  cases primary with
  | behindRed place =>
    rw [Hsb.place, met (n := 0) (by rw [place]; norm_num), place]
    norm_num
  | behindGreen place =>
    rw [Hsb.place, met (n := 21845) (by rw [place]; norm_num), place]
    norm_num
  | behindBlue place =>
    rw [Hsb.place, met (n := 43690) (by rw [place]; norm_num), place]
    norm_num
  | beforeRed _ positive | beforeGreen _ positive | beforeBlue _ positive =>
    exact absurd positive (lt_irrefl 0)

/-- The saturation is off by half a step at most, so the range is by half of the largest level. -/
theorem Rgb.exists_steps {c : Rgb} (h : 0 < c.most) : ∃ D : Int,
    (c.most * c.toHsb.saturation.toNat : Int) = 255 * (c.most - c.least : Nat) + D ∧
      2 * D.natAbs ≤ c.most := by
  have near := saturation_near h
  have positive : (0 : ℚ) < c.most := by exact_mod_cast h
  have small : (c.most : ℚ) ≤ 255 := by exact_mod_cast c.most_le
  refine ⟨c.most * c.toHsb.saturation.toNat - 255 * (c.most - c.least : Nat), by ring, ?_⟩
  generalize c.toHsb.saturation.toNat = S at *
  generalize c.most - c.least = R at *
  have scaled : ((c.most * S - 255 * R : Int) : ℚ) = c.most * (S - R / c.most * 255) := by
    push_cast
    field_simp
  have close : |((c.most * S - 255 * R : Int) : ℚ)| ≤ c.most * (1 / 2 + 1 / 40000) := by
    rw [scaled, abs_mul, Nat.abs_cast]
    exact mul_le_mul_of_nonneg_left near positive.le
  -- it is a whole number, so the little above a half is nothing
  have less : (2 * |(c.most * S - 255 * R : Int)| : ℚ) < c.most + 1 := by
    rw [← Int.cast_abs] at close
    linarith
  have less : 2 * |(c.most * S - 255 * R : Int)| < c.most + 1 := by exact_mod_cast less
  rw [← Int.natCast_natAbs] at less
  omega

/-- The largest level comes back less than half a step off, without rounding. -/
theorem Rgb.amount_near_most {c : Rgb} (h : c.least < c.most) {i : Primary} (level : i.level c = c.most)
    (share : i.share c.place = 1) : |c.toHsb.amount i - i.level c| < 1 / 2 - 1 / 100000 := by
  have moved := (Primary.abs_share_sub_le i c.toHsb.place c.place).trans (place_toHsb_near h)
  rw [share] at moved
  have moved := abs_le.mp moved
  have inside := Hsb.share_mem i c.toHsb.place
  have whole : (c.most * c.toHsb.saturation.toNat / 255 : ℚ) ≤ 255 := by
    have product := Nat.mul_le_mul c.most_le (Nat.le_of_lt_succ c.toHsb.saturation.toNat_lt)
    have product : (c.most * c.toHsb.saturation.toNat : ℚ) ≤ 255 * 255 := by exact_mod_cast product
    linarith
  have off : c.toHsb.amount i - i.level c =
      -(c.most * c.toHsb.saturation.toNat / 255 * (1 - i.share c.toHsb.place)) := by
    rw [Hsb.amount, toNat_brightness, level]
    ring
  rw [off, abs_neg, abs_of_nonneg (mul_nonneg (by positivity) (by linarith))]
  calc (c.most * c.toHsb.saturation.toNat / 255 * (1 - i.share c.toHsb.place) : ℚ)
      ≤ 255 * slack := mul_le_mul whole (by linarith) (by linarith) (by norm_num)
    _ < 1 / 2 - 1 / 100000 := by norm_num [slack]

/-- So does the smallest, where the saturation alone decides. -/
theorem Rgb.amount_near_least {c : Rgb} (h : c.least < c.most) {i : Primary} (level : i.level c = c.least)
    (none : i.share c.toHsb.place = 0) : |c.toHsb.amount i - i.level c| < 1 / 2 - 1 / 100000 := by
  obtain ⟨D, steps, half⟩ := exists_steps (Nat.zero_lt_of_lt h)
  have product : (c.most * c.toHsb.saturation.toNat : ℚ) = 255 * (c.most - c.least : Nat) + D := by
    exact_mod_cast steps
  have size : |(D : ℚ)| ≤ 127 := by
    have small := c.most_le
    have size : D.natAbs ≤ 127 := by omega
    rw [← Int.cast_abs, ← Int.natCast_natAbs]
    exact_mod_cast size
  have off : c.toHsb.amount i - i.level c = -(D / 255) := by
    rw [Hsb.amount, toNat_brightness, none, level, product, Nat.cast_sub h.le]
    ring
  rw [off, abs_neg, abs_div, abs_of_pos (show (0 : ℚ) < 255 by norm_num)]
  linarith

/-- And so does the level between, but for one step in two ranges. -/
theorem Rgb.amount_near {c : Rgb} (h : c.least < c.most) {k : Nat} {x : ℚ} (lies : c.Lies k x)
    (hx : ((c.most - c.least : Nat) : ℚ) * x = k) (low : 0 ≤ x) (high : x ≤ 1)
    (apart : 0 < k → 1 / 255 ≤ x)
    (ordinary : ¬(k = 1 ∧ (c.most = 253 ∧ c.most - c.least = 190 ∨ c.most = 252 ∧ c.most - c.least = 210)))
    (i : Primary) : |c.toHsb.amount i - i.level c| < 1 / 2 - 1 / 100000 := by
  have close := place_toHsb_near h
  have primary (zero : k = 0) : x = 0 := by
    have range : ((c.most - c.least : Nat) : ℚ) ≠ 0 := Nat.cast_ne_zero.mpr (Nat.sub_pos_of_lt h).ne'
    rw [zero, Nat.cast_zero] at hx
    exact (mul_eq_zero.mp hx).resolve_left range
  have met (zero : k = 0) : c.toHsb.place = c.place :=
    place_toHsb_eq h (by rwa [zero, primary zero] at lies)
  cases lies.shows low high apart i with
  | most level share => exact amount_near_most h level share
  | least level share =>
    refine amount_near_least h level (share _ (close.trans ?_) met)
    norm_num [slack]
  | between level share =>
    rcases Nat.eq_zero_or_pos k with zero | some
    · exact amount_near_least h (by omega) (by rw [met zero, share, primary zero])
    · obtain ⟨D, steps, half⟩ := exists_steps (Nat.zero_lt_of_lt h)
      have moved := (Primary.abs_share_sub_le i c.toHsb.place c.place).trans close
      rw [share] at moved
      have near := between_close c.most_le (Nat.sub_le c.most c.least) steps half hx some low high moved ordinary
      rw [Nat.cast_sub h.le, sub_sub_cancel] at near
      rwa [Hsb.amount, toNat_brightness, level, Nat.cast_add]

/-- The colours with three levels. -/
def Rgb.arrangements (a b c : UInt8) : List Rgb :=
  [⟨a, b, c⟩, ⟨a, c, b⟩, ⟨b, a, c⟩, ⟨b, c, a⟩, ⟨c, a, b⟩, ⟨c, b, a⟩]

theorem Rgb.Lies.mem_arrangements {c : Rgb} {k : Nat} {x : ℚ} (lies : c.Lies k x) {least between most : UInt8}
    (hl : c.least = least.toNat) (hb : c.least + k = between.toNat) (hm : c.most = most.toNat) :
    c ∈ arrangements least between most := by
  have same {r g b : UInt8} (red : c.red.toNat = r.toNat) (green : c.green.toNat = g.toNat)
      (blue : c.blue.toNat = b.toNat) : c = ⟨r, g, b⟩ := by
    rw [← UInt8.toNat_inj.mp red, ← UInt8.toNat_inj.mp green, ← UInt8.toNat_inj.mp blue]
  simp only [arrangements, List.mem_cons, List.not_mem_nil, or_false]
  cases lies with
  | behindRed _ red green blue =>
    exact .inr (.inr (.inr (.inr (.inr (same (red.trans hm) (green.trans hb) (blue.trans hl))))))
  | beforeRed _ _ red green blue =>
    exact .inr (.inr (.inr (.inr (.inl (same (red.trans hm) (green.trans hl) (blue.trans hb))))))
  | beforeGreen _ _ red green blue =>
    exact .inr (.inr (.inr (.inl (same (red.trans hb) (green.trans hm) (blue.trans hl)))))
  | behindGreen _ red green blue =>
    exact .inr (.inl (same (red.trans hl) (green.trans hm) (blue.trans hb)))
  | beforeBlue _ _ red green blue =>
    exact .inl (same (red.trans hl) (green.trans hb) (blue.trans hm))
  | behindBlue _ red green blue =>
    exact .inr (.inr (.inl (same (red.trans hb) (green.trans hl) (blue.trans hm))))

/-- The six colours that do not come back. -/
def Rgb.slipping : List Rgb := arrangements 63 64 253

/-- What becomes of them: a level of 64 falls to 63. -/
def Rgb.slipped (c : Rgb) : Rgb :=
  let level (n : UInt8) := if n = 64 then 63 else n
  ⟨level c.red, level c.green, level c.blue⟩

theorem Rgb.eq_of_level {c d : Rgb} (h : ∀ i : Primary, i.level c = i.level d) : c = d := by
  cases c
  cases d
  rw [Rgb.mk.injEq]
  exact ⟨UInt8.toNat_inj.mp (h .red), UInt8.toNat_inj.mp (h .green), UInt8.toNat_inj.mp (h .blue)⟩

theorem Rgb.toRgb_toHsb_grey {c : Rgb} (grey : c.most = c.least) : c.toHsb.toRgb = c := by
  obtain ⟨saturation, hue⟩ := toHsb_grey grey
  have most : c.most = max (max c.red.toNat c.green.toNat) c.blue.toNat := rfl
  have least : c.least = min (min c.red.toNat c.green.toNat) c.blue.toNat := rfl
  have start : c.toHsb.hue.toNat < 65535 := by
    rw [hue]
    decide
  have back (i : Primary) : i.level c.toHsb.toRgb = c.most := by
    refine Hsb.level_toRgb_eq start c.most_le ?_
    rw [Hsb.amount, toNat_brightness, saturation, show (0 : UInt8).toNat = 0 from rfl, Nat.cast_zero, mul_zero,
      zero_div, zero_mul, sub_zero, sub_self, abs_zero]
    norm_num
  have same (i : Primary) : i.level c = c.most := by
    cases i <;> simp only [Primary.level] <;> omega
  exact eq_of_level fun i => (back i).trans (same i).symm

theorem Rgb.hue_toHsb_lt {c : Rgb} (h : c.least < c.most) : c.toHsb.hue.toNat < 65535 := by
  have near := abs_le.mp (hue_near h)
  have place := place_mem h
  have less : (c.toHsb.hue.toNat : ℚ) < 65535 := by linarith
  exact_mod_cast less

theorem Rgb.toRgb_toHsb_of_mem : ∀ c ∈ arrangements 63 64 253 ++ arrangements 42 43 252,
    c.toHsb.toRgb = if c ∈ slipping then c.slipped else c := by
  decide +kernel

/-- **Every colour comes back from hue, saturation and brightness, but for six.** -/
theorem Rgb.toRgb_toHsb (c : Rgb) : c.toHsb.toRgb = if c ∈ slipping then c.slipped else c := by
  by_cases tried : c ∈ arrangements 63 64 253 ++ arrangements 42 43 252
  · exact toRgb_toHsb_of_mem c tried
  rw [if_neg (show c ∉ slipping from fun slips => tried (List.mem_append_left _ slips))]
  rcases c.least_le_most.eq_or_lt with grey | coloured
  · exact toRgb_toHsb_grey grey.symm
  obtain ⟨k, x, lies, hx, low, high, apart⟩ := exists_lies coloured
  refine eq_of_level fun i => Hsb.level_toRgb_eq (hue_toHsb_lt coloured) (i.level_le c)
    (amount_near coloured lies hx low high apart ?_ i)
  -- of the two exceptions, one comes back all the same
  rintro ⟨rfl, ⟨most, range⟩ | ⟨most, range⟩⟩
  · have least : c.least = 63 := by omega
    exact tried (List.mem_append_left _ (lies.mem_arrangements least (by rw [least]; rfl) most))
  · have least : c.least = 42 := by omega
    exact tried (List.mem_append_right _ (lies.mem_arrangements least (by rw [least]; rfl) most))

end Lightshow
