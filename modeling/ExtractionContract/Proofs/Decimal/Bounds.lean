import ExtractionContract.Decimal.Literal
import Mathlib.Data.Nat.Log
import Mathlib.Tactic.Positivity
import Mathlib.Tactic.Ring

/-!
# Bounds on rounded magnitudes

A ratio that is not far above a power of two is rounded to a magnitude that is not far above the
magnitude of that power. The bound is coarse, and it is all that is needed for a numeral to be
read as a finite number: the quick reading starts from a word of sixty-four bits and, for a
negative power of ten, only divides.

* `roundRatio_le`: the bound.
* `magnitude?_lt`: a magnitude that the quick reading gives is finite.
-/

namespace ExtractionContract

namespace Binary64

theorem twoTo_eq (n : Nat) : twoTo n = 2 ^ n := rfl

theorem fractionCount_eq : fractionCount = 2 ^ 52 := rfl

/-! ### Rounding -/

theorem roundDiv_le (num den : Nat) : roundDiv num den ≤ num / den + 1 := by
  unfold roundDiv
  dsimp only
  split <;> omega

/-- The scale of a ratio is the difference of the logarithms less fifty-three, or one more. -/
theorem le_roundingScale (num den : Nat) :
    (Nat.log2 num : Int) - Nat.log2 den - 53 ≤ roundingScale num den := by
  unfold roundingScale
  dsimp only
  split <;> split <;> omega

theorem roundingScale_le (num den : Nat) :
    roundingScale num den ≤ max ((Nat.log2 num : Int) - Nat.log2 den - 52) (-1074) := by
  unfold roundingScale
  dsimp only
  split <;> split <;> omega

/-- At its scale a ratio has at most fifty-four bits before the point. -/
theorem quotient_lt {num den : Nat} {e : Int} (hden : 0 < den)
    (he : (Nat.log2 num : Int) - Nat.log2 den - 53 ≤ e) :
    (if 0 ≤ e then num / (den * twoTo e.toNat) else num * twoTo (-e).toNat / den) < 2 ^ 54 := by
  have hhigh : num < 2 ^ (Nat.log2 num + 1) := Nat.lt_log2_self
  have hlow : 2 ^ Nat.log2 den ≤ den := Nat.log2_self_le hden.ne'
  split
  · next hpos =>
    rw [Nat.div_lt_iff_lt_mul (Nat.mul_pos hden (twoTo_pos _)), twoTo_eq]
    calc num < 2 ^ (Nat.log2 num + 1) := hhigh
      _ ≤ 2 ^ (54 + (Nat.log2 den + e.toNat)) := Nat.pow_le_pow_right (by decide) (by omega)
      _ = 2 ^ 54 * (2 ^ Nat.log2 den * 2 ^ e.toNat) := by rw [Nat.pow_add, Nat.pow_add]
      _ ≤ 2 ^ 54 * (den * 2 ^ e.toNat) :=
        Nat.mul_le_mul_left _ (Nat.mul_le_mul_right _ hlow)
  · next hneg =>
    rw [Nat.div_lt_iff_lt_mul hden, twoTo_eq]
    calc num * 2 ^ (-e).toNat < 2 ^ (Nat.log2 num + 1) * 2 ^ (-e).toNat :=
        Nat.mul_lt_mul_of_pos_right hhigh (by positivity)
      _ = 2 ^ (Nat.log2 num + 1 + (-e).toNat) := (Nat.pow_add ..).symm
      _ ≤ 2 ^ (54 + Nat.log2 den) := Nat.pow_le_pow_right (by decide) (by omega)
      _ = 2 ^ 54 * 2 ^ Nat.log2 den := Nat.pow_add ..
      _ ≤ 2 ^ 54 * den := Nat.mul_le_mul_left _ hlow

/-- **A ratio up to a power of two** is rounded to a magnitude not far above that power's. -/
theorem roundRatio_le {num den k : Nat} (hden : 0 < den) (h : num ≤ 2 ^ k * den) :
    roundRatio num den ≤ (k + 1026) * fractionCount := by
  rcases Nat.eq_zero_or_pos num with rfl | hnum
  · simp [roundRatio]
  have hlog : Nat.log2 num ≤ k + Nat.log2 den := by
    have hlt : num < 2 ^ (k + Nat.log2 den + 1) :=
      calc num ≤ 2 ^ k * den := h
        _ < 2 ^ k * 2 ^ (Nat.log2 den + 1) :=
          Nat.mul_lt_mul_of_pos_left Nat.lt_log2_self (by positivity)
        _ = 2 ^ (k + Nat.log2 den + 1) := by rw [← Nat.pow_add, Nat.add_assoc]
    exact Nat.lt_succ_iff.mp ((Nat.log2_lt hnum.ne').mpr hlt)
  have hscale := roundingScale_le num den
  have hquot := quotient_lt hden (le_roundingScale num den)
  rw [roundRatio, if_neg (by simpa using hnum.ne')]
  refine (Nat.min_le_left _ _).trans ?_
  generalize roundingScale num den = e at hscale hquot
  have he : (e + 1074).toNat ≤ k + 1022 := by omega
  have hm : (if 0 ≤ e then roundDiv num (den * twoTo e.toNat)
      else roundDiv (num * twoTo (-e).toNat) den) ≤ 4 * fractionCount := by
    -- The scale goes into the denominator from zero on, and into the numerator below.
    split at hquot
    · next hpos =>
      rw [if_pos hpos]
      exact (roundDiv_le _ _).trans hquot
    · next hneg =>
      rw [if_neg hneg]
      exact (roundDiv_le _ _).trans hquot
  calc _ ≤ (k + 1022) * fractionCount + 4 * fractionCount :=
        Nat.add_le_add (Nat.mul_le_mul_right _ he) hm
    _ = (k + 1026) * fractionCount := by rw [← Nat.add_mul]

/-- **A ratio from a power of two on** is rounded to a magnitude not far below that power's. -/
theorem le_roundRatio {num den j : Nat} (hden : 0 < den) (hj : j ≤ 1026)
    (h : 2 ^ j * den ≤ num) : (j + 1021) * fractionCount ≤ roundRatio num den := by
  have hnum : 0 < num := lt_of_lt_of_le (Nat.mul_pos (by positivity) hden) h
  have hlog : j + Nat.log2 den ≤ Nat.log2 num := by
    refine (Nat.le_log2 hnum.ne').mpr ?_
    calc 2 ^ (j + Nat.log2 den) = 2 ^ j * 2 ^ Nat.log2 den := Nat.pow_add ..
      _ ≤ 2 ^ j * den := Nat.mul_le_mul_left _ (Nat.log2_self_le hden.ne')
      _ ≤ num := h
  have hscale := le_roundingScale num den
  rw [roundRatio, if_neg (by simpa using hnum.ne')]
  refine Nat.le_min.mpr ⟨?_, Nat.mul_le_mul_right _ (by omega)⟩
  exact (Nat.mul_le_mul_right _ (by omega)).trans (Nat.le_add_right _ _)

/-! ### Ratios of magnitudes -/

theorem significand_lt (m : Nat) : significand m < 2 ^ 53 := by
  have hmod : m % fractionCount < fractionCount := Nat.mod_lt _ (by decide)
  rw [fractionCount_eq] at hmod
  unfold significand
  rw [fractionCount_eq]
  split <;> omega

theorem le_significand {m : Nat} (h : fractionCount ≤ m) : 2 ^ 52 ≤ significand m := by
  rw [significand, if_neg (by omega)]
  exact Nat.le_add_right _ _

/-- A magnitude below a power of two's stands for a ratio below it. -/
theorem ratio_le {m k : Nat} (h : m < (k + 1023) * fractionCount) :
    (ratio m).1 ≤ 2 ^ k * (ratio m).2 := by
  have hdiv : m / fractionCount < k + 1023 := Nat.div_lt_of_lt_mul (by rwa [Nat.mul_comm])
  have hscale : scale m ≤ k - 53 := by
    unfold scale
    omega
  have hsig := (significand_lt m).le
  unfold ratio timesPowerOfTwo
  split
  · calc significand m * twoTo (scale m).toNat ≤ 2 ^ 53 * 2 ^ (scale m).toNat :=
        Nat.mul_le_mul_right _ hsig
      _ = 2 ^ (53 + (scale m).toNat) := (Nat.pow_add ..).symm
      _ ≤ 2 ^ k := Nat.pow_le_pow_right (by decide) (by omega)
      _ = 2 ^ k * 1 := (Nat.mul_one _).symm
  · calc significand m ≤ 2 ^ 53 := hsig
      _ ≤ 2 ^ (k + (-scale m).toNat) := Nat.pow_le_pow_right (by decide) (by omega)
      _ = 2 ^ k * twoTo (-scale m).toNat := Nat.pow_add ..

/-- A magnitude from a quarter of a power of two's on stands for a ratio from that on. -/
theorem le_ratio {m j : Nat} (h : (j + 1021) * fractionCount ≤ m) :
    2 ^ j * (ratio m).2 ≤ 4 * (ratio m).1 := by
  have hdiv : j + 1021 ≤ m / fractionCount := (Nat.le_div_iff_mul_le (by decide)).mpr h
  have hscale : (j : Int) - 54 ≤ scale m := by
    unfold scale
    omega
  have hsig : 2 ^ 52 ≤ significand m :=
    le_significand ((Nat.le_mul_of_pos_left _ (by omega)).trans h)
  unfold ratio timesPowerOfTwo
  split
  · calc 2 ^ j * 1 = 2 ^ j := Nat.mul_one _
      _ ≤ 2 ^ (54 + (scale m).toNat) := Nat.pow_le_pow_right (by decide) (by omega)
      _ = 4 * (2 ^ 52 * 2 ^ (scale m).toNat) := by ring
      _ ≤ 4 * (significand m * twoTo (scale m).toNat) :=
        Nat.mul_le_mul_left _ (Nat.mul_le_mul_right _ hsig)
  · calc 2 ^ j * twoTo (-scale m).toNat = 2 ^ (j + (-scale m).toNat) := (Nat.pow_add ..).symm
      _ ≤ 2 ^ 54 := Nat.pow_le_pow_right (by decide) (by omega)
      _ ≤ 4 * significand m := Nat.mul_le_mul_left 4 hsig

theorem ratio_den_pos (m : Nat) : 0 < (ratio m).2 := by
  unfold ratio timesPowerOfTwo
  split
  · exact Nat.one_pos
  · exact twoTo_pos _

/-- **Dividing by a magnitude** of about a power of two takes that power off the bound. -/
theorem divMagnitude_le {a b j k : Nat} (ha : (ratio a).1 ≤ 2 ^ (j + k) * (ratio a).2)
    (hb : 2 ^ j * (ratio b).2 ≤ 4 * (ratio b).1) :
    divMagnitude a b ≤ (k + 1028) * fractionCount := by
  have hbpos : 0 < (ratio b).1 := by
    have := Nat.mul_pos (Nat.two_pow_pos j) (ratio_den_pos b)
    omega
  refine roundRatio_le (k := k + 2) (Nat.mul_pos (ratio_den_pos a) hbpos) ?_
  refine Nat.le_of_mul_le_mul_left ?_ (Nat.two_pow_pos j)
  calc 2 ^ j * ((ratio a).1 * (ratio b).2) = (ratio a).1 * (2 ^ j * (ratio b).2) := by ring
    _ ≤ 2 ^ (j + k) * (ratio a).2 * (4 * (ratio b).1) := Nat.mul_le_mul ha hb
    _ = 2 ^ j * (2 ^ (k + 2) * ((ratio a).2 * (ratio b).1)) := by ring

end Binary64

namespace Decimal.Scaled

open Binary64

/-! ### The quick reading -/

/-- The magnitudes of words of sixty-four bits, and of what they are divided down to. -/
def Modest (m : Nat) : Prop :=
  m ≤ 1090 * fractionCount

theorem Modest.ratio_le {m : Nat} (h : Modest m) : (ratio m).1 ≤ 2 ^ 68 * (ratio m).2 :=
  Binary64.ratio_le (lt_of_le_of_lt h (by decide))

theorem modest_roundRatio {n : Nat} (h : n ≤ wordLimit) : Modest (roundRatio n 1) :=
  roundRatio_le (k := 64) Nat.one_pos (h.trans (by decide))

theorem le_ratio_powerOfTen {j n : Nat} (hj : j ≤ 1026) (h : 2 ^ j ≤ 10 ^ n) :
    2 ^ j * (ratio (powerOfTen n)).2 ≤ 4 * (ratio (powerOfTen n)).1 :=
  le_ratio (le_roundRatio Nat.one_pos hj ((Nat.mul_one _).trans_le h))

theorem Modest.divideDown {m : Nat} (h : Modest m) (steps : Nat) : Modest (divideDown m steps) := by
  induction steps generalizing m with
  | zero => exact h
  | succ steps ih =>
    rw [Scaled.divideDown]
    split
    · exact Nat.zero_le _
    · have hpower : 2 ^ 68 ≤ 10 ^ largestPower :=
        (Nat.pow_le_pow_left (by decide) 68).trans (Nat.pow_le_pow_right (by decide) (by decide))
      have hdiv : divMagnitude m (powerOfTen largestPower) ≤ (0 + 1028) * fractionCount :=
        divMagnitude_le h.ratio_le (le_ratio_powerOfTen (by decide) hpower)
      exact ih (hdiv.trans (Nat.mul_le_mul_right _ (by decide)))

/-- **A magnitude that the quick reading gives is finite.** -/
theorem magnitude?_lt {s : Scaled} {m : Nat} (hs : s.significand ≤ wordLimit)
    (h : s.magnitude? = some m) : m < infinityMagnitude := by
  unfold magnitude? at h
  dsimp only at h
  split at h
  · cases h
    decide
  split at h
  · split at h
    · cases h
    · split at h
      · next hlt =>
        cases h
        exact hlt
      · cases h
  · cases h
    have hmodest := (modest_roundRatio hs).divideDown ((s.exponent.natAbs - 1) / largestPower)
    refine lt_of_le_of_lt (divMagnitude_le (j := 0) (k := 68) hmodest.ratio_le
      (le_ratio_powerOfTen (by decide) (Nat.one_le_pow _ _ (by decide)))) (by decide)

/-! ### Significands fit a word -/

theorem significand_addWhole {s : Scaled} (h : s.significand ≤ wordLimit) (ds : List Char) :
    (s.addWhole ds).significand ≤ wordLimit := by
  induction ds generalizing s with
  | nil => exact h
  | cons c rest ih =>
    rw [addWhole]
    split
    · exact h
    · next hfits => exact ih (Nat.le_of_not_lt hfits)

theorem significand_addFraction {s : Scaled} (h : s.significand ≤ wordLimit) (ds : List Char) :
    (s.addFraction ds).significand ≤ wordLimit := by
  induction ds generalizing s with
  | nil => exact h
  | cons c rest ih =>
    rw [addFraction]
    split
    · exact h
    · next hfits => exact ih (Nat.le_of_not_lt hfits)

theorem significand_ofDigits (whole fraction : List Char) :
    (ofDigits whole fraction).significand ≤ wordLimit :=
  significand_addFraction (significand_addWhole (Nat.zero_le _) whole) fraction

end Decimal.Scaled

end ExtractionContract
