import ExtractionContract.Proofs.Decimal.Neighbours
import Mathlib.Data.Nat.Cast.Order.Field
import Mathlib.Tactic.FieldSimp

/-!
# The shortest numeral reads back

The search for the shortest numeral of a number tries one digit, then two, up to seventeen, and
takes the first count for which one of the two decimals around the number reads back as it.
Seventeen digits always suffice (`exists_holds`): the leading power of ten is not above the
number (`leadingPower_le`), so that decimals of seventeen digits lie closer together than the
midpoints do.

* `exists_shortest`: the numeral found reads back as the number.
-/

namespace ExtractionContract

namespace Decimal

open Binary64

/-! ### Powers with integer exponents -/

theorem zpow_eq_div {b : ℚ} (hb : b ≠ 0) (k : Int) : b ^ k = b ^ k.toNat / b ^ (-k).toNat := by
  rw [← zpow_natCast, ← zpow_natCast, ← zpow_sub₀ hb]
  congr 1
  omega

theorem timesPowerOfTwo_ratio (n : Nat) (e : Int) :
    ((timesPowerOfTwo n e).1 : ℚ) / (timesPowerOfTwo n e).2 = n * 2 ^ e := by
  rw [zpow_eq_div two_ne_zero]
  unfold timesPowerOfTwo twoTo
  split
  · next h => simp [Int.toNat_of_nonpos (Int.neg_nonpos_of_nonneg h)]
  · next h => simp [Int.toNat_of_nonpos (Int.le_of_not_le h), div_eq_mul_inv]

theorem timesPowerOfTwo_num_pos {n : Nat} (hn : 0 < n) (e : Int) :
    0 < (timesPowerOfTwo n e).1 := by
  unfold timesPowerOfTwo
  split
  · exact Nat.mul_pos hn (twoTo_pos _)
  · exact hn

theorem timesPowerOfTwo_den_pos (n : Nat) (e : Int) : 0 < (timesPowerOfTwo n e).2 := by
  unfold timesPowerOfTwo
  split
  · exact Nat.one_pos
  · exact twoTo_pos _

/-! ### Surroundings as rational numbers -/

namespace Surroundings

/-- The lower midpoint. -/
def low (s : Surroundings) : ℚ := s.below / s.denominator

/-- The number. -/
def mid (s : Surroundings) : ℚ := s.here / s.denominator

/-- The upper midpoint. -/
def high (s : Surroundings) : ℚ := s.above / s.denominator

/-- A rational number between the midpoints, or on one of them when they count. -/
def Reads (s : Surroundings) (r : ℚ) : Prop :=
  (s.low < r ∧ r < s.high) ∨ (s.closed = true ∧ (r = s.low ∨ r = s.high))

theorem holds_iff {s : Surroundings} (hden : 0 < s.denominator) (n : Nat) :
    s.holds n = true ↔ s.Reads n := by
  have hden' : (0 : ℚ) < s.denominator := Nat.cast_pos.mpr hden
  unfold holds Reads low high
  simp only [Bool.or_eq_true, Bool.and_eq_true, decide_eq_true_eq, beq_iff_eq]
  rw [div_lt_iff₀ hden', lt_div_iff₀ hden', eq_div_iff hden'.ne', eq_div_iff hden'.ne']
  norm_cast

/-! ### Moving the unit -/

/-- Each of the three numbers over the grid's unit. -/
theorem grid_eq (s : Surroundings) (power : Int) (count : Nat) :
    let unit := (10 : ℚ) ^ ((count : Int) - 1 - power)
    (s.grid power count).low = s.low * unit ∧ (s.grid power count).mid = s.mid * unit ∧
      (s.grid power count).high = s.high * unit := by
  dsimp only
  rw [zpow_eq_div (by norm_num)]
  unfold grid low mid high tenTo
  dsimp only
  split
  · next h =>
    rw [Int.toNat_of_nonpos (Int.neg_nonpos_of_nonneg h)]
    simp only [Nat.cast_mul, Nat.pow_eq, Nat.cast_pow, Nat.cast_ofNat, pow_zero, div_one]
    refine ⟨?_, ?_, ?_⟩ <;> ring
  · next h =>
    rw [Int.toNat_of_nonpos (Int.le_of_not_le h)]
    simp only [Nat.cast_mul, Nat.pow_eq, Nat.cast_pow, Nat.cast_ofNat, pow_zero]
    refine ⟨?_, ?_, ?_⟩ <;> field_simp

theorem grid_den_pos {s : Surroundings} (hden : 0 < s.denominator) (power : Int) (count : Nat) :
    0 < (s.grid power count).denominator := by
  unfold grid
  dsimp only
  split
  · exact hden
  · exact Nat.mul_pos hden (tenTo_pos _)

theorem grid_closed (s : Surroundings) (power : Int) (count : Nat) :
    (s.grid power count).closed = s.closed := by
  unfold grid
  dsimp only
  split <;> rfl

/-- An integer of the grid stands for that many units. -/
theorem grid_reads_iff (s : Surroundings) (power : Int) (count n : Nat) :
    (s.grid power count).Reads n ↔ s.Reads (n * 10 ^ (power + 1 - count)) := by
  obtain ⟨hlow, -, hhigh⟩ := s.grid_eq power count
  have hunit : (0 : ℚ) < 10 ^ ((count : Int) - 1 - power) := by positivity
  have hinv : (10 : ℚ) ^ (power + 1 - (count : Int)) = (10 ^ ((count : Int) - 1 - power))⁻¹ := by
    rw [← zpow_neg]
    congr 1
    omega
  rw [Reads, Reads, hlow, hhigh, grid_closed, hinv, ← div_eq_mul_inv, lt_div_iff₀ hunit,
    div_lt_iff₀ hunit, div_eq_iff hunit.ne', div_eq_iff hunit.ne']

/-! ### The two decimals around a number -/

theorem holds_of_nearest? {s : Surroundings} {n : Nat} (h : s.nearest? = some n) :
    s.holds n = true := by
  unfold nearest? at h
  dsimp only at h
  split at h
  · next hlow hhigh =>
    split at h
    · exact Option.some.inj h ▸ hlow
    · exact Option.some.inj h ▸ hhigh
  · next hlow _ => exact Option.some.inj h ▸ hlow
  · next _ hhigh => exact Option.some.inj h ▸ hhigh
  · cases h

theorem exists_nearest? {s : Surroundings}
    (h : s.holds (s.here / s.denominator) = true ∨ s.holds (s.here / s.denominator + 1) = true) :
    ∃ n, s.nearest? = some n := by
  unfold nearest?
  dsimp only
  split
  · exact ⟨_, rfl⟩
  · exact ⟨_, rfl⟩
  · exact ⟨_, rfl⟩
  · next hlow hhigh => rcases h with h | h <;> simp_all

/-- If both midpoints are more than half a unit away, one of the two decimals around the number
lies between them. -/
theorem exists_nearest?_of_half {s : Surroundings} (hden : 0 < s.denominator)
    (hlow : s.low < s.mid - 1 / 2) (hhigh : s.mid + 1 / 2 < s.high) :
    ∃ n, s.nearest? = some n := by
  have hfloor : ((s.here / s.denominator : Nat) : ℚ) ≤ s.mid := Nat.cast_div_le
  have hnext : s.mid < (s.here / s.denominator : Nat) + 1 := by
    rw [mid, div_lt_iff₀ (Nat.cast_pos.mpr hden)]
    exact_mod_cast Nat.lt_mul_of_div_lt (Nat.lt_succ_self _) hden
  refine exists_nearest? ?_
  rw [holds_iff hden, holds_iff hden]
  -- The nearer of the two decimals is at most half a unit away.
  rcases le_or_gt s.mid ((s.here / s.denominator : Nat) + 1 / 2) with h | h
  · exact .inl (.inl ⟨by linarith, by linarith⟩)
  · refine .inr (.inl ⟨?_, ?_⟩) <;> push_cast <;> linarith

end Surroundings

/-! ### The surroundings of a number -/

theorem unit_of (m : Nat) :
    ((timesPowerOfTwo 1 (scale m - 2)).1 : ℚ) / (timesPowerOfTwo 1 (scale m - 2)).2 =
      2 ^ (scale m - 2) := by
  rw [timesPowerOfTwo_ratio, Nat.cast_one, one_mul]

/-- The number, in quarters of the last bit's weight. -/
theorem mid_of (m : Nat) :
    (Surroundings.of m).mid = (4 * significand m : Nat) * 2 ^ (scale m - 2) := by
  rw [Surroundings.mid, Surroundings.of, Nat.cast_mul, mul_div_assoc, unit_of]

theorem low_of (m : Nat) : (Surroundings.of m).low = lowEnd m := by
  rw [Surroundings.low, Surroundings.of, Nat.cast_mul, mul_div_assoc, unit_of]
  rfl

theorem high_of (m : Nat) : (Surroundings.of m).high = highEnd m := by
  rw [Surroundings.high, Surroundings.of, Nat.cast_mul, mul_div_assoc, unit_of]
  rfl

theorem den_of_pos (m : Nat) : 0 < (Surroundings.of m).denominator :=
  timesPowerOfTwo_den_pos 1 (scale m - 2)

theorem reads_of_iff (m : Nat) (r : ℚ) : (Surroundings.of m).Reads r ↔ ReadsBack m r := by
  have hclosed : (Surroundings.of m).closed = (significand m % 2 == 0) := rfl
  rw [Surroundings.Reads, ReadsBack, low_of, high_of, hclosed, beq_iff_eq]

/-- The lower midpoint is at least two to the minus fifty-four of the number away. -/
theorem lowEnd_far {m : Nat} (hm : 0 < m) :
    lowEnd m ≤ (Surroundings.of m).mid * (1 - 1 / 2 ^ 54) := by
  have hpos := significand_pos hm
  have hlt : (significand m : ℚ) < 2 ^ 53 := by exact_mod_cast significand_lt m
  rw [mid_of, lowEnd, mul_right_comm]
  refine mul_le_mul_of_nonneg_right ?_ (by positivity)
  split
  · -- The narrow gap belongs to a significand of exactly fifty-three bits.
    next hnarrow =>
    obtain ⟨hmod, hlarge⟩ := (isNarrow_iff m).mp hnarrow
    have hsig : significand m = 2 ^ 52 := by
      rw [significand, if_neg hlarge.not_gt, hmod, Nat.add_zero, fractionCount_eq]
    rw [hsig]
    norm_num
  · rw [Nat.cast_sub (by omega)]
    push_cast
    linarith

/-- The upper midpoint is more than two to the minus fifty-four of the number away. -/
theorem highEnd_far (m : Nat) :
    (Surroundings.of m).mid * (1 + 1 / 2 ^ 54) < highEnd m := by
  have hlt : (significand m : ℚ) < 2 ^ 53 := by exact_mod_cast significand_lt m
  rw [mid_of, highEnd, mul_right_comm]
  refine mul_lt_mul_of_pos_right ?_ (by positivity)
  push_cast
  linarith

/-! ### The leading power of ten -/

/-- Powers of ten and of two are compared by their exponents, given how some power of ten
compares with one of two. -/
theorem ten_zpow_le_two_zpow {k j : Int} {p q : Nat} (hp : p ≠ 0)
    (h : ((10 : ℚ) ^ p) ^ k ≤ (2 ^ q) ^ k) (hj : q * k ≤ p * j) : (10 : ℚ) ^ k ≤ 2 ^ j := by
  refine le_of_pow_le_pow_left₀ hp (by positivity) ?_
  calc ((10 : ℚ) ^ k) ^ p = (10 ^ p) ^ k := by rw [← zpow_natCast, ← zpow_natCast, zpow_comm]
    _ ≤ (2 ^ q) ^ k := h
    _ = 2 ^ (q * k) := by rw [← zpow_natCast, ← zpow_mul]
    _ ≤ 2 ^ (p * j) := zpow_le_zpow_right₀ one_le_two hj
    _ = (2 ^ j) ^ p := by rw [mul_comm, zpow_mul, zpow_natCast]

/-- One less than the guess of the leading power of ten is never too much, in the range of the
finite numbers. -/
theorem ten_zpow_guess_le {gap : Int} (hlow : -1100 ≤ gap) (hhigh : gap < 1100) :
    (10 : ℚ) ^ (gap * 30103 / 100000 - 1) ≤ 2 ^ (gap - 1) := by
  -- The decimal logarithm of two lies between 59/196 and 28/93, which is near enough.
  rcases le_total 0 (gap * 30103 / 100000 - 1) with hpos | hneg
  · have h : (10 : ℚ) ^ 59 ≤ 2 ^ 196 := by norm_num
    exact ten_zpow_le_two_zpow (by decide) (zpow_le_zpow_left₀ hpos (by positivity) h) (by omega)
  · obtain ⟨n, hn⟩ := Int.eq_ofNat_of_zero_le (Int.neg_nonneg_of_nonpos hneg)
    have h : (2 : ℚ) ^ 93 ≤ 10 ^ 28 := by norm_num
    have hinv : ((10 : ℚ) ^ 28) ^ (-(n : Int)) ≤ (2 ^ 93) ^ (-(n : Int)) := by
      rw [zpow_neg, zpow_neg, zpow_natCast, zpow_natCast]
      exact inv_anti₀ (by positivity) (pow_le_pow_left₀ (by positivity) h n)
    rw [show gap * 30103 / 100000 - 1 = -(n : Int) by omega]
    exact ten_zpow_le_two_zpow (by decide) hinv (by omega)

/-- A ratio is at least the power of two below the difference of the logarithms. -/
theorem two_zpow_le_ratio {num den : Nat} (hnum : 0 < num) (hden : 0 < den) :
    (2 : ℚ) ^ ((Nat.log2 num : Int) - Nat.log2 den - 1) ≤ num / den := by
  have hlow : (2 ^ Nat.log2 num : ℚ) ≤ num := by exact_mod_cast Nat.log2_self_le hnum.ne'
  have hhigh : (den : ℚ) ≤ 2 ^ (Nat.log2 den + 1) := by
    exact_mod_cast (Nat.lt_log2_self (n := den)).le
  calc (2 : ℚ) ^ ((Nat.log2 num : Int) - Nat.log2 den - 1)
      = 2 ^ Nat.log2 num / 2 ^ (Nat.log2 den + 1) := by
        rw [← zpow_natCast, ← zpow_natCast, ← zpow_sub₀ two_ne_zero]
        congr 1
        omega
    _ ≤ num / den := by gcongr

/-- **The leading power of ten is not above the number.** -/
theorem leadingPower_le {num den : Nat} (hnum : 0 < num) (hden : 0 < den)
    (hlow : -1100 ≤ (Nat.log2 num : Int) - Nat.log2 den)
    (hhigh : (Nat.log2 num : Int) - Nat.log2 den < 1100) :
    (10 : ℚ) ^ leadingPower num den ≤ num / den := by
  have hden' : (0 : ℚ) < den := Nat.cast_pos.mpr hden
  unfold leadingPower
  extract_lets guess reaches
  -- The first two guesses were compared with the number; the third is one less than the guess.
  have hreaches : ∀ p : Int, reaches p = true → (10 : ℚ) ^ p ≤ num / den := by
    intro p hp
    rw [zpow_eq_div (by norm_num), div_le_div_iff₀ (by positivity) hden']
    unfold reaches at hp
    split at hp
    · next h =>
      rw [Int.toNat_of_nonpos (Int.neg_nonpos_of_nonneg h), pow_zero, mul_one, mul_comm]
      exact_mod_cast of_decide_eq_true hp
    · next h =>
      rw [Int.toNat_of_nonpos (Int.le_of_not_le h), pow_zero, one_mul]
      exact_mod_cast of_decide_eq_true hp
  split
  · next h => exact hreaches _ h
  split
  · next h => exact hreaches _ h
  · exact (ten_zpow_guess_le hlow hhigh).trans (two_zpow_le_ratio hnum hden)

/-! ### Seventeen digits suffice -/

theorem log2_mul_twoTo {n : Nat} (hn : 0 < n) (k : Nat) :
    Nat.log2 (n * twoTo k) = Nat.log2 n + k := by
  induction k with
  | zero => exact congrArg Nat.log2 (Nat.mul_one n)
  | succ k ih =>
    have hdouble : n * twoTo (k + 1) = 2 * (n * twoTo k) := by
      simp only [twoTo, Nat.pow_eq]
      ring
    rw [hdouble, Nat.log2_two_mul (Nat.mul_pos hn (twoTo_pos k)).ne', ih, Nat.add_assoc]

/-- The difference of the logarithms of a number times a power of two. -/
theorem log2_gap {n : Nat} (hn : 0 < n) (e : Int) :
    (Nat.log2 (n * (timesPowerOfTwo 1 e).1) : Int) - Nat.log2 (timesPowerOfTwo 1 e).2 =
      Nat.log2 n + e := by
  have hone : Nat.log2 1 = 0 := by decide
  unfold timesPowerOfTwo
  split
  · rw [Nat.one_mul, log2_mul_twoTo hn, hone]
    omega
  · rw [Nat.mul_one, ← Nat.one_mul (twoTo _), log2_mul_twoTo Nat.one_pos, hone]
    omega

/-- The leading power of ten of a finite number is not above it. -/
theorem leadingPower_of_le {m : Nat} (hm : 0 < m) (hfin : m < infinityMagnitude) :
    let s := Surroundings.of m
    (10 : ℚ) ^ leadingPower s.here s.denominator ≤ s.mid := by
  have hsig : 0 < 4 * significand m := Nat.mul_pos (by decide) (significand_pos hm)
  have hlog : Nat.log2 (4 * significand m) < 55 :=
    (Nat.log2_lt hsig.ne').mpr (by have := significand_lt m; omega)
  have hdiv : m / fractionCount < 2047 :=
    Nat.div_lt_of_lt_mul (by rwa [Nat.mul_comm])
  have hscale : -1074 ≤ scale m ∧ scale m ≤ 971 := by
    unfold scale
    omega
  have hgap : (Nat.log2 (Surroundings.of m).here : Int) -
      Nat.log2 (Surroundings.of m).denominator = Nat.log2 (4 * significand m) + (scale m - 2) :=
    log2_gap hsig (scale m - 2)
  exact leadingPower_le (Nat.mul_pos hsig (timesPowerOfTwo_num_pos Nat.one_pos _)) (den_of_pos m)
    (by omega) (by omega)

/-- **Seventeen digits suffice.** -/
theorem exists_nearest?_seventeen {m : Nat} (hm : 0 < m) (hfin : m < infinityMagnitude) :
    let s := Surroundings.of m
    ∃ n, (s.grid (leadingPower s.here s.denominator) 17).nearest? = some n := by
  dsimp only
  have hpower := leadingPower_of_le hm hfin
  dsimp only at hpower
  generalize leadingPower (Surroundings.of m).here (Surroundings.of m).denominator = power at *
  obtain ⟨hlow, hmid, hhigh⟩ := (Surroundings.of m).grid_eq power 17
  have hunit : (0 : ℚ) < 10 ^ (((17 : Nat) : Int) - 1 - power) := by positivity
  -- With seventeen digits, the number is at least ten to the sixteenth units, of which two to the
  -- minus fifty-four is more than half a unit.
  have hlarge : (10 : ℚ) ^ 16 ≤ ((Surroundings.of m).grid power 17).mid := by
    calc (10 : ℚ) ^ 16 = 10 ^ power * 10 ^ (((17 : Nat) : Int) - 1 - power) := by
          rw [← zpow_add₀ (by norm_num), ← zpow_natCast]
          congr 1
          omega
      _ ≤ (Surroundings.of m).mid * 10 ^ (((17 : Nat) : Int) - 1 - power) :=
          mul_le_mul_of_nonneg_right hpower hunit.le
      _ = ((Surroundings.of m).grid power 17).mid := hmid.symm
  have hlow' : ((Surroundings.of m).grid power 17).low ≤
      ((Surroundings.of m).grid power 17).mid * (1 - 1 / 2 ^ 54) := by
    rw [hlow, hmid, low_of, mul_right_comm]
    exact mul_le_mul_of_nonneg_right (lowEnd_far hm) hunit.le
  have hhigh' : ((Surroundings.of m).grid power 17).mid * (1 + 1 / 2 ^ 54) <
      ((Surroundings.of m).grid power 17).high := by
    rw [hhigh, hmid, high_of, mul_right_comm]
    exact mul_lt_mul_of_pos_right (highEnd_far m) hunit
  exact Surroundings.exists_nearest?_of_half (Surroundings.grid_den_pos (den_of_pos m) power 17)
    (by linarith) (by linarith)

/-- **The shortest numeral reads back**: its digits are those of an integer that, times a power
of ten, reads back as the number. -/
theorem exists_shortest {m : Nat} (hm : 0 < m) (hfin : m < infinityMagnitude) :
    ∃ (n : Nat) (power : Int) (count : Nat), shortest m = Digits.ofGrid n power count ∧
      ReadsBack m (n * 10 ^ (power + 1 - count)) := by
  obtain ⟨n, hn⟩ := exists_nearest?_seventeen hm hfin
  unfold shortest
  extract_lets s power found
  have hfound : found.isSome = true :=
    List.findSome?_isSome_iff.mpr ⟨16, by decide, by simp only [s, power, hn]; rfl⟩
  obtain ⟨d, hd⟩ := Option.isSome_iff_exists.mp hfound
  obtain ⟨i, -, hi⟩ := List.exists_of_findSome?_eq_some hd
  obtain ⟨n, hnearest, rfl⟩ := Option.map_eq_some_iff.mp hi
  have hholds := (Surroundings.holds_iff (Surroundings.grid_den_pos (den_of_pos m) power _) n).mp
    (Surroundings.holds_of_nearest? hnearest)
  exact ⟨n, power, i + 1, by rw [hd, Option.getD_some],
    (reads_of_iff m _).mp ((Surroundings.grid_reads_iff s power _ n).mp hholds)⟩

end Decimal

end ExtractionContract
