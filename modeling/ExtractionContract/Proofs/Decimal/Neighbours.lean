import ExtractionContract.Decimal.Shortest
import ExtractionContract.Proofs.Decimal.Bounds
import Mathlib.Algebra.Order.Field.Power
import Mathlib.Order.Monotone.Basic
import Mathlib.Tactic.Linarith
import Mathlib.Tactic.NormNum

/-!
# Numbers and the midpoints to their neighbours

A decimal reads back as a number when it lies between the midpoints to the number's neighbours,
or on one of them when the number's significand is even. The midpoint above a number is the
midpoint below the next (`highEnd_eq_lowEnd_succ`), and of two neighbours at most one has an even
significand, so a decimal reads back as one number only (`ReadsBack.unique`).
-/

namespace ExtractionContract

namespace Binary64

/-! ### Midpoints -/

/-- Whether the gap below a magnitude is half the gap above it. -/
def isNarrow (m : Nat) : Bool :=
  m % fractionCount == 0 && fractionCount < m

/-- The midpoint between a magnitude's number and the one below. -/
def lowEnd (m : Nat) : ℚ :=
  ((4 * significand m - if isNarrow m then 1 else 2 : Nat) : ℚ) * 2 ^ (scale m - 2)

/-- The midpoint between a magnitude's number and the one above. -/
def highEnd (m : Nat) : ℚ :=
  ((4 * significand m + 2 : Nat) : ℚ) * 2 ^ (scale m - 2)

theorem lowEnd_lt_highEnd (m : Nat) : lowEnd m < highEnd m := by
  refine mul_lt_mul_of_pos_right (Nat.cast_lt.mpr ?_) (by positivity)
  omega

theorem significand_pos {m : Nat} (hm : 0 < m) : 0 < significand m := by
  unfold significand
  split
  · exact hm
  · exact Nat.add_pos_left (twoTo_pos 52) _

theorem lowEnd_pos {m : Nat} (hm : 0 < m) : 0 < lowEnd m := by
  have hsig := significand_pos hm
  refine mul_pos (Nat.cast_pos.mpr ?_) (by positivity)
  split <;> omega

theorem isNarrow_iff (m : Nat) :
    isNarrow m = true ↔ m % fractionCount = 0 ∧ fractionCount < m := by
  simp [isNarrow]

/-- From one magnitude to the next, the significand grows by one, or it starts again at the
smallest one with twice the unit. -/
theorem significand_succ (m : Nat) :
    (significand (m + 1) = significand m + 1 ∧ scale (m + 1) = scale m ∧
      isNarrow (m + 1) = false) ∨
    (significand m = 2 * fractionCount - 1 ∧ significand (m + 1) = fractionCount ∧
      scale (m + 1) = scale m + 1 ∧ isNarrow (m + 1) = true) := by
  have hF : fractionCount = 4503599627370496 := rfl
  rw [← Bool.not_eq_true, isNarrow_iff]
  unfold significand scale
  rw [hF]
  by_cases hcarry : (m + 1) % 4503599627370496 = 0 ∧ 4503599627370496 ≤ m
  · refine .inr ⟨?_, ?_, by omega, by omega⟩ <;> rw [if_neg (by omega)] <;> omega
  · refine .inl ⟨?_, by omega, by omega⟩
    split <;> split <;> omega

/-- **The midpoint above a number** is the midpoint below the next. -/
theorem highEnd_eq_lowEnd_succ (m : Nat) : highEnd m = lowEnd (m + 1) := by
  unfold highEnd lowEnd
  rcases significand_succ m with ⟨hsig, hscale, hnarrow⟩ | ⟨hsig, hsig', hscale, hnarrow⟩
  · rw [hsig, hscale, hnarrow, if_neg Bool.false_ne_true]
    congr 2
  · have hunit : (2 : ℚ) ^ (scale m + 1 - 2) = 2 * 2 ^ (scale m - 2) := by
      rw [show scale m + 1 - 2 = 1 + (scale m - 2) by omega, zpow_add₀ two_ne_zero, zpow_one]
    rw [hsig, hsig', hscale, hnarrow, if_pos rfl, hunit, ← mul_assoc]
    congr 1
    norm_num [fractionCount, twoTo]

theorem lowEnd_strictMono : StrictMono lowEnd :=
  strictMono_nat_of_lt_succ fun m => highEnd_eq_lowEnd_succ m ▸ lowEnd_lt_highEnd m

/-- Of two neighbours at most one has an even significand. -/
theorem odd_significand_succ {m : Nat} (h : significand m % 2 = 0) :
    significand (m + 1) % 2 = 1 := by
  have hF : fractionCount = 4503599627370496 := rfl
  rcases significand_succ m with ⟨hsig, -, -⟩ | ⟨hsig, -, -, -⟩ <;> omega

/-! ### Reading back -/

/-- A rational number is nearer to a magnitude's number than to any other, or as near and the
significand is even. -/
def ReadsBack (m : Nat) (r : ℚ) : Prop :=
  (lowEnd m < r ∧ r < highEnd m) ∨
    (significand m % 2 = 0 ∧ (r = lowEnd m ∨ r = highEnd m))

theorem ReadsBack.lowEnd_le {m : Nat} {r : ℚ} (h : ReadsBack m r) : lowEnd m ≤ r := by
  rcases h with ⟨hlow, -⟩ | ⟨-, rfl | rfl⟩
  · exact hlow.le
  · exact le_rfl
  · exact (lowEnd_lt_highEnd m).le

theorem ReadsBack.le_highEnd {m : Nat} {r : ℚ} (h : ReadsBack m r) : r ≤ highEnd m := by
  rcases h with ⟨-, hhigh⟩ | ⟨-, rfl | rfl⟩
  · exact hhigh.le
  · exact (lowEnd_lt_highEnd m).le
  · exact le_rfl

/-- On a midpoint only an even significand reads back. -/
theorem ReadsBack.even {m : Nat} {r : ℚ} (h : ReadsBack m r) (hr : r = lowEnd m ∨ r = highEnd m) :
    significand m % 2 = 0 := by
  rcases h with ⟨hlow, hhigh⟩ | ⟨heven, -⟩
  · rcases hr with rfl | rfl
    · exact absurd hlow (lt_irrefl _)
    · exact absurd hhigh (lt_irrefl _)
  · exact heven

theorem ReadsBack.not_lt {m m' : Nat} {r : ℚ} (h : ReadsBack m r) (h' : ReadsBack m' r) :
    ¬m < m' := by
  intro hlt
  -- A number and a later one share a decimal only on the midpoint of two neighbours.
  have hmid : highEnd m ≤ lowEnd m' :=
    highEnd_eq_lowEnd_succ m ▸ lowEnd_strictMono.monotone hlt
  have hhigh : r = highEnd m := le_antisymm h.le_highEnd (hmid.trans h'.lowEnd_le)
  have hlow : r = lowEnd m' := le_antisymm (h.le_highEnd.trans hmid) h'.lowEnd_le
  have hnext : m + 1 = m' :=
    lowEnd_strictMono.injective (by rw [← highEnd_eq_lowEnd_succ, ← hhigh, hlow])
  have hodd := odd_significand_succ (h.even (.inr hhigh))
  rw [hnext, h'.even (.inl hlow)] at hodd
  exact absurd hodd (by decide)

/-- **A decimal reads back as one number only.** -/
theorem ReadsBack.unique {m m' : Nat} {r : ℚ} (h : ReadsBack m r) (h' : ReadsBack m' r) :
    m = m' :=
  Nat.le_antisymm (Nat.le_of_not_lt (h'.not_lt h)) (Nat.le_of_not_lt (h.not_lt h'))

theorem ReadsBack.pos {m : Nat} {r : ℚ} (hm : 0 < m) (h : ReadsBack m r) : 0 < r :=
  (lowEnd_pos hm).trans_le h.lowEnd_le

end Binary64

end ExtractionContract
