import Mathlib
import Pinyon.Library.Rounding
import Pinyon.Pine.TwoMath

namespace Pinyon
namespace Pine

open Library.Rounding

/-!
# Rounding to powers of two

The literal that `align_down_to_power` shifts has 32 bits, whatever the width of the
operand.  The position of the highest one is found at every width, but the shift to
that position is defined just below `2 ^ 32`; there both roundings are right.
-/

variable {width value : Nat}

theorem bitWidth_zero (width : Nat) : bitWidth width 0 = 0 := by
  cases width with
  | zero => rfl
  | succ width => simp [bitWidth, bitWidthLoop]

/-- The loop finds the number of significant bits. -/
theorem bitWidth_size (small : value < 2 ^ width) : bitWidth width value = Nat.size value := by
  by_cases zero : value = 0
  · rw [zero, bitWidth_zero, Nat.size_zero]
  · rw [bitWidth_eq small zero]
    apply Nat.le_antisymm
    · exact Nat.lt_size.mpr (Nat.log2_self_le zero)
    · exact Nat.size_le.mpr Nat.lt_log2_self

/-! ## The limit of the literal -/

/-- Beyond the limit the shift reaches the width of the literal. -/
theorem alignDownToPower_beyond (small : value < 2 ^ width) (beyond : 2 ^ 32 ≤ value) :
    alignDownToPower width value = none := by
  have nonzero : value ≠ 0 := by omega
  have shift : ¬value.log2 < 32 := by
    rw [Nat.log2_lt nonzero]
    exact Nat.not_lt.mpr beyond
  rw [alignDownToPower, if_neg nonzero, bitWidth_eq small nonzero, Nat.add_sub_cancel, if_neg shift]

/-! ## Every width -/

/-- The three functions are right about one word: the count of significant bits, the
greatest power below, with nothing but zero below zero, and the least power above as
far as the width has it. -/
structure RoundsRight (width value : Nat) : Prop where
  significant : bitWidth width value = Nat.size value
  down : Exists fun result => alignDownToPower width value = some result ∧
    (value = 0 -> result = 0) ∧ (value ≠ 0 -> RoundsDown (powers 2) value result)
  up : Exists fun result => alignUpToPower width value = some result ∧
    (value = 0 -> result = 1) ∧
    forall power, RoundsUp (powers 2) value power -> power < 2 ^ width -> result = power

theorem roundsUp_powers_zero : RoundsUp (powers 2) 0 1 := by
  refine ⟨⟨⟨0, rfl⟩, Nat.zero_le 1⟩, ?_⟩
  rintro mark ⟨⟨exponent, rfl⟩, -⟩
  exact Nat.one_le_two_pow

theorem roundsRight_zero (width : Nat) : RoundsRight width 0 where
  significant := by rw [bitWidth_zero, Nat.size_zero]
  down := by
    refine ⟨0, by simp [alignDownToPower], fun _ => rfl, ?_⟩
    intro nonzero
    exact absurd rfl nonzero
  up := by
    refine ⟨1, by simp [alignUpToPower], fun _ => rfl, ?_⟩
    intro power rounds _
    exact roundsUp_powers_zero.unique rounds

theorem roundsRight_of_lt (small : value < 2 ^ width) (nonzero : value ≠ 0)
    (below : value < 2 ^ 32) : RoundsRight width value where
  significant := bitWidth_size small
  down := by
    refine ⟨_, alignDownToPower_eq small nonzero below, fun zero => absurd zero nonzero, ?_⟩
    intro _
    rw [Nat.log2_eq_log_two]
    exact roundsDown_powers Nat.one_lt_two nonzero
  up := by
    refine ⟨_, alignUpToPower_eq small nonzero below, fun zero => absurd zero nonzero, ?_⟩
    intro power rounds isWord
    rw [Nat.log2_eq_log_two]
    by_cases same : 2 ^ Nat.log 2 value = value
    · rw [if_pos same]
      have marked : value ∈ powers 2 := ⟨_, same⟩
      exact (roundsUp_self marked).unique rounds
    · have next := (roundsUp_powers Nat.one_lt_two nonzero same).unique rounds
      rw [if_neg same, next, Nat.mod_eq_of_lt isWord]

/-- Words of up to 32 bits are all below the limit, longer ones are not. -/
theorem roundsRight_iff (width : Nat) (value : BitVec width) :
    RoundsRight width value.toNat <-> value.toNat < 2 ^ 32 := by
  constructor
  · intro right
    by_contra beyond
    rcases right.down with ⟨result, defined, -⟩
    rw [alignDownToPower_beyond value.isLt (Nat.le_of_not_lt beyond)] at defined
    cases defined
  · intro below
    by_cases zero : value.toNat = 0
    · rw [zero]
      exact roundsRight_zero width
    · exact roundsRight_of_lt value.isLt zero below

theorem roundsRight_not_size_t : ¬RoundsRight 64 (2 ^ 32) := by
  intro right
  rcases right.down with ⟨result, defined, -⟩
  rw [alignDownToPower_beyond (by decide) (Nat.le_refl _)] at defined
  cases defined

end Pine
end Pinyon
