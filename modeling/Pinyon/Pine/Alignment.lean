import Mathlib
import Pinyon.Library.Rounding
import Pinyon.Pine.TwoMath

namespace Pinyon
namespace Pine

open Library Library.Rounding

/-!
# Alignment by masks

The masks of `twomath.hpp` as a caller sees them: rounding to multiples of the
alignment.  Nothing is lost at the top of a word, since the largest multiple in it
still has room for its own alignment.  Zero is rounded up to the alignment and not to
itself, so what words are rounded up to is the positive multiples.
-/

/-- `static_cast<UInt>` of a number of another unsigned type, by which each of the
four functions gets its alignment. -/
def toUInt (width baseTwoNum : Nat) : Nat :=
  baseTwoNum % 2 ^ width

def alignmentUpTwo (width value alignment : Nat) : Nat :=
  if alignment = 0 then 0
  else (alignUpTwo width value alignment + (2 ^ width - value)) % 2 ^ width

def isAlignedTwo (width value alignment : Nat) : Bool :=
  value == 0 || alignmentUpTwo width value alignment == 0

/-- What words are rounded up to. -/
def positiveMultiples (unit : Nat) : Set Nat :=
  multiples unit ∩ Set.Ici 1

variable {width bits value : Nat}

/-! ## Rounding up -/

theorem roundsUp_alignUpTwo (fits : bits ≤ width) (small : value + (2 ^ bits - 1) < 2 ^ width) :
    RoundsUp (positiveMultiples (2 ^ bits)) value (alignUpTwo width value (2 ^ bits)) := by
  have positive : 0 < 2 ^ bits := Nat.two_pow_pos bits
  by_cases zero : value = 0
  · rw [zero, alignUpTwo_zero]
    refine ⟨⟨⟨Nat.dvd_refl _, positive⟩, Nat.zero_le _⟩, ?_⟩
    rintro mark ⟨⟨divides, some⟩, -⟩
    exact Nat.le_of_dvd some divides
  · rw [alignUpTwo_eq fits zero small, positiveMultiples,
      roundsUp_inter_iff (Nat.one_le_iff_ne_zero.mpr zero)]
    exact roundsUp_multiples positive value

/-- A multiple of the alignment that is a word leaves room for the alignment. -/
theorem multiple_fits (fits : bits ≤ width) {mark : Nat} (divides : 2 ^ bits ∣ mark)
    (small : mark < 2 ^ width) : mark + (2 ^ bits - 1) < 2 ^ width := by
  rcases divides with ⟨factor, rfl⟩
  have powers : 2 ^ width = 2 ^ bits * 2 ^ (width - bits) := by
    rw [← Nat.pow_add, Nat.add_sub_cancel' fits]
  have positive : 0 < 2 ^ bits := Nat.two_pow_pos bits
  have below : factor + 1 ≤ 2 ^ (width - bits) := by
    rw [powers] at small
    exact Nat.lt_of_mul_lt_mul_left small
  have room : 2 ^ bits * (factor + 1) ≤ 2 ^ width := by
    rw [powers]
    exact Nat.mul_le_mul_left _ below
  rw [Nat.mul_succ] at room
  omega

theorem alignUpTwo_lt (small : bits < width) (room : value + (2 ^ bits - 1) < 2 ^ width) :
    alignUpTwo width value (2 ^ bits) < 2 ^ width := by
  by_cases zero : value = 0
  · rw [zero, alignUpTwo_zero]
    exact Nat.pow_lt_pow_right Nat.one_lt_two small
  · rw [alignUpTwo_eq (Nat.le_of_lt small) zero room]
    exact Nat.lt_of_le_of_lt (Nat.div_mul_le_self _ _) room

theorem alignUpTwo_again (small : bits < width) (room : value + (2 ^ bits - 1) < 2 ^ width) :
    alignUpTwo width (alignUpTwo width value (2 ^ bits)) (2 ^ bits) =
      alignUpTwo width value (2 ^ bits) := by
  have rounds := roundsUp_alignUpTwo (Nat.le_of_lt small) room
  have still := multiple_fits (Nat.le_of_lt small) rounds.1.1.1 (alignUpTwo_lt small room)
  exact (roundsUp_alignUpTwo (Nat.le_of_lt small) still).unique rounds.again

/-- The difference is taken on words and does not wrap. -/
theorem alignmentUpTwo_eq (small : bits < width) (room : value + (2 ^ bits - 1) < 2 ^ width) :
    alignmentUpTwo width value (2 ^ bits) = alignUpTwo width value (2 ^ bits) - value := by
  have above : value ≤ alignUpTwo width value (2 ^ bits) :=
    (roundsUp_alignUpTwo (Nat.le_of_lt small) room).1.2
  have below := alignUpTwo_lt small room
  have sum : alignUpTwo width value (2 ^ bits) + (2 ^ width - value) =
      alignUpTwo width value (2 ^ bits) - value + 2 ^ width := by omega
  rw [alignmentUpTwo, if_neg (Nat.ne_of_gt (Nat.two_pow_pos bits)), sum, Nat.add_mod_right]
  exact Nat.mod_eq_of_lt (Nat.lt_of_le_of_lt (Nat.sub_le _ _) below)

theorem isAlignedTwo_iff (small : bits < width) (room : value + (2 ^ bits - 1) < 2 ^ width) :
    isAlignedTwo width value (2 ^ bits) = true <-> 2 ^ bits ∣ value := by
  by_cases zero : value = 0
  · simp [isAlignedTwo, zero]
  · have rounds := roundsUp_alignUpTwo (Nat.le_of_lt small) room
    have above : value ≤ alignUpTwo width value (2 ^ bits) := rounds.1.2
    have some : value ∈ Set.Ici 1 := Nat.one_le_iff_ne_zero.mpr zero
    calc isAlignedTwo width value (2 ^ bits) = true
        <-> alignUpTwo width value (2 ^ bits) - value = 0 := by
          simp [isAlignedTwo, zero, alignmentUpTwo_eq small room]
      _ <-> alignUpTwo width value (2 ^ bits) = value := by omega
      _ <-> value ∈ positiveMultiples (2 ^ bits) := rounds.eq_iff
      _ <-> 2 ^ bits ∣ value := ⟨fun member => member.1, fun divides => ⟨divides, some⟩⟩

/-! ## All four functions -/

/-- What a caller of the four functions relies on, at one alignment and one value. -/
structure MasksAgree (width alignment value : Nat) : Prop where
  down : RoundsDown (multiples alignment) value (alignDownTwo width value alignment)
  up : 0 < value -> RoundsUp (multiples alignment) value (alignUpTwo width value alignment)
  upZero : value = 0 -> alignUpTwo width value alignment = alignment
  above : value ≤ alignUpTwo width value alignment
  missing : alignmentUpTwo width value alignment = alignUpTwo width value alignment - value
  aligned : isAlignedTwo width value alignment = true <-> alignment ∣ value
  monotone : forall larger, value ≤ larger -> larger + alignment - 1 < 2 ^ width ->
    alignUpTwo width value alignment ≤ alignUpTwo width larger alignment
  idempotent : alignUpTwo width (alignUpTwo width value alignment) alignment =
    alignUpTwo width value alignment

theorem masks_agree (width bits value : Nat) (isWord : 2 ^ bits < 2 ^ width)
    (room : value + 2 ^ bits - 1 < 2 ^ width) :
    MasksAgree width (toUInt width (2 ^ bits)) value := by
  have positive : 0 < 2 ^ bits := Nat.two_pow_pos bits
  have small : bits < width := (Nat.pow_lt_pow_iff_right Nat.one_lt_two).mp isWord
  have fits : bits ≤ width := Nat.le_of_lt small
  have regroup : forall other, other + 2 ^ bits - 1 < 2 ^ width ->
      other + (2 ^ bits - 1) < 2 ^ width := by omega
  have rounds := roundsUp_alignUpTwo fits (regroup value room)
  rw [toUInt, Nat.mod_eq_of_lt isWord]
  constructor
  case down =>
      rw [alignDownTwo_eq fits (by omega)]
      exact roundsDown_multiples _ value
  case up =>
      intro some
      exact (roundsUp_inter_iff some).mp rounds
  case upZero =>
      rintro rfl
      exact alignUpTwo_zero width _
  case above => exact rounds.1.2
  case missing => exact alignmentUpTwo_eq small (regroup value room)
  case aligned => exact isAlignedTwo_iff small (regroup value room)
  case monotone =>
      intro larger le roomLarger
      exact rounds.mono (roundsUp_alignUpTwo fits (regroup larger roomLarger)) le
  case idempotent => exact alignUpTwo_again small (regroup value room)

/-- The last byte that can be aligned to eight in a word of eight bits. -/
theorem masks_agree_top : 241 + 2 ^ 3 - 1 < 2 ^ 8 ∧ MasksAgree 8 (toUInt 8 (2 ^ 3)) 241 :=
  ⟨by decide, masks_agree 8 3 241 (by decide) (by decide)⟩

end Pine
end Pinyon
