import Mathlib

namespace Pinyon
namespace Library

universe u

/-!
# Rounding to marks

Of the values of an order some are marked.  Rounding down takes a value to the
greatest mark that it reaches, rounding up to the least mark that reaches it.
What holds of every rounding comes first; multiples and powers are the marks that
words are rounded to.
-/

namespace Rounding

def RoundsDown {α : Type u} [Preorder α] (marks : Set α) (value result : α) : Prop :=
  IsGreatest {mark | mark ∈ marks ∧ mark ≤ value} result

def RoundsUp {α : Type u} [Preorder α] (marks : Set α) (value result : α) : Prop :=
  IsLeast {mark | mark ∈ marks ∧ value ≤ mark} result

/-! ## Any marks -/

section Marks

variable {α : Type u} {marks : Set α} {value other result next : α}

theorem RoundsUp.mono [Preorder α] {larger : α} (rounds : RoundsUp marks value result)
    (roundsLarger : RoundsUp marks larger next) (le : value ≤ larger) : result ≤ next :=
  rounds.2 ⟨roundsLarger.1.1, le_trans le roundsLarger.1.2⟩

theorem roundsUp_self [Preorder α] (marked : value ∈ marks) : RoundsUp marks value value :=
  ⟨⟨marked, le_refl value⟩, fun _ above => above.2⟩

/-- Rounding up again leaves a rounded value where it is. -/
theorem RoundsUp.again [Preorder α] (rounds : RoundsUp marks value result) :
    RoundsUp marks result result :=
  roundsUp_self rounds.1.1

theorem RoundsUp.eq_iff [PartialOrder α] (rounds : RoundsUp marks value result) :
    result = value <-> value ∈ marks := by
  constructor
  · intro same
    rw [← same]
    exact rounds.1.1
  · intro marked
    exact rounds.unique (roundsUp_self marked)

/-- Marks below the value do not matter. -/
theorem roundsUp_inter_iff [Preorder α] {floor : α} (le : floor ≤ value) :
    RoundsUp (marks ∩ Set.Ici floor) value result <-> RoundsUp marks value result := by
  have same : {mark | mark ∈ marks ∩ Set.Ici floor ∧ value ≤ mark} =
      {mark | mark ∈ marks ∧ value ≤ mark} := by
    ext mark
    constructor
    · intro above
      exact ⟨above.1.1, above.2⟩
    · intro above
      exact ⟨⟨above.1, le_trans le above.2⟩, above.2⟩
  rw [RoundsUp, RoundsUp, same]

/-- A value that is not marked itself is rounded up to the mark that follows the
one it is rounded down to. -/
theorem RoundsDown.roundsUp [LinearOrder α] (rounds : RoundsDown marks value result)
    (unmarked : value ∉ marks) (marked : next ∈ marks) (further : result < next)
    (gap : forall mark, mark ∈ marks -> result < mark -> next ≤ mark) :
    RoundsUp marks value next := by
  have beyond : forall mark, mark ∈ marks -> result < mark -> value ≤ mark := by
    intro mark member passed
    by_contra below
    exact absurd (rounds.2 ⟨member, le_of_lt (lt_of_not_ge below)⟩) (not_le_of_gt passed)
  refine ⟨⟨marked, beyond next marked further⟩, ?_⟩
  intro mark above
  have strict : value < mark := by
    apply lt_of_le_of_ne above.2
    intro same
    exact unmarked (same ▸ above.1)
  exact gap mark above.1 (lt_of_le_of_lt rounds.1.2 strict)

end Marks

/-! ## Multiples -/

def multiples (unit : Nat) : Set Nat :=
  {mark | unit ∣ mark}

theorem roundsDown_multiples (unit value : Nat) :
    RoundsDown (multiples unit) value (value / unit * unit) := by
  refine ⟨⟨Nat.dvd_mul_left unit _, Nat.div_mul_le_self value unit⟩, ?_⟩
  rintro mark ⟨⟨factor, rfl⟩, below⟩
  rcases Nat.eq_zero_or_pos unit with rfl | positive
  · simp
  · rw [Nat.mul_comm unit]
    apply Nat.mul_le_mul_right
    rw [Nat.le_div_iff_mul_le positive, Nat.mul_comm]
    exact below

theorem roundsUp_multiples {unit : Nat} (positive : 0 < unit) (value : Nat) :
    RoundsUp (multiples unit) value ((value + (unit - 1)) / unit * unit) := by
  have reaches : value ≤ (value + (unit - 1)) / unit * unit := by
    have near := Nat.lt_div_mul_add positive (a := value + (unit - 1))
    omega
  refine ⟨⟨Nat.dvd_mul_left unit _, reaches⟩, ?_⟩
  rintro mark ⟨⟨factor, rfl⟩, above⟩
  rw [Nat.mul_comm unit]
  apply Nat.mul_le_mul_right
  rw [← Nat.lt_succ_iff, Nat.div_lt_iff_lt_mul positive, Nat.succ_mul, Nat.mul_comm factor]
  omega

/-! ## Powers -/

def powers (base : Nat) : Set Nat :=
  Set.range fun exponent => base ^ exponent

theorem roundsDown_powers {base value : Nat} (proper : 1 < base) (nonzero : value ≠ 0) :
    RoundsDown (powers base) value (base ^ Nat.log base value) := by
  refine ⟨⟨⟨_, rfl⟩, Nat.pow_log_le_self base nonzero⟩, ?_⟩
  rintro mark ⟨⟨exponent, rfl⟩, below⟩
  exact Nat.pow_le_pow_right (Nat.le_of_lt proper) (Nat.le_log_of_pow_le proper below)

/-- No power lies between two that follow each other. -/
theorem powers_gap {base exponent mark : Nat} (proper : 1 < base) (marked : mark ∈ powers base)
    (further : base ^ exponent < mark) : base ^ (exponent + 1) ≤ mark := by
  rcases marked with ⟨other, rfl⟩
  exact Nat.pow_le_pow_right (Nat.le_of_lt proper) ((Nat.pow_lt_pow_iff_right proper).mp further)

theorem roundsUp_powers {base value : Nat} (proper : 1 < base) (nonzero : value ≠ 0)
    (unequal : base ^ Nat.log base value ≠ value) :
    RoundsUp (powers base) value (base ^ (Nat.log base value + 1)) := by
  have down := roundsDown_powers proper nonzero
  apply down.roundsUp
  · intro marked
    exact unequal (down.unique ⟨⟨marked, Nat.le_refl value⟩, fun _ below => below.2⟩)
  · exact ⟨_, rfl⟩
  · exact Nat.pow_lt_pow_right proper (Nat.lt_succ_self _)
  · intro mark marked further
    exact powers_gap proper marked further

end Rounding
end Library
end Pinyon
