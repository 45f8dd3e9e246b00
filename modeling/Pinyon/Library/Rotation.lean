import Mathlib

namespace Pinyon
namespace Library

/-!
# Going round a list

A search that starts behind a position of a list and wraps at its end.  One
round of it inspects every position, so it finds a good one if there is one, and
it never goes past a position that is good.
-/

namespace Rotation

/-- The position behind another one. -/
def next (length index : Nat) : Nat :=
  if length ≤ index + 1 then 0 else index + 1

/-- The position of a search after a number of turns. -/
def position (length index turns : Nat) : Nat :=
  (next length)^[turns] index

theorem position_succ (length index turns : Nat) :
    position length index (turns + 1) = position length (next length index) turns :=
  rfl

theorem next_lt {length : Nat} (nonempty : 0 < length) (index : Nat) :
    next length index < length := by
  rw [next]
  split <;> omega

theorem next_eq_mod {length index : Nat} (within : index < length) :
    next length index = (index + 1) % length := by
  rw [next]
  split
  next ends =>
      have last : index + 1 = length := by omega
      rw [last, Nat.mod_self]
  next inside => exact (Nat.mod_eq_of_lt (by omega)).symm

theorem position_eq_mod {length index : Nat} (within : index < length) (turns : Nat) :
    position length index turns = (index + turns) % length := by
  induction turns generalizing index with
  | zero => exact (Nat.mod_eq_of_lt within).symm
  | succ turns inductionHypothesis =>
      rw [position_succ, inductionHypothesis (next_lt (by omega) index), next_eq_mod within,
        Nat.mod_add_mod, Nat.add_assoc, Nat.add_comm 1]

/-- A search that has not gone round is not where it began. -/
theorem position_ne_self {length index turns : Nat} (within : index < length) (moved : 0 < turns)
    (short : turns < length) : position length index turns ≠ index := by
  intro back
  rw [position_eq_mod within] at back
  rcases Nat.lt_or_ge (index + turns) length with straight | wrapped
  · rw [Nat.mod_eq_of_lt straight] at back
    omega
  · rw [Nat.mod_eq_sub_mod wrapped, Nat.mod_eq_of_lt (by omega)] at back
    omega

theorem position_length {length index : Nat} (within : index < length) :
    position length index length = index := by
  rw [position_eq_mod within, Nat.add_mod_right, Nat.mod_eq_of_lt within]

theorem position_lt {length index turns : Nat} (nonempty : 0 < length) (moved : 0 < turns) :
    position length index turns < length := by
  cases turns with
  | zero => exact absurd moved (Nat.lt_irrefl 0)
  | succ turns =>
      rw [position_succ, position_eq_mod (next_lt nonempty index)]
      exact Nat.mod_lt _ nonempty

/-- One round passes every position. -/
theorem exists_turns {length target : Nat} (index : Nat) (within : target < length) :
    Exists fun turns => 0 < turns ∧ turns ≤ length ∧ position length index turns = target := by
  have started := next_lt (Nat.zero_lt_of_lt within) index
  refine ⟨(target + length - next length index) % length + 1, Nat.succ_pos _, ?_, ?_⟩
  · exact Nat.mod_lt _ (Nat.zero_lt_of_lt within)
  · rw [position_succ, position_eq_mod started, Nat.add_mod_mod]
    have sum : next length index + (target + length - next length index) = target + length := by
      omega
    rw [sum, Nat.add_mod_right, Nat.mod_eq_of_lt within]

/-- The search stops after this number of turns, at the first good position. -/
structure First (good : Nat -> Prop) (length index turns : Nat) : Prop where
  moved : 0 < turns
  found : good (position length index turns)
  earlier : forall turn, 0 < turn -> turn < turns -> ¬good (position length index turn)

/-- A search that did not stop goes on from the next position. -/
theorem First.tail {good : Nat -> Prop} {length index turns : Nat}
    (first : First good length index (turns + 1)) (more : 0 < turns) :
    First good length (next length index) turns where
  moved := more
  found := first.found
  earlier := fun turn _ below =>
    first.earlier (turn + 1) (Nat.succ_pos turn) (Nat.succ_lt_succ below)

/-- A search finds the first good position within one round. -/
theorem exists_first {good : Nat -> Prop} {length target : Nat} (index : Nat)
    (within : target < length) (holds : good target) :
    Exists fun turns => turns ≤ length ∧ First good length index turns := by
  classical
  rcases exists_turns index within with ⟨turns, moved, round, there⟩
  have some_ : Exists fun turns => 0 < turns ∧ good (position length index turns) :=
    ⟨turns, moved, there ▸ holds⟩
  refine ⟨Nat.find some_, ?_, (Nat.find_spec some_).1, (Nat.find_spec some_).2, ?_⟩
  · exact (Nat.find_min' some_ ⟨moved, there ▸ holds⟩).trans round
  · exact fun turn behind before both => Nat.find_min some_ before ⟨behind, both⟩

/-- A position that a round which started at `origin` comes to before it comes
to `target`. -/
def Before (length origin target index : Nat) : Prop :=
  Exists fun gone => Exists fun whole => gone < whole ∧ whole < length ∧
    index = (origin + gone) % length ∧ target = (origin + whole) % length

theorem before_self {length origin target : Nat} (within : origin < length)
    (inside : target < length) (different : target ≠ origin) :
    Before length origin target origin := by
  refine ⟨0, (target + length - origin) % length, ?_, Nat.mod_lt _ (by omega),
    (Nat.mod_eq_of_lt within).symm, ?_⟩
  · by_contra none
    have whole : (target + length - origin) % length = 0 := by omega
    rcases Nat.lt_or_gt_of_ne different with less | greater
    · rw [Nat.mod_eq_of_lt (by omega)] at whole
      omega
    · have wraps : target + length - origin = (target - origin) + length := by omega
      rw [wraps, Nat.add_mod_right, Nat.mod_eq_of_lt (by omega)] at whole
      omega
  · rw [Nat.add_mod_mod]
    have sum : origin + (target + length - origin) = target + length := by omega
    rw [sum, Nat.add_mod_right, Nat.mod_eq_of_lt inside]

/-- A search from in front of a good position ends there or again in front of
it, and does not get back to where the round began. -/
theorem Before.search {good : Nat -> Prop} {length origin target index turns : Nat}
    (before : Before length origin target index) (within : origin < length)
    (first : First good length index turns) (holds : good target) :
    position length index turns = target ∨
      Before length origin target (position length index turns) ∧
        position length index turns ≠ origin := by
  rcases before with ⟨gone, whole, less, short, here, there⟩
  have inside : index < length := by
    rw [here]
    exact Nat.mod_lt _ (by omega)
  have at_ : forall turn, position length index turn = (origin + (gone + turn)) % length := by
    intro turn
    rw [position_eq_mod inside, here, Nat.mod_add_mod, Nat.add_assoc]
  have not_past : gone + turns ≤ whole := by
    by_contra past
    apply first.earlier (whole - gone) (by omega) (by omega)
    have same : gone + (whole - gone) = whole := by omega
    rw [at_, same, ← there]
    exact holds
  rcases Nat.lt_or_eq_of_le not_past with further | reached
  · refine .inr ⟨⟨gone + turns, whole, further, short, at_ turns, there⟩, fun back => ?_⟩
    rw [at_] at back
    have moved := first.moved
    rcases Nat.lt_or_ge (origin + (gone + turns)) length with straight | wrapped
    · rw [Nat.mod_eq_of_lt straight] at back
      omega
    · rw [Nat.mod_eq_sub_mod wrapped, Nat.mod_eq_of_lt (by omega)] at back
      omega
  · left
    rw [at_, reached, there]

/-- A search stops at one place only. -/
theorem First.unique {good : Nat -> Prop} {length index turns more : Nat}
    (first : First good length index turns) (other : First good length index more) :
    turns = more := by
  rcases Nat.lt_trichotomy turns more with less | same | greater
  · exact absurd first.found (other.earlier turns first.moved less)
  · exact same
  · exact absurd other.found (first.earlier more other.moved greater)

/-- A search stops before it has gone round twice. -/
theorem First.le_length {good : Nat -> Prop} {length index turns : Nat}
    (first : First good length index turns) (nonempty : 0 < length) : turns ≤ length := by
  have within : position length index turns < length := position_lt nonempty first.moved
  rcases exists_first index within first.found with ⟨others, round, other⟩
  rw [first.unique other]
  exact round

/-! ## Removing the position that a search starts from -/

/-- Where a position of the list without an entry is in the list with it. -/
def restored (removed index : Nat) : Nat :=
  if index < removed then index else index + 1

theorem restored_ne (removed index : Nat) : restored removed index ≠ removed := by
  rw [restored]
  split <;> omega

theorem restored_injective (removed : Nat) : Function.Injective (restored removed) := by
  intro first second same
  simp only [restored] at same
  split at same <;> split at same <;> omega

/-- Every other position is one of the list without the entry. -/
theorem exists_restored {removed index length : Nat} (other : index ≠ removed)
    (within : index < length + 1) (inside : removed < length + 1) :
    Exists fun place => place < length ∧ restored removed place = index := by
  rcases Nat.lt_or_gt_of_ne other with before | behind
  · exact ⟨index, by omega, if_pos before⟩
  · refine ⟨index - 1, by omega, ?_⟩
    rw [restored, if_neg (by omega), Nat.sub_add_cancel (Nat.zero_lt_of_lt behind)]

/-- Behind the last entry the search goes on as if the entry were still there. -/
theorem restored_position_last {length turns : Nat} (moved : 0 < turns) (round : turns ≤ length) :
    restored length (position length length turns) = position (length + 1) length turns := by
  cases turns with
  | zero => exact absurd moved (Nat.lt_irrefl 0)
  | succ turns =>
      have begins : next length length = 0 := if_pos (Nat.le_succ length)
      have within : turns < length := round
      rw [position_succ, begins, position_eq_mod (by omega), Nat.zero_add, Nat.mod_eq_of_lt within,
        restored, if_pos within, position_eq_mod (Nat.lt_succ_self length)]
      have wraps : length + (turns + 1) = turns + (length + 1) := by omega
      rw [wraps, Nat.add_mod_right, Nat.mod_eq_of_lt (by omega)]

/-- Behind any other entry the search is one position ahead. -/
theorem restored_position {removed length turns : Nat} (inside : removed < length)
    (moved : 0 < turns) (short : turns < length) :
    restored removed (position length removed turns) =
      position (length + 1) removed (turns + 1) := by
  rw [position_eq_mod inside, position_eq_mod (Nat.lt_succ_of_lt inside), restored]
  rcases Nat.lt_or_ge (removed + turns) length with straight | wrapped
  · rw [Nat.mod_eq_of_lt straight, if_neg (by omega), Nat.mod_eq_of_lt (by omega), Nat.add_assoc]
  · rw [Nat.mod_eq_sub_mod wrapped, Nat.mod_eq_of_lt (by omega), if_pos (by omega),
      Nat.mod_eq_sub_mod (by omega), Nat.mod_eq_of_lt (by omega)]
    omega

/-- It comes to the position behind the entry at the end of the round. -/
theorem restored_position_round {removed length : Nat} (inside : removed < length) :
    restored removed (position length removed length) = position (length + 1) removed 1 := by
  rw [position_length inside, position_eq_mod (Nat.lt_succ_of_lt inside),
    Nat.mod_eq_of_lt (by omega), restored, if_neg (Nat.lt_irrefl removed)]

end Rotation

end Library
end Pinyon
