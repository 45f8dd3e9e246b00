import Mathlib

namespace Pinyon
namespace Library
namespace LeastFree

universe u

/-!
# Maps that are kept in slots

A finite map from numbers is kept as a list of slots, of which an empty one and
one that is not there mean the same.  The number that a new value gets is the
least one that is free: the first empty slot, or else the number of slots.
-/

variable {Value : Type u} {slots : List (Option Value)} {index : Nat}

def lookup (slots : List (Option Value)) (index : Nat) : Option Value :=
  slots[index]?.join

/-- The numbers that nothing is stored under. -/
def free (map : Nat -> Option Value) : Set Nat :=
  fun index => map index = none

theorem lookup_of_le (beyond : slots.length ≤ index) : lookup slots index = none := by
  rw [lookup, List.getElem?_eq_none beyond]
  rfl

theorem lookup_set (inside : index < slots.length) (value : Option Value) :
    lookup (slots.set index value) = Function.update (lookup slots) index value := by
  funext other
  by_cases same : other = index
  · subst same
    rw [Function.update_self, lookup, List.getElem?_set_self inside]
    rfl
  · rw [Function.update_of_ne same, lookup, List.getElem?_set_ne (Ne.symm same)]
    rfl

theorem lookup_append (slots : List (Option Value)) (value : Option Value) :
    lookup (slots ++ [value]) = Function.update (lookup slots) slots.length value := by
  funext other
  rcases Nat.lt_trichotomy other slots.length with below | rfl | beyond
  · rw [Function.update_of_ne (Nat.ne_of_lt below), lookup, List.getElem?_append_left below]
    rfl
  · rw [Function.update_self, lookup, List.getElem?_append_right (Nat.le_refl _), Nat.sub_self]
    rfl
  · rw [Function.update_of_ne (Nat.ne_of_gt beyond), lookup_of_le (Nat.le_of_lt beyond)]
    apply lookup_of_le
    rw [List.length_append]
    exact beyond

/-- The first empty slot is the least number that is free. -/
theorem isLeast_of_first (here : slots[index]? = some none)
    (earlier : forall other, other < index -> slots[other]? ≠ some none)
    (inside : index < slots.length) : IsLeast (free (lookup slots)) index := by
  constructor
  · change lookup slots index = none
    rw [lookup, here]
    rfl
  · intro other isFree
    by_contra below
    have less := Nat.lt_of_not_le below
    have there := List.getElem?_eq_getElem (Nat.lt_trans less inside)
    have empty : lookup slots other = none := isFree
    rw [lookup, there, Option.join_some] at empty
    apply earlier other less
    rw [there, empty]

/-- When no slot is empty, it is the next one. -/
theorem isLeast_length (full : forall value, value ∈ slots -> value ≠ none) :
    IsLeast (free (lookup slots)) slots.length := by
  constructor
  · exact lookup_of_le (Nat.le_refl _)
  · intro other isFree
    by_contra below
    have there := List.getElem?_eq_getElem (Nat.lt_of_not_le below)
    have empty : lookup slots other = none := isFree
    rw [lookup, there, Option.join_some] at empty
    exact full _ (List.getElem_mem _) empty

theorem finite_taken (slots : List (Option Value)) : (free (lookup slots))ᶜ.Finite := by
  apply (Set.finite_lt_nat slots.length).subset
  intro index taken
  by_contra beyond
  exact taken (lookup_of_le (Nat.le_of_not_lt beyond))

end LeastFree
end Library
end Pinyon
