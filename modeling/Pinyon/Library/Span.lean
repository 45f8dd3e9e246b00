import Pinyon.Library.Packing

namespace Pinyon
namespace Library

/-!
# Runs of consecutive addresses

A block of memory is a run of addresses, given by its first address and its
length.  The laws here turn questions about such sets into linear arithmetic.
-/

/-- The addresses from `start` up to, and not including, `start + length`. -/
def span (start length : Nat) : Set Nat :=
  Set.Ico start (start + length)

@[simp] theorem mem_span {start length address : Nat} :
    address ∈ span start length <-> start ≤ address ∧ address < start + length :=
  Iff.rfl

theorem span_subset {start length start' length' : Nat}
    (first : start ≤ start') (last : start' + length' ≤ start + length) :
    span start' length' ⊆ span start length :=
  Set.Ico_subset_Ico first last

/-- A run of at least one address says where it begins and ends. -/
theorem span_subset_iff {start length start' length' : Nat} (nonempty : 0 < length') :
    span start' length' ⊆ span start length <->
      start ≤ start' ∧ start' + length' ≤ start + length :=
  Set.Ico_subset_Ico_iff (by omega)

theorem disjoint_span {start length start' length' : Nat}
    (nonempty : 0 < length) (nonempty' : 0 < length') :
    Disjoint (span start length) (span start' length') <->
      start + length ≤ start' ∨ start' + length' ≤ start := by
  rw [span, span, Set.Ico_disjoint_Ico]
  omega

theorem disjoint_span_of_le {start length start' length' : Nat}
    (before : start + length ≤ start') :
    Disjoint (span start length) (span start' length') := by
  rw [span, span, Set.Ico_disjoint_Ico]
  omega

/-- Two consecutive runs are one run. -/
theorem span_union (start first second : Nat) :
    span start first ∪ span (start + first) second = span start (first + second) := by
  rw [span, span, span, Nat.add_assoc]
  exact Set.Ico_union_Ico_eq_Ico (by omega) (by omega)

theorem encard_span (start length : Nat) : (span start length).encard = length := by
  rw [span, ← Finset.coe_Ico, Set.encard_coe_eq_coe_finsetCard, Nat.card_Ico, Nat.add_sub_cancel_left]

/-- Runs that are apart and end below a limit are together no longer than the limit. -/
theorem lengths_le {Place : Type} {start length : Place -> Nat} {places : List Place} {limit : Nat}
    (packed : Packed (places.map fun place => span (start place) (length place)))
    (below : forall place, place ∈ places -> start place + length place ≤ limit) :
    (places.map length).sum ≤ limit := by
  have inside : cover (places.map fun place => span (start place) (length place)) ⊆ span 0 limit := by
    rintro address ⟨block, member, holds⟩
    rcases List.mem_map.mp member with ⟨place, listed, rfl⟩
    have ends := below place listed
    rw [mem_span] at holds ⊢
    omega
  have sizes : (Set.encard ∘ fun place => span (start place) (length place)) =
      fun place => ((length place : Nat) : ℕ∞) := by
    funext place
    exact encard_span _ _
  have total : (places.map fun place => ((length place : Nat) : ℕ∞)).sum =
      ((places.map length).sum : Nat) := by
    rw [Nat.cast_list_sum, List.map_map]
    rfl
  have fewer := Set.encard_le_encard inside
  rw [encard_cover packed, encard_span, List.map_map, sizes, total] at fewer
  exact_mod_cast fewer

end Library
end Pinyon
