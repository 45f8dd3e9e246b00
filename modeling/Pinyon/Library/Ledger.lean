import Mathlib

namespace Pinyon
namespace Library

universe u v

/-!
# Ledgers

A ledger lists the resources that are in use.  Acquiring one that is in use already
and releasing one that is not are errors.  `Accounts` is the invariant that ties a
ledger to the owners of the resources; whatever an operation does not mention stays
at the end of the list of owned resources, so it serves as the frame of the rules.
-/

abbrev Ledger (Resource : Type u) := List Resource

namespace Ledger

variable {Resource : Type u}
variable {ledger after : Ledger Resource} {resource : Resource} {resources owned rest : List Resource}

/-- The resources in use are the owned ones, each of them once. -/
structure Accounts (ledger : Ledger Resource) (owned : List Resource) : Prop where
  perm : ledger.Perm owned
  nodup : owned.Nodup

theorem accounts_nil : Accounts ([] : Ledger Resource) [] :=
  ⟨.refl [], List.nodup_nil⟩

namespace Accounts

theorem mem_iff (accounts : Accounts ledger owned) : resource ∈ ledger <-> resource ∈ owned :=
  accounts.perm.mem_iff

theorem congr (accounts : Accounts ledger owned) {others : List Resource}
    (same : owned.Perm others) : Accounts ledger others :=
  ⟨accounts.perm.trans same, same.nodup_iff.mp accounts.nodup⟩

/-- A resource that is owned twice over is not owned at all. -/
theorem not_both (accounts : Accounts ledger (resource :: owned)) : resource ∉ owned :=
  (List.nodup_cons.mp accounts.nodup).1

end Accounts

/-- The owner at one place gives up what it has. -/
theorem filterMap_update_none {Place : Type v} [DecidableEq Place] {places : List Place}
    {place : Place} {owner : Place -> Option Resource} (distinct : places.Nodup)
    (inside : place ∈ places) (owns : owner place = some resource) :
    (places.filterMap owner).Perm
      (resource :: places.filterMap (Function.update owner place none)) := by
  induction places with
  | nil => exact absurd inside List.not_mem_nil
  | cons first places inductionHypothesis =>
      rcases List.nodup_cons.mp distinct with ⟨apart, distinct⟩
      by_cases same : first = place
      · subst same
        have others : places.filterMap (Function.update owner first none) = places.filterMap owner := by
          refine List.filterMap_congr fun other member => ?_
          have different : other ≠ first := fun wrong => apart (wrong ▸ member)
          exact Function.update_of_ne different _ _
        rw [List.filterMap_cons_some owns, List.filterMap_cons_none (Function.update_self _ _ _), others]
      · have member : place ∈ places := (List.mem_cons.mp inside).resolve_left (Ne.symm same)
        have held := inductionHypothesis distinct member
        have unchanged : Function.update owner place none first = owner first :=
          Function.update_of_ne same _ _
        cases here : owner first with
        | none =>
            rw [List.filterMap_cons_none here, List.filterMap_cons_none (unchanged.trans here)]
            exact held
        | some other =>
            rw [List.filterMap_cons_some here, List.filterMap_cons_some (unchanged.trans here)]
            exact (held.cons other).trans (.swap resource other _)

/-! ## Acquiring and releasing -/

variable [DecidableEq Resource]

def acquire (ledger : Ledger Resource) (resource : Resource) : Option (Ledger Resource) :=
  if resource ∈ ledger then none else some (resource :: ledger)

def release (ledger : Ledger Resource) (resource : Resource) : Option (Ledger Resource) :=
  if resource ∈ ledger then some (ledger.erase resource) else none

def acquireAll (ledger : Ledger Resource) : List Resource -> Option (Ledger Resource)
  | [] => some ledger
  | resource :: resources => (ledger.acquire resource).bind fun after => after.acquireAll resources

def releaseAll (ledger : Ledger Resource) : List Resource -> Option (Ledger Resource)
  | [] => some ledger
  | resource :: resources => (ledger.release resource).bind fun after => after.releaseAll resources

/-- What has just been acquired can be released, and then nothing has happened. -/
theorem release_acquire (acquired : ledger.acquire resource = some after) :
    after.release resource = some ledger := by
  rw [acquire] at acquired
  split at acquired
  · cases acquired
  · cases acquired
    rw [release, if_pos List.mem_cons_self, List.erase_cons_head]

namespace Accounts

theorem acquire (accounts : Accounts ledger owned) (acquired : ledger.acquire resource = some after) :
    resource ∉ ledger ∧ Accounts after (resource :: owned) := by
  rw [Ledger.acquire] at acquired
  split at acquired
  · cases acquired
  · cases acquired
    have fresh : resource ∉ ledger := by assumption
    refine ⟨fresh, accounts.perm.cons resource, List.nodup_cons.mpr ⟨?_, accounts.nodup⟩⟩
    exact fun member => fresh (accounts.mem_iff.mpr member)

theorem acquireAll (accounts : Accounts ledger owned)
    (acquired : ledger.acquireAll resources = some after) : Accounts after (resources ++ owned) := by
  induction resources generalizing ledger owned with
  | nil =>
      cases acquired
      exact accounts
  | cons resource resources inductionHypothesis =>
      rcases Option.bind_eq_some_iff.mp acquired with ⟨middle, first, others⟩
      have held := inductionHypothesis (accounts.acquire first).2 others
      exact held.congr List.perm_middle

theorem release (accounts : Accounts ledger (resource :: rest)) :
    Exists fun after => ledger.release resource = some after ∧ Accounts after rest := by
  have member : resource ∈ ledger := accounts.mem_iff.mpr List.mem_cons_self
  refine ⟨ledger.erase resource, if_pos member, ?_, (List.nodup_cons.mp accounts.nodup).2⟩
  have whole := (List.perm_cons_erase member).symm.trans accounts.perm
  exact (List.perm_cons resource).mp whole

/-- What an owner holds can be released, in whatever order it is listed. -/
theorem releaseAll (accounts : Accounts ledger (resources ++ rest)) :
    Exists fun after => ledger.releaseAll resources = some after ∧ Accounts after rest := by
  induction resources generalizing ledger with
  | nil => exact ⟨ledger, rfl, accounts⟩
  | cons resource resources inductionHypothesis =>
      rcases accounts.release with ⟨middle, first, held⟩
      rcases inductionHypothesis held with ⟨after, others, left⟩
      refine ⟨after, ?_, left⟩
      rw [Ledger.releaseAll, first]
      exact others

end Accounts

end Ledger

end Library
end Pinyon
