import Mathlib

namespace Pinyon
namespace Library

universe u v

/-!
# Lifetimes of objects

Objects live at the slots of storages.  A log lists, most recent event first, the
constructors and destructors that ran and the storages that were given back.

A log is orderly when every destructor ran on an object, no object was constructed
over another, and no storage was given back with an object in it.  Then the
destructors of a storage that was given back are as many as its constructors, slot
by slot.
-/

inductive LifeEvent (Storage : Type u) (Slot : Type v) where
  | construct (storage : Storage) (slot : Slot)
  | destroy (storage : Storage) (slot : Slot)
  | giveBack (storage : Storage)
deriving DecidableEq

namespace LifeEvent

variable {Storage : Type u} {Slot : Type v}
variable {log : List (LifeEvent Storage Slot)} {storage other : Storage} {slot place : Slot}

/-- An object is at a slot. -/
def Lives : List (LifeEvent Storage Slot) -> Storage -> Slot -> Prop
  | [], _, _ => False
  | construct storage slot :: earlier, other, place =>
      other = storage ∧ place = slot ∨ Lives earlier other place
  | destroy storage slot :: earlier, other, place =>
      ¬ (other = storage ∧ place = slot) ∧ Lives earlier other place
  | giveBack _ :: earlier, other, place => Lives earlier other place

def Orderly : List (LifeEvent Storage Slot) -> Prop
  | [] => True
  | construct storage slot :: earlier => Orderly earlier ∧ ¬ Lives earlier storage slot
  | destroy storage slot :: earlier => Orderly earlier ∧ Lives earlier storage slot
  | giveBack storage :: earlier => Orderly earlier ∧ forall slot, ¬ Lives earlier storage slot

@[simp]
theorem lives_nil : ¬ Lives ([] : List (LifeEvent Storage Slot)) storage slot :=
  id

@[simp]
theorem lives_construct : Lives (construct storage slot :: log) other place <->
    other = storage ∧ place = slot ∨ Lives log other place :=
  Iff.rfl

@[simp]
theorem lives_destroy : Lives (destroy storage slot :: log) other place <->
    ¬ (other = storage ∧ place = slot) ∧ Lives log other place :=
  Iff.rfl

@[simp]
theorem lives_giveBack : Lives (giveBack storage :: log) other place <-> Lives log other place :=
  Iff.rfl

@[simp]
theorem orderly_construct : Orderly (construct storage slot :: log) <->
    Orderly log ∧ ¬ Lives log storage slot :=
  Iff.rfl

@[simp]
theorem orderly_destroy : Orderly (destroy storage slot :: log) <->
    Orderly log ∧ Lives log storage slot :=
  Iff.rfl

@[simp]
theorem orderly_giveBack : Orderly (giveBack storage :: log) <->
    Orderly log ∧ forall slot, ¬ Lives log storage slot :=
  Iff.rfl

/-- What comes before in an orderly log is orderly. -/
theorem Orderly.earlier {event : LifeEvent Storage Slot} (orderly : Orderly (event :: log)) :
    Orderly log := by
  cases event with
  | construct storage slot => exact orderly.1
  | destroy storage slot => exact orderly.1
  | giveBack storage => exact orderly.1

theorem Orderly.of_append {later : List (LifeEvent Storage Slot)}
    (orderly : Orderly (later ++ log)) : Orderly log := by
  induction later with
  | nil => exact orderly
  | cons event later inductionHypothesis => exact inductionHypothesis orderly.earlier

section Counting

variable [DecidableEq Storage] [DecidableEq Slot]

/-- One constructor more than destructors has run where there is an object, and
equally many where there is none. -/
theorem Orderly.balance (orderly : Orderly log) (storage : Storage) (slot : Slot) :
    Lives log storage slot ∧
        log.count (construct storage slot) = log.count (destroy storage slot) + 1 ∨
      ¬ Lives log storage slot ∧
        log.count (construct storage slot) = log.count (destroy storage slot) := by
  induction log with
  | nil => exact .inr ⟨lives_nil, rfl⟩
  | cons event earlier inductionHypothesis =>
      have balanced := inductionHypothesis orderly.earlier
      cases event with
      | construct at_ place =>
          by_cases here : storage = at_ ∧ slot = place
          · rcases here with ⟨rfl, rfl⟩
            rcases balanced with ⟨lives, _⟩ | ⟨_, equal⟩
            · exact absurd lives orderly.2
            · refine .inl ⟨.inl ⟨rfl, rfl⟩, ?_⟩
              rw [List.count_cons_self, List.count_cons_of_ne (by simp), equal]
          · have elsewhere : construct at_ place ≠ construct storage slot := by
              intro same
              cases same
              exact here ⟨rfl, rfl⟩
            rw [lives_construct, List.count_cons_of_ne elsewhere, List.count_cons_of_ne (by simp)]
            simpa only [here, false_or] using balanced
      | destroy at_ place =>
          by_cases here : storage = at_ ∧ slot = place
          · rcases here with ⟨rfl, rfl⟩
            rcases balanced with ⟨_, more⟩ | ⟨dead, _⟩
            · refine .inr ⟨fun lives => lives.1 ⟨rfl, rfl⟩, ?_⟩
              rw [List.count_cons_self, List.count_cons_of_ne (by simp), more]
            · exact absurd orderly.2 dead
          · have elsewhere : destroy at_ place ≠ destroy storage slot := by
              intro same
              cases same
              exact here ⟨rfl, rfl⟩
            rw [lives_destroy, List.count_cons_of_ne elsewhere, List.count_cons_of_ne (by simp)]
            simpa only [here, not_false_eq_true, true_and] using balanced
      | giveBack at_ =>
          rw [lives_giveBack, List.count_cons_of_ne (by simp), List.count_cons_of_ne (by simp)]
          exact balanced

/-- Every object of a storage that is given back has been destroyed. -/
theorem Orderly.destroyed {later : List (LifeEvent Storage Slot)}
    (orderly : Orderly (later ++ giveBack storage :: log)) (slot : Slot) :
    log.count (construct storage slot) = log.count (destroy storage slot) := by
  have returned := orderly.of_append
  rcases returned.earlier.balance storage slot with ⟨lives, _⟩ | ⟨_, equal⟩
  · exact absurd lives (returned.2 slot)
  · exact equal

end Counting

/-! ## A row of objects -/

/-- The objects that are constructed at the first slots of a storage. -/
def row (storage : Storage) : Nat -> List (LifeEvent Storage Nat)
  | 0 => []
  | amount + 1 => construct storage amount :: row storage amount

variable {numbered : List (LifeEvent Storage Nat)} {amount index : Nat}

theorem lives_row : Lives (row storage amount ++ numbered) other index <->
    other = storage ∧ index < amount ∨ Lives numbered other index := by
  induction amount with
  | zero => simp [row]
  | succ amount inductionHypothesis =>
      rw [row, List.cons_append, lives_construct, inductionHypothesis, Nat.lt_succ_iff_lt_or_eq]
      tauto

/-- Nothing is in the way in a storage without objects. -/
theorem orderly_row (bare : forall index, ¬ Lives numbered storage index) :
    Orderly (row storage amount ++ numbered) <-> Orderly numbered := by
  induction amount with
  | zero => rfl
  | succ amount inductionHypothesis =>
      rw [row, List.cons_append, orderly_construct, inductionHypothesis, lives_row]
      constructor
      · exact And.left
      · intro orderly
        refine ⟨orderly, ?_⟩
        rintro (⟨_, wrong⟩ | lives)
        · exact Nat.lt_irrefl _ wrong
        · exact bare amount lives

end LifeEvent

end Library
end Pinyon
