import Mathlib

namespace Pinyon
namespace Library

universe u v w

/-!
# Code in blocks

Machine code is run block by block, from the block at the program counter, until
control leads out of it.  The processor is whatever runs one block.
-/

/-- Code whose blocks have labels, with where they were placed and what each does. -/
structure BlockCode (Machine : Type u) (Address : Type v) (Label : Type w) where
  addressOf : Label -> Address
  labelAt : Address -> Option Label
  labelAt_addressOf : forall label, labelAt (addressOf label) = some label
  pc : Machine -> Address
  run : Label -> Machine -> Machine

namespace BlockCode

variable {Machine : Type u} {Address : Type v} {Label : Type w}

/-- Runs the block at the program counter, if it is one of the code. -/
def step (code : BlockCode Machine Address Label) (machine : Machine) : Option Machine :=
  (code.labelAt (code.pc machine)).map fun label => code.run label machine

/-- A run through blocks of the code. -/
def Steps (code : BlockCode Machine Address Label) : Machine -> Machine -> Prop :=
  Relation.ReflTransGen fun before after => code.step before = some after

/-- A run to the point where control has left the code. -/
def Leaves (code : BlockCode Machine Address Label) (before after : Machine) : Prop :=
  code.Steps before after ∧ code.labelAt (code.pc after) = none

/-- The machine after a number of steps, where it gets so far in the code. -/
def afterSteps (code : BlockCode Machine Address Label) (machine : Machine) : Nat -> Option Machine
  | 0 => some machine
  | count + 1 => (code.afterSteps machine count).bind code.step

variable {code : BlockCode Machine Address Label} {before middle after other : Machine}

theorem step_at (label : Label) (placed : code.pc before = code.addressOf label) :
    code.step before = some (code.run label before) := by
  rw [step, placed, code.labelAt_addressOf]
  rfl

theorem Steps.block_at (label : Label) (placed : code.pc before = code.addressOf label) :
    code.Steps before (code.run label before) :=
  Relation.ReflTransGen.single (step_at label placed)

theorem Steps.leaves (steps : code.Steps before middle) (leaves : code.Leaves middle after) :
    code.Leaves before after :=
  ⟨Relation.ReflTransGen.trans steps leaves.1, leaves.2⟩

/-- Where control leaves the code is determined by where it entered. -/
theorem Leaves.unique (first : code.Leaves before after) (second : code.Leaves before other) :
    other = after := by
  rcases first with ⟨steps, outside⟩
  induction steps using Relation.ReflTransGen.head_induction_on with
  | refl =>
      rcases Relation.ReflTransGen.cases_head second.1 with same | ⟨next, taken, _⟩
      · exact same.symm
      · rw [step, outside] at taken
        cases taken
  | head taken _ inductionHypothesis =>
      rcases Relation.ReflTransGen.cases_head second.1 with same | ⟨next, alsoTaken, rest⟩
      · rw [same, step, second.2] at taken
        cases taken
      · cases Option.some.inj (taken.symm.trans alsoTaken)
        exact inductionHypothesis ⟨rest, second.2⟩

theorem Steps.afterSteps (steps : code.Steps before after) :
    Exists fun count => code.afterSteps before count = some after := by
  induction steps with
  | refl => exact ⟨0, rfl⟩
  | tail _ taken inductionHypothesis =>
      rcases inductionHypothesis with ⟨count, there⟩
      refine ⟨count + 1, ?_⟩
      rw [BlockCode.afterSteps, there]
      exact taken

/-- A machine that gets somewhere has stepped from all that was in between. -/
theorem step_of_afterSteps {count more : Nat} (there : code.afterSteps before count = some middle)
    (further : code.afterSteps before more = some after) (less : count < more) :
    (code.step middle).isSome = true := by
  induction more generalizing after with
  | zero => cases less
  | succ more inductionHypothesis =>
      rw [BlockCode.afterSteps] at further
      rcases Option.bind_eq_some_iff.mp further with ⟨last, earlier, taken⟩
      rcases Nat.lt_or_eq_of_le (Nat.le_of_lt_succ less) with before_ | same
      · exact inductionHypothesis earlier before_
      · subst same
        cases Option.some.inj (there.symm.trans earlier)
        rw [taken]
        rfl

/-- Outside the code there is no further step. -/
theorem afterSteps_le {count more : Nat} (there : code.afterSteps before count = some after)
    (outside : code.labelAt (code.pc after) = none)
    (further : code.afterSteps before more = some other) : more ≤ count := by
  by_contra beyond
  have stepped := step_of_afterSteps there further (Nat.lt_of_not_le beyond)
  rw [step, outside] at stepped
  cases stepped

end BlockCode

end Library
end Pinyon
