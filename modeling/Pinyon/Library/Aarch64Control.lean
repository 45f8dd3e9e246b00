import Pinyon.Library.Aarch64

namespace Pinyon
namespace Library
namespace Aarch64

/-!
# Programs in blocks

A program is run block by block, from the block at the program counter, until
control leads out of it: by a return to a caller that is not part of it, or by an
exception return.
-/

universe u

/-- How a block is left. -/
inductive Exit (Label : Type u) where
  | goto (label : Label)
  | branchEq (taken otherwise : Label)
  | call (target back : Label)
  | ret
  | eret

structure Block (Label : Type u) where
  body : List Instruction
  exit : Exit Label

/-- Where the blocks of a program were placed. -/
structure Layout (Label : Type u) where
  addressOf : Label -> Word
  labelAt : Word -> Option Label
  labelAt_addressOf : forall label, labelAt (addressOf label) = some label

namespace Machine

/-- `eret`: the saved program state becomes the present one. -/
def exceptionReturn (machine : Machine) : Machine :=
  { machine with
    el := machine.spsr.extractLsb' 2 2
    spSel := machine.spsr.getLsbD 0
    daif := machine.spsr.extractLsb' 6 4
    nzcv := .ofWord machine.spsr
    pc := machine.elr }

variable {Label : Type u}

def leave (layout : Layout Label) (machine : Machine) : Exit Label -> Machine
  | .goto label => { machine with pc := layout.addressOf label }
  | .branchEq taken otherwise =>
      { machine with pc := layout.addressOf (if machine.nzcv.zero then taken else otherwise) }
  | .call target back =>
      { machine.write lr (layout.addressOf back) with pc := layout.addressOf target }
  | .ret => { machine with pc := machine.x 30 }
  | .eret => machine.exceptionReturn

def runBlock (layout : Layout Label) (machine : Machine) (block : Block Label) : Machine :=
  (machine.executeAll block.body).leave layout block.exit

end Machine

variable {Label : Type u}

/-- Runs the block at the program counter, if it is one of the program. -/
def step (layout : Layout Label) (block : Label -> Block Label) (machine : Machine) :
    Option Machine :=
  (layout.labelAt machine.pc).map fun label => machine.runBlock layout (block label)

/-- A run through blocks of the program. -/
def Steps (layout : Layout Label) (block : Label -> Block Label) : Machine -> Machine -> Prop :=
  Relation.ReflTransGen fun before after => step layout block before = some after

/-- A run to the point where control has left the program. -/
def Leaves (layout : Layout Label) (block : Label -> Block Label) (before after : Machine) : Prop :=
  Steps layout block before after ∧ layout.labelAt after.pc = none

variable {layout : Layout Label} {block : Label -> Block Label} {before after other : Machine}

theorem step_at (label : Label) (placed : before.pc = layout.addressOf label) :
    step layout block before = some (before.runBlock layout (block label)) := by
  rw [step, placed, layout.labelAt_addressOf]
  rfl

theorem Steps.block_at (label : Label) (placed : before.pc = layout.addressOf label) :
    Steps layout block before (before.runBlock layout (block label)) :=
  Relation.ReflTransGen.single (step_at label placed)

/-- Where control leaves the program is determined by where it entered. -/
theorem Leaves.unique (first : Leaves layout block before after)
    (second : Leaves layout block before other) : other = after := by
  rcases first with ⟨steps, outside⟩
  induction steps using Relation.ReflTransGen.head_induction_on with
  | refl =>
      rcases Relation.ReflTransGen.cases_head second.1 with same | ⟨next, taken, _⟩
      · exact same.symm
      · rw [step, outside] at taken
        cases taken
  | head taken _ inductionHypothesis =>
      rcases Relation.ReflTransGen.cases_head second.1 with same | ⟨next, alsoTaken, rest⟩
      · rw [same, step, second.2] at taken
        cases taken
      · cases Option.some.inj (taken.symm.trans alsoTaken)
        exact inductionHypothesis ⟨rest, second.2⟩

end Aarch64
end Library
end Pinyon
