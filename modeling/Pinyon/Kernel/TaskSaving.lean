import Pinyon.Kernel.SwitchTransparency32
import Pinyon.Kernel.TaskKind
import Pinyon.Kernel.TaskSuspension

namespace Pinyon
namespace Kernel

open Library Pine

/-!
# What a switch does to the kind of a task

The code of `task_switch` on both machines does to the two stack pointers in
`Registers` what `taskSwitch` says, so that the runs of the task manager are about
what the machines do.
-/

/-! ## ARMv7 -/

section Aarch32

open Aarch32 Aarch32Modes

/-- The two stack pointers of the `Registers` at an address. -/
def registers32 (memory : Word -> Word) (registers : Word) : Registers .aarch32 where
  userSp := memory (registers + 4)
  kernelSp := memory (registers + 12)

variable {layout : SwitchLayout} {machine : Machine}

/-- On ARMv7 `task_switch`, before it starts the next task, saves the two stack pointers
as `taskSwitch` says. -/
theorem saving_registers32 (placed : machine.pc = layout.addressOf .taskSwitch)
    (saves : machine.r 0 ≠ 0) (mode : machine.mode = Mode.supervisor)
    (apart : Disjoint (registersBlock32 (machine.r 0))
      (callerFrame32 (machine.sp Mode.supervisor))) :
    Exists fun after => layout.code.Steps machine after ∧
      after.pc = layout.addressOf .taskStart ∧
      registers32 after.memory (machine.r 0) =
        @taskSwitch .aarch32 (machine.r 1 != 0)
          { sp := machine.sp Mode.supervisor, userSp := machine.sp Mode.user }
          (registers32 machine.memory (machine.r 0)) := by
  rcases enter_steps32 placed saves mode with
    ⟨entered, entering, enteredPc, r, enteredMode, _, sp, lr, userSp, _, pushed⟩
  rcases save_steps32 enteredPc enteredMode with
    ⟨saved, saving, savedPc, savedR0, _, _, savedBits, general, length, _, memory⟩
  have savedMode : saved.mode = Mode.supervisor :=
    (modeOf_of_stateBits savedBits).trans enteredMode
  rcases saved_steps32 (savedPc.trans lr) savedMode with ⟨after, returning, popped⟩
  have afterMemory : after.memory =
      savedMemory entered general (layout.addressOf .taskReturnAgain) :=
    popped.memory.trans memory
  have kernelSp : after.memory (machine.r 0 + 12) = machine.sp Mode.supervisor - 24 := by
    rw [afterMemory, ← r, ← sp]
    exact @savedMemory_row entered general _ length 0 _ rfl
  have userSpThere : after.memory (machine.r 0 + 4) =
      if machine.r 1 = 0 then machine.sp Mode.user else machine.memory (machine.r 0 + 4) := by
    rw [afterMemory, ← r]
    by_cases user : entered.r 1 = 0
    · rw [if_pos user, (savedMemory_user length user).1, userSp]
    · have notFirst : entered.r 0 + 4 ≠ entered.r 0 :=
        fun same => absurd (BitVec.add_right_eq_self.mp same) (by decide)
      have below := @savedMemory_below entered general (layout.addressOf .taskReturnAgain) length 1
        (by decide)
      rw [if_neg user] at below
      rw [if_neg user]
      refine below.trans ((Function.update_of_ne notFirst _ _).trans ?_)
      rw [pushed, r]
      have inBlock : machine.r 0 + 4 ∈ registersBlock32 (machine.r 0) := ⟨1, by decide, rfl⟩
      exact storeWords_outside (Set.disjoint_left.mp apart inBlock)
  refine ⟨after, (entering.trans saving).trans returning, popped.pc.trans (if_pos savedR0), ?_⟩
  rw [registers32, kernelSp, userSpThere, taskSwitch_word]
  rfl

end Aarch32

/-! ## AArch64 -/

section Aarch64

open Aarch64

/-- The two stack pointers of the `Registers` at an address. -/
def registers64 (memory : Word -> Word) (registers : Word) : Registers .aarch64 where
  userSp := memory (registers + 16)
  kernelSp := memory (registers + 24)

variable {layout : Layout SwitchLabel} {machine : Machine}

/-- On AArch64 `task_switch`, before it starts the next task, saves the two stack
pointers as `taskSwitch` says. -/
theorem saving_registers (placed : machine.pc = layout.addressOf .taskSwitch)
    (saves : machine.x 0 ≠ 0) (level : machine.el = 1)
    (apart : Disjoint (registersBlock (machine.x 0)) (callerFrame machine.sp)) :
    Exists fun after => SwitchSteps layout machine after ∧
      after.pc = layout.addressOf .taskStart ∧
      registers64 after.memory (machine.x 0) =
        @taskSwitch .aarch64 (machine.x 1 != 0) { sp := machine.sp, userSp := machine.spEl0 }
          (registers64 machine.memory (machine.x 0)) := by
  rcases saved_by placed saves level with ⟨entered, after, flags, values, steps, started, saved⟩
  refine ⟨after, steps, started, ?_⟩
  have x1 : entered.x 1 = machine.x 1 := by rw [saved.x]; rfl
  have distinct := (savedSlots_distinct layout entered flags values).1
  have kernelSp : after.memory (machine.x 0 + 24) = machine.sp - 32 := by
    rw [saved.stored, ← saved.sp]
    exact storeSlots_at distinct (by simp [savedSlots])
  have userSp : after.memory (machine.x 0 + 16) =
      if machine.x 1 = 0 then machine.spEl0 else machine.memory (machine.x 0 + 16) := by
    rw [saved.stored]
    by_cases user : machine.x 1 = 0
    · rw [if_pos user, ← saved.spEl0]
      exact storeSlots_at distinct (by simp [savedSlots, x1, user])
    · have notSaved : 16 ∉ (savedSlots layout entered flags values).map Prod.snd := by
        rw [savedSlots_offsets, x1, if_neg user]
        decide
      rw [if_neg user, storeSlots_other fun slot member same => ?_, saved.pushed]
      · refine storeSlots_other fun slot member same => ?_
        exact Set.disjoint_left.mp apart (mem_registersBlock (by decide)) ⟨slot, member, same⟩
      · rw [(BitVec.add_right_inj _).mp same] at notSaved
        exact notSaved (List.mem_map.mpr ⟨slot, member, rfl⟩)
  rw [registers64, kernelSp, userSp, taskSwitch_word]
  rfl

end Aarch64

end Kernel
end Pinyon
