import Pinyon.Library.Aarch64Control

namespace Pinyon
namespace Kernel

open Library.Aarch64

/-!
# `task_switch` on AArch64

The code of a context switch, block by block.  `_task_save` is left twice: when it
was called, and again when the task it saved is switched back to, as the program
counter that it saves is `_task_return_again`.  A block without a label of its own
in the source is named after what falls through to it.
-/

inductive SwitchLabel where
  | taskSave
  | taskSaveEl1
  | taskSaveEl0
  | taskSaveUser
  | taskSaveRegisters
  | taskReturnAgain
  | taskReturn
  | taskSwitch
  | taskSwitchSave
  | taskSwitchSaved
  | taskSwitchAgain
  | taskStart
  | taskStartUser
  | taskStartRegisters
deriving DecidableEq, Repr

/-- `xn_reversed`, as `_task_save` writes it. -/
def reversedPairs : Pairs :=
  [(.x 28, .x 29, 40 + 16 * 0), (.x 26, .x 27, 40 + 16 * 1), (.x 24, .x 25, 40 + 16 * 2),
    (.x 22, .x 23, 40 + 16 * 3), (.x 20, .x 21, 40 + 16 * 4), (.x 18, .x 19, 40 + 16 * 5),
    (.x 16, .x 17, 40 + 16 * 6), (.x 14, .x 15, 40 + 16 * 7), (.x 12, .x 13, 40 + 16 * 8),
    (.x 10, .x 11, 40 + 16 * 9), (.x 8, .x 9, 40 + 16 * 10), (.x 6, .x 7, 40 + 16 * 11),
    (.x 4, .x 5, 40 + 16 * 12), (.x 2, .x 3, 40 + 16 * 13), (.x 0, .x 1, 40 + 16 * 14)]

/-- `xn_reversed`, as `_task_start` reads all but the last of it. -/
def startedPairs : Pairs :=
  [(.x 28, .x 29, 16 * 0), (.x 26, .x 27, 16 * 1), (.x 24, .x 25, 16 * 2),
    (.x 22, .x 23, 16 * 3), (.x 20, .x 21, 16 * 4), (.x 18, .x 19, 16 * 5),
    (.x 16, .x 17, 16 * 6), (.x 14, .x 15, 16 * 7), (.x 12, .x 13, 16 * 8),
    (.x 10, .x 11, 16 * 9), (.x 8, .x 9, 16 * 10), (.x 6, .x 7, 16 * 11), (.x 4, .x 5, 16 * 12),
    (.x 2, .x 3, 16 * 13)]

/-- What `task_switch` keeps on the stack. -/
def callerPairs : Pairs :=
  [(.x 2, .x 3, 0), (lr, .zero, 16)]

def switchBlock (layout : Layout SwitchLabel) : SwitchLabel -> Block SwitchLabel
  | .taskSave =>
      { body := [.mov (.x 2) 0, .mrs (.x 3) .currentEl, .cmp (.x 3) 0]
        exit := .branchEq .taskSaveEl0 .taskSaveEl1 }
  | .taskSaveEl1 =>
      { body := [.add (.x 3) (.x 3) 1]
        exit := .goto .taskSaveEl0 }
  | .taskSaveEl0 =>
      { body :=
          [.orr (.x 2) (.x 2) (.x 3), .mrs (.x 3) .daif, .orr (.x 2) (.x 2) (.x 3),
            .mrs (.x 3) .nzcv, .orr (.x 2) (.x 2) (.x 3),
            .mov (.x 3) (layout.addressOf .taskReturnAgain), .stp (.x 2) (.x 3) (.x 0) 0,
            .cmp (.x 1) 0]
        exit := .branchEq .taskSaveUser .taskSaveRegisters }
  | .taskSaveUser =>
      { body := [.mrs (.x 2) .spEl0, .str (.x 2) (.x 0) 16]
        exit := .goto .taskSaveRegisters }
  | .taskSaveRegisters =>
      { body :=
          [.movFromSp (.x 2), .stp (.x 2) lr (.x 0) 24] ++ savePairs (.x 0) reversedPairs ++
            [.mov (.x 0) 0]
        exit := .goto .taskReturn }
  | .taskReturnAgain =>
      { body := [.mov (.x 0) 1]
        exit := .goto .taskReturn }
  | .taskReturn =>
      { body := []
        exit := .ret }
  | .taskSwitch =>
      { body := [.cmp (.x 0) 0]
        exit := .branchEq .taskStart .taskSwitchSave }
  | .taskSwitchSave =>
      { body := .subSp 32 :: savePairs .sp callerPairs
        exit := .call .taskSave .taskSwitchSaved }
  | .taskSwitchSaved =>
      { body := restorePairs .sp callerPairs ++ [.addSp 32, .cmp (.x 0) 0]
        exit := .branchEq .taskStart .taskSwitchAgain }
  | .taskSwitchAgain =>
      { body := []
        exit := .ret }
  | .taskStart =>
      { body :=
          [.ldp (.x 0) (.x 1) (.x 2) 0, .msr .spsrEl1 (.x 0), .msr .elrEl1 (.x 1), .cmp (.x 3) 0]
        exit := .branchEq .taskStartUser .taskStartRegisters }
  | .taskStartUser =>
      { body := [.ldr (.x 0) (.x 2) 16, .msr .spEl0 (.x 0)]
        exit := .goto .taskStartRegisters }
  | .taskStartRegisters =>
      { body :=
          [.ldp (.x 1) lr (.x 2) 24, .movToSp (.x 1), .add (.x 0) (.x 2) 40] ++
            restorePairs (.x 0) startedPairs ++ [.ldp (.x 0) (.x 1) (.x 0) (16 * 14)]
        exit := .eret }

variable {layout : Layout SwitchLabel} {machine : Machine}

/-- A run through the code of a switch. -/
abbrev SwitchSteps (layout : Layout SwitchLabel) : Machine -> Machine -> Prop :=
  Steps layout (switchBlock layout)

/-! ## Saving -/

/-- The saved program state that `_task_save` makes up. -/
def savedState (machine : Machine) (flags : Flags) : Word :=
  (0 ||| (machine.readSystem .currentEl + 1)) ||| machine.readSystem .daif ||| flags.toWord

/-- It stands for the level with its own stack pointer, and the interrupt mask. -/
theorem savedState_fields (machine : Machine) (flags : Flags) (level : machine.el = 1) :
    (savedState machine flags).extractLsb' 2 2 = 1 ∧
      (savedState machine flags).getLsbD 0 = true ∧
      (savedState machine flags).extractLsb' 6 4 = machine.daif := by
  have all : forall (daif : BitVec 4) (negative zero carry overflow : Bool),
      let word : Word := (0 ||| ((1 : BitVec 2).setWidth 64 <<< 2 + 1)) |||
        daif.setWidth 64 <<< 6 ||| (Flags.mk negative zero carry overflow).toWord
      word.extractLsb' 2 2 = 1 ∧ word.getLsbD 0 = true ∧ word.extractLsb' 6 4 = daif := by
    decide
  rcases flags with ⟨negative, zero, carry, overflow⟩
  rw [savedState, Machine.readSystem, level]
  exact all machine.daif negative zero carry overflow

/-- Into `_task_save`, with the frame of the caller on the stack. -/
theorem enter_steps (placed : machine.pc = layout.addressOf .taskSwitch) (saves : machine.x 0 ≠ 0) :
    Exists fun after => SwitchSteps layout machine after ∧
      after.pc = layout.addressOf .taskSave ∧
      after.x = Function.update machine.x 30 (layout.addressOf .taskSwitchSaved) ∧
      after.sp = machine.sp - 32 ∧ after.spEl0 = machine.spEl0 ∧ after.el = machine.el ∧
      after.daif = machine.daif ∧
      after.memory = storeSlots machine.read (machine.sp - 32) (slots callerPairs) machine.memory := by
  let compared := machine.runBlock layout (switchBlock layout .taskSwitch)
  have placed' : compared.pc = layout.addressOf .taskSwitchSave := by
    change layout.addressOf (if (machine.x 0 == 0) = true then _ else _) = _
    rw [if_neg (by rwa [beq_iff_eq])]
  have steps : SwitchSteps layout machine compared := Steps.block_at SwitchLabel.taskSwitch placed
  refine ⟨_, steps.trans (Steps.block_at SwitchLabel.taskSwitchSave placed'), rfl, rfl, rfl, rfl,
    rfl, rfl, ?_⟩
  change ((compared.execute (.subSp 32)).executeAll (savePairs .sp callerPairs)).memory = _
  rw [Machine.execute_savePairs]
  rfl

/-- Into `_task_start` when there is nothing to save. -/
theorem skip_steps (placed : machine.pc = layout.addressOf .taskSwitch) (skips : machine.x 0 = 0) :
    Exists fun after => SwitchSteps layout machine after ∧
      after.pc = layout.addressOf .taskStart ∧ after.x = machine.x ∧
      after.spEl0 = machine.spEl0 ∧ after.memory = machine.memory := by
  refine ⟨_, Steps.block_at SwitchLabel.taskSwitch placed, ?_, rfl, rfl, rfl⟩
  change layout.addressOf (if (machine.x 0 == 0) = true then _ else _) = _
  rw [if_pos (by rwa [beq_iff_eq])]

/-- What `_task_save` writes to the `Registers`. -/
def savedSlots (layout : Layout SwitchLabel) (machine : Machine) (flags : Flags)
    (values : Register -> Word) : List (Word × Word) :=
  [(savedState machine flags, 0), (layout.addressOf .taskReturnAgain, 8)] ++
    (if machine.x 1 = 0 then [(machine.spEl0, 16)] else []) ++
    [(machine.sp, 24), (machine.x 30, 32)] ++ (slots reversedPairs).map (Prod.map values id)

/-- The registers that the calling convention has a callee save. -/
def CalleeSaved (index : Fin 31) : Prop :=
  19 ≤ index.val ∧ index.val ≤ 29

instance (index : Fin 31) : Decidable (CalleeSaved index) :=
  inferInstanceAs (Decidable (_ ∧ _))

/-- The first half of `_task_save`: the program state, the program counter and the
stack pointer of user mode. -/
theorem save_state_steps (placed : machine.pc = layout.addressOf .taskSave)
    (level : machine.el = 1) :
    Exists fun after => Exists fun flags => SwitchSteps layout machine after ∧
      after.pc = layout.addressOf .taskSaveRegisters ∧ after.sp = machine.sp ∧
      after.spEl0 = machine.spEl0 ∧
      (forall index, index ≠ 2 -> index ≠ 3 -> after.x index = machine.x index) ∧
      after.memory = storeSlots id (machine.x 0)
        ([(savedState machine flags, 0), (layout.addressOf .taskReturnAgain, 8)] ++
          if machine.x 1 = 0 then [(machine.spEl0, 16)] else []) machine.memory := by
  let first := machine.runBlock layout (switchBlock layout .taskSave)
  have placed1 : first.pc = layout.addressOf .taskSaveEl1 := by
    change layout.addressOf (if (machine.readSystem .currentEl == 0) = true then _ else _) = _
    rw [Machine.readSystem, level, if_neg (by decide)]
  let second := first.runBlock layout (switchBlock layout .taskSaveEl1)
  have second_placed : second.pc = layout.addressOf .taskSaveEl0 := rfl
  let third := second.runBlock layout (switchBlock layout .taskSaveEl0)
  have steps : SwitchSteps layout machine third :=
    ((Steps.block_at SwitchLabel.taskSave placed).trans
      (Steps.block_at SwitchLabel.taskSaveEl1 placed1)).trans
      (Steps.block_at SwitchLabel.taskSaveEl0 second_placed)
  have registers : forall index, index ≠ 2 -> index ≠ 3 -> third.x index = machine.x index := by
    intro index notTwo notThree
    simp only [third, second, first, Machine.runBlock, switchBlock, Machine.executeAll,
      Machine.execute, Machine.write, Machine.leave, Machine.store, Machine.compare]
    simp only [Function.update_of_ne notTwo, Function.update_of_ne notThree]
  have memory : third.memory = storeSlots id (machine.x 0)
      [(savedState machine first.nzcv, 0), (layout.addressOf .taskReturnAgain, 8)]
      machine.memory := by
    change Function.update (Function.update _ (machine.x 0 + 0) _) (machine.x 0 + 0 + 8) _ = _
    rw [BitVec.add_assoc]
    rfl
  by_cases user : machine.x 1 = 0
  · have placed3 : third.pc = layout.addressOf .taskSaveUser := by
      change layout.addressOf (if (machine.x 1 == 0) = true then _ else _) = _
      rw [if_pos (by rwa [beq_iff_eq])]
    refine ⟨third.runBlock layout (switchBlock layout .taskSaveUser), first.nzcv,
      steps.trans (Steps.block_at SwitchLabel.taskSaveUser placed3), rfl, rfl, rfl, ?_, ?_⟩
    · intro index notTwo notThree
      rw [← registers index notTwo notThree]
      exact Function.update_of_ne notTwo _ _
    · rw [if_pos user, storeSlots_append, ← memory]
      rfl
  · have placed3 : third.pc = layout.addressOf .taskSaveRegisters := by
      change layout.addressOf (if (machine.x 1 == 0) = true then _ else _) = _
      rw [if_neg (by rwa [beq_iff_eq])]
    refine ⟨third, first.nzcv, steps, placed3, rfl, rfl, registers, ?_⟩
    rw [if_neg user, List.append_nil, memory]

theorem CalleeSaved.ne {index other : Fin 31} (saved : CalleeSaved index)
    (clobbered : ¬ CalleeSaved other) : index ≠ other :=
  fun same => clobbered (same ▸ saved)

/-- From `_task_save` to its return with zero. -/
theorem save_steps (placed : machine.pc = layout.addressOf .taskSave) (level : machine.el = 1) :
    Exists fun after => Exists fun flags => Exists fun values => SwitchSteps layout machine after ∧
      after.pc = machine.x 30 ∧ after.x 0 = 0 ∧ after.sp = machine.sp ∧
      after.spEl0 = machine.spEl0 ∧
      (forall index, CalleeSaved index -> values (.x index) = machine.x index) ∧
      after.memory =
        storeSlots id (machine.x 0) (savedSlots layout machine flags values) machine.memory := by
  rcases save_state_steps placed level with
    ⟨halfway, flags, steps, placed1, sp, spEl0, registers, memory⟩
  let pointed := (halfway.execute (.movFromSp (.x 2))).execute (.stp (.x 2) lr (.x 0) 24)
  have body : halfway.executeAll (switchBlock layout .taskSaveRegisters).body =
      (pointed.executeAll (savePairs (.x 0) reversedPairs)).execute (.mov (.x 0) 0) := by
    rw [switchBlock, Machine.executeAll_append, Machine.executeAll_append]
    rfl
  rw [Machine.execute_savePairs] at body
  have block : SwitchSteps layout halfway _ := Steps.block_at SwitchLabel.taskSaveRegisters placed1
  rw [Machine.runBlock, body] at block
  have base : halfway.x 0 = machine.x 0 := registers 0 (by decide) (by decide)
  have link : halfway.x 30 = machine.x 30 := registers 30 (by decide) (by decide)
  refine ⟨_, flags, pointed.read,
    (steps.trans block).trans (Steps.block_at SwitchLabel.taskReturn rfl), link, rfl, sp, spEl0, ?_,
    ?_⟩
  · intro index callee
    rw [← registers index (callee.ne (by decide)) (callee.ne (by decide))]
    exact Function.update_of_ne (callee.ne (by decide)) _ _
  · have written : pointed.memory = storeSlots id (machine.x 0)
        [(machine.sp, 24), (machine.x 30, 32)] halfway.memory := by
      change Function.update (Function.update halfway.memory (halfway.x 0 + 24) halfway.sp)
        (halfway.x 0 + 24 + 8) (halfway.x 30) = _
      rw [base, link, sp, BitVec.add_assoc]
      rfl
    have base' : pointed.x 0 = machine.x 0 := base
    rw [savedSlots, storeSlots_append, storeSlots_append, ← memory, ← written, ← storeSlots_map,
      ← base']
    rfl

/-- Back in `task_switch` after saving. -/
theorem saved_steps (placed : machine.pc = layout.addressOf .taskSwitchSaved)
    (zero : machine.x 0 = 0) :
    Exists fun after => SwitchSteps layout machine after ∧
      after.pc = layout.addressOf .taskStart ∧ after.x 2 = machine.memory (machine.sp + 0) ∧
      after.x 3 = machine.memory (machine.sp + 8) ∧ after.spEl0 = machine.spEl0 ∧
      after.memory = machine.memory := by
  refine ⟨_, Steps.block_at SwitchLabel.taskSwitchSaved placed, ?_, rfl, ?_, rfl, rfl⟩
  · change layout.addressOf (if (machine.x 0 == 0) = true then _ else _) = _
    rw [if_pos (by rwa [beq_iff_eq])]
  · change machine.memory (machine.sp + 0 + 8) = _
    rw [BitVec.add_assoc]
    rfl

/-! ## Switching back -/

/-- From the exception return into `_task_return_again` to the return to the caller. -/
theorem again_steps (placed : machine.pc = layout.addressOf .taskReturnAgain)
    (link : machine.x 30 = layout.addressOf .taskSwitchSaved) :
    Exists fun after => SwitchSteps layout machine after ∧
      after.pc = machine.memory (machine.sp + 16) ∧
      after.x 30 = machine.memory (machine.sp + 16) ∧ after.sp = machine.sp + 32 ∧
      (forall index, CalleeSaved index -> after.x index = machine.x index) ∧
      after.spEl0 = machine.spEl0 ∧ after.el = machine.el ∧ after.spSel = machine.spSel ∧
      after.daif = machine.daif ∧ after.memory = machine.memory := by
  let first := machine.runBlock layout (switchBlock layout .taskReturnAgain)
  let second := first.runBlock layout (switchBlock layout .taskReturn)
  let third := second.runBlock layout (switchBlock layout .taskSwitchSaved)
  have placed1 : first.pc = layout.addressOf .taskReturn := rfl
  have placed2 : second.pc = layout.addressOf .taskSwitchSaved := link
  have placed3 : third.pc = layout.addressOf .taskSwitchAgain := rfl
  have steps1 : SwitchSteps layout machine first :=
    Steps.block_at SwitchLabel.taskReturnAgain placed
  have steps2 : SwitchSteps layout first second := Steps.block_at SwitchLabel.taskReturn placed1
  have steps3 : SwitchSteps layout second third :=
    Steps.block_at SwitchLabel.taskSwitchSaved placed2
  refine ⟨_, ((steps1.trans steps2).trans steps3).trans
    (Steps.block_at SwitchLabel.taskSwitchAgain placed3), rfl, rfl, rfl, ?_, rfl, rfl, rfl, rfl, rfl⟩
  intro index callee
  change Function.update (Function.update (Function.update (Function.update machine.x 0 _) 2 _) 3 _)
    30 _ index = _
  rw [Function.update_of_ne (callee.ne (by decide)), Function.update_of_ne (callee.ne (by decide)),
    Function.update_of_ne (callee.ne (by decide)), Function.update_of_ne (callee.ne (by decide))]

/-! ## Starting -/

/-- What an exception return with the `Registers` at an address comes to. -/
structure StartedFrom (memory : Word -> Word) (registers : Word) (after : Machine) : Prop where
  pc : after.pc = memory (registers + 8)
  sp : after.sp = memory (registers + 24)
  link : after.x 30 = memory (registers + 32)
  el : after.el = (memory (registers + 0)).extractLsb' 2 2
  spSel : after.spSel = (memory (registers + 0)).getLsbD 0
  daif : after.daif = (memory (registers + 0)).extractLsb' 6 4
  general : forall index offset, (.x index, offset) ∈ slots startedPairs ->
    after.x index = memory (registers + 40 + offset)
  memory : after.memory = memory

/-- The first half of `_task_start`. -/
theorem start_state_steps (placed : machine.pc = layout.addressOf .taskStart) :
    Exists fun after => SwitchSteps layout machine after ∧
      after.pc = layout.addressOf .taskStartRegisters ∧ after.x 2 = machine.x 2 ∧
      after.spsr = machine.memory (machine.x 2 + 0) ∧
      after.elr = machine.memory (machine.x 2 + 8) ∧ after.memory = machine.memory ∧
      after.spEl0 = if machine.x 3 = 0 then machine.memory (machine.x 2 + 16) else machine.spEl0 := by
  let first := machine.runBlock layout (switchBlock layout .taskStart)
  have steps : SwitchSteps layout machine first := Steps.block_at SwitchLabel.taskStart placed
  have elr : first.elr = machine.memory (machine.x 2 + 8) := by
    change machine.memory (machine.x 2 + 0 + 8) = _
    rw [BitVec.add_assoc]
    rfl
  by_cases user : machine.x 3 = 0
  · have placed1 : first.pc = layout.addressOf .taskStartUser := by
      change layout.addressOf (if (machine.x 3 == 0) = true then _ else _) = _
      rw [if_pos (by rwa [beq_iff_eq])]
    refine ⟨_, steps.trans (Steps.block_at SwitchLabel.taskStartUser placed1), rfl, rfl, rfl, elr,
      rfl, ?_⟩
    rw [if_pos user]
    rfl
  · have placed1 : first.pc = layout.addressOf .taskStartRegisters := by
      change layout.addressOf (if (machine.x 3 == 0) = true then _ else _) = _
      rw [if_neg (by rwa [beq_iff_eq])]
    refine ⟨first, steps, placed1, rfl, rfl, elr, rfl, ?_⟩
    rw [if_neg user]
    rfl

theorem startedPairs_registers : ((slots startedPairs).map Prod.fst).Nodup := by
  decide

theorem start_steps (placed : machine.pc = layout.addressOf .taskStart) :
    Exists fun after => SwitchSteps layout machine after ∧
      StartedFrom machine.memory (machine.x 2) after ∧
      after.spEl0 = if machine.x 3 = 0 then machine.memory (machine.x 2 + 16) else machine.spEl0 := by
  rcases start_state_steps placed with ⟨halfway, steps, placed1, registers, spsr, elr, memory, spEl0⟩
  let pointed := (((halfway.execute (.ldp (.x 1) lr (.x 2) 24)).execute (.movToSp (.x 1))).execute
    (.add (.x 0) (.x 2) 40))
  have body : halfway.executeAll (switchBlock layout .taskStartRegisters).body =
      (pointed.executeAll (restorePairs (.x 0) startedPairs)).execute
        (.ldp (.x 0) (.x 1) (.x 0) (16 * 14)) := by
    rw [switchBlock, Machine.executeAll_append, Machine.executeAll_append]
    rfl
  rw [Machine.execute_restorePairs pointed (.x 0) startedPairs (fun index same => by
    cases same
    decide), Machine.execute_ldp] at body
  have block : SwitchSteps layout halfway _ := Steps.block_at SwitchLabel.taskStartRegisters placed1
  rw [Machine.runBlock, body] at block
  have apart : forall index offset, (.x index, offset) ∈ slots startedPairs ->
      Register.x index ∉ [Register.x 0, Register.x 1] := by
    intro index offset member both
    have among : Register.x index ∈ (slots startedPairs).map Prod.fst :=
      List.mem_map.mpr ⟨_, member, rfl⟩
    rcases List.mem_pair.mp both with same | same
    · rw [same] at among
      exact absurd among (by decide)
    · rw [same] at among
      exact absurd among (by decide)
  refine ⟨_, steps.trans block, ?_, spEl0⟩
  rw [← memory, ← registers]
  refine
    { pc := ?_, sp := rfl, link := ?_, el := ?_, spSel := ?_, daif := ?_, general := ?_, memory := rfl }
  · change halfway.elr = _
    rw [elr, registers, memory]
  · refine (loadSlots_other (by decide)).trans ((loadSlots_other (by decide)).trans ?_)
    change halfway.memory (halfway.x 2 + 24 + 8) = _
    rw [BitVec.add_assoc]
    rfl
  · change halfway.spsr.extractLsb' 2 2 = _
    rw [spsr, registers, memory]
  · change halfway.spsr.getLsbD 0 = _
    rw [spsr, registers, memory]
  · change halfway.spsr.extractLsb' 6 4 = _
    rw [spsr, registers, memory]
  · intro index offset member
    exact (loadSlots_other (apart index offset member)).trans
      (loadSlots_at startedPairs_registers member)

end Kernel
end Pinyon
