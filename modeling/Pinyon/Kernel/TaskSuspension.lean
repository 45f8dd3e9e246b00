import Pinyon.Kernel.TaskSwitch

namespace Pinyon
namespace Kernel

open Library.Aarch64

/-!
# A task that is switched out

While a task is switched out its state is spread over its `Registers` and its kernel
stack: the `Registers` lead back into `_task_save`, and a frame on the kernel stack
leads from there to the caller of `task_switch`.
-/

/-- The offsets of the fields of `Registers`. -/
def registerOffsets : List Word :=
  (List.range 35).map fun index => BitVec.ofNat 64 (8 * index)

/-- The double words of the `Registers` at an address. -/
def registersBlock (registers : Word) : Set Word :=
  { address | Exists fun offset => offset ∈ registerOffsets ∧ address = registers + offset }

/-- The double words of the frame that `task_switch` makes below a stack pointer. -/
def callerFrame (sp : Word) : Set Word :=
  { address | Exists fun slot => slot ∈ slots callerPairs ∧ address = sp - 32 + slot.2 }

/-- `is_kernel_registers`. -/
def isKernelRegisters (memory : Word -> Word) (registers : Word) : Bool :=
  memory (registers + 16) == memory (registers + 24)

/-- `task_switch` has returned to its caller. -/
structure ReturnedToCaller (isUser : Bool) (call after : Machine) : Prop where
  pc : after.pc = call.x 30
  saved : forall index, CalleeSaved index -> after.x index = call.x index
  link : after.x 30 = call.x 30
  sp : after.sp = call.sp
  level : after.el = 1 ∧ after.spSel = true
  daif : after.daif = call.daif
  user : isUser = true -> after.spEl0 = call.spEl0

variable {layout : Layout SwitchLabel}

/-- Its `Registers` and the frame on its kernel stack. -/
structure Suspended (layout : Layout SwitchLabel) (isUser : Bool) (memory : Word -> Word)
    (registers : Word) (call : Machine) : Prop where
  el : (memory (registers + 0)).extractLsb' 2 2 = 1
  spSel : (memory (registers + 0)).getLsbD 0 = true
  daif : (memory (registers + 0)).extractLsb' 6 4 = call.daif
  pc : memory (registers + 8) = layout.addressOf .taskReturnAgain
  user : isUser = true -> memory (registers + 16) = call.spEl0
  sp : memory (registers + 24) = call.sp - 32
  link : memory (registers + 32) = layout.addressOf .taskSwitchSaved
  general : forall index offset, CalleeSaved index -> (.x index, offset) ∈ slots startedPairs ->
    memory (registers + 40 + offset) = call.x index
  frame : memory (call.sp - 32 + 16) = call.x 30
  caller : layout.labelAt (call.x 30) = none

variable {isUser : Bool} {memory memory' : Word -> Word} {registers : Word} {call : Machine}

theorem mem_registersBlock {offset : Word} (member : offset ∈ registerOffsets) :
    registers + offset ∈ registersBlock registers :=
  ⟨offset, member, rfl⟩

theorem general_mem_registersBlock {index : Fin 31} {offset : Word}
    (member : (.x index, offset) ∈ slots startedPairs) :
    registers + 40 + offset ∈ registersBlock registers := by
  have all : forall slot, slot ∈ slots startedPairs -> 40 + slot.2 ∈ registerOffsets := by decide
  rw [BitVec.add_assoc]
  exact mem_registersBlock (all _ member)

theorem link_mem_callerFrame (sp : Word) : sp - 32 + 16 ∈ callerFrame sp :=
  ⟨(lr, 16), by decide, rfl⟩

/-- It depends on nothing else in memory. -/
theorem Suspended.congr (suspended : Suspended layout isUser memory registers call)
    (block : forall address, address ∈ registersBlock registers -> memory' address = memory address)
    (frame : forall address, address ∈ callerFrame call.sp -> memory' address = memory address) :
    Suspended layout isUser memory' registers call := by
  have field (offset : Word) (member : offset ∈ registerOffsets) :
      memory' (registers + offset) = memory (registers + offset) :=
    block _ (mem_registersBlock member)
  have state := field 0 (by decide)
  exact
    { el := state ▸ suspended.el
      spSel := state ▸ suspended.spSel
      daif := state ▸ suspended.daif
      pc := (field 8 (by decide)).trans suspended.pc
      user := fun user => (field 16 (by decide)).trans (suspended.user user)
      sp := (field 24 (by decide)).trans suspended.sp
      link := (field 32 (by decide)).trans suspended.link
      general := fun index offset callee member =>
        (block _ (general_mem_registersBlock member)).trans
          (suspended.general index offset callee member)
      frame := (frame _ (link_mem_callerFrame call.sp)).trans suspended.frame
      caller := suspended.caller }

theorem isKernelRegisters_congr
    (block : forall address, address ∈ registersBlock registers -> memory' address = memory address) :
    isKernelRegisters memory' registers = isKernelRegisters memory registers := by
  rw [isKernelRegisters, isKernelRegisters, block _ (mem_registersBlock (by decide)),
    block _ (mem_registersBlock (by decide))]

/-! ## Saving the running task -/

theorem savedSlots_offsets (layout : Layout SwitchLabel) (machine : Machine) (flags : Flags)
    (values : Register -> Word) :
    (savedSlots layout machine flags values).map Prod.snd =
      if machine.x 1 = 0 then [0, 8, 16, 24, 32] ++ (slots reversedPairs).map Prod.snd
      else [0, 8, 24, 32] ++ (slots reversedPairs).map Prod.snd := by
  rw [savedSlots]
  split
  · rfl
  · rfl

theorem savedSlots_distinct (layout : Layout SwitchLabel) (machine : Machine) (flags : Flags)
    (values : Register -> Word) :
    ((savedSlots layout machine flags values).map Prod.snd).Nodup ∧
      forall slot, slot ∈ savedSlots layout machine flags values -> slot.2 ∈ registerOffsets := by
  have fields : ([0, 8, 16, 24, 32] : List Word).all (fun offset => offset ∈ registerOffsets) := by
    decide
  have general :
      ((slots reversedPairs).map Prod.snd).all (fun offset => offset ∈ registerOffsets) := by
    decide
  simp only [List.all_eq_true, decide_eq_true_eq] at fields general
  have listed := savedSlots_offsets layout machine flags values
  constructor
  · rw [listed]
    split
    · decide
    · decide
  · intro slot member
    have among : slot.2 ∈ (savedSlots layout machine flags values).map Prod.snd :=
      List.mem_map.mpr ⟨slot, member, rfl⟩
    rw [listed] at among
    split at among
    · exact (List.mem_append.mp among).elim (fields _) (general _)
    · refine (List.mem_append.mp among).elim (fun field => fields _ ?_) (general _)
      exact List.mem_of_mem_erase (show slot.2 ∈ [0, 8, 16, 24, 32].erase 16 from field)

/-- What `_task_save` leaves in memory. -/
theorem suspended_of_saved {call entered : Machine} {flags : Flags} {values : Register -> Word}
    (level : entered.el = 1) (daif : entered.daif = call.daif) (sp : entered.sp = call.sp - 32)
    (link : entered.x 30 = layout.addressOf .taskSwitchSaved) (spEl0 : entered.spEl0 = call.spEl0)
    (general : forall index, CalleeSaved index -> values (.x index) = call.x index)
    (user : isUser = true -> entered.x 1 = 0) (caller : layout.labelAt (call.x 30) = none)
    (written : memory' = storeSlots id registers (savedSlots layout entered flags values) memory)
    (frame : memory' (call.sp - 32 + 16) = call.x 30) :
    Suspended layout isUser memory' registers call := by
  have distinct := (savedSlots_distinct layout entered flags values).1
  have found (value offset : Word)
      (member : (value, offset) ∈ savedSlots layout entered flags values) :
      memory' (registers + offset) = value := by
    rw [written]
    exact storeSlots_at distinct member
  have state := savedState_fields entered flags level
  have stored := found (savedState entered flags) 0 (by simp [savedSlots])
  rw [← stored] at state
  refine
    { el := state.1, spSel := state.2.1, daif := state.2.2.trans daif
      pc := found _ 8 (by simp [savedSlots])
      user := fun isUser => ?_
      sp := (found entered.sp 24 (by simp [savedSlots])).trans sp
      link := (found (entered.x 30) 32 (by simp [savedSlots])).trans link
      general := fun index offset callee member => ?_
      frame := frame, caller := caller }
  · refine (found entered.spEl0 16 ?_).trans spEl0
    simp [savedSlots, user isUser]
  · have all : forall slot, slot ∈ slots startedPairs ->
        (slot.1, 40 + slot.2) ∈ slots reversedPairs := by
      decide
    rw [BitVec.add_assoc, found (values (.x index)) (40 + offset) ?_, general index callee]
    refine List.mem_append_right _ (List.mem_map.mpr ⟨(.x index, 40 + offset), all _ member, rfl⟩)

/-- What leads from the call to the start of the next task: the frame of the caller is
pushed, and what is saved is taken from the machine with that frame. -/
structure SavedBy (layout : Layout SwitchLabel) (machine entered after : Machine) (flags : Flags)
    (values : Register -> Word) : Prop where
  x : entered.x = Function.update machine.x 30 (layout.addressOf .taskSwitchSaved)
  sp : entered.sp = machine.sp - 32
  spEl0 : entered.spEl0 = machine.spEl0
  el : entered.el = machine.el
  daif : entered.daif = machine.daif
  pushed : entered.memory =
    storeSlots machine.read (machine.sp - 32) (slots callerPairs) machine.memory
  general : forall index, CalleeSaved index -> values (.x index) = entered.x index
  stored : after.memory =
    storeSlots id (machine.x 0) (savedSlots layout entered flags values) entered.memory
  next : after.x 2 = after.memory (machine.sp - 32 + 0) ∧
    after.x 3 = after.memory (machine.sp - 32 + 8)
  afterSpEl0 : after.spEl0 = machine.spEl0

theorem SavedBy.link {machine entered after : Machine} {flags : Flags} {values : Register -> Word}
    (saved : SavedBy layout machine entered after flags values) :
    entered.x 30 = layout.addressOf .taskSwitchSaved := by
  rw [saved.x]
  rfl

theorem saved_by {machine : Machine} (placed : machine.pc = layout.addressOf .taskSwitch)
    (saves : machine.x 0 ≠ 0) (level : machine.el = 1) :
    Exists fun entered => Exists fun after => Exists fun flags => Exists fun values =>
      SwitchSteps layout machine after ∧ after.pc = layout.addressOf .taskStart ∧
        SavedBy layout machine entered after flags values := by
  rcases enter_steps placed saves with ⟨entered, enters, placed1, x, sp, spEl0, el, daif, memory⟩
  rcases save_steps placed1 (el.trans level) with
    ⟨saved, flags, values, savesTask, placed2, zero, savedSp, savedSpEl0, general, savedMemory⟩
  have x0 : entered.x 0 = machine.x 0 := by rw [x]; rfl
  have link : entered.x 30 = layout.addressOf .taskSwitchSaved := by rw [x]; rfl
  rcases saved_steps (placed2.trans link) zero with
    ⟨after, returns, placed3, x2, x3, afterSpEl0, afterMemory⟩
  rw [x0] at savedMemory
  rw [savedSp, sp, ← afterMemory] at x2 x3
  exact ⟨entered, after, flags, values, (enters.trans savesTask).trans returns, placed3,
    { x, sp, spEl0, el, daif, pushed := memory, general, stored := afterMemory.trans savedMemory
      next := ⟨x2, x3⟩, afterSpEl0 := afterSpEl0.trans (savedSpEl0.trans spEl0) }⟩

/-- From the call to the start of the next task, with the running task saved. -/
theorem saving_steps {machine : Machine} (placed : machine.pc = layout.addressOf .taskSwitch)
    (saves : machine.x 0 ≠ 0) (level : machine.el = 1)
    (caller : layout.labelAt (machine.x 30) = none)
    (apart : Disjoint (registersBlock (machine.x 0)) (callerFrame machine.sp))
    (user : isUser = true -> machine.x 1 = 0) :
    Exists fun after => SwitchSteps layout machine after ∧
      after.pc = layout.addressOf .taskStart ∧ after.x 2 = machine.x 2 ∧ after.x 3 = machine.x 3 ∧
      after.spEl0 = machine.spEl0 ∧
      Suspended layout isUser after.memory (machine.x 0) machine ∧
      forall address, address ∉ registersBlock (machine.x 0) -> address ∉ callerFrame machine.sp ->
        after.memory address = machine.memory address := by
  rcases saved_by placed saves level with ⟨entered, after, flags, values, steps, started, saved⟩
  have inBlock := (savedSlots_distinct layout entered flags values).2
  have outside (address : Word) (off : address ∉ registersBlock (machine.x 0)) :
      after.memory address = entered.memory address := by
    rw [saved.stored]
    exact storeSlots_other fun slot member same =>
      off ⟨slot.2, inBlock slot member, same⟩
  have onFrame (register : Register) (offset : Word)
      (member : (register, offset) ∈ slots callerPairs) :
      after.memory (machine.sp - 32 + offset) = machine.read register := by
    rw [outside _ fun within => Set.disjoint_left.mp apart within ⟨_, member, rfl⟩, saved.pushed]
    exact storeSlots_at (by decide) member
  refine ⟨after, steps, started, ?_, ?_, saved.afterSpEl0, ?_, ?_⟩
  · rw [saved.next.1]
    exact onFrame (.x 2) 0 (by decide)
  · rw [saved.next.2]
    exact onFrame (.x 3) 8 (by decide)
  · refine suspended_of_saved (saved.el.trans level) saved.daif saved.sp saved.link saved.spEl0
      (fun index callee => ?_) (fun isUser => ?_) caller saved.stored (onFrame lr 16 (by decide))
    · rw [saved.general index callee, saved.x, Function.update_of_ne (callee.ne (by decide))]
    · rw [saved.x]
      exact user isUser
  · intro address offBlock offFrame
    rw [outside address offBlock, saved.pushed]
    exact storeSlots_other fun slot member same => offFrame ⟨slot, member, same⟩

/-! ## Starting the next task -/

/-- A task that was switched out returns to where it was. -/
theorem resume_steps {machine : Machine} (placed : machine.pc = layout.addressOf .taskStart)
    (suspended : Suspended layout isUser machine.memory (machine.x 2) call)
    (user : isUser = true -> machine.x 3 = 0) :
    Exists fun after => Leaves layout (switchBlock layout) machine after ∧
      ReturnedToCaller isUser call after ∧ after.memory = machine.memory := by
  rcases start_steps placed with ⟨started, starts, from_, spEl0⟩
  rcases again_steps (from_.pc.trans suspended.pc) (from_.link.trans suspended.link) with
    ⟨after, again, pc, link, sp, saved, afterSpEl0, el, spSel, daif, memory⟩
  have returnsTo : started.memory (started.sp + 16) = call.x 30 := by
    rw [from_.memory, from_.sp, suspended.sp]
    exact suspended.frame
  refine ⟨after, ⟨starts.trans again, ?_⟩, ?_, memory.trans from_.memory⟩
  · rw [pc, returnsTo]
    exact suspended.caller
  · refine
      { pc := pc.trans returnsTo, saved := fun index callee => ?_, link := link.trans returnsTo
        sp := ?_, level := ⟨?_, ?_⟩, daif := ?_, user := fun isUser => ?_ }
    · have all : forall index : Fin 31, CalleeSaved index ->
          Exists fun slot => slot ∈ slots startedPairs ∧ slot.1 = .x index := by
        decide
      rcases all index callee with ⟨⟨_, offset⟩, member, rfl⟩
      rw [saved index callee, from_.general index offset member]
      exact suspended.general index offset callee member
    · rw [sp, from_.sp, suspended.sp]
      exact BitVec.sub_add_cancel _ _
    · rw [el, from_.el]
      exact suspended.el
    · rw [spSel, from_.spSel]
      exact suspended.spSel
    · rw [daif, from_.daif]
      exact suspended.daif
    · rw [afterSpEl0, spEl0, if_pos (user isUser)]
      exact suspended.user isUser

/-- A new task leaves for its entry point. -/
theorem new_steps {machine : Machine} (placed : machine.pc = layout.addressOf .taskStart)
    (entry : layout.labelAt (machine.memory (machine.x 2 + 8)) = none) :
    Exists fun after => Leaves layout (switchBlock layout) machine after ∧
      after.memory = machine.memory := by
  rcases start_steps placed with ⟨after, starts, from_, _⟩
  refine ⟨after, ⟨starts, ?_⟩, from_.memory⟩
  rw [from_.pc]
  exact entry

end Kernel
end Pinyon
