import Pinyon.Library.Aarch32Modes

namespace Pinyon
namespace Kernel

open Library.Aarch32 (Word Register storeWords storeWords_append)
open Library.Aarch32Modes

/-!
# Exception entry and exit on ARMv7

`irq_wrap` and `swi_wrap` keep what the interrupted code needs on the supervisor
stack, whatever mode it ran in, and call a handler in supervisor mode.  The call
itself replaces the link register of this mode, which nothing has saved.
-/

/-- Where a wrapper, its handler and the code behind the call of it were placed. -/
structure WrapPlaces where
  wrapper : Word
  handler : Word
  back : Word

/-- `r0` to `r3` and `r12`, which a function that is called need not keep. -/
def scratchRegisters : List Register :=
  [.r 0, .r 1, .r 2, .r 3, .r 12]

/-- `irq_wrap` up to the call of `irq_handler`. -/
def irqWrapEntry : List Instruction :=
  [.sub .lr 4, .srsdb Mode.supervisor, .cpsid Mode.supervisor, .push scratchRegisters]

/-- `swi_wrap` up to the call of `software_interrupt_handler`. -/
def swiWrapEntry : List Instruction :=
  [.srsdb Mode.supervisor, .push [.r 12], .cpsie]

/-- `swi_wrap` behind the call, up to the return. -/
def swiWrapExit : List Instruction :=
  [.pop [.r 12], .mov (.r 1) 0, .mov (.r 2) 0, .mov (.r 3) 0]

/-- The state in which `irq_handler` is called. -/
def irqCall (places : WrapPlaces) (before : Machine) : Machine :=
  ((before.takeIrq places.wrapper).executeAll irqWrapEntry).call places.handler places.back

/-- The rest of `irq_wrap`. -/
def irqReturn (returned : Machine) : Machine :=
  (returned.executeAll [.pop scratchRegisters]).rfe

/-- The state in which `software_interrupt_handler` is called. -/
def swiCall (places : WrapPlaces) (before : Machine) : Machine :=
  ((before.takeSwi places.wrapper).executeAll swiWrapEntry).call places.handler places.back

/-- The rest of `swi_wrap`. -/
def swiReturn (returned : Machine) : Machine :=
  (returned.executeAll swiWrapExit).rfe

/-- What a handler keeps: the registers that the calling convention has the callee
save, the stack pointer, those of user mode, and the frame. -/
structure ObeysConvention32 (frame : Nat) (called returned : Machine) : Prop where
  saved : forall index : Fin 13, 4 ≤ index.val -> index.val ≤ 11 ->
    returned.r index = called.r index
  mode : returned.mode = Mode.supervisor
  sp : returned.sp Mode.supervisor = called.sp Mode.supervisor
  userSp : returned.sp Mode.user = called.sp Mode.user
  userLr : returned.lr Mode.user = called.lr Mode.user
  frame : forall address, address ∈ wordsFrom (called.sp Mode.supervisor) frame ->
    returned.memory address = called.memory address

/-! ## Calling the handler -/

/-- What an interrupt keeps on the supervisor stack. -/
def irqFrame (before : Machine) : List Word :=
  scratchRegisters.map before.read ++ [before.pc, before.cpsr]

def swiFrame (before : Machine) : List Word :=
  [before.r 12, before.pc + 4, before.cpsr]

/-- What a handler is called with, where some words were put on the supervisor stack
and nothing else was stored. -/
structure CalledWith (frame : List Word) (before called : Machine) : Prop where
  general : called.r = before.r
  mode : called.mode = Mode.supervisor
  sp : called.sp Mode.supervisor =
    before.sp Mode.supervisor - BitVec.ofNat 32 (4 * frame.length)
  userSp : called.sp Mode.user = before.sp Mode.user
  userLr : called.lr Mode.user = before.lr Mode.user
  memory : called.memory = storeWords (called.sp Mode.supervisor) frame before.memory

variable {places : WrapPlaces} {before saved called returned : Machine}

namespace CalledWith

variable {frame : List Word}

theorem push (calledWith : CalledWith frame before saved) {registers : List Register}
    (short : registers.length + frame.length < 2 ^ 29) :
    CalledWith (registers.map saved.read ++ frame) before (saved.execute (.push registers)) := by
  have pointer : saved.stackPointer = saved.sp Mode.supervisor := by
    rw [Machine.stackPointer, calledWith.mode]
    rfl
  have newSp : (saved.execute (.push registers)).sp Mode.supervisor =
      saved.sp Mode.supervisor - BitVec.ofNat 32 (4 * registers.length) := by
    rw [Machine.execute_push_sp, calledWith.mode, pointer]
    exact Function.update_self _ _ _
  exact
    { general := calledWith.general
      mode := calledWith.mode
      sp := by
        rw [newSp, calledWith.sp, List.length_append, List.length_map, Nat.mul_add, BitVec.ofNat_add]
        bv_omega
      userSp := by
        rw [Machine.execute_push_sp, calledWith.mode]
        exact (Function.update_of_ne (by decide) _ _).trans calledWith.userSp
      userLr := calledWith.userLr
      memory := by
        rw [newSp, ← pointer]
        exact Machine.execute_push_memory (calledWith.memory.trans (by rw [pointer])) short }

/-- The call of the handler. -/
theorem call (calledWith : CalledWith frame before saved) (target back : Word) :
    CalledWith frame before (saved.call target back) := by
  refine { calledWith with userLr := ?_ }
  change (saved.write .lr back).lr Mode.user = before.lr Mode.user
  rw [Machine.write_lr_of_ne ?_, calledWith.userLr]
  rw [calledWith.mode]
  decide

/-- Interrupts are allowed again. -/
theorem cpsie (calledWith : CalledWith frame before saved) :
    CalledWith frame before (saved.execute .cpsie) :=
  { calledWith with mode := (modeOf_withIrqMask _ _).trans calledWith.mode }

/-- A word of the frame is still there when the handler has kept it. -/
theorem kept (calledWith : CalledWith frame before called) (short : frame.length < 2 ^ 29)
    (obeys : ObeysConvention32 frame.length called returned) {index : Nat} {value : Word}
    (found : frame[index]? = some value) :
    returned.memory (returned.sp Mode.supervisor + BitVec.ofNat 32 (4 * index)) = value := by
  have below := (List.getElem?_eq_some_iff.mp found).1
  rw [obeys.sp, obeys.frame _ ⟨index, below, rfl⟩, calledWith.memory]
  exact storeWords_at short found

end CalledWith

/-- `srsdb` puts the return address and the program state on the supervisor stack. -/
theorem srsdb_calledWith (saved : Machine) (general : saved.r = before.r)
    (sp : saved.sp = before.sp) (userLr : saved.lr Mode.user = before.lr Mode.user)
    (memory : saved.memory = before.memory) (switched : Machine)
    (executed : switched.r = (saved.execute (.srsdb Mode.supervisor)).r ∧
      switched.sp = (saved.execute (.srsdb Mode.supervisor)).sp ∧
      switched.lr = (saved.execute (.srsdb Mode.supervisor)).lr ∧
      switched.memory = (saved.execute (.srsdb Mode.supervisor)).memory)
    (mode : switched.mode = Mode.supervisor) :
    CalledWith [saved.link, saved.spsr saved.mode] before switched := by
  rcases executed with ⟨sameR, sameSp, sameLr, sameMemory⟩
  have newSp : switched.sp Mode.supervisor = before.sp Mode.supervisor - 8 := by
    rw [sameSp, Machine.execute_srsdb_sp, Mode.bank_supervisor, Function.update_self, sp]
  exact
    { general := sameR.trans general
      mode := mode
      sp := newSp
      userSp := by
        rw [sameSp, Machine.execute_srsdb_sp, Mode.bank_supervisor,
          Function.update_of_ne Mode.user_ne_supervisor, sp]
      userLr := (congrFun sameLr _).trans userLr
      memory := by
        rw [sameMemory, Machine.execute_srsdb_memory, newSp, sp, memory, Mode.bank_supervisor] }

/-- A handler may come back at once. -/
theorem obeys_at_once {frame : List Word} {called : Machine}
    (calledWith : CalledWith frame before called) (count : Nat) :
    ObeysConvention32 count called called :=
  ⟨fun _ _ _ => rfl, calledWith.mode, rfl, rfl, rfl, fun _ _ => rfl⟩

theorem irqCall_calledWith (places : WrapPlaces) (before : Machine) :
    CalledWith (irqFrame before) before (irqCall places before) := by
  let taken := before.takeIrq places.wrapper
  let adjusted := taken.execute (.sub .lr 4)
  have mode : taken.mode = Mode.irq := Machine.takeIrq_mode _ _
  have link : adjusted.link = before.pc := by
    have pointed : taken.read .lr = before.pc + 4 := by
      change taken.lr taken.mode.bank = _
      rw [mode, Machine.takeIrq_lr, Mode.bank_irq, Function.update_self]
    change adjusted.read .lr = _
    rw [show adjusted = taken.write .lr (taken.read .lr - 4) from rfl, Machine.read_write_self,
      pointed]
    exact BitVec.add_sub_cancel _ _
  have spsr : adjusted.spsr adjusted.mode = before.cpsr := by
    change taken.spsr taken.mode = _
    rw [mode, Machine.takeIrq_spsr, Function.update_self]
  have userLr : adjusted.lr Mode.user = before.lr Mode.user := by
    have apart : Mode.user ≠ taken.mode.bank := by
      rw [mode]
      exact Mode.user_ne_irq
    change (taken.write .lr _).lr Mode.user = _
    rw [Machine.write_lr_of_ne apart, Machine.takeIrq_lr, Function.update_of_ne Mode.user_ne_irq]
  let switched := adjusted.executeAll [.srsdb Mode.supervisor, .cpsid Mode.supervisor]
  have stored := @srsdb_calledWith before adjusted rfl rfl userLr rfl switched
    ⟨rfl, rfl, rfl, rfl⟩ (by
      change modeOf (withIrqMask _ _) = _
      rw [modeOf_withIrqMask, modeOf_withMode])
  rw [link, spsr] at stored
  have general : scratchRegisters.map switched.read = scratchRegisters.map before.read := rfl
  have pushed := stored.push (show scratchRegisters.length + 2 < 2 ^ 29 by decide)
  rw [general] at pushed
  exact pushed.call _ _

theorem swiCall_calledWith (places : WrapPlaces) (before : Machine) :
    CalledWith (swiFrame before) before (swiCall places before) := by
  let taken := before.takeSwi places.wrapper
  have mode : taken.mode = Mode.supervisor := Machine.takeSwi_mode _ _
  have link : taken.link = before.pc + 4 := by
    change taken.lr taken.mode.bank = _
    rw [mode, Machine.takeSwi_lr, Mode.bank_supervisor, Function.update_self]
  have spsr : taken.spsr taken.mode = before.cpsr := by
    rw [mode, Machine.takeSwi_spsr, Function.update_self]
  have userLr : taken.lr Mode.user = before.lr Mode.user := by
    rw [Machine.takeSwi_lr, Function.update_of_ne Mode.user_ne_supervisor]
  have stored := @srsdb_calledWith before taken rfl rfl userLr rfl (taken.execute (.srsdb Mode.supervisor))
    ⟨rfl, rfl, rfl, rfl⟩ mode
  rw [link, spsr] at stored
  have pushed := @CalledWith.push _ _ _ stored [.r 12] (show 1 + 2 < 2 ^ 29 by decide)
  exact pushed.cpsie.call _ _

/-! ## The way back -/

/-- What the interrupted code goes on with, from a frame of words on the supervisor stack. -/
structure ReturnedWith (returned after : Machine) (count : Nat) : Prop where
  saved : forall index : Fin 13, 4 ≤ index.val -> index.val ≤ 11 ->
    after.r index = returned.r index
  pc : after.pc = returned.memory
    (returned.sp Mode.supervisor + BitVec.ofNat 32 (4 * count))
  cpsr : after.cpsr = returned.memory
    (returned.sp Mode.supervisor + BitVec.ofNat 32 (4 * (count + 1)))
  sp : after.sp Mode.supervisor =
    returned.sp Mode.supervisor + BitVec.ofNat 32 (4 * (count + 2))
  userSp : after.sp Mode.user = returned.sp Mode.user
  lr : after.lr = returned.lr
  memory : after.memory = returned.memory

theorem rfe_returnedWith {popped after : Machine} {registers : List Register}
    (mode : returned.mode = Mode.supervisor)
    (isPopped : Machine.Popped registers returned popped)
    (general : forall index : Fin 13, 4 ≤ index.val -> index.val ≤ 11 -> .r index ∉ registers)
    (noLink : .lr ∉ registers)
    (sameR : forall index : Fin 13, 4 ≤ index.val -> index.val ≤ 11 ->
      after.r index = popped.r index)
    (sameSp : after.sp = popped.sp) (sameLr : after.lr = popped.lr)
    (sameMemory : after.memory = popped.memory) (sameCpsr : after.cpsr = popped.cpsr) :
    ReturnedWith returned after.rfe registers.length := by
  have poppedMode : popped.mode = Mode.supervisor := by
    rw [Machine.mode, isPopped.cpsr]
    exact mode
  have afterMode : after.mode = Mode.supervisor := by
    rw [Machine.mode, sameCpsr]
    exact poppedMode
  have start : returned.stackPointer = returned.sp Mode.supervisor := by
    rw [Machine.stackPointer, mode, Mode.bank_supervisor]
  have pointer : after.stackPointer =
      returned.sp Mode.supervisor + BitVec.ofNat 32 (4 * registers.length) := by
    rw [← start, ← isPopped.stackPointer, Machine.stackPointer, Machine.stackPointer, sameSp, afterMode,
      poppedMode]
  have further (count : Nat) : after.stackPointer + BitVec.ofNat 32 (4 * count) =
      returned.sp Mode.supervisor + BitVec.ofNat 32 (4 * (registers.length + count)) := by
    rw [pointer, Nat.mul_add, BitVec.ofNat_add, BitVec.add_assoc]
  have memory : after.memory = returned.memory := sameMemory.trans isPopped.memory
  have userApart : Mode.user ≠ returned.mode.bank := by
    rw [mode]
    exact Mode.user_ne_supervisor
  exact
    { saved := fun index low high => by
        change after.r index = _
        rw [sameR index low high]
        exact isPopped.others (.r index) (general index low high) fun wrong => by cases wrong
      pc := by
        change after.memory after.stackPointer = _
        rw [memory, pointer]
      cpsr := by
        change after.memory (after.stackPointer + 4) = _
        rw [memory, ← further 1]
        rfl
      sp := by
        change Function.update after.sp after.mode.bank (after.stackPointer + 8) _ = _
        rw [afterMode, Mode.bank_supervisor, Function.update_self, ← further 2]
        rfl
      userSp := by
        change Function.update after.sp after.mode.bank (after.stackPointer + 8) _ = _
        rw [afterMode, Mode.bank_supervisor, Function.update_of_ne Mode.user_ne_supervisor, sameSp]
        exact isPopped.otherSp _ userApart
      lr := by
        change after.lr = _
        rw [sameLr]
        funext other
        by_cases same : other = Mode.supervisor
        · have kept := isPopped.others .lr noLink fun wrong => by cases wrong
          rw [same]
          have popLink : popped.link = popped.lr Mode.supervisor := by
            rw [Machine.link, poppedMode, Mode.bank_supervisor]
          have link : returned.link = returned.lr Mode.supervisor := by
            rw [Machine.link, mode, Mode.bank_supervisor]
          rw [← popLink, ← link]
          exact kept
        · apply isPopped.otherLr
          rwa [mode, Mode.bank_supervisor]
      memory := memory }

theorem irqReturn_returnedWith (mode : returned.mode = Mode.supervisor) :
    ReturnedWith returned (irqReturn returned) 5 ∧
      forall index register, scratchRegisters[index]? = some register ->
        (irqReturn returned).read register =
          returned.memory (returned.sp Mode.supervisor + BitVec.ofNat 32 (4 * index)) := by
  have popped := returned.execute_pop (show scratchRegisters.Nodup by decide) (by decide)
  have start : returned.stackPointer = returned.sp Mode.supervisor := by
    rw [Machine.stackPointer, mode, Mode.bank_supervisor]
  refine ⟨rfe_returnedWith mode popped (by decide) (by decide) (fun _ _ _ => rfl) rfl rfl rfl rfl,
    fun index register found => ?_⟩
  have loaded := popped.popped index register found
  rw [start] at loaded
  rw [← loaded]
  have isGeneral : Exists fun number => register = .r number := by
    have member := List.mem_of_getElem? found
    simp only [scratchRegisters, List.mem_cons, List.not_mem_nil, or_false] at member
    rcases member with rfl | rfl | rfl | rfl | rfl <;> exact ⟨_, rfl⟩
  rcases isGeneral with ⟨number, rfl⟩
  rfl

theorem swiReturn_returnedWith (mode : returned.mode = Mode.supervisor) :
    ReturnedWith returned (swiReturn returned) 1 ∧
      (swiReturn returned).r 0 = returned.r 0 ∧
      (forall index : Fin 13, 1 ≤ index.val -> index.val ≤ 3 -> (swiReturn returned).r index = 0) ∧
      (swiReturn returned).r 12 = returned.memory (returned.sp Mode.supervisor) := by
  have isPopped := returned.execute_pop (show [Register.r 12].Nodup by decide) (by decide)
  have start : returned.stackPointer = returned.sp Mode.supervisor := by
    rw [Machine.stackPointer, mode, Mode.bank_supervisor]
  let popped := returned.execute (.pop [.r 12])
  let cleared := popped.executeAll [.mov (.r 1) 0, .mov (.r 2) 0, .mov (.r 3) 0]
  have clears (index : Fin 13) : cleared.r index =
      if 1 ≤ index.val ∧ index.val ≤ 3 then 0 else popped.r index := by
    change Function.update (Function.update (Function.update popped.r 1 0) 2 0) 3 0 index = _
    simp only [Function.update_apply]
    have cases_ : (index = 1 ∨ index = 2 ∨ index = 3) <-> 1 ≤ index.val ∧ index.val ≤ 3 := by
      revert index
      decide
    split_ifs <;> grind
  have others (index : Fin 13) (apart : ¬(1 ≤ index.val ∧ index.val ≤ 3)) :
      cleared.r index = popped.r index := by
    rw [clears, if_neg apart]
  refine ⟨rfe_returnedWith mode isPopped (by decide) (by decide)
    (fun index low _ => others index (by omega)) rfl rfl rfl rfl, ?_, fun index low high => ?_, ?_⟩
  · exact (others 0 (by decide)).trans (isPopped.others (.r 0) (by decide) fun wrong => by cases wrong)
  · exact (clears index).trans (if_pos ⟨low, high⟩)
  · refine (others 12 (by decide)).trans ((isPopped.popped 0 (.r 12) rfl).trans ?_)
    rw [start]
    exact congrArg returned.memory (BitVec.add_zero _)

/-! ## What the interrupted code finds -/

/-- The interrupted code finds all of its own registers as it left them. -/
structure Transparent32 (before after : Machine) : Prop where
  general : after.r = before.r
  sp : after.stackPointer = before.stackPointer
  link : after.link = before.link
  pc : after.pc = before.pc
  cpsr : after.cpsr = before.cpsr

/-- Everything but a link register of supervisor mode comes back from an interrupt. -/
theorem interrupt_returns (obeys : ObeysConvention32 7 (irqCall places before) returned) :
    (irqReturn returned).r = before.r ∧ (irqReturn returned).pc = before.pc ∧
      (irqReturn returned).cpsr = before.cpsr ∧
      (irqReturn returned).sp Mode.supervisor = before.sp Mode.supervisor ∧
      (irqReturn returned).sp Mode.user = before.sp Mode.user ∧
      (irqReturn returned).lr Mode.user = before.lr Mode.user ∧
      (irqReturn returned).lr Mode.supervisor = returned.lr Mode.supervisor ∧
      (irqReturn returned).memory = returned.memory := by
  have calledWith := irqCall_calledWith places before
  rcases irqReturn_returnedWith obeys.mode with ⟨back, scratch⟩
  have short : (irqFrame before).length < 2 ^ 29 := by
    change 7 < 2 ^ 29
    decide
  have obeysFrame : ObeysConvention32 (irqFrame before).length (irqCall places before) returned :=
    obeys
  have kept {index : Nat} {value : Word} (found : (irqFrame before)[index]? = some value) :=
    calledWith.kept short obeysFrame found
  refine ⟨?_, ?_, ?_, ?_, ?_, ?_, ?_, back.memory⟩
  · funext index
    by_cases saved : 4 ≤ index.val ∧ index.val ≤ 11
    · rw [back.saved index saved.1 saved.2, obeys.saved index saved.1 saved.2, calledWith.general]
    · have member : Register.r index ∈ scratchRegisters := by
        revert index
        decide
      rcases List.getElem?_of_mem member with ⟨slot, found⟩
      have stored : (irqFrame before)[slot]? = some (before.read (.r index)) := by
        have below := (List.getElem?_eq_some_iff.mp found).1
        rw [irqFrame, List.getElem?_append_left (by rwa [List.length_map]), List.getElem?_map, found]
        rfl
      exact (scratch slot (.r index) found).trans (kept stored)
  · rw [back.pc]
    exact kept rfl
  · rw [back.cpsr]
    exact kept rfl
  · rw [back.sp, obeys.sp, calledWith.sp]
    exact BitVec.sub_add_cancel _ _
  · rw [back.userSp, obeys.userSp, calledWith.userSp]
  · rw [back.lr, obeys.userLr, calledWith.userLr]
  · rw [back.lr]

/-- An interrupt is transparent to a task in user mode.  To one in supervisor mode it is
when the handler happens to leave the link register with what the task had in it. -/
theorem interrupt_transparent_iff (places : WrapPlaces) (before returned : Machine)
    (mode : before.mode = Mode.user ∨ before.mode = Mode.supervisor)
    (obeys : ObeysConvention32 7 (irqCall places before) returned) :
    Transparent32 before (irqReturn returned) <->
      (before.mode = Mode.supervisor ->
        returned.lr Mode.supervisor = before.lr Mode.supervisor) := by
  rcases interrupt_returns obeys with ⟨general, pc, cpsr, sp, userSp, userLr, lr, _⟩
  have sameMode : (irqReturn returned).mode = before.mode := by
    rw [Machine.mode, Machine.mode, cpsr]
  constructor
  · intro transparent supervisor
    have link := transparent.link
    rwa [Machine.link, Machine.link, sameMode, supervisor, Mode.bank_supervisor, lr] at link
  · intro condition
    refine ⟨general, ?_, ?_, pc, cpsr⟩
    · rw [Machine.stackPointer, Machine.stackPointer, sameMode]
      rcases mode with user | supervisor
      · rw [user, Mode.bank_user, userSp]
      · rw [supervisor, Mode.bank_supervisor, sp]
    · rw [Machine.link, Machine.link, sameMode]
      rcases mode with user | supervisor
      · rw [user, Mode.bank_user, userLr]
      · rw [supervisor, Mode.bank_supervisor, lr]
        exact condition supervisor

/-- A kernel task in a loop of its own, with `7` in its link register. -/
def idling : Machine where
  r := fun _ => 0
  sp := fun _ => 4096
  lr := fun _ => 7
  spsr := fun _ => 0
  cpsr := 0x13
  pc := 0x8000
  memory := fun _ => 0

def idlingPlaces : WrapPlaces :=
  { wrapper := 0x9000, handler := 0xa000, back := 0x9010 }

theorem interrupt_transparent_iff_idling :
    ¬ Transparent32 idling (irqReturn (irqCall idlingPlaces idling)) := by
  intro transparent
  have obeys := obeys_at_once (irqCall_calledWith idlingPlaces idling) 7
  have condition := (interrupt_transparent_iff idlingPlaces idling
    (irqCall idlingPlaces idling) (.inr rfl) obeys).mp transparent rfl
  exact absurd condition (by decide)

/-- Everything comes back from a system call but its arguments: in their place there is the
answer, and zeros. -/
theorem systemCall_returns (obeys : ObeysConvention32 3 (swiCall places before) returned) :
    (swiReturn returned).r = (fun index =>
        if index = 0 then returned.r 0 else if index.val ≤ 3 then 0 else before.r index) ∧
      (swiReturn returned).pc = before.pc + 4 ∧ (swiReturn returned).cpsr = before.cpsr ∧
      (swiReturn returned).sp Mode.supervisor = before.sp Mode.supervisor ∧
      (swiReturn returned).sp Mode.user = before.sp Mode.user ∧
      (swiReturn returned).lr Mode.user = before.lr Mode.user ∧
      (swiReturn returned).memory = returned.memory := by
  have calledWith := swiCall_calledWith places before
  rcases swiReturn_returnedWith obeys.mode with ⟨back, answer, cleared, r12⟩
  have short : (swiFrame before).length < 2 ^ 29 := by
    change 3 < 2 ^ 29
    decide
  have obeysFrame : ObeysConvention32 (swiFrame before).length (swiCall places before) returned :=
    obeys
  have kept {index : Nat} {value : Word} (found : (swiFrame before)[index]? = some value) :=
    calledWith.kept short obeysFrame found
  refine ⟨?_, ?_, ?_, ?_, ?_, ?_, back.memory⟩
  · funext index
    split
    next first => rw [first, answer]
    next later =>
        split
        next argument =>
            have positive : 1 ≤ index.val := Nat.pos_of_ne_zero fun zero => later (Fin.ext zero)
            exact cleared index positive argument
        next other =>
            by_cases last : index = 12
            · have first : returned.sp Mode.supervisor + BitVec.ofNat 32 (4 * 0) =
                  returned.sp Mode.supervisor := BitVec.add_zero _
              rw [last, r12, ← first]
              exact kept rfl
            · have low : 4 ≤ index.val := by omega
              have high : index.val ≤ 11 := by
                have bound := index.isLt
                have different : index.val ≠ 12 := fun same => last (Fin.ext same)
                omega
              rw [back.saved index low high, obeys.saved index low high, calledWith.general]
  · rw [back.pc]
    exact kept rfl
  · rw [back.cpsr]
    exact kept rfl
  · rw [back.sp, obeys.sp, calledWith.sp]
    exact BitVec.sub_add_cancel _ _
  · rw [back.userSp, obeys.userSp, calledWith.userSp]
  · rw [back.lr, obeys.userLr, calledWith.userLr]

end Kernel
end Pinyon
