import Pinyon.Kernel.TaskSwitch32
import Pinyon.Library.ContextSwitch

namespace Pinyon
namespace Kernel

open Library Library.Aarch32Modes
open Library.Aarch32 (Word Register storeWords)

/-!
# Switching between many tasks on ARMv7

What a task that is switched out needs is in its `Registers` and on its kernel stack,
and saving one task changes nothing else.  So `task_switch` is a way to switch between
contexts that keeps its promise.
-/

/-- The words of the `Registers` at an address. -/
def registersBlock32 (registers : Word) : Set Word :=
  wordsFrom registers 19

/-- The words that `task_switch` puts below a stack pointer. -/
def callerFrame32 (sp : Word) : Set Word :=
  wordsFrom (sp - 24) 6

/-- `is_kernel_registers`. -/
def isKernelRegisters32 (memory : Word -> Word) (registers : Word) : Bool :=
  memory (registers + 4) == memory (registers + 12)

/-- A `bool` in a register. -/
def boolWord32 (flag : Bool) : Word :=
  if flag then 1 else 0

/-- Where the tasks are. -/
structure TaskPlaces32 (Key : Type) where
  registers : Key -> Word
  kernelStack : Key -> Set Word
  isUser : Key -> Bool
  present : forall key, registers key ≠ 0
  apart : forall key other, key ≠ other ->
    Disjoint (registersBlock32 (registers key) ∪ kernelStack key)
      (registersBlock32 (registers other) ∪ kernelStack other)
  registersOffStack : forall key, Disjoint (registersBlock32 (registers key)) (kernelStack key)

variable {Key : Type} {layout : SwitchLayout} {places : TaskPlaces32 Key}

/-- A call of `task_switch`, with the task that it saves. -/
structure EntersTask (layout : SwitchLayout) (places : TaskPlaces32 Key) (call : Machine)
    (saved : Option Key) (next : Key) : Prop where
  placed : call.pc = layout.addressOf .taskSwitch
  mode : call.mode = Mode.supervisor
  stored : call.r 2 = places.registers next
  isKernelStored : call.r 3 =
    boolWord32 (isKernelRegisters32 call.memory (places.registers next))
  nothing : saved = none -> call.r 0 = 0
  toSave : forall current, saved = some current -> call.r 0 = places.registers current
  isKernelSave : forall current, saved = some current -> call.r 1 =
    boolWord32 (isKernelRegisters32 call.memory (places.registers current))
  onStack : forall current, saved = some current ->
    callerFrame32 (call.sp Mode.supervisor) ⊆ places.kernelStack current
  userStack : forall current, saved = some current -> places.isUser current = true ->
    call.sp Mode.user ∉ places.kernelStack current
  caller : forall current, saved = some current ->
    layout.labelAt (call.lr Mode.supervisor) = none

/-- The `Registers` of a user task hold two different stack pointers. -/
def UserRegisters (places : TaskPlaces32 Key) (key : Key) (memory : Word -> Word) : Prop :=
  places.isUser key = true -> isKernelRegisters32 memory (places.registers key) = false

/-- A task that has not run. -/
structure NewTask (layout : SwitchLayout) (places : TaskPlaces32 Key) (key : Key)
    (memory : Word -> Word) : Prop where
  entry : layout.labelAt (memory (places.registers key + 72)) = none
  user : UserRegisters places key memory

/-- A task that was switched out in a call. -/
structure Suspended32 (layout : SwitchLayout) (places : TaskPlaces32 Key) (key : Key)
    (call : Machine) (memory : Word -> Word) : Prop where
  mode : call.mode = Mode.supervisor
  bits : stateBits (memory (places.registers key)) = stateBits call.cpsr
  userBank : places.isUser key = true ->
    memory (places.registers key + 4) = call.sp Mode.user ∧
      memory (places.registers key + 8) = call.lr Mode.user
  sp : memory (places.registers key + 12) = call.sp Mode.supervisor - 24
  link : memory (places.registers key + 16) = layout.addressOf .taskSwitchSaved
  general : forall index : Fin 13, 4 ≤ index.val -> index.val ≤ 11 ->
    memory (places.registers key + 20 + BitVec.ofNat 32 (4 * index.val)) = call.r index
  pc : memory (places.registers key + 72) = layout.addressOf .taskReturnAgain
  frame : forall index register, callerRegisters[index]? = some register ->
    memory (call.sp Mode.supervisor - 24 + BitVec.ofNat 32 (4 * index)) = call.read register
  onStack : callerFrame32 (call.sp Mode.supervisor) ⊆ places.kernelStack key
  caller : layout.labelAt (call.lr Mode.supervisor) = none
  user : UserRegisters places key memory

/-- `task_switch` has returned to its caller. -/
structure ReturnedToCaller32 (isUser : Bool) (call after : Machine) : Prop where
  pc : after.pc = call.lr Mode.supervisor
  general : after.r = call.r
  sp : after.sp Mode.supervisor = call.sp Mode.supervisor
  link : after.lr Mode.supervisor = call.lr Mode.supervisor
  bits : switchedBits after.cpsr = switchedBits call.cpsr
  user : isUser = true ->
    after.sp Mode.user = call.sp Mode.user ∧ after.lr Mode.user = call.lr Mode.user

/-- `task_switch` as a way to switch. -/
def taskContexts (layout : SwitchLayout) (places : TaskPlaces32 Key) :
    ContextSwitch Machine Word Word Key where
  memory := Machine.memory
  block := fun key => registersBlock32 (places.registers key)
  stack := places.kernelStack
  Leaves := layout.code.Leaves
  Enters := EntersTask layout places
  New := NewTask layout places
  Suspended := Suspended32 layout places
  Running := UserRegisters places
  Returned := fun key => ReturnedToCaller32 (places.isUser key)

/-! ## What a task depends on -/

section Depends

variable {key : Key} {before after : Word -> Word}

theorem block_word {registers : Word}
    (same : forall address, address ∈ registersBlock32 registers -> after address = before address)
    (index : Nat) (below : index < 19) :
    after (registers + BitVec.ofNat 32 (4 * index)) =
      before (registers + BitVec.ofNat 32 (4 * index)) :=
  same _ (mem_wordsFrom below)

theorem isKernelRegisters32_congr {registers : Word}
    (same : forall address, address ∈ registersBlock32 registers -> after address = before address) :
    isKernelRegisters32 after registers = isKernelRegisters32 before registers := by
  have userSp : after (registers + 4) = before (registers + 4) := block_word same 1 (by decide)
  have kernelSp : after (registers + 12) = before (registers + 12) := block_word same 3 (by decide)
  rw [isKernelRegisters32, isKernelRegisters32, userSp, kernelSp]

theorem UserRegisters.congr (user : UserRegisters places key before)
    (same : forall address, address ∈ registersBlock32 (places.registers key) ->
      after address = before address) :
    UserRegisters places key after := by
  intro isUser
  rw [isKernelRegisters32_congr same]
  exact user isUser

theorem NewTask.congr (new : NewTask layout places key before)
    (same : forall address, address ∈ registersBlock32 (places.registers key) ->
      after address = before address) :
    NewTask layout places key after where
  entry := by
    have pc : after (places.registers key + 72) = before (places.registers key + 72) :=
      block_word same 18 (by decide)
    rw [pc]
    exact new.entry
  user := new.user.congr same

theorem Suspended32.congr {call : Machine} (suspended : Suspended32 layout places key call before)
    (same : forall address,
      address ∈ registersBlock32 (places.registers key) ∪ places.kernelStack key ->
        after address = before address) :
    Suspended32 layout places key call after := by
  have block : forall address, address ∈ registersBlock32 (places.registers key) ->
      after address = before address := fun address member => same address (.inl member)
  have field (index : Nat) (below : index < 19) := block_word block index below
  have first : after (places.registers key) = before (places.registers key) := by
    have at_ := field 0 (by decide)
    rwa [show places.registers key + BitVec.ofNat 32 (4 * 0) = places.registers key from
      BitVec.add_zero _] at at_
  exact
    { mode := suspended.mode
      bits := first ▸ suspended.bits
      userBank := fun isUser =>
        ⟨(field 1 (by decide)).trans (suspended.userBank isUser).1,
          (field 2 (by decide)).trans (suspended.userBank isUser).2⟩
      sp := (field 3 (by decide)).trans suspended.sp
      link := (field 4 (by decide)).trans suspended.link
      general := fun index low high => by
        have at_ := field (5 + index.val) (by omega)
        rw [← word_add] at at_
        exact at_.trans (suspended.general index low high)
      pc := (field 18 (by decide)).trans suspended.pc
      frame := fun index register found => by
        have below := (List.getElem?_eq_some_iff.mp found).1
        rw [same _ (.inr (suspended.onStack (mem_wordsFrom below)))]
        exact suspended.frame index register found
      onStack := suspended.onStack
      caller := suspended.caller
      user := suspended.user.congr block }

end Depends

/-! ## What saving a task leaves -/

section Saved

variable {machine : Machine} {general : List Word} {again : Word}

/-- The words from the kernel stack pointer on. -/
theorem savedMemory_row (length : general.length = 13) {index : Nat} {value : Word}
    (found : ([machine.sp Mode.supervisor, machine.lr Mode.supervisor] ++
      (general ++ [again]))[index]? = some value) :
    savedMemory machine general again (machine.r 0 + BitVec.ofNat 32 (4 * (3 + index))) = value := by
  rw [← word_add, savedMemory]
  apply storeWords_at _ found
  simp [length]

/-- The words below them. -/
theorem savedMemory_below (length : general.length = 13) (index : Nat) (below : index < 3) :
    savedMemory machine general again (machine.r 0 + BitVec.ofNat 32 (4 * index)) =
      (if machine.r 1 = 0 then
        storeWords (machine.r 0 + 4) [machine.sp Mode.user, machine.lr Mode.user]
          (Function.update machine.memory (machine.r 0) machine.cpsr)
      else Function.update machine.memory (machine.r 0) machine.cpsr)
        (machine.r 0 + BitVec.ofNat 32 (4 * index)) := by
  rw [savedMemory]
  refine storeWords_outside ?_
  rintro ⟨other, otherBelow, same⟩
  have many : other < 16 := by simpa [length] using otherBelow
  rw [show machine.r 0 + 12 = machine.r 0 + BitVec.ofNat 32 (4 * 3) from rfl, word_add] at same
  exact word_ne (by omega) (by omega) (by omega) same

theorem savedMemory_first (length : general.length = 13) :
    savedMemory machine general again (machine.r 0) = machine.cpsr := by
  have zero : machine.r 0 + BitVec.ofNat 32 (4 * 0) = machine.r 0 := BitVec.add_zero _
  have below := @savedMemory_below machine general again length 0 (by decide)
  rw [zero] at below
  rw [below]
  split
  · rw [storeWords_outside, Function.update_self]
    rintro ⟨other, otherBelow, same⟩
    rw [← zero, show machine.r 0 + BitVec.ofNat 32 (4 * 0) + 4 =
      machine.r 0 + BitVec.ofNat 32 (4 * 0) + BitVec.ofNat 32 (4 * 1) from rfl, word_add,
      word_add] at same
    have few : other < 2 := otherBelow
    exact word_ne (by omega) (by omega) (by omega) same
  · rw [Function.update_self]

theorem savedMemory_user (length : general.length = 13) (user : machine.r 1 = 0) :
    savedMemory machine general again (machine.r 0 + 4) = machine.sp Mode.user ∧
      savedMemory machine general again (machine.r 0 + 8) = machine.lr Mode.user := by
  have at_ (index : Nat) (value : Word)
      (found : [machine.sp Mode.user, machine.lr Mode.user][index]? = some value) (below : index < 2) :
      savedMemory machine general again
        (machine.r 0 + BitVec.ofNat 32 (4 * (1 + index))) = value := by
    rw [savedMemory_below length (1 + index) (by omega), if_pos user, ← word_add]
    exact storeWords_at (show [machine.sp Mode.user, machine.lr Mode.user].length < 2 ^ 29 by
      simp) found
  exact ⟨at_ 0 _ rfl (by decide), at_ 1 _ rfl (by decide)⟩

theorem savedMemory_outside (length : general.length = 13) {address : Word}
    (outside : address ∉ registersBlock32 (machine.r 0)) :
    savedMemory machine general again address = machine.memory address := by
  have notWord (index : Nat) (below : index < 19) :
      address ≠ machine.r 0 + BitVec.ofNat 32 (4 * index) :=
    fun same => outside ⟨index, below, same⟩
  have notFirst : address ≠ machine.r 0 := by
    have first := notWord 0 (by decide)
    rwa [show machine.r 0 + BitVec.ofNat 32 (4 * 0) = machine.r 0 from BitVec.add_zero _] at first
  rw [savedMemory, storeWords_outside]
  · split
    · rw [storeWords_outside, Function.update_of_ne notFirst]
      rintro ⟨index, below, same⟩
      rw [show machine.r 0 + 4 = machine.r 0 + BitVec.ofNat 32 (4 * 1) from rfl, word_add] at same
      have few : index < 2 := below
      exact notWord (1 + index) (by omega) same
    · exact Function.update_of_ne notFirst _ _
  · rintro ⟨index, below, same⟩
    have many : index < 16 := by simpa [length] using below
    rw [show machine.r 0 + 12 = machine.r 0 + BitVec.ofNat 32 (4 * 3) from rfl, word_add] at same
    exact notWord (3 + index) (by omega) same

end Saved

/-! ## Entering a task -/

variable {call machine : Machine} {current next key : Key}

theorem boolWord32_eq_zero {flag : Bool} (isFalse : flag = false) : boolWord32 flag = 0 := by
  rw [isFalse]
  rfl

/-- A task that was switched out returns to where it was. -/
theorem resume_steps32 (placed : machine.pc = layout.addressOf .taskStart)
    (mode : machine.mode = Mode.supervisor) (stored : machine.r 2 = places.registers key)
    (user : places.isUser key = true -> machine.r 3 = 0)
    (suspended : Suspended32 layout places key call machine.memory) :
    Exists fun after => layout.code.Leaves machine after ∧
      ReturnedToCaller32 (places.isUser key) call after ∧ after.memory = machine.memory := by
  rcases start_steps32 placed mode with ⟨started, starts, from_⟩
  rw [stored] at from_
  have bits : switchedBits started.cpsr = switchedBits call.cpsr :=
    from_.bits.trans (switchedBits_of_stateBits suspended.bits)
  have startedMode : started.mode = Mode.supervisor :=
    (modeOf_of_switchedBits bits).trans suspended.mode
  rcases again_steps32 (from_.pc.trans suspended.pc) startedMode (from_.link.trans suspended.link) with
    ⟨middle, after, again, popped, r, sp, lr, cpsr, memory⟩
  have middleSp : middle.sp Mode.supervisor = call.sp Mode.supervisor - 24 := by
    rw [sp, from_.sp, suspended.sp]
  have frame (index : Nat) (register : Register)
      (found : callerRegisters[index]? = some register) :
      after.read register = call.read register := by
    rw [popped.popped index register found, memory, from_.memory, middleSp]
    exact suspended.frame index register found
  have notFirst : middle.r 0 ≠ 0 := by
    rw [r, Function.update_self]
    decide
  have link : after.lr Mode.supervisor = call.lr Mode.supervisor := by
    have read := frame 5 .lr rfl
    rwa [Machine.read, Machine.read, Machine.link, Machine.link, popped.mode, suspended.mode,
      Mode.bank_supervisor] at read
  have pc : after.pc = call.lr Mode.supervisor := by
    rw [popped.pc, if_neg notFirst, link]
  refine ⟨after, ⟨starts.trans again, ?_⟩, ?_, ?_⟩
  · change layout.labelAt after.pc = none
    rw [pc]
    exact suspended.caller
  · refine
      { pc := pc, general := funext fun index => ?_, sp := ?_, link := link, bits := ?_
        user := fun isUser => ?_ }
    · by_cases saved : 4 ≤ index.val ∧ index.val ≤ 11
      · have other : index ≠ 0 := fun same => absurd (same ▸ saved.1) (by decide)
        rw [popped.saved index saved.1 saved.2, r, Function.update_of_ne other, from_.general]
        exact suspended.general index saved.1 saved.2
      · have member : Register.r index ∈ callerRegisters := by
          revert index
          decide
        rcases List.getElem?_of_mem member with ⟨place, found⟩
        exact frame place (.r index) found
    · rw [popped.sp, middleSp]
      exact BitVec.sub_add_cancel _ _
    · rw [switchedBits_of_stateBits popped.bits, cpsr, bits]
    · rw [popped.user.1, popped.user.2, sp, lr]
      have restored := from_.user (user isUser)
      rw [restored.1, restored.2]
      exact suspended.userBank isUser
  · rw [popped.memory, memory, from_.memory]

/-- The next task is entered, whether it is new or was switched out. -/
theorem entered_steps (placed : machine.pc = layout.addressOf .taskStart)
    (mode : machine.mode = Mode.supervisor) (stored : machine.r 2 = places.registers next)
    (user : places.isUser next = true -> machine.r 3 = 0)
    (waits : (taskContexts layout places).Waits next machine.memory) :
    Exists fun after => layout.code.Leaves machine after ∧ after.memory = machine.memory ∧
      UserRegisters places next after.memory ∧
      forall old, Suspended32 layout places next old machine.memory ->
        ReturnedToCaller32 (places.isUser next) old after := by
  rcases waits with new | ⟨old, suspended⟩
  · rcases start_steps32 placed mode with ⟨after, starts, from_⟩
    rw [stored] at from_
    refine ⟨after, ⟨starts, ?_⟩, from_.memory, ?_, fun old suspended => ?_⟩
    · change layout.labelAt after.pc = none
      rw [from_.pc]
      exact new.entry
    · rw [from_.memory]
      exact new.user
    · have inside := new.entry
      rw [suspended.pc, layout.labelAt_addressOf] at inside
      cases inside
  · rcases resume_steps32 placed mode stored user suspended with ⟨after, leaves, returned, memory⟩
    refine ⟨after, leaves, memory, ?_, fun other alsoSuspended => ?_⟩
    · rw [memory]
      exact suspended.user
    · rcases resume_steps32 placed mode stored user alsoSuspended with
        ⟨afterToo, leavesToo, returnedToo, _⟩
      cases leaves.unique leavesToo
      exact returnedToo

/-- What `task_save` leaves of the running task. -/
theorem suspended_of_saved32 {entered : Machine} {general : List Word}
    (enters : EntersTask layout places call (some current) next)
    (base : entered.r 0 = places.registers current) (r : entered.r = call.r)
    (bits : stateBits entered.cpsr = stateBits call.cpsr)
    (sp : entered.sp Mode.supervisor = call.sp Mode.supervisor - 24)
    (lr : entered.lr Mode.supervisor = layout.addressOf .taskSwitchSaved)
    (userBank : entered.sp Mode.user = call.sp Mode.user ∧ entered.lr Mode.user = call.lr Mode.user)
    (length : general.length = 13)
    (registers : forall index : Fin 13, 3 ≤ index.val ->
      general[index.val]? = some (entered.r index))
    (isUserSaved : places.isUser current = true -> entered.r 1 = 0)
    (onFrame : forall index register, callerRegisters[index]? = some register ->
      savedMemory entered general (layout.addressOf .taskReturnAgain)
        (call.sp Mode.supervisor - 24 + BitVec.ofNat 32 (4 * index)) = call.read register) :
    Suspended32 layout places current call
      (savedMemory entered general (layout.addressOf .taskReturnAgain)) := by
  have row (index : Nat) (value : Word)
      (found : ([entered.sp Mode.supervisor, entered.lr Mode.supervisor] ++
        (general ++ [layout.addressOf .taskReturnAgain]))[index]? = some value) :
      savedMemory entered general (layout.addressOf .taskReturnAgain)
        (places.registers current + BitVec.ofNat 32 (4 * (3 + index))) = value := by
    rw [← base]
    exact savedMemory_row length found
  have user (isUser : places.isUser current = true) :
      savedMemory entered general (layout.addressOf .taskReturnAgain)
          (places.registers current + 4) = call.sp Mode.user ∧
        savedMemory entered general (layout.addressOf .taskReturnAgain)
          (places.registers current + 8) = call.lr Mode.user := by
    rw [← base, ← userBank.1, ← userBank.2]
    exact savedMemory_user length (isUserSaved isUser)
  have stack : savedMemory entered general (layout.addressOf .taskReturnAgain)
      (places.registers current + 12) = call.sp Mode.supervisor - 24 := (row 0 _ rfl).trans sp
  exact
    { mode := enters.mode
      bits := by
        rw [← base, savedMemory_first length]
        exact bits
      userBank := user
      sp := stack
      link := (row 1 _ rfl).trans lr
      general := fun index low high => by
        have found : ([entered.sp Mode.supervisor, entered.lr Mode.supervisor] ++
            (general ++ [layout.addressOf .taskReturnAgain]))[2 + index.val]? =
              some (entered.r index) := by
          rw [List.getElem?_append_right (Nat.le_add_right 2 _), List.length_cons,
            List.length_singleton, Nat.add_sub_cancel_left, List.getElem?_append_left (by omega)]
          exact registers index (by omega)
        have at_ := row (2 + index.val) _ found
        rw [← Nat.add_assoc, ← word_add, r] at at_
        exact at_
      pc := by
        refine row 15 _ ?_
        have last : (general ++ [layout.addressOf SwitchLabel32.taskReturnAgain])[13]? =
            some (layout.addressOf .taskReturnAgain) := by
          rw [List.getElem?_append_right (Nat.le_of_eq length), length]
          rfl
        exact last
      frame := onFrame
      onStack := enters.onStack current rfl
      caller := enters.caller current rfl
      user := fun isUser => by
        rw [isKernelRegisters32, (user isUser).1, stack, beq_eq_false_iff_ne]
        intro onKernelStack
        apply enters.userStack current rfl isUser
        rw [onKernelStack]
        exact enters.onStack current rfl ⟨0, by decide, (BitVec.add_zero _).symm⟩ }

/-- The running task is saved, and the next one is about to be started. -/
theorem saving_steps32 (enters : EntersTask layout places call (some current) next)
    (running : UserRegisters places current call.memory) :
    Exists fun saved => layout.code.Steps call saved ∧
      saved.pc = layout.addressOf .taskStart ∧ saved.mode = Mode.supervisor ∧
      saved.r 2 = call.r 2 ∧ saved.r 3 = call.r 3 ∧
      Suspended32 layout places current call saved.memory ∧
      forall address,
        address ∉ registersBlock32 (places.registers current) ∪ places.kernelStack current ->
          saved.memory address = call.memory address := by
  have toSave := enters.toSave current rfl
  have present : call.r 0 ≠ 0 := by
    rw [toSave]
    exact places.present current
  rcases enter_steps32 enters.placed present enters.mode with
    ⟨entered, entering, placed, r, mode, bits, sp, lr, userSp, userLr, pushed⟩
  rcases save_steps32 placed mode with
    ⟨saved, saving, savedPc, savedR0, savedSp, savedLr, savedBits, general, length, registers, memory⟩
  have savedMode : saved.mode = Mode.supervisor := (modeOf_of_stateBits savedBits).trans mode
  rcases saved_steps32 (savedPc.trans lr) savedMode with ⟨after, returning, popped⟩
  have base : entered.r 0 = places.registers current := by rw [r, toSave]
  have isUserSaved : places.isUser current = true -> entered.r 1 = 0 := by
    intro isUser
    rw [r, enters.isKernelSave current rfl]
    exact boolWord32_eq_zero (running isUser)
  have afterMemory : after.memory =
      savedMemory entered general (layout.addressOf .taskReturnAgain) := by
    rw [popped.memory, memory]
  have offBlock {address : Word} (onStack : address ∈ places.kernelStack current) :
      address ∉ registersBlock32 (entered.r 0) := by
    rw [base]
    exact fun inBlock =>
      Set.disjoint_left.mp (places.registersOffStack current) inBlock onStack
  have onFrame (index : Nat) (register : Register)
      (found : callerRegisters[index]? = some register) :
      savedMemory entered general (layout.addressOf .taskReturnAgain)
        (call.sp Mode.supervisor - 24 + BitVec.ofNat 32 (4 * index)) = call.read register := by
    have below := (List.getElem?_eq_some_iff.mp found).1
    have onStack := enters.onStack current rfl (mem_wordsFrom below)
    rw [savedMemory_outside length (offBlock onStack), pushed]
    apply storeWords_at (show (callerRegisters.map call.read).length < 2 ^ 29 by
      simp [callerRegisters])
    rw [List.getElem?_map, found]
    rfl
  have savedPointer : saved.sp Mode.supervisor = call.sp Mode.supervisor - 24 := by
    rw [savedSp, sp]
  refine ⟨after, (entering.trans saving).trans returning, ?_, popped.mode, ?_, ?_, ?_, ?_⟩
  · rw [popped.pc, if_pos savedR0]
  · have loaded := popped.popped 2 (.r 2) rfl
    rw [savedPointer, memory, onFrame 2 (.r 2) rfl] at loaded
    exact loaded
  · have loaded := popped.popped 3 (.r 3) rfl
    rw [savedPointer, memory, onFrame 3 (.r 3) rfl] at loaded
    exact loaded
  · rw [afterMemory]
    exact suspended_of_saved32 enters base r bits sp lr ⟨userSp, userLr⟩ length registers isUserSaved
      onFrame
  · intro address outside
    have offRegisters : address ∉ registersBlock32 (entered.r 0) := by
      rw [base]
      exact fun inBlock => outside (.inl inBlock)
    rw [afterMemory, savedMemory_outside length offRegisters, pushed]
    exact storeWords_outside fun onFrame =>
      outside (.inr (enters.onStack current rfl onFrame))

theorem skipped_steps32 (enters : EntersTask layout places call none next) :
    Exists fun after => layout.code.Steps call after ∧
      after.pc = layout.addressOf .taskStart ∧ after.mode = Mode.supervisor ∧
      after.r = call.r ∧ after.memory = call.memory := by
  rcases skip_steps32 enters.placed (enters.nothing rfl) with
    ⟨after, steps, placed, r, mode, memory⟩
  exact ⟨after, steps, placed, mode.trans enters.mode, r, memory⟩

theorem Waits_user {memory : Word -> Word} (waits : (taskContexts layout places).Waits next memory) :
    UserRegisters places next memory := by
  rcases waits with new | ⟨old, suspended⟩
  · exact new.user
  · exact suspended.user

/-- The code of `task_switch` keeps the promise of a switch. -/
theorem taskContexts_works (layout : SwitchLayout) (places : TaskPlaces32 Key) :
    (taskContexts layout places).Works where
  apart := places.apart
  unique := fun _ _ _ first second => first.unique second
  newCongr := fun _ _ _ same new => NewTask.congr new same
  suspendedCongr := fun _ _ _ _ same suspended => Suspended32.congr suspended same
  runningCongr := fun _ _ _ same user => UserRegisters.congr user same
  saves := fun call current next different enters running waits => by
    rcases saving_steps32 enters running with
      ⟨saved, steps, placed, mode, r2, r3, suspended, outside⟩
    have kept : forall address,
        address ∈ registersBlock32 (places.registers next) ∪ places.kernelStack next ->
          saved.memory address = call.memory address := fun address member =>
      outside address fun within =>
        Set.disjoint_left.mp (places.apart next current different.symm) member within
    have waitsToo : (taskContexts layout places).Waits next saved.memory := by
      rcases waits with new | ⟨old, other⟩
      · exact .inl (NewTask.congr new fun address member => kept address (.inl member))
      · exact .inr ⟨old, Suspended32.congr other kept⟩
    have user (isUser : places.isUser next = true) : saved.r 3 = 0 := by
      rw [r3, enters.isKernelStored]
      exact boolWord32_eq_zero (Waits_user waits isUser)
    rcases entered_steps placed mode (r2.trans enters.stored) user waitsToo with
      ⟨after, leaves, memory, isRunning, returned⟩
    refine ⟨after, ⟨steps.leaves leaves, isRunning, fun old other => ?_⟩, ?_, fun address off => ?_⟩
    · exact returned old (Suspended32.congr other kept)
    · change Suspended32 layout places current call after.memory
      rw [memory]
      exact suspended
    · change after.memory address = _
      rw [memory]
      exact outside address off
  starts := fun call next enters waits => by
    rcases skipped_steps32 enters with ⟨skipped, steps, placed, mode, r, memory⟩
    have user (isUser : places.isUser next = true) : skipped.r 3 = 0 := by
      rw [r, enters.isKernelStored]
      exact boolWord32_eq_zero (Waits_user waits isUser)
    have same : (taskContexts layout places).memory call = skipped.memory := memory.symm
    rw [same] at waits
    rcases entered_steps placed mode (by rw [r, enters.stored]) user waits with
      ⟨after, leaves, afterMemory, isRunning, returned⟩
    refine ⟨after, ⟨steps.leaves leaves, isRunning, fun old other => ?_⟩, fun address => ?_⟩
    · rw [same] at other
      exact returned old other
    · change after.memory address = call.memory address
      rw [afterMemory, memory]

/-! ## Every run -/

/-- Every task is new, and none is running yet. -/
structure CreatedTasks (layout : SwitchLayout) (places : TaskPlaces32 Key)
    (state : ContextSwitch.Contexts Machine Key) : Prop where
  new : forall key, state.standing key = .new
  idle : state.running = none
  tasks : forall key, NewTask layout places key state.machine.memory

theorem CreatedTasks.kept {state : ContextSwitch.Contexts Machine Key}
    (created : CreatedTasks layout places state) :
    ContextSwitch.Kept (taskContexts layout places) state where
  new := fun key _ => created.tasks key
  suspended := fun key call switchedOut => by
    rw [created.new] at switchedOut
    cases switchedOut
  running := fun key running => by
    rw [created.idle] at running
    cases running

/-- In every run, a call of `task_switch` comes to its end in one way, and when the task it
switches to was switched out, that is the return to the caller of this task, with all of
its registers. -/
theorem task_switch_transparent32 [DecidableEq Key] (layout : SwitchLayout)
    (places : TaskPlaces32 Key) {start state : ContextSwitch.Contexts Machine Key}
    {events : List (ContextSwitch.ContextEvent Key)} {saved : Option Key} {next : Key}
    (created : CreatedTasks layout places start)
    (reached : Reaches (ContextSwitch.SwitchStep (taskContexts layout places)) start events state)
    (calls : ContextSwitch.Calls (taskContexts layout places) state saved next) :
    Exists fun after => layout.code.Leaves state.machine after ∧
      (forall other, layout.code.Leaves state.machine other -> other = after) ∧
      forall call, state.standing next = .switchedOut call ->
        ReturnedToCaller32 (places.isUser next) call after :=
  (taskContexts_works layout places).transparent created.kept reached calls

def switchLabels32 : List SwitchLabel32 :=
  [.taskSave, .taskReturnAgain, .taskReturn, .taskSwitch, .taskSwitchSave, .taskSwitchSaved,
    .taskStart]

/-- The blocks one behind the other. -/
def rowLayout32 : SwitchLayout where
  addressOf := fun label => BitVec.ofNat 32 (4 * switchLabels32.idxOf label)
  labelAt := fun address =>
    switchLabels32.find? fun label => BitVec.ofNat 32 (4 * switchLabels32.idxOf label) = address
  labelAt_addressOf := fun label => by
    cases label <;> decide

theorem wordsFrom_bound {first address : Word} {count : Nat}
    (small : first.toNat + 4 * count < 2 ^ 32) (member : address ∈ wordsFrom first count) :
    first.toNat ≤ address.toNat ∧ address.toNat < first.toNat + 4 * count := by
  rcases member with ⟨index, below, rfl⟩
  rw [BitVec.toNat_add, BitVec.toNat_ofNat]
  omega

/-- The `Registers` and the stack of two tasks. -/
def pairRegisters (key : Bool) : Word :=
  if key then 65536 else 131072

def pairStack (key : Bool) : Word :=
  if key then 196608 else 262144

theorem pair_bounds (key : Bool) {address : Word}
    (member : address ∈ registersBlock32 (pairRegisters key) ∪ callerFrame32 (pairStack key)) :
    ((pairRegisters key).toNat ≤ address.toNat ∧ address.toNat < (pairRegisters key).toNat + 76) ∨
      ((pairStack key).toNat ≤ address.toNat + 24 ∧ address.toNat < (pairStack key).toNat) := by
  rcases member with inBlock | onStack
  · exact .inl (wordsFrom_bound (by cases key <;> decide) inBlock)
  · have bounds := wordsFrom_bound (by cases key <;> decide) onStack
    have lower : (pairStack key - 24).toNat + 24 = (pairStack key).toNat := by
      cases key <;> rfl
    exact .inr ⟨by omega, by omega⟩

/-- A user task and a kernel task. -/
def pairPlaces : TaskPlaces32 Bool where
  registers := pairRegisters
  kernelStack := fun key => callerFrame32 (pairStack key)
  isUser := id
  present := by decide
  apart := fun key other different => by
    refine Set.disjoint_left.mpr fun address first second => ?_
    have bounds := pair_bounds key first
    have others := pair_bounds other second
    cases key <;> cases other <;> simp [pairRegisters, pairStack] at * <;> omega
  registersOffStack := fun key => by
    refine Set.disjoint_left.mpr fun address first second => ?_
    have bounds := wordsFrom_bound (by cases key <;> decide) first
    have others := wordsFrom_bound (by cases key <;> decide) second
    cases key <;> simp [pairRegisters, pairStack] at bounds others <;> omega

/-- The machine of a task that calls `task_switch`. -/
def pairCalling (memory : Word -> Word) (current : Option Bool) (next : Bool) : Machine where
  r := fun index =>
    if index = 0 then (current.map pairRegisters).getD 0
    else if index = 1 then
      boolWord32 (isKernelRegisters32 memory ((current.map pairRegisters).getD 0))
    else if index = 2 then pairRegisters next
    else if index = 3 then boolWord32 (isKernelRegisters32 memory (pairRegisters next))
    else 1
  sp := fun mode =>
    if mode = Mode.supervisor then pairStack (current.getD false) else 7
  lr := fun _ => 1
  spsr := fun _ => 0
  cpsr := 0x13
  pc := rowLayout32.addressOf .taskSwitch
  memory := memory

/-- The user task has two different stack pointers, and every entry point is `1`. -/
def pairMemory : Word -> Word :=
  fun address => if address = 65536 + 4 then 5 else 1

def pairCreated : ContextSwitch.Contexts Machine Bool where
  machine := pairCalling pairMemory none true
  running := none
  standing := fun _ => .new

theorem pairCreated_created : CreatedTasks rowLayout32 pairPlaces pairCreated where
  new := fun _ => rfl
  idle := rfl
  tasks := fun key =>
    { entry := by cases key <;> decide
      user := fun isUser => by
        cases key with
        | false => cases isUser
        | true => decide }

theorem pairCalling_enters (memory : Word -> Word) (current : Bool) :
    EntersTask rowLayout32 pairPlaces (pairCalling memory (some current) !current) (some current)
      !current where
  placed := rfl
  mode := rfl
  stored := rfl
  isKernelStored := rfl
  nothing := fun wrong => by cases wrong
  toSave := fun _ same => by
    cases same
    rfl
  isKernelSave := fun _ same => by
    cases same
    rfl
  onStack := fun _ same => by
    cases same
    exact Set.Subset.rfl
  userStack := fun _ same _ member => by
    cases same
    have bounds := wordsFrom_bound (by cases current <;> decide) member
    cases current with
    | false => exact absurd (show 262144 - 24 ≤ 7 from bounds.1) (by decide)
    | true => exact absurd (show 196608 - 24 ≤ 7 from bounds.1) (by decide)
  caller := fun _ _ => by
    change rowLayout32.labelAt 1 = none
    decide

/-- The user task is started, switches to the kernel task, and is switched back to. -/
theorem task_switch_transparent32_resumed : Exists fun state => Exists fun events =>
    Exists fun call =>
      Reaches (ContextSwitch.SwitchStep (taskContexts rowLayout32 pairPlaces)) pairCreated events
        state ∧
      state.standing true = .switchedOut call ∧
      Exists fun after => rowLayout32.code.Leaves state.machine after ∧
        (forall other, rowLayout32.code.Leaves state.machine other -> other = after) ∧
        forall call, state.standing true = .switchedOut call ->
          ReturnedToCaller32 true call after := by
  have works := taskContexts_works rowLayout32 pairPlaces
  have starts : ContextSwitch.Calls (taskContexts rowLayout32 pairPlaces) pairCreated none true :=
    { enters :=
        { placed := rfl, mode := rfl, stored := rfl, isKernelStored := rfl
          nothing := fun _ => rfl
          toSave := nofun, isKernelSave := nofun, onStack := nofun, userStack := nofun
          caller := nofun }
      waiting := nofun
      isRunning := nofun }
  rcases works.transparent pairCreated_created.kept .refl starts with ⟨first, leaves, _⟩
  let started := Function.update pairCreated.standing true .notWaiting
  let call := pairCalling first.memory (some true) false
  have run1 : Reaches (ContextSwitch.SwitchStep (taskContexts rowLayout32 pairPlaces)) pairCreated
      [.start true] ⟨first, some true, started⟩ :=
    .tail .refl (.start starts leaves)
  have run2 : Reaches (ContextSwitch.SwitchStep (taskContexts rowLayout32 pairPlaces)) pairCreated
      [.work, .start true] ⟨call, some true, started⟩ :=
    .tail run1 (.work ⟨fun _ _ _ _ => rfl, fun _ _ _ _ _ => rfl⟩)
  have switches : ContextSwitch.Calls (taskContexts rowLayout32 pairPlaces)
      ⟨call, some true, started⟩ (some true) false :=
    { enters := pairCalling_enters first.memory true
      waiting := nofun
      isRunning := fun current same => by
        cases same
        exact ⟨rfl, nofun⟩ }
  rcases works.transparent pairCreated_created.kept run2 switches with ⟨second, leaves, _⟩
  let switched := Function.update (Function.update started true (.switchedOut call)) false .notWaiting
  have run3 : Reaches (ContextSwitch.SwitchStep (taskContexts rowLayout32 pairPlaces)) pairCreated
      [.switchTo false, .work, .start true] ⟨second, some false, switched⟩ :=
    .tail run2 (.switchTo switches leaves)
  have run4 : Reaches (ContextSwitch.SwitchStep (taskContexts rowLayout32 pairPlaces)) pairCreated
      [.work, .switchTo false, .work, .start true]
      ⟨pairCalling second.memory (some false) true, some false, switched⟩ :=
    .tail run3 (.work ⟨fun _ _ _ _ => rfl, fun _ _ _ _ _ => rfl⟩)
  have resumes : ContextSwitch.Calls (taskContexts rowLayout32 pairPlaces)
      ⟨pairCalling second.memory (some false) true, some false, switched⟩ (some false) true :=
    { enters := pairCalling_enters second.memory false
      waiting := nofun
      isRunning := fun current same => by
        cases same
        exact ⟨rfl, nofun⟩ }
  exact ⟨_, _, call, run4, rfl,
    task_switch_transparent32 rowLayout32 pairPlaces pairCreated_created run4 resumes⟩

end Kernel
end Pinyon
