import Pinyon.Library.Aarch32Modes

namespace Pinyon
namespace Kernel

open Library Library.Aarch32Modes
open Library.Aarch32 (Word Register storeWords storeWords_append storeWords_head)

/-!
# `task_switch` on ARMv7

The code of a context switch, block by block.  `task_save` is left twice: when it was
called, and again when the task it saved is switched back to.  The state of a task is
in its `Registers`, and what the calling convention has the caller save is on its
kernel stack.
-/

inductive SwitchLabel32 where
  | taskSave
  | taskReturnAgain
  | taskReturn
  | taskSwitch
  | taskSwitchSave
  | taskSwitchSaved
  | taskStart
deriving DecidableEq, Repr

/-- `r0` to `r12`. -/
def allRegisters : List Register :=
  (List.finRange 13).map .r

/-- What `task_switch` keeps on the stack. -/
def callerRegisters : List Register :=
  [.r 0, .r 1, .r 2, .r 3, .r 12, .lr]

def switchBlock32 (addressOf : SwitchLabel32 -> Word) : SwitchLabel32 -> Block SwitchLabel32
  | .taskSave =>
      { body :=
          [.mrsCpsr (.r 2), .str (.r 2) (.r 0), .add (.r 0) 4, .cmp (.r 1) 0, .stmeqUser (.r 0),
            .add (.r 0) 8, .stm (.r 0) [.sp, .lr], .stm (.r 0) allRegisters,
            .mov (.r 2) (addressOf .taskReturnAgain), .str (.r 2) (.r 0), .mov (.r 0) 0]
        exit := .goto .taskReturn }
  | .taskReturnAgain =>
      { body := [.mov (.r 0) 1]
        exit := .goto .taskReturn }
  | .taskReturn =>
      { body := []
        exit := .ret }
  | .taskSwitch =>
      { body := [.cmp (.r 0) 0]
        exit := .branchEq .taskStart .taskSwitchSave }
  | .taskSwitchSave =>
      { body := [.push callerRegisters]
        exit := .call .taskSave .taskSwitchSaved }
  | .taskSwitchSaved =>
      { body := [.cmp (.r 0) 0, .pop callerRegisters]
        exit := .retNe .taskStart }
  | .taskStart =>
      { body :=
          [.ldr (.r 1) (.r 2), .msrSpsr (.r 1), .add (.r 2) 4, .cmp (.r 3) 0, .ldmeqUser (.r 2),
            .add (.r 2) 8, .ldm (.r 2) [.sp, .lr]]
        exit := .ldmReturn (.r 2) allRegisters }

/-- Where the code was placed. -/
structure SwitchLayout where
  addressOf : SwitchLabel32 -> Word
  labelAt : Word -> Option SwitchLabel32
  labelAt_addressOf : forall label, labelAt (addressOf label) = some label

/-- The code, as it was placed. -/
def SwitchLayout.code (layout : SwitchLayout) : BlockCode Machine Word SwitchLabel32 where
  addressOf := layout.addressOf
  labelAt := layout.labelAt
  labelAt_addressOf := layout.labelAt_addressOf
  pc := Machine.pc
  run := fun label machine =>
    machine.runBlock layout.addressOf (switchBlock32 layout.addressOf label)

variable {layout : SwitchLayout} {machine : Machine}

/-! ## Starting a task -/

/-- The bits of a program state that a switch carries over, below the flags.  `msr` leaves
those between them as they are. -/
def switchedBits (cpsr : Word) : BitVec 12 :=
  cpsr.extractLsb' 24 4 ++ cpsr.extractLsb' 0 8

theorem switchedBits_withFlagsAndControl (cpsr value : Word) :
    switchedBits (withFlagsAndControl cpsr value) = switchedBits value := by
  have flags : (withFlagsAndControl cpsr value).extractLsb' 24 4 = value.extractLsb' 24 4 := by
    rw [withFlagsAndControl, BitVec.extractLsb'_append_eq_of_le (by decide),
      BitVec.extractLsb'_append_eq_of_le (by decide)]
    apply BitVec.eq_of_getLsbD_eq
    intro index below
    have inside : index < 8 := by omega
    simp [below, inside]
  have control : (withFlagsAndControl cpsr value).extractLsb' 0 8 = value.extractLsb' 0 8 :=
    BitVec.extractLsb'_append_eq_right
  rw [switchedBits, flags, control, switchedBits]

theorem modeOf_of_switchedBits {first second : Word}
    (same : switchedBits first = switchedBits second) : modeOf first = modeOf second := by
  have within (cpsr : Word) : modeOf cpsr = (switchedBits cpsr).extractLsb' 0 5 := by
    rw [switchedBits, BitVec.extractLsb'_append_eq_of_add_le (by decide),
      BitVec.extractLsb'_extractLsb'_of_le (by decide)]
    rfl
  rw [within, within, same]

/-- What comes of starting the task with the `Registers` at an address. -/
structure StartedFrom32 (registers : Word) (machine after : Machine) : Prop where
  pc : after.pc = machine.memory (registers + 72)
  bits : switchedBits after.cpsr = switchedBits (machine.memory registers)
  sp : after.sp Mode.supervisor = machine.memory (registers + 12)
  link : after.lr Mode.supervisor = machine.memory (registers + 16)
  general : forall index : Fin 13,
    after.r index = machine.memory (registers + 20 + BitVec.ofNat 32 (4 * index.val))
  user : machine.r 3 = 0 ->
    after.sp Mode.user = machine.memory (registers + 4) ∧
      after.lr Mode.user = machine.memory (registers + 8)
  memory : after.memory = machine.memory

theorem allRegisters_at (index : Fin 13) : allRegisters[index.val]? = some (.r index) := by
  rw [allRegisters, List.getElem?_map, List.getElem?_eq_getElem (by simp)]
  simp

/-- `ldmeq base, {sp, lr}^`. -/
theorem execute_ldmeqUser (machine : Machine) (base : Register) :
    (machine.execute (.ldmeqUser base)).r = machine.r ∧
      (machine.execute (.ldmeqUser base)).cpsr = machine.cpsr ∧
      (machine.execute (.ldmeqUser base)).spsr = machine.spsr ∧
      (machine.execute (.ldmeqUser base)).memory = machine.memory ∧
      (machine.zeroFlag = true ->
        (machine.execute (.ldmeqUser base)).sp Mode.user = machine.memory (machine.read base) ∧
          (machine.execute (.ldmeqUser base)).lr Mode.user =
            machine.memory (machine.read base + 4)) := by
  rw [Machine.execute]
  split
  next zero => exact ⟨rfl, rfl, rfl, rfl, fun _ => ⟨by simp, by simp⟩⟩
  next nonzero => exact ⟨rfl, rfl, rfl, rfl, fun zero => absurd zero nonzero⟩

/-- `ldm r2!, {sp, lr}` in supervisor mode. -/
structure StackLoaded (machine after : Machine) : Prop where
  r2 : after.r 2 = machine.r 2 + 8
  sp : after.sp Mode.supervisor = machine.memory (machine.r 2)
  link : after.lr Mode.supervisor = machine.memory (machine.r 2 + 4)
  user : after.sp Mode.user = machine.sp Mode.user ∧ after.lr Mode.user = machine.lr Mode.user
  mode : after.mode = Mode.supervisor
  spsr : after.spsr = machine.spsr
  memory : after.memory = machine.memory

theorem execute_ldm_stack (mode : machine.mode = Mode.supervisor) :
    StackLoaded machine (machine.execute (.ldm (.r 2) [.sp, .lr])) := by
  let lifted := machine.write (.r 2) (machine.r 2 + 8)
  let after := machine.execute (.ldm (.r 2) [.sp, .lr])
  have loads : after = lifted.loadRegisters (machine.r 2) [.sp, .lr] := rfl
  rcases @Machine.loadRegisters_keeps lifted (machine.r 2) [.sp, .lr] with ⟨memory, cpsr, spsr, _⟩
  rw [← loads] at memory cpsr spsr
  have afterMode : after.mode = Mode.supervisor := by
    rw [Machine.mode, cpsr]
    exact mode
  have at_ (index : Nat) (register : Register)
      (found : ([.sp, .lr] : List Register)[index]? = some register) :
      after.read register = machine.memory (machine.r 2 + BitVec.ofNat 32 (4 * index)) :=
    @Machine.loadRegisters_at lifted register (machine.r 2) [.sp, .lr] (by decide) index found
  have apart : Mode.user ≠ lifted.mode.bank := by
    rw [show lifted.mode = Mode.supervisor from mode]
    exact Mode.user_ne_supervisor
  have banks := @Machine.loadRegisters_banks lifted (machine.r 2) [.sp, .lr] Mode.user apart
  have kept : after.read (.r 2) = lifted.read (.r 2) := Machine.loadRegisters_other (by decide)
  have sp := at_ 0 .sp rfl
  have link := at_ 1 .lr rfl
  rw [Machine.read, Machine.stackPointer, afterMode, Mode.bank_supervisor] at sp
  rw [Machine.read, Machine.link, afterMode, Mode.bank_supervisor] at link
  exact
    { r2 := kept.trans Machine.write_r_self
      sp := sp.trans (congrArg machine.memory (BitVec.add_zero _))
      link := link
      user := banks
      mode := afterMode
      spsr := spsr
      memory := memory }

/-- `ldm r2, {r0-r12, pc}^` in supervisor mode. -/
structure AllLoaded (machine after : Machine) : Prop where
  general : forall index : Fin 13,
    after.r index = machine.memory (machine.r 2 + BitVec.ofNat 32 (4 * index.val))
  pc : after.pc = machine.memory (machine.r 2 + 52)
  cpsr : after.cpsr = machine.spsr Mode.supervisor
  sp : after.sp = machine.sp
  link : after.lr = machine.lr
  memory : after.memory = machine.memory

/-- A load of general registers leaves the banked ones alone. -/
theorem loadGeneral_banks (machine : Machine) (start : Word) (indices : List (Fin 13)) :
    (machine.loadRegisters start (indices.map .r)).sp = machine.sp ∧
      (machine.loadRegisters start (indices.map .r)).lr = machine.lr := by
  induction indices generalizing machine start with
  | nil => exact ⟨rfl, rfl⟩
  | cons index rest inductionHypothesis =>
      exact inductionHypothesis (machine.write (.r index) (machine.memory start)) (start + 4)

theorem leave_ldmReturn (addressOf : SwitchLabel32 -> Word) (mode : machine.mode = Mode.supervisor) :
    AllLoaded machine (machine.leave addressOf (.ldmReturn (.r 2) allRegisters)) := by
  let restored := machine.loadRegisters (machine.r 2) allRegisters
  have banks := loadGeneral_banks machine (machine.r 2) (List.finRange 13)
  have distinct : allRegisters.Nodup := by decide
  exact
    { general := fun index =>
        @Machine.loadRegisters_at machine (.r index) (machine.r 2) allRegisters distinct
          index.val (allRegisters_at index)
      pc := rfl
      cpsr := congrArg machine.spsr mode
      sp := banks.1
      link := banks.2
      memory := Machine.loadRegisters_keeps.1 }

/-- `_task_start` up to the load of the stack pointer. -/
theorem startPrefix (mode : machine.mode = Mode.supervisor) :
    Exists fun moved => moved = machine.executeAll
        [.ldr (.r 1) (.r 2), .msrSpsr (.r 1), .add (.r 2) 4, .cmp (.r 3) 0, .ldmeqUser (.r 2),
          .add (.r 2) 8] ∧
      moved.r 2 = machine.r 2 + 12 ∧ moved.mode = Mode.supervisor ∧
      moved.memory = machine.memory ∧
      switchedBits (moved.spsr Mode.supervisor) = switchedBits (machine.memory (machine.r 2)) ∧
      (machine.r 3 = 0 ->
        moved.sp Mode.user = machine.memory (machine.r 2 + 4) ∧
          moved.lr Mode.user = machine.memory (machine.r 2 + 8)) := by
  let first := machine.write (.r 1) (machine.memory (machine.r 2))
  let saved := (first.execute (.msrSpsr (.r 1))).execute (.add (.r 2) 4)
  let compared := saved.execute (.cmp (.r 3) 0)
  let user := compared.execute (.ldmeqUser (.r 2))
  have r2 : compared.r 2 = machine.r 2 + 4 := by
    change ((first.execute (.msrSpsr (.r 1))).write (.r 2) (first.r 2 + 4)).r 2 = _
    rw [Machine.write_r_self, Machine.write_r_of_ne (by decide)]
  have r3 : saved.r 3 = machine.r 3 := by
    change ((first.execute (.msrSpsr (.r 1))).write (.r 2) _).r 3 = _
    rw [Machine.write_r_of_ne (by decide)]
    exact @Machine.write_r_of_ne machine (machine.memory (machine.r 2)) 1 3 (by decide)
  have bits : switchedBits (compared.spsr Mode.supervisor) =
      switchedBits (machine.memory (machine.r 2)) := by
    change switchedBits (Function.update machine.spsr machine.mode _ _) = _
    rw [mode, Function.update_self, switchedBits_withFlagsAndControl]
    exact congrArg switchedBits Machine.write_r_self
  have zero : compared.zeroFlag = (machine.r 3 == 0) := by
    rw [← r3]
    exact Machine.zeroFlag_compare _ _ _
  rcases execute_ldmeqUser compared (.r 2) with ⟨userR, userCpsr, userSpsr, userMemory, userBank⟩
  refine ⟨user.execute (.add (.r 2) 8), rfl, ?_, ?_, userMemory, ?_, fun isUser => ?_⟩
  · change (user.write (.r 2) (user.r 2 + 8)).r 2 = _
    rw [Machine.write_r_self, userR, r2, BitVec.add_assoc]
    rfl
  · change modeOf user.cpsr = _
    rw [userCpsr]
    exact (Machine.compare_mode _ _ _).trans mode
  · change switchedBits (user.spsr _) = _
    rw [userSpsr, bits]
  · have taken := userBank (by rw [zero, isUser]; rfl)
    have source : compared.read (.r 2) = machine.r 2 + 4 := r2
    rw [source, BitVec.add_assoc] at taken
    exact taken

theorem start_steps32 (placed : machine.pc = layout.addressOf .taskStart)
    (mode : machine.mode = Mode.supervisor) :
    Exists fun after => layout.code.Steps machine after ∧
      StartedFrom32 (machine.r 2) machine after := by
  rcases startPrefix mode with ⟨moved, executed, r2, movedMode, memory, bits, user⟩
  let loaded := moved.execute (.ldm (.r 2) [.sp, .lr])
  have stack : StackLoaded moved loaded := execute_ldm_stack movedMode
  have all := leave_ldmReturn layout.addressOf stack.mode
  have steps : layout.code.Steps machine
      (loaded.leave layout.addressOf (.ldmReturn (.r 2) allRegisters)) := by
    have block := @BlockCode.Steps.block_at _ _ _ layout.code machine SwitchLabel32.taskStart placed
    have runs : layout.code.run SwitchLabel32.taskStart machine =
        loaded.leave layout.addressOf (.ldmReturn (.r 2) allRegisters) := by
      rw [show loaded = moved.execute (.ldm (.r 2) [.sp, .lr]) from rfl, executed]
      rfl
    rwa [runs] at block
  refine ⟨_, steps, ?_⟩
  have base : loaded.r 2 = machine.r 2 + 20 := by
    rw [stack.r2, r2, BitVec.add_assoc]
    rfl
  exact
    { pc := by
        rw [all.pc, stack.memory, memory, base, BitVec.add_assoc]
        rfl
      bits := by rw [all.cpsr, stack.spsr, bits]
      sp := by rw [all.sp, stack.sp, memory, r2]
      link := by
        rw [all.link, stack.link, memory, r2, BitVec.add_assoc]
        rfl
      general := fun index => by rw [all.general, stack.memory, memory, base]
      user := fun isUser => by
        rw [all.sp, all.link, stack.user.1, stack.user.2]
        exact user isUser
      memory := by rw [all.memory, stack.memory, memory] }

/-! ## Saving a task -/

/-- The bits of a program state below its flags. -/
def stateBits (cpsr : Word) : BitVec 28 :=
  cpsr.extractLsb' 0 28

theorem stateBits_compare (machine : Machine) (first second : Word) :
    stateBits (machine.compare first second).cpsr = stateBits machine.cpsr :=
  BitVec.extractLsb'_append_eq_right

theorem switchedBits_of_stateBits {first second : Word} (same : stateBits first = stateBits second) :
    switchedBits first = switchedBits second := by
  have within (cpsr : Word) : switchedBits cpsr =
      (stateBits cpsr).extractLsb' 24 4 ++ (stateBits cpsr).extractLsb' 0 8 := by
    rw [stateBits, BitVec.extractLsb'_extractLsb'_of_le (by decide),
      BitVec.extractLsb'_extractLsb'_of_le (by decide)]
    rfl
  rw [within, within, same]

theorem modeOf_of_stateBits {first second : Word} (same : stateBits first = stateBits second) :
    modeOf first = modeOf second := by
  have within (cpsr : Word) : modeOf cpsr = (stateBits cpsr).extractLsb' 0 5 :=
    (BitVec.extractLsb'_extractLsb'_of_le (by decide)).symm
  rw [within, within, same]

/-- `task_save` up to where it tests whether to store the registers of user mode. -/
theorem savePrefix (machine : Machine) :
    Exists fun tested => tested = machine.executeAll
        [.mrsCpsr (.r 2), .str (.r 2) (.r 0), .add (.r 0) 4, .cmp (.r 1) 0] ∧
      tested.r = Function.update (Function.update machine.r 2 machine.cpsr) 0 (machine.r 0 + 4) ∧
      tested.memory = Function.update machine.memory (machine.r 0) machine.cpsr ∧
      tested.zeroFlag = (machine.r 1 == 0) ∧ stateBits tested.cpsr = stateBits machine.cpsr ∧
      tested.sp = machine.sp ∧ tested.lr = machine.lr := by
  let read := machine.write (.r 2) machine.cpsr
  let stored := read.execute (.str (.r 2) (.r 0))
  let moved := stored.execute (.add (.r 0) 4)
  have r0 : read.r 0 = machine.r 0 := Machine.write_r_of_ne (by decide)
  have r2 : read.r 2 = machine.cpsr := Machine.write_r_self
  have r1 : moved.r 1 = machine.r 1 := by
    change (stored.write (.r 0) _).r 1 = _
    rw [Machine.write_r_of_ne (by decide)]
    exact @Machine.write_r_of_ne machine machine.cpsr 2 1 (by decide)
  refine ⟨moved.execute (.cmp (.r 1) 0), rfl, ?_, ?_, ?_, ?_, rfl, rfl⟩
  · change Function.update read.r 0 (read.r 0 + 4) = _
    rw [r0]
    rfl
  · change Function.update machine.memory (read.r 0) (read.r 2) = _
    rw [r0, r2]
  · rw [← r1]
    exact Machine.zeroFlag_compare _ _ _
  · exact stateBits_compare _ _ _

/-- `stmeq base, {sp, lr}^`. -/
theorem execute_stmeqUser (machine : Machine) (base : Register) :
    (machine.execute (.stmeqUser base)).memory =
        (if machine.zeroFlag then
          storeWords (machine.read base) [machine.sp Mode.user, machine.lr Mode.user] machine.memory
        else machine.memory) ∧
      (machine.execute (.stmeqUser base)).r = machine.r ∧
      (machine.execute (.stmeqUser base)).sp = machine.sp ∧
      (machine.execute (.stmeqUser base)).lr = machine.lr ∧
      (machine.execute (.stmeqUser base)).cpsr = machine.cpsr := by
  rw [Machine.execute]
  split
  · exact ⟨rfl, rfl, rfl, rfl, rfl⟩
  · exact ⟨rfl, rfl, rfl, rfl, rfl⟩

/-- `stm r0!, {registers}`. -/
structure Stored (registers : List Register) (machine after : Machine) : Prop where
  base : after.r 0 = machine.r 0 + BitVec.ofNat 32 (4 * registers.length)
  others : forall index, index ≠ 0 -> after.r index = machine.r index
  memory : after.memory =
    storeWords (machine.r 0) (registers.map machine.read) machine.memory
  sp : after.sp = machine.sp
  link : after.lr = machine.lr
  cpsr : after.cpsr = machine.cpsr

theorem execute_stm (machine : Machine) (registers : List Register) :
    Exists fun after => after = machine.execute (.stm (.r 0) registers) ∧
      Stored registers machine after :=
  ⟨_, rfl,
    { base := Machine.write_r_self
      others := fun index different =>
        @Machine.write_r_of_ne (machine.storeRegisters (machine.r 0) registers) _ 0 index different
      memory := rfl, sp := rfl, link := rfl, cpsr := rfl }⟩

/-- The part of `task_save` that stores the registers, from its base on. -/
theorem saveRest (machine : Machine) (again : Word) (mode : machine.mode = Mode.supervisor) :
    Exists fun saved => saved = machine.executeAll
        [.add (.r 0) 8, .stm (.r 0) [.sp, .lr], .stm (.r 0) allRegisters, .mov (.r 2) again,
          .str (.r 2) (.r 0), .mov (.r 0) 0] ∧
      saved.r 0 = 0 ∧ saved.sp = machine.sp ∧ saved.lr = machine.lr ∧ saved.cpsr = machine.cpsr ∧
      Exists fun general : List Word => general.length = 13 ∧
        (forall index : Fin 13, 1 ≤ index.val -> general[index.val]? = some (machine.r index)) ∧
        saved.memory =
          storeWords (machine.r 0 + 8)
            ([machine.sp Mode.supervisor, machine.lr Mode.supervisor] ++ (general ++ [again]))
            machine.memory := by
  let placed := machine.write (.r 0) (machine.r 0 + 8)
  have placedBase : placed.r 0 = machine.r 0 + 8 := Machine.write_r_self
  have bank : placed.mode.bank = Mode.supervisor := by
    rw [show placed.mode = Mode.supervisor from mode, Mode.bank_supervisor]
  rcases execute_stm placed [.sp, .lr] with ⟨first, firstIs, firstStored⟩
  rcases execute_stm first allRegisters with ⟨second, secondIs, secondStored⟩
  have stack : [Register.sp, Register.lr].map placed.read =
      [machine.sp Mode.supervisor, machine.lr Mode.supervisor] := by
    change [placed.sp placed.mode.bank, placed.lr placed.mode.bank] = _
    rw [bank]
    rfl
  have firstBase : first.r 0 = machine.r 0 + 8 + 8 := by
    rw [firstStored.base, placedBase]
    rfl
  have secondBase : second.r 0 = machine.r 0 + 8 + 8 + 52 := by
    rw [secondStored.base, firstBase]
    rfl
  let named := second.write (.r 2) again
  have namedBase : named.r 0 = second.r 0 := @Machine.write_r_of_ne second again 2 0 (by decide)
  have namedValue : named.r 2 = again := Machine.write_r_self
  let ended := named.execute (.str (.r 2) (.r 0))
  have endedMemory : ended.memory = storeWords (second.r 0) [again] second.memory := by
    change Function.update second.memory (named.r 0) (named.r 2) = _
    rw [namedBase, namedValue]
    rfl
  refine ⟨ended.write (.r 0) 0, ?_, Machine.write_r_self, ?_, ?_, ?_,
    allRegisters.map first.read, by simp [allRegisters], fun index positive => ?_, ?_⟩
  · change _ = ((placed.execute (.stm (.r 0) [.sp, .lr])).execute
      (.stm (.r 0) allRegisters)).executeAll [.mov (.r 2) again, .str (.r 2) (.r 0), .mov (.r 0) 0]
    rw [← firstIs, ← secondIs]
    rfl
  · exact secondStored.sp.trans firstStored.sp
  · exact secondStored.link.trans firstStored.link
  · exact secondStored.cpsr.trans firstStored.cpsr
  · have different : index ≠ 0 := fun same => by
      rw [same] at positive
      exact absurd positive (by decide)
    rw [List.getElem?_map, allRegisters_at]
    exact congrArg some ((firstStored.others index different).trans
      (@Machine.write_r_of_ne machine (machine.r 0 + 8) 0 index different))
  · rw [Machine.write_memory, endedMemory, secondBase, secondStored.memory, firstStored.memory, stack,
      firstBase, placedBase, storeWords_append, storeWords_append, List.length_map]
    rfl

/-- What `task_save` leaves in memory: the program state, the registers of user mode if they
are asked for, and the registers of supervisor mode. -/
def savedMemory (machine : Machine) (general : List Word) (again : Word) : Word -> Word :=
  let first := Function.update machine.memory (machine.r 0) machine.cpsr
  storeWords (machine.r 0 + 12)
    ([machine.sp Mode.supervisor, machine.lr Mode.supervisor] ++ (general ++ [again]))
    (if machine.r 1 = 0 then
      storeWords (machine.r 0 + 4) [machine.sp Mode.user, machine.lr Mode.user] first
    else first)

/-- From the call of `task_save` to its return. -/
theorem save_steps32 (placed : machine.pc = layout.addressOf .taskSave)
    (mode : machine.mode = Mode.supervisor) :
    Exists fun after => layout.code.Steps machine after ∧
      after.pc = machine.lr Mode.supervisor ∧ after.r 0 = 0 ∧ after.sp = machine.sp ∧
      after.lr = machine.lr ∧ stateBits after.cpsr = stateBits machine.cpsr ∧
      Exists fun general : List Word => general.length = 13 ∧
        (forall index : Fin 13, 3 ≤ index.val -> general[index.val]? = some (machine.r index)) ∧
        after.memory = savedMemory machine general (layout.addressOf .taskReturnAgain) := by
  rcases savePrefix machine with ⟨tested, testedIs, r, memory, zero, bits, sp, lr⟩
  rcases execute_stmeqUser tested (.r 0) with ⟨userMemory, userR, userSp, userLr, userCpsr⟩
  generalize userIs : tested.execute (.stmeqUser (.r 0)) = user at userMemory userR userSp userLr userCpsr
  have userBits : stateBits user.cpsr = stateBits machine.cpsr := by rw [userCpsr, bits]
  have userMode : user.mode = Mode.supervisor := (modeOf_of_stateBits userBits).trans mode
  rcases saveRest user (layout.addressOf .taskReturnAgain) userMode with
    ⟨saved, savedIs, r0, savedSp, savedLr, savedCpsr, general, length, registers, stored⟩
  have base : user.r 0 = machine.r 0 + 4 := by rw [userR, r, Function.update_self]
  have toReturn : layout.code.Steps machine
      { saved with pc := layout.addressOf .taskReturn } := by
    have block := @BlockCode.Steps.block_at _ _ _ layout.code machine SwitchLabel32.taskSave placed
    have runs : layout.code.run SwitchLabel32.taskSave machine =
        { saved with pc := layout.addressOf .taskReturn } := by
      rw [savedIs, ← userIs, testedIs]
      rfl
    rwa [runs] at block
  have returns := @BlockCode.Steps.block_at _ _ _ layout.code
    { saved with pc := layout.addressOf .taskReturn } SwitchLabel32.taskReturn rfl
  refine ⟨_, Relation.ReflTransGen.trans toReturn returns, ?_, r0, ?_, ?_, ?_, general, length,
    fun index high => ?_, ?_⟩
  · have savedMode : saved.mode = Mode.supervisor := by
      rw [Machine.mode, savedCpsr]
      exact userMode
    change saved.lr saved.mode.bank = _
    rw [savedMode, Mode.bank_supervisor, savedLr, userLr, lr]
  · exact savedSp.trans (userSp.trans sp)
  · exact savedLr.trans (userLr.trans lr)
  · change stateBits saved.cpsr = _
    rw [savedCpsr, userBits]
  · rw [registers index (by omega), userR, r, Function.update_of_ne, Function.update_of_ne]
    · exact fun same => absurd (same ▸ high) (by decide)
    · exact fun same => absurd (same ▸ high) (by decide)
  · have source : tested.read (.r 0) = machine.r 0 + 4 := by
      rw [Machine.read, r, Function.update_self]
    change saved.memory = _
    rw [stored, userMemory, base, userSp, userLr, sp, lr, source, memory, zero, BitVec.add_assoc,
      savedMemory]
    simp only [beq_iff_eq]
    rfl

/-- A call that has nothing to save goes on to the start of the next task. -/
theorem skip_steps32 (placed : machine.pc = layout.addressOf .taskSwitch)
    (nothing : machine.r 0 = 0) :
    Exists fun after => layout.code.Steps machine after ∧
      after.pc = layout.addressOf .taskStart ∧ after.r = machine.r ∧
      after.mode = machine.mode ∧ after.memory = machine.memory := by
  have block := @BlockCode.Steps.block_at _ _ _ layout.code machine SwitchLabel32.taskSwitch placed
  refine ⟨_, block, ?_, rfl, Machine.compare_mode _ _ _, rfl⟩
  change layout.addressOf (if (machine.compare (machine.r 0) 0).zeroFlag then _ else _) = _
  rw [Machine.zeroFlag_compare, nothing]
  rfl

/-- A call that has something to save, up to the call of `task_save`. -/
theorem enter_steps32 (placed : machine.pc = layout.addressOf .taskSwitch)
    (saves : machine.r 0 ≠ 0) (mode : machine.mode = Mode.supervisor) :
    Exists fun after => layout.code.Steps machine after ∧
      after.pc = layout.addressOf .taskSave ∧ after.r = machine.r ∧
      after.mode = Mode.supervisor ∧ stateBits after.cpsr = stateBits machine.cpsr ∧
      after.sp Mode.supervisor = machine.sp Mode.supervisor - 24 ∧
      after.lr Mode.supervisor = layout.addressOf .taskSwitchSaved ∧
      after.sp Mode.user = machine.sp Mode.user ∧ after.lr Mode.user = machine.lr Mode.user ∧
      after.memory = storeWords (machine.sp Mode.supervisor - 24)
        (callerRegisters.map machine.read) machine.memory := by
  let compared : Machine :=
    { machine.compare (machine.r 0) 0 with pc := layout.addressOf .taskSwitchSave }
  have comparedMode : compared.mode = Mode.supervisor := (Machine.compare_mode _ _ _).trans mode
  have toSave : layout.code.Steps machine compared := by
    have block := @BlockCode.Steps.block_at _ _ _ layout.code machine SwitchLabel32.taskSwitch placed
    have runs : layout.code.run SwitchLabel32.taskSwitch machine = compared := by
      have nonzero : (machine.compare (machine.r 0) 0).zeroFlag = false := by
        rw [Machine.zeroFlag_compare]
        exact beq_eq_false_iff_ne.mpr saves
      change (machine.compare (machine.r 0) 0).leave layout.addressOf
        (.branchEq SwitchLabel32.taskStart .taskSwitchSave) = compared
      rw [Machine.leave, nonzero]
      rfl
    rwa [runs] at block
  have calls := @BlockCode.Steps.block_at _ _ _ layout.code compared SwitchLabel32.taskSwitchSave rfl
  have pointer : compared.stackPointer = machine.sp Mode.supervisor := by
    rw [Machine.stackPointer, comparedMode]
    rfl
  have read : callerRegisters.map compared.read = callerRegisters.map machine.read := by
    have link : compared.link = machine.link := by
      rw [Machine.link, Machine.link, comparedMode, mode]
      rfl
    change [machine.r 0, machine.r 1, machine.r 2, machine.r 3, machine.r 12, compared.link] = _
    rw [link]
    rfl
  let pushed := compared.execute (.push callerRegisters)
  have pushedMode : pushed.mode = Mode.supervisor := comparedMode
  have pushedSp : pushed.sp = Function.update machine.sp Mode.supervisor
      (machine.sp Mode.supervisor - 24) := by
    change Function.update machine.sp compared.mode.bank (compared.stackPointer - 24) = _
    rw [comparedMode, pointer, Mode.bank_supervisor]
  have callLr : (pushed.call (layout.addressOf .taskSave) (layout.addressOf .taskSwitchSaved)).lr =
      Function.update machine.lr Mode.supervisor (layout.addressOf .taskSwitchSaved) := by
    change Function.update machine.lr pushed.mode.bank _ = _
    rw [pushedMode, Mode.bank_supervisor]
  refine ⟨_, Relation.ReflTransGen.trans toSave calls, rfl, rfl, pushedMode,
    stateBits_compare _ _ _, ?_, ?_, ?_, ?_, ?_⟩
  · change pushed.sp _ = _
    rw [pushedSp, Function.update_self]
  · exact (congrFun callLr _).trans (by simp)
  · change pushed.sp _ = _
    rw [pushedSp, Function.update_of_ne Mode.user_ne_supervisor]
  · exact (congrFun callLr _).trans (by rw [Function.update_of_ne Mode.user_ne_supervisor])
  · change storeWords (compared.stackPointer - 24) (callerRegisters.map compared.read) machine.memory = _
    rw [pointer, read]

/-- `task_save` has returned to `task_switch`, which goes on to the next task or returns
to its caller. -/
structure CallerPopped (layout : SwitchLayout) (machine after : Machine) : Prop where
  popped : forall index register, callerRegisters[index]? = some register ->
    after.read register =
      machine.memory (machine.sp Mode.supervisor + BitVec.ofNat 32 (4 * index))
  saved : forall index : Fin 13, 4 ≤ index.val -> index.val ≤ 11 ->
    after.r index = machine.r index
  sp : after.sp Mode.supervisor = machine.sp Mode.supervisor + 24
  mode : after.mode = Mode.supervisor
  bits : stateBits after.cpsr = stateBits machine.cpsr
  user : after.sp Mode.user = machine.sp Mode.user ∧ after.lr Mode.user = machine.lr Mode.user
  memory : after.memory = machine.memory
  pc : after.pc =
    if machine.r 0 = 0 then layout.addressOf .taskStart else after.lr Mode.supervisor

theorem saved_steps32 (placed : machine.pc = layout.addressOf .taskSwitchSaved)
    (mode : machine.mode = Mode.supervisor) :
    Exists fun after => layout.code.Steps machine after ∧ CallerPopped layout machine after := by
  let compared := machine.compare (machine.r 0) 0
  have comparedMode : compared.mode = Mode.supervisor := (Machine.compare_mode _ _ _).trans mode
  have zero : compared.zeroFlag = (machine.r 0 == 0) := Machine.zeroFlag_compare _ _ _
  have isPopped := compared.execute_pop (show callerRegisters.Nodup by decide) (by decide)
  generalize poppedIs : compared.execute (.pop callerRegisters) = popped at isPopped
  have poppedMode : popped.mode = Mode.supervisor := by
    rw [Machine.mode, isPopped.cpsr]
    exact comparedMode
  have pointer : compared.stackPointer = machine.sp Mode.supervisor := by
    rw [Machine.stackPointer, comparedMode, Mode.bank_supervisor]
    rfl
  have apart : Mode.user ≠ compared.mode.bank := by
    rw [comparedMode]
    exact Mode.user_ne_supervisor
  have block := @BlockCode.Steps.block_at _ _ _ layout.code machine SwitchLabel32.taskSwitchSaved placed
  have runs : layout.code.run SwitchLabel32.taskSwitchSaved machine =
      popped.leave layout.addressOf (.retNe SwitchLabel32.taskStart) := by
    rw [← poppedIs]
    rfl
  rw [runs] at block
  refine ⟨_, block, ?_⟩
  exact
    { popped := fun index register found => by
        have loaded := isPopped.popped index register found
        rw [pointer] at loaded
        rw [show machine.memory = compared.memory from rfl, ← loaded]
        cases register <;> rfl
      saved := fun index low high => by
        refine isPopped.others (.r index) ?_ fun wrong => by cases wrong
        revert index
        decide
      sp := by
        have moved := isPopped.stackPointer
        rw [pointer, Machine.stackPointer, poppedMode, Mode.bank_supervisor] at moved
        exact moved
      mode := poppedMode
      bits := by
        change stateBits popped.cpsr = _
        rw [isPopped.cpsr]
        exact stateBits_compare _ _ _
      user := ⟨isPopped.otherSp _ apart, isPopped.otherLr _ apart⟩
      memory := isPopped.memory
      pc := by
        change (if popped.zeroFlag then _ else popped.lr popped.mode.bank) = _
        rw [Machine.zeroFlag, isPopped.cpsr, poppedMode, Mode.bank_supervisor,
          show compared.cpsr.getLsbD 30 = (machine.r 0 == 0) from zero]
        simp only [beq_iff_eq]
        rfl }

/-- `task_save` returns again, to a `task_switch` that returns to its caller. -/
theorem again_steps32 (placed : machine.pc = layout.addressOf .taskReturnAgain)
    (mode : machine.mode = Mode.supervisor)
    (link : machine.lr Mode.supervisor = layout.addressOf .taskSwitchSaved) :
    Exists fun middle => Exists fun after => layout.code.Steps machine after ∧
      CallerPopped layout middle after ∧ middle.r = Function.update machine.r 0 1 ∧
      middle.sp = machine.sp ∧ middle.lr = machine.lr ∧ middle.cpsr = machine.cpsr ∧
      middle.memory = machine.memory := by
  let marked : Machine := { machine.write (.r 0) 1 with pc := layout.addressOf .taskReturn }
  let middle : Machine := { marked with pc := marked.link }
  have marks := @BlockCode.Steps.block_at _ _ _ layout.code machine SwitchLabel32.taskReturnAgain placed
  have returns := @BlockCode.Steps.block_at _ _ _ layout.code marked SwitchLabel32.taskReturn rfl
  have back : middle.pc = layout.addressOf .taskSwitchSaved := by
    change machine.lr machine.mode.bank = _
    rw [mode, Mode.bank_supervisor, link]
  rcases @saved_steps32 layout middle back mode with ⟨after, steps, popped⟩
  exact ⟨middle, after, Relation.ReflTransGen.trans (Relation.ReflTransGen.trans marks returns) steps,
    popped, rfl, rfl, rfl, rfl, rfl⟩

end Kernel
end Pinyon
