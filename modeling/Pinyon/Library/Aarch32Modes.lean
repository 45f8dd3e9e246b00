import Pinyon.Library.Aarch32
import Pinyon.Library.Blocks

namespace Pinyon
namespace Library
namespace Aarch32Modes

open Aarch32 (Word Register storeWords storeWords_other storeWords_append storeWords_head)

/-!
# Processor modes on ARMv7

Each mode has a stack pointer, a link register and a saved program state of its own,
and user mode shares the first two with system mode.  An exception is taken to
another mode, and the way back loads the program counter and the program state
together.  The registers that only a fast interrupt replaces are left out.  All code is
in the ARM instruction set, so that an exception does not change it.
-/

/-- The mode bits of a program state. -/
abbrev Mode : Type := BitVec 5

namespace Mode

def user : Mode := 0b10000

def irq : Mode := 0b10010

def supervisor : Mode := 0b10011

def abort : Mode := 0b10111

def undefined : Mode := 0b11011

def system : Mode := 0b11111

/-- The mode whose stack pointer and link register a mode uses. -/
def bank (mode : Mode) : Mode :=
  if mode = system then user else mode

@[simp] theorem bank_user : user.bank = user := by
  decide

@[simp] theorem bank_irq : irq.bank = irq := by
  decide

@[simp] theorem bank_supervisor : supervisor.bank = supervisor := by
  decide

theorem user_ne_irq : user ≠ irq := by
  decide

theorem user_ne_supervisor : user ≠ supervisor := by
  decide

end Mode

/-! ## The program state -/

/-- The mode that a program state stands for. -/
def modeOf (cpsr : Word) : Mode :=
  cpsr.extractLsb' 0 5

/-- Whether interrupts are masked. -/
def irqMasked (cpsr : Word) : Bool :=
  cpsr.getLsbD 7

def withMode (cpsr : Word) (mode : Mode) : Word :=
  cpsr.extractLsb' 5 27 ++ mode

def withIrqMask (cpsr : Word) (masked : Bool) : Word :=
  cpsr.extractLsb' 8 24 ++ BitVec.ofBool masked ++ cpsr.extractLsb' 0 7

/-- Asynchronous aborts are masked. -/
def withAbortMask (cpsr : Word) : Word :=
  cpsr.extractLsb' 9 23 ++ BitVec.ofBool true ++ cpsr.extractLsb' 0 8

/-- What plain `msr` writes: the flags above bit 23 and the control bits below bit 8. -/
def withFlagsAndControl (cpsr value : Word) : Word :=
  value.extractLsb' 24 8 ++ cpsr.extractLsb' 8 16 ++ value.extractLsb' 0 8

@[simp] theorem modeOf_withMode (cpsr : Word) (mode : Mode) :
    modeOf (withMode cpsr mode) = mode :=
  BitVec.extractLsb'_append_eq_right

@[simp] theorem modeOf_withIrqMask (cpsr : Word) (masked : Bool) :
    modeOf (withIrqMask cpsr masked) = modeOf cpsr := by
  rw [modeOf, withIrqMask, BitVec.extractLsb'_append_eq_of_add_le (by decide),
    BitVec.extractLsb'_extractLsb'_of_le (by decide)]
  rfl

@[simp] theorem modeOf_withAbortMask (cpsr : Word) : modeOf (withAbortMask cpsr) = modeOf cpsr := by
  rw [modeOf, withAbortMask, BitVec.extractLsb'_append_eq_of_add_le (by decide),
    BitVec.extractLsb'_extractLsb'_of_le (by decide)]
  rfl

/-! ## The machine -/

structure Machine where
  r : Fin 13 -> Word
  sp : Mode -> Word
  lr : Mode -> Word
  spsr : Mode -> Word
  cpsr : Word
  pc : Word
  memory : Word -> Word

inductive Instruction where
  | mov (dest : Register) (value : Word)
  | movRegister (dest source : Register)
  | add (dest : Register) (value : Word)
  | sub (dest : Register) (value : Word)
  | and (dest : Register) (value : Word)
  | cmp (source : Register) (value : Word)
  | cmpRegister (first second : Register)
  | mrsCpsr (dest : Register)
  | msrSpsr (source : Register)
  | str (source base : Register)
  | ldr (dest base : Register)
  /-- `stm base!, {registers}`. -/
  | stm (base : Register) (registers : List Register)
  /-- `ldm base!, {registers}`. -/
  | ldm (base : Register) (registers : List Register)
  /-- `stmeq base, {sp, lr}^`. -/
  | stmeqUser (base : Register)
  /-- `ldmeq base, {sp, lr}^`. -/
  | ldmeqUser (base : Register)
  | push (registers : List Register)
  | pop (registers : List Register)
  /-- `srsdb sp!, #mode`. -/
  | srsdb (mode : Mode)
  /-- `cps #mode`. -/
  | cps (mode : Mode)
  /-- `cpsid i, #mode`. -/
  | cpsid (mode : Mode)
  /-- `cpsie i`. -/
  | cpsie

namespace Machine

def mode (machine : Machine) : Mode :=
  modeOf machine.cpsr

/-- The stack pointer of the present mode. -/
def stackPointer (machine : Machine) : Word :=
  machine.sp machine.mode.bank

/-- The link register of the present mode. -/
def link (machine : Machine) : Word :=
  machine.lr machine.mode.bank

def read (machine : Machine) : Register -> Word
  | .r index => machine.r index
  | .sp => machine.stackPointer
  | .lr => machine.link

def write (machine : Machine) (register : Register) (value : Word) : Machine :=
  match register with
  | .r index => { machine with r := Function.update machine.r index value }
  | .sp => { machine with sp := Function.update machine.sp machine.mode.bank value }
  | .lr => { machine with lr := Function.update machine.lr machine.mode.bank value }

def zeroFlag (machine : Machine) : Bool :=
  machine.cpsr.getLsbD 30

def carryFlag (machine : Machine) : Bool :=
  machine.cpsr.getLsbD 29

/-- The flags of a subtraction, above the rest of the program state. -/
def compare (machine : Machine) (first second : Word) : Machine :=
  let result := first - second
  { machine with
    cpsr :=
      BitVec.ofBool result.msb ++ BitVec.ofBool (first == second) ++
        BitVec.ofBool (second.ule first) ++
        BitVec.ofBool ((first.msb != second.msb) && (first.msb != result.msb)) ++
        machine.cpsr.extractLsb' 0 28 }

/-- Stores registers from an address on, the first of the list at the lowest. -/
def storeRegisters (machine : Machine) (start : Word) (registers : List Register) : Machine :=
  { machine with memory := storeWords start (registers.map machine.read) machine.memory }

/-- Loads registers from an address on, the first of the list from the lowest. -/
def loadRegisters (machine : Machine) (start : Word) : List Register -> Machine
  | [] => machine
  | register :: rest =>
      (machine.write register (machine.memory start)).loadRegisters (start + 4) rest

def execute (machine : Machine) : Instruction -> Machine
  | .mov dest value => machine.write dest value
  | .movRegister dest source => machine.write dest (machine.read source)
  | .add dest value => machine.write dest (machine.read dest + value)
  | .sub dest value => machine.write dest (machine.read dest - value)
  | .and dest value => machine.write dest (machine.read dest &&& value)
  | .cmp source value => machine.compare (machine.read source) value
  | .cmpRegister first second => machine.compare (machine.read first) (machine.read second)
  | .mrsCpsr dest => machine.write dest machine.cpsr
  | .msrSpsr source =>
      let value := withFlagsAndControl (machine.spsr machine.mode) (machine.read source)
      { machine with spsr := Function.update machine.spsr machine.mode value }
  | .str source base =>
      { machine with
        memory := Function.update machine.memory (machine.read base) (machine.read source) }
  | .ldr dest base => machine.write dest (machine.memory (machine.read base))
  | .stm base registers =>
      (machine.storeRegisters (machine.read base) registers).write base
        (machine.read base + BitVec.ofNat 32 (4 * registers.length))
  | .ldm base registers =>
      (machine.write base (machine.read base + BitVec.ofNat 32 (4 * registers.length))).loadRegisters
        (machine.read base) registers
  | .stmeqUser base =>
      if machine.zeroFlag then
        { machine with
          memory := storeWords (machine.read base) [machine.sp Mode.user, machine.lr Mode.user]
            machine.memory }
      else machine
  | .ldmeqUser base =>
      if machine.zeroFlag then
        { machine with
          sp := Function.update machine.sp Mode.user (machine.memory (machine.read base))
          lr := Function.update machine.lr Mode.user (machine.memory (machine.read base + 4)) }
      else machine
  | .push registers =>
      let sp := machine.stackPointer - BitVec.ofNat 32 (4 * registers.length)
      (machine.storeRegisters sp registers).write .sp sp
  | .pop registers =>
      (machine.write .sp
        (machine.stackPointer + BitVec.ofNat 32 (4 * registers.length))).loadRegisters
          machine.stackPointer registers
  | .srsdb mode =>
      let sp := machine.sp mode.bank - 8
      { machine with
        memory := storeWords sp [machine.link, machine.spsr machine.mode] machine.memory
        sp := Function.update machine.sp mode.bank sp }
  | .cps mode => { machine with cpsr := withMode machine.cpsr mode }
  | .cpsid mode => { machine with cpsr := withIrqMask (withMode machine.cpsr mode) true }
  | .cpsie => { machine with cpsr := withIrqMask machine.cpsr false }

def executeAll (machine : Machine) : List Instruction -> Machine
  | [] => machine
  | instruction :: rest => (machine.execute instruction).executeAll rest

theorem executeAll_append (machine : Machine) (first second : List Instruction) :
    machine.executeAll (first ++ second) = (machine.executeAll first).executeAll second := by
  induction first generalizing machine with
  | nil => rfl
  | cons instruction rest inductionHypothesis => exact inductionHypothesis _

/-! ## Exceptions -/

/-- An interrupt is taken.  The link register of its mode gets the address of the next
instruction and 4 more. -/
def takeIrq (machine : Machine) (vector : Word) : Machine :=
  { machine with
    lr := Function.update machine.lr Mode.irq (machine.pc + 4)
    spsr := Function.update machine.spsr Mode.irq machine.cpsr
    cpsr := withAbortMask (withIrqMask (withMode machine.cpsr Mode.irq) true)
    pc := vector }

/-- `swi` at the program counter. -/
def takeSwi (machine : Machine) (vector : Word) : Machine :=
  { machine with
    lr := Function.update machine.lr Mode.supervisor (machine.pc + 4)
    spsr := Function.update machine.spsr Mode.supervisor machine.cpsr
    cpsr := withIrqMask (withMode machine.cpsr Mode.supervisor) true
    pc := vector }

/-- `rfe sp!`. -/
def rfe (machine : Machine) : Machine :=
  { machine with
    sp := Function.update machine.sp machine.mode.bank (machine.stackPointer + 8)
    pc := machine.memory machine.stackPointer
    cpsr := machine.memory (machine.stackPointer + 4) }

/-- `bl`. -/
def call (machine : Machine) (target back : Word) : Machine :=
  { machine.write .lr back with pc := target }

section Taken

variable (machine : Machine) (vector : Word)

@[simp] theorem takeIrq_mode : (machine.takeIrq vector).mode = Mode.irq := by
  rw [mode, takeIrq, modeOf_withAbortMask, modeOf_withIrqMask, modeOf_withMode]

@[simp] theorem takeIrq_lr :
    (machine.takeIrq vector).lr = Function.update machine.lr Mode.irq (machine.pc + 4) :=
  rfl

@[simp] theorem takeIrq_spsr :
    (machine.takeIrq vector).spsr = Function.update machine.spsr Mode.irq machine.cpsr :=
  rfl

@[simp] theorem takeSwi_mode : (machine.takeSwi vector).mode = Mode.supervisor := by
  rw [mode, takeSwi, modeOf_withIrqMask, modeOf_withMode]

@[simp] theorem takeSwi_lr :
    (machine.takeSwi vector).lr = Function.update machine.lr Mode.supervisor (machine.pc + 4) :=
  rfl

@[simp] theorem takeSwi_spsr :
    (machine.takeSwi vector).spsr = Function.update machine.spsr Mode.supervisor machine.cpsr :=
  rfl

end Taken

/-! ## Programs in blocks -/

end Machine

/-- How a block is left. -/
inductive Exit (Label : Type) where
  | goto (label : Label)
  | branchEq (taken otherwise : Label)
  | branchLo (taken otherwise : Label)
  | call (target back : Label)
  /-- `bx lr`. -/
  | ret
  /-- `bxne lr`. -/
  | retNe (otherwise : Label)
  /-- `bx` to the address in a register. -/
  | bx (register : Register)
  /-- `ldm base, {registers, pc}^`. -/
  | ldmReturn (base : Register) (registers : List Register)

structure Block (Label : Type) where
  body : List Instruction
  exit : Exit Label

namespace Machine

variable {Label : Type}

def leave (addressOf : Label -> Word) (machine : Machine) : Exit Label -> Machine
  | .goto label => { machine with pc := addressOf label }
  | .branchEq taken otherwise =>
      { machine with pc := addressOf (if machine.zeroFlag then taken else otherwise) }
  | .branchLo taken otherwise =>
      { machine with pc := addressOf (if machine.carryFlag then otherwise else taken) }
  | .call target back => machine.call (addressOf target) (addressOf back)
  | .ret => { machine with pc := machine.link }
  | .retNe otherwise =>
      { machine with pc := if machine.zeroFlag then addressOf otherwise else machine.link }
  | .bx register => { machine with pc := machine.read register }
  | .ldmReturn base registers =>
      { machine.loadRegisters (machine.read base) registers with
        pc := machine.memory (machine.read base + BitVec.ofNat 32 (4 * registers.length))
        cpsr := machine.spsr machine.mode }

def runBlock (addressOf : Label -> Word) (machine : Machine) (block : Block Label) : Machine :=
  (machine.executeAll block.body).leave addressOf block.exit

/-! ## Reading and writing registers -/

section Registers

variable {machine : Machine} {register other : Register} {value start : Word}
variable {registers : List Register} {mode : Mode}

@[simp] theorem write_memory : (machine.write register value).memory = machine.memory := by
  cases register <;> rfl

@[simp] theorem write_cpsr : (machine.write register value).cpsr = machine.cpsr := by
  cases register <;> rfl

@[simp] theorem write_mode : (machine.write register value).mode = machine.mode := by
  cases register <;> rfl

@[simp] theorem write_spsr : (machine.write register value).spsr = machine.spsr := by
  cases register <;> rfl

@[simp] theorem write_pc : (machine.write register value).pc = machine.pc := by
  cases register <;> rfl

theorem read_write_self : (machine.write register value).read register = value := by
  cases register with
  | r index => exact Function.update_self _ _ _
  | sp => exact Function.update_self _ _ _
  | lr => exact Function.update_self _ _ _

theorem read_write_of_ne (different : other ≠ register) :
    (machine.write register value).read other = machine.read other := by
  cases register with
  | r index =>
      cases other with
      | r otherIndex =>
          exact Function.update_of_ne (fun same => different (congrArg Register.r same)) _ _
      | sp => rfl
      | lr => rfl
  | sp =>
      cases other with
      | r index => rfl
      | sp => exact absurd rfl different
      | lr => rfl
  | lr =>
      cases other with
      | r index => rfl
      | sp => rfl
      | lr => exact absurd rfl different

theorem write_r_self {index : Fin 13} : (machine.write (.r index) value).r index = value :=
  @read_write_self machine (.r index) value

theorem write_r_of_ne {index otherIndex : Fin 13} (different : otherIndex ≠ index) :
    (machine.write (.r index) value).r otherIndex = machine.r otherIndex :=
  @read_write_of_ne machine (.r index) (.r otherIndex) value
    fun same => different (Register.r.inj same)

/-- The stack pointers of the other modes are not written to. -/
theorem write_sp_of_ne (different : mode ≠ machine.mode.bank) :
    (machine.write register value).sp mode = machine.sp mode := by
  cases register with
  | r index => rfl
  | sp => exact Function.update_of_ne different _ _
  | lr => rfl

theorem write_lr_of_ne (different : mode ≠ machine.mode.bank) :
    (machine.write register value).lr mode = machine.lr mode := by
  cases register with
  | r index => rfl
  | sp => rfl
  | lr => exact Function.update_of_ne different _ _

/-- A load of several registers changes no more than those of the present mode. -/
theorem loadRegisters_keeps :
    (machine.loadRegisters start registers).memory = machine.memory ∧
      (machine.loadRegisters start registers).cpsr = machine.cpsr ∧
      (machine.loadRegisters start registers).spsr = machine.spsr ∧
      (machine.loadRegisters start registers).pc = machine.pc := by
  induction registers generalizing machine start with
  | nil => exact ⟨rfl, rfl, rfl, rfl⟩
  | cons register rest inductionHypothesis =>
      rw [loadRegisters]
      rcases @inductionHypothesis (machine.write register (machine.memory start)) (start + 4) with
        ⟨memory, cpsr, spsr, pc⟩
      exact ⟨memory.trans write_memory, cpsr.trans write_cpsr, spsr.trans write_spsr,
        pc.trans write_pc⟩

theorem loadRegisters_banks (different : mode ≠ machine.mode.bank) :
    (machine.loadRegisters start registers).sp mode = machine.sp mode ∧
      (machine.loadRegisters start registers).lr mode = machine.lr mode := by
  induction registers generalizing machine start with
  | nil => exact ⟨rfl, rfl⟩
  | cons register rest inductionHypothesis =>
      rw [loadRegisters]
      rcases @inductionHypothesis (machine.write register (machine.memory start)) (start + 4)
        (by rwa [write_mode]) with ⟨sp, lr⟩
      exact ⟨sp.trans (write_sp_of_ne different), lr.trans (write_lr_of_ne different)⟩

theorem loadRegisters_other (absent : register ∉ registers) :
    (machine.loadRegisters start registers).read register = machine.read register := by
  induction registers generalizing machine start with
  | nil => rfl
  | cons first rest inductionHypothesis =>
      rw [List.mem_cons, not_or] at absent
      rw [loadRegisters, inductionHypothesis absent.2]
      exact read_write_of_ne absent.1

/-- Each register gets the word in its own place. -/
theorem loadRegisters_at (distinct : registers.Nodup) {index : Nat}
    (at_ : registers[index]? = some register) :
    (machine.loadRegisters start registers).read register =
      machine.memory (start + BitVec.ofNat 32 (4 * index)) := by
  induction registers generalizing machine start index with
  | nil => cases at_
  | cons first rest inductionHypothesis =>
      rw [List.nodup_cons] at distinct
      rw [loadRegisters]
      cases index with
      | zero =>
          cases at_
          rw [loadRegisters_other distinct.1, read_write_self]
          exact congrArg machine.memory (BitVec.add_zero start).symm
      | succ index =>
          rw [inductionHypothesis distinct.2 at_, write_memory]
          refine congrArg machine.memory ?_
          rw [Nat.mul_succ, Nat.add_comm, BitVec.ofNat_add, ← BitVec.add_assoc]
          rfl

end Registers

@[simp] theorem compare_mode (machine : Machine) (first second : Word) :
    (machine.compare first second).mode = machine.mode := by
  rw [mode, compare, modeOf, BitVec.extractLsb'_append_eq_of_add_le (by decide),
    BitVec.extractLsb'_extractLsb'_of_le (by decide)]
  rfl

theorem zeroFlag_compare (machine : Machine) (first second : Word) :
    (machine.compare first second).zeroFlag = (first == second) := by
  rw [zeroFlag, compare]
  simp only [BitVec.getLsbD_append]
  exact BitVec.getLsbD_ofBool _ 0

theorem carryFlag_compare (machine : Machine) (first second : Word) :
    (machine.compare first second).carryFlag = second.ule first := by
  rw [carryFlag, compare]
  simp only [BitVec.getLsbD_append]
  exact BitVec.getLsbD_ofBool _ 0

end Machine

/-! ## Words in a row -/

/-- The places of some words that are stored one behind the other. -/
def wordsFrom (start : Word) (count : Nat) : Set Word :=
  { address | Exists fun index => index < count ∧ address = start + BitVec.ofNat 32 (4 * index) }

variable {start address : Word} {values : List Word} {memory : Word -> Word}

theorem storeWords_outside (outside : address ∉ wordsFrom start values.length) :
    storeWords start values memory address = memory address :=
  storeWords_other fun index below same => outside ⟨index, below, same⟩

theorem word_add (first second : Nat) :
    start + BitVec.ofNat 32 (4 * first) + BitVec.ofNat 32 (4 * second) =
      start + BitVec.ofNat 32 (4 * (first + second)) := by
  rw [Nat.mul_add, BitVec.ofNat_add, BitVec.add_assoc]

/-- Different places are apart. -/
theorem word_ne {first second : Nat} (firstSmall : first < 2 ^ 30) (secondSmall : second < 2 ^ 30)
    (different : first ≠ second) :
    start + BitVec.ofNat 32 (4 * first) ≠ start + BitVec.ofNat 32 (4 * second) := by
  rw [ne_eq, BitVec.add_right_inj, ← BitVec.toNat_inj, BitVec.toNat_ofNat, BitVec.toNat_ofNat]
  omega

theorem mem_wordsFrom {index count : Nat} (below : index < count) :
    start + BitVec.ofNat 32 (4 * index) ∈ wordsFrom start count :=
  ⟨index, below, rfl⟩

/-- Each word is found in its own place. -/
theorem storeWords_at (short : values.length < 2 ^ 29) {index : Nat} {value : Word}
    (at_ : values[index]? = some value) :
    storeWords start values memory (start + BitVec.ofNat 32 (4 * index)) = value := by
  rcases List.getElem?_eq_some_iff.mp at_ with ⟨below, found⟩
  have parts : values = values.take index ++ value :: values.drop (index + 1) := by
    rw [← found, List.getElem_cons_drop, List.take_append_drop]
  have taken : (values.take index).length = index := by
    rw [List.length_take]
    exact Nat.min_eq_left (Nat.le_of_lt below)
  have rest : (values.drop (index + 1)).length < 2 ^ 29 := by
    rw [List.length_drop]
    omega
  conv_lhs => rw [parts]
  rw [storeWords_append, taken]
  exact storeWords_head rest

/-- Two rows of words, the second right below the first. -/
theorem storeWords_below (upper lower : List Word)
    (short : lower.length + upper.length < 2 ^ 29) :
    storeWords start lower
        (storeWords (start + BitVec.ofNat 32 (4 * lower.length)) upper memory) address =
      storeWords start (lower ++ upper) memory address := by
  by_cases inLower : address ∈ wordsFrom start lower.length
  · rcases inLower with ⟨index, below, rfl⟩
    have found : lower[index]? = some lower[index] := List.getElem?_eq_getElem below
    have foundToo : (lower ++ upper)[index]? = some lower[index] := by
      rw [List.getElem?_append_left below, found]
    rw [storeWords_at (by omega) found, storeWords_at (by rwa [List.length_append]) foundToo]
  · rw [storeWords_outside inLower, storeWords_append]
    by_cases inUpper : address ∈
        wordsFrom (start + BitVec.ofNat 32 (4 * lower.length)) upper.length
    · rcases inUpper with ⟨index, below, rfl⟩
      have found : upper[index]? = some upper[index] := List.getElem?_eq_getElem below
      rw [storeWords_at (by omega) found, storeWords_at (by omega) found]
    · rw [storeWords_outside inUpper, storeWords_outside inUpper, storeWords_outside inLower]

namespace Machine

variable {machine : Machine} {mode : Mode} {registers : List Register} {upper : List Word}

/-- A push that puts its words right below those that are there. -/
theorem execute_push_memory
    (below : machine.memory = storeWords machine.stackPointer upper memory)
    (short : registers.length + upper.length < 2 ^ 29) :
    (machine.execute (.push registers)).memory =
      storeWords (machine.stackPointer - BitVec.ofNat 32 (4 * registers.length))
        (registers.map machine.read ++ upper) memory := by
  funext address
  rw [← storeWords_below _ _ (by rwa [List.length_map]), List.length_map, BitVec.sub_add_cancel,
    ← below]
  rfl

theorem execute_srsdb_sp :
    (machine.execute (.srsdb mode)).sp =
      Function.update machine.sp mode.bank (machine.sp mode.bank - 8) :=
  rfl

theorem execute_srsdb_memory :
    (machine.execute (.srsdb mode)).memory =
      storeWords (machine.sp mode.bank - 8) [machine.link, machine.spsr machine.mode]
        machine.memory :=
  rfl

theorem execute_push_sp :
    (machine.execute (.push registers)).sp =
      Function.update machine.sp machine.mode.bank
        (machine.stackPointer - BitVec.ofNat 32 (4 * registers.length)) :=
  rfl

/-- What a pop leaves. -/
structure Popped (registers : List Register) (machine after : Machine) : Prop where
  popped : forall index register, registers[index]? = some register ->
    after.read register = machine.memory (machine.stackPointer + BitVec.ofNat 32 (4 * index))
  others : forall register, register ∉ registers -> register ≠ .sp ->
    after.read register = machine.read register
  stackPointer : after.stackPointer =
    machine.stackPointer + BitVec.ofNat 32 (4 * registers.length)
  memory : after.memory = machine.memory
  cpsr : after.cpsr = machine.cpsr
  otherSp : forall mode, mode ≠ machine.mode.bank -> after.sp mode = machine.sp mode
  otherLr : forall mode, mode ≠ machine.mode.bank -> after.lr mode = machine.lr mode

theorem execute_pop (machine : Machine) (distinct : registers.Nodup) (notSp : .sp ∉ registers) :
    Popped registers machine (machine.execute (.pop registers)) := by
  let moved := machine.write .sp
    (machine.stackPointer + BitVec.ofNat 32 (4 * registers.length))
  have executed : machine.execute (.pop registers) =
      moved.loadRegisters machine.stackPointer registers := rfl
  rcases @loadRegisters_keeps moved machine.stackPointer registers with ⟨memory, cpsr, _, _⟩
  rw [executed]
  exact
    { popped := fun index register found => by
        rw [loadRegisters_at distinct found]
        rfl
      others := fun register absent different => by
        rw [loadRegisters_other absent]
        exact read_write_of_ne different
      stackPointer := (loadRegisters_other notSp).trans read_write_self
      memory := memory
      cpsr := cpsr
      otherSp := fun mode different => by
        have apart : mode ≠ moved.mode.bank := different
        rw [(loadRegisters_banks apart).1]
        exact write_sp_of_ne different
      otherLr := fun mode different => by
        have apart : mode ≠ moved.mode.bank := different
        rw [(loadRegisters_banks apart).2]
        exact write_lr_of_ne different }

/-! ## Copying words -/

/-- The words from an address on. -/
def wordsAt (memory : Word -> Word) (start : Word) (count : Nat) : List Word :=
  (List.range count).map fun index => memory (start + BitVec.ofNat 32 (4 * index))

@[simp] theorem length_wordsAt (memory : Word -> Word) (start : Word) (count : Nat) :
    (wordsAt memory start count).length = count := by
  rw [wordsAt, List.length_map, List.length_range]

theorem wordsAt_congr {first second : Word -> Word} {start : Word} {count : Nat}
    (same : forall index, index < count ->
      first (start + BitVec.ofNat 32 (4 * index)) = second (start + BitVec.ofNat 32 (4 * index))) :
    wordsAt first start count = wordsAt second start count :=
  List.map_congr_left fun index inside => same index (List.mem_range.mp inside)

theorem wordsAt_add (first second : Nat) {memory : Word -> Word} {start : Word} :
    wordsAt memory start (first + second) =
      wordsAt memory start first ++
        wordsAt memory (start + BitVec.ofNat 32 (4 * first)) second := by
  rw [wordsAt, List.range_add, List.map_append, List.map_map]
  congr 1
  refine List.map_congr_left fun index _ => ?_
  rw [Function.comp_apply, word_add]

theorem wordsAt_storeWords {values : List Word} {memory : Word -> Word} {start : Word}
    (short : values.length < 2 ^ 29) :
    wordsAt (storeWords start values memory) start values.length = values := by
  apply List.ext_getElem
  · exact length_wordsAt _ _ _
  · intro index _ below
    simp only [wordsAt, List.getElem_map, List.getElem_range]
    exact storeWords_at short (List.getElem?_eq_getElem below)

/-- What a load of several registers leaves in them. -/
theorem map_read_loadRegisters {start : Word} (distinct : registers.Nodup) :
    registers.map (machine.loadRegisters start registers).read =
      wordsAt machine.memory start registers.length := by
  apply List.ext_getElem
  · rw [List.length_map, length_wordsAt]
  · intro index below _
    rw [List.length_map] at below
    rw [List.getElem_map, loadRegisters_at distinct (List.getElem?_eq_getElem below)]
    simp [wordsAt]

/-- Loading general registers leaves stack pointers and link registers alone. -/
theorem loadRegisters_general {start : Word} (notSp : .sp ∉ registers) (notLr : .lr ∉ registers) :
    (machine.loadRegisters start registers).sp = machine.sp ∧
      (machine.loadRegisters start registers).lr = machine.lr := by
  have mode : (machine.loadRegisters start registers).mode = machine.mode :=
    congrArg modeOf loadRegisters_keeps.2.1
  constructor
  · funext other
    by_cases same : other = machine.mode.bank
    · have kept : (machine.loadRegisters start registers).stackPointer = machine.stackPointer :=
        loadRegisters_other notSp
      rwa [stackPointer, stackPointer, mode, ← same] at kept
    · exact (loadRegisters_banks same).1
  · funext other
    by_cases same : other = machine.mode.bank
    · have kept : (machine.loadRegisters start registers).link = machine.link :=
        loadRegisters_other notLr
      rwa [link, link, mode, ← same] at kept
    · exact (loadRegisters_banks same).2

/-- Some words were copied, with both addresses moved behind them. -/
structure Copied (count : Nat) (source target : Fin 13) (machine after : Machine) : Prop where
  sourceAfter : after.r source = machine.r source + BitVec.ofNat 32 (4 * count)
  targetAfter : after.r target = machine.r target + BitVec.ofNat 32 (4 * count)
  memory : after.memory = storeWords (machine.r target)
    (wordsAt machine.memory (machine.r source) count) machine.memory
  sp : after.sp = machine.sp
  lr : after.lr = machine.lr
  cpsr : after.cpsr = machine.cpsr

/-- A load of several registers and a store of the same ones. -/
theorem execute_copy {source target : Fin 13} (distinct : registers.Nodup)
    (notSp : .sp ∉ registers) (notLr : .lr ∉ registers) (notSource : .r source ∉ registers)
    (notTarget : .r target ∉ registers) (apart : source ≠ target) :
    Copied registers.length source target machine
      (machine.executeAll [.ldm (.r source) registers, .stm (.r target) registers]) := by
  let moved := machine.write (.r source)
    (machine.r source + BitVec.ofNat 32 (4 * registers.length))
  let loaded := moved.loadRegisters (machine.r source) registers
  have loadedTarget : loaded.r target = machine.r target := by
    have kept : loaded.read (.r target) = moved.read (.r target) := loadRegisters_other notTarget
    exact kept.trans (write_r_of_ne (Ne.symm apart))
  have loadedSource : loaded.r source =
      machine.r source + BitVec.ofNat 32 (4 * registers.length) := by
    have kept : loaded.read (.r source) = moved.read (.r source) := loadRegisters_other notSource
    exact kept.trans write_r_self
  rcases @loadRegisters_keeps moved (machine.r source) registers with ⟨memory, cpsr, _, _⟩
  rcases @loadRegisters_general moved registers (machine.r source) notSp notLr with ⟨sp, lr⟩
  have words : registers.map loaded.read = wordsAt machine.memory (machine.r source)
      registers.length := map_read_loadRegisters distinct
  exact
    { sourceAfter := (write_r_of_ne apart).trans loadedSource
      targetAfter := by
        refine write_r_self.trans ?_
        change loaded.r target + _ = _
        rw [loadedTarget]
      memory := by
        change storeWords (loaded.r target) (registers.map loaded.read) loaded.memory = _
        rw [loadedTarget, words, memory]
        rfl
      sp := sp
      lr := lr
      cpsr := cpsr }

theorem withMode_withMode (cpsr : Word) (first second : Mode) :
    withMode (withMode cpsr first) second = withMode cpsr second := by
  rw [withMode, withMode, withMode, BitVec.extractLsb'_append_eq_left]

theorem withMode_modeOf (cpsr : Word) : withMode cpsr (modeOf cpsr) = cpsr := by
  rw [withMode, modeOf]
  apply BitVec.eq_of_getLsbD_eq
  intro index below
  rw [BitVec.getLsbD_append]
  by_cases low : index < 5
  · rw [if_pos low]
    simp [low]
  · have high : index - 5 < 27 := by omega
    rw [if_neg low, BitVec.getLsbD_extractLsb', decide_eq_true high, Bool.true_and,
      Nat.add_sub_cancel' (Nat.le_of_not_lt low)]

end Machine

end Aarch32Modes
end Library
end Pinyon
