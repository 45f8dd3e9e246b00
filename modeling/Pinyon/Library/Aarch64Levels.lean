import Pinyon.Library.Aarch64
import Pinyon.Library.Cores

namespace Pinyon
namespace Library
namespace Aarch64Levels

open Aarch64 (Word)

/-!
# Exception levels on AArch64

What a processor goes through before a kernel runs on it.  It starts at one of three
exception levels and goes down by exception returns.  A system register belongs to a
level, and what is below may not touch it; an exception return must lead to a level
and a register width that the level above has allowed.  Whatever the architecture does
not define is trapped.
-/

/-- An exception level. -/
abbrev Level : Type := BitVec 2

/-- The part of the state of a core that counts before the kernel runs. -/
structure Machine where
  x : Fin 31 -> Word
  spEl1 : Word
  elr : Level -> Word
  spsr : Level -> Word
  el : Level
  daif : BitVec 4
  zero : Bool
  /-- Whether `sp` stands for the stack pointer of the exception level. -/
  spSel : Bool
  mpidr : Word
  scr : Word
  hcr : Word
  vbar : Word
  trapped : Bool
  pc : Word
  memory : Word -> Word

inductive SystemRegister where
  | mpidrEl1
  | currentEl
  | vbarEl1
  | spEl1
  | hcrEl2
  | scrEl3
  | elr (level : Level)
  | spsr (level : Level)

/-- The lowest level that may use a register. -/
def SystemRegister.level : SystemRegister -> Level
  | mpidrEl1 => 1
  | currentEl => 1
  | vbarEl1 => 1
  | spEl1 => 2
  | hcrEl2 => 2
  | scrEl3 => 3
  | elr level => level
  | spsr level => level

inductive Instruction where
  /-- `mov`, `adr` and a load from the literal pool. -/
  | mov (dest : Fin 31) (value : Word)
  | and (dest : Fin 31) (value : Word)
  | orr (dest : Fin 31) (value : Word)
  | lsr (dest : Fin 31) (amount : Nat)
  | cmp (source : Fin 31) (value : Word)
  | subs (dest first second : Fin 31)
  /-- `str xzr, [base], #amount`. -/
  | strZeroPost (base : Fin 31) (amount : Word)
  | mrs (dest : Fin 31) (source : SystemRegister)
  | msr (dest : SystemRegister) (source : Fin 31)
  | wfe

namespace Machine

@[simp] def write (machine : Machine) (dest : Fin 31) (value : Word) : Machine :=
  { machine with x := Function.update machine.x dest value }

@[simp] def readSystem (machine : Machine) : SystemRegister -> Word
  | .mpidrEl1 => machine.mpidr
  | .currentEl => machine.el.setWidth 64 <<< 2
  | .vbarEl1 => machine.vbar
  | .spEl1 => machine.spEl1
  | .hcrEl2 => machine.hcr
  | .scrEl3 => machine.scr
  | .elr level => machine.elr level
  | .spsr level => machine.spsr level

@[simp] def writeSystem (machine : Machine) (register : SystemRegister) (value : Word) : Machine :=
  match register with
  | .mpidrEl1 => { machine with trapped := true }
  | .currentEl => { machine with trapped := true }
  | .vbarEl1 => { machine with vbar := value }
  | .spEl1 => { machine with spEl1 := value }
  | .hcrEl2 => { machine with hcr := value }
  | .scrEl3 => { machine with scr := value }
  | .elr level => { machine with elr := Function.update machine.elr level value }
  | .spsr level => { machine with spsr := Function.update machine.spsr level value }

/-- Whether a register may be used at the present level. -/
def mayUse (machine : Machine) (register : SystemRegister) : Bool :=
  register.level.ule machine.el

@[simp] def execute (machine : Machine) : Instruction -> Machine
  | .mov dest value => machine.write dest value
  | .and dest value => machine.write dest (machine.x dest &&& value)
  | .orr dest value => machine.write dest (machine.x dest ||| value)
  | .lsr dest amount => machine.write dest (machine.x dest >>> amount)
  | .cmp source value => { machine with zero := machine.x source == value }
  | .subs dest first second =>
      { machine.write dest (machine.x first - machine.x second) with
        zero := machine.x first == machine.x second }
  | .strZeroPost base amount =>
      { machine.write base (machine.x base + amount) with
        memory := Function.update machine.memory (machine.x base) 0 }
  | .mrs dest source =>
      if machine.mayUse source then machine.write dest (machine.readSystem source)
      else { machine with trapped := true }
  | .msr dest source =>
      if machine.mayUse dest then machine.writeSystem dest (machine.x source)
      else { machine with trapped := true }
  | .wfe => machine

@[simp] def executeAll (machine : Machine) : List Instruction -> Machine
  | [] => machine
  | instruction :: rest => (machine.execute instruction).executeAll rest

/-- Whether an exception return with a saved program state leads to AArch64 state at a
level that may be entered.  `scr_el3` has to say that the levels below are not secure,
for there is no other EL2, and that EL2 is in AArch64 state; `hcr_el2` says so of EL1, and
must not have EL2 stand in for it. -/
def mayReturn (machine : Machine) (state : Word) : Bool :=
  let target := state.extractLsb' 2 2
  !state.getLsbD 4 && target.ule machine.el &&
    (!(machine.el == 3 && target == 2) || (machine.scr.getLsbD 0 && machine.scr.getLsbD 10)) &&
    (!(machine.el == 2 && target == 1) || (machine.hcr.getLsbD 31 && !machine.hcr.getLsbD 27))

/-- `eret`. -/
def exceptionReturn (machine : Machine) : Machine :=
  let state := machine.spsr machine.el
  if machine.mayReturn state then
    { machine with
      el := state.extractLsb' 2 2
      spSel := state.getLsbD 0
      daif := state.extractLsb' 6 4
      zero := state.getLsbD 30
      pc := machine.elr machine.el }
  else { machine with trapped := true }

end Machine

/-- How a block is left. -/
inductive Exit (Label : Type) where
  | goto (label : Label)
  | branchNe (taken otherwise : Label)
  | cbz (source : Fin 31) (taken otherwise : Label)
  | cbnz (source : Fin 31) (taken otherwise : Label)
  | br (source : Fin 31)
  | blr (source : Fin 31) (back : Label)
  | ret
  | eret

structure Block (Label : Type) where
  body : List Instruction
  exit : Exit Label

namespace Machine

variable {Label : Type}

@[simp] def leave (addressOf : Label -> Word) (machine : Machine) : Exit Label -> Machine
  | .goto label => { machine with pc := addressOf label }
  | .branchNe taken otherwise =>
      { machine with pc := addressOf (if machine.zero then otherwise else taken) }
  | .cbz source taken otherwise =>
      { machine with pc := addressOf (if machine.x source = 0 then taken else otherwise) }
  | .cbnz source taken otherwise =>
      { machine with pc := addressOf (if machine.x source = 0 then otherwise else taken) }
  | .br source => { machine with pc := machine.x source }
  | .blr source back => { machine.write 30 (addressOf back) with pc := machine.x source }
  | .ret => { machine with pc := machine.x 30 }
  | .eret => machine.exceptionReturn

@[simp] def runBlock (addressOf : Label -> Word) (machine : Machine) (block : Block Label) : Machine :=
  (machine.executeAll block.body).leave addressOf block.exit

end Machine

/-- The memory, which all cores share. -/
def sharedMemory : SharedMemory Machine (Word -> Word) where
  memory := Machine.memory
  withMemory := fun machine contents => { machine with memory := contents }
  withMemory_memory := fun _ => rfl
  memory_withMemory := fun _ _ => rfl

end Aarch64Levels
end Library
end Pinyon
