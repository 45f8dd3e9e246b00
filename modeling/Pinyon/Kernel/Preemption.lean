import Pinyon.Kernel.InterruptWrap
import Pinyon.Library.History

namespace Pinyon
namespace Kernel

open Library Library.Aarch32Modes
open Library.Aarch32 (Word)

/-!
# Programs in user mode

A program in user mode is interrupted between any two of its instructions, and calls
the kernel.  What it computes is what it would compute if it were never interrupted
and if a system call were one instruction: this process is the specification here,
and the machine with the code of `irq_wrap` and `swi_wrap` refines it.
-/

/-- What a program in user mode sees of the machine. -/
structure Process (space : Set Word) where
  r : Fin 13 -> Word
  sp : Word
  lr : Word
  pc : Word
  cpsr : Word
  memory : space -> Word

variable {space : Set Word}

/-- The process that runs on a machine. -/
def process (space : Set Word) (machine : Machine) : Process space where
  r := machine.r
  sp := machine.sp Mode.user
  lr := machine.lr Mode.user
  pc := machine.pc
  cpsr := machine.cpsr
  memory := fun address => machine.memory address

/-- The instructions of a program.  None of them changes the mode or masks interrupts. -/
structure Program (space : Set Word) where
  step : Process space -> Process space -> Prop
  unprivileged : forall before after, step before after -> modeOf before.cpsr = Mode.user ->
    modeOf after.cpsr = Mode.user

/-- What system calls do, from the registers and the memory of the process to the answer
and the memory afterwards. -/
abbrev SystemCalls (space : Set Word) : Type :=
  (Fin 13 -> Word) -> (space -> Word) -> Word -> (space -> Word) -> Prop

/-- The registers with the answer of a system call, and zeros for its arguments. -/
def answered (r : Fin 13 -> Word) (answer : Word) : Fin 13 -> Word :=
  fun index => if index = 0 then answer else if index.val ≤ 3 then 0 else r index

inductive ProcessEvent where
  | run
  | call

/-- The process that nothing interrupts. -/
inductive ProcessStep (program : Program space) (serves : SystemCalls space) :
    Process space -> ProcessEvent -> Process space -> Prop
  | run {before after : Process space} :
      program.step before after -> ProcessStep program serves before .run after
  | call {before : Process space} {answer : Word} {memory : space -> Word} :
      serves before.r before.memory answer memory ->
        ProcessStep program serves before .call
          { before with r := answered before.r answer, pc := before.pc + 4, memory := memory }

/-! ## The machine -/

/-- Where the two wrappers were placed. -/
structure VectorPlaces where
  irq : WrapPlaces
  swi : WrapPlaces

/-- An instruction of the program changes nothing that belongs to another mode. -/
structure RunsInstruction (program : Program space) (before after : Machine) : Prop where
  step : program.step (process space before) (process space after)
  kernelSp : after.sp Mode.supervisor = before.sp Mode.supervisor

/-- `irq_handler` on behalf of somebody else than the interrupted process. -/
structure HandlesIrq (space : Set Word) (called returned : Machine) : Prop where
  obeys : ObeysConvention32 7 called returned
  memory : forall address, address ∈ space -> returned.memory address = called.memory address

/-- `software_interrupt_handler`, with all the interrupts that it takes itself. -/
structure HandlesCall (serves : SystemCalls space) (called returned : Machine) : Prop where
  obeys : ObeysConvention32 3 called returned
  serves : serves called.r (fun address => called.memory address) (returned.r 0)
    (fun address => returned.memory address)

inductive MachineEvent where
  | run
  | irq
  | swi

/-- What of it the process can tell. -/
def MachineEvent.visible : MachineEvent -> Option ProcessEvent
  | run => some .run
  | irq => none
  | swi => some .call

inductive MachineStep (places : VectorPlaces) (program : Program space)
    (serves : SystemCalls space) : Machine -> MachineEvent -> Machine -> Prop
  | run {before after : Machine} :
      RunsInstruction program before after -> MachineStep places program serves before .run after
  | irq {before returned : Machine} :
      irqMasked before.cpsr = false -> HandlesIrq space (irqCall places.irq before) returned ->
        MachineStep places program serves before .irq (irqReturn returned)
  | swi {before returned : Machine} :
      HandlesCall serves (swiCall places.swi before) returned ->
        MachineStep places program serves before .swi (swiReturn returned)

/-- A task in user mode, with its kernel stack where it cannot reach it. -/
structure Isolated32 (space : Set Word) (kernelSp : Word) (machine : Machine) : Prop where
  mode : machine.mode = Mode.user
  stack : machine.sp Mode.supervisor = kernelSp
  apart : Disjoint space (wordsFrom (kernelSp - 28) 7)

variable {places : VectorPlaces} {program : Program space} {serves : SystemCalls space}
variable {kernelSp : Word} {before after returned : Machine} {event : MachineEvent}

/-! ## One step -/

/-- The frame of a system call is the upper part of the place of an interrupt's. -/
theorem swiFrame_within (kernelSp : Word) :
    wordsFrom (kernelSp - 12) 3 ⊆ wordsFrom (kernelSp - 28) 7 := by
  intro address member
  rcases member with ⟨index, below, rfl⟩
  refine ⟨index + 4, by omega, ?_⟩
  rw [Nat.mul_add, BitVec.ofNat_add]
  bv_omega

/-- Putting a frame on the kernel stack changes no memory of the process. -/
theorem CalledWith.memory_of_process {frame : List Word} {called : Machine}
    (calledWith : CalledWith frame before called)
    (apart : Disjoint space (wordsFrom (called.sp Mode.supervisor) frame.length)) :
    (fun address : space => called.memory address) = fun address : space => before.memory address := by
  funext address
  rw [calledWith.memory]
  exact storeWords_outside (Set.disjoint_left.mp apart address.property)

theorem Isolated32.step (isolated : Isolated32 space kernelSp before)
    (stepped : MachineStep places program serves before event after) :
    Isolated32 space kernelSp after := by
  cases stepped with
  | run runs =>
      exact ⟨program.unprivileged _ _ runs.step isolated.mode,
        runs.kernelSp.trans isolated.stack, isolated.apart⟩
  | irq _ handles =>
      rcases interrupt_returns handles.obeys with ⟨_, _, cpsr, sp, _⟩
      refine ⟨?_, sp.trans isolated.stack, isolated.apart⟩
      rw [Machine.mode, cpsr]
      exact isolated.mode
  | swi handles =>
      rcases systemCall_returns handles.obeys with ⟨_, _, cpsr, sp, _⟩
      refine ⟨?_, sp.trans isolated.stack, isolated.apart⟩
      rw [Machine.mode, cpsr]
      exact isolated.mode

/-- The process does not notice an interrupt. -/
theorem Isolated32.irq_hidden (isolated : Isolated32 space kernelSp before)
    (handles : HandlesIrq space (irqCall places.irq before) returned) :
    process space (irqReturn returned) = process space before := by
  rcases interrupt_returns handles.obeys with
    ⟨general, pc, cpsr, _, userSp, userLr, _, memory⟩
  have calledWith := irqCall_calledWith places.irq before
  have apart : Disjoint space
      (wordsFrom ((irqCall places.irq before).sp Mode.supervisor) (irqFrame before).length) := by
    rw [calledWith.sp, isolated.stack]
    exact isolated.apart
  have unchanged := calledWith.memory_of_process apart
  have same : (fun address : space => (irqReturn returned).memory address) =
      fun address : space => before.memory address := by
    rw [← unchanged, memory]
    funext address
    exact handles.memory address address.property
  rw [process, process, general, pc, cpsr, userSp, userLr, same]

/-- The process sees a system call as one instruction. -/
theorem Isolated32.swi_seen (isolated : Isolated32 space kernelSp before)
    (handles : HandlesCall serves (swiCall places.swi before) returned) :
    ProcessStep program serves (process space before) .call (process space (swiReturn returned)) := by
  rcases systemCall_returns handles.obeys with
    ⟨general, pc, cpsr, _, userSp, userLr, memory⟩
  have calledWith := swiCall_calledWith places.swi before
  have apart : Disjoint space
      (wordsFrom ((swiCall places.swi before).sp Mode.supervisor) (swiFrame before).length) := by
    rw [calledWith.sp, isolated.stack]
    exact isolated.apart.mono_right (swiFrame_within kernelSp)
  have served := handles.serves
  rw [calledWith.memory_of_process apart, calledWith.general] at served
  have after : process space (swiReturn returned) =
      { process space before with
        r := answered before.r (returned.r 0)
        pc := before.pc + 4
        memory := fun address => returned.memory address } := by
    rw [process, process, general, pc, cpsr, userSp, userLr, memory]
    rfl
  rw [after]
  exact .call served

/-! ## Every run -/

/-- Whenever a program is interrupted, and however often, it goes through the states that
it goes through undisturbed. -/
theorem preempted_refines (places : VectorPlaces) (program : Program space)
    (serves : SystemCalls space) (kernelSp : Word) {start final : Machine}
    {events : List MachineEvent} (isolated : Isolated32 space kernelSp start)
    (reached : Reaches (MachineStep places program serves) start events final) :
    Reaches (ProcessStep program serves) (process space start)
      (events.filterMap MachineEvent.visible) (process space final) := by
  refine reached.refines (process space) MachineEvent.visible (Isolated32 space kernelSp) isolated
    (fun _ _ _ good stepped => good.step stepped) ?_ ?_
  · intro before event after seen good stepped isSeen
    cases stepped with
    | run runs =>
        cases isSeen
        exact .run runs.step
    | irq _ _ => cases isSeen
    | swi handles =>
        cases isSeen
        exact good.swi_seen handles
  · intro before event after good stepped isHidden
    cases stepped with
    | run _ => cases isHidden
    | irq _ handles => exact good.irq_hidden handles
    | swi _ => cases isHidden

/-- A task at its first instruction, with the smallest stack that an interrupt needs. -/
def counting : Machine where
  r := fun _ => 0
  sp := fun _ => 4096
  lr := fun _ => 0
  spsr := fun _ => 0
  cpsr := 0x10
  pc := 0x8000
  memory := fun _ => 0

/-- A program that counts in its first register. -/
def countingProgram : Program ({0x100} : Set Word) where
  step := fun before after =>
    after = { before with r := Function.update before.r 0 (before.r 0 + 1), pc := before.pc + 4 }
  unprivileged := fun before after stepped user => by
    rw [stepped]
    exact user

/-- The state after one instruction of the program. -/
def counted : Machine :=
  { counting with r := Function.update counting.r 0 1, pc := 0x8004 }

/-- The code of the vectors, one behind the other. -/
def countingPlaces : VectorPlaces where
  irq := { wrapper := 0x9000, handler := 0xa000, back := 0x9010 }
  swi := { wrapper := 0x9020, handler := 0xb000, back := 0x902c }

theorem preempted_refines_counting :
    Reaches (ProcessStep countingProgram fun _ memory _ after => after = memory)
      (process {0x100} counting) [.call, .run]
      (process {0x100} (swiReturn (swiCall countingPlaces.swi
        (irqReturn (irqCall countingPlaces.irq counted))))) := by
  have isolated : Isolated32 ({0x100} : Set Word) 4096 counting := by
    refine ⟨by decide, rfl, Set.disjoint_left.mpr ?_⟩
    rintro address rfl ⟨index, below, same⟩
    interval_cases index <;> exact absurd same (by decide)
  have counts : MachineStep countingPlaces countingProgram (fun _ memory _ after => after = memory)
      counting .run counted :=
    .run ⟨rfl, rfl⟩
  have interrupts := @MachineStep.irq _ countingPlaces countingProgram
    (fun _ memory _ after => after = memory) counted _ (by decide)
    ⟨obeys_at_once (irqCall_calledWith countingPlaces.irq counted) 7, fun _ _ => rfl⟩
  have calls := @MachineStep.swi _ countingPlaces countingProgram
    (fun _ memory _ after => after = memory) (irqReturn (irqCall countingPlaces.irq counted)) _
    ⟨obeys_at_once (swiCall_calledWith countingPlaces.swi _) 3, rfl⟩
  exact preempted_refines countingPlaces countingProgram (fun _ memory _ after => after = memory)
    4096 isolated (((Reaches.refl.tail counts).tail interrupts).tail calls)

end Kernel
end Pinyon
