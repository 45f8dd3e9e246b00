import Pinyon.Library.Aarch64

namespace Pinyon
namespace Kernel

open Library.Aarch64

/-!
# Exception entry and exit on AArch64

An exception is taken to one of four wrappers.  Each makes room for a frame on the
kernel stack, saves the registers there, calls a handler and restores what it
saved.  They differ in the handler, in the register that is to hold the frame, and
one of them does not save the link register.
-/

/-- `x0` to `x29`, two in each double slot of the frame. -/
def generalPairs : Pairs :=
  [(.x 0, .x 1, 16 * 0), (.x 2, .x 3, 16 * 1), (.x 4, .x 5, 16 * 2), (.x 6, .x 7, 16 * 3),
    (.x 8, .x 9, 16 * 4), (.x 10, .x 11, 16 * 5), (.x 12, .x 13, 16 * 6), (.x 14, .x 15, 16 * 7),
    (.x 16, .x 17, 16 * 8), (.x 18, .x 19, 16 * 9), (.x 20, .x 21, 16 * 10),
    (.x 22, .x 23, 16 * 11), (.x 24, .x 25, 16 * 12), (.x 26, .x 27, 16 * 13),
    (.x 28, .x 29, 16 * 14)]

def linkPair : Pairs :=
  [(lr, .zero, 16 * 15)]

/-- The size of a frame. -/
def frameSize : Word :=
  16 * 17

structure Wrapper where
  entry : List Instruction
  exit : List Instruction

/-- A wrapper that saves the link register or not, and moves the address of the
frame to a register or not. -/
def wrap (savesLink : Bool) (registers : Option (Fin 31)) : Wrapper where
  entry :=
    .subSp frameSize ::
      (savePairs .sp generalPairs ++
        (if savesLink then savePairs .sp linkPair else []) ++
        [.mrs (.x 19) .elrEl1, .mrs (.x 20) .spsrEl1, .stp (.x 19) (.x 20) .sp (16 * 16)] ++
        (registers.map fun index => Instruction.movFromSp (.x index)).toList)
  exit :=
    [.ldp (.x 19) (.x 20) .sp (16 * 16), .msr .elrEl1 (.x 19), .msr .spsrEl1 (.x 20)] ++
      restorePairs .sp generalPairs ++ restorePairs .sp linkPair ++ [.addSp frameSize]

def synchronousKernelWrap : Wrapper :=
  wrap true (some 0)

def irqKernelWrap : Wrapper :=
  wrap true none

def synchronousUserspaceWrap : Wrapper :=
  wrap true (some 4)

/-- There is no `stp lr, xzr, [sp, #(16 * 15)]`. -/
def irqUserspaceWrap : Wrapper :=
  wrap false (some 0)

inductive ExceptionEntry where
  | synchronousKernel
  | irqKernel
  | synchronousUserspace
  | irqUserspace
deriving DecidableEq, Repr

namespace ExceptionEntry

def wrapper : ExceptionEntry -> Wrapper
  | synchronousKernel => synchronousKernelWrap
  | irqKernel => irqKernelWrap
  | synchronousUserspace => synchronousUserspaceWrap
  | irqUserspace => irqUserspaceWrap

def savesLink : ExceptionEntry -> Bool
  | irqUserspace => false
  | _ => true

def registers : ExceptionEntry -> Option (Fin 31)
  | synchronousKernel | irqUserspace => some 0
  | synchronousUserspace => some 4
  | irqKernel => none

theorem wrapper_eq (exception : ExceptionEntry) :
    exception.wrapper = wrap exception.savesLink exception.registers := by
  cases exception <;> rfl

end ExceptionEntry

/-- The state in which the handler is called. -/
def Wrapper.call (wrapper : Wrapper) (returnAddress : Word) (before : Machine) : Machine :=
  (before.executeAll wrapper.entry).write lr returnAddress

/-- The state at `eret`. -/
def Wrapper.run (wrapper : Wrapper) (returnAddress : Word) (handler : Machine -> Machine)
    (before : Machine) : Machine :=
  (handler (wrapper.call returnAddress before)).executeAll wrapper.exit

/-- The offsets of the double words of a frame. -/
def frameOffsets : List Word :=
  (List.range 34).map fun index => BitVec.ofNat 64 (8 * index)

/-- What a handler keeps: the registers that the calling convention has the callee
save, the stack pointer, and the frame.  A system call answers in the first double
word of the frame. -/
structure ObeysConvention (exception : ExceptionEntry) (called returned : Machine) : Prop where
  saved : forall index : Fin 31, 19 ≤ index.val -> index.val ≤ 29 -> returned.x index = called.x index
  sp : returned.sp = called.sp
  frame : forall offset, offset ∈ frameOffsets ->
    (exception = .synchronousUserspace -> offset ≠ 0) ->
    returned.memory (called.sp + offset) = called.memory (called.sp + offset)

/-- The interrupted code finds what it left, the answer of a system call apart. -/
structure Transparent (exception : ExceptionEntry) (before after : Machine) : Prop where
  general : forall index : Fin 31, index.val ≤ 29 ->
    (exception = .synchronousUserspace -> index ≠ 0) -> after.x index = before.x index
  link : after.x 30 = before.x 30
  sp : after.sp = before.sp
  elr : after.elr = before.elr
  spsr : after.spsr = before.spsr

/-! ## The frame -/

theorem generalPairs_offsets : ((slots generalPairs).map Prod.snd).Nodup := by
  decide

theorem restored_registers : ((slots (generalPairs ++ linkPair)).map Prod.fst).Nodup := by
  decide

theorem general_slot (index : Fin 31) (general : index.val ≤ 29) :
    (.x index, BitVec.ofNat 64 (8 * index.val)) ∈ slots generalPairs := by
  revert index
  decide

theorem restored_slot (index : Fin 31) (general : index.val ≤ 29) :
    (.x index, BitVec.ofNat 64 (8 * index.val)) ∈ slots (generalPairs ++ linkPair) := by
  rw [slots, List.flatMap_append]
  exact List.mem_append_left _ (general_slot index general)

theorem general_offset (index : Fin 31) (general : index.val ≤ 29) :
    BitVec.ofNat 64 (8 * index.val) ∈ frameOffsets ∧
      (index ≠ 0 -> BitVec.ofNat 64 (8 * index.val) ≠ 0) := by
  revert index
  decide

theorem link_slot : (lr, 240) ∈ slots linkPair := by
  decide

variable {savesLink : Bool} {registers : Option (Fin 31)} {returnAddress : Word}

/-- The memory with the frame in it. -/
def frameMemory (savesLink : Bool) (before : Machine) : Word -> Word :=
  let start := before.sp - frameSize
  let general := storeSlots before.read start (slots generalPairs) before.memory
  let linked :=
    if savesLink then storeSlots before.read start (slots linkPair) general else general
  Function.update (Function.update linked (start + 16 * 16) before.elr) (start + 16 * 16 + 8)
    before.spsr

theorem wrap_call (before : Machine) :
    ((wrap savesLink registers).call returnAddress before).sp = before.sp - frameSize ∧
      ((wrap savesLink registers).call returnAddress before).memory =
        frameMemory savesLink before := by
  have saved (machine : Machine) : (machine.executeAll (savePairs .sp generalPairs ++
      (if savesLink then savePairs .sp linkPair else []))) =
      { machine with
        memory :=
          let general := storeSlots machine.read machine.sp (slots generalPairs) machine.memory
          if savesLink then storeSlots machine.read machine.sp (slots linkPair) general
          else general } := by
    rw [Machine.executeAll_append, Machine.execute_savePairs]
    cases savesLink with
    | false => rfl
    | true =>
        simp only [if_true]
        rw [Machine.execute_savePairs]
        rfl
  rw [Wrapper.call, wrap]
  simp only [Machine.executeAll]
  rw [Machine.executeAll_append, Machine.executeAll_append, saved]
  cases registers with
  | none => exact ⟨rfl, rfl⟩
  | some index => exact ⟨rfl, rfl⟩

theorem frame_apart (start first second : Word) (different : first ≠ second) :
    start + first ≠ start + second :=
  fun same => different ((BitVec.add_right_inj start).mp same)

theorem frameMemory_exception (before : Machine) :
    frameMemory savesLink before (before.sp - frameSize + 16 * 16) = before.elr ∧
      frameMemory savesLink before (before.sp - frameSize + 16 * 16 + 8) = before.spsr := by
  constructor
  · rw [frameMemory, Function.update_of_ne, Function.update_self]
    rw [BitVec.add_assoc]
    exact frame_apart _ _ _ (by decide)
  · exact Function.update_self _ _ _

/-- Below the saved exception registers the frame is as it was before these. -/
theorem frameMemory_below (before : Machine) (offset : Word) (first : offset ≠ 16 * 16)
    (second : offset ≠ 16 * 16 + 8) :
    frameMemory savesLink before (before.sp - frameSize + offset) =
      (if savesLink then
        storeSlots before.read (before.sp - frameSize) (slots linkPair)
          (storeSlots before.read (before.sp - frameSize) (slots generalPairs) before.memory)
      else storeSlots before.read (before.sp - frameSize) (slots generalPairs) before.memory)
        (before.sp - frameSize + offset) := by
  rw [frameMemory, Function.update_of_ne, Function.update_of_ne]
  · exact frame_apart _ _ _ first
  · rw [BitVec.add_assoc]
    exact frame_apart _ _ _ second

theorem frameMemory_general (before : Machine) (index : Fin 31) (general : index.val ≤ 29) :
    frameMemory savesLink before (before.sp - frameSize + BitVec.ofNat 64 (8 * index.val)) =
      before.x index := by
  have apart : BitVec.ofNat 64 (8 * index.val) ≠ 16 * 16 ∧
      BitVec.ofNat 64 (8 * index.val) ≠ 16 * 16 + 8 ∧
      forall slot, slot ∈ slots linkPair -> BitVec.ofNat 64 (8 * index.val) ≠ slot.2 := by
    revert index
    decide
  have stored : storeSlots before.read (before.sp - frameSize) (slots generalPairs) before.memory
      (before.sp - frameSize + BitVec.ofNat 64 (8 * index.val)) = before.x index :=
    storeSlots_at generalPairs_offsets (general_slot index general)
  rw [frameMemory_below before _ apart.1 apart.2.1]
  cases savesLink with
  | false => exact stored
  | true =>
      rw [if_pos rfl, storeSlots_other fun slot member => frame_apart _ _ _ (apart.2.2 slot member)]
      exact stored

/-- The double word that is taken for the link register. -/
theorem frameMemory_link (before : Machine) :
    frameMemory savesLink before (before.sp - frameSize + 240) =
      if savesLink then before.x 30 else before.memory (before.sp - 32) := by
  rw [frameMemory_below before 240 (by decide) (by decide)]
  cases savesLink with
  | false =>
      have place : before.sp - frameSize + 240 = before.sp - 32 := by
        rw [frameSize]
        bv_omega
      have apart : forall slot, slot ∈ slots generalPairs -> (240 : Word) ≠ slot.2 := by decide
      simp only [Bool.false_eq_true, if_false]
      rw [storeSlots_other fun slot member => frame_apart _ _ _ (apart slot member), place]
  | true =>
      rw [if_pos rfl, if_pos rfl]
      exact storeSlots_at (by decide) link_slot

/-! ## The way out -/

/-- What the exit of a wrapper loads. -/
theorem wrap_exit (returned : Machine) :
    (forall (index : Fin 31) (offset : Word),
        (.x index, offset) ∈ slots (generalPairs ++ linkPair) ->
        (returned.executeAll (wrap savesLink registers).exit).x index =
          returned.memory (returned.sp + offset)) ∧
      (returned.executeAll (wrap savesLink registers).exit).sp = returned.sp + frameSize ∧
      (returned.executeAll (wrap savesLink registers).exit).elr =
        returned.memory (returned.sp + 16 * 16) ∧
      (returned.executeAll (wrap savesLink registers).exit).spsr =
        returned.memory (returned.sp + 16 * 16 + 8) := by
  have restored (machine : Machine) :
      machine.executeAll (restorePairs .sp generalPairs ++ restorePairs .sp linkPair) =
      { machine with
        x := loadSlots machine.memory machine.sp (slots (generalPairs ++ linkPair)) machine.x } := by
    have joined : restorePairs .sp generalPairs ++ restorePairs .sp linkPair =
        restorePairs .sp (generalPairs ++ linkPair) := rfl
    rw [joined, Machine.execute_restorePairs _ _ _ fun index same => by cases same]
    rfl
  rw [wrap]
  simp only [List.append_assoc]
  rw [← List.append_assoc (restorePairs .sp generalPairs), Machine.executeAll_append,
    Machine.executeAll_append, restored]
  refine ⟨fun index offset member => ?_, rfl, rfl, rfl⟩
  exact loadSlots_at restored_registers member

/-! ## Transparency -/

/-- What a handler returns with, where the frame was not its own. -/
theorem frame_kept {exception : ExceptionEntry} {before returned : Machine}
    (obeys : ObeysConvention exception
      ((wrap savesLink registers).call returnAddress before) returned) (offset : Word)
    (member : offset ∈ frameOffsets) (other : exception = .synchronousUserspace -> offset ≠ 0) :
    returned.memory (returned.sp + offset) =
      frameMemory savesLink before (before.sp - frameSize + offset) := by
  rcases @wrap_call savesLink registers returnAddress before with ⟨sp, memory⟩
  rw [obeys.sp, obeys.frame offset member other, sp, memory]

/-- The interrupted code finds everything as it left it, except that after an
interrupt in user mode the link register is what lay in its place on the stack. -/
theorem exception_transparent_iff (exception : ExceptionEntry) (returnAddress : Word)
    (handler : Machine -> Machine) (before : Machine)
    (obeys : forall called, ObeysConvention exception called (handler called)) :
    Transparent exception before (exception.wrapper.run returnAddress handler before) <->
      exception ≠ .irqUserspace ∨ before.memory (before.sp - 32) = before.x 30 := by
  rw [exception.wrapper_eq, Wrapper.run]
  have keeps := obeys ((wrap exception.savesLink exception.registers).call returnAddress before)
  rcases @wrap_exit exception.savesLink exception.registers
    (handler ((wrap exception.savesLink exception.registers).call returnAddress before)) with
    ⟨loaded, sp, elr, spsr⟩
  have link : ((handler ((wrap exception.savesLink exception.registers).call returnAddress
      before)).executeAll (wrap exception.savesLink exception.registers).exit).x 30 =
      if exception.savesLink then before.x 30 else before.memory (before.sp - 32) := by
    rw [loaded 30 240 (by decide), frame_kept keeps 240 (by decide) fun _ => by decide]
    exact frameMemory_link before
  constructor
  · intro transparent
    have same := link.symm.trans transparent.link
    cases exception with
    | irqUserspace => exact .inr same
    | synchronousKernel | irqKernel | synchronousUserspace => exact .inl (by decide)
  · intro condition
    have exceptionSlots := @frameMemory_exception exception.savesLink before
    refine ⟨fun index general other => ?_, link.trans ?_, ?_, ?_, ?_⟩
    · have member := general_offset index general
      rw [loaded index _ (restored_slot index general),
        frame_kept keeps _ member.1 fun syscall => member.2 (other syscall)]
      exact frameMemory_general before index general
    · cases exception with
      | irqUserspace => exact condition.resolve_left fun different => different rfl
      | synchronousKernel | irqKernel | synchronousUserspace => rfl
    · rw [sp, keeps.sp, (wrap_call before).1]
      exact BitVec.sub_add_cancel _ _
    · rw [elr, frame_kept keeps (16 * 16) (by decide) fun _ => by decide]
      exact exceptionSlots.1
    · rw [spsr, BitVec.add_assoc, frame_kept keeps (16 * 16 + 8) (by decide) fun _ => by decide,
        ← BitVec.add_assoc]
      exact exceptionSlots.2

/-- A machine whose registers and memory hold their own numbers and addresses. -/
def interrupted : Machine where
  x := fun index => BitVec.ofNat 64 index.val
  sp := 4096
  spEl0 := 0
  elr := 100
  spsr := 200
  el := 1
  daif := 0
  nzcv := { negative := false, zero := false, carry := false, overflow := false }
  spSel := true
  pc := 0
  memory := fun address => address

/-- A handler that uses the registers that its caller saves and the stack below the frame, and
leaves another return address behind.  It answers with 7. -/
def answering (called : Machine) : Machine :=
  { called with
    x := fun index => if 19 ≤ index.val ∧ index.val ≤ 29 then called.x index else 77
    elr := 0
    spsr := 0
    memory := fun address =>
      if address = called.sp ∨ address = called.sp - 8 then 7 else called.memory address }

theorem answering_obeys (called : Machine) :
    ObeysConvention .synchronousUserspace called (answering called) := by
  refine ⟨fun index low high => if_pos ⟨low, high⟩, rfl, fun offset member other => ?_⟩
  have above : offset ≠ -8 := by
    intro below
    subst below
    exact absurd member (by decide)
  have apart : ¬ (called.sp + offset = called.sp ∨ called.sp + offset = called.sp - 8) := by
    rintro (same | same)
    · apply other rfl
      bv_omega
    · apply above
      bv_omega
  exact if_neg apart

theorem exception_transparent_iff_interrupted :
    Transparent .synchronousUserspace interrupted
        (synchronousUserspaceWrap.run 0 answering interrupted) <->
      ExceptionEntry.synchronousUserspace ≠ .irqUserspace ∨
        interrupted.memory (interrupted.sp - 32) = interrupted.x 30 :=
  exception_transparent_iff .synchronousUserspace 0 answering interrupted answering_obeys

/-- The link register is lost to a stale double word. -/
theorem link_not_restored : (forall called, ObeysConvention .irqUserspace called (id called)) ∧
    ¬ Transparent .irqUserspace interrupted (irqUserspaceWrap.run 0 id interrupted) := by
  refine ⟨fun _ => ⟨fun _ _ _ => rfl, rfl, fun _ _ _ => rfl⟩, fun transparent => ?_⟩
  have stale : (irqUserspaceWrap.run 0 id interrupted).x 30 = 4064 := by
    decide
  exact absurd (stale.symm.trans transparent.link) (by decide)

end Kernel
end Pinyon
