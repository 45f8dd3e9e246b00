import Mathlib

namespace Pinyon
namespace Library
namespace Aarch64

/-!
# Saving and restoring registers on AArch64

The part of the instruction set that exception entries and context switches are
made of, in AArch64 state at EL1 with its own stack pointer.  Memory is read and
written in double words.  A program is a set of labelled blocks, and what a link
or an exception link register holds is the address of a block or leads out of the
program.
-/

abbrev Word : Type := BitVec 64

/-- There are general registers, so that their numbers can be written down. -/
instance generalRegisters_neZero : NeZero 31 :=
  ⟨by decide⟩

inductive Register where
  | x (index : Fin 31)
  /-- `xzr`, which reads as zero and is not changed by a write. -/
  | zero
deriving DecidableEq, Repr

/-- `lr` is `x30`. -/
def lr : Register :=
  .x 30

/-- The condition flags. -/
structure Flags where
  negative : Bool
  zero : Bool
  carry : Bool
  overflow : Bool
deriving DecidableEq, Repr

namespace Flags

/-- Where they stand in a saved program state. -/
def toWord (flags : Flags) : Word :=
  (BitVec.ofBool flags.negative ++ BitVec.ofBool flags.zero ++ BitVec.ofBool flags.carry ++
    BitVec.ofBool flags.overflow).setWidth 64 <<< 28

def ofWord (value : Word) : Flags where
  negative := value.getLsbD 31
  zero := value.getLsbD 30
  carry := value.getLsbD 29
  overflow := value.getLsbD 28

end Flags

/-- The part of the state of the processor that is of interest here. -/
structure Machine where
  x : Fin 31 -> Word
  sp : Word
  spEl0 : Word
  elr : Word
  spsr : Word
  el : BitVec 2
  daif : BitVec 4
  nzcv : Flags
  /-- Whether `sp` stands for the stack pointer of the exception level. -/
  spSel : Bool
  pc : Word
  memory : Word -> Word

inductive SystemRegister where
  | spEl0
  | elrEl1
  | spsrEl1
  | currentEl
  | daif
  | nzcv

/-- What an address is counted from. -/
inductive Base where
  | sp
  | x (index : Fin 31)

inductive Instruction where
  | stp (first second : Register) (base : Base) (offset : Word)
  | ldp (first second : Register) (base : Base) (offset : Word)
  | str (source : Register) (base : Base) (offset : Word)
  | ldr (dest : Register) (base : Base) (offset : Word)
  | addSp (amount : Word)
  | subSp (amount : Word)
  | movFromSp (dest : Register)
  | movToSp (source : Register)
  | mov (dest : Register) (value : Word)
  | add (dest source : Register) (value : Word)
  | orr (dest first second : Register)
  | cmp (source : Register) (value : Word)
  | mrs (dest : Register) (source : SystemRegister)
  | msr (dest : SystemRegister) (source : Register)

namespace Machine

def read (machine : Machine) : Register -> Word
  | .x index => machine.x index
  | .zero => 0

def write (machine : Machine) (register : Register) (value : Word) : Machine :=
  match register with
  | .x index => { machine with x := Function.update machine.x index value }
  | .zero => machine

def address (machine : Machine) : Base -> Word
  | .sp => machine.sp
  | .x index => machine.x index

def store (machine : Machine) (address value : Word) : Machine :=
  { machine with memory := Function.update machine.memory address value }

/-- `mrs`. -/
def readSystem (machine : Machine) : SystemRegister -> Word
  | .spEl0 => machine.spEl0
  | .elrEl1 => machine.elr
  | .spsrEl1 => machine.spsr
  | .currentEl => machine.el.setWidth 64 <<< 2
  | .daif => machine.daif.setWidth 64 <<< 6
  | .nzcv => machine.nzcv.toWord

/-- `msr`.  The exception level cannot be written. -/
def writeSystem (machine : Machine) (register : SystemRegister) (value : Word) : Machine :=
  match register with
  | .spEl0 => { machine with spEl0 := value }
  | .elrEl1 => { machine with elr := value }
  | .spsrEl1 => { machine with spsr := value }
  | .currentEl => machine
  | .daif => { machine with daif := value.extractLsb' 6 4 }
  | .nzcv => { machine with nzcv := .ofWord value }

/-- The flags of a subtraction. -/
def compare (machine : Machine) (first second : Word) : Machine :=
  let result := first - second
  { machine with
    nzcv :=
      { negative := result.msb
        zero := first == second
        carry := second.ule first
        overflow := (first.msb != second.msb) && (first.msb != result.msb) } }

def execute (machine : Machine) : Instruction -> Machine
  | .stp first second base offset =>
      let address := machine.address base + offset
      (machine.store address (machine.read first)).store (address + 8) (machine.read second)
  | .ldp first second base offset =>
      let address := machine.address base + offset
      (machine.write first (machine.memory address)).write second (machine.memory (address + 8))
  | .str source base offset => machine.store (machine.address base + offset) (machine.read source)
  | .ldr dest base offset => machine.write dest (machine.memory (machine.address base + offset))
  | .addSp amount => { machine with sp := machine.sp + amount }
  | .subSp amount => { machine with sp := machine.sp - amount }
  | .movFromSp dest => machine.write dest machine.sp
  | .movToSp source => { machine with sp := machine.read source }
  | .mov dest value => machine.write dest value
  | .add dest source value => machine.write dest (machine.read source + value)
  | .orr dest first second => machine.write dest (machine.read first ||| machine.read second)
  | .cmp source value => machine.compare (machine.read source) value
  | .mrs dest source => machine.write dest (machine.readSystem source)
  | .msr dest source => machine.writeSystem dest (machine.read source)

def executeAll (machine : Machine) : List Instruction -> Machine
  | [] => machine
  | instruction :: rest => (machine.execute instruction).executeAll rest

theorem executeAll_append (machine : Machine) (first second : List Instruction) :
    machine.executeAll (first ++ second) = (machine.executeAll first).executeAll second := by
  induction first generalizing machine with
  | nil => rfl
  | cons instruction rest inductionHypothesis => exact inductionHypothesis _

end Machine

/-! ## Blocks of registers in memory -/

/-- Registers and the offsets they are kept at. -/
abbrev Pairs : Type := List (Register × Register × Word)

/-- Each register of the pairs with its own offset. -/
def slots (pairs : Pairs) : List (Register × Word) :=
  pairs.flatMap fun pair => [(pair.1, pair.2.2), (pair.2.1, pair.2.2 + 8)]

def savePairs (base : Base) (pairs : Pairs) : List Instruction :=
  pairs.map fun pair => .stp pair.1 pair.2.1 base pair.2.2

def restorePairs (base : Base) (pairs : Pairs) : List Instruction :=
  pairs.map fun pair => .ldp pair.1 pair.2.1 base pair.2.2

/-- The memory after the values of some keys were stored, each at its own offset. -/
def storeSlots {Key : Type} (values : Key -> Word) (start : Word) :
    List (Key × Word) -> (Word -> Word) -> Word -> Word
  | [], memory => memory
  | slot :: rest, memory =>
      storeSlots values start rest (Function.update memory (start + slot.2) (values slot.1))

/-- The general registers after they were loaded. -/
def loadSlots (memory : Word -> Word) (start : Word) :
    List (Register × Word) -> (Fin 31 -> Word) -> Fin 31 -> Word
  | [], x => x
  | (.x index, offset) :: rest, x =>
      loadSlots memory start rest (Function.update x index (memory (start + offset)))
  | (.zero, _) :: rest, x => loadSlots memory start rest x

section Slots

variable {Key : Type} {values : Key -> Word} {start address offset : Word} {memory : Word -> Word}
variable {key : Key} {index : Fin 31} {x : Fin 31 -> Word}

theorem storeSlots_append (first second : List (Key × Word)) :
    storeSlots values start (first ++ second) memory =
      storeSlots values start second (storeSlots values start first memory) := by
  induction first generalizing memory with
  | nil => rfl
  | cons slot rest inductionHypothesis => exact inductionHypothesis

/-- The values may be looked up first. -/
theorem storeSlots_map (stored : List (Key × Word)) :
    storeSlots values start stored memory =
      storeSlots id start (stored.map (Prod.map values id)) memory := by
  induction stored generalizing memory with
  | nil => rfl
  | cons slot rest inductionHypothesis => exact inductionHypothesis

section Stored

variable {stored : List (Key × Word)}

theorem storeSlots_other (apart : forall slot, slot ∈ stored -> address ≠ start + slot.2) :
    storeSlots values start stored memory address = memory address := by
  induction stored generalizing memory with
  | nil => rfl
  | cons slot rest inductionHypothesis =>
      rw [storeSlots, inductionHypothesis fun other member =>
        apart other (List.mem_cons_of_mem slot member)]
      exact Function.update_of_ne (apart slot List.mem_cons_self) _ _

/-- Each value is found at its own offset. -/
theorem storeSlots_at (distinct : (stored.map Prod.snd).Nodup)
    (member : (key, offset) ∈ stored) :
    storeSlots values start stored memory (start + offset) = values key := by
  induction stored generalizing memory with
  | nil => cases member
  | cons slot rest inductionHypothesis =>
      rw [List.map_cons, List.nodup_cons] at distinct
      rcases List.mem_cons.mp member with rfl | later
      · rw [storeSlots, storeSlots_other]
        · exact Function.update_self _ _ _
        · intro other among same
          refine distinct.1 (List.mem_map.mpr ⟨other, among, ?_⟩)
          exact (BitVec.add_right_inj start).mp same.symm
      · exact inductionHypothesis distinct.2 later

end Stored

variable {stored : List (Register × Word)}

theorem loadSlots_append (first second : List (Register × Word)) :
    loadSlots memory start (first ++ second) x =
      loadSlots memory start second (loadSlots memory start first x) := by
  induction first generalizing x with
  | nil => rfl
  | cons slot rest inductionHypothesis =>
      rcases slot with ⟨register, offset⟩
      cases register with
      | x index => exact inductionHypothesis
      | zero => exact inductionHypothesis

theorem loadSlots_other (absent : (.x index) ∉ stored.map Prod.fst) :
    loadSlots memory start stored x index = x index := by
  induction stored generalizing x with
  | nil => rfl
  | cons slot rest inductionHypothesis =>
      rw [List.map_cons, List.mem_cons, not_or] at absent
      rcases slot with ⟨register, offset⟩
      cases register with
      | x other =>
          rw [loadSlots, inductionHypothesis absent.2]
          exact Function.update_of_ne (fun same => absent.1 (congrArg Register.x same)) _ _
      | zero => exact inductionHypothesis absent.2

/-- Each register gets what is found at its own offset. -/
theorem loadSlots_at (distinct : (stored.map Prod.fst).Nodup)
    (member : (.x index, offset) ∈ stored) :
    loadSlots memory start stored x index = memory (start + offset) := by
  induction stored generalizing x with
  | nil => cases member
  | cons slot rest inductionHypothesis =>
      rw [List.map_cons, List.nodup_cons] at distinct
      rcases List.mem_cons.mp member with rfl | later
      · rw [loadSlots, loadSlots_other distinct.1]
        exact Function.update_self _ _ _
      · rcases slot with ⟨register, other⟩
        cases register with
        | x _ => exact inductionHypothesis distinct.2 later
        | zero => exact inductionHypothesis distinct.2 later

end Slots

namespace Machine

theorem execute_savePairs (machine : Machine) (base : Base) (pairs : Pairs) :
    machine.executeAll (savePairs base pairs) =
      { machine with
        memory := storeSlots machine.read (machine.address base) (slots pairs) machine.memory } := by
  induction pairs generalizing machine with
  | nil => rfl
  | cons pair rest inductionHypothesis =>
      rw [savePairs, List.map_cons, executeAll]
      refine (inductionHypothesis _).trans ?_
      cases base <;> simp only [execute, store, address, slots, List.flatMap_cons, List.cons_append,
        List.nil_append, storeSlots, BitVec.add_assoc] <;> rfl

theorem execute_ldp (machine : Machine) (first second : Register) (base : Base) (offset : Word) :
    machine.execute (.ldp first second base offset) =
      { machine with
        x := loadSlots machine.memory (machine.address base) [(first, offset), (second, offset + 8)]
          machine.x } := by
  rw [execute]
  cases first <;> cases second <;> simp only [write, loadSlots, BitVec.add_assoc]

/-- The base must not be loaded over. -/
theorem execute_restorePairs (machine : Machine) (base : Base) (pairs : Pairs)
    (kept : forall index, base = .x index -> (.x index) ∉ (slots pairs).map Prod.fst) :
    machine.executeAll (restorePairs base pairs) =
      { machine with
        x := loadSlots machine.memory (machine.address base) (slots pairs) machine.x } := by
  induction pairs generalizing machine with
  | nil => rfl
  | cons pair rest inductionHypothesis =>
      have parts : slots (pair :: rest) =
          [(pair.1, pair.2.2), (pair.2.1, pair.2.2 + 8)] ++ slots rest := rfl
      rw [parts] at kept
      have first : forall index, base = .x index ->
          (.x index) ∉ [(pair.1, pair.2.2), (pair.2.1, pair.2.2 + 8)].map Prod.fst :=
        fun index same member => kept index same (by
          rw [List.map_append]
          exact List.mem_append_left _ member)
      have others : forall index, base = .x index -> (.x index) ∉ (slots rest).map Prod.fst :=
        fun index same member => kept index same (by
          rw [List.map_append]
          exact List.mem_append_right _ member)
      have moved : (machine.execute (.ldp pair.1 pair.2.1 base pair.2.2)).address base =
          machine.address base := by
        rw [execute_ldp]
        cases base with
        | sp => rfl
        | x index => exact loadSlots_other (first index rfl)
      rw [restorePairs, List.map_cons, executeAll]
      refine (inductionHypothesis _ others).trans ?_
      rw [moved, execute_ldp, parts, loadSlots_append]

end Machine

end Aarch64
end Library
end Pinyon
