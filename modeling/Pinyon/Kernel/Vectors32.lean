import Pinyon.Kernel.InterruptWrap
import Pinyon.Library.History

namespace Pinyon
namespace Kernel

open Library.Aarch32 (Word Register storeWords storeWords_append)
open Library.Aarch32Modes
open Library (Reaches)

/-!
# The exception vectors on ARMv7

`setup_vtable` copies the vector table from where it was linked to address 0, and
`setup_stacks` gives the modes that exceptions are taken to a stack each.  A vector
loads the program counter from a word further down in the table, at a distance that
is the same in the copy.
-/

/-- The exceptions, in the order of their vectors. -/
inductive Exception32 where
  | reset
  | undefinedInstruction
  | swi
  | prefetchAbort
  | dataAbort
  | hypervisorTrap
  | irq
  | fiq
deriving DecidableEq

namespace Exception32

def index : Exception32 -> Nat
  | .reset => 0
  | .undefinedInstruction => 1
  | .swi => 2
  | .prefetchAbort => 3
  | .dataAbort => 4
  | .hypervisorTrap => 5
  | .irq => 6
  | .fiq => 7

def vector (exception : Exception32) : Word :=
  BitVec.ofNat 32 (4 * exception.index)

/-- Where the table has the address of the handler.  A hypervisor trap is not used, and
its vector leads on to that of interrupts. -/
def offsetIndex : Exception32 -> Nat
  | .reset => 8
  | .undefinedInstruction => 9
  | .swi => 10
  | .prefetchAbort => 11
  | .dataAbort => 12
  | .hypervisorTrap => 13
  | .irq => 13
  | .fiq => 14

end Exception32

structure VectorHandlers where
  halt : Word
  undefinedInstructionWrap : Word
  swiWrap : Word
  prefetchAbortHandler : Word
  dataAbortWrap : Word
  irqWrap : Word
  fastIrqHandler : Word

def VectorHandlers.handler (handlers : VectorHandlers) : Exception32 -> Word
  | .reset => handlers.halt
  | .undefinedInstruction => handlers.undefinedInstructionWrap
  | .swi => handlers.swiWrap
  | .prefetchAbort => handlers.prefetchAbortHandler
  | .dataAbort => handlers.dataAbortWrap
  | .hypervisorTrap => handlers.irqWrap
  | .irq => handlers.irqWrap
  | .fiq => handlers.fastIrqHandler

/-! ## The table -/

/-- `ldr pc, [pc, #offset]`. -/
def ldrPc (offset : BitVec 12) : Word :=
  (0xe59ff : BitVec 20) ++ offset

def nop : Word :=
  0xe320f000

/-- `ldr pc, label`, where both are words of the table.  The program counter reads as two
instructions further on. -/
def ldrPcLabel (index label : Nat) : Word :=
  ldrPc (BitVec.ofNat 12 (4 * label - (4 * index + 8)))

def vtable (handlers : VectorHandlers) : List Word :=
  [ldrPcLabel 0 8, ldrPcLabel 1 9, ldrPcLabel 2 10, ldrPcLabel 3 11, ldrPcLabel 4 12, nop,
    ldrPcLabel 6 13, ldrPcLabel 7 14,
    handlers.halt, handlers.undefinedInstructionWrap, handlers.swiWrap,
    handlers.prefetchAbortHandler, handlers.dataAbortWrap, handlers.irqWrap,
    handlers.fastIrqHandler]

/-- The table is in memory from an address on. -/
def HoldsVtable (handlers : VectorHandlers) (memory : Word -> Word) (base : Word) : Prop :=
  Machine.wordsAt memory base 15 = vtable handlers

/-- Executes the word at the program counter, if it is one of the two instructions that
vectors are made of. -/
def vectorStep (machine : Machine) : Option Machine :=
  let word := machine.memory machine.pc
  if word.extractLsb' 12 20 = 0xe59ff then
    some { machine with
      pc := machine.memory (machine.pc + 8 + (word.extractLsb' 0 12).setWidth 32) }
  else if word = nop then
    some { machine with pc := machine.pc + 4 }
  else none

def VectorSteps : Machine -> Machine -> Prop :=
  Relation.ReflTransGen fun before after => vectorStep before = some after

variable {handlers : VectorHandlers} {exception : Exception32} {memory : Word -> Word}
variable {base table : Word} {machine : Machine}

theorem HoldsVtable.word (holds : HoldsVtable handlers memory base) {index : Nat} {value : Word}
    (found : (vtable handlers)[index]? = some value) :
    memory (base + BitVec.ofNat 32 (4 * index)) = value := by
  rw [← holds, Machine.wordsAt, List.getElem?_map] at found
  rcases Option.map_eq_some_iff.mp found with ⟨place, atPlace, same⟩
  rw [List.getElem?_eq_some_iff] at atPlace
  rcases atPlace with ⟨_, rfl⟩
  rwa [List.getElem_range] at same

theorem vtable_vector (used : exception ≠ .hypervisorTrap) :
    (vtable handlers)[exception.index]? =
      some (ldrPcLabel exception.index exception.offsetIndex) := by
  cases exception <;> first | rfl | exact absurd rfl used

theorem vtable_offset :
    (vtable handlers)[exception.offsetIndex]? = some (handlers.handler exception) := by
  cases exception <;> rfl

/-- A vector loads its word, wherever the table is. -/
theorem vectorStep_ldrPcLabel {index label : Nat} {value : Word}
    (placed : machine.pc = base + BitVec.ofNat 32 (4 * index))
    (holds : HoldsVtable handlers machine.memory base)
    (vector : (vtable handlers)[index]? = some (ldrPcLabel index label))
    (offset : (vtable handlers)[label]? = some value)
    (ahead : 4 * index + 8 ≤ 4 * label) (near : 4 * label < 2 ^ 12) :
    vectorStep machine = some { machine with pc := value } := by
  have word : machine.memory machine.pc = ldrPcLabel index label := by
    rw [placed, holds.word vector]
  have isLdr : (ldrPcLabel index label).extractLsb' 12 20 = 0xe59ff :=
    BitVec.extractLsb'_append_eq_left
  have distance : (ldrPcLabel index label).extractLsb' 0 12 =
      BitVec.ofNat 12 (4 * label - (4 * index + 8)) := BitVec.extractLsb'_append_eq_right
  have there : machine.pc + 8 +
      (BitVec.ofNat 12 (4 * label - (4 * index + 8))).setWidth 32 =
        base + BitVec.ofNat 32 (4 * label) := by
    rw [placed]
    bv_omega
  rw [vectorStep]
  simp only [word]
  rw [if_pos isLdr, distance, there, holds.word offset]

theorem vectorStep_nop (placed : machine.pc = base + Exception32.hypervisorTrap.vector)
    (holds : HoldsVtable handlers machine.memory base) :
    vectorStep machine = some { machine with pc := base + Exception32.irq.vector } := by
  have word : machine.memory machine.pc = nop := by
    rw [placed]
    exact @HoldsVtable.word _ _ _ holds 5 _ rfl
  have next : machine.pc + 4 = base + Exception32.irq.vector := by
    rw [placed, BitVec.add_assoc]
    rfl
  rw [vectorStep]
  simp only [word]
  rw [if_neg (by decide), if_pos trivial, next]

/-- Every exception is led to its handler, with nothing else changed. -/
theorem vectors_lead (placed : machine.pc = base + exception.vector)
    (holds : HoldsVtable handlers machine.memory base) :
    VectorSteps machine { machine with pc := handlers.handler exception } := by
  by_cases trapped : exception = .hypervisorTrap
  · subst trapped
    have first := vectorStep_nop placed holds
    have second := @vectorStep_ldrPcLabel handlers base
      { machine with pc := base + Exception32.irq.vector } 6 13 handlers.irqWrap rfl holds rfl rfl
      (by decide) (by decide)
    exact Relation.ReflTransGen.tail (Relation.ReflTransGen.single first) second
  · have ahead : 4 * exception.index + 8 ≤ 4 * exception.offsetIndex := by
      cases exception <;> decide
    have near : 4 * exception.offsetIndex < 2 ^ 12 := by
      cases exception <;> decide
    exact Relation.ReflTransGen.single
      (vectorStep_ldrPcLabel placed holds (vtable_vector trapped) vtable_offset ahead near)

/-! ## Setting up -/

/-- `r2` to `r8`. -/
def offsetRegisters : List Register :=
  [.r 2, .r 3, .r 4, .r 5, .r 6, .r 7, .r 8]

/-- `r2` to `r9`. -/
def vectorRegisters : List Register :=
  offsetRegisters ++ [.r 9]

/-- `setup_vtable` up to `setup_stacks`, which it goes on with. -/
def setupVtableCode (table : Word) : List Instruction :=
  [.mov (.r 0) table, .mov (.r 1) 0] ++
    [.ldm (.r 0) vectorRegisters, .stm (.r 1) vectorRegisters] ++
    [.ldm (.r 0) offsetRegisters, .stm (.r 1) offsetRegisters]

def superSp : Word := 0xb000

def irqSp : Word := 0x3000

def abortSp : Word := 0x2000

def undefSp : Word := 0x1000

def setupStacksCode : List Instruction :=
  [.mov .sp superSp, .cps Mode.irq, .mov .sp irqSp, .cps Mode.abort, .mov .sp abortSp,
    .cps Mode.undefined, .mov .sp undefSp, .cps Mode.supervisor]

/-- `setup_vtable`, with the table at an address. -/
def setupVtable (table : Word) (machine : Machine) : Machine :=
  machine.runBlock Empty.elim ⟨setupVtableCode table ++ setupStacksCode, .ret⟩

/-- The stack pointers after `setup_stacks`. -/
def setStacks (sp : Mode -> Word) : Mode -> Word :=
  Function.update (Function.update (Function.update (Function.update sp
    Mode.supervisor superSp) Mode.irq irqSp) Mode.abort abortSp) Mode.undefined undefSp

theorem setupStacksCode_runs (supervisor : machine.mode = Mode.supervisor) :
    machine.executeAll setupStacksCode = { machine with sp := setStacks machine.sp } := by
  have back : withMode machine.cpsr Mode.supervisor = machine.cpsr := by
    rw [← supervisor]
    exact Machine.withMode_modeOf machine.cpsr
  have bankAbort : Mode.abort.bank = Mode.abort := by decide
  have bankUndefined : Mode.undefined.bank = Mode.undefined := by decide
  rw [Machine.mode] at supervisor
  simp only [setupStacksCode, Machine.executeAll, Machine.execute, Machine.write, Machine.mode,
    supervisor, modeOf_withMode, Machine.withMode_withMode, back, Mode.bank_supervisor,
    Mode.bank_irq, bankAbort, bankUndefined, setStacks]

/-- The table was copied to address 0. -/
theorem setupVtableCode_runs (apart : Disjoint (wordsFrom table 15) (wordsFrom 0 15)) :
    (machine.executeAll (setupVtableCode table)).memory =
        storeWords 0 (Machine.wordsAt machine.memory table 15) machine.memory ∧
      (machine.executeAll (setupVtableCode table)).sp = machine.sp ∧
      (machine.executeAll (setupVtableCode table)).lr = machine.lr ∧
      (machine.executeAll (setupVtableCode table)).cpsr = machine.cpsr := by
  let start := machine.executeAll [.mov (.r 0) table, .mov (.r 1) 0]
  let middle := start.executeAll [.ldm (.r 0) vectorRegisters, .stm (.r 1) vectorRegisters]
  have fromTable : start.r 0 = table := by
    rw [show start.r 0 = (machine.write (.r 0) table).r 0 from Machine.write_r_of_ne (by decide)]
    exact Machine.write_r_self
  have toZero : start.r 1 = 0 := Machine.write_r_self
  have first : Machine.Copied 8 0 1 start middle :=
    @Machine.execute_copy start vectorRegisters 0 1 (by decide) (by decide) (by decide)
      (by decide) (by decide) (by decide)
  have second : Machine.Copied 7 0 1 middle (machine.executeAll (setupVtableCode table)) := by
    rw [setupVtableCode, Machine.executeAll_append, Machine.executeAll_append]
    exact @Machine.execute_copy middle offsetRegisters 0 1 (by decide) (by decide) (by decide)
      (by decide) (by decide) (by decide)
  refine ⟨?_, second.sp.trans first.sp, second.lr.trans first.lr, second.cpsr.trans first.cpsr⟩
  -- the first half was stored where the second is not loaded from
  have unread : Machine.wordsAt middle.memory (table + BitVec.ofNat 32 (4 * 8)) 7 =
      Machine.wordsAt machine.memory (table + BitVec.ofNat 32 (4 * 8)) 7 := by
    refine Machine.wordsAt_congr fun index below => ?_
    rw [first.memory, fromTable, toZero, word_add]
    refine storeWords_outside fun inside => ?_
    rw [Machine.length_wordsAt] at inside
    rcases inside with ⟨other, small, same⟩
    exact Set.disjoint_left.mp apart (mem_wordsFrom (show 8 + index < 15 by omega))
      ⟨other, by omega, same⟩
  rw [second.memory, first.sourceAfter, first.targetAfter, fromTable, toZero, unread, first.memory,
    fromTable, toZero, Machine.wordsAt_add 8 7, storeWords_append, Machine.length_wordsAt]
  rfl

/-- What `setup_vtable` leaves. -/
structure VectorsReady (table : Word) (before after : Machine) : Prop where
  memory : after.memory = storeWords 0 (Machine.wordsAt before.memory table 15) before.memory
  sp : after.sp = setStacks before.sp
  lr : after.lr = before.lr
  cpsr : after.cpsr = before.cpsr
  pc : after.pc = before.link

theorem setupVtable_ready (supervisor : machine.mode = Mode.supervisor)
    (apart : Disjoint (wordsFrom table 15) (wordsFrom 0 15)) :
    VectorsReady table machine (setupVtable table machine) := by
  rcases @setupVtableCode_runs table machine apart with ⟨memory, sp, lr, cpsr⟩
  have still : (machine.executeAll (setupVtableCode table)).mode = Mode.supervisor := by
    rw [Machine.mode, cpsr]
    exact supervisor
  have runs : setupVtable table machine =
      { machine.executeAll (setupVtableCode table) with
        sp := setStacks (machine.executeAll (setupVtableCode table)).sp
        pc := (machine.executeAll (setupVtableCode table)).link } := by
    rw [setupVtable, Machine.runBlock, Machine.executeAll_append, setupStacksCode_runs still]
    rfl
  rw [runs]
  exact
    { memory := memory
      sp := congrArg setStacks sp
      lr := lr
      cpsr := cpsr
      pc := by
        change (machine.executeAll (setupVtableCode table)).link = machine.link
        rw [Machine.link, still, lr, Machine.link, supervisor] }

/-! ## From then on -/

theorem VectorsReady.holds {before after : Machine} (ready : VectorsReady table before after)
    (held : HoldsVtable handlers before.memory table) : HoldsVtable handlers after.memory 0 := by
  rw [HoldsVtable, ready.memory]
  refine Eq.trans ?_ held
  have stored := @Machine.wordsAt_storeWords (Machine.wordsAt before.memory table 15)
    before.memory 0 (by rw [Machine.length_wordsAt]; decide)
  rwa [Machine.length_wordsAt] at stored

/-- Something runs that does not store to the vectors. -/
def LeavesVectors (before after : Machine) : Prop :=
  forall address, address ∈ wordsFrom 0 15 -> after.memory address = before.memory address

theorem LeavesVectors.holds {before after : Machine} (leaves : LeavesVectors before after)
    (held : HoldsVtable handlers before.memory 0) : HoldsVtable handlers after.memory 0 :=
  (Machine.wordsAt_congr fun _ below => leaves _ (mem_wordsFrom below)).trans held

/-- What happens after `setup_vtable`. -/
inductive VectorAct where
  | code
  | exception (taken : Exception32)

/-- An exception starts at its vector.  What it does to the registers and to the program
state does not matter here. -/
def VectorRun (before : Machine) (act : VectorAct) (after : Machine) : Prop :=
  match act with
  | .code => LeavesVectors before after
  | .exception taken => after.pc = taken.vector ∧ after.memory = before.memory

theorem VectorRun.leaves {before after : Machine} {act : VectorAct}
    (ran : VectorRun before act after) : LeavesVectors before after := by
  cases act with
  | code => exact ran
  | exception taken => exact fun address _ => congrFun ran.2 address

theorem takeIrq_runs (machine : Machine) :
    VectorRun machine (.exception .irq) (machine.takeIrq Exception32.irq.vector) :=
  ⟨rfl, rfl⟩

/-- Once `setup_vtable` has run in supervisor mode, every exception is led to its own handler,
in whatever order they are taken and whatever runs in between, as long as nothing stores to
the vectors. -/
theorem exceptions_led (handlers : VectorHandlers) {table : Word} {start taken : Machine}
    {acts : List VectorAct} {exception : Exception32} (supervisor : start.mode = Mode.supervisor)
    (held : HoldsVtable handlers start.memory table)
    (apart : Disjoint (wordsFrom table 15) (wordsFrom 0 15))
    (reached : Reaches VectorRun (setupVtable table start) (.exception exception :: acts) taken) :
    VectorsReady table start (setupVtable table start) ∧
      VectorSteps taken { taken with pc := handlers.handler exception } := by
  have ready := setupVtable_ready supervisor apart
  have holds : HoldsVtable handlers taken.memory 0 :=
    reached.invariant (fun machine => HoldsVtable handlers machine.memory 0) (ready.holds held)
      fun _ _ _ before ran => ran.leaves.holds before
  cases reached with
  | tail _ last =>
      have placed : taken.pc = 0 + exception.vector := last.1.trans (BitVec.zero_add _).symm
      exact ⟨ready, vectors_lead placed holds⟩

def rowHandlers : VectorHandlers where
  halt := 0x8100
  undefinedInstructionWrap := 0x8200
  swiWrap := 0x8300
  prefetchAbortHandler := 0x8400
  dataAbortWrap := 0x8500
  irqWrap := 0x8600
  fastIrqHandler := 0x8700

/-- A kernel in supervisor mode, with the table above the vectors. -/
def unready32 : Machine where
  r := fun _ => 0
  sp := fun _ => 0
  lr := fun _ => 0x8010
  spsr := fun _ => 0
  cpsr := 0x1d3
  pc := 0x8800
  memory := storeWords 0x8900 (vtable rowHandlers) fun _ => 0

theorem exceptions_led_irq : Exists fun taken =>
    taken.mode = Mode.irq ∧ VectorSteps taken { taken with pc := rowHandlers.irqWrap } := by
  have held : HoldsVtable rowHandlers unready32.memory 0x8900 :=
    @Machine.wordsAt_storeWords (vtable rowHandlers) (fun _ => 0) 0x8900 (by decide)
  have apart : Disjoint (wordsFrom 0x8900 15) (wordsFrom 0 15) := by
    refine Set.disjoint_left.mpr ?_
    rintro _ ⟨index, below, rfl⟩ ⟨other, small, same⟩
    bv_omega
  have supervisor : unready32.mode = Mode.supervisor := by decide
  have taken := takeIrq_runs (setupVtable 0x8900 unready32)
  exact ⟨_, Machine.takeIrq_mode _ _,
    (exceptions_led rowHandlers supervisor held apart (.tail .refl taken)).2⟩

end Kernel
end Pinyon
