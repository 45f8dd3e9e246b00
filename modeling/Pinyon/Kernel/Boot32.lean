import Pinyon.Kernel.Vectors32
import Pinyon.Kernel.Image
import Pinyon.Library.Cores

namespace Pinyon
namespace Kernel

open Library Library.Aarch32Modes
open Library.Aarch32 (Word Register storeWords storeWords_append)

/-!
# Booting on ARMv7

`start` halts every core but one, zeroes the variables that start out as zero four words
at a time, and calls `setup_vtable` and then `init`.
-/

inductive BootLabel32 where
  | start
  | haltOthers
  | zeroOutBss
  | zbss
  | ckzbssbnds
  | preinit
  | callInit
  | halt
  | setupVtable
deriving DecidableEq

structure BootPlaces32 where
  addressOf : BootLabel32 -> Word
  labelAt : Word -> Option BootLabel32
  labelAt_addressOf : forall label, labelAt (addressOf label) = some label
  init : Word
  labelAt_init : labelAt init = none
  mmuInit : Word
  vtable : Word
  bssStart : Word
  bssEnd : Word

/-- A core with its affinity register. -/
structure Core32 where
  machine : Machine
  mpidr : Word

def zeroRegisters : List Register :=
  [.r 3, .r 4, .r 5, .r 6]

def bootBlock32 (places : BootPlaces32) : BootLabel32 -> Block BootLabel32
  -- behind the read of the affinity register into `r3`
  | .start =>
      { body := [.and (.r 3) 3, .cmp (.r 3) 0, .mov (.r 0) (places.addressOf .halt)]
        exit := .branchEq .zeroOutBss .haltOthers }
  | .haltOthers =>
      { body := []
        exit := .bx (.r 0) }
  | .zeroOutBss =>
      { body :=
          [.mov (.r 2) places.bssStart, .mov (.r 7) places.bssEnd, .mov (.r 3) 0, .mov (.r 4) 0,
            .mov (.r 5) 0, .mov (.r 6) 0]
        exit := .goto .ckzbssbnds }
  | .zbss =>
      { body := [.stm (.r 2) zeroRegisters]
        exit := .goto .ckzbssbnds }
  | .ckzbssbnds =>
      { body := [.cmpRegister (.r 2) (.r 7)]
        exit := .branchLo .zbss .preinit }
  | .preinit =>
      { body := [.mov (.r 0) (places.addressOf .setupVtable)]
        exit := .call .setupVtable .callInit }
  | .callInit =>
      { body := [.mov (.r 0) places.init, .mov .lr places.mmuInit]
        exit := .bx (.r 0) }
  | .halt =>
      { body := [.mov (.r 0) (places.addressOf .halt)]
        exit := .bx (.r 0) }
  | .setupVtable =>
      { body := setupVtableCode places.vtable ++ setupStacksCode
        exit := .ret }

/-- What a core does from a label on. -/
def BootPlaces32.at_ (places : BootPlaces32) (label : BootLabel32) (machine : Machine) : Machine :=
  machine.runBlock places.addressOf (bootBlock32 places label)

def BootPlaces32.run (places : BootPlaces32) (label : BootLabel32) (core : Core32) : Core32 :=
  match label with
  | .start => { core with machine := places.at_ .start (core.machine.write (.r 3) core.mpidr) }
  | _ => { core with machine := places.at_ label core.machine }

def BootPlaces32.code (places : BootPlaces32) : BlockCode Core32 Word BootLabel32 where
  addressOf := places.addressOf
  labelAt := places.labelAt
  labelAt_addressOf := places.labelAt_addressOf
  pc := fun core => core.machine.pc
  run := places.run

def sharedMemory32 : SharedMemory Core32 (Word -> Word) where
  memory := fun core => core.machine.memory
  withMemory := fun core contents => { core with machine := { core.machine with memory := contents } }
  withMemory_memory := fun _ => rfl
  memory_withMemory := fun _ _ => rfl

variable {places : BootPlaces32} {machine : Machine} {core : Core32}

theorem step_at32 (label : BootLabel32) (placed : core.machine.pc = places.addressOf label) :
    places.code.step core = some (places.run label core) :=
  @BlockCode.step_at _ _ _ places.code core label placed

theorem steps_at32 (label : BootLabel32) (placed : core.machine.pc = places.addressOf label) :
    places.code.Steps core (places.run label core) :=
  Relation.ReflTransGen.single (step_at32 label placed)

/-- Nothing that lasts has changed but memory. -/
structure SameModes (before after : Machine) : Prop where
  mode : after.mode = before.mode
  sp : after.sp = before.sp

theorem SameModes.trans {before middle after : Machine} (first : SameModes before middle)
    (second : SameModes middle after) : SameModes before after :=
  ⟨second.mode.trans first.mode, second.sp.trans first.sp⟩

theorem start_at32 :
    (places.run .start core).machine.pc =
        places.addressOf (if core.mpidr &&& 3 = 0 then .zeroOutBss else .haltOthers) ∧
      (places.run .start core).machine.r 0 = places.addressOf .halt ∧
      (places.run .start core).machine.memory = core.machine.memory ∧
      SameModes core.machine (places.run .start core).machine := by
  let masked := (core.machine.write (.r 3) core.mpidr).execute (.and (.r 3) 3)
  have value : masked.r 3 = core.mpidr &&& 3 := by
    change (Machine.write _ (.r 3) _).r 3 = _
    rw [Machine.write_r_self]
    exact congrArg (· &&& 3) (@Machine.write_r_self core.machine core.mpidr 3)
  refine ⟨?_, @Machine.write_r_self (masked.compare (masked.r 3) 0) (places.addressOf .halt) 0, rfl,
    ⟨?_, rfl⟩⟩
  · have flag : ((masked.compare (masked.r 3) 0).write (.r 0) (places.addressOf .halt)).zeroFlag =
        (core.mpidr &&& 3 == 0) := by
      rw [← value]
      exact Machine.zeroFlag_compare masked (masked.r 3) 0
    change places.addressOf (if Machine.zeroFlag _ = true then _ else _) = _
    refine congrArg places.addressOf ?_
    refine (congrArg (fun flag => if flag = true then BootLabel32.zeroOutBss else .haltOthers)
      flag).trans ?_
    simp only [beq_iff_eq]
  · exact Machine.compare_mode masked (masked.r 3) 0

/-! ## Zeroing the variables -/

/-- In the loop, `r2` is where it is and `r7` where it ends. -/
structure Zeroing (places : BootPlaces32) (machine : Machine) (count : Nat) : Prop where
  placed : machine.pc = places.addressOf .ckzbssbnds
  left : (machine.r 2).toNat + 16 * count = (machine.r 7).toNat
  zeros : zeroRegisters.map machine.read = [0, 0, 0, 0]

theorem ckzbssbnds_at32 :
    (places.at_ .ckzbssbnds machine).pc =
        places.addressOf (if machine.r 2 < machine.r 7 then .zbss else .preinit) ∧
      (places.at_ .ckzbssbnds machine).r = machine.r ∧
      (places.at_ .ckzbssbnds machine).memory = machine.memory ∧
      SameModes machine (places.at_ .ckzbssbnds machine) := by
  refine ⟨?_, rfl, rfl, ⟨Machine.compare_mode machine (machine.r 2) (machine.r 7), rfl⟩⟩
  have flag : (machine.compare (machine.r 2) (machine.r 7)).carryFlag =
      (machine.r 7).ule (machine.r 2) := Machine.carryFlag_compare _ _ _
  change places.addressOf (if Machine.carryFlag (machine.compare (machine.r 2) (machine.r 7)) = true
    then BootLabel32.preinit else .zbss) = _
  by_cases below : machine.r 2 < machine.r 7
  · have carry : (machine.r 7).ule (machine.r 2) = false := by
      rw [BitVec.ule_eq_decide]
      exact decide_eq_false (Nat.not_le.mpr below)
    rw [if_pos below, flag, carry]
    rfl
  · have carry : (machine.r 7).ule (machine.r 2) = true := by
      rw [BitVec.ule_eq_decide]
      exact decide_eq_true (Nat.not_lt.mp below)
    rw [if_neg below, flag, carry]
    rfl

theorem zbss_at32 :
    (places.at_ .zbss machine).pc = places.addressOf .ckzbssbnds ∧
      (places.at_ .zbss machine).r 2 = machine.r 2 + 16 ∧
      (forall index, index ≠ 2 -> (places.at_ .zbss machine).r index = machine.r index) ∧
      (places.at_ .zbss machine).memory =
        storeWords (machine.r 2) (zeroRegisters.map machine.read) machine.memory ∧
      SameModes machine (places.at_ .zbss machine) :=
  ⟨rfl, @Machine.write_r_self (machine.storeRegisters (machine.r 2) zeroRegisters)
      (machine.r 2 + 16) 2,
    fun _ different => @Machine.write_r_of_ne (machine.storeRegisters (machine.r 2) zeroRegisters)
      (machine.r 2 + 16) 2 _ different, rfl, ⟨rfl, rfl⟩⟩

/-- Zeros in a row of words. -/
def zeros (rounds : Nat) : List Word :=
  List.replicate (4 * rounds) 0

theorem zeros_succ (rounds : Nat) : zeros (rounds + 1) = [0, 0, 0, 0] ++ zeros rounds := by
  rw [zeros, Nat.mul_succ, Nat.add_comm, List.replicate_add]
  rfl

/-- The loop, by the number of rounds that are left. -/
theorem zeroing_steps32 (rounds : Nat) (zeroing : Zeroing places core.machine rounds) :
    Exists fun after => places.code.Steps core after ∧
      after.machine.pc = places.addressOf .preinit ∧ SameModes core.machine after.machine ∧
      after.machine.memory =
        storeWords (core.machine.r 2) (zeros rounds) core.machine.memory := by
  rcases @ckzbssbnds_at32 places core.machine with ⟨pc, registers, memory, same⟩
  have taken := step_at32 .ckzbssbnds zeroing.placed
  have left := zeroing.left
  induction rounds generalizing core with
  | zero =>
      have atEnd : ¬ core.machine.r 2 < core.machine.r 7 := by
        rw [BitVec.lt_def]
        omega
      rw [if_neg atEnd] at pc
      exact ⟨_, Relation.ReflTransGen.single taken, pc, same, memory⟩
  | succ rounds inductionHypothesis =>
      have below : core.machine.r 2 < core.machine.r 7 := by
        rw [BitVec.lt_def]
        omega
      rw [if_pos below] at pc
      let compared := places.run .ckzbssbnds core
      rcases @zbss_at32 places compared.machine with
        ⟨storedPc, storedFirst, storedOther, storedMemory, storedSame⟩
      let stored := places.run .zbss compared
      have sameRegisters : compared.machine.r = core.machine.r := registers
      have further : Zeroing places stored.machine rounds :=
        { placed := storedPc
          left := by
            have last : stored.machine.r 7 = core.machine.r 7 := by
              rw [← sameRegisters]
              exact storedOther 7 (by decide)
            have next : stored.machine.r 2 = core.machine.r 2 + 16 := by
              rw [← sameRegisters]
              exact storedFirst
            have fits := (core.machine.r 7).isLt
            rw [last, next, BitVec.toNat_add]
            change ((core.machine.r 2).toNat + 16) % 2 ^ 32 + 16 * rounds = _
            omega
          zeros := by
            rw [← zeroing.zeros]
            change [stored.machine.r 3, stored.machine.r 4, stored.machine.r 5, stored.machine.r 6] =
              [core.machine.r 3, core.machine.r 4, core.machine.r 5, core.machine.r 6]
            rw [← sameRegisters]
            exact congr (congrArg _ (storedOther 3 (by decide))) (congr (congrArg _
              (storedOther 4 (by decide))) (congr (congrArg _ (storedOther 5 (by decide)))
                (congrArg (fun value => [value]) (storedOther 6 (by decide))))) }
      rcases @ckzbssbnds_at32 places stored.machine with
        ⟨againPc, againRegisters, againMemory, againSame⟩
      rcases inductionHypothesis further againPc againRegisters againMemory againSame
        (step_at32 .ckzbssbnds further.placed) further.left with
        ⟨after, steps, afterPc, afterSame, afterMemory⟩
      refine ⟨after, ?_, afterPc, (same.trans storedSame).trans afterSame, ?_⟩
      · have comparedPc : compared.machine.pc = places.addressOf .zbss := pc
        have two : places.code.Steps core stored :=
          (steps_at32 .ckzbssbnds zeroing.placed).tail (step_at32 .zbss comparedPc)
        exact Relation.ReflTransGen.trans two steps
      · have zerosThere : zeroRegisters.map compared.machine.read = [0, 0, 0, 0] := by
          rw [← zeroing.zeros]
          exact congrArg (fun r : Fin 13 -> Word => [r 3, r 4, r 5, r 6]) sameRegisters
        have firstRound : stored.machine.memory =
            storeWords (core.machine.r 2) [0, 0, 0, 0] core.machine.memory := by
          rw [← zerosThere, ← sameRegisters]
          refine storedMemory.trans ?_
          exact congrArg (storeWords _ _) memory
        have next : stored.machine.r 2 = core.machine.r 2 + 16 := by
          rw [← sameRegisters]
          exact storedFirst
        rw [afterMemory, firstRound, next, zeros_succ, storeWords_append]
        rfl

/-! ## The whole way -/

theorem callInit_at32 :
    (places.at_ .callInit machine).pc = places.init ∧
      (places.at_ .callInit machine).memory = machine.memory ∧
      SameModes machine (places.at_ .callInit machine) :=
  ⟨@Machine.write_r_self machine places.init 0, rfl, ⟨rfl, rfl⟩⟩

/-- Memory with the variables zeroed. -/
def BootPlaces32.zeroed (places : BootPlaces32) (memory : Word -> Word) : Word -> Word :=
  storeWords places.bssStart (zeros ((places.bssEnd - places.bssStart).toNat / 16)) memory

/-- What `init` finds. -/
structure Booted32 (places : BootPlaces32) (before after : Machine) : Prop where
  pc : after.pc = places.init
  mode : after.mode = Mode.supervisor
  sp : after.sp = setStacks before.sp
  memory : after.memory =
    storeWords 0 (Machine.wordsAt (places.zeroed before.memory) places.vtable 15)
      (places.zeroed before.memory)

/-- The first core comes to `init`. -/
theorem boot_leaves32 (placed : core.machine.pc = places.addressOf .start)
    (supervisor : core.machine.mode = Mode.supervisor) (first : core.mpidr &&& 3 = 0)
    (ordered : places.bssStart.toNat ≤ places.bssEnd.toNat)
    (whole : 16 ∣ (places.bssEnd - places.bssStart).toNat)
    (apart : Disjoint (wordsFrom places.vtable 15) (wordsFrom 0 15)) :
    Exists fun after => places.code.Leaves core after ∧
      Booted32 places core.machine after.machine := by
  rcases @start_at32 places core with ⟨startPc, _, startMemory, startSame⟩
  rw [if_pos first] at startPc
  let started := places.run .start core
  let entered := places.run .zeroOutBss started
  rcases whole with ⟨rounds, size⟩
  have starts : entered.machine.r 2 = places.bssStart := by
    simp [entered, BootPlaces32.run, BootPlaces32.at_, bootBlock32, Machine.runBlock,
      Machine.executeAll, Machine.execute, Machine.leave, Machine.write]
  have ends : entered.machine.r 7 = places.bssEnd := by
    simp [entered, BootPlaces32.run, BootPlaces32.at_, bootBlock32, Machine.runBlock,
      Machine.executeAll, Machine.execute, Machine.leave, Machine.write]
  have zeroing : Zeroing places entered.machine rounds :=
    { placed := rfl
      left := by
        rw [starts, ends, ← size, BitVec.toNat_sub_of_le ordered]
        exact Nat.add_sub_cancel' ordered
      zeros := by
        simp [entered, BootPlaces32.run, BootPlaces32.at_, bootBlock32, Machine.runBlock,
          Machine.executeAll, Machine.execute, Machine.leave, Machine.write, zeroRegisters,
          Machine.read] }
  rcases zeroing_steps32 rounds zeroing with ⟨ready, loop, readyPc, readySame, readyMemory⟩
  let called := places.run .preinit ready
  have calledPc : called.machine.pc = places.addressOf .setupVtable := rfl
  have enteredSame : SameModes started.machine entered.machine := ⟨rfl, rfl⟩
  have calledSame : SameModes ready.machine called.machine := ⟨rfl, rfl⟩
  have same : SameModes core.machine called.machine :=
    ((startSame.trans enteredSame).trans readySame).trans calledSame
  have calledMode : called.machine.mode = Mode.supervisor := same.mode.trans supervisor
  have isReady : VectorsReady places.vtable called.machine
      (setupVtable places.vtable called.machine) := setupVtable_ready calledMode apart
  let vectored := places.run .setupVtable called
  have sameMachine : vectored.machine = setupVtable places.vtable called.machine := rfl
  rw [← sameMachine] at isReady
  have link : called.machine.link = places.addressOf .callInit :=
    @Machine.read_write_self (ready.machine.write (.r 0) (places.addressOf .setupVtable)) .lr
      (places.addressOf .callInit)
  have vectoredMode : vectored.machine.mode = called.machine.mode := congrArg modeOf isReady.cpsr
  have vectoredPc : vectored.machine.pc = places.addressOf .callInit := isReady.pc.trans link
  let done := places.run .callInit vectored
  rcases @callInit_at32 places vectored.machine with ⟨donePc, doneMemory, doneSame⟩
  refine ⟨done, ⟨?_, ?_⟩, ?_⟩
  · have up : places.code.Steps core entered :=
      (steps_at32 .start placed).tail (step_at32 .zeroOutBss startPc)
    have down : places.code.Steps core vectored :=
      ((Relation.ReflTransGen.trans up loop).tail (step_at32 .preinit readyPc)).tail
        (step_at32 .setupVtable calledPc)
    exact down.tail (step_at32 .callInit vectoredPc)
  · change places.labelAt done.machine.pc = none
    exact (congrArg places.labelAt donePc).trans places.labelAt_init
  · have zeroedMemory : called.machine.memory = places.zeroed core.machine.memory := by
      rw [BootPlaces32.zeroed, size, Nat.mul_div_cancel_left _ (by decide), ← starts, ← startMemory]
      exact readyMemory
    exact
      { pc := donePc
        mode := doneSame.mode.trans (vectoredMode.trans calledMode)
        sp := doneSame.sp.trans (isReady.sp.trans (congrArg setStacks same.sp))
        memory := by
          rw [← zeroedMemory]
          exact doneMemory.trans isReady.memory }

/-! ## All cores -/

/-- Where a core other than the first is after a number of steps: on the way to the loop in
which it is halted, which takes two, and from then on in it. -/
def parkedAt32 : Nat -> BootLabel32
  | 0 => .start
  | 1 => .haltOthers
  | _ => .halt

structure Parked32 (places : BootPlaces32) (count : Nat) (core : Core32) : Prop where
  other : core.mpidr &&& 3 ≠ 0
  pc : core.machine.pc = places.addressOf (parkedAt32 count)
  target : count = 1 -> core.machine.r 0 = places.addressOf .halt

theorem parks32 (places : BootPlaces32) :
    Cores.Parks sharedMemory32 places.code (Parked32 places) where
  inside := fun count core parked outside => by
    have none_ : places.labelAt core.machine.pc = none := outside
    rw [parked.pc, places.labelAt_addressOf] at none_
    cases none_
  step := fun count before after parked taken => by
    rw [step_at32 _ parked.pc] at taken
    cases taken
    match count with
    | 0 =>
        rcases @start_at32 places before with ⟨pc, target, memory, _⟩
        rw [if_neg parked.other] at pc
        exact ⟨⟨parked.other, pc, fun _ => target⟩, memory⟩
    | 1 => exact ⟨⟨parked.other, parked.target rfl, nofun⟩, rfl⟩
    | count + 2 =>
        exact ⟨⟨parked.other, @Machine.write_r_self before.machine (places.addressOf .halt) 0,
          fun wrong => absurd wrong (by omega)⟩, rfl⟩
  withMemory := fun _ _ _ parked => ⟨parked.other, parked.pc, parked.target⟩

/-- The ends of the variables are those of the linker. -/
structure BootPlaces32.Linked (places : BootPlaces32) (sections : Sections) : Prop where
  bssStart : places.bssStart = BitVec.ofNat 32 sections.bssStart
  bssEnd : places.bssEnd = BitVec.ofNat 32 sections.bssEnd
  fits : sections.bssEnd < 2 ^ 32
  /-- The vector table is not where it is copied to. -/
  apart : Disjoint (wordsFrom places.vtable 15) (wordsFrom 0 15)

theorem BootPlaces32.Linked.ordered {sections : Sections} (linked : places.Linked sections) :
    places.bssStart.toNat ≤ places.bssEnd.toNat := by
  have below := sections.bssStart_le_bssEnd
  rw [linked.bssStart, linked.bssEnd, BitVec.toNat_ofNat, BitVec.toNat_ofNat,
    Nat.mod_eq_of_lt linked.fits, Nat.mod_eq_of_lt (Nat.lt_of_le_of_lt below linked.fits)]
  exact below

theorem BootPlaces32.Linked.whole {sections : Sections} (linked : places.Linked sections) :
    16 ∣ (places.bssEnd - places.bssStart).toNat := by
  rw [linked.bssStart, linked.bssEnd, sections.toNat_bssSize linked.fits]
  exact sections.dvd_bssSize

/-- All cores start where the kernel does, in supervisor mode, and one of them is core 0. -/
structure PoweredOn32 {Index : Type} (places : BootPlaces32) (first : Index)
    (cores : Cores Index Core32 (Word -> Word)) : Prop where
  placed : forall index, (cores.core index).machine.pc = places.addressOf .start
  supervisor : forall index, (cores.core index).machine.mode = Mode.supervisor
  isFirst : (cores.core first).mpidr &&& 3 = 0
  others : forall index, index ≠ first -> (cores.core index).mpidr &&& 3 ≠ 0

/-- Whatever the order in which the cores run, all but the first are halted by their second
step and never change anything.  The first one can always go on until it calls `init`, after
a number of steps that does not depend on the others.  It is then in supervisor mode, with a
stack for each mode, the variables zeroed and the vector table copied to address 0, and the
rest of the memory is as it was. -/
theorem cores_boot32 {Index : Type} [DecidableEq Index] (places : BootPlaces32)
    (sections : Sections) (linked : places.Linked sections) (first : Index)
    {start : Cores Index Core32 (Word -> Word)} (poweredOn : PoweredOn32 places first start) :
    Exists fun rounds => Exists fun booted =>
      Booted32 places (start.view sharedMemory32 first).machine booted.machine ∧
      forall acts state, Reaches (Cores.Step sharedMemory32 places.code) start acts state ->
        Cores.Boots sharedMemory32 places.code (Parked32 places) first rounds booted acts
          state := by
  have placed : (start.view sharedMemory32 first).machine.pc = places.addressOf .start :=
    poweredOn.placed first
  have supervisor : (start.view sharedMemory32 first).machine.mode = Mode.supervisor :=
    poweredOn.supervisor first
  rcases boot_leaves32 placed supervisor poweredOn.isFirst linked.ordered linked.whole
    linked.apart with ⟨booted, leaves, facts⟩
  rcases Cores.boots_of_leaves (parks32 places)
    (fun index other => ⟨poweredOn.others index other, poweredOn.placed index, nofun⟩)
    leaves with ⟨rounds, boots⟩
  exact ⟨rounds, booted, facts, boots⟩

def bootLabels32 : List BootLabel32 :=
  [.start, .haltOthers, .zeroOutBss, .zbss, .ckzbssbnds, .preinit, .callInit, .halt, .setupVtable]

/-- The blocks one behind the other, and a kernel of two pages. -/
def rowPlaces32 : BootPlaces32 where
  addressOf := fun label => BitVec.ofNat 32 (codeStart + 4 * bootLabels32.idxOf label)
  labelAt := fun address => bootLabels32.find? fun label =>
    BitVec.ofNat 32 (codeStart + 4 * bootLabels32.idxOf label) = address
  labelAt_addressOf := fun label => by
    cases label <;> decide
  init := 0xb800
  labelAt_init := by decide
  mmuInit := 0xb900
  vtable := 0xc000
  bssStart := 0xd000
  bssEnd := 0xe000

theorem rowPlaces32_linked : rowPlaces32.Linked ⟨4096, 4096, 0, 4096⟩ where
  bssStart := rfl
  bssEnd := rfl
  fits := by decide
  apart := by
    refine Set.disjoint_left.mpr ?_
    rintro _ ⟨index, below, rfl⟩ ⟨other, small, same⟩
    have same_ : (0xc000 : Word) + BitVec.ofNat 32 (4 * index) = 0 + BitVec.ofNat 32 (4 * other) :=
      same
    bv_omega

/-- Two cores in supervisor mode. -/
def twoCores32 : Cores Bool Core32 (Word -> Word) where
  core := fun isOther =>
    { machine :=
        { r := fun _ => 0, sp := fun _ => 0, lr := fun _ => 0, spsr := fun _ => 0, cpsr := 0x1d3
          pc := rowPlaces32.addressOf .start, memory := fun _ => 7 }
      mpidr := if isOther then 1 else 0 }
  memory := fun _ => 7

theorem twoCores32_poweredOn : PoweredOn32 rowPlaces32 false twoCores32 where
  placed := fun _ => rfl
  supervisor := fun _ => by
    change modeOf 0x1d3 = Mode.supervisor
    decide
  isFirst := rfl
  others := fun isOther other => by
    cases isOther with
    | false => exact absurd rfl other
    | true =>
        change (1 : Word) &&& 3 ≠ 0
        decide

theorem cores_boot32_two : Exists fun rounds => Exists fun booted =>
    Booted32 rowPlaces32 (twoCores32.view sharedMemory32 false).machine booted.machine ∧
    forall acts state, Reaches (Cores.Step sharedMemory32 rowPlaces32.code) twoCores32 acts state ->
      Cores.Boots sharedMemory32 rowPlaces32.code (Parked32 rowPlaces32) false rounds booted acts
        state :=
  cores_boot32 rowPlaces32 _ rowPlaces32_linked false twoCores32_poweredOn

end Kernel
end Pinyon
