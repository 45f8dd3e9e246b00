import Pinyon.Library.Aarch64Levels
import Pinyon.Kernel.Image

namespace Pinyon
namespace Kernel

open Library Library.Aarch64Levels
open Library.Aarch64 (Word)

/-!
# Booting on AArch64

`start` halts every core but one, steps down to EL1, zeroes the variables that start out
as zero, and calls `init`.  The vector table and the stack pointer are set up on the way
down from EL2.
-/

inductive BootLabel64 where
  | start
  | haltOthers
  | checkIfEl3
  | stepDownEl3
  | checkIfEl2
  | stepDownEl2
  | stepDownEl2Stacks
  | stepDownEl2Return
  | zeroOutBss
  | zbss
  | ckzbssbnds
  | preinit
  | halt
  | setupVtable
  | setupStacks
deriving DecidableEq, Repr

/-- Where the code, the vector table and the variables were placed. -/
structure BootPlaces64 where
  addressOf : BootLabel64 -> Word
  labelAt : Word -> Option BootLabel64
  labelAt_addressOf : forall label, labelAt (addressOf label) = some label
  init : Word
  labelAt_init : labelAt init = none
  vtable : Word
  bssStart : Word
  bssEnd : Word

def kernelSp64 : Word := 0xb000

def bootBlock64 (places : BootPlaces64) : BootLabel64 -> Block BootLabel64
  | .start =>
      { body := [.mrs 0 .mpidrEl1, .and 0 3]
        exit := .cbz 0 .checkIfEl3 .haltOthers }
  | .haltOthers =>
      { body := [.mov 1 (places.addressOf .halt)]
        exit := .br 1 }
  | .checkIfEl3 =>
      { body := [.mrs 0 .currentEl, .and 0 12, .lsr 0 2, .cmp 0 3]
        exit := .branchNe .checkIfEl2 .stepDownEl3 }
  | .stepDownEl3 =>
      { body :=
          [.mov 0 0b10110110001, .msr .scrEl3 0, .mov 1 (places.addressOf .stepDownEl2),
            .msr (.elr 3) 1, .mov 2 0b1111001001, .msr (.spsr 3) 2]
        exit := .eret }
  | .checkIfEl2 =>
      { body := [.cmp 0 2]
        exit := .branchNe .zeroOutBss .stepDownEl2 }
  | .stepDownEl2 =>
      { body :=
          [.mrs 0 .hcrEl2, .orr 0 (1 <<< 29), .orr 0 (1 <<< 31), .msr .hcrEl2 0,
            .mov 0 (places.addressOf .setupVtable)]
        exit := .blr 0 .stepDownEl2Stacks }
  | .stepDownEl2Stacks =>
      { body := [.mov 0 (places.addressOf .setupStacks)]
        exit := .blr 0 .stepDownEl2Return }
  | .stepDownEl2Return =>
      { body :=
          [.mov 1 (places.addressOf .zeroOutBss), .msr (.elr 2) 1, .mov 2 0b1111000101,
            .msr (.spsr 2) 2]
        exit := .eret }
  | .zeroOutBss =>
      { body := [.mov 1 places.bssStart, .mov 2 places.bssEnd]
        exit := .goto .ckzbssbnds }
  | .zbss =>
      { body := [.strZeroPost 1 8]
        exit := .goto .ckzbssbnds }
  | .ckzbssbnds =>
      { body := [.subs 0 2 1]
        exit := .cbnz 0 .zbss .preinit }
  | .preinit =>
      { body := [.mov 0 places.init]
        exit := .blr 0 .halt }
  | .halt =>
      { body := [.wfe, .mov 0 (places.addressOf .halt)]
        exit := .br 0 }
  | .setupVtable =>
      { body := [.mov 0 places.vtable, .msr .vbarEl1 0]
        exit := .ret }
  | .setupStacks =>
      { body := [.mov 0 kernelSp64, .msr .spEl1 0]
        exit := .ret }

def BootPlaces64.code (places : BootPlaces64) : BlockCode Machine Word BootLabel64 where
  addressOf := places.addressOf
  labelAt := places.labelAt
  labelAt_addressOf := places.labelAt_addressOf
  pc := Machine.pc
  run := fun label machine => machine.runBlock places.addressOf (bootBlock64 places label)

variable {places : BootPlaces64} {machine before after : Machine}

/-! ## Down to EL1 -/

/-- Nothing but general registers, flags, memory and the program counter has changed. -/
structure SameLevel (before after : Machine) : Prop where
  spEl1 : after.spEl1 = before.spEl1
  el : after.el = before.el
  daif : after.daif = before.daif
  spSel : after.spSel = before.spSel
  mpidr : after.mpidr = before.mpidr
  hcr : after.hcr = before.hcr
  vbar : after.vbar = before.vbar
  trapped : after.trapped = before.trapped

structure SameState (before after : Machine) : Prop extends SameLevel before after where
  memory : after.memory = before.memory

theorem SameLevel.trans {middle : Machine} (first : SameLevel before middle)
    (second : SameLevel middle after) : SameLevel before after where
  spEl1 := second.spEl1.trans first.spEl1
  el := second.el.trans first.el
  daif := second.daif.trans first.daif
  spSel := second.spSel.trans first.spSel
  mpidr := second.mpidr.trans first.mpidr
  hcr := second.hcr.trans first.hcr
  vbar := second.vbar.trans first.vbar
  trapped := second.trapped.trans first.trapped

theorem mayUse_one (low : before.el ≠ 0) {register : SystemRegister} (level : register.level = 1) :
    before.mayUse register = true := by
  rw [Machine.mayUse, level]
  generalize before.el = el at low ⊢
  revert el
  decide

/-- What the block with a label does. -/
def BootPlaces64.at_ (places : BootPlaces64) (label : BootLabel64) (machine : Machine) : Machine :=
  machine.runBlock places.addressOf (bootBlock64 places label)

theorem step_at64 (label : BootLabel64) (placed : machine.pc = places.addressOf label) :
    places.code.step machine = some (places.at_ label machine) :=
  @BlockCode.step_at _ _ _ places.code machine label placed

theorem steps_at64 (label : BootLabel64) (placed : machine.pc = places.addressOf label) :
    places.code.Steps machine (places.at_ label machine) :=
  Relation.ReflTransGen.single (step_at64 label placed)

theorem start_at (low : machine.el ≠ 0) :
    (places.at_ .start machine).pc =
        places.addressOf (if machine.mpidr &&& 3 = 0 then .checkIfEl3 else .haltOthers) ∧
      SameState machine (places.at_ .start machine) := by
  have readable := mayUse_one low (show SystemRegister.mpidrEl1.level = 1 from rfl)
  constructor
  · simp [BootPlaces64.at_, bootBlock64, readable]
  · refine ⟨⟨?_, ?_, ?_, ?_, ?_, ?_, ?_, ?_⟩, ?_⟩ <;> simp [BootPlaces64.at_, bootBlock64, readable]

theorem levelBits (el : Level) :
    ((el.setWidth 64 <<< 2 : Word) &&& BitVec.ofNat 64 12) >>> 2 = el.setWidth 64 := by
  revert el
  decide

theorem setWidth_eq_iff (el : Level) :
    ((el.setWidth 64 : Word) = BitVec.ofNat 64 2 <-> el = BitVec.ofNat 2 2) ∧
      ((el.setWidth 64 : Word) = BitVec.ofNat 64 3 <-> el = BitVec.ofNat 2 3) := by
  revert el
  decide

theorem checkIfEl3_at (low : machine.el ≠ 0) :
    (places.at_ .checkIfEl3 machine).pc =
        places.addressOf (if machine.el = 3 then .stepDownEl3 else .checkIfEl2) ∧
      (places.at_ .checkIfEl3 machine).x 0 = machine.el.setWidth 64 ∧
      SameState machine (places.at_ .checkIfEl3 machine) := by
  have readable := mayUse_one low (show SystemRegister.currentEl.level = 1 from rfl)
  have bits := levelBits machine.el
  have isThree := (setWidth_eq_iff machine.el).2
  refine ⟨?_, ?_, ?_⟩
  · simp [BootPlaces64.at_, bootBlock64, readable, bits, isThree]
  · simp [BootPlaces64.at_, bootBlock64, readable, bits]
  · refine ⟨⟨?_, ?_, ?_, ?_, ?_, ?_, ?_, ?_⟩, ?_⟩ <;> simp [BootPlaces64.at_, bootBlock64, readable]

theorem checkIfEl2_at (level : machine.x 0 = machine.el.setWidth 64) :
    (places.at_ .checkIfEl2 machine).pc =
        places.addressOf (if machine.el = 2 then .stepDownEl2 else .zeroOutBss) ∧
      SameState machine (places.at_ .checkIfEl2 machine) := by
  have isTwo := (setWidth_eq_iff machine.el).1
  constructor
  · simp [BootPlaces64.at_, bootBlock64, level, isTwo]
  · refine ⟨⟨?_, ?_, ?_, ?_, ?_, ?_, ?_, ?_⟩, ?_⟩ <;> simp [BootPlaces64.at_, bootBlock64]

/-- The exception return from EL3 leads to EL2 with interrupts masked. -/
theorem stepDownEl3_at (level : machine.el = 3) :
    (places.at_ .stepDownEl3 machine).pc = places.addressOf .stepDownEl2 ∧
      (places.at_ .stepDownEl3 machine).el = 2 ∧
      (places.at_ .stepDownEl3 machine).hcr = machine.hcr ∧
      (places.at_ .stepDownEl3 machine).trapped = machine.trapped ∧
      (places.at_ .stepDownEl3 machine).mpidr = machine.mpidr ∧
      (places.at_ .stepDownEl3 machine).memory = machine.memory := by
  simp [BootPlaces64.at_, bootBlock64, level, Machine.mayUse, SystemRegister.level,
    Machine.exceptionReturn, Machine.mayReturn]

/-- The way down from EL2, through the two functions that it calls. -/
theorem stepDownEl2_steps (placed : machine.pc = places.addressOf .stepDownEl2)
    (level : machine.el = 2) (below : machine.hcr.getLsbD 27 = false) :
    Exists fun after => places.code.Steps machine after ∧
      after.pc = places.addressOf .zeroOutBss ∧ after.el = 1 ∧ after.daif = 15 ∧
      after.spSel = true ∧ after.vbar = places.vtable ∧ after.spEl1 = kernelSp64 ∧
      after.trapped = machine.trapped ∧ after.mpidr = machine.mpidr ∧
      after.memory = machine.memory := by
  have belowBit : machine.hcr[27] = false := by
    simpa using below
  let allowed := places.at_ .stepDownEl2 machine
  have allowedFacts : allowed.pc = places.addressOf .setupVtable ∧ allowed.el = 2 ∧
      allowed.x 30 = places.addressOf .stepDownEl2Stacks ∧ allowed.hcr[31] = true ∧
      allowed.hcr[27] = false ∧
      allowed.trapped = machine.trapped ∧ allowed.mpidr = machine.mpidr ∧
      allowed.memory = machine.memory := by
    simp [allowed, BootPlaces64.at_, bootBlock64, Machine.mayUse, SystemRegister.level, level, belowBit]
  rcases allowedFacts with ⟨allowedPc, allowedEl, allowedBack, allowedHcr, allowedBelow, allowedRest⟩
  let tabled := places.at_ .setupVtable allowed
  have tabledFacts : tabled.pc = places.addressOf .stepDownEl2Stacks ∧ tabled.el = 2 ∧
      tabled.vbar = places.vtable ∧ tabled.hcr[31] = true ∧ tabled.hcr[27] = false ∧
      tabled.trapped = machine.trapped ∧ tabled.mpidr = machine.mpidr ∧
      tabled.memory = machine.memory := by
    simpa [tabled, BootPlaces64.at_, bootBlock64, Machine.mayUse, SystemRegister.level, allowedEl,
      allowedBack, allowedHcr, allowedBelow] using allowedRest
  rcases tabledFacts with ⟨tabledPc, tabledEl, tabledVbar, tabledHcr, tabledBelow, tabledRest⟩
  let calling := places.at_ .stepDownEl2Stacks tabled
  have callingFacts : calling.pc = places.addressOf .setupStacks ∧ calling.el = 2 ∧
      calling.x 30 = places.addressOf .stepDownEl2Return ∧ calling.vbar = places.vtable ∧
      calling.hcr[31] = true ∧ calling.hcr[27] = false ∧
      calling.trapped = machine.trapped ∧ calling.mpidr = machine.mpidr ∧
      calling.memory = machine.memory := by
    simpa [calling, BootPlaces64.at_, bootBlock64, tabledEl, tabledVbar, tabledHcr, tabledBelow]
      using tabledRest
  rcases callingFacts with ⟨callingPc, callingEl, callingBack, callingVbar, callingHcr, callingBelow,
    callingRest⟩
  let stacked := places.at_ .setupStacks calling
  have stackedFacts : stacked.pc = places.addressOf .stepDownEl2Return ∧ stacked.el = 2 ∧
      stacked.spEl1 = kernelSp64 ∧ stacked.vbar = places.vtable ∧ stacked.hcr[31] = true ∧
      stacked.hcr[27] = false ∧
      stacked.trapped = machine.trapped ∧ stacked.mpidr = machine.mpidr ∧
      stacked.memory = machine.memory := by
    simpa [stacked, BootPlaces64.at_, bootBlock64, Machine.mayUse, SystemRegister.level, callingEl,
      callingBack, callingVbar, callingHcr, callingBelow] using callingRest
  rcases stackedFacts with ⟨stackedPc, stackedEl, stackedSp, stackedVbar, stackedHcr, stackedBelow,
    stackedRest⟩
  let returned := places.at_ .stepDownEl2Return stacked
  have returnedFacts : returned.pc = places.addressOf .zeroOutBss ∧ returned.el = 1 ∧
      returned.daif = 15 ∧ returned.spSel = true ∧ returned.vbar = places.vtable ∧
      returned.spEl1 = kernelSp64 ∧ returned.trapped = machine.trapped ∧
      returned.mpidr = machine.mpidr ∧ returned.memory = machine.memory := by
    simpa [returned, BootPlaces64.at_, bootBlock64, Machine.mayUse, SystemRegister.level,
      Machine.exceptionReturn, Machine.mayReturn, stackedEl, stackedHcr, stackedBelow, stackedVbar,
      stackedSp] using stackedRest
  refine ⟨returned, ?_, returnedFacts⟩
  exact ((((steps_at64 _ placed).tail
    (step_at64 _ allowedPc)).tail (step_at64 _ tabledPc)).tail (step_at64 _ callingPc)).tail
      (step_at64 _ stackedPc)

/-! ## Zeroing the variables -/

/-- Zeros in a row of double words. -/
def zeroed (start : Word) : Nat -> (Word -> Word) -> Word -> Word
  | 0, memory => memory
  | count + 1, memory => zeroed (start + 8) count (Function.update memory start 0)

theorem zeroed_of_zero {start address : Word} {count : Nat} {memory : Word -> Word}
    (zero : memory address = 0) : zeroed start count memory address = 0 := by
  induction count generalizing start memory with
  | zero => exact zero
  | succ count inductionHypothesis =>
      apply inductionHypothesis
      by_cases same : address = start
      · rw [same, Function.update_self]
      · rw [Function.update_of_ne same, zero]

theorem zeroed_at {start : Word} {count index : Nat} {memory : Word -> Word} (below : index < count) :
    zeroed start count memory (start + BitVec.ofNat 64 (8 * index)) = 0 := by
  induction count generalizing start index memory with
  | zero => cases below
  | succ count inductionHypothesis =>
      cases index with
      | zero =>
          rw [show start + BitVec.ofNat 64 (8 * 0) = start from BitVec.add_zero _]
          refine @zeroed_of_zero (start + 8) start count _ ?_
          rw [Function.update_self]
      | succ index =>
          have next : start + BitVec.ofNat 64 (8 * (index + 1)) =
              start + 8 + BitVec.ofNat 64 (8 * index) := by
            rw [Nat.mul_add, BitVec.ofNat_add]
            bv_omega
          rw [next]
          exact inductionHypothesis (Nat.lt_of_succ_lt_succ below)

theorem zeroed_outside {start address : Word} {count : Nat} {memory : Word -> Word}
    (outside : forall index, index < count -> address ≠ start + BitVec.ofNat 64 (8 * index)) :
    zeroed start count memory address = memory address := by
  induction count generalizing start memory with
  | zero => rfl
  | succ count inductionHypothesis =>
      have first : address ≠ start := by
        have notFirst := outside 0 (Nat.zero_lt_succ _)
        rwa [show start + BitVec.ofNat 64 (8 * 0) = start from BitVec.add_zero _] at notFirst
      rw [zeroed, inductionHypothesis, Function.update_of_ne first]
      intro index below
      have next : start + 8 + BitVec.ofNat 64 (8 * index) =
          start + BitVec.ofNat 64 (8 * (index + 1)) := by
        rw [Nat.mul_add, BitVec.ofNat_add]
        bv_omega
      rw [next]
      exact outside (index + 1) (Nat.succ_lt_succ below)

theorem ckzbssbnds_at :
    (places.at_ .ckzbssbnds machine).pc =
        places.addressOf (if machine.x 2 = machine.x 1 then .preinit else .zbss) ∧
      (places.at_ .ckzbssbnds machine).x 1 = machine.x 1 ∧
      (places.at_ .ckzbssbnds machine).x 2 = machine.x 2 ∧
      SameState machine (places.at_ .ckzbssbnds machine) := by
  refine ⟨?_, ?_, ?_, ?_⟩
  · have equal : machine.x 2 - machine.x 1 = 0 <-> machine.x 2 = machine.x 1 := by
      constructor <;> intro same <;> bv_omega
    simp only [BootPlaces64.at_, bootBlock64, Machine.runBlock, Machine.executeAll, Machine.execute,
      Machine.leave, Machine.write, Function.update_self, equal]
  · simp [BootPlaces64.at_, bootBlock64]
  · simp [BootPlaces64.at_, bootBlock64]
  · refine ⟨⟨?_, ?_, ?_, ?_, ?_, ?_, ?_, ?_⟩, ?_⟩ <;> simp [BootPlaces64.at_, bootBlock64]

theorem zbss_at :
    (places.at_ .zbss machine).pc = places.addressOf .ckzbssbnds ∧
      (places.at_ .zbss machine).x 1 = machine.x 1 + 8 ∧
      (places.at_ .zbss machine).x 2 = machine.x 2 ∧
      SameLevel machine (places.at_ .zbss machine) ∧
      (places.at_ .zbss machine).memory = Function.update machine.memory (machine.x 1) 0 := by
  refine ⟨rfl, ?_, ?_, ⟨rfl, rfl, rfl, rfl, rfl, rfl, rfl, rfl⟩, rfl⟩
  · simp [BootPlaces64.at_, bootBlock64]
  · simp [BootPlaces64.at_, bootBlock64]

/-- The loop, by the number of double words that are left. -/
theorem zeroing_steps (count : Nat) (placed : machine.pc = places.addressOf .ckzbssbnds)
    (fits : 8 * count < 2 ^ 64) (left : machine.x 2 = machine.x 1 + BitVec.ofNat 64 (8 * count)) :
    Exists fun after => places.code.Steps machine after ∧
      after.pc = places.addressOf .preinit ∧ SameLevel machine after ∧
      after.memory = zeroed (machine.x 1) count machine.memory := by
  rcases @ckzbssbnds_at places machine with ⟨pc, first, second, same⟩
  induction count generalizing machine with
  | zero =>
      refine ⟨_, steps_at64 _ placed, ?_, same.toSameLevel,
        same.memory⟩
      rw [left, if_pos (BitVec.add_zero _)] at pc
      exact pc
  | succ count inductionHypothesis =>
      have different : machine.x 2 ≠ machine.x 1 := by
        intro equal
        rw [left] at equal
        have whole : (BitVec.ofNat 64 (8 * (count + 1))).toNat = 8 * (count + 1) := by
          rw [BitVec.toNat_ofNat, Nat.mod_eq_of_lt fits]
        bv_omega
      rw [if_neg different] at pc
      let compared := places.at_ .ckzbssbnds machine
      rcases @zbss_at places compared with ⟨storedPc, storedFirst, storedSecond, storedSame, memory⟩
      let stored := places.at_ .zbss compared
      have leftThere : stored.x 2 = stored.x 1 + BitVec.ofNat 64 (8 * count) := by
        rw [storedFirst, storedSecond, first, second, left, Nat.mul_add, BitVec.ofNat_add]
        bv_omega
      rcases @ckzbssbnds_at places stored with ⟨againPc, againFirst, againSecond, againSame⟩
      rcases inductionHypothesis storedPc (by omega) leftThere againPc againFirst againSecond
        againSame with ⟨after, steps, afterPc, afterSame, afterMemory⟩
      refine ⟨after, ?_, afterPc, (same.toSameLevel.trans storedSame).trans afterSame, ?_⟩
      · have two : places.code.Steps machine stored :=
          (steps_at64 _ placed).tail (step_at64 _ pc)
        exact Relation.ReflTransGen.trans two steps
      · rw [afterMemory, storedFirst, memory, first, same.memory]
        rfl

/-- How far there is to go, where every round goes on by 8. -/
def ZeroesOn (places : BootPlaces64) (machine : Machine) : Prop :=
  (machine.pc = places.addressOf .ckzbssbnds ∨ machine.pc = places.addressOf .zbss) ∧
    (machine.x 2 - machine.x 1).toNat % 8 ≠ 0

/-- A size that is no multiple of 8 is never reached. -/
theorem zeroesOn_step (on : ZeroesOn places before) (taken : places.code.step before = some after) :
    ZeroesOn places after := by
  rcases on with ⟨placed | placed, odd⟩
  · rcases @ckzbssbnds_at places before with ⟨pc, first, second, _⟩
    rw [step_at64 _ placed] at taken
    cases taken
    have different : before.x 2 ≠ before.x 1 := by
      intro equal
      rw [equal, BitVec.sub_self] at odd
      exact odd rfl
    rw [if_neg different] at pc
    refine ⟨.inr pc, ?_⟩
    rwa [first, second]
  · rcases @zbss_at places before with ⟨pc, first, second, _⟩
    rw [step_at64 _ placed] at taken
    cases taken
    refine ⟨.inl pc, ?_⟩
    rw [first, second]
    bv_omega

theorem zeroesOn_steps (on : ZeroesOn places before) (steps : places.code.Steps before after) :
    ZeroesOn places after := by
  induction steps with
  | refl => exact on
  | tail _ last inductionHypothesis => exact zeroesOn_step inductionHypothesis last

theorem addressOf_injective64 {label other : BootLabel64}
    (same : places.addressOf label = places.addressOf other) : label = other := by
  have labels := congrArg places.labelAt same
  rwa [places.labelAt_addressOf, places.labelAt_addressOf, Option.some.injEq] at labels

/-- Zeroing comes to an end just where the size is a multiple of 8. -/
theorem zeroing_ends_iff (placed : machine.pc = places.addressOf .ckzbssbnds) :
    (Exists fun after => places.code.Steps machine after ∧ after.pc = places.addressOf .preinit) <->
      8 ∣ (machine.x 2 - machine.x 1).toNat := by
  constructor
  · rintro ⟨after, steps, there⟩
    by_contra odd
    have start : ZeroesOn places machine :=
      ⟨.inl placed, fun whole => odd (Nat.dvd_of_mod_eq_zero whole)⟩
    rcases (zeroesOn_steps start steps).1 with still | still
    · cases addressOf_injective64 (there.symm.trans still)
    · cases addressOf_injective64 (there.symm.trans still)
  · rintro ⟨count, size⟩
    have left : machine.x 2 = machine.x 1 + BitVec.ofNat 64 (8 * count) := by
      rw [← size, BitVec.ofNat_toNat]
      bv_omega
    have fits : 8 * count < 2 ^ 64 := size ▸ BitVec.isLt _
    rcases zeroing_steps count placed fits left with ⟨after, steps, there, _⟩
    exact ⟨after, steps, there⟩

/-! ## The whole way -/

/-- A core at EL1.  One that starts there keeps the vector table and the stack pointer that
it had. -/
structure Lowered64 (places : BootPlaces64) (before after : Machine) : Prop where
  el : after.el = 1
  trapped : after.trapped = before.trapped
  set : before.el ≠ 1 -> after.vbar = places.vtable ∧ after.spEl1 = kernelSp64 ∧
    after.spSel = true ∧ after.daif = 15
  kept : before.el = 1 -> after.vbar = before.vbar ∧ after.spEl1 = before.spEl1 ∧
    after.spSel = before.spSel ∧ after.daif = before.daif

theorem Lowered64.congr {middle : Machine} (lowered : Lowered64 places before middle)
    (same : SameLevel middle after) : Lowered64 places before after where
  el := same.el.trans lowered.el
  trapped := same.trapped.trans lowered.trapped
  set := fun other => by
    rw [same.vbar, same.spEl1, same.spSel, same.daif]
    exact lowered.set other
  kept := fun one => by
    rw [same.vbar, same.spEl1, same.spSel, same.daif]
    exact lowered.kept one

/-- What `init` finds.  The variables are zero, and the rest of the memory is as it was. -/
structure Booted64 (places : BootPlaces64) (before after : Machine) : Prop
    extends Lowered64 places before after where
  pc : after.pc = places.init
  zero : forall index, index < (places.bssEnd - places.bssStart).toNat / 8 ->
    after.memory (places.bssStart + BitVec.ofNat 64 (8 * index)) = 0
  same : forall address, (forall index, index < (places.bssEnd - places.bssStart).toNat / 8 ->
    address ≠ places.bssStart + BitVec.ofNat 64 (8 * index)) ->
      after.memory address = before.memory address

theorem lowered_steps64 (placed : machine.pc = places.addressOf .start) (low : machine.el ≠ 0)
    (first : machine.mpidr &&& 3 = 0) (below : machine.el ≠ 1 -> machine.hcr.getLsbD 27 = false) :
    Exists fun after => places.code.Steps machine after ∧ Lowered64 places machine after ∧
      after.pc = places.addressOf .zeroOutBss ∧ after.memory = machine.memory := by
  rcases @start_at places machine low with ⟨startPc, startSame⟩
  rw [if_pos first] at startPc
  let started := places.at_ .start machine
  have startedLow : started.el ≠ 0 := by rwa [startSame.el]
  rcases @checkIfEl3_at places started startedLow with ⟨checkPc, level, checkSame⟩
  let checked := places.at_ .checkIfEl3 started
  have steps : places.code.Steps machine checked :=
    (steps_at64 _ placed).tail (step_at64 _ startPc)
  have same : SameLevel machine checked := startSame.toSameLevel.trans checkSame.toSameLevel
  have memory : checked.memory = machine.memory := checkSame.memory.trans startSame.memory
  rw [startSame.el] at checkPc
  by_cases three : machine.el = 3
  · rw [if_pos three] at checkPc
    rcases @stepDownEl3_at places checked (same.el.trans three) with
      ⟨pc, el, hcr, trapped, _, lowerMemory⟩
    have belowToo : (places.at_ .stepDownEl3 checked).hcr.getLsbD 27 = false := by
      rw [hcr, same.hcr]
      refine below fun one => ?_
      rw [three] at one
      exact absurd one (by decide)
    rcases stepDownEl2_steps pc el belowToo with
      ⟨after, further, afterPc, afterEl, daif, spSel, vbar, spEl1, afterTrapped, _, afterMemory⟩
    refine ⟨after, Relation.ReflTransGen.trans (steps.tail (step_at64 _ checkPc)) further, ?_,
      afterPc, afterMemory.trans (lowerMemory.trans memory)⟩
    exact
      { el := afterEl
        trapped := afterTrapped.trans (trapped.trans same.trapped)
        set := fun _ => ⟨vbar, spEl1, spSel, daif⟩
        kept := fun one => by
          rw [three] at one
          exact absurd one (by decide) }
  · rw [if_neg three] at checkPc
    have levelThere : checked.x 0 = checked.el.setWidth 64 := by
      rw [level, checkSame.el]
    rcases @checkIfEl2_at places checked levelThere with ⟨pc, secondSame⟩
    rw [same.el] at pc
    have stepsToo := steps.tail (step_at64 _ checkPc)
    by_cases two : machine.el = 2
    · rw [if_pos two] at pc
      have belowToo : (places.at_ .checkIfEl2 checked).hcr.getLsbD 27 = false := by
        rw [secondSame.hcr, same.hcr]
        refine below fun one => ?_
        rw [two] at one
        exact absurd one (by decide)
      rcases stepDownEl2_steps pc (secondSame.el.trans (same.el.trans two)) belowToo with
        ⟨after, further, afterPc, afterEl, daif, spSel, vbar, spEl1, afterTrapped, _, afterMemory⟩
      refine ⟨after, Relation.ReflTransGen.trans stepsToo further, ?_, afterPc,
        afterMemory.trans (secondSame.memory.trans memory)⟩
      exact
        { el := afterEl
          trapped := afterTrapped.trans (secondSame.trapped.trans same.trapped)
          set := fun _ => ⟨vbar, spEl1, spSel, daif⟩
          kept := fun one => by
            rw [two] at one
            exact absurd one (by decide) }
    · rw [if_neg two] at pc
      have one : machine.el = 1 := by
        generalize machine.el = el at low three two
        revert el
        decide
      have whole := same.trans secondSame.toSameLevel
      refine ⟨_, stepsToo, ?_, pc, secondSame.memory.trans memory⟩
      exact
        { el := whole.el.trans one
          trapped := whole.trapped
          set := fun other => absurd one other
          kept := fun _ => ⟨whole.vbar, whole.spEl1, whole.spSel, whole.daif⟩ }

/-- The first core comes to `init`, from each of the three levels. -/
theorem boot_leaves (placed : machine.pc = places.addressOf .start) (low : machine.el ≠ 0)
    (first : machine.mpidr &&& 3 = 0) (below : machine.el ≠ 1 -> machine.hcr.getLsbD 27 = false)
    (whole : 8 ∣ (places.bssEnd - places.bssStart).toNat) :
    Exists fun after => places.code.Leaves machine after ∧ Booted64 places machine after := by
  rcases lowered_steps64 placed low first below with
    ⟨lowered, lowering, isLowered, loweredPc, loweredMemory⟩
  let zeroing := places.at_ .zeroOutBss lowered
  have zeroingX : zeroing.x 1 = places.bssStart ∧ zeroing.x 2 = places.bssEnd := by
    simp [zeroing, BootPlaces64.at_, bootBlock64]
  rcases zeroingX with ⟨firstX, secondX⟩
  rcases whole with ⟨count, size⟩
  have left : zeroing.x 2 = zeroing.x 1 + BitVec.ofNat 64 (8 * count) := by
    rw [firstX, secondX, ← size, BitVec.ofNat_toNat]
    bv_omega
  have zeroingPc : zeroing.pc = places.addressOf .ckzbssbnds := rfl
  rcases zeroing_steps count zeroingPc (size ▸ BitVec.isLt _) left with
    ⟨ready, rounds, readyPc, same, memory⟩
  have counted : (places.bssEnd - places.bssStart).toNat / 8 = count := by
    rw [size, Nat.mul_div_cancel_left _ (by decide)]
  have steps : places.code.Steps machine (places.at_ .preinit ready) :=
    ((lowering.tail (step_at64 _ loweredPc)).trans rounds).tail (step_at64 _ readyPc)
  have afterPc : (places.at_ .preinit ready).pc = places.init := by
    simp [BootPlaces64.at_, bootBlock64]
  refine ⟨places.at_ .preinit ready, ⟨steps, ?_⟩, ?_⟩
  · change places.labelAt (places.at_ .preinit ready).pc = none
    rw [afterPc]
    exact places.labelAt_init
  · have there : (places.at_ .preinit ready).memory =
        zeroed places.bssStart ((places.bssEnd - places.bssStart).toNat / 8) machine.memory := by
      change ready.memory = _
      rw [memory, firstX, counted]
      exact congrArg (zeroed places.bssStart count) loweredMemory
    have entered : SameLevel lowered zeroing := ⟨rfl, rfl, rfl, rfl, rfl, rfl, rfl, rfl⟩
    have called : SameLevel ready (places.at_ .preinit ready) :=
      ⟨rfl, rfl, rfl, rfl, rfl, rfl, rfl, rfl⟩
    exact
      { toLowered64 := isLowered.congr ((entered.trans same).trans called)
        pc := afterPc
        zero := fun index below => by
          rw [there]
          exact zeroed_at below
        same := fun address outside => by
          rw [there]
          exact zeroed_outside outside }

/-! ## All cores -/

/-- Where a core other than the first is after a number of steps: on the way to the loop in
which it is halted, which takes two, and from then on in it. -/
def parkedAt64 : Nat -> BootLabel64
  | 0 => .start
  | 1 => .haltOthers
  | _ => .halt

structure Parked64 (places : BootPlaces64) (count : Nat) (machine : Machine) : Prop where
  other : machine.mpidr &&& 3 ≠ 0
  low : machine.el ≠ 0
  pc : machine.pc = places.addressOf (parkedAt64 count)

theorem parks64 (places : BootPlaces64) : Cores.Parks sharedMemory places.code (Parked64 places) where
  inside := fun count machine parked outside => by
    have none_ : places.labelAt machine.pc = none := outside
    rw [parked.pc, places.labelAt_addressOf] at none_
    cases none_
  step := fun count before after parked taken => by
    rw [step_at64 _ parked.pc] at taken
    cases taken
    match count with
    | 0 =>
        rcases @start_at places before parked.low with ⟨pc, same⟩
        rw [if_neg parked.other] at pc
        exact ⟨⟨same.mpidr ▸ parked.other, same.el ▸ parked.low, pc⟩, same.memory⟩
    | 1 => exact ⟨⟨parked.other, parked.low, by simp [BootPlaces64.at_, bootBlock64, parkedAt64]⟩, rfl⟩
    | count + 2 =>
        exact ⟨⟨parked.other, parked.low, by simp [BootPlaces64.at_, bootBlock64, parkedAt64]⟩, rfl⟩
  withMemory := fun _ _ _ parked => ⟨parked.other, parked.low, parked.pc⟩

/-- The ends of the variables are those of the linker. -/
structure BootPlaces64.Linked (places : BootPlaces64) (sections : Sections) : Prop where
  bssStart : places.bssStart = BitVec.ofNat 64 sections.bssStart
  bssEnd : places.bssEnd = BitVec.ofNat 64 sections.bssEnd
  fits : sections.bssEnd < 2 ^ 64

theorem BootPlaces64.Linked.whole {sections : Sections} (linked : places.Linked sections) :
    8 ∣ (places.bssEnd - places.bssStart).toNat := by
  rw [linked.bssStart, linked.bssEnd, sections.toNat_bssSize linked.fits]
  exact Nat.dvd_trans (by decide) sections.dvd_bssSize

/-- All cores start where the kernel does, at EL1 or above, and one of them is core 0.  EL2
does not stand in for EL1 on it. -/
structure PoweredOn64 {Index : Type} (places : BootPlaces64) (first : Index)
    (cores : Cores Index Machine (Word -> Word)) : Prop where
  placed : forall index, (cores.core index).pc = places.addressOf .start
  low : forall index, (cores.core index).el ≠ 0
  isFirst : (cores.core first).mpidr &&& 3 = 0
  below : (cores.core first).el ≠ 1 -> (cores.core first).hcr.getLsbD 27 = false
  others : forall index, index ≠ first -> (cores.core index).mpidr &&& 3 ≠ 0

/-- Whatever the order in which the cores run, all but the first are halted by their second
step and never change anything.  The first one can always go on until it calls `init`, after
a number of steps that does not depend on the others.  It is then at EL1, with the variables
zeroed and the rest of the memory as it was, and has a vector table and a stack if it did not
start at EL1. -/
theorem cores_boot64 {Index : Type} [DecidableEq Index] (places : BootPlaces64)
    (sections : Sections) (linked : places.Linked sections) (first : Index)
    {start : Cores Index Machine (Word -> Word)} (poweredOn : PoweredOn64 places first start) :
    Exists fun rounds => Exists fun booted =>
      Booted64 places (start.view sharedMemory first) booted ∧
      forall acts state, Reaches (Cores.Step sharedMemory places.code) start acts state ->
        Cores.Boots sharedMemory places.code (Parked64 places) first rounds booted acts state := by
  have placed : (start.view sharedMemory first).pc = places.addressOf .start :=
    poweredOn.placed first
  rcases boot_leaves placed (poweredOn.low first) poweredOn.isFirst poweredOn.below linked.whole with
    ⟨booted, leaves, facts⟩
  rcases Cores.boots_of_leaves (parks64 places)
    (fun index other => ⟨poweredOn.others index other, poweredOn.low index, poweredOn.placed index⟩)
    leaves with ⟨rounds, boots⟩
  exact ⟨rounds, booted, facts, boots⟩

def bootLabels64 : List BootLabel64 :=
  [.start, .haltOthers, .checkIfEl3, .stepDownEl3, .checkIfEl2, .stepDownEl2, .stepDownEl2Stacks,
    .stepDownEl2Return, .zeroOutBss, .zbss, .ckzbssbnds, .preinit, .halt, .setupVtable, .setupStacks]

/-- The blocks one behind the other, and a kernel of two pages. -/
def rowPlaces64 : BootPlaces64 where
  addressOf := fun label => BitVec.ofNat 64 (codeStart + 4 * bootLabels64.idxOf label)
  labelAt := fun address => bootLabels64.find? fun label =>
    BitVec.ofNat 64 (codeStart + 4 * bootLabels64.idxOf label) = address
  labelAt_addressOf := fun label => by
    cases label <;> decide
  init := 0xb800
  labelAt_init := by decide
  vtable := 0xc000
  bssStart := 0xd000
  bssEnd := 0xe000

theorem rowPlaces64_linked : rowPlaces64.Linked ⟨4096, 4096, 0, 4096⟩ where
  bssStart := rfl
  bssEnd := rfl
  fits := by decide

/-- Two cores at one level. -/
def twoCores64 (el : Level) : Cores Bool Machine (Word -> Word) where
  core := fun isOther =>
    { x := fun _ => 0, spEl1 := 0, elr := fun _ => 0, spsr := fun _ => 0, el := el, daif := 0
      zero := false, spSel := true, mpidr := if isOther then 1 else 0, scr := 0, hcr := 0, vbar := 0
      trapped := false, pc := rowPlaces64.addressOf .start, memory := fun _ => 7 }
  memory := fun _ => 7

theorem twoCores64_poweredOn {el : Level} (low : el ≠ 0) :
    PoweredOn64 rowPlaces64 false (twoCores64 el) where
  placed := fun _ => rfl
  low := fun _ => low
  isFirst := by
    change (0 : Word) &&& 3 = 0
    decide
  below := fun _ => by
    change (0 : Word).getLsbD 27 = false
    decide
  others := fun isOther other => by
    cases isOther with
    | false => exact absurd rfl other
    | true =>
        change (1 : Word) &&& 3 ≠ 0
        decide

/-- Two cores that come from one level. -/
def TwoBoot64 (el : Level) : Prop :=
  Exists fun rounds => Exists fun booted =>
    Booted64 rowPlaces64 ((twoCores64 el).view sharedMemory false) booted ∧
    forall acts state, Reaches (Cores.Step sharedMemory rowPlaces64.code) (twoCores64 el) acts state ->
      Cores.Boots sharedMemory rowPlaces64.code (Parked64 rowPlaces64) false rounds booted acts state

theorem cores_boot64_two : TwoBoot64 1 ∧ TwoBoot64 2 ∧ TwoBoot64 3 :=
  ⟨cores_boot64 rowPlaces64 _ rowPlaces64_linked false (twoCores64_poweredOn (by decide)),
    cores_boot64 rowPlaces64 _ rowPlaces64_linked false (twoCores64_poweredOn (by decide)),
    cores_boot64 rowPlaces64 _ rowPlaces64_linked false (twoCores64_poweredOn (by decide))⟩

/-- A core in the loop, with half a double word to go. -/
def halfway64 : Machine :=
  { (twoCores64 3).core false with
    x := Function.update (fun _ => 0) 2 4, pc := rowPlaces64.addressOf .ckzbssbnds }

theorem zeroing_ends_iff_halfway :
    ¬ Exists fun after => rowPlaces64.code.Steps halfway64 after ∧
      after.pc = rowPlaces64.addressOf .preinit := by
  intro ends
  have whole := (@zeroing_ends_iff rowPlaces64 halfway64 rfl).mp ends
  exact absurd whole (by decide)

end Kernel
end Pinyon
