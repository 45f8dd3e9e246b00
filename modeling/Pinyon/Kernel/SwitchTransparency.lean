import Pinyon.Kernel.TaskSuspension
import Pinyon.Library.History

namespace Pinyon
namespace Kernel

open Library Library.Aarch64

/-!
# Switching between many tasks

Each task has its `Registers` and a kernel stack.  What a task that is switched out
needs of the two stays as it is until the task is switched to again, whatever runs
in between: that is the invariant over all tasks.
-/

/-- A `bool` in a register. -/
def boolWord (flag : Bool) : Word :=
  if flag then 1 else 0

/-- Where the tasks are.  The kernel stacks, as the double words in them, are apart
from each other and from all `Registers`. -/
structure TaskPlaces (Key : Type) where
  registers : Key -> Word
  kernelStack : Key -> Set Word
  isUser : Key -> Bool
  present : forall key, registers key ≠ 0
  stacksApart : forall key other, key ≠ other -> Disjoint (kernelStack key) (kernelStack other)
  registersApart : forall key other, key ≠ other ->
    Disjoint (registersBlock (registers key)) (registersBlock (registers other))
  registersOffStacks : forall key other,
    Disjoint (registersBlock (registers key)) (kernelStack other)

/-- What may be switched to.  A task that was switched out goes on from the state in
which it called `task_switch`. -/
inductive Standing where
  | new
  | switchedOut (call : Machine)
  /-- The task is running, or it has exited. -/
  | notWaiting

structure Switching (Key : Type) where
  machine : Machine
  running : Option Key
  standing : Key -> Standing

inductive SwitchEvent (Key : Type) where
  | work
  | switchTo (next : Key)
  | start (next : Key)

variable {Key : Type} {layout : Layout SwitchLabel} {places : TaskPlaces Key}

/-- A call of `task_switch` that has the next task started. -/
structure CallsStart (layout : Layout SwitchLabel) (places : TaskPlaces Key)
    (state : Switching Key) (next : Key) : Prop where
  placed : state.machine.pc = layout.addressOf .taskSwitch
  stored : state.machine.x 2 = places.registers next
  isKernelStored : state.machine.x 3 =
    boolWord (isKernelRegisters state.machine.memory (places.registers next))
  waiting : state.standing next ≠ .notWaiting

/-- `start(nullptr, false, tag)`. -/
structure CallsWithout (layout : Layout SwitchLabel) (places : TaskPlaces Key)
    (state : Switching Key) (next : Key) : Prop extends CallsStart layout places state next where
  toSave : state.machine.x 0 = 0

/-- `start(&m_registers, is_kernel_task(), tag)` of the running task, from code outside
of `task_switch`, with its frame on its own kernel stack. -/
structure CallsSwitch (layout : Layout SwitchLabel) (places : TaskPlaces Key)
    (state : Switching Key) (current next : Key) : Prop
    extends CallsStart layout places state next where
  running : state.running = some current
  toSave : state.machine.x 0 = places.registers current
  isKernelSave : state.machine.x 1 =
    boolWord (isKernelRegisters state.machine.memory (places.registers current))
  level : state.machine.el = 1 ∧ state.machine.spSel = true
  onStack : callerFrame state.machine.sp ⊆ places.kernelStack current
  userStack : places.isUser current = true -> state.machine.spEl0 ∉ places.kernelStack current
  caller : layout.labelAt (state.machine.x 30) = none

/-- What the running task, and the interrupts it takes, leave alone: the `Registers` of
the tasks there are, and the kernel stacks of those that were switched out. -/
structure KeepsOthers (places : TaskPlaces Key) (state : Switching Key) (after : Machine) :
    Prop where
  registers : forall key, state.standing key ≠ .notWaiting ∨ state.running = some key ->
    forall address, address ∈ registersBlock (places.registers key) ->
      after.memory address = state.machine.memory address
  kernelStacks : forall key call, state.standing key = .switchedOut call ->
    forall address, address ∈ places.kernelStack key ->
      after.memory address = state.machine.memory address

inductive SwitchStep [DecidableEq Key] (layout : Layout SwitchLabel) (places : TaskPlaces Key) :
    Switching Key -> SwitchEvent Key -> Switching Key -> Prop
  | work {state : Switching Key} {after : Machine} :
      KeepsOthers places state after ->
        SwitchStep layout places state .work { state with machine := after }
  | switchTo {state : Switching Key} {current next : Key} {after : Machine} :
      CallsSwitch layout places state current next -> current ≠ next ->
      Leaves layout (switchBlock layout) state.machine after ->
        SwitchStep layout places state (.switchTo next)
          { machine := after
            running := some next
            standing := Function.update
              (Function.update state.standing current (.switchedOut state.machine)) next .notWaiting }
  | start {state : Switching Key} {next : Key} {after : Machine} :
      CallsWithout layout places state next ->
      Leaves layout (switchBlock layout) state.machine after ->
        SwitchStep layout places state (.start next)
          { machine := after
            running := some next
            standing := Function.update state.standing next .notWaiting }

/-- Every task is new, and none is running yet.  The `Registers` of a user task hold two
different stack pointers, and no task starts inside `task_switch`. -/
structure Created (layout : Layout SwitchLabel) (places : TaskPlaces Key)
    (state : Switching Key) : Prop where
  new : forall key, state.standing key = .new
  idle : state.running = none
  entry : forall key, layout.labelAt (state.machine.memory (places.registers key + 8)) = none
  user : forall key, places.isUser key = true ->
    isKernelRegisters state.machine.memory (places.registers key) = false

/-! ## All tasks -/

/-- The invariant of every run. -/
structure Kept (layout : Layout SwitchLabel) (places : TaskPlaces Key) (state : Switching Key) :
    Prop where
  suspended : forall key call, state.standing key = .switchedOut call ->
    Suspended layout (places.isUser key) state.machine.memory (places.registers key) call ∧
      callerFrame call.sp ⊆ places.kernelStack key
  entry : forall key, state.standing key = .new ->
    layout.labelAt (state.machine.memory (places.registers key + 8)) = none
  user : forall key, state.standing key ≠ .notWaiting ∨ state.running = some key ->
    places.isUser key = true ->
      isKernelRegisters state.machine.memory (places.registers key) = false

variable {state after : Switching Key} {next : Key}

theorem Created.kept (created : Created layout places state) : Kept layout places state where
  suspended := fun key call switchedOut => by
    rw [created.new] at switchedOut
    cases switchedOut
  entry := fun key _ => created.entry key
  user := fun key _ => created.user key

theorem Kept.work (kept : Kept layout places state) {machine : Machine}
    (keeps : KeepsOthers places state machine) :
    Kept layout places { state with machine := machine } where
  suspended := fun key call switchedOut => by
    rcases kept.suspended key call switchedOut with ⟨suspended, onStack⟩
    refine ⟨suspended.congr (keeps.registers key (.inl ?_)) fun address member => ?_, onStack⟩
    · rw [switchedOut]
      exact fun wrong => by cases wrong
    · exact keeps.kernelStacks key call switchedOut address (onStack member)
  entry := fun key new => by
    have unchanged := keeps.registers key (.inl (by
      rw [new]
      exact fun wrong => by cases wrong)) _
      (mem_registersBlock (show (8 : Word) ∈ registerOffsets by decide))
    change layout.labelAt (machine.memory (places.registers key + 8)) = none
    rw [unchanged]
    exact kept.entry key new
  user := fun key present isUser => by
    rw [isKernelRegisters_congr (keeps.registers key present)]
    exact kept.user key present isUser

/-- What the next task finds when it is about to be started. -/
structure Starting (layout : Layout SwitchLabel) (places : TaskPlaces Key) (state : Switching Key)
    (next : Key) : Prop where
  kept : Kept layout places state
  placed : state.machine.pc = layout.addressOf .taskStart
  stored : state.machine.x 2 = places.registers next
  isKernelStored : state.machine.x 3 =
    boolWord (isKernelRegisters state.machine.memory (places.registers next))
  waiting : state.standing next ≠ .notWaiting

theorem CallsWithout.starting (kept : Kept layout places state)
    (calls : CallsWithout layout places state next) :
    Exists fun machine => SwitchSteps layout state.machine machine ∧
      Starting layout places { state with machine := machine } next := by
  rcases skip_steps calls.placed calls.toSave with ⟨machine, steps, placed, x, _, memory⟩
  refine ⟨machine, steps, ?_⟩
  have same : KeepsOthers places state machine :=
    ⟨fun _ _ _ _ => congrFun memory _, fun _ _ _ _ _ => congrFun memory _⟩
  exact
    { kept := kept.work same, placed := placed
      stored := (congrFun x 2).trans calls.stored
      isKernelStored := by
        change machine.x 3 = boolWord (isKernelRegisters machine.memory (places.registers next))
        rw [x, memory]
        exact calls.isKernelStored
      waiting := calls.waiting }

variable [DecidableEq Key]

/-- Saving a task changes nothing that the others depend on. -/
theorem CallsSwitch.starting (kept : Kept layout places state) {current : Key}
    (calls : CallsSwitch layout places state current next) (different : current ≠ next) :
    Exists fun machine => SwitchSteps layout state.machine machine ∧
      Starting layout places
        { machine := machine
          running := state.running
          standing := Function.update state.standing current (.switchedOut state.machine) } next := by
  have isUserSaved : places.isUser current = true -> state.machine.x 1 = 0 := by
    intro isUser
    rw [calls.isKernelSave, kept.user current (.inr calls.running) isUser]
    rfl
  have apart : Disjoint (registersBlock (state.machine.x 0)) (callerFrame state.machine.sp) := by
    rw [calls.toSave]
    exact (places.registersOffStacks current current).mono_right calls.onStack
  have saves : state.machine.x 0 ≠ 0 := by
    rw [calls.toSave]
    exact places.present current
  rcases saving_steps calls.placed saves calls.level.1 calls.caller apart isUserSaved with
    ⟨machine, steps, placed, x2, x3, spEl0, suspended, outside⟩
  rw [calls.toSave] at suspended outside
  have others : forall key, key ≠ current -> forall address,
      address ∈ registersBlock (places.registers key) ∨ address ∈ places.kernelStack key ->
        machine.memory address = state.machine.memory address := by
    intro key other address member
    apply outside
    · intro within
      rcases member with block | stack
      · exact Set.disjoint_left.mp (places.registersApart key current other) block within
      · exact Set.disjoint_left.mp (places.registersOffStacks current key) within stack
    · intro within
      rcases member with block | stack
      · exact Set.disjoint_left.mp (places.registersOffStacks key current) block
          (calls.onStack within)
      · exact Set.disjoint_left.mp (places.stacksApart key current other) stack
          (calls.onStack within)
  have standingOther : forall key, key ≠ current -> Function.update state.standing current
      (.switchedOut state.machine) key = state.standing key :=
    fun key other => Function.update_of_ne other _ _
  refine ⟨machine, steps, ⟨⟨?_, ?_, ?_⟩, placed, x2.trans calls.stored, ?_, ?_⟩⟩
  · intro key call switchedOut
    by_cases same : key = current
    · subst same
      cases (Function.update_self key _ state.standing).symm.trans switchedOut
      exact ⟨suspended, calls.onStack⟩
    · rcases kept.suspended key call ((standingOther key same).symm.trans switchedOut) with
        ⟨before, onStack⟩
      exact ⟨before.congr (fun address member => others key same address (.inl member))
        fun address member => others key same address (.inr (onStack member)), onStack⟩
  · intro key new
    by_cases same : key = current
    · subst same
      cases (Function.update_self key _ state.standing).symm.trans new
    · change layout.labelAt (machine.memory (places.registers key + 8)) = none
      rw [others key same _ (.inl (mem_registersBlock (by decide)))]
      exact kept.entry key ((standingOther key same).symm.trans new)
  · intro key present isUser
    by_cases same : key = current
    · subst same
      change (machine.memory (places.registers key + 16) == machine.memory (places.registers key + 24)) =
        false
      rw [suspended.user isUser, suspended.sp, beq_eq_false_iff_ne]
      intro onKernelStack
      apply calls.userStack isUser
      rw [onKernelStack]
      exact calls.onStack ⟨(.x 2, 0), by decide, (BitVec.add_zero _).symm⟩
    · have before : state.standing key ≠ .notWaiting ∨ state.running = some key :=
        present.imp_left fun waiting => (standingOther key same) ▸ waiting
      change isKernelRegisters machine.memory (places.registers key) = false
      rw [isKernelRegisters_congr fun address member => others key same address (.inl member)]
      exact kept.user key before isUser
  · change machine.x 3 = boolWord (isKernelRegisters machine.memory (places.registers next))
    rw [isKernelRegisters_congr fun address member => others next different.symm address (.inl member),
      x3]
    exact calls.isKernelStored
  · change Function.update state.standing current _ next ≠ _
    rw [standingOther next different.symm]
    exact calls.waiting

omit [DecidableEq Key] in
/-- The next task leaves `task_switch`, to its caller if it was switched out. -/
theorem Starting.leaves (starting : Starting layout places state next) :
    Exists fun after => Leaves layout (switchBlock layout) state.machine after ∧
      after.memory = state.machine.memory ∧
      forall call, state.standing next = .switchedOut call ->
        ReturnedToCaller (places.isUser next) call after := by
  cases standing : state.standing next with
  | new =>
      have entry := starting.kept.entry next standing
      rw [← starting.stored] at entry
      rcases new_steps starting.placed entry with ⟨after, leaves, memory⟩
      exact ⟨after, leaves, memory, fun call wrong => by cases wrong⟩
  | switchedOut call =>
      have suspended := (starting.kept.suspended next call standing).1
      rw [← starting.stored] at suspended
      have user : places.isUser next = true -> state.machine.x 3 = 0 := by
        intro isUser
        rw [starting.isKernelStored, starting.kept.user next (.inl starting.waiting) isUser]
        rfl
      rcases resume_steps starting.placed suspended user with ⟨after, leaves, returned, memory⟩
      refine ⟨after, leaves, memory, fun other same => ?_⟩
      cases same
      exact returned
  | notWaiting => exact absurd standing starting.waiting

/-- Then it is running. -/
theorem Starting.kept_after (starting : Starting layout places state next) {machine : Machine}
    (memory : machine.memory = state.machine.memory) :
    Kept layout places
      { machine := machine
        running := some next
        standing := Function.update state.standing next .notWaiting } := by
  have standingOther : forall key, key ≠ next ->
      Function.update state.standing next .notWaiting key = state.standing key :=
    fun key other => Function.update_of_ne other _ _
  have standingNext : Function.update state.standing next .notWaiting next = .notWaiting :=
    Function.update_self next _ _
  refine ⟨?_, ?_, ?_⟩
  · intro key call switchedOut
    by_cases same : key = next
    · subst same
      cases standingNext.symm.trans switchedOut
    · change Suspended layout _ machine.memory _ _ ∧ _
      rw [memory]
      exact starting.kept.suspended key call ((standingOther key same).symm.trans switchedOut)
  · intro key new
    by_cases same : key = next
    · subst same
      cases standingNext.symm.trans new
    · change layout.labelAt (machine.memory _) = none
      rw [memory]
      exact starting.kept.entry key ((standingOther key same).symm.trans new)
  · intro key present isUser
    change isKernelRegisters machine.memory _ = false
    rw [memory]
    by_cases same : key = next
    · subst same
      exact starting.kept.user key (.inl starting.waiting) isUser
    · refine starting.kept.user key ?_ isUser
      rcases present with waiting | running
      · exact .inl ((standingOther key same) ▸ waiting)
      · exact absurd (Option.some.inj running).symm same

/-! ## Every run -/

/-- A call of `task_switch` by code that runs in a state. -/
def Calls (layout : Layout SwitchLabel) (places : TaskPlaces Key) (state : Switching Key)
    (next : Key) : Prop :=
  CallsWithout layout places state next ∨
    Exists fun current => current ≠ next ∧ CallsSwitch layout places state current next

/-- Control leaves `task_switch` in one way only. -/
theorem Kept.leaves (kept : Kept layout places state) (calls : Calls layout places state next) :
    Exists fun after => Leaves layout (switchBlock layout) state.machine after ∧
      forall call, state.standing next = .switchedOut call ->
        ReturnedToCaller (places.isUser next) call after := by
  rcases calls with without | ⟨current, different, switch⟩
  · rcases without.starting kept with ⟨machine, steps, starting⟩
    rcases starting.leaves with ⟨after, leaves, _, returned⟩
    exact ⟨after, ⟨steps.trans leaves.1, leaves.2⟩, returned⟩
  · rcases switch.starting kept different with ⟨machine, steps, starting⟩
    rcases starting.leaves with ⟨after, leaves, _, returned⟩
    refine ⟨after, ⟨steps.trans leaves.1, leaves.2⟩, fun call switchedOut => returned call ?_⟩
    exact (Function.update_of_ne different.symm _ _).trans switchedOut

theorem Kept.step {event : SwitchEvent Key} (kept : Kept layout places state)
    (stepped : SwitchStep layout places state event after) : Kept layout places after := by
  cases stepped with
  | work keeps => exact kept.work keeps
  | switchTo calls different leaves =>
      rcases calls.starting kept different with ⟨machine, steps, starting⟩
      rcases starting.leaves with ⟨left, leavesToo, memory, _⟩
      cases Leaves.unique ⟨steps.trans leavesToo.1, leavesToo.2⟩ leaves
      exact starting.kept_after memory
  | start calls leaves =>
      rcases calls.starting kept with ⟨machine, steps, starting⟩
      rcases starting.leaves with ⟨left, leavesToo, memory, _⟩
      cases Leaves.unique ⟨steps.trans leavesToo.1, leavesToo.2⟩ leaves
      exact starting.kept_after memory

/-- In every run, a call of `task_switch` comes to its end, and when it switches to a
task that was switched out, that is the return to the caller of this task. -/
theorem task_switch_transparent (layout : Layout SwitchLabel) (places : TaskPlaces Key)
    {start state : Switching Key} {events : List (SwitchEvent Key)} (next : Key)
    (created : Created layout places start)
    (reached : Reaches (SwitchStep layout places) start events state)
    (calls : Calls layout places state next) :
    Exists fun after => Leaves layout (switchBlock layout) state.machine after ∧
      (forall other, Leaves layout (switchBlock layout) state.machine other -> other = after) ∧
      forall call, state.standing next = .switchedOut call ->
        ReturnedToCaller (places.isUser next) call after := by
  have kept := reached.invariant (Kept layout places) created.kept
    fun before event after holds stepped => holds.step stepped
  rcases kept.leaves calls with ⟨after, leaves, returned⟩
  exact ⟨after, leaves, fun other => leaves.unique, returned⟩

/-! ## A task that comes back -/

def switchLabels : List SwitchLabel :=
  [.taskSave, .taskSaveEl1, .taskSaveEl0, .taskSaveUser, .taskSaveRegisters, .taskReturnAgain,
    .taskReturn, .taskSwitch, .taskSwitchSave, .taskSwitchSaved, .taskSwitchAgain, .taskStart,
    .taskStartUser, .taskStartRegisters]

/-- The blocks one behind the other. -/
def rowLayout : Layout SwitchLabel where
  addressOf := fun label => BitVec.ofNat 64 (4 * switchLabels.idxOf label)
  labelAt := fun address =>
    switchLabels.find? fun label => BitVec.ofNat 64 (4 * switchLabels.idxOf label) = address
  labelAt_addressOf := fun label => by
    cases label <;> decide

theorem registersBlock_bound {registers address : Word} (small : registers.toNat < 2 ^ 32)
    (member : address ∈ registersBlock registers) :
    registers.toNat ≤ address.toNat ∧ address.toNat ≤ registers.toNat + 272 := by
  rcases member with ⟨offset, among, rfl⟩
  rcases List.mem_map.mp among with ⟨index, range, rfl⟩
  have below := List.mem_range.mp range
  rw [BitVec.toNat_add, BitVec.toNat_ofNat]
  omega

theorem callerFrame_bound {sp address : Word} (large : 32 ≤ sp.toNat)
    (member : address ∈ callerFrame sp) :
    sp.toNat ≤ address.toNat + 32 ∧ address.toNat < sp.toNat := by
  rcases member with ⟨slot, among, rfl⟩
  have bound : slot.2.toNat ≤ 24 := by
    have all : forall slot, slot ∈ slots callerPairs -> slot.2.toNat ≤ 24 := by decide
    exact all slot among
  rw [BitVec.toNat_add, BitVec.toNat_sub]
  have whole := sp.isLt
  have frame : (32 : Word).toNat = 32 := rfl
  rw [frame]
  omega

/-- A user task and a kernel task. -/
def twoTasks : TaskPlaces Bool where
  registers := fun key => if key then 65536 else 131072
  kernelStack := fun key => callerFrame (if key then 196608 else 262144)
  isUser := id
  present := by decide
  stacksApart := fun key other different => by
    refine Set.disjoint_left.mpr fun address first second => ?_
    have bounds := callerFrame_bound (by cases key <;> decide) first
    have others := callerFrame_bound (by cases other <;> decide) second
    cases key <;> cases other <;> simp_all <;> omega
  registersApart := fun key other different => by
    refine Set.disjoint_left.mpr fun address first second => ?_
    have bounds := registersBlock_bound (by cases key <;> decide) first
    have others := registersBlock_bound (by cases other <;> decide) second
    cases key <;> cases other <;> simp_all <;> omega
  registersOffStacks := fun key other => by
    refine Set.disjoint_left.mpr fun address first second => ?_
    have bounds := registersBlock_bound (by cases key <;> decide) first
    have others := callerFrame_bound (by cases other <;> decide) second
    cases key <;> cases other <;> simp at bounds others <;> omega

/-- The machine of a task that calls `task_switch`. -/
def calling (memory : Word -> Word) (current : Option Bool) (next : Bool) : Machine where
  x := fun index =>
    if index = 0 then (current.map twoTasks.registers).getD 0
    else if index = 1 then
      boolWord (isKernelRegisters memory ((current.map twoTasks.registers).getD 0))
    else if index = 2 then twoTasks.registers next
    else if index = 3 then boolWord (isKernelRegisters memory (twoTasks.registers next))
    else 1
  sp := if current = some true then 196608 else 262144
  spEl0 := 7
  elr := 0
  spsr := 0
  el := 1
  daif := 3
  nzcv := { negative := false, zero := false, carry := false, overflow := false }
  spSel := true
  pc := rowLayout.addressOf .taskSwitch
  memory := memory

/-- The user task has two different stack pointers, and every entry point is `1`. -/
def createdMemory : Word -> Word :=
  fun address => if address = 65536 + 24 then 5 else 1

def createdTasks : Switching Bool where
  machine := calling createdMemory none true
  running := none
  standing := fun _ => .new

theorem createdTasks_created : Created rowLayout twoTasks createdTasks where
  new := fun _ => rfl
  idle := rfl
  entry := by decide
  user := by decide

theorem calling_switch (memory : Word -> Word) (current : Bool) (standing : Bool -> Standing)
    (waiting : standing (!current) ≠ .notWaiting) :
    CallsSwitch rowLayout twoTasks ⟨calling memory (some current) !current, some current, standing⟩
      current !current where
  placed := rfl
  stored := rfl
  isKernelStored := rfl
  waiting := waiting
  running := rfl
  toSave := rfl
  isKernelSave := rfl
  level := ⟨rfl, rfl⟩
  onStack := by
    cases current
    · exact Set.Subset.rfl
    · exact Set.Subset.rfl
  userStack := fun _ member => by
    have bounds := callerFrame_bound (by cases current <;> decide) member
    cases current with
    | false => exact absurd (show 262144 ≤ 7 + 32 from bounds.1) (by decide)
    | true => exact absurd (show 196608 ≤ 7 + 32 from bounds.1) (by decide)
  caller := by
    change rowLayout.labelAt 1 = none
    decide

/-- The user task is started, switches to the kernel task, and is switched back to. -/
theorem task_switch_transparent_resumed : Exists fun state => Exists fun events =>
    Exists fun call =>
      Reaches (SwitchStep rowLayout twoTasks) createdTasks events state ∧
      state.standing true = .switchedOut call ∧
      Exists fun after => Leaves rowLayout (switchBlock rowLayout) state.machine after ∧
        (forall other, Leaves rowLayout (switchBlock rowLayout) state.machine other -> other = after) ∧
        forall call, state.standing true = .switchedOut call -> ReturnedToCaller true call after := by
  have starts : CallsWithout rowLayout twoTasks createdTasks true :=
    { placed := rfl, stored := rfl, isKernelStored := rfl, toSave := rfl
      waiting := fun wrong => by cases wrong }
  rcases createdTasks_created.kept.leaves (.inl starts) with ⟨first, leaves, _⟩
  let started := Function.update createdTasks.standing true .notWaiting
  let call := calling first.memory (some true) false
  have run1 : Reaches (SwitchStep rowLayout twoTasks) createdTasks [.start true]
      ⟨first, some true, started⟩ :=
    .tail .refl (.start starts leaves)
  have run2 : Reaches (SwitchStep rowLayout twoTasks) createdTasks [.work, .start true]
      ⟨call, some true, started⟩ :=
    .tail run1 (.work ⟨fun _ _ _ _ => rfl, fun _ _ _ _ _ => rfl⟩)
  have kept := run2.invariant (Kept rowLayout twoTasks) createdTasks_created.kept
    fun _ _ _ holds stepped => holds.step stepped
  have switches := calling_switch first.memory true started fun wrong => by cases wrong
  rcases kept.leaves (.inr ⟨true, by decide, switches⟩) with ⟨second, leaves, _⟩
  let switched := Function.update (Function.update started true (.switchedOut call)) false .notWaiting
  have run3 : Reaches (SwitchStep rowLayout twoTasks) createdTasks
      [.switchTo false, .work, .start true] ⟨second, some false, switched⟩ :=
    .tail run2 (.switchTo switches (by decide) leaves)
  have run4 : Reaches (SwitchStep rowLayout twoTasks) createdTasks
      [.work, .switchTo false, .work, .start true]
      ⟨calling second.memory (some false) true, some false, switched⟩ :=
    .tail run3 (.work ⟨fun _ _ _ _ => rfl, fun _ _ _ _ _ => rfl⟩)
  have resumes := calling_switch second.memory false switched fun wrong => by cases wrong
  exact ⟨_, _, call, run4, rfl, task_switch_transparent rowLayout twoTasks true
    createdTasks_created run4 (.inr ⟨false, by decide, resumes⟩)⟩

end Kernel
end Pinyon
