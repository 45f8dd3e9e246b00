import Pinyon.Pine.Target
import Pinyon.Library.History
import Pinyon.Kernel.Tasks

namespace Pinyon
namespace Kernel

open Library Pine

/-!
# The kind of a task

Whether a task is a kernel task is not stored: `is_kernel_task` compares the two
stack pointers in the `Registers` of the task.  They are equal when a kernel task is
created.  Every time the task is switched out, `task_save` writes the present stack
pointer over one of them, and writes the other only for a task it takes for a user
task.
-/

/-- The words of `Registers` that tell the kind. -/
structure Registers (target : Target) where
  userSp : BitVec target.wordWidth
  kernelSp : BitVec target.wordWidth
deriving DecidableEq, Repr

structure Stack (target : Target) where
  bottom : BitVec target.wordWidth
  size : BitVec target.wordWidth
deriving DecidableEq, Repr

/-- The stack pointers at a call of `task_switch`. -/
structure StackPointers (target : Target) where
  sp : BitVec target.wordWidth
  userSp : BitVec target.wordWidth
deriving DecidableEq, Repr

variable {target : Target}

def Stack.sp (stack : Stack target) : BitVec target.wordWidth :=
  stack.bottom + stack.size

/-- `is_kernel_registers`. -/
def Registers.isKernelRegisters (registers : Registers target) : Bool :=
  registers.userSp == registers.kernelSp

def constructUserTaskRegisters (stack kernelStack : Stack target) : Registers target where
  userSp := stack.sp
  kernelSp := kernelStack.sp

/-- `none` is the panic. -/
def constructKernelTaskRegisters (kernelStack : Stack target) : Option (Registers target) :=
  let registers : Registers target := { userSp := kernelStack.sp, kernelSp := kernelStack.sp }
  if registers.isKernelRegisters = false then none else some registers

/-- `task_save`, as far as the two words go. -/
def taskSave (isKernelTask : Bool) (pointers : StackPointers target)
    (registers : Registers target) : Registers target where
  userSp := if isKernelTask then registers.userSp else pointers.userSp
  kernelSp := pointers.sp

/-- The bytes that `task_switch` has put on the stack when it calls `task_save`. -/
def switchFrame : Target -> Nat
  | .aarch32 => 24
  | .aarch64 => 32

/-- What `task_switch` does to `to_save_registers`. -/
def taskSwitch (isKernelTaskSave : Bool) (pointers : StackPointers target)
    (toSave : Registers target) : Registers target :=
  let sp := pointers.sp - BitVec.ofNat target.wordWidth (switchFrame target)
  taskSave isKernelTaskSave { pointers with sp := sp } toSave

/-- The flag comes in a register. -/
theorem taskSwitch_word {width : Nat} (word : BitVec width) (pointers : StackPointers target)
    (toSave : Registers target) :
    taskSwitch (word != 0) pointers toSave =
      { userSp := if word = 0 then pointers.userSp else toSave.userSp
        kernelSp := pointers.sp - BitVec.ofNat target.wordWidth (switchFrame target) } := by
  rw [taskSwitch, taskSave]
  by_cases user : word = 0
  · rw [if_pos user, bne_eq_false_iff_eq.mpr user]
    rfl
  · rw [if_neg user, bne_iff_ne.mpr user]
    rfl

/-- A task, with a record of how it was created. -/
structure KindedTask (target : Target) where
  flags : CreateFlags
  kernelStack : Stack target
  registers : Registers target
deriving DecidableEq, Repr

namespace KindedTask

/-- `try_create`, once it has the stacks. -/
def tryCreate (flags : CreateFlags) (kernelStack userStack : Stack target) :
    Option (KindedTask target) :=
  match flags with
  | .CreateUserTask =>
      some ⟨flags, kernelStack, constructUserTaskRegisters userStack kernelStack⟩
  | .CreateKernelTask =>
      (constructKernelTaskRegisters kernelStack).map fun registers => ⟨flags, kernelStack, registers⟩

def isKernelTask (task : KindedTask target) : Bool :=
  task.registers.isKernelRegisters

/-- The stack pointer when the kernel stack has grown by some bytes. -/
def spAt (task : KindedTask target) (depth : Nat) : BitVec target.wordWidth :=
  task.kernelStack.sp - BitVec.ofNat target.wordWidth depth

/-- `switch_to`, seen from the task that it leaves. -/
def switchTo (task : KindedTask target) (pointers : StackPointers target) : KindedTask target :=
  { task with registers := taskSwitch task.isKernelTask pointers task.registers }

/-- When a user task is switched out, its own stack pointer is not the one that is
saved for the kernel.  A kernel task is not switched out at all: what is on its stack
would have to fill the address space. -/
def KeptBySwitch (task : KindedTask target) (depth : Nat) (userSp : BitVec target.wordWidth) :
    Prop :=
  match task.flags with
  | .CreateUserTask => userSp ≠ task.spAt (depth + switchFrame target)
  | .CreateKernelTask => target.wordLimit ∣ depth + switchFrame target

end KindedTask

structure KindedManager (target : Target) where
  tasks : List (KindedTask target)
  runningTaskIndex : Nat

/-- What the task manager is asked to do.  When it schedules, the running task may be
anywhere on its kernel stack, and the stack pointer of user mode may be anything. -/
inductive KindEvent (target : Target) where
  | create (flags : CreateFlags) (kernelStack userStack : Stack target)
  | startScheduler
  | schedule (next depth : Nat) (userSp : BitVec target.wordWidth)
  | exit (next : Nat)

namespace KindedManager

/-- Before the first task is created. -/
def empty : KindedManager target where
  tasks := []
  runningTaskIndex := 0

/-- Any task may be the next one to be picked. -/
def act (manager : KindedManager target) : KindEvent target -> Option (KindedManager target)
  | .create flags kernelStack userStack =>
      (KindedTask.tryCreate flags kernelStack userStack).map fun task =>
        { manager with tasks := manager.tasks ++ [task] }
  | .startScheduler => manager.tasks[0]?.map fun _ => manager
  | .schedule next depth userSp => do
      let current <- manager.tasks[manager.runningTaskIndex]?
      let _ <- manager.tasks[next]?
      if next = manager.runningTaskIndex then return manager
      return {
        tasks := manager.tasks.set manager.runningTaskIndex
          (current.switchTo { sp := current.spAt depth, userSp := userSp })
        runningTaskIndex := next }
  | .exit next => do
      let _ <- manager.tasks[manager.runningTaskIndex]?
      let rest := manager.tasks.eraseIdx manager.runningTaskIndex
      let _ <- rest[next]?
      return { tasks := rest, runningTaskIndex := next }

def Step (before : KindedManager target) (event : KindEvent target) (after : KindedManager target) :
    Prop :=
  before.act event = some after

/-- The kind of each task is the one it was created with. -/
def KindsKept (manager : KindedManager target) : Prop :=
  forall task, task ∈ manager.tasks -> task.isKernelTask = decide (task.flags = .CreateKernelTask)

/-- A step that leaves every task with its kind.  A user task has two stacks that end
at different addresses when it is created. -/
def KeepsKind (manager : KindedManager target) : KindEvent target -> Prop
  | .create .CreateUserTask kernelStack userStack => userStack.sp ≠ kernelStack.sp
  | .create .CreateKernelTask _ _ | .startScheduler | .exit _ => True
  | .schedule next depth userSp =>
      next ≠ manager.runningTaskIndex ->
        forall current, current ∈ manager.tasks[manager.runningTaskIndex]? ->
          current.KeptBySwitch depth userSp

end KindedManager

/-! ## Switching out one task -/

section OneTask

variable {task : KindedTask target}

theorem KindedTask.spAt_add (task : KindedTask target) (depth more : Nat) :
    task.spAt (depth + more) = task.spAt depth - BitVec.ofNat target.wordWidth more := by
  rw [spAt, spAt, BitVec.ofNat_add, sub_add_eq_sub_sub]

theorem KindedTask.spAt_eq_top {depth : Nat} :
    task.kernelStack.sp = task.spAt depth <-> target.wordLimit ∣ depth := by
  rw [spAt, eq_comm, sub_eq_self, Nat.dvd_iff_mod_eq_zero, ← BitVec.toNat_inj, BitVec.toNat_ofNat]
  rfl

theorem KindedTask.switchTo_isKernelTask (task : KindedTask target) (depth : Nat)
    (userSp : BitVec target.wordWidth) :
    (task.switchTo { sp := task.spAt depth, userSp := userSp }).isKernelTask =
      ((if task.isKernelTask then task.registers.userSp else userSp) ==
        task.spAt (depth + switchFrame target)) := by
  rw [spAt_add]
  rfl

/-- The kind that it was created with, and what the proof needs beside it: the user
stack pointer of a kernel task is never written. -/
structure KindedTask.Sound (task : KindedTask target) : Prop where
  kind : task.isKernelTask = decide (task.flags = .CreateKernelTask)
  top : task.flags = .CreateKernelTask -> task.registers.userSp = task.kernelStack.sp

theorem KindedTask.Sound.switchTo_kind_iff (sound : task.Sound) (depth : Nat)
    (userSp : BitVec target.wordWidth) :
    (task.switchTo { sp := task.spAt depth, userSp := userSp }).isKernelTask =
        decide (task.flags = .CreateKernelTask) <->
      task.KeptBySwitch depth userSp := by
  rw [switchTo_isKernelTask, sound.kind, KeptBySwitch]
  cases flags : task.flags with
  | CreateUserTask => exact beq_eq_false_iff_ne
  | CreateKernelTask =>
      rw [← @spAt_eq_top _ task, ← sound.top flags]
      exact beq_iff_eq

theorem KindedTask.tryCreate_kind {flags : CreateFlags} {kernelStack userStack : Stack target}
    (created : tryCreate flags kernelStack userStack = some task) :
    (task.isKernelTask = decide (task.flags = .CreateKernelTask) <->
        (flags = .CreateUserTask -> userStack.sp ≠ kernelStack.sp)) ∧
      (task.flags = .CreateKernelTask -> task.registers.userSp = task.kernelStack.sp) := by
  cases flags with
  | CreateUserTask =>
      cases created
      refine ⟨⟨fun user _ => ?_, fun apart => ?_⟩, fun wrong => by cases wrong⟩
      · exact beq_eq_false_iff_ne.mp user
      · exact beq_eq_false_iff_ne.mpr (apart rfl)
  | CreateKernelTask =>
      rcases Option.map_eq_some_iff.mp created with ⟨registers, constructed, rfl⟩
      rw [constructKernelTaskRegisters] at constructed
      split at constructed
      · cases constructed
      · cases constructed
        refine ⟨⟨fun _ wrong => (by cases wrong), fun _ => ?_⟩, fun _ => rfl⟩
        exact beq_self_eq_true _

end OneTask

/-! ## Every run -/

namespace KindedManager

variable {before after : KindedManager target} {event : KindEvent target}

/-- The invariant of the runs that keep all kinds. -/
def Sound (manager : KindedManager target) : Prop :=
  forall task, task ∈ manager.tasks -> task.Sound

theorem Sound.kindsKept (sound : Sound before) : KindsKept before :=
  fun task member => (sound task member).kind

/-- What a step does: a task is appended, one task is saved, or there are no others
than before. -/
theorem Step.cases (stepped : Step before event after) :
    (Exists fun flags => Exists fun kernelStack => Exists fun userStack => Exists fun task =>
      event = .create flags kernelStack userStack ∧
      KindedTask.tryCreate flags kernelStack userStack = some task ∧
      after.tasks = before.tasks ++ [task]) ∨
    (Exists fun next => Exists fun depth => Exists fun userSp => Exists fun current =>
      event = .schedule next depth userSp ∧ next ≠ before.runningTaskIndex ∧
      before.tasks[before.runningTaskIndex]? = some current ∧
      after.tasks = before.tasks.set before.runningTaskIndex
        (current.switchTo { sp := current.spAt depth, userSp := userSp })) ∨
    KeepsKind before event ∧ forall task, task ∈ after.tasks -> task ∈ before.tasks := by
  rw [Step] at stepped
  cases event with
  | create flags kernelStack userStack =>
      rcases Option.map_eq_some_iff.mp stepped with ⟨task, created, rfl⟩
      exact .inl ⟨flags, kernelStack, userStack, task, rfl, created, rfl⟩
  | startScheduler =>
      rcases Option.map_eq_some_iff.mp stepped with ⟨_, _, rfl⟩
      exact .inr (.inr ⟨trivial, fun _ member => member⟩)
  | schedule next depth userSp =>
      rcases Option.bind_eq_some_iff.mp stepped with ⟨current, running, stepped⟩
      rcases Option.bind_eq_some_iff.mp stepped with ⟨_, _, stepped⟩
      split at stepped
      · case isTrue same =>
          cases stepped
          exact .inr (.inr ⟨fun different => absurd same different, fun _ member => member⟩)
      · case isFalse different =>
          cases stepped
          exact .inr (.inl ⟨next, depth, userSp, current, rfl, different, running, rfl⟩)
  | exit next =>
      rcases Option.bind_eq_some_iff.mp stepped with ⟨_, _, stepped⟩
      rcases Option.bind_eq_some_iff.mp stepped with ⟨_, _, stepped⟩
      cases stepped
      exact .inr (.inr ⟨trivial, fun _ member => List.mem_of_mem_eraseIdx member⟩)

/-- As long as kinds are kept, the user stack pointer of a kernel task is not written. -/
theorem Sound.tops (sound : Sound before) (stepped : Step before event after) :
    forall task, task ∈ after.tasks -> task.flags = .CreateKernelTask ->
      task.registers.userSp = task.kernelStack.sp := by
  intro task member kernel
  rcases stepped.cases with ⟨_, _, _, created, _, creates, tasks⟩ |
    ⟨next, depth, userSp, current, _, _, running, tasks⟩ | ⟨_, fewer⟩
  · rw [tasks, List.mem_append, List.mem_singleton] at member
    rcases member with earlier | rfl
    · exact (sound task earlier).top kernel
    · exact (KindedTask.tryCreate_kind creates).2 kernel
  · rw [tasks] at member
    rcases List.mem_or_eq_of_mem_set member with earlier | rfl
    · exact (sound task earlier).top kernel
    · have was := sound current (List.mem_of_getElem? running)
      have kind : current.isKernelTask = true := was.kind.trans (decide_eq_true kernel)
      change (if current.isKernelTask then current.registers.userSp else userSp) = _
      rw [if_pos kind]
      exact was.top kernel
  · exact (sound task (fewer task member)).top kernel

/-- Kinds are kept by just the steps that meet the condition. -/
theorem Sound.keepsKind_iff (sound : Sound before) (stepped : Step before event after) :
    KindsKept after <-> KeepsKind before event := by
  rcases stepped.cases with ⟨flags, kernelStack, userStack, task, rfl, creates, tasks⟩ |
    ⟨next, depth, userSp, current, rfl, different, running, tasks⟩ | ⟨keeps, fewer⟩
  · have created := (KindedTask.tryCreate_kind creates).1
    have condition : KeepsKind before (.create flags kernelStack userStack) <->
        (flags = .CreateUserTask -> userStack.sp ≠ kernelStack.sp) := by
      cases flags with
      | CreateUserTask => exact ⟨fun apart _ => apart, fun apart => apart rfl⟩
      | CreateKernelTask => exact ⟨fun _ wrong => (by cases wrong), fun _ => trivial⟩
    rw [condition, ← created, KindsKept, tasks]
    constructor
    · exact fun kept => kept task (List.mem_append_right _ (List.mem_singleton_self task))
    · intro kind other member
      rcases List.mem_append.mp member with earlier | last
      · exact sound.kindsKept other earlier
      · rw [List.mem_singleton.mp last]
        exact kind
  · have was := sound current (List.mem_of_getElem? running)
    have inside := (List.getElem?_eq_some_iff.mp running).1
    let saved := current.switchTo { sp := current.spAt depth, userSp := userSp }
    have onlySaved : KindsKept after <->
        saved.isKernelTask = decide (current.flags = .CreateKernelTask) := by
      rw [KindsKept, tasks]
      constructor
      · exact fun kept => kept saved (List.mem_set inside saved)
      · intro kind other member
        rcases List.mem_or_eq_of_mem_set member with earlier | rfl
        · exact sound.kindsKept other earlier
        · exact kind
    rw [onlySaved, KeepsKind, forall_prop_of_true different, running, was.switchTo_kind_iff]
    exact ⟨fun keeps other same => (by cases same; exact keeps), fun keeps => keeps current rfl⟩
  · exact ⟨fun _ => keeps, fun _ task member => sound.kindsKept task (fewer task member)⟩

/-- The runs of the task manager, from its start, in which every task has the kind it
was created with at every point are the runs whose steps all meet the condition. -/
theorem isKernelTask_kept_iff {final : KindedManager target} {events : List (KindEvent target)} :
    Reaches (keeping Step fun _ _ after => KindsKept after) empty events final <->
      Reaches (guarded Step KeepsKind) empty events final := by
  refine Reaches.keeping_iff_guarded Sound (fun task member => by cases member) ?_ ?_
  · exact fun before event after sound stepped => sound.keepsKind_iff stepped
  · intro before event after sound stepped kept task member
    exact ⟨kept task member, sound.tops stepped task member⟩

/-! ## The first two tasks -/

def shellStack : Stack .aarch64 where
  bottom := 0x400000
  size := 0x200000

def shellKernelStack : Stack .aarch64 where
  bottom := 0x200000
  size := 0x8000

def spinKernelStack : Stack .aarch64 where
  bottom := 0x210000
  size := 0x8000

/-- What the constructor of the task manager makes. -/
def firstTasks : List (KindedTask .aarch64) :=
  [⟨.CreateUserTask, shellKernelStack, constructUserTaskRegisters shellStack shellKernelStack⟩,
    ⟨.CreateKernelTask, spinKernelStack, ⟨spinKernelStack.sp, spinKernelStack.sp⟩⟩]

/-- "shell" is started, "spin" takes over, and is interrupted in turn. -/
def spinEvents : List (KindEvent .aarch64) :=
  [.schedule 0 272 0x5fff00, .schedule 1 272 0x5fff00, .startScheduler,
    .create .CreateKernelTask spinKernelStack spinKernelStack,
    .create .CreateUserTask shellKernelStack shellStack]

/-- "spin" is a user task from then on. -/
theorem isKernelTask_not_kept : Exists fun final => Exists fun task =>
    Reaches Step empty spinEvents final ∧ task ∈ final.tasks ∧
      task.flags = .CreateKernelTask ∧ task.isKernelTask = false := by
  have booted : Reaches Step empty
      [.create .CreateKernelTask spinKernelStack spinKernelStack,
        .create .CreateUserTask shellKernelStack shellStack] ⟨firstTasks, 0⟩ :=
    .tail (.tail .refl (show act _ _ = some ⟨firstTasks.take 1, 0⟩ from rfl)) rfl
  have started : Reaches Step empty (spinEvents.drop 2) ⟨firstTasks, 0⟩ := .tail booted rfl
  have switched : Reaches Step empty (spinEvents.drop 1) ⟨_, 1⟩ := .tail started rfl
  have interrupted : Reaches Step empty spinEvents ⟨_, 0⟩ := .tail switched rfl
  exact ⟨_, _, interrupted, List.mem_cons_of_mem _ List.mem_cons_self, rfl, by decide⟩

end KindedManager
end Kernel
end Pinyon
