import Pinyon.Library.Span
import Pinyon.Pine.FixedHeap

namespace Pinyon
namespace Kernel

open Library Pine

/-!
# The heap of a task

A `Heap` is a binder whose fallback allocator is a member of the very same
object, which the binder knows by its address.  Copying a heap copies that
address, so the copy still refers to the member of the original.  The objects
are modelled by the places they live at: a pointer is a place, and a place
whose object has been destroyed holds nothing.
-/

/-- Where a heap object can live: the variable of `Task::try_create`, the
parameter of the constructor of `Task`, or the member of a task. -/
inductive Place where
  | heapVariable
  | heapParameter
  | member (task : Nat)
deriving DecidableEq, Repr

structure Heap where
  /-- `m_fallback_allocator`, the place of the heap whose `m_allocation` it is. -/
  fallbackAllocator : Place
  /-- `m_allocator` of the binder. -/
  allocator : HighWatermarkAllocator := {}
  allocation : FixedAllocation
  highWatermarkAllocator : HighWatermarkAllocator := {}

/-- The heap objects that are alive. -/
def HeapObjects : Type := Place -> Option Heap

namespace HeapObjects

def none : HeapObjects := fun _ => Option.none

def put (objects : HeapObjects) (place : Place) (heap : Heap) : HeapObjects :=
  Function.update objects place (some heap)

def destroy (objects : HeapObjects) (place : Place) : HeapObjects :=
  Function.update objects place Option.none

@[simp] theorem put_same (objects : HeapObjects) (place : Place) (heap : Heap) :
    objects.put place heap place = some heap :=
  Function.update_self ..

theorem put_other (objects : HeapObjects) {place other : Place} (heap : Heap)
    (different : other ≠ place) : objects.put place heap other = objects other :=
  Function.update_of_ne different ..

theorem destroy_other (objects : HeapObjects) {place other : Place} (different : other ≠ place) :
    objects.destroy place other = objects other :=
  Function.update_of_ne different ..

/-- The constructor, run for an object at the given place. -/
def construct (objects : HeapObjects) (place : Place) (start size : Nat) : HeapObjects :=
  objects.put place { fallbackAllocator := place, allocation := { start := start, size := size } }

/-- The copy constructor, which is also what moving a heap comes to. -/
def copy (objects : HeapObjects) (source destination : Place) : Option HeapObjects := do
  let heap <- objects source
  return objects.put destination heap

/-- The binder at a place. -/
def parts (target : Target) (place : Place) : BinderParts HeapObjects where
  preferredSize := HighWatermarkAllocator.preferredSize
  allocate := fun requestedSize objects => do
    let heap <- objects place
    let outcome := heap.allocator.allocate target requestedSize
    return (outcome.1, objects.put place { heap with allocator := outcome.2 })
  add := fun ptr size objects => do
    let heap <- objects place
    return objects.put place { heap with allocator := heap.allocator.add target ptr size }
  fallbackAllocate := fun amount objects => do
    let heap <- objects place
    let owner <- objects heap.fallbackAllocator
    let outcome := owner.allocation.allocate amount
    return (outcome.1, objects.put heap.fallbackAllocator { owner with allocation := outcome.2 })

end HeapObjects

/-- The size of a heap, 4 MiB. -/
def heapSize : Nat := 4 * 1048576

/-- What the other functions that `Task::try_create` calls return. -/
structure TaskResources where
  kernelStack : Bool
  userStack : Bool
  heapAlloc : Allocation
  name : Bool
  stdinFd : Int
  stdoutFd : Int

/-- The heap is built in a variable, copied into the parameter of the constructor
of `Task` and from there into the task, at place `0`.  The variable and the
parameter are gone when the task is there. -/
def createHeap (start size : Nat) : Option HeapObjects := do
  let built := HeapObjects.none.construct .heapVariable start size
  let passed <- built.copy .heapVariable .heapParameter
  let kept <- passed.copy .heapParameter (.member 0)
  return (kept.destroy .heapParameter).destroy .heapVariable

/-- `Task::try_create` as far as the heap goes.  The second argument of `Heap` is
an end where its constructor expects a size. -/
def tryCreate (target : Target) (isKernelTask : Bool) (resources : TaskResources) :
    Option HeapObjects :=
  if resources.kernelStack = false then none
  else if isKernelTask = false ∧ resources.userStack = false then none
  else if resources.heapAlloc.succeeded = false then none
  else if resources.name = false then none
  else if resources.stdinFd = -1 then none
  else if resources.stdoutFd = -1 then none
  else createHeap resources.heapAlloc.ptr
    ((resources.heapAlloc.ptr + heapSize) % target.wordLimit)

/-- What happens to a task later: it is moved to another place and the one it
left is given up, or it asks for memory. -/
inductive TaskAction where
  | move (destination : Nat)
  | sbrk (increase : Nat)
deriving DecidableEq, Repr

/-- A task and what `sbrk` answered so far, the latest answer first: the increase
and the pointer. -/
structure TaskRun where
  objects : HeapObjects
  task : Nat
  answers : List (Nat × Nat)

namespace TaskRun

def sbrk (target : Target) (run : TaskRun) (increase : Nat) : Option TaskRun := do
  let (allocation, objects) <- (HeapObjects.parts target (.member run.task)).bind increase
    run.objects
  return { run with objects := objects, answers := (increase, allocation.ptr) :: run.answers }

def move (run : TaskRun) (destination : Nat) : Option TaskRun := do
  if destination = run.task then return run
  let objects <- run.objects.copy (.member run.task) (.member destination)
  return { run with objects := objects.destroy (.member run.task), task := destination }

def act (target : Target) (run : TaskRun) : TaskAction -> Option TaskRun
  | .move destination => run.move destination
  | .sbrk increase => run.sbrk target increase

/-- The actions in their order. -/
def perform (target : Target) : TaskRun -> List TaskAction -> Option TaskRun
  | run, [] => some run
  | run, action :: actions => do
      let after <- run.act target action
      perform target after actions

end TaskRun

/-- The bytes that were handed out by some answers. -/
def handedOut (answers : List (Nat × Nat)) : Nat :=
  ((answers.filter fun answer => answer.2 ≠ 0).map Prod.fst).sum

/-- What a task may expect of its answers: they lie inside the block obtained
for it, they do not overlap, and nothing is handed out once the block is used up. -/
structure Isolated (block : Allocation) (answers : List (Nat × Nat)) : Prop where
  inside : forall answer, answer ∈ answers -> answer.2 ≠ 0 ->
    span answer.2 answer.1 ⊆ span block.ptr heapSize
  apart : Packed ((answers.filter fun answer => answer.2 ≠ 0).map
    fun answer => span answer.2 answer.1)
  exhausted : forall later answer earlier, answers = later ++ answer :: earlier ->
    heapSize < handedOut earlier + answer.1 -> answer.2 = 0

/-- A task whose heap has never been given memory and whose fallback allocator is gone. -/
structure Stranded (run : TaskRun) : Prop where
  heap : Exists fun heap => run.objects (.member run.task) = some heap ∧
    heap.fallbackAllocator = .heapVariable ∧ heap.allocator.watermark = 0
  gone : run.objects .heapVariable = none

namespace Stranded

variable {target : Target} {run after : TaskRun}

private theorem variable_ne_member (task : Nat) : Place.heapVariable ≠ .member task := by
  simp

theorem of_createHeap {start size : Nat} {objects : HeapObjects}
    (created : createHeap start size = some objects) : Stranded ⟨objects, 0, []⟩ := by
  have same : objects .heapVariable = none ∧ objects (.member 0) =
      some { fallbackAllocator := .heapVariable, allocation := { start := start, size := size } } := by
    cases Option.some.inj created
    exact ⟨rfl, rfl⟩
  exact ⟨⟨_, same.2, rfl, rfl⟩, same.1⟩

/-- Every task starts out like this: the variable whose member the heap of the
task refers to is gone when `Task::try_create` has returned. -/
theorem of_tryCreate {isKernelTask : Bool} {resources : TaskResources} {objects : HeapObjects}
    (created : tryCreate target isKernelTask resources = some objects) :
    Stranded ⟨objects, 0, []⟩ := by
  unfold tryCreate at created
  split_ifs at created
  exact of_createHeap created

/-- Moving a task does not help, because the copy refers to where the original did. -/
theorem move (stranded : Stranded run) (destination : Nat) : Exists fun after =>
    run.move destination = some after ∧ Stranded after ∧ after.answers = run.answers := by
  rcases stranded with ⟨⟨heap, here, fallback, empty⟩, gone⟩
  unfold TaskRun.move
  by_cases same : destination = run.task
  · exact ⟨run, if_pos same, ⟨⟨heap, here, fallback, empty⟩, gone⟩, rfl⟩
  · rw [if_neg same, HeapObjects.copy, here]
    have apart : Place.member destination ≠ .member run.task := by
      simpa using same
    refine ⟨_, rfl, ⟨⟨heap, ?_, fallback, empty⟩, ?_⟩, rfl⟩
    · exact (HeapObjects.destroy_other _ apart).trans (HeapObjects.put_same ..)
    · dsimp only
      rw [HeapObjects.destroy_other _ (variable_ne_member _),
        HeapObjects.put_other _ _ (variable_ne_member _)]
      exact gone

/-- The first `sbrk` has to ask the fallback allocator. -/
theorem sbrk (stranded : Stranded run) (target : Target) (increase : Nat) :
    run.sbrk target increase = none := by
  rcases stranded with ⟨⟨heap, here, fallback, empty⟩, gone⟩
  have own : (HeapObjects.parts target (.member run.task)).allocate increase run.objects =
      some ({}, run.objects.put (.member run.task) heap) := by
    simp [HeapObjects.parts, here, HighWatermarkAllocator.allocate, empty]
  have dead : (HeapObjects.parts target (.member run.task)).fallbackAllocate
      (HighWatermarkAllocator.preferredSize increase)
      (run.objects.put (.member run.task) heap) = none := by
    have other : run.objects.put (.member run.task) heap .heapVariable = none :=
      (HeapObjects.put_other _ _ (variable_ne_member _)).trans gone
    simp [HeapObjects.parts, fallback, other]
  have fails : (HeapObjects.parts target (.member run.task)).bind increase run.objects = none := by
    simp only [BinderParts.bind, own, Option.bind_eq_bind, Option.bind_some, if_true]
    rw [show (HeapObjects.parts target (.member run.task)).preferredSize increase =
      HighWatermarkAllocator.preferredSize increase from rfl, dead]
    rfl
  rw [TaskRun.sbrk, fails]
  rfl

/-- A run that comes to an end never asked for memory, and got no answer. -/
theorem of_perform (actions : List TaskAction) (stranded : Stranded run)
    (performed : TaskRun.perform target run actions = some after) :
    (forall increase, .sbrk increase ∉ actions) ∧ after.answers = run.answers := by
  induction actions generalizing run with
  | nil =>
      cases Option.some.inj performed
      exact ⟨fun increase => List.not_mem_nil, rfl⟩
  | cons action actions inductionHypothesis =>
      cases action with
      | move destination =>
          rcases stranded.move destination with ⟨middle, moved, still, answers⟩
          simp only [TaskRun.perform, TaskRun.act, moved, Option.bind_eq_bind, Option.bind_some]
            at performed
          rcases inductionHypothesis still performed with ⟨never, rest⟩
          refine ⟨fun increase member => ?_, rest.trans answers⟩
          rcases List.mem_cons.mp member with wrong | later
          · cases wrong
          · exact never increase later
      | sbrk increase =>
          have fails := stranded.sbrk target increase
          simp [TaskRun.perform, TaskRun.act, fails] at performed

/-- A run that never asks for memory comes to an end. -/
theorem performs (target : Target) (actions : List TaskAction) (stranded : Stranded run)
    (never : forall increase, .sbrk increase ∉ actions) :
    Exists fun after => TaskRun.perform target run actions = some after := by
  induction actions generalizing run with
  | nil => exact ⟨run, rfl⟩
  | cons action actions inductionHypothesis =>
      cases action with
      | move destination =>
          rcases stranded.move destination with ⟨middle, moved, still, _⟩
          have later : forall increase, .sbrk increase ∉ actions :=
            fun increase member => never increase (List.mem_cons_of_mem _ member)
          simp only [TaskRun.perform, TaskRun.act, moved, Option.bind_eq_bind, Option.bind_some]
          exact inductionHypothesis still later
      | sbrk increase => exact absurd List.mem_cons_self (never increase)

end Stranded

/-- A run of a task keeps the task to its block. -/
def KeepsToBlock (target : Target) (objects : HeapObjects) (block : Allocation)
    (actions : List TaskAction) : Prop :=
  Exists fun after => TaskRun.perform target ⟨objects, 0, []⟩ actions = some after ∧
    Isolated block after.answers

theorem isolated_nil (block : Allocation) : Isolated block [] where
  inside := by simp
  apart := packed_nil
  exhausted := by simp

/-- The heap of a task that `Task::try_create` made keeps the task to its block
in exactly the runs in which the task never asks for memory, whatever moves it
goes through: the first `sbrk` follows the pointer to a variable that is gone. -/
theorem heap_isolated_iff {target : Target} {isKernelTask : Bool} {resources : TaskResources}
    {objects : HeapObjects} (created : tryCreate target isKernelTask resources = some objects)
    (actions : List TaskAction) :
    KeepsToBlock target objects resources.heapAlloc actions <->
      forall increase, .sbrk increase ∉ actions := by
  have stranded := Stranded.of_tryCreate created
  constructor
  · rintro ⟨after, performed, _⟩
    exact (stranded.of_perform actions performed).1
  · intro never
    rcases stranded.performs target actions never with ⟨after, performed⟩
    refine ⟨after, performed, ?_⟩
    rw [(stranded.of_perform actions performed).2]
    exact isolated_nil _

/-- What a successful creation got, with the block of the heap at 64 MiB. -/
def plenty : TaskResources where
  kernelStack := true
  userStack := true
  heapAlloc := ⟨67108864, heapSize⟩
  name := true
  stdinFd := 0
  stdoutFd := 1

/-- A task that is moved once and never asks for memory. -/
theorem heap_isolated_iff_moved : Exists fun objects =>
    tryCreate .aarch64 false plenty = some objects ∧
      KeepsToBlock .aarch64 objects plenty.heapAlloc [.move 1] := by
  have created : tryCreate .aarch64 false plenty = some _ := rfl
  exact ⟨_, created, (heap_isolated_iff created [.move 1]).mpr (by simp)⟩

/-- A task that asks for sixteen bytes. -/
theorem sbrk_follows_dead_pointer : Exists fun objects =>
    tryCreate .aarch64 false plenty = some objects ∧
      TaskRun.perform .aarch64 ⟨objects, 0, []⟩ [.sbrk 16] = none ∧
      ¬ KeepsToBlock .aarch64 objects plenty.heapAlloc [.sbrk 16] := by
  refine ⟨_, rfl, rfl, ?_⟩
  rintro ⟨after, performed, _⟩
  exact absurd performed (Option.some_ne_none after).symm

end Kernel
end Pinyon
