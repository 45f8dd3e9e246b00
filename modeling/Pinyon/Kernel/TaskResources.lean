import Pinyon.Kernel.File
import Pinyon.Kernel.Tasks
import Pinyon.Library.Ledger

namespace Pinyon
namespace Kernel

open Library Pine

/-!
# What a task holds

A task holds blocks of the kernel allocator in three ways.  Its stacks, its name and
the buffer of its descriptors have owners, which give them back when they are destroyed.
The block of its heap is a pointer, and a descriptor is a pointer to a description that
counts it; neither is given back by a destructor.

The allocator is modelled by its answers and by the blocks that are in use, named by
their addresses.  An answer that is in use already, a block that is given back twice and
a description that is destroyed twice are errors, `none`.
-/

/-- The blocks of the kernel allocator that are in use. -/
abbrev KernelBlocks := Ledger Nat

/-- The buffer of a vector. -/
def bufferBlocks {Value : Type} (vector : Vector Value) : List Nat :=
  if vector.contents = 0 then [] else [vector.contents]

/-- A vector that obtains a new buffer gives the old one back. -/
def replaceBuffer {Value : Type} (blocks : KernelBlocks) (vector : Vector Value) :
    Option Allocation -> Option KernelBlocks
  | none => some blocks
  | some reply => do
      let blocks <- blocks.acquire reply.ptr
      blocks.releaseAll (bufferBlocks vector)

/-- The block that a buffer has obtained, if it is a new one. -/
def renewed {Value : Type} (before after : Buffer Value) : Option Allocation :=
  if after.generation = before.generation then none else some after.block

/-! ## Files -/

/-- The file table, and for each description the block of its file, `m_file`. -/
structure KernelFiles where
  fileTable : FileTable
  owners : Nat -> Nat

/-- What the allocator answers while a file is opened: for the file, for `m_files` and
for `m_descriptors`. -/
structure OpenAnswers where
  file : Allocation
  files : Nat -> Allocation
  descriptors : Nat -> Allocation

namespace KernelFiles

def empty : KernelFiles where
  fileTable := FileTable.empty
  owners := fun _ => 0

/-- `FileTable::open`.  The owner of the file gives it back if there is no description. -/
def «open» (target : Target) (answers : OpenAnswers) (files : KernelFiles) (blocks : KernelBlocks)
    (path : String) (mode : FileMode) :
    Option (Option FilePointer × KernelFiles × KernelBlocks) := do
  let created := answers.file.ptr != 0
  let (maybeDescription, fileTable) <- files.fileTable.open target answers.files path mode created
  if (File.ofPath path).isSome ∧ created then
    let blocks <- blocks.acquire answers.file.ptr
    let obtained := renewed files.fileTable.files fileTable.files
    let blocks <- replaceBuffer blocks files.fileTable.files.vector obtained
    match maybeDescription with
    | some description =>
        let owners := Function.update files.owners description.index answers.file.ptr
        return (some description, ⟨fileTable, owners⟩, blocks)
    | none =>
        let blocks <- blocks.release answers.file.ptr
        return (none, ⟨fileTable, files.owners⟩, blocks)
  else return (maybeDescription, ⟨fileTable, files.owners⟩, blocks)

/-- `FileTable::close`.  The destructor of a description gives its file back. -/
def close (files : KernelFiles) (blocks : KernelBlocks) (pointer : FilePointer) :
    Option (KernelFiles × KernelBlocks) := do
  let description <- files.fileTable.descriptionAt pointer
  let fileTable <- files.fileTable.close pointer
  if (description.refCount + (2 ^ 32 - 1)) % 2 ^ 32 = 0 then
    if description.destroyed = 0 then
      let blocks <- blocks.release (files.owners pointer.index)
      return (⟨fileTable, files.owners⟩, blocks)
    else none
  else return (⟨fileTable, files.owners⟩, blocks)

/-- `FileDescriptorTable::open`. -/
def openDescriptor (target : Target) (answers : OpenAnswers) (files : KernelFiles)
    (blocks : KernelBlocks) (table : FileDescriptorTable) (path : String) (mode : FileMode) :
    Option (Int × KernelFiles × FileDescriptorTable × KernelBlocks) := do
  let (maybeDescription, files, blocks) <- files.open target answers blocks path mode
  match maybeDescription with
  | none => return (-1, files, table, blocks)
  | some description =>
      let (fdOrNeg, later) <- table.tryInsert target answers.descriptors description
      let obtained := renewed table.descriptors later.descriptors
      let blocks <- replaceBuffer blocks table.descriptors.vector obtained
      if fdOrNeg = -1 then
        let (files, blocks) <- files.close blocks description
        return (-1, files, later, blocks)
      else return (fdOrNeg, files, later, blocks)

/-- `FileDescriptorTable::close`. -/
def closeDescriptor (files : KernelFiles) (blocks : KernelBlocks) (table : FileDescriptorTable)
    (fd : Int) : Option (Int × KernelFiles × FileDescriptorTable × KernelBlocks) :=
  match table.tryGet fd with
  | none => some (-Errno.EBADF.toInt, files, table, blocks)
  | some descriptor => do
      let (files, blocks) <- files.close blocks descriptor
      return (0, files, table.setSlot fd.toNat none, blocks)

/-- `FileDescriptorTable::dup`. -/
def dupDescriptor (target : Target) (allocate : Nat -> Allocation) (blocks : KernelBlocks)
    (table : FileDescriptorTable) (fd : Int) :
    Option (Int × FileDescriptorTable × KernelBlocks) := do
  let (result, later) <- table.dup target allocate fd
  let obtained := renewed table.descriptors later.descriptors
  let blocks <- replaceBuffer blocks table.descriptors.vector obtained
  return (result, later, blocks)

end KernelFiles

/-! ## Tasks -/

/-- The members of a `Task` that stand for something outside it. -/
structure KernelTask where
  name : Nat
  userStack : Option Nat
  kernelStack : Nat
  heap : Nat
  fdTable : FileDescriptorTable

namespace KernelTask

/-- What the destructors of the members give back, the last member first. -/
def destructs (task : KernelTask) : List Nat :=
  bufferBlocks task.fdTable.descriptors.vector ++ task.kernelStack ::
    (task.userStack.toList ++ [task.name])

/-- What was obtained for the task. -/
def blocks (task : KernelTask) : List Nat :=
  task.heap :: task.destructs

/-- What the allocator answers while a task is created. -/
structure CreateAnswers where
  kernelStack : Allocation
  userStack : Allocation
  heap : Allocation
  name : Allocation
  stdin : OpenAnswers
  stdout : OpenAnswers

/-- `Task::try_create` behind the allocation of the heap. -/
def tryCreateWithHeap (target : Target) (answers : CreateAnswers) (userStack : Option Nat)
    (files : KernelFiles) (blocks : KernelBlocks) :
    Option (Option KernelTask × KernelFiles × KernelBlocks) := do
  let bothStacks := userStack.toList ++ [answers.kernelStack.ptr]
  if answers.name.ptr = 0 then
    let blocks <- blocks.releaseAll bothStacks
    return (none, files, blocks)
  let blocks <- blocks.acquire answers.name.ptr
  let (stdinFd, files, fdTable, blocks) <-
    files.openDescriptor target answers.stdin blocks FileDescriptorTable.empty "/dev/zero" .Read
  if stdinFd = -1 then
    let blocks <- blocks.releaseAll
      (bufferBlocks fdTable.descriptors.vector ++ answers.name.ptr :: bothStacks)
    return (none, files, blocks)
  let (stdoutFd, files, fdTable, blocks) <-
    files.openDescriptor target answers.stdout blocks fdTable "/dev/null" .Write
  if stdoutFd = -1 then
    let blocks <- blocks.releaseAll
      (bufferBlocks fdTable.descriptors.vector ++ answers.name.ptr :: bothStacks)
    return (none, files, blocks)
  return (some ⟨answers.name.ptr, userStack, answers.kernelStack.ptr, answers.heap.ptr, fdTable⟩,
    files, blocks)

/-- `Task::try_create`. -/
def tryCreate (target : Target) (flags : CreateFlags) (answers : CreateAnswers)
    (files : KernelFiles) (blocks : KernelBlocks) :
    Option (Option KernelTask × KernelFiles × KernelBlocks) := do
  if answers.kernelStack.succeeded = false then return (none, files, blocks)
  let blocks <- blocks.acquire answers.kernelStack.ptr
  if flags = .CreateUserTask ∧ answers.userStack.succeeded = false then
    let blocks <- blocks.release answers.kernelStack.ptr
    return (none, files, blocks)
  let userStack := if flags = .CreateUserTask then some answers.userStack.ptr else none
  let blocks <- blocks.acquireAll userStack.toList
  if answers.heap.succeeded = false then
    let blocks <- blocks.releaseAll (userStack.toList ++ [answers.kernelStack.ptr])
    return (none, files, blocks)
  let blocks <- blocks.acquire answers.heap.ptr
  tryCreateWithHeap target answers userStack files blocks

end KernelTask

/-! ## The task manager -/

/-- The resources of the kernel.  The rest of it, such as the display, holds blocks of
its own. -/
structure TaskKernel where
  blocks : KernelBlocks
  files : KernelFiles
  tasks : Vector KernelTask
  others : List Nat

namespace TaskKernel

def start : TaskKernel where
  blocks := []
  files := KernelFiles.empty
  tasks := Vector.empty KernelTask
  others := []

/-- `TaskManager::try_create_task`, which does not look at what `append` returns.  A task
that was not appended is destroyed.  The size of a task is given. -/
def tryCreateTask (target : Target) (taskSize : ElementSize) (flags : CreateFlags)
    (answers : KernelTask.CreateAnswers) (allocate : Nat -> Allocation) (kernel : TaskKernel) :
    Option (Bool × TaskKernel) := do
  let (maybeTask, files, blocks) <- KernelTask.tryCreate target flags answers kernel.files kernel.blocks
  match maybeTask with
  | none => return (false, { kernel with files := files, blocks := blocks })
  | some task =>
      let outcome <- kernel.tasks.append target taskSize allocate task
      let blocks <- replaceBuffer blocks kernel.tasks outcome.obtained
      let blocks <- if outcome.result then some blocks else blocks.releaseAll task.destructs
      return (true, { kernel with files := files, blocks := blocks, tasks := outcome.vector })

/-- The task at an index, unless there is none or it has been destroyed. -/
def taskAt (kernel : TaskKernel) (index : Nat) : Option KernelTask :=
  if index < kernel.tasks.count then kernel.tasks.slots index else none

/-- `exit_running_task`, short of the switch to another task: the running task is
destroyed and removed. -/
def exitRunningTask (target : Target) (taskSize : ElementSize) (allocate : Nat -> Allocation)
    (kernel : TaskKernel) (runningTaskIndex : Nat) : Option TaskKernel := do
  let task <- kernel.taskAt runningTaskIndex
  let outcome <- kernel.tasks.remove target taskSize allocate runningTaskIndex
  let blocks <- kernel.blocks.releaseAll task.destructs
  let blocks <- replaceBuffer blocks kernel.tasks outcome.obtained
  return { kernel with blocks := blocks, tasks := outcome.vector }

/-- A task has new descriptors. -/
def withTable (kernel : TaskKernel) (index : Nat) (task : KernelTask) (files : KernelFiles)
    (table : FileDescriptorTable) (blocks : KernelBlocks) : TaskKernel :=
  { kernel with
    blocks := blocks
    files := files
    tasks := { kernel.tasks with
      slots := Function.update kernel.tasks.slots index (some { task with fdTable := table }) } }

/-- What happens to the resources.  `obtain_` and `giveBack` are what the rest of the
kernel does. -/
inductive Call where
  | tryCreateTask (flags : CreateFlags) (answers : KernelTask.CreateAnswers)
      (allocate : Nat -> Allocation)
  | «open» (index : Nat) (answers : OpenAnswers) (path : String) (mode : FileMode)
  | close (index : Nat) (fd : Int)
  | dup (index : Nat) (allocate : Nat -> Allocation) (fd : Int)
  | exit (runningTaskIndex : Nat) (allocate : Nat -> Allocation)
  | obtain_ (ptr : Nat)
  | giveBack (ptr : Nat)

def perform (target : Target) (taskSize : ElementSize) (kernel : TaskKernel) : Call -> Option TaskKernel
  | .tryCreateTask flags answers allocate => do
      let (_, after) <- kernel.tryCreateTask target taskSize flags answers allocate
      return after
  | .open index answers path mode => do
      let task <- kernel.taskAt index
      let (_, files, table, blocks) <-
        kernel.files.openDescriptor target answers kernel.blocks task.fdTable path mode
      return kernel.withTable index task files table blocks
  | .close index fd => do
      let task <- kernel.taskAt index
      let (_, files, table, blocks) <- kernel.files.closeDescriptor kernel.blocks task.fdTable fd
      return kernel.withTable index task files table blocks
  | .dup index allocate fd => do
      let task <- kernel.taskAt index
      let (_, table, blocks) <-
        KernelFiles.dupDescriptor target allocate kernel.blocks task.fdTable fd
      return kernel.withTable index task kernel.files table blocks
  | .exit runningTaskIndex allocate =>
      kernel.exitRunningTask target taskSize allocate runningTaskIndex
  | .obtain_ ptr => do
      let blocks <- kernel.blocks.acquire ptr
      return { kernel with blocks := blocks, others := ptr :: kernel.others }
  | .giveBack ptr =>
      if ptr ∈ kernel.others then do
        let blocks <- kernel.blocks.release ptr
        return { kernel with blocks := blocks, others := kernel.others.erase ptr }
      else none

def Step (target : Target) (taskSize : ElementSize) (before : TaskKernel) (call : Call)
    (after : TaskKernel) : Prop :=
  before.perform target taskSize call = some after

end TaskKernel

end Kernel
end Pinyon
