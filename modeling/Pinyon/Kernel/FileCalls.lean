import Pinyon.Kernel.FilePlaces

namespace Pinyon
namespace Kernel

open Pine

/-!
# File system calls

A call on a descriptor returns the negative of an error number when it is
refused.  The number of the error for a descriptor that is not open is zero, and
so is its negative, which callers take for success.
-/

/-- `pine::limits<ssize_t>::max`. -/
def ssizeMax (target : Target) : Nat :=
  2 ^ (target.wordWidth - 1) - 1

/-- What the device of a file has to say about a call: how many bytes it moves,
no more than it was asked for, and whether there is memory for the text of the
display. -/
structure DeviceAnswer where
  transferred : Nat
  memory : Bool

def File.read (answer : DeviceAnswer) (atMostBytes : Nat) : File -> Int
  | .DevZeroFile => atMostBytes
  | .DevNullFile => 0
  | .UARTFile | .DisplayFile => answer.transferred

def File.write (answer : DeviceAnswer) (bytes : Nat) : File -> Int
  | .DevZeroFile | .DevNullFile => bytes
  | .UARTFile => answer.transferred
  | .DisplayFile => if answer.memory then bytes else -Errno.ENOMEM.toInt

namespace FileDescription

def read (target : Target) (answer : DeviceAnswer) (description : FileDescription)
    (atMostBytes : Nat) : Int :=
  if description.mode = .Write then -Errno.EINVAL.toInt
  else if ssizeMax target < atMostBytes then -Errno.EINVAL.toInt
  else description.file.read answer atMostBytes

def write (target : Target) (answer : DeviceAnswer) (description : FileDescription)
    (bytes : Nat) : Int :=
  if description.mode = .Read then -Errno.EINVAL.toInt
  else if ssizeMax target < bytes then -Errno.EINVAL.toInt
  else description.file.write answer bytes

end FileDescription

/-- What a task can ask of its table. -/
inductive FileRequest where
  | close (fd : Int)
  | dup (allocate : Nat -> Allocation) (fd : Int)
  | read (answer : DeviceAnswer) (fd : Int) (atMostBytes : Nat)
  | write (answer : DeviceAnswer) (fd : Int) (bytes : Nat)

/-- The files of a task: all descriptions, and its own table. -/
structure TaskFiles where
  fileTable : FileTable
  fdTable : FileDescriptorTable

namespace TaskFiles

variable {target : Target} {before after : TaskFiles} {request : FileRequest} {result : Int}

/-- `userspace_buffer_is_valid`. -/
def userspaceBufferIsValid (target : Target) (bytes : Nat) : Int :=
  if ssizeMax target < bytes then -Errno.EFBIG.toInt else 0

/-- `Task::read` and `Task::write`, which differ in what is done with the
description in the end. -/
def onDescription (target : Target) (before : TaskFiles) (fd : Int) (bytes : Nat)
    (operation : FileDescription -> Int) : Option (Int × TaskFiles) :=
  if userspaceBufferIsValid target bytes < 0 then
    some (userspaceBufferIsValid target bytes, before)
  else
    match before.fdTable.tryGet fd with
    | none => some (-Errno.EBADF.toInt, before)
    | some pointer => do
        let description <- before.fileTable.descriptionAt pointer
        return (operation description, before)

/-- `Task::close`, `Task::dup`, `Task::read` and `Task::write`; `none` when a
pointer to nothing is followed. -/
def perform (target : Target) (before : TaskFiles) : FileRequest -> Option (Int × TaskFiles)
  | .close fd => do
      let (result, fileTable, fdTable) <- FileDescriptorTable.close before.fileTable before.fdTable fd
      return (result, ⟨fileTable, fdTable⟩)
  | .dup allocate fd => do
      let (result, fdTable) <- before.fdTable.dup target allocate fd
      return (result, { before with fdTable := fdTable })
  | .read answer fd atMostBytes => before.onDescription target fd atMostBytes fun description =>
      description.read target answer atMostBytes
  | .write answer fd bytes => before.onDescription target fd bytes fun description =>
      description.write target answer bytes

/-- The descriptor is negative, behind the end of the table, or closed. -/
def NotOpen (before : TaskFiles) (fd : Int) : Prop :=
  before.fdTable.tryGet fd = none

/-- A task with one descriptor, for the null file. -/
def reader : TaskFiles where
  fileTable := { files :=
    { vector := { count := 1, capacity := 192, contents := 65536,
                  slots := fun _ => some { file := .DevNullFile, mode := .Read } }
      block := ⟨65536, 192⟩
      generation := 1 } }
  fdTable := { descriptors :=
    { vector := { count := 1, capacity := 64, contents := 131072,
                  slots := fun _ => some (some ⟨1, 0⟩) }
      block := ⟨131072, 64⟩
      generation := 1 } }

end TaskFiles

end Kernel
end Pinyon
