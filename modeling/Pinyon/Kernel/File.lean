import Pinyon.Pine.VectorBuffer

namespace Pinyon
namespace Kernel

open Pine

/-!
# Files

All file descriptions of the system live in one vector, `m_files` of the file
table, and are never removed from it: a description that no one refers to any
more is destroyed where it is.  Every task has a table of descriptors, which are
pointers into that vector.

A pointer is modelled by the generation of the buffer it points into and an
index; it leads to a description as long as the buffer has not moved.  Following
any other pointer is an error.
-/

/-- `Errno`; the first error number is zero. -/
inductive Errno where
  | EBADF
  | EFBIG
  | EINVAL
  | ENOMEM
deriving DecidableEq, Repr

def Errno.toInt : Errno -> Int
  | .EBADF => 0
  | .EFBIG => 1
  | .EINVAL => 2
  | .ENOMEM => 3

inductive FileMode where
  | Read
  | Write
  | ReadWrite
deriving DecidableEq, Repr

/-- The classes of files. -/
inductive File where
  | DevNullFile
  | DevZeroFile
  | UARTFile
  | DisplayFile
deriving DecidableEq, Repr

/-- The file that a path names. -/
def File.ofPath (path : String) : Option File :=
  if path = "/dev/null" then some .DevNullFile
  else if path = "/dev/zero" then some .DevZeroFile
  else if path = "/dev/uart0" then some .UARTFile
  else if path = "/dev/display" then some .DisplayFile
  else none

/-- A description, together with how often its destructor has run. -/
structure FileDescription where
  file : File
  mode : FileMode
  refCount : Nat := 1
  destroyed : Nat := 0
deriving DecidableEq, Repr

/-- `sizeof(FileDescription)`: the allocator and the object of the owner, the
mode and the count. -/
def descriptionSize (target : Target) : ElementSize where
  bytes := 2 * target.wordSize + 8
  positive := Nat.add_pos_right _ (by decide)

/-- `sizeof(FileDescription*)`. -/
def pointerSize (target : Target) : ElementSize where
  bytes := target.wordSize
  positive := target.wordSize_pos

structure FilePointer where
  generation : Nat
  index : Nat
deriving DecidableEq, Repr

structure FileTable where
  files : Buffer FileDescription

namespace FileTable

def empty : FileTable where
  files := Buffer.empty FileDescription

/-- The description that a pointer leads to. -/
def descriptionAt (table : FileTable) (pointer : FilePointer) : Option FileDescription :=
  if pointer.generation = table.files.generation ∧ pointer.index < table.files.vector.count then
    table.files.vector.slots pointer.index
  else none

def write (table : FileTable) (pointer : FilePointer) (description : FileDescription) : FileTable :=
  { table with files := { table.files with vector := { table.files.vector with
      slots := Function.update table.files.vector.slots pointer.index (some description) } } }

/-- `FileTable::open`.  `created` says whether there is memory for the file. -/
def «open» (target : Target) (allocate : Nat -> Allocation) (table : FileTable) (path : String)
    (mode : FileMode) (created : Bool) : Option (Option FilePointer × FileTable) :=
  match File.ofPath path with
  | none => some (none, table)
  | some file =>
      if created = false then some (none, table)
      else do
        let (appended, files) <- table.files.append target (descriptionSize target) allocate
          { file := file, mode := mode }
        if appended then return (some ⟨files.generation, files.vector.count - 1⟩, ⟨files⟩)
        return (none, ⟨files⟩)

/-- `FileTable::close`.  The count is an `unsigned`. -/
def close (table : FileTable) (pointer : FilePointer) : Option FileTable := do
  let description <- table.descriptionAt pointer
  let refCount := (description.refCount + (2 ^ 32 - 1)) % 2 ^ 32
  return table.write pointer
    { description with
      refCount := refCount
      destroyed := if refCount = 0 then description.destroyed + 1 else description.destroyed }

end FileTable

/-- `pine::limits<int>::max`. -/
def intMax : Nat := 2 ^ 31 - 1

structure FileDescriptorTable where
  /-- `m_descriptors`; a null pointer is `none`. -/
  descriptors : Buffer (Option FilePointer)

namespace FileDescriptorTable

def empty : FileDescriptorTable where
  descriptors := Buffer.empty (Option FilePointer)

def length (table : FileDescriptorTable) : Nat :=
  table.descriptors.vector.count

def setSlot (table : FileDescriptorTable) (index : Nat) (descriptor : Option FilePointer) :
    FileDescriptorTable :=
  { table with descriptors := { table.descriptors with vector := { table.descriptors.vector with
      slots := Function.update table.descriptors.vector.slots index (some descriptor) } } }

/-- The first descriptor that is null. -/
def firstNull (table : FileDescriptorTable) : Option Nat :=
  (List.range table.length).find? fun index => table.descriptors.vector.slots index = some none

def tryInsert (target : Target) (allocate : Nat -> Allocation) (table : FileDescriptorTable)
    (description : FilePointer) : Option (Int × FileDescriptorTable) :=
  if intMax < table.length then some (-1, table)
  else
    match table.firstNull with
    | some fdIndex => some (fdIndex, table.setSlot fdIndex (some description))
    | none => do
        let (appended, descriptors) <- table.descriptors.append target (pointerSize target) allocate
          (some description)
        if appended then return ((descriptors.vector.count : Int) - 1, ⟨descriptors⟩)
        return (-1, ⟨descriptors⟩)

/-- `try_get`; the null pointer is `none`. -/
def tryGet (table : FileDescriptorTable) (fd : Int) : Option FilePointer :=
  if fd < 0 then none
  else if table.length ≤ fd.toNat then none
  else (table.descriptors.vector.slots fd.toNat).join

/-- `FileDescriptorTable::open`, which works on the file table as well.  The
allocator serves the two vectors in turn. -/
def «open» (target : Target) (filesAllocate descriptorsAllocate : Nat -> Allocation)
    (fileTable : FileTable) (table : FileDescriptorTable) (path : String) (mode : FileMode)
    (created : Bool) : Option (Int × FileTable × FileDescriptorTable) := do
  let (maybeDescription, fileTable) <- fileTable.open target filesAllocate path mode created
  match maybeDescription with
  | none => return (-1, fileTable, table)
  | some description =>
      let (fdOrNeg, table) <- table.tryInsert target descriptorsAllocate description
      if fdOrNeg = -1 then
        let fileTable <- fileTable.close description
        return (-1, fileTable, table)
      else return (fdOrNeg, fileTable, table)

def close (fileTable : FileTable) (table : FileDescriptorTable) (fd : Int) :
    Option (Int × FileTable × FileDescriptorTable) :=
  match table.tryGet fd with
  | none => some (-Errno.EBADF.toInt, fileTable, table)
  | some descriptor => do
      let fileTable <- fileTable.close descriptor
      return (0, fileTable, table.setSlot fd.toNat none)

/-- The description gets a second descriptor; its count stays as it is. -/
def dup (target : Target) (allocate : Nat -> Allocation) (table : FileDescriptorTable) (fd : Int) :
    Option (Int × FileDescriptorTable) :=
  match table.tryGet fd with
  | none => some (-Errno.EBADF.toInt, table)
  | some descriptor => table.tryInsert target allocate descriptor

/-! ## What the calls of a table do -/

variable {target : Target} {allocate filesAllocate : Nat -> Allocation} {fileTable files : FileTable}
variable {table after : FileDescriptorTable} {path : String} {mode : FileMode} {created : Bool}
variable {fd result : Int}

/-- An open fails on the file table, fails on the table of descriptors and closes what
it opened, or has inserted what it opened. -/
theorem open_cases (ran : FileDescriptorTable.open target filesAllocate allocate fileTable table path
      mode created = some (result, files, after)) :
    fileTable.open target filesAllocate path mode created = some (none, files) ∧ result = -1 ∧
        after = table ∨
      Exists fun description => Exists fun opened =>
        fileTable.open target filesAllocate path mode created = some (some description, opened) ∧
        (table.tryInsert target allocate description = some (-1, after) ∧ result = -1 ∧
            opened.close description = some files ∨
          table.tryInsert target allocate description = some (result, after) ∧ result ≠ -1 ∧
            files = opened) := by
  rcases Option.bind_eq_some_iff.mp ran with ⟨⟨maybeDescription, opened⟩, opens, rest⟩
  cases maybeDescription with
  | none =>
      cases Option.some.inj rest
      exact .inl ⟨opens, rfl, rfl⟩
  | some description =>
      refine .inr ⟨description, opened, opens, ?_⟩
      rcases Option.bind_eq_some_iff.mp rest with ⟨⟨fdOrNeg, inserted⟩, inserts, last⟩
      by_cases failed : fdOrNeg = -1
      · simp only [failed, if_true] at last
        rcases Option.bind_eq_some_iff.mp last with ⟨closed, closes, done⟩
        cases Option.some.inj done
        exact .inl ⟨failed ▸ inserts, rfl, closes⟩
      · simp only [failed, if_false] at last
        cases Option.some.inj last
        exact .inr ⟨inserts, failed, rfl⟩

theorem close_cases (ran : FileDescriptorTable.close fileTable table fd = some (result, files, after)) :
    table.tryGet fd = none ∧ result = -Errno.EBADF.toInt ∧ files = fileTable ∧ after = table ∨
      Exists fun descriptor => table.tryGet fd = some descriptor ∧
        fileTable.close descriptor = some files ∧ result = 0 ∧
        after = table.setSlot fd.toNat none := by
  rw [FileDescriptorTable.close] at ran
  cases got : table.tryGet fd with
  | none =>
      rw [got] at ran
      cases Option.some.inj ran
      exact .inl ⟨rfl, rfl, rfl, rfl⟩
  | some descriptor =>
      rw [got] at ran
      rcases Option.bind_eq_some_iff.mp ran with ⟨closed, closes, done⟩
      cases Option.some.inj done
      exact .inr ⟨descriptor, rfl, closes, rfl, rfl⟩

theorem dup_cases (ran : table.dup target allocate fd = some (result, after)) :
    table.tryGet fd = none ∧ result = -Errno.EBADF.toInt ∧ after = table ∨
      Exists fun descriptor => table.tryGet fd = some descriptor ∧
        table.tryInsert target allocate descriptor = some (result, after) := by
  rw [FileDescriptorTable.dup] at ran
  cases got : table.tryGet fd with
  | none =>
      rw [got] at ran
      cases Option.some.inj ran
      exact .inl ⟨rfl, rfl, rfl⟩
  | some descriptor =>
      rw [got] at ran
      exact .inr ⟨descriptor, rfl, ran⟩

end FileDescriptorTable

end Kernel
end Pinyon
