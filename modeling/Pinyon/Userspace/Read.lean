import Pinyon.Kernel.FileRead
import Pinyon.Userspace.Syscalls

namespace Pinyon
namespace Userspace

open Pine Kernel

/-!
# Reading

`read` asks the kernel for one byte less than its caller has room for, and stores a NUL
behind what it has got.  It takes the result for the place of the NUL without looking
whether it is an error.
-/

variable {target : Target} {devices : Devices target} {files : TaskFiles}
variable {fd : IntType.int.Value target} {buf atMostBytes : Word target} {bytes : List UInt8}

/-- A store at an index that may be negative. -/
def storeAt (buf : List UInt8) (index : Int) (char : UInt8) : Option (List UInt8) :=
  if index < 0 then none else storeChar buf index.toNat char

/-- The operations of a task with a buffer, of which `bytes` are all that it has room for.
A store anywhere else is `none`. -/
def readingInto (others : TaskCalls target (Option (List UInt8))) (files : TaskFiles)
    (devices : Devices target) (buf : Word target) : TaskCalls target (Option (List UInt8)) :=
  { others with
    read := fun fd pointer atMostBytes bytes =>
      let read := bytes.bind fun bytes =>
        if pointer = buf then files.readInto devices fd.num bytes atMostBytes.num.toNat
        else none
      match read with
      | none => (toSsize target 0, none)
      | some (ret, bytes) => (ret, some bytes) }

/-- The registers of `syscall3`. -/
def readWords (fd : IntType.int.Value target) (buf atMostBytes : Word target) :
    SyscallWords target where
  callData := enumWord target Syscall.Read.value
  arg1 := fromSignedCast fd
  arg2 := buf
  arg3 := Request.lessOne atMostBytes

/-- `read`. -/
def read (tasks : TaskCalls target (Option (List UInt8))) (fd : IntType.int.Value target)
    (buf atMostBytes : Word target) (bytes : Option (List UInt8)) :
    Option (Ssize target × List UInt8) := do
  let reply := handleSyscall tasks (readWords fd buf atMostBytes) bytes
  let bytesRead := toSsize target reply.result.num
  let bytes <- reply.state
  let bytes <- storeAt bytes bytesRead.num 0
  return (bytesRead, bytes)

/-- Nothing is stored outside the buffer, and a result that is no error is the place of a NUL
in it. -/
def StaysInside (atMostBytes : Word target)
    (returned : Option (Ssize target × List UInt8)) : Prop :=
  Exists fun bytesRead => Exists fun bytes => returned = some (bytesRead, bytes) ∧
    (0 ≤ bytesRead.num -> bytesRead.num < atMostBytes.num ∧ bytes[bytesRead.num.toNat]? = some 0)

/-- The system call is understood, and what the kernel returns comes back. -/
theorem read_eq (others : TaskCalls target (Option (List UInt8))) (files : TaskFiles)
    (devices : Devices target) (fd : IntType.int.Value target) (buf atMostBytes : Word target)
    (bytes : List UInt8) :
    read (readingInto others files devices buf) fd buf atMostBytes (some bytes) =
      (files.readInto devices fd.num bytes (Request.lessOne atMostBytes).num.toNat).bind
        fun ret => (storeAt ret.2 ret.1.num 0).map fun bytes => (ret.1, bytes) := by
  have sent : (Request.read fd buf atMostBytes).Sends (readWords fd buf atMostBytes) :=
    ⟨rfl, [], rfl⟩
  have answered : Request.Answered (readingInto others files devices buf) (some bytes) _ _ :=
    Request.answered_of_sends sent
  rw [Request.Answered, Request.perform] at answered
  unfold read
  generalize handleSyscall _ (readWords fd buf atMostBytes) _ = reply at answered ⊢
  cases ran : files.readInto devices fd.num bytes (Request.lessOne atMostBytes).num.toNat with
  | none =>
      have performed : (readingInto others files devices buf).read fd buf
          (Request.lessOne atMostBytes) (some bytes) = (toSsize target 0, none) := by
        dsimp only [readingInto]
        rw [Option.bind_some, if_pos rfl, ran]
      rw [performed] at answered
      have lost : reply.state = none := (Prod.ext_iff.mp answered).2
      dsimp only
      rw [lost]
      rfl
  | some ret =>
      have performed : (readingInto others files devices buf).read fd buf
          (Request.lessOne atMostBytes) (some bytes) = (ret.1, some ret.2) := by
        dsimp only [readingInto]
        rw [Option.bind_some, if_pos rfl, ran]
      rw [performed] at answered
      have kept : reply.state = some ret.2 := (Prod.ext_iff.mp answered).2
      have result : toSsize target reply.result.num = ret.1 :=
        Returned.ssize.inj (Prod.ext_iff.mp answered).1
      dsimp only
      rw [kept, result, Option.bind_eq_bind, Option.bind_some, Option.bind_some]
      cases storeAt ret.2 ret.1.num 0 with
      | none => rfl
      | some after => rfl

theorem lessOne_num (some_ : 1 ≤ atMostBytes.num) :
    (Request.lessOne atMostBytes).num = atMostBytes.num - 1 := by
  apply IntType.convert_of_holds
  have low := atMostBytes.holds.1
  have high := atMostBytes.holds.2
  have zero : (IntType.ptrData target).min target = 0 := by
    cases target <;> rfl
  constructor <;> omega

/-- The NUL is stored where there is room for it just when what was read leaves it. -/
theorem staysInside_iff {room : Nat} (whole : bytes.length = room + 1)
    (bound : atMostBytes.num = room + 1) {ran : Option (Ssize target × List UInt8)}
    (keeps : forall ret after, ran = some (ret, after) -> after.length = bytes.length) :
    StaysInside atMostBytes (ran.bind fun ret =>
        (storeAt ret.2 ret.1.num 0).map fun bytes => (ret.1, bytes)) <->
      ReadWithin room ran := by
  constructor
  · rintro ⟨bytesRead, after, returned, inside⟩
    rcases Option.bind_eq_some_iff.mp returned with ⟨⟨ret, stored⟩, rfl, ended⟩
    rcases Option.map_eq_some_iff.mp ended with ⟨last, storedLast, same⟩
    cases (Prod.mk.inj same).1
    have nonneg : 0 ≤ ret.num := by
      unfold storeAt at storedLast
      split at storedLast
      · cases storedLast
      next nonneg => exact Int.not_lt.mp nonneg
    have below : ret.num < atMostBytes.num := (inside nonneg).1
    exact ⟨ret, stored, rfl, nonneg, by omega⟩
  · rintro ⟨ret, after, rfl, nonneg, fits⟩
    have there : ret.num.toNat < after.length := by
      rw [keeps ret after rfl, whole]
      omega
    refine ⟨ret, after.set ret.num.toNat 0, ?_, fun _ => ⟨by omega, List.getElem?_set_self there⟩⟩
    rw [Option.bind_some, storeAt, if_neg (Int.not_lt.mpr nonneg), storeChar_of_lt there]
    rfl

/-- Reading stays inside the buffer of the caller just when the number of bytes is no more than
a result can be, and the descriptor is not open, or it can be read from and the UART, if that is
what it is for, does not take another request for the one of this call. -/
theorem read_stays_inside_iff (others : TaskCalls target (Option (List UInt8)))
    (files : TaskFiles) (devices : Devices target) (fd : IntType.int.Value target)
    (buf atMostBytes : Word target) (bytes : List UInt8) (whole : bytes.length = atMostBytes.num)
    (some_ : 1 ≤ atMostBytes.num) :
    StaysInside atMostBytes (read (readingInto others files devices buf) fd buf atMostBytes bytes) <->
      atMostBytes.num - 1 ≤ ssizeMax target ∧
        (files.NotOpen fd.num ∨ files.Readable devices fd.num (atMostBytes.num - 1).toNat) := by
  have length : bytes.length = (atMostBytes.num - 1).toNat + 1 := by omega
  have bound : atMostBytes.num = ((atMostBytes.num - 1).toNat : Int) + 1 := by omega
  have inside : (atMostBytes.num - 1).toNat ≤ bytes.length := by omega
  have small : (atMostBytes.num - 1).toNat ≤ ssizeMax target <->
      atMostBytes.num - 1 ≤ ssizeMax target := by omega
  have keeps : forall ret after, files.readInto devices fd.num bytes (atMostBytes.num - 1).toNat =
      some (ret, after) -> after.length = bytes.length := by
    intro ret after reads
    exact TaskFiles.readInto_length reads
  rw [read_eq, lessOne_num some_, staysInside_iff length bound keeps,
    TaskFiles.readWithin_iff inside, small]

/-- A task that makes no other calls. -/
def quiet : TaskCalls .aarch64 (Option (List UInt8)) where
  exitRunningTask _ state := state
  schedule state := state
  sleep _ state := state
  «open» _ _ state := (IntType.int.cast .aarch64 (-1), state)
  read _ _ _ state := (toSsize .aarch64 0, state)
  write _ _ _ state := (toSsize .aarch64 0, state)
  close _ state := (IntType.int.cast .aarch64 0, state)
  dup _ state := (IntType.int.cast .aarch64 (-1), state)
  sbrk _ state := ((IntType.ptrData .aarch64).cast .aarch64 0, state)
  jiffies _ := IntType.unsignedInt.cast .aarch64 0
  cputime _ := IntType.unsignedInt.cast .aarch64 0

/-- Nothing is displayed, and nothing is received. -/
def idleDevices : Devices .aarch64 where
  displayed := CString.empty
  displayedLength := 0
  received := []
  requestSize := (IntType.ptrData .aarch64).cast .aarch64 0

/-- A descriptor with the description that is given. -/
def describing (description : FileDescription) : TaskFiles :=
  { TaskFiles.reader with fileTable := { files := { TaskFiles.reader.fileTable.files with
      vector := { TaskFiles.reader.fileTable.files.vector with slots := fun _ => some description } } } }

/-- A descriptor that may only be written to. -/
def writer : TaskFiles :=
  describing { file := .DevNullFile, mode := .Write }

/-- A descriptor that zeros are read from. -/
def zeroReader : TaskFiles :=
  describing { file := .DevZeroFile, mode := .Read }

/-- The pointer to the buffer of the two tasks. -/
def sixteenAt : Word .aarch64 :=
  (IntType.ptrData .aarch64).cast .aarch64 4194304

def sixteen : Word .aarch64 :=
  (IntType.ptrData .aarch64).cast .aarch64 16

/-- Reading zeros fills the buffer up to the place of the NUL. -/
theorem read_stays_inside_zeros :
    StaysInside sixteen (read (readingInto quiet zeroReader idleDevices sixteenAt)
      (IntType.int.cast .aarch64 0) sixteenAt sixteen (some (List.replicate 16 255))) := by
  refine (read_stays_inside_iff quiet zeroReader idleDevices (IntType.int.cast .aarch64 0)
    sixteenAt sixteen (List.replicate 16 255) (by decide) (by decide)).mpr ⟨by decide, .inr ?_⟩
  exact ⟨⟨1, 0⟩, { file := .DevZeroFile, mode := .Read }, rfl, rfl, by decide, rfl, by rintro ⟨⟩⟩

/-- Reading from a descriptor that may only be written to stores a NUL two bytes in front of
the buffer. -/
theorem not_staysInside_writer :
    ¬ StaysInside sixteen (read (readingInto quiet writer idleDevices sixteenAt)
      (IntType.int.cast .aarch64 0) sixteenAt sixteen (some (List.replicate 16 255))) := by
  have ran : writer.readInto idleDevices (IntType.int.cast .aarch64 0).num (List.replicate 16 255)
      (Request.lessOne sixteen).num.toNat = some (toSsize .aarch64 (-2), List.replicate 16 255) :=
    rfl
  have outside : storeAt (List.replicate 16 255) (toSsize .aarch64 (-2)).num 0 = none := rfl
  rw [read_eq, ran, Option.bind_some, outside]
  rintro ⟨_, _, returned, _⟩
  cases returned

end Userspace
end Pinyon
