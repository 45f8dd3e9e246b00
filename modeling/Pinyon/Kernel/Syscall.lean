import Pinyon.Pine.Cast
import Pinyon.Kernel.File

namespace Pinyon
namespace Kernel

open Pine

/-!
# System calls

`handle_syscall` gets four words from a task.  It takes the call and its arguments out of
them, and has the task or the task manager do what they ask for.
-/

inductive Syscall where
  | Yield
  | Sleep
  | Open
  | Read
  | Write
  | Close
  | Dup
  | Sbrk
  | Uptime
  | CPUTime
  | Exit
deriving DecidableEq, Repr

/-- The values of the underlying type, which is `int`. -/
def Syscall.value : Syscall -> Int
  | Yield => 0
  | Sleep => 1
  | Open => 2
  | Read => 3
  | Write => 4
  | Close => 5
  | Dup => 6
  | Sbrk => 7
  | Uptime => 8
  | CPUTime => 9
  | Exit => 10

def Syscall.all : List Syscall :=
  [Yield, Sleep, Open, Read, Write, Close, Dup, Sbrk, Uptime, CPUTime, Exit]

def FileMode.value : FileMode -> Int
  | Read => 0
  | Write => 1
  | ReadWrite => 2

def FileMode.all : List FileMode :=
  [Read, Write, ReadWrite]

variable {target : Target} {State : Type}

/-- An enumerator of an `enum class`, as the value of its underlying type. -/
def enumValue (target : Target) (num : Int) : IntType.int.Value target :=
  IntType.int.cast target num

/-- What `validate_syscall` and `validate_file_mode` do: the enumerator that a word is cast
to, if the word is not below the first or above the last one. -/
def validateEnum {Enum : Type} (value : Enum -> Int) (all : List Enum) (first last : Enum)
    (data : Word target) : Option Enum :=
  let signed := ((IntType.ssize target).cast target data.num).num
  if signed < value first ∨ value last < signed then none
  else all.find? fun enumerator => value enumerator = (IntType.int.cast target data.num).num

def validateSyscall (callData : Word target) : Option Syscall :=
  validateEnum Syscall.value Syscall.all .Yield .Exit callData

def validateFileMode (fileModeData : Word target) : Option FileMode :=
  validateEnum FileMode.value FileMode.all .Read .ReadWrite fileModeData

/-- What `handle_syscall` has the running task and the task manager do. -/
structure TaskCalls (target : Target) (State : Type) where
  exitRunningTask : IntType.int.Value target -> State -> State
  schedule : State -> State
  sleep : IntType.unsignedInt.Value target -> State -> State
  «open» : Word target -> FileMode -> State -> IntType.int.Value target × State
  read : IntType.int.Value target -> (buf atMostBytes : Word target) -> State ->
    (IntType.ssize target).Value target × State
  write : IntType.int.Value target -> (buf bytes : Word target) -> State ->
    (IntType.ssize target).Value target × State
  close : IntType.int.Value target -> State -> IntType.int.Value target × State
  dup : IntType.int.Value target -> State -> IntType.int.Value target × State
  sbrk : Word target -> State -> Word target × State
  jiffies : State -> IntType.unsignedInt.Value target
  cputime : State -> IntType.unsignedInt.Value target

/-- The words that a task leaves in its registers. -/
structure SyscallWords (target : Target) where
  callData : Word target
  arg1 : Word target
  arg2 : Word target
  arg3 : Word target

/-- The word that is returned, and what is printed about a call that is not known. -/
structure SyscallReply (target : Target) (State : Type) where
  result : Word target
  unknown : Option (Word target) := none
  state : State

/-- The word for minus one. -/
def conversionError (target : Target) : Word target :=
  fromSignedCast (IntType.int.cast target (-1))

/-- `handle_syscall`. -/
def handleSyscall (tasks : TaskCalls target State) (words : SyscallWords target) (state : State) :
    SyscallReply target State :=
  match validateSyscall words.callData with
  | none => { result := conversionError target, unknown := some words.callData, state }
  | some .Exit =>
      if fitsWithin .int words.arg1 then
        { result := (IntType.ptrData target).cast target 0
          state := tasks.exitRunningTask (toSignedCast .int words.arg1) state }
      else { result := conversionError target, state }
  | some .Yield =>
      { result := (IntType.ptrData target).cast target 0, state := tasks.schedule state }
  | some .Sleep =>
      if fitsWithin .unsignedInt words.arg1 then
        { result := (IntType.ptrData target).cast target 0
          state := tasks.sleep (ofWord .unsignedInt words.arg1) state }
      else { result := conversionError target, state }
  | some .Open =>
      match validateFileMode words.arg2 with
      | none => { result := conversionError target, state }
      | some fileMode =>
          let (fd, state) := tasks.open words.arg1 fileMode state
          { result := fromSignedCast fd, state }
  | some .Read =>
      if fitsWithin .int words.arg1 then
        let (ret, state) := tasks.read (toSignedCast .int words.arg1) words.arg2 words.arg3 state
        { result := fromSignedCast ret, state }
      else { result := conversionError target, state }
  | some .Write =>
      if fitsWithin .int words.arg1 then
        let (ret, state) := tasks.write (toSignedCast .int words.arg1) words.arg2 words.arg3 state
        { result := fromSignedCast ret, state }
      else { result := conversionError target, state }
  | some .Close =>
      if fitsWithin .int words.arg1 then
        let (ret, state) := tasks.close (toSignedCast .int words.arg1) state
        { result := fromSignedCast ret, state }
      else { result := conversionError target, state }
  | some .Dup =>
      if fitsWithin .int words.arg1 then
        let (ret, state) := tasks.dup (toSignedCast .int words.arg1) state
        { result := fromSignedCast ret, state }
      else { result := conversionError target, state }
  | some .Sbrk =>
      let (ptr, state) := tasks.sbrk words.arg1 state
      { result := ptr, state }
  | some .Uptime => { result := toWord (tasks.jiffies state), state }
  | some .CPUTime => { result := toWord (tasks.cputime state), state }

/-! ## Enumerators -/

theorem narrow_int (target : Target) : IntType.int.Narrow target := by
  cases target <;> exact Nat.le_of_ble_eq_true rfl

theorem narrow_unsignedInt (target : Target) : IntType.unsignedInt.Narrow target := by
  cases target <;> exact Nat.le_of_ble_eq_true rfl

/-- The word for an enumerator. -/
def enumWord (target : Target) (num : Int) : Word target :=
  toWord (enumValue target num)

/-- Values that are counted up from the first enumerator to the last. -/
structure Counted {Enum : Type} (value : Enum -> Int) (all : List Enum) (first last : Enum) :
    Prop where
  starts : value first = 0
  small : value last < 2 ^ 31
  within_ : forall enumerator, 0 ≤ value enumerator ∧ value enumerator ≤ value last
  finds : forall enumerator, all.find? (fun other => value other = value enumerator) = some enumerator
  covers : forall num, 0 ≤ num -> num ≤ value last -> Exists fun enumerator => value enumerator = num

theorem counted_syscall : Counted Syscall.value Syscall.all .Yield .Exit where
  starts := rfl
  small := by decide
  within_ enumerator := by cases enumerator <;> decide
  finds enumerator := by cases enumerator <;> rfl
  covers num low high := by
    have bounded : num ≤ 10 := high
    interval_cases num
    exacts [⟨.Yield, rfl⟩, ⟨.Sleep, rfl⟩, ⟨.Open, rfl⟩, ⟨.Read, rfl⟩, ⟨.Write, rfl⟩, ⟨.Close, rfl⟩,
      ⟨.Dup, rfl⟩, ⟨.Sbrk, rfl⟩, ⟨.Uptime, rfl⟩, ⟨.CPUTime, rfl⟩, ⟨.Exit, rfl⟩]

theorem counted_fileMode : Counted FileMode.value FileMode.all .Read .ReadWrite where
  starts := rfl
  small := by decide
  within_ enumerator := by cases enumerator <;> decide
  finds enumerator := by cases enumerator <;> rfl
  covers num low high := by
    have bounded : num ≤ 2 := high
    interval_cases num
    exacts [⟨.Read, rfl⟩, ⟨.Write, rfl⟩, ⟨.ReadWrite, rfl⟩]

section

variable {Enum : Type} {value : Enum -> Int} {all : List Enum} {first last : Enum}

theorem Counted.int_holds (counted : Counted value all first last) {num : Int} (low : 0 ≤ num)
    (high : num ≤ value last) : IntType.int.Holds target num := by
  have small := counted.small
  have bounds : IntType.int.min target = -2 ^ 31 ∧ IntType.int.max target = 2 ^ 31 - 1 := by
    cases target <;> decide
  unfold IntType.Holds
  rw [bounds.1, bounds.2]
  omega

/-- The word for an enumerator is a word for the signed number as well. -/
theorem Counted.ssize_enumWord (counted : Counted value all first last) (enumerator : Enum) :
    (IntType.ssize target).convert target (enumWord target (value enumerator)).num =
      value enumerator := by
  rcases counted.within_ enumerator with ⟨low, high⟩
  have holds : IntType.int.Holds target (value enumerator) := counted.int_holds low high
  have wider := limits_hold (narrow_int target) (IntType.width_ssize target)
    (by cases target <;> rfl)
  have kept : (enumValue target (value enumerator)).num = value enumerator :=
    IntType.convert_of_holds holds
  change (IntType.ssize target).convert target ((IntType.ptrData target).convert target
    (enumValue target (value enumerator)).num) = _
  rw [kept, IntType.convert_convert]
  · exact IntType.convert_of_holds ⟨wider.1.1.trans holds.1, holds.2.trans wider.2.2⟩
  · rw [IntType.width_ssize, IntType.width_ptrData]

/-- An enumerator is accepted from its own word only. -/
theorem validateEnum_iff (counted : Counted value all first last) (data : Word target)
    (enumerator : Enum) : validateEnum value all first last data = some enumerator <->
      data = enumWord target (value enumerator) := by
  have lowered : (IntType.int.cast target data.num).num =
      IntType.int.convert target ((IntType.ssize target).convert target data.num) := by
    change IntType.int.convert target data.num = _
    rw [IntType.convert_convert]
    rw [IntType.width_ssize]
    exact narrow_int target
  have signed : ((IntType.ssize target).cast target data.num).num =
      (IntType.ssize target).convert target data.num := rfl
  unfold validateEnum
  dsimp only
  rw [counted.starts, lowered, signed]
  constructor
  · intro accepted
    split at accepted
    · cases accepted
    next inside =>
      rw [not_or, Int.not_lt, Int.not_lt] at inside
      rcases counted.covers _ inside.1 inside.2 with ⟨other, same⟩
      rw [IntType.convert_of_holds (counted.int_holds inside.1 inside.2), ← same,
        counted.finds other] at accepted
      cases accepted
      apply IntType.Value.ext
      change data.num = (IntType.ptrData target).convert target
        (IntType.int.convert target (value enumerator))
      rw [same, IntType.convert_of_holds (counted.int_holds inside.1 inside.2),
        IntType.convert_convert, IntType.convert_of_holds data.holds]
      rw [IntType.width_ssize, IntType.width_ptrData]
  · intro same
    rcases counted.within_ enumerator with ⟨low, high⟩
    rw [same, counted.ssize_enumWord, IntType.convert_of_holds (counted.int_holds low high),
      if_neg (by omega)]
    exact counted.finds enumerator

end

end Kernel
end Pinyon
