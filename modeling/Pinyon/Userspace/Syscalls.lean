import Mathlib
import Pinyon.Kernel.Syscall

namespace Pinyon
namespace Userspace

open Pine Kernel

/-!
# Requests

A task makes its requests through functions that put the call and the arguments in the first
registers.  The other registers hold whatever they held.  Each function takes its result out
of the word that it gets.
-/

/-- The functions that make a system call, with their arguments. -/
inductive Request (target : Target) where
  | «open» (path : Word target) (mode : FileMode)
  | read (fd : IntType.int.Value target) (buf atMostBytes : Word target)
  | write (fd : IntType.int.Value target) (buf bytes : Word target)
  | close (fd : IntType.int.Value target)
  | dup (fd : IntType.int.Value target)
  | yield
  | sleep (secs : IntType.unsignedInt.Value target)
  | uptime
  | cputime
  | sbrk (increase : Word target)
  | exit (code : IntType.int.Value target)

/-- What such a function returns. -/
inductive Returned (target : Target) where
  | nothing
  | int (num : IntType.int.Value target)
  | ssize (num : (IntType.ssize target).Value target)
  | unsigned (num : IntType.unsignedInt.Value target)
  | pointer (ptr : Word target)

namespace Request

variable {target : Target} {State : Type}

def call : Request target -> Syscall
  | «open» _ _ => .Open
  | read _ _ _ => .Read
  | write _ _ _ => .Write
  | close _ => .Close
  | dup _ => .Dup
  | yield => .Yield
  | sleep _ => .Sleep
  | uptime => .Uptime
  | cputime => .CPUTime
  | sbrk _ => .Sbrk
  | exit _ => .Exit

/-- The room that `read` leaves for the NUL. -/
def lessOne (bytes : Word target) : Word target :=
  (IntType.ptrData target).cast target (bytes.num - 1)

/-- The words that are passed after the call. -/
def args : Request target -> List (Word target)
  | «open» path mode => [path, fromSignedCast (enumValue target mode.value)]
  | read fd buf atMostBytes => [fromSignedCast fd, buf, lessOne atMostBytes]
  | write fd buf bytes => [fromSignedCast fd, buf, bytes]
  | close fd => [fromSignedCast fd]
  | dup fd => [fromSignedCast fd]
  | sleep secs => [toWord secs]
  | sbrk increase => [increase]
  | exit code => [(IntType.ptrData target).cast target
      ((IntType.ssize target).cast target code.num).num]
  | yield | uptime | cputime => []

/-- The registers of a task that makes a request. -/
def Sends (request : Request target) (words : SyscallWords target) : Prop :=
  words.callData = enumWord target request.call.value ∧
    request.args <+: [words.arg1, words.arg2, words.arg3]

/-- The result that is taken out of a word. -/
def receive (request : Request target) (result : Word target) : Returned target :=
  match request with
  | «open» _ _ | close _ | dup _ => .int (toSignedCast .int result)
  | read _ _ _ | write _ _ _ => .ssize ((IntType.ssize target).cast target result.num)
  | uptime | cputime => .unsigned (ofWord .unsignedInt result)
  | sbrk _ => .pointer result
  | yield | sleep _ | exit _ => .nothing

/-- What is asked for, and what it returns. -/
def perform (tasks : TaskCalls target State) (state : State) : Request target -> Returned target × State
  | «open» path mode =>
      let (fd, state) := tasks.open path mode state
      (.int fd, state)
  | read fd buf atMostBytes =>
      let (ret, state) := tasks.read fd buf (lessOne atMostBytes) state
      (.ssize ret, state)
  | write fd buf bytes =>
      let (ret, state) := tasks.write fd buf bytes state
      (.ssize ret, state)
  | close fd =>
      let (ret, state) := tasks.close fd state
      (.int ret, state)
  | dup fd =>
      let (ret, state) := tasks.dup fd state
      (.int ret, state)
  | yield => (.nothing, tasks.schedule state)
  | sleep secs => (.nothing, tasks.sleep secs state)
  | uptime => (.unsigned (tasks.jiffies state), state)
  | cputime => (.unsigned (tasks.cputime state), state)
  | sbrk increase =>
      let (ptr, state) := tasks.sbrk increase state
      (.pointer ptr, state)
  | exit code => (.nothing, tasks.exitRunningTask code state)

variable {tasks : TaskCalls target State} {words : SyscallWords target} {state : State}
variable {request : Request target}

/-- The reply to a request is that the operation was done, and its result. -/
def Answered (tasks : TaskCalls target State) (state : State) (request : Request target)
    (reply : SyscallReply target State) : Prop :=
  (request.receive reply.result, reply.state) = request.perform tasks state

theorem receive_ssize (ret : (IntType.ssize target).Value target) :
    (IntType.ssize target).cast target (fromSignedCast ret).num = ret := by
  have narrow : (IntType.ssize target).Narrow target := Nat.le_of_eq (IntType.width_ssize target)
  rw [fromSignedCast_eq]
  exact ofWord_toWord narrow ret

theorem fits_int (fd : IntType.int.Value target) : fitsWithin .int (fromSignedCast fd) = true :=
  (fitsWithin_iff (narrow_int target) _).mpr ⟨fd, fromSignedCast_eq fd⟩

theorem cast_int (fd : IntType.int.Value target) : toSignedCast .int (fromSignedCast fd) = fd :=
  toSignedCast_fromSignedCast (narrow_int target) fd

theorem mode_accepted (mode : FileMode) :
    validateFileMode (fromSignedCast (enumValue target mode.value)) = some mode := by
  rw [fromSignedCast_eq]
  exact (validateEnum_iff counted_fileMode _ _).mpr rfl

/-- What a request sends is understood, and what comes back is what the operation returned. -/
theorem answered_of_sends (sends : request.Sends words) :
    Answered tasks state request (handleSyscall tasks words state) := by
  rcases words with ⟨callData, arg1, arg2, arg3⟩
  rcases sends with ⟨rfl, args⟩
  have known : validateSyscall (enumWord target request.call.value) = some request.call :=
    (validateEnum_iff counted_syscall _ _).mpr rfl
  unfold Answered handleSyscall
  dsimp only at args ⊢
  rw [known]
  cases request with
  | «open» path mode =>
      rcases args with ⟨rest, same⟩
      cases same
      simp only [call, mode_accepted, receive, perform, cast_int]
  | read fd buf atMostBytes =>
      rcases args with ⟨rest, same⟩
      cases same
      simp only [call, fits_int, if_true, receive, perform, cast_int, receive_ssize]
  | write fd buf bytes =>
      rcases args with ⟨rest, same⟩
      cases same
      simp only [call, fits_int, if_true, receive, perform, cast_int, receive_ssize]
  | close fd =>
      rcases args with ⟨rest, same⟩
      cases same
      simp only [call, fits_int, if_true, receive, perform, cast_int]
  | dup fd =>
      rcases args with ⟨rest, same⟩
      cases same
      simp only [call, fits_int, if_true, receive, perform, cast_int]
  | yield => rfl
  | sleep secs =>
      rcases args with ⟨rest, same⟩
      cases same
      have fits : fitsWithin .unsignedInt (toWord secs) = true :=
        (fitsWithin_iff (narrow_unsignedInt target) _).mpr ⟨secs, rfl⟩
      simp only [call, fits, if_true, receive, perform, ofWord_toWord (narrow_unsignedInt target)]
  | uptime =>
      simp only [call, receive, perform, ofWord_toWord (narrow_unsignedInt target)]
  | cputime =>
      simp only [call, receive, perform, ofWord_toWord (narrow_unsignedInt target)]
  | sbrk increase =>
      rcases args with ⟨rest, same⟩
      cases same
      rfl
  | exit code =>
      rcases args with ⟨rest, same⟩
      cases same
      have passed : (IntType.ptrData target).cast target
          ((IntType.ssize target).cast target code.num).num = fromSignedCast code := rfl
      simp only [call, passed, fits_int, if_true, receive, perform, cast_int]

theorem exists_int {data : Word target} (fits : fitsWithin .int data = true) :
    Exists fun fd : IntType.int.Value target => data = fromSignedCast fd := by
  rcases (fitsWithin_iff (narrow_int target) data).mp fits with ⟨fd, same⟩
  exact ⟨fd, same.trans (fromSignedCast_eq fd).symm⟩

theorem exists_lessOne (bytes : Word target) :
    Exists fun atMostBytes : Word target => bytes = lessOne atMostBytes := by
  refine ⟨(IntType.ptrData target).cast target (bytes.num + 1), IntType.Value.ext ?_⟩
  have back := (IntType.convert_modEq target (IntType.ptrData target) (bytes.num + 1)).sub_right 1
  rw [Int.add_sub_cancel] at back
  exact ((IntType.convert_congr back).trans (IntType.convert_of_holds bytes.holds)).symm

/-- Words that no request sends come from no call that is known, or from one whose first
argument, or whose mode, is none. -/
theorem refused_of_not_sends (unsent : ¬ Exists fun request : Request target => request.Sends words) :
    (handleSyscall tasks words state).result = conversionError target ∧
      (handleSyscall tasks words state).state = state := by
  rcases words with ⟨callData, arg1, arg2, arg3⟩
  have sent {callData : Word target} {call : Syscall}
      (known : validateSyscall callData = some call) : callData = enumWord target call.value :=
    (validateEnum_iff counted_syscall _ _).mp known
  unfold handleSyscall
  dsimp only
  cases known : validateSyscall callData with
  | none => exact ⟨rfl, rfl⟩
  | some call =>
      cases call with
      | Yield => exact absurd ⟨yield, sent known, List.nil_prefix⟩ unsent
      | Sleep =>
          cases fits : fitsWithin .unsignedInt arg1 with
          | false => exact ⟨rfl, rfl⟩
          | true =>
              rcases (fitsWithin_iff (narrow_unsignedInt target) arg1).mp fits with ⟨secs, rfl⟩
              exact absurd ⟨sleep secs, sent known, [arg2, arg3], rfl⟩ unsent
      | Open =>
          cases accepted : validateFileMode arg2 with
          | none => exact ⟨rfl, rfl⟩
          | some mode =>
              have same : arg2 = fromSignedCast (enumValue target mode.value) :=
                ((validateEnum_iff counted_fileMode _ _).mp accepted).trans (fromSignedCast_eq _).symm
              cases same
              exact absurd ⟨«open» arg1 mode, sent known, [arg3], rfl⟩ unsent
      | Read =>
          cases fits : fitsWithin .int arg1 with
          | false => exact ⟨rfl, rfl⟩
          | true =>
              rcases exists_int fits with ⟨fd, rfl⟩
              rcases exists_lessOne arg3 with ⟨atMostBytes, rfl⟩
              exact absurd ⟨read fd arg2 atMostBytes, sent known, [], rfl⟩ unsent
      | Write =>
          cases fits : fitsWithin .int arg1 with
          | false => exact ⟨rfl, rfl⟩
          | true =>
              rcases exists_int fits with ⟨fd, rfl⟩
              exact absurd ⟨write fd arg2 arg3, sent known, [], rfl⟩ unsent
      | Close =>
          cases fits : fitsWithin .int arg1 with
          | false => exact ⟨rfl, rfl⟩
          | true =>
              rcases exists_int fits with ⟨fd, rfl⟩
              exact absurd ⟨close fd, sent known, [arg2, arg3], rfl⟩ unsent
      | Dup =>
          cases fits : fitsWithin .int arg1 with
          | false => exact ⟨rfl, rfl⟩
          | true =>
              rcases exists_int fits with ⟨fd, rfl⟩
              exact absurd ⟨dup fd, sent known, [arg2, arg3], rfl⟩ unsent
      | Sbrk => exact absurd ⟨sbrk arg1, sent known, [arg2, arg3], rfl⟩ unsent
      | Uptime => exact absurd ⟨uptime, sent known, List.nil_prefix⟩ unsent
      | CPUTime => exact absurd ⟨cputime, sent known, List.nil_prefix⟩ unsent
      | Exit =>
          cases fits : fitsWithin .int arg1 with
          | false => exact ⟨rfl, rfl⟩
          | true =>
              rcases exists_int fits with ⟨code, rfl⟩
              exact absurd ⟨exit code, sent known, [arg2, arg3], rfl⟩ unsent

/-- A request is answered with what the operation returns, and words that are no request's
are answered with minus one and change nothing. -/
theorem syscalls_agree (tasks : TaskCalls target State) (words : SyscallWords target)
    (state : State) :
    (forall request : Request target, request.Sends words ->
        Answered tasks state request (handleSyscall tasks words state)) ∧
      ((¬ Exists fun request : Request target => request.Sends words) ->
        (handleSyscall tasks words state).result = conversionError target ∧
          (handleSyscall tasks words state).state = state) :=
  ⟨fun _ sends => answered_of_sends sends, fun unsent => refused_of_not_sends unsent⟩

/-- Operations that note which of them was called. -/
def noting : TaskCalls .aarch32 (List Syscall) where
  exitRunningTask _ calls := .Exit :: calls
  schedule calls := .Yield :: calls
  sleep _ calls := .Sleep :: calls
  «open» _ _ calls := (IntType.int.cast .aarch32 3, .Open :: calls)
  read _ _ _ calls := ((IntType.ssize .aarch32).cast .aarch32 0, .Read :: calls)
  write _ _ _ calls := ((IntType.ssize .aarch32).cast .aarch32 0, .Write :: calls)
  close _ calls := (IntType.int.cast .aarch32 0, .Close :: calls)
  dup _ calls := (IntType.int.cast .aarch32 4, .Dup :: calls)
  sbrk _ calls := ((IntType.ptrData .aarch32).cast .aarch32 0, .Sbrk :: calls)
  jiffies calls := IntType.unsignedInt.cast .aarch32 calls.length
  cputime calls := IntType.unsignedInt.cast .aarch32 calls.length

/-- Sleeping for two seconds, and a call that is one above the last one. -/
theorem syscalls_agree_noting :
    (handleSyscall noting ⟨enumWord .aarch32 1, toWord (IntType.unsignedInt.cast .aarch32 2),
        enumWord .aarch32 5, enumWord .aarch32 6⟩ []).state = [.Sleep] ∧
      (handleSyscall noting ⟨enumWord .aarch32 11, enumWord .aarch32 4, enumWord .aarch32 5,
        enumWord .aarch32 6⟩ []).result = conversionError .aarch32 := by
  constructor
  · have sent : Sends (sleep (IntType.unsignedInt.cast .aarch32 2))
        ⟨enumWord .aarch32 1, toWord (IntType.unsignedInt.cast .aarch32 2), enumWord .aarch32 5,
          enumWord .aarch32 6⟩ :=
      ⟨rfl, [enumWord .aarch32 5, enumWord .aarch32 6], rfl⟩
    have answered := (syscalls_agree noting _ []).1 _ sent
    exact congrArg Prod.snd answered
  · have unknown (call : Syscall) : enumWord .aarch32 11 ≠ enumWord .aarch32 call.value := by
      cases call <;> decide
    refine ((syscalls_agree noting _ []).2 ?_).1
    rintro ⟨request, same, _⟩
    exact unknown request.call same

end Request

end Userspace
end Pinyon
