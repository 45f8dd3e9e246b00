import Pinyon.Pine.Print
import Pinyon.Pine.FixedHeap

namespace Pinyon
namespace Userspace

open Pine

/-!
# `printf` of a task

`printf` gathers its text in a buffer that is sized from the format alone.  When
a piece does not fit, the buffer is given back and a longer one is asked for, but
the pointer that the text is written through stays the same.
-/

/-- The memory of a task.  What the allocator wrote over is not determined. -/
abbrev Memory : Type := Nat -> Option UInt8

/-- `malloc` and `free` of a task, each with the bytes that it writes to. -/
structure Heap (State : Type) where
  malloc : State -> Nat -> Allocation × State
  mallocWrites : State -> Nat -> Nat -> Bool
  free : State -> Allocation -> State
  freeWrites : State -> Allocation -> Nat -> Bool

/-- `TaskMemoryAllocator`, the free list of a task with `HeapExtender` behind it.  What
`sbrk` answers depends on the increase. -/
def taskMemoryAllocator (target : Target) (sbrk : Nat -> Nat) : BinderParts IntrusiveFreeList where
  preferredSize := IntrusiveFreeList.preferredSize target
  allocate := fun requestedSize list => some (list.allocate target requestedSize)
  add := fun ptr size list => some (list.add target ptr size)
  fallbackAllocate := fun requestedSize list =>
    let increase := alignUpTwo target.wordWidth requestedSize pageSize
    if sbrk increase = 0 then some ({}, list) else some (⟨sbrk increase, increase⟩, list)

/-- An address in the header of a free block. -/
def inHeader (target : Target) (list : IntrusiveFreeList) (address : Nat) : Bool :=
  list.freeList.any fun node => node ≤ address ∧ address < node + headerNodeSize target

/-- The heap of a task.  Its bookkeeping is written to the headers of the blocks that
are free before or afterwards. -/
def taskHeap (target : Target) (sbrk : Nat -> Nat) : Heap IntrusiveFreeList :=
  let allocate := fun list bytes =>
    ((taskMemoryAllocator target sbrk).bind bytes list).getD ({}, list)
  { malloc := allocate
    mallocWrites := fun list bytes address =>
      inHeader target list address || inHeader target (allocate list bytes).2 address
    free := fun list block => (list.free target block).2
    freeWrites := fun list block address =>
      inHeader target list address || inHeader target (list.free target block).2 address }

/-- A call of `malloc` succeeds: the block is there, it is as long as asked for
and it does not go beyond the end of memory. -/
def Succeeds (target : Target) (bytes : Nat) (block : Allocation) : Prop :=
  block.succeeded = true ∧ bytes ≤ block.size ∧ block.ptr ≠ 0 ∧
    block.ptr + block.size ≤ target.wordLimit

instance (target : Target) (bytes : Nat) (block : Allocation) :
    Decidable (Succeeds target bytes block) :=
  inferInstanceAs (Decidable (_ ∧ _))

/-- The variables of `printf`, with the memory and the heap it works on.  `served`
records that each `malloc` succeeded, and `strayed` that a byte was stored outside
the buffer owned at that time. -/
structure Printing (State : Type) where
  heap : State
  memory : Memory
  printAlloc : Allocation
  printBuf : Nat
  printBufPos : Nat
  bufsize : Nat
  served : Bool
  strayed : Bool

variable {State : Type}

namespace Printing

/-- Whether an address lies in the buffer owned at present. -/
def owns (printing : Printing State) (address : Nat) : Bool :=
  printing.printAlloc.ptr ≤ address ∧
    address < printing.printAlloc.ptr + printing.printAlloc.size

def store (printing : Printing State) (address : Nat) (char : UInt8) : Printing State :=
  { printing with
    memory := Function.update printing.memory address (some char)
    strayed := printing.strayed || !printing.owns address }

/-- `strcopy`, with the characters that are left. -/
def strcopy (printing : Printing State) (dest : Nat) : List UInt8 -> Printing State
  | [] => printing.store dest 0
  | char :: rest => (printing.store dest char).strcopy (dest + 1) rest

/-- `print_alloc = malloc(bufsize)`. -/
def malloc (target : Target) (heap : Heap State) (printing : Printing State) : Printing State :=
  let answer := heap.malloc printing.heap printing.bufsize
  { printing with
    heap := answer.2
    memory := fun address =>
      if heap.mallocWrites printing.heap printing.bufsize address then none
      else printing.memory address
    printAlloc := answer.1
    served := printing.served && decide (Succeeds target printing.bufsize answer.1) }

/-- `free(print_alloc)`. -/
def free (heap : Heap State) (printing : Printing State) : Printing State :=
  { printing with
    heap := heap.free printing.heap printing.printAlloc
    memory := fun address =>
      if heap.freeWrites printing.heap printing.printAlloc address then none
      else printing.memory address }

/-- A piece of the given size does not fit. -/
def grows (target : Target) (printing : Printing State) (messageSize : Nat) : Bool :=
  printing.bufsize ≤ (printing.printBufPos + messageSize) % target.wordLimit

/-- The buffer is given back for a longer one. -/
def grow (target : Target) (heap : Heap State) (printing : Printing State) (messageSize : Nat) :
    Printing State :=
  { printing.free heap with
    bufsize := (printing.bufsize + messageSize + 64) % target.wordLimit }.malloc target heap

/-- The piece is copied behind the text. -/
def copyMessage (target : Target) (printing : Printing State) (message : CString) :
    Printing State :=
  { printing.strcopy (printing.printBuf + printing.printBufPos) message.chars with
    printBufPos := (printing.printBufPos + message.strlen) % target.wordLimit }

/-- `try_add_wrapper`. -/
def tryAddWrapper (target : Target) (heap : Heap State) (printing : Printing State)
    (message : CString) : Bool × Printing State :=
  if printing.grows target message.strlen then
    let grown := printing.grow target heap message.strlen
    if grown.printAlloc.succeeded then (true, grown.copyMessage target message)
    else (false, grown)
  else (true, printing.copyMessage target message)

/-- The bytes from `print_buf` to the position. -/
def text (printing : Printing State) : List (Option UInt8) :=
  (List.range printing.printBufPos).map fun offset => printing.memory (printing.printBuf + offset)

/-- The variables before anything is allocated. -/
def start (target : Target) (heap : State) (memory : Memory) (fmt : CString) : Printing State where
  heap := heap
  memory := memory
  printAlloc := {}
  printBuf := 0
  printBufPos := 0
  bufsize := fmt.strlen * 2 % target.wordLimit
  served := true
  strayed := false

/-- The buffer that `printf` begins with. -/
def init (target : Target) (heap : Heap State) (printing : Printing State) : Printing State :=
  let begun := printing.malloc target heap
  { begun with printBuf := begun.printAlloc.ptr }

end Printing

/-- What `printf` did: the bytes that it passed to `write`, if it came to that. -/
structure Printed (State : Type) where
  written : Option (List (Option UInt8))
  final : Printing State

def printf (target : Target) (heap : Heap State) (state : State) (memory : Memory)
    (fmt : CString) (args : List Argument) : Option (Printed State) := do
  let begun := (Printing.start target state memory fmt).init target heap
  if begun.printAlloc.succeeded then
    let (_, printing) <- vfnprintf target (Printing.tryAddWrapper target heap)
      (Directive.ofFormat fmt) args begun
    return { written := some printing.text, final := printing.free heap }
  else return { written := none, final := begun }

/-- Each byte was stored in a buffer owned at the time, and what was written is the
text. -/
structure Delivers (printed : Printed State) (pieces : List CString) : Prop where
  inside : printed.final.strayed = false
  written : printed.written = some ((textOf pieces).map some)

/-- Whatever the heap is like on which each `malloc` succeeds, the text is
delivered. -/
def AlwaysDelivers (target : Target) (fmt : CString) (args : List Argument)
    (pieces : List CString) : Prop :=
  forall (State : Type) (heap : Heap State) (state : State) (memory : Memory),
    Exists fun printed => printf target heap state memory fmt args = some printed ∧
      (printed.final.served = true -> Delivers printed pieces)

namespace Printing

variable {target : Target} {heap : Heap State} {printing : Printing State}
variable {address dest : Nat} {message : CString}

theorem owns_iff : printing.owns address = true <->
    printing.printAlloc.ptr ≤ address ∧
      address < printing.printAlloc.ptr + printing.printAlloc.size := by
  simp [owns]

/-! ## Copying -/

/-- What `strcopy` leaves alone. -/
theorem strcopy_frame (chars : List UInt8) :
    (printing.strcopy dest chars).heap = printing.heap ∧
      (printing.strcopy dest chars).printAlloc = printing.printAlloc ∧
      (printing.strcopy dest chars).printBuf = printing.printBuf ∧
      (printing.strcopy dest chars).printBufPos = printing.printBufPos ∧
      (printing.strcopy dest chars).bufsize = printing.bufsize ∧
      (printing.strcopy dest chars).served = printing.served := by
  induction chars generalizing printing dest with
  | nil => exact ⟨rfl, rfl, rfl, rfl, rfl, rfl⟩
  | cons char rest inductionHypothesis => exact inductionHypothesis 

/-- It stays inside when the place of each byte is owned, the NUL included. -/
theorem strcopy_strayed (chars : List UInt8) :
    (printing.strcopy dest chars).strayed = false <->
      printing.strayed = false ∧
        forall offset, offset ≤ chars.length -> printing.owns (dest + offset) = true := by
  induction chars generalizing printing dest with
  | nil => simp [strcopy, store]
  | cons char rest inductionHypothesis =>
      rw [strcopy, inductionHypothesis]
      simp only [store, Bool.or_eq_false_iff, Bool.not_eq_false', List.length_cons]
      constructor
      · rintro ⟨⟨inside, first⟩, others⟩
        refine ⟨inside, fun offset small => ?_⟩
        cases offset with
        | zero => exact first
        | succ offset =>
            have owned := others offset (Nat.le_of_succ_le_succ small)
            rwa [Nat.add_right_comm, Nat.add_assoc] at owned
      · rintro ⟨inside, all⟩
        refine ⟨⟨inside, all 0 (Nat.zero_le _)⟩, fun offset small => ?_⟩
        have owned := all (offset + 1) (Nat.succ_le_succ small)
        rwa [← Nat.add_assoc, Nat.add_right_comm] at owned

/-- Memory in front of the copy is as before. -/
theorem strcopy_before (chars : List UInt8) (before : address < dest) :
    (printing.strcopy dest chars).memory address = printing.memory address := by
  induction chars generalizing printing dest with
  | nil => exact Function.update_of_ne (Nat.ne_of_lt before) _ _
  | cons char rest inductionHypothesis =>
      rw [strcopy, inductionHypothesis (Nat.lt_succ_of_lt before)]
      exact Function.update_of_ne (Nat.ne_of_lt before) _ _

theorem strcopy_chars (chars : List UInt8) :
    (List.range chars.length).map (fun offset => (printing.strcopy dest chars).memory (dest + offset)) =
      chars.map some := by
  induction chars generalizing printing dest with
  | nil => rfl
  | cons char rest inductionHypothesis =>
      have copied := @inductionHypothesis (printing.store dest char) (dest + 1)
      have first : (printing.strcopy dest (char :: rest)).memory dest = some char := by
        rw [strcopy, strcopy_before rest (Nat.lt_succ_self dest)]
        exact Function.update_self _ _ _
      rw [List.length_cons, List.range_succ_eq_map, List.map_cons, List.map_map, List.map_cons,
        Nat.add_zero, first, ← copied]
      congr 1
      apply List.map_congr_left
      intro offset _
      change (printing.strcopy dest (char :: rest)).memory (dest + (offset + 1)) = _
      rw [strcopy, Nat.add_right_comm dest 1 offset, Nat.add_assoc]

end Printing

end Userspace
end Pinyon
