import Pinyon.Pine.FreeListBinder
import Pinyon.Userspace.PrintfText

namespace Pinyon
namespace Userspace

open Pine

/-!
# Memory of a task

`malloc` prints a message when it has nothing to return, and printing begins with a `malloc`
for twice the length of the message.  The message is printed, and `malloc` returns, when one
of these gets its buffer.

The depth of the calls is bounded in the model.  A `malloc` that needs a greater depth has not
returned, and leaves no state.
-/

structure MallocStats where
  heapSize : Nat := 0
  usedSize : Nat := 0
  numMallocs : Nat := 0
  numFrees : Nat := 0
deriving DecidableEq, Repr

/-- What `HeapExtender` works on: `g_malloc_stats`, and how often `sbrk` has been called. -/
structure HeapExtender where
  stats : MallocStats := {}
  calls : Nat := 0
deriving DecidableEq, Repr

/-- What `sbrk` returns for an increase, after it has been called so many times. -/
abbrev Sbrk : Type := Nat -> Nat -> Nat

def HeapExtender.allocate (target : Target) (sbrk : Sbrk) (requestedSize : Nat)
    (extender : HeapExtender) : Allocation × HeapExtender :=
  let increase := alignUpTwo target.wordWidth requestedSize pageSize
  let heapStartPtr := sbrk extender.calls increase
  let called := { extender with calls := extender.calls + 1 }
  if heapStartPtr = 0 then ({}, called)
  else
    (⟨heapStartPtr, increase⟩, { called with stats := { extender.stats with
        heapSize := (extender.stats.heapSize + increase) % target.wordLimit } })

/-- `mem_allocator()`, with what its `HeapExtender` works on. -/
abbrev TaskHeap : Type := IntrusiveFreeList × HeapExtender

namespace TaskHeap

/-- `mem_allocator().allocate`. -/
def allocate (target : Target) (sbrk : Sbrk) (requestedSize : Nat) (heap : TaskHeap) :
    Allocation × TaskHeap :=
  ((freeListBinder target (HeapExtender.allocate target sbrk)).bind requestedSize heap).getD
    ({}, heap)

/-- What `malloc` does to the statistics. -/
def countMalloc (target : Target) (alloc : Allocation) (heap : TaskHeap) : TaskHeap :=
  (heap.1, { heap.2 with stats := { heap.2.stats with
      usedSize := (heap.2.stats.usedSize + alloc.size) % target.wordLimit
      numMallocs := (heap.2.stats.numMallocs + 1) % 2 ^ 32 } })

/-- `free`. -/
def free (target : Target) (alloc : Allocation) (heap : TaskHeap) : TaskHeap :=
  let freed := heap.1.free target alloc
  (freed.2, { heap.2 with stats := { heap.2.stats with
      usedSize := wordSub target heap.2.stats.usedSize freed.1
      numFrees := (heap.2.stats.numFrees + 1) % 2 ^ 32 } })

end TaskHeap

/-- The text that is printed when there is no memory. -/
def noFreeSpace : CString where
  chars := "malloc:\tNo free space available?!\n".toList.map Char.toUInt8
  terminated := by decide

/-- The heap for `printf`, with a `malloc` that may not return.  Nothing is said about the
memory that is not a block. -/
def printingHeap (target : Target)
    (malloc : Option TaskHeap -> Nat -> Allocation × Option TaskHeap) : Heap (Option TaskHeap) where
  malloc := malloc
  mallocWrites _ _ _ := true
  free heap alloc := heap.map (TaskHeap.free target alloc)
  freeWrites _ _ _ := true

/-- `malloc`, with calls of a depth that is less than the given one. -/
def malloc (target : Target) (sbrk : Sbrk) : Nat -> Option TaskHeap -> Nat ->
    Allocation × Option TaskHeap
  | 0, _, _ => ({}, none)
  | _ + 1, none, _ => ({}, none)
  | depth + 1, some heap, requestedSize =>
      let (alloc, heap) := heap.allocate target sbrk requestedSize
      let heap :=
        if alloc.succeeded then some heap
        else
          (printf target (printingHeap target (malloc target sbrk depth)) (some heap)
            (fun _ => none) noFreeSpace []).bind fun printed => printed.final.heap
      match heap with
      | none => ({}, none)
      | some heap => (alloc, some (heap.countMalloc target alloc))

/-! ## The message -/

section

variable {State : Type} {target : Target} {heap : Heap State} {state : State} {memory : Memory}

/-- The size of the buffer that the message is printed in. -/
def messageSize : Nat := 68

theorem noFreeSpace_bufsize (target : Target) : noFreeSpace.strlen * 2 % target.wordLimit = messageSize := by
  cases target <;> rfl

theorem noFreeSpace_pieces (target : Target) : Exists fun pieces =>
    vfnprintf target collect (Directive.ofFormat noFreeSpace) [] [] = some (true, pieces) ∧
      (textOf pieces).length < messageSize := by
  refine ⟨_, rfl, ?_⟩
  decide

/-- While the message is printed no other buffer is needed. -/
structure KeepsBuffer (begun printing : Printing State) (pieces : List CString) : Prop where
  heap : printing.heap = begun.heap
  alloc : printing.printAlloc = begun.printAlloc
  size : printing.bufsize = messageSize
  pos : printing.printBufPos = (textOf pieces).length

theorem KeepsBuffer.add {begun printing : Printing State} {pieces : List CString} {piece : CString}
    (keeps : KeepsBuffer begun printing pieces)
    (fits : (textOf (pieces ++ [piece])).length < messageSize) :
    (printing.tryAddWrapper target heap piece).1 = true ∧
      KeepsBuffer begun (printing.tryAddWrapper target heap piece).2 (pieces ++ [piece]) := by
  rw [textOf_append, textOf_singleton, List.length_append, ← keeps.pos] at fits
  have small : messageSize < target.wordLimit := by
    cases target <;> decide
  have whole : (printing.printBufPos + piece.strlen) % target.wordLimit =
      printing.printBufPos + piece.strlen := Nat.mod_eq_of_lt (fits.trans small)
  have stays : printing.grows target piece.strlen = false := by
    rw [Printing.grows, whole, keeps.size]
    exact decide_eq_false (Nat.not_le.mpr fits)
  have copied : printing.tryAddWrapper target heap piece =
      (true, printing.copyMessage target piece) := by
    rw [Printing.tryAddWrapper, stays]
    rfl
  rcases @Printing.strcopy_frame _ printing (printing.printBuf + printing.printBufPos) piece.chars with
    ⟨sameHeap, sameAlloc, _, _, sameSize, _⟩
  rw [copied]
  refine ⟨rfl, sameHeap.trans keeps.heap, sameAlloc.trans keeps.alloc, sameSize.trans keeps.size, ?_⟩
  rw [textOf_append, textOf_singleton, List.length_append, ← keeps.pos]
  exact whole

/-- Printing the message takes a buffer and gives it back, if it gets one. -/
theorem printf_noFreeSpace (heap : Heap State) (state : State) (memory : Memory) :
    ((printf target heap state memory noFreeSpace []).map fun printed => printed.final.heap) =
      some (if (heap.malloc state messageSize).1.succeeded then
          heap.free (heap.malloc state messageSize).2 (heap.malloc state messageSize).1
        else (heap.malloc state messageSize).2) := by
  have bufsize := noFreeSpace_bufsize target
  let begun := (Printing.start target state memory noFreeSpace).init target heap
  have answered : heap.malloc state messageSize = (begun.printAlloc, begun.heap) := by
    rw [← bufsize]
    rfl
  rw [answered]
  dsimp only
  cases obtained : begun.printAlloc.succeeded with
  | false =>
      rw [printf]
      have nothing : ((Printing.start target state memory noFreeSpace).init target
          heap).printAlloc.succeeded = false := obtained
      rw [nothing]
      rfl
  | true =>
      rcases noFreeSpace_pieces target with ⟨pieces, ran, short⟩
      have starts : KeepsBuffer begun begun [] := ⟨rfl, rfl, bufsize, rfl⟩
      have shorter (first second : List CString) (begins : first <+: second)
          (fits : (textOf second).length < messageSize) : (textOf first).length < messageSize := by
        rcases begins with ⟨more, rfl⟩
        rw [textOf_append, List.length_append] at fits
        exact Nat.lt_of_le_of_lt (Nat.le_add_right _ _) fits
      rcases vfnprintf_keeps (Printing.tryAddWrapper target heap) (KeepsBuffer begun) _ shorter
        (fun printing pieces piece keeps fits => keeps.add fits) starts short ran with
        ⟨after, printed, keeps⟩
      rw [Printing.printf_eq obtained printed]
      change some (heap.free after.heap after.printAlloc) = _
      rw [keeps.heap, keeps.alloc]
      rfl

end

/-! ## When `malloc` returns -/

variable {target : Target} {sbrk : Sbrk} {heap : TaskHeap} {requestedSize depth : Nat}

/-- `malloc` returns, at some depth of its calls. -/
def Returns (target : Target) (sbrk : Sbrk) (heap : TaskHeap) (requestedSize : Nat) : Prop :=
  Exists fun depth => Exists fun alloc => Exists fun after =>
    malloc target sbrk depth (some heap) requestedSize = (alloc, some after)

/-- One call, and the one that it makes for the message. -/
theorem malloc_succ (target : Target) (sbrk : Sbrk) (depth : Nat) (heap : TaskHeap)
    (requestedSize : Nat) :
    (malloc target sbrk (depth + 1) (some heap) requestedSize).2.isSome =
      ((heap.allocate target sbrk requestedSize).1.succeeded ||
        (malloc target sbrk depth (some (heap.allocate target sbrk requestedSize).2)
          messageSize).2.isSome) := by
  rw [malloc]
  generalize heap.allocate target sbrk requestedSize = answer
  rcases answer with ⟨alloc, after⟩
  dsimp only
  cases alloc.succeeded with
  | true => rfl
  | false =>
      have printed := @printf_noFreeSpace _ target (printingHeap target (malloc target sbrk depth))
        (some after) fun _ => none
      generalize printf target _ _ _ noFreeSpace [] = ran at printed ⊢
      rcases Option.map_eq_some_iff.mp printed with ⟨message, rfl, final⟩
      rw [if_neg Bool.false_ne_true, Option.bind_some, final, Bool.false_or]
      unfold printingHeap
      dsimp only
      cases (malloc target sbrk depth (some after) messageSize).1.succeeded with
      | true =>
          cases (malloc target sbrk depth (some after) messageSize).2 with
          | none => rfl
          | some inner => rfl
      | false =>
          cases (malloc target sbrk depth (some after) messageSize).2 with
          | none => rfl
          | some inner => rfl

theorem returns_iff_exists : Returns target sbrk heap requestedSize <->
    Exists fun depth => (malloc target sbrk depth (some heap) requestedSize).2.isSome = true := by
  constructor
  · rintro ⟨depth, alloc, after, returned⟩
    refine ⟨depth, ?_⟩
    rw [returned]
    rfl
  · rintro ⟨depth, some_⟩
    rcases Option.isSome_iff_exists.mp some_ with ⟨after, final⟩
    exact ⟨depth, (malloc target sbrk depth (some heap) requestedSize).1, after, Prod.ext rfl final⟩

/-- A `malloc` returns if it is served, or if the one for the message returns. -/
theorem returns_iff_message : Returns target sbrk heap requestedSize <->
    (heap.allocate target sbrk requestedSize).1.succeeded = true ∨
      Returns target sbrk (heap.allocate target sbrk requestedSize).2 messageSize := by
  rw [returns_iff_exists, returns_iff_exists]
  constructor
  · rintro ⟨depth, some_⟩
    cases depth with
    | zero => cases some_
    | succ depth =>
        rw [malloc_succ, Bool.or_eq_true] at some_
        exact some_.imp id fun inner => ⟨depth, inner⟩
  · rintro (served | ⟨depth, some_⟩)
    · refine ⟨1, ?_⟩
      rw [malloc_succ, served]
      rfl
    · refine ⟨depth + 1, ?_⟩
      rw [malloc_succ, some_, Bool.or_true]

/-! ## What the allocator answers -/

/-- The increase that is asked of `sbrk` for a request that the list cannot serve. -/
def increaseFor (target : Target) (requestedSize : Nat) : Nat :=
  alignUpTwo target.wordWidth (IntrusiveFreeList.preferredSize target requestedSize) pageSize

/-- The list after it has been given what `sbrk` returned. -/
def extended (target : Target) (sbrk : Sbrk) (heap : TaskHeap) (requestedSize : Nat) :
    IntrusiveFreeList :=
  heap.1.add target (sbrk heap.2.calls (increaseFor target requestedSize))
    (increaseFor target requestedSize)

theorem allocate_served (served : (heap.1.allocate target requestedSize).1.ptr ≠ 0) :
    heap.allocate target sbrk requestedSize = ((heap.1.allocate target requestedSize).1,
      ((heap.1.allocate target requestedSize).2, heap.2)) := by
  rw [TaskHeap.allocate, bind_served served]
  rfl

/-- With nothing from `sbrk`, only the number of its calls changes. -/
theorem allocate_refused (words : SizeWords target heap.1)
    (tooSmall : CannotServe heap.1 requestedSize)
    (refused : sbrk heap.2.calls (increaseFor target requestedSize) = 0) :
    heap.allocate target sbrk requestedSize =
      ({}, (heap.1, { heap.2 with calls := heap.2.calls + 1 })) := by
  have answer : HeapExtender.allocate target sbrk
      (IntrusiveFreeList.preferredSize target requestedSize) heap.2 =
        ({}, { heap.2 with calls := heap.2.calls + 1 }) :=
    if_pos refused
  have failed := bind_null words tooSmall answer rfl
  rw [TaskHeap.allocate, failed]
  rfl

/-- What `sbrk` returns is searched. -/
theorem allocate_extended (words : SizeWords target heap.1)
    (tooSmall : CannotServe heap.1 requestedSize)
    (granted : sbrk heap.2.calls (increaseFor target requestedSize) ≠ 0) :
    heap.allocate target sbrk requestedSize =
      (((extended target sbrk heap requestedSize).allocate target requestedSize).1,
        (((extended target sbrk heap requestedSize).allocate target requestedSize).2,
          { stats := { heap.2.stats with heapSize :=
              (heap.2.stats.heapSize + increaseFor target requestedSize) % target.wordLimit }
            calls := heap.2.calls + 1 })) := by
  have answer : HeapExtender.allocate target sbrk
      (IntrusiveFreeList.preferredSize target requestedSize) heap.2 =
        (⟨sbrk heap.2.calls (increaseFor target requestedSize), increaseFor target requestedSize⟩,
          { stats := { heap.2.stats with heapSize :=
              (heap.2.stats.heapSize + increaseFor target requestedSize) % target.wordLimit }
            calls := heap.2.calls + 1 }) :=
    if_neg granted
  have served := bind_granted words tooSmall answer granted
  rw [TaskHeap.allocate, served]
  rfl

theorem increaseFor_message (target : Target) : increaseFor target messageSize = pageSize := by
  cases target <;> rfl

/-- The buffer for the message is taken from the list, or from the page that `sbrk` returns. -/
theorem message_succeeded (words : SizeWords target heap.1)
    (given : ¬ CannotServe heap.1 messageSize ∨ sbrk heap.2.calls pageSize ≠ 0) :
    (heap.allocate target sbrk messageSize).1.succeeded = true := by
  have positive : 0 < messageSize := by decide
  by_cases tooSmall : CannotServe heap.1 messageSize
  · have granted : sbrk heap.2.calls (increaseFor target messageSize) ≠ 0 := by
      rw [increaseFor_message]
      exact given.resolve_left (not_not.mpr tooSmall)
    have room : messageSize + headerNodeSize target ≤ increaseFor target messageSize := by
      cases target <;> decide
    have word : increaseFor target messageSize < target.wordLimit := by
      cases target <;> decide
    rw [allocate_extended words tooSmall granted]
    have later : SizeWords target (extended target sbrk heap messageSize) := words.add
    have size := allocate_size later (allocate_added words tooSmall room word).1
    exact bne_iff_ne.mpr (Nat.ne_of_gt (positive.trans_le size))
  · have served := mt (allocate_null_iff words).mp tooSmall
    rw [allocate_served served]
    have size := allocate_size words served
    exact bne_iff_ne.mpr (Nat.ne_of_gt (positive.trans_le size))

/-! ## The exact condition -/

/-- The first block that is long enough is not handed out empty.  That happens to a request for
nothing, when all of the block is cut off or it is empty already. -/
def Serves (target : Target) (list : IntrusiveFreeList) (requestedSize : Nat) : Prop :=
  Exists fun node =>
    list.freeList.find? (fun node => requestedSize ≤ list.sizeAt node) = some node ∧
      (requestedSize = 0 -> list.sizeAt node ≠ 0 ∧
        (IntrusiveFreeList.minAllocationSize target target.alignment < list.sizeAt node ->
          ¬ target.alignment ∣ list.sizeAt node))

theorem serves_iff {list : IntrusiveFreeList} (words : SizeWords target list) :
    (list.allocate target requestedSize).1.succeeded = true <->
      Serves target list requestedSize := by
  unfold IntrusiveFreeList.allocate Serves
  cases found : list.freeList.find? fun node => requestedSize ≤ list.sizeAt node with
  | none => exact iff_of_false Bool.false_ne_true (by rintro ⟨_, ⟨⟩, _⟩)
  | some node =>
      have fits : requestedSize ≤ list.sizeAt node := by
        simpa using List.find?_some found
      have small := Nat.lt_of_le_of_lt (Nat.sub_le (list.sizeAt node) requestedSize) (words node)
      have rounded := Nat.div_mul_le_self (list.sizeAt node - requestedSize) target.alignment
      dsimp only
      rw [alignDownTwo_alignment small]
      constructor
      · intro succeeded
        refine ⟨node, rfl, ?_⟩
        rintro rfl
        rw [Nat.sub_zero] at succeeded rounded
        split at succeeded
        · next cut =>
          have kept := bne_iff_ne.mp succeeded
          dsimp only at kept
          refine ⟨fun none => kept (by omega), fun _ divides => kept ?_⟩
          rw [Nat.div_mul_cancel divides, Nat.sub_self]
        · next whole =>
          refine ⟨bne_iff_ne.mp succeeded, fun long divides => whole ?_⟩
          rwa [Nat.div_mul_cancel divides]
      · rintro ⟨_, same, more⟩
        cases same
        split
        · next cut =>
          refine bne_iff_ne.mpr fun empty => ?_
          dsimp only at empty
          have nothing : requestedSize = 0 := by omega
          subst nothing
          rw [Nat.sub_zero] at cut empty rounded
          have divides : list.sizeAt node / target.alignment * target.alignment = list.sizeAt node := by
            omega
          exact (more rfl).2 (by rwa [divides] at cut) (Dvd.intro_left _ divides)
        · next whole =>
          refine bne_iff_ne.mpr fun empty => ?_
          have nothing : requestedSize = 0 := by
            dsimp only at empty
            omega
          exact (more nothing).1 empty

/-- The list serves the request, or it does with what `sbrk` returns. -/
def HeapServes (target : Target) (sbrk : Sbrk) (heap : TaskHeap) (requestedSize : Nat) : Prop :=
  Serves target heap.1 requestedSize ∨
    CannotServe heap.1 requestedSize ∧ sbrk heap.2.calls (increaseFor target requestedSize) ≠ 0 ∧
      Serves target (extended target sbrk heap requestedSize) requestedSize

theorem Serves.served {list : IntrusiveFreeList} (serves : Serves target list requestedSize) :
    ¬ CannotServe list requestedSize := by
  rcases serves with ⟨node, found, _⟩
  intro tooSmall
  have fits : requestedSize ≤ list.sizeAt node := by
    simpa using List.find?_some found
  exact Nat.not_lt.mpr fits (tooSmall node (List.mem_of_find?_eq_some found))

theorem heapServes_iff (words : SizeWords target heap.1) :
    (heap.allocate target sbrk requestedSize).1.succeeded = true <->
      HeapServes target sbrk heap requestedSize := by
  by_cases tooSmall : CannotServe heap.1 requestedSize
  · have alone : ¬ Serves target heap.1 requestedSize := fun serves => serves.served tooSmall
    by_cases refused : sbrk heap.2.calls (increaseFor target requestedSize) = 0
    · rw [allocate_refused words tooSmall refused]
      exact iff_of_false Bool.false_ne_true fun serves =>
        serves.elim alone fun later => later.2.1 refused
    · have later : SizeWords target (extended target sbrk heap requestedSize) := words.add
      rw [allocate_extended words tooSmall refused, serves_iff later]
      exact ⟨fun serves => .inr ⟨tooSmall, refused, serves⟩,
        fun serves => (serves.resolve_left alone).2.2⟩
  · rw [allocate_served (mt (allocate_null_iff words).mp tooSmall), serves_iff words]
    exact ⟨.inl, fun serves => serves.resolve_right fun later => tooSmall later.1⟩

/-- There is a free block for the message, or some later `sbrk` returns a page for it. -/
def MessageHasRoom (sbrk : Sbrk) (heap : TaskHeap) : Prop :=
  (Exists fun node => node ∈ heap.1.freeList ∧ messageSize ≤ heap.1.sizeAt node) ∨
    Exists fun calls => heap.2.calls ≤ calls ∧ sbrk calls pageSize ≠ 0

theorem cannotServe_iff {list : IntrusiveFreeList} : ¬ CannotServe list requestedSize <->
    Exists fun node => node ∈ list.freeList ∧ requestedSize ≤ list.sizeAt node := by
  unfold CannotServe
  push Not
  rfl

/-- The heap after an attempt for the message that came to nothing. -/
def attempted (heap : TaskHeap) : TaskHeap :=
  (heap.1, { heap.2 with calls := heap.2.calls + 1 })

/-- An attempt for the message gets its buffer or changes nothing but the number of calls. -/
theorem message_cases (words : SizeWords target heap.1) :
    MessageHasRoom sbrk heap ∧ (heap.allocate target sbrk messageSize).1.succeeded = true ∨
      heap.allocate target sbrk messageSize = ({}, attempted heap) := by
  by_cases tooSmall : CannotServe heap.1 messageSize
  · by_cases refused : sbrk heap.2.calls pageSize = 0
    · refine .inr (allocate_refused words tooSmall ?_)
      rwa [increaseFor_message]
    · exact .inl ⟨.inr ⟨heap.2.calls, le_refl _, refused⟩, message_succeeded words (.inr refused)⟩
  · exact .inl ⟨.inl (cannotServe_iff.mp tooSmall), message_succeeded words (.inl tooSmall)⟩

theorem MessageHasRoom.of_attempted (room : MessageHasRoom sbrk (attempted heap)) :
    MessageHasRoom sbrk heap := by
  rcases room with free | ⟨calls, later, granted⟩
  · exact .inl free
  · exact .inr ⟨calls, Nat.le_of_succ_le later, granted⟩

theorem room_of_malloc (words : SizeWords target heap.1)
    (some_ : (malloc target sbrk depth (some heap) messageSize).2.isSome = true) :
    MessageHasRoom sbrk heap := by
  induction depth generalizing heap with
  | zero => cases some_
  | succ depth inductionHypothesis =>
      rw [malloc_succ] at some_
      rcases message_cases words with ⟨room, _⟩ | same
      · exact room
      · rw [same] at some_
        have inner : MessageHasRoom sbrk (attempted heap) := inductionHypothesis words some_
        exact inner.of_attempted

theorem returns_of_later {turns : Nat} (words : SizeWords target heap.1)
    (granted : sbrk (heap.2.calls + turns) pageSize ≠ 0) : Returns target sbrk heap messageSize := by
  induction turns generalizing heap with
  | zero => exact returns_iff_message.mpr (.inl (message_succeeded words (.inr granted)))
  | succ turns inductionHypothesis =>
      apply returns_iff_message.mpr
      rcases message_cases words with ⟨_, succeeded⟩ | same
      · exact .inl succeeded
      · refine .inr ?_
        rw [same]
        have behind : (attempted heap).2.calls + turns = heap.2.calls + (turns + 1) := by
          change heap.2.calls + 1 + turns = heap.2.calls + (turns + 1)
          omega
        exact @inductionHypothesis (attempted heap) words (by rwa [behind])

/-- The message is printed when a buffer for it turns up. -/
theorem returns_message_iff (words : SizeWords target heap.1) :
    Returns target sbrk heap messageSize <-> MessageHasRoom sbrk heap := by
  constructor
  · intro returns
    rcases returns_iff_exists.mp returns with ⟨depth, some_⟩
    exact room_of_malloc words some_
  · rintro (free | ⟨calls, later, granted⟩)
    · exact returns_iff_message.mpr
        (.inl (message_succeeded words (.inl (cannotServe_iff.mpr free))))
    · rcases Nat.exists_eq_add_of_le later with ⟨turns, rfl⟩
      exact returns_of_later words granted

/-- What the attempt for a request leaves behind are words. -/
theorem sizeWords_allocate (words : SizeWords target heap.1) :
    SizeWords target (heap.allocate target sbrk requestedSize).2.1 := by
  by_cases tooSmall : CannotServe heap.1 requestedSize
  · by_cases refused : sbrk heap.2.calls (increaseFor target requestedSize) = 0
    · rw [allocate_refused words tooSmall refused]
      exact words
    · rw [allocate_extended words tooSmall refused]
      have later : SizeWords target (extended target sbrk heap requestedSize) := words.add
      exact later.allocate
  · rw [allocate_served (mt (allocate_null_iff words).mp tooSmall)]
    exact words.allocate

/-- `malloc` returns just when it is served or there comes to be room for its message. -/
theorem malloc_returns_iff (target : Target) (sbrk : Sbrk) (heap : TaskHeap) (requestedSize : Nat)
    (words : SizeWords target heap.1) :
    Returns target sbrk heap requestedSize <->
      HeapServes target sbrk heap requestedSize ∨
        MessageHasRoom sbrk (heap.allocate target sbrk requestedSize).2 := by
  rw [returns_iff_message, returns_message_iff (sizeWords_allocate words), heapServes_iff words]

/-- One page, and nothing after it. -/
def singlePage : Sbrk :=
  fun calls _ => if calls = 0 then 67108864 else 0

/-- With a page for the first request `malloc` returns. -/
theorem malloc_returns_page : Returns .aarch64 singlePage (.empty, {}) 16 := by
  have words : SizeWords .aarch64 (IntrusiveFreeList.empty) := fun _ => Nat.two_pow_pos _
  have served : HeapServes .aarch64 singlePage (.empty, {}) 16 :=
    (heapServes_iff words).mp rfl
  exact (malloc_returns_iff .aarch64 singlePage (.empty, {}) 16 words).mpr (.inl served)

/-- With nothing from `sbrk`, the first `malloc` of a task does not return. -/
theorem malloc_never_returns : ¬ Returns .aarch64 (fun _ _ => 0) (.empty, {}) 16 := by
  have words : SizeWords .aarch64 (IntrusiveFreeList.empty) := fun _ => Nat.two_pow_pos _
  have failed : TaskHeap.allocate .aarch64 (fun _ _ => 0) 16 (.empty, {}) =
      ({}, attempted (.empty, {})) :=
    allocate_refused words (fun _ member => absurd member List.not_mem_nil) rfl
  rw [returns_iff_message, failed, returns_message_iff words]
  rintro (unserved | ⟨node, member, _⟩ | ⟨calls, _, granted⟩)
  · cases unserved
  · exact absurd member List.not_mem_nil
  · exact granted rfl

end Userspace
end Pinyon
