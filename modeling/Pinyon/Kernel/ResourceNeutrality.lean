import Mathlib
import Pinyon.Kernel.FileReferences
import Pinyon.Kernel.TaskResources
import Pinyon.Library.History
import Pinyon.Pine.VectorList

namespace Pinyon
namespace Kernel

open Library Pine

/-!
# What is left of a task

Every block that is in use belongs to a task, to a file, to a vector or to the rest of
the kernel, or it is lost.  The calls are followed block by block; each rule leaves
alone what stands behind the owners that it is about.

A creation that fails before the heap was obtained leaves no trace.  Behind that point
the heap is lost, and so it is when a task exits.  The descriptors that a task still has
when it exits stay counted.
-/

/-! ## Buffers -/

section Buffers

variable {Value : Type} {vector later : Vector Value} {obtained : Option Allocation}
variable {target : Target} {element : ElementSize} {allocate : Nat -> Allocation} {value : Value}
variable {outcome : VectorOutcome Value} {buffer after : Buffer Value} {index : Nat}
variable {blocks blocksAfter : KernelBlocks} {rest : List Nat}

/-- A vector stays in its buffer, or it is in the block that was obtained. -/
def Rehouses (vector later : Vector Value) (obtained : Option Allocation) : Prop :=
  obtained = none ∧ later.contents = vector.contents ∨
    Exists fun reply => obtained = some reply ∧ later.contents = reply.ptr ∧ reply.ptr ≠ 0

theorem rehouses_append (ran : vector.append target element allocate value = some outcome) :
    Rehouses vector outcome.vector outcome.obtained := by
  rcases Option.bind_eq_some_iff.mp ran with ⟨ensured, prepared, rest⟩
  have same : outcome.obtained = ensured.obtained ∧
      outcome.vector.contents = ensured.vector.contents := by
    split at rest
    · cases Option.some.inj rest
      exact ⟨rfl, rfl⟩
    · cases Option.some.inj rest
      exact ⟨rfl, rfl⟩
  rw [Rehouses, same.1, same.2]
  rcases Vector.ensure_cases prepared with ⟨_, ⟨stays, _⟩ | ⟨_, reply, moves⟩⟩
  · exact .inl ⟨stays.obtained, stays.contents⟩
  · exact .inr ⟨reply, moves.obtained, moves.contents, moves.served⟩

theorem rehouses_remove (ran : vector.remove target element allocate index = some outcome) :
    Rehouses vector outcome.vector outcome.obtained := by
  rcases Vector.remove_cases ran with ⟨stays, _⟩ | ⟨_, _, reply, moves⟩
  · exact .inl ⟨stays.obtained, stays.contents⟩
  · exact .inr ⟨reply, moves.obtained, moves.contents, moves.served⟩

theorem rehouses_buffer {appended : Bool}
    (ran : buffer.append target element allocate value = some (appended, after)) :
    Rehouses buffer.vector after.vector (renewed buffer after) := by
  rcases Option.bind_eq_some_iff.mp ran with ⟨outcome, done, rest⟩
  cases Option.some.inj rest
  rcases rehouses_append done with ⟨nothing, same⟩ | ⟨reply, something, moved, served⟩
  · exact .inl ⟨by simp [renewed, nothing], same⟩
  · exact .inr ⟨reply, by simp [renewed, something], moved, served⟩

/-- The old buffer is given back, and the new one belongs to the vector. -/
theorem accounts_replaceBuffer (rehouses : Rehouses vector later obtained)
    (accounts : blocks.Accounts (bufferBlocks vector ++ rest))
    (replaced : replaceBuffer blocks vector obtained = some blocksAfter) :
    blocksAfter.Accounts (bufferBlocks later ++ rest) := by
  rcases rehouses with ⟨rfl, same⟩ | ⟨reply, rfl, moved, served⟩
  · cases Option.some.inj replaced
    rw [bufferBlocks, same]
    exact accounts
  · rcases Option.bind_eq_some_iff.mp replaced with ⟨middle, acquired, released⟩
    have held := (accounts.acquire acquired).2
    have arranged : middle.Accounts (bufferBlocks vector ++ reply.ptr :: rest) :=
      held.congr List.perm_middle.symm
    rcases arranged.releaseAll with ⟨last, same, left⟩
    cases Option.some.inj (same.symm.trans released)
    rw [bufferBlocks, if_neg (moved ▸ served), moved]
    exact left

end Buffers

/-! ## Files -/

namespace KernelFiles

variable {target : Target} {answers : OpenAnswers} {files after : KernelFiles}
variable {blocks blocksAfter : KernelBlocks} {rest : List Nat} {path : String} {mode : FileMode}
variable {pointer : FilePointer} {table later : FileDescriptorTable} {fd result : Int}

/-- The block of the file of a description that has not been destroyed. -/
def fileAt (files : KernelFiles) (index : Nat) : Option Nat :=
  (files.fileTable.files.vector.slots index).bind fun description =>
    if description.destroyed = 0 then some (files.owners index) else none

/-- The blocks that the file table holds. -/
def owned (files : KernelFiles) : List Nat :=
  bufferBlocks files.fileTable.files.vector ++
    (List.range files.fileTable.files.vector.count).filterMap files.fileAt

/-- A description that was just added counts once and has not been destroyed. -/
def Fresh (files : KernelFiles) (pointer : FilePointer) : Prop :=
  Exists fun description => files.fileTable.descriptionAt pointer = some description ∧
    description.refCount = 1 ∧ description.destroyed = 0

/-- The slots of a vector with another element at the end. -/
theorem slots_of_elements {Value : Type} {vector grown : Vector Value} {value : Value}
    (elements : grown.elements = vector.elements ++ [some value]) :
    grown.count = vector.count + 1 ∧ grown.slots vector.count = some value ∧
      forall index, index < vector.count -> grown.slots index = vector.slots index := by
  have count : grown.count = vector.count + 1 := by
    rw [← Vector.length_elements, elements, List.length_append, Vector.length_elements]
    rfl
  have places : forall index, index < grown.count ->
      some (grown.slots index) = (vector.elements ++ [some value])[index]? := by
    intro index inside
    rw [← elements, Vector.getElem?_elements, if_pos inside]
  refine ⟨count, ?_, fun index inside => ?_⟩
  · have here := places vector.count (by omega)
    rw [List.getElem?_append_right (by simp), Vector.length_elements, Nat.sub_self] at here
    exact Option.some.inj here
  · have here := places index (by omega)
    rw [List.getElem?_append_left (by simpa using inside), Vector.getElem?_elements,
      if_pos inside] at here
    exact Option.some.inj here

/-- A description at the end adds its file. -/
theorem filesAt_grown {buffer : Buffer FileDescription} {description : FileDescription} {block : Nat}
    (new : buffer.vector.slots files.fileTable.files.vector.count = some description)
    (alive : description.destroyed = 0)
    (old : forall index, index < files.fileTable.files.vector.count ->
      buffer.vector.slots index = files.fileTable.files.vector.slots index) :
    (List.range (files.fileTable.files.vector.count + 1)).filterMap
        (KernelFiles.fileAt ⟨⟨buffer⟩,
          Function.update files.owners files.fileTable.files.vector.count block⟩) =
      (List.range files.fileTable.files.vector.count).filterMap files.fileAt ++ [block] := by
  rw [List.range_succ, List.filterMap_append]
  congr 1
  · refine List.filterMap_congr fun index member => ?_
    have inside := List.mem_range.mp member
    rw [fileAt, fileAt]
    dsimp only
    rw [old index inside, Function.update_of_ne (Nat.ne_of_lt inside)]
  · simp [fileAt, new, alive]

/-- An open that succeeds makes a description with a file, and one that fails gives
everything back. -/
theorem accounts_open {opened : Option FilePointer}
    (ran : files.open target answers blocks path mode = some (opened, after, blocksAfter))
    (accounts : blocks.Accounts (files.owned ++ rest)) :
    blocksAfter.Accounts (after.owned ++ rest) ∧
      forall pointer, opened = some pointer -> after.Fresh pointer := by
  rcases Option.bind_eq_some_iff.mp ran with ⟨⟨maybeDescription, fileTable⟩, opens, next⟩
  cases named : File.ofPath path with
  | none =>
      rw [FileTable.open, named] at opens
      cases Option.some.inj opens
      rw [named] at next
      cases Option.some.inj next
      exact ⟨accounts, fun pointer wrong => by cases wrong⟩
  | some file =>
      by_cases refused : answers.file.ptr = 0
      · have created : (answers.file.ptr != 0) = false := by rw [refused]; rfl
        rw [FileTable.open, named, created] at opens
        dsimp only at opens
        rw [if_pos rfl] at opens
        cases Option.some.inj opens
        dsimp only at next
        rw [created, if_neg fun both => absurd both.2 (by decide)] at next
        cases Option.some.inj next
        exact ⟨accounts, fun pointer wrong => by cases wrong⟩
      · have created : (answers.file.ptr != 0) = true := bne_iff_ne.mpr refused
        rw [FileTable.open, named, created] at opens
        dsimp only at opens
        rw [if_neg Bool.true_eq_false.mp] at opens
        rcases Option.bind_eq_some_iff.mp opens with ⟨⟨appended, buffer⟩, appends, given⟩
        dsimp only at next
        rw [named, created, if_pos ⟨rfl, rfl⟩] at next
        rcases Option.bind_eq_some_iff.mp next with ⟨first, acquired, next⟩
        rcases Option.bind_eq_some_iff.mp next with ⟨second, replaced, next⟩
        have arranged : blocks.Accounts (bufferBlocks files.fileTable.files.vector ++
            ((List.range files.fileTable.files.vector.count).filterMap files.fileAt ++ rest)) := by
          rw [← List.append_assoc]
          exact accounts
        have obtained : first.Accounts (bufferBlocks files.fileTable.files.vector ++
            (answers.file.ptr ::
              ((List.range files.fileTable.files.vector.count).filterMap files.fileAt ++ rest))) :=
          (arranged.acquire acquired).2.congr List.perm_middle.symm
        rcases Buffer.append_cases appends with ⟨rfl, rfl, _, _⟩ | ⟨rfl, elements, _, _⟩
        · cases Option.some.inj given
          have held := accounts_replaceBuffer (rehouses_buffer appends) obtained replaced
          rcases Option.bind_eq_some_iff.mp next with ⟨third, released, last⟩
          cases Option.some.inj last
          rcases (held.congr List.perm_middle).release with ⟨last, same, left⟩
          cases Option.some.inj (same.symm.trans released)
          refine ⟨?_, fun pointer wrong => by cases wrong⟩
          rw [← List.append_assoc] at left
          exact left
        · cases Option.some.inj given
          have held := accounts_replaceBuffer (rehouses_buffer appends) obtained replaced
          cases Option.some.inj next
          rcases slots_of_elements elements with ⟨count, new, old⟩
          have place : buffer.vector.count - 1 = files.fileTable.files.vector.count := by
            rw [count, Nat.add_sub_cancel]
          rw [place]
          constructor
          · refine held.congr ?_
            rw [owned, List.append_assoc]
            refine List.Perm.append_left _ ?_
            dsimp only
            rw [count, filesAt_grown new rfl old]
            exact (List.perm_append_singleton _ _).symm.append_right rest
          · intro pointer same
            cases Option.some.inj same
            refine ⟨{ file := file, mode := mode }, ?_, rfl, rfl⟩
            rw [FileTable.descriptionAt, if_pos ⟨rfl, by rw [count]; exact Nat.lt_succ_self _⟩]
            exact new

theorem descriptionAt_spec {description : FileDescription}
    (led : files.fileTable.descriptionAt pointer = some description) :
    pointer.index < files.fileTable.files.vector.count ∧
      files.fileTable.files.vector.slots pointer.index = some description := by
  rw [FileTable.descriptionAt] at led
  split at led
  · exact ⟨(by assumption : _ ∧ _).2, led⟩
  · cases led

/-- A description is written over. -/
theorem fileAt_write (written : FileDescription) :
    KernelFiles.fileAt ⟨files.fileTable.write pointer written, files.owners⟩ =
      Function.update files.fileAt pointer.index
        (if written.destroyed = 0 then some (files.owners pointer.index) else none) := by
  funext index
  by_cases same : index = pointer.index
  · subst same
    simp [fileAt, FileTable.write]
  · simp [fileAt, FileTable.write, same]

/-- A close that counts down to zero gives the file back. -/
theorem accounts_close (ran : files.close blocks pointer = some (after, blocksAfter))
    (accounts : blocks.Accounts (files.owned ++ rest)) : blocksAfter.Accounts (after.owned ++ rest) := by
  rcases Option.bind_eq_some_iff.mp ran with ⟨description, led, next⟩
  rcases Option.bind_eq_some_iff.mp next with ⟨fileTable, closed, next⟩
  rw [FileTable.close, led] at closed
  cases Option.some.inj closed
  rcases descriptionAt_spec led with ⟨inside, here⟩
  by_cases last : (description.refCount + (2 ^ 32 - 1)) % 2 ^ 32 = 0
  · rw [if_pos last] at next
    by_cases alive : description.destroyed = 0
    · rw [if_pos alive] at next
      rcases Option.bind_eq_some_iff.mp next with ⟨middle, released, result⟩
      cases Option.some.inj result
      have owns : files.fileAt pointer.index = some (files.owners pointer.index) := by
        simp [fileAt, here, alive]
      have split := Ledger.filterMap_update_none List.nodup_range (List.mem_range.mpr inside) owns
      have arranged : blocks.Accounts (files.owners pointer.index ::
          (bufferBlocks files.fileTable.files.vector ++
            (List.range files.fileTable.files.vector.count).filterMap
              (Function.update files.fileAt pointer.index none)) ++ rest) := by
        refine accounts.congr (List.Perm.append_right rest ?_)
        exact (split.append_left _).trans List.perm_middle
      rcases arranged.release with ⟨later, same, left⟩
      cases Option.some.inj (same.symm.trans released)
      rw [owned, fileAt_write, if_pos last, if_neg (Nat.succ_ne_zero _)]
      exact left
    · rw [if_neg alive] at next
      cases next
  · rw [if_neg last] at next
    cases Option.some.inj next
    have same : (if description.destroyed = 0 then some (files.owners pointer.index) else none) =
        files.fileAt pointer.index := by
      rw [fileAt, here]
      rfl
    rw [owned, fileAt_write, if_neg last]
    dsimp only
    rw [same, Function.update_eq_self]
    exact accounts

/-! ## Descriptors -/

/-- The buffer of a table of descriptors. -/
abbrev tableBlocks (table : FileDescriptorTable) : List Nat :=
  bufferBlocks table.descriptors.vector

theorem rehouses_tryInsert {allocate : Nat -> Allocation}
    (ran : table.tryInsert target allocate pointer = some (fd, later)) :
    Rehouses table.descriptors.vector later.descriptors.vector
      (renewed table.descriptors later.descriptors) := by
  have stays : forall later : FileDescriptorTable,
      later.descriptors.generation = table.descriptors.generation ->
      later.descriptors.vector.contents = table.descriptors.vector.contents ->
        Rehouses table.descriptors.vector later.descriptors.vector
          (renewed table.descriptors later.descriptors) :=
    fun later generation contents => .inl ⟨if_pos generation, contents⟩
  rw [FileDescriptorTable.tryInsert] at ran
  split at ran
  · cases Option.some.inj ran
    exact stays table rfl rfl
  · split at ran
    · cases Option.some.inj ran
      exact stays _ rfl rfl
    · rcases Option.bind_eq_some_iff.mp ran with ⟨⟨appended, descriptors⟩, appends, rest⟩
      have held := rehouses_buffer appends
      cases appended with
      | true =>
          cases Option.some.inj rest
          exact held
      | false =>
          cases Option.some.inj rest
          exact held

theorem accounts_openDescriptor
    (ran : files.openDescriptor target answers blocks table path mode =
      some (fd, after, later, blocksAfter))
    (accounts : blocks.Accounts (tableBlocks table ++ (files.owned ++ rest))) :
    blocksAfter.Accounts (tableBlocks later ++ (after.owned ++ rest)) := by
  rcases Option.bind_eq_some_iff.mp ran with ⟨⟨opened, middle, blocks'⟩, opens, next⟩
  have arranged : blocks.Accounts (files.owned ++ (tableBlocks table ++ rest)) :=
    accounts.congr (List.perm_append_comm_assoc _ _ _)
  have held := (accounts_open opens arranged).1.congr (List.perm_append_comm_assoc _ _ _)
  cases opened with
  | none =>
      cases Option.some.inj next
      exact held
  | some description =>
      rcases Option.bind_eq_some_iff.mp next with ⟨⟨fdOrNeg, inserted⟩, inserts, next⟩
      rcases Option.bind_eq_some_iff.mp next with ⟨blocks'', replaced, next⟩
      have housed := accounts_replaceBuffer (rehouses_tryInsert inserts) held replaced
      dsimp only at next
      split at next
      · rcases Option.bind_eq_some_iff.mp next with ⟨⟨closed, blocksLast⟩, closes, result⟩
        cases Option.some.inj result
        exact (accounts_close closes (housed.congr (List.perm_append_comm_assoc _ _ _))).congr
          (List.perm_append_comm_assoc _ _ _)
      · cases Option.some.inj next
        exact housed

theorem accounts_closeDescriptor
    (ran : files.closeDescriptor blocks table fd = some (result, after, later, blocksAfter))
    (accounts : blocks.Accounts (tableBlocks table ++ (files.owned ++ rest))) :
    blocksAfter.Accounts (tableBlocks later ++ (after.owned ++ rest)) := by
  rw [closeDescriptor] at ran
  split at ran
  · cases Option.some.inj ran
    exact accounts
  · rcases Option.bind_eq_some_iff.mp ran with ⟨⟨closed, blocksLast⟩, closes, same⟩
    cases Option.some.inj same
    exact (accounts_close closes (accounts.congr (List.perm_append_comm_assoc _ _ _))).congr
      (List.perm_append_comm_assoc _ _ _)

theorem accounts_dupDescriptor {allocate : Nat -> Allocation}
    (ran : dupDescriptor target allocate blocks table fd = some (result, later, blocksAfter))
    (accounts : blocks.Accounts (tableBlocks table ++ rest)) :
    blocksAfter.Accounts (tableBlocks later ++ rest) := by
  rcases Option.bind_eq_some_iff.mp ran with ⟨⟨fd', inserted⟩, dups, next⟩
  rcases Option.bind_eq_some_iff.mp next with ⟨blocks', replaced, same⟩
  cases Option.some.inj same
  refine accounts_replaceBuffer ?_ accounts replaced
  rcases FileDescriptorTable.dup_cases dups with ⟨_, rfl, rfl⟩ | ⟨descriptor, _, inserts⟩
  · exact .inl ⟨if_pos rfl, rfl⟩
  · exact rehouses_tryInsert inserts

end KernelFiles

/-! ## Creating a task -/

namespace KernelTask

variable {target : Target} {flags : CreateFlags} {answers : CreateAnswers}
variable {files after : KernelFiles} {blocks blocksAfter : KernelBlocks} {rest : List Nat}
variable {userStack : Option Nat} {maybeTask : Option KernelTask}

/-- The blocks of a task that may have been created, but not its heap. -/
def destructsOf (maybeTask : Option KernelTask) : List Nat :=
  (maybeTask.map destructs).getD []

theorem regroup (table files held rest : List Nat) :
    (table ++ (files ++ (held ++ rest))).Perm ((table ++ held) ++ (files ++ rest)) := by
  rw [List.append_assoc]
  exact (List.perm_append_comm_assoc files held rest).append_left table

theorem swap_ends (first last : Nat) (middle : List Nat) :
    (first :: (middle ++ [last])).Perm (last :: (middle ++ [first])) := by
  calc
    List.Perm _ (first :: last :: middle) := (List.perm_append_singleton last middle).cons first
    List.Perm _ (last :: first :: middle) := .swap last first middle
    List.Perm _ (last :: (middle ++ [first])) := (List.perm_append_singleton first middle).symm.cons last

/-- A creation that is given up gives back the blocks it holds. -/
theorem accounts_refused {held : List Nat} (accounts : blocks.Accounts (held ++ (files.owned ++ rest)))
    (ran : (blocks.releaseAll held >>= fun middle => some (none, files, middle)) =
      some (maybeTask, after, blocksAfter)) :
    blocksAfter.Accounts (destructsOf maybeTask ++ (after.owned ++ rest)) ∧
      forall task, maybeTask = some task -> task.heap = answers.heap.ptr := by
  rcases Option.bind_eq_some_iff.mp ran with ⟨middle, released, result⟩
  cases Option.some.inj result
  rcases accounts.releaseAll with ⟨last, same, left⟩
  cases Option.some.inj (same.symm.trans released)
  exact ⟨left, fun _ wrong => by cases wrong⟩

/-- What fails behind the allocation of the heap gives back everything but the heap,
which is not among the blocks that this is about. -/
theorem accounts_tryCreateWithHeap
    (ran : tryCreateWithHeap target answers userStack files blocks = some (maybeTask, after, blocksAfter))
    (accounts : blocks.Accounts
      ((userStack.toList ++ [answers.kernelStack.ptr]) ++ (files.owned ++ rest))) :
    blocksAfter.Accounts (destructsOf maybeTask ++ (after.owned ++ rest)) ∧
      forall task, maybeTask = some task -> task.heap = answers.heap.ptr := by
  rw [tryCreateWithHeap] at ran
  dsimp only at ran
  split at ran
  · exact accounts_refused accounts ran
  · rcases Option.bind_eq_some_iff.mp ran with ⟨named, acquired, ran⟩
    rcases Option.bind_eq_some_iff.mp ran with ⟨⟨stdinFd, filesIn, tableIn, blocksIn⟩, opensIn, ran⟩
    -- the table has no buffer yet
    have start : named.Accounts (KernelFiles.tableBlocks FileDescriptorTable.empty ++ (files.owned ++
        (answers.name.ptr :: (userStack.toList ++ [answers.kernelStack.ptr]) ++ rest))) :=
      (accounts.acquire acquired).2.congr (List.perm_append_comm_assoc (_ :: _) _ _)
    have openedIn := KernelFiles.accounts_openDescriptor opensIn start
    dsimp only at ran
    split at ran
    · exact accounts_refused (openedIn.congr (regroup _ _ _ _)) ran
    · rcases Option.bind_eq_some_iff.mp ran with
        ⟨⟨stdoutFd, filesOut, tableOut, blocksOut⟩, opensOut, ran⟩
      have openedOut := (KernelFiles.accounts_openDescriptor opensOut openedIn).congr (regroup _ _ _ _)
      dsimp only at ran
      split at ran
      · exact accounts_refused openedOut ran
      · cases Option.some.inj ran
        refine ⟨openedOut.congr (List.Perm.append_right _ ?_), fun task same => ?_⟩
        · exact List.Perm.append_left _ (swap_ends _ _ _)
        · cases same
          rfl

/-- A stack or the heap could not be had. -/
def RefusedEarly (flags : CreateFlags) (answers : CreateAnswers) : Prop :=
  answers.kernelStack.succeeded = false ∨
    flags = .CreateUserTask ∧ answers.userStack.succeeded = false ∨
    answers.heap.succeeded = false

theorem releaseAll_acquireAll {middle : KernelBlocks} {ptr : Nat}
    (first : blocks.acquire ptr = some middle)
    (second : middle.acquireAll userStack.toList = some blocksAfter) :
    blocksAfter.releaseAll (userStack.toList ++ [ptr]) = some blocks := by
  cases userStack with
  | none =>
      cases Option.some.inj second
      rw [Option.toList_none, List.nil_append, Ledger.releaseAll, Ledger.release_acquire first]
      rfl
  | some stack =>
      rcases Option.bind_eq_some_iff.mp second with ⟨last, acquired, same⟩
      cases Option.some.inj same
      rw [Option.toList_some, List.singleton_append, Ledger.releaseAll,
        Ledger.release_acquire acquired, Option.bind_some, Ledger.releaseAll,
        Ledger.release_acquire first]
      rfl

/-- A creation that is refused early leaves everything as it was.  Any other obtains a
heap, which does not come back when it fails later. -/
theorem tryCreate_cases
    (ran : tryCreate target flags answers files blocks = some (maybeTask, after, blocksAfter))
    (accounts : blocks.Accounts (files.owned ++ rest)) :
    RefusedEarly flags answers ∧ maybeTask = none ∧ after = files ∧ blocksAfter = blocks ∨
      ¬ RefusedEarly flags answers ∧ answers.heap.ptr ∉ blocks ∧
        blocksAfter.Accounts (destructsOf maybeTask ++ (after.owned ++ (answers.heap.ptr :: rest))) ∧
        forall task, maybeTask = some task -> task.heap = answers.heap.ptr := by
  rw [tryCreate] at ran
  by_cases noStack : answers.kernelStack.succeeded = false
  · rw [if_pos noStack] at ran
    cases Option.some.inj ran
    exact .inl ⟨.inl noStack, rfl, rfl, rfl⟩
  · rw [if_neg noStack] at ran
    rcases Option.bind_eq_some_iff.mp ran with ⟨first, acquiredStack, ran⟩
    by_cases noUserStack : flags = .CreateUserTask ∧ answers.userStack.succeeded = false
    · rw [if_pos noUserStack] at ran
      rcases Option.bind_eq_some_iff.mp ran with ⟨middle, released, result⟩
      cases Option.some.inj result
      have same := (Ledger.release_acquire acquiredStack).symm.trans released
      exact .inl ⟨.inr (.inl noUserStack), rfl, rfl, (Option.some.inj same).symm⟩
    · rw [if_neg noUserStack] at ran
      rcases Option.bind_eq_some_iff.mp ran with ⟨second, acquiredStacks, ran⟩
      by_cases noHeap : answers.heap.succeeded = false
      · rw [if_pos noHeap] at ran
        rcases Option.bind_eq_some_iff.mp ran with ⟨middle, released, result⟩
        cases Option.some.inj result
        have same := (releaseAll_acquireAll acquiredStack acquiredStacks).symm.trans released
        exact .inl ⟨.inr (.inr noHeap), rfl, rfl, (Option.some.inj same).symm⟩
      · rw [if_neg noHeap] at ran
        rcases Option.bind_eq_some_iff.mp ran with ⟨third, acquiredHeap, created⟩
        generalize (if flags = .CreateUserTask then some answers.userStack.ptr else none) = userStack
          at acquiredStacks created
        have held := (accounts.acquire acquiredStack).2.acquireAll acquiredStacks
        rcases held.acquire acquiredHeap with ⟨fresh, more⟩
        have arranged : third.Accounts ((userStack.toList ++ [answers.kernelStack.ptr]) ++
            (files.owned ++ (answers.heap.ptr :: rest))) := by
          refine more.congr ?_
          rw [← List.append_assoc, List.append_cons, ← List.append_assoc]
          exact List.perm_middle.symm
        rcases accounts_tryCreateWithHeap created arranged with ⟨left, heap⟩
        refine .inr ⟨?_, fun member => fresh ?_, left, heap⟩
        · rintro (wrong | wrong | wrong)
          · exact noStack wrong
          · exact noUserStack wrong
          · exact noHeap wrong
        · have old : answers.heap.ptr ∈ files.owned ++ rest := accounts.mem_iff.mp member
          exact held.mem_iff.mpr (List.mem_append_right _ (List.mem_cons_of_mem _ old))

end KernelTask

/-! ## The kernel -/

namespace TaskKernel

variable {target : Target} {taskSize : ElementSize} {kernel after before : TaskKernel}
variable {index : Nat} {task : KernelTask} {lost : List Nat} {allocate : Nat -> Allocation}
variable {call : Call}

/-- The tasks that have not been destroyed. -/
def live (kernel : TaskKernel) : List KernelTask :=
  kernel.tasks.elements.filterMap id

/-- The blocks that someone will give back. -/
def owned (kernel : TaskKernel) : List Nat :=
  kernel.files.owned ++ (bufferBlocks kernel.tasks ++
    (kernel.live.flatMap KernelTask.blocks ++ kernel.others))

/-- The blocks in use are owned or lost. -/
def Sound (kernel : TaskKernel) : Prop :=
  Exists fun lost => kernel.blocks.Accounts (kernel.owned ++ lost)

theorem sound_start : Sound start :=
  ⟨[], Ledger.accounts_nil⟩

/-- One task among all, and what the others are when it is changed or removed. -/
theorem live_at (here : kernel.taskAt index = some task) :
    index < kernel.tasks.count ∧ kernel.live.Perm
        (task :: (kernel.tasks.elements.eraseIdx index).filterMap id) ∧
      forall maybe : Option KernelTask, ((kernel.tasks.elements.set index maybe).filterMap id).Perm
        (maybe.toList ++ (kernel.tasks.elements.eraseIdx index).filterMap id) := by
  rw [taskAt] at here
  split at here
  · have inside : index < kernel.tasks.count := by assumption
    have long : index < kernel.tasks.elements.length := by
      rw [Vector.length_elements]
      exact inside
    have element : kernel.tasks.elements[index] = some task := by
      have read := Vector.getElem?_elements kernel.tasks index
      rw [if_pos inside, here, List.getElem?_eq_getElem long] at read
      exact Option.some.inj read
    refine ⟨inside, ?_, fun maybe => ?_⟩
    · have split := (List.getElem_cons_eraseIdx_perm long).symm.filterMap id
      rw [element] at split
      exact split
    · have split := (List.set_perm_cons_eraseIdx long maybe).filterMap id
      cases maybe with
      | none => exact split
      | some other => exact split
  · cases here

theorem elements_withTable (kernel : TaskKernel) (index : Nat) (task : KernelTask) (files : KernelFiles)
    (table : FileDescriptorTable) (blocks : KernelBlocks) :
    (kernel.withTable index task files table blocks).tasks.elements =
      kernel.tasks.elements.set index (some { task with fdTable := table }) := by
  apply List.ext_getElem?
  intro place
  rw [List.getElem?_set, Vector.getElem?_elements, Vector.getElem?_elements, Vector.length_elements]
  by_cases same : index = place
  · subst same
    simp [withTable]
  · simp [withTable, same, Ne.symm same]

/-- A call about the descriptors of one task leaves the other owners alone. -/
theorem owned_withTable (here : kernel.taskAt index = some task) (lost : List Nat) :
    Exists fun rest => (kernel.owned ++ lost).Perm
        (KernelFiles.tableBlocks task.fdTable ++ (kernel.files.owned ++ rest)) ∧
      forall files table blocks, ((kernel.withTable index task files table blocks).owned ++ lost).Perm
        (KernelFiles.tableBlocks table ++ (files.owned ++ rest)) := by
  rcases live_at here with ⟨_, split, changed⟩
  refine ⟨bufferBlocks kernel.tasks ++ (task.heap :: task.kernelStack ::
      (task.userStack.toList ++ [task.name]) ++
      ((kernel.tasks.elements.eraseIdx index).filterMap id).flatMap KernelTask.blocks ++
      kernel.others ++ lost), ?_, ?_⟩
  · rw [List.perm_iff_count]
    intro ptr
    have counted := (split.flatMap_right KernelTask.blocks).count_eq ptr
    simp only [List.flatMap_cons, KernelTask.blocks, KernelTask.destructs, List.count_append,
      List.count_cons] at counted
    simp only [owned, KernelFiles.tableBlocks, List.count_append, List.count_cons, counted]
    omega
  · intro files table blocks
    rw [List.perm_iff_count]
    intro ptr
    have counted := ((changed (some { task with fdTable := table })).flatMap_right
      KernelTask.blocks).count_eq ptr
    rw [← elements_withTable kernel index task files table blocks] at counted
    simp only [Option.toList_some, List.singleton_append, List.flatMap_cons, KernelTask.blocks,
      KernelTask.destructs, List.count_append, List.count_cons] at counted
    have buffer : bufferBlocks (kernel.withTable index task files table blocks).tasks =
        bufferBlocks kernel.tasks := rfl
    simp only [owned, live, KernelFiles.tableBlocks, buffer, List.count_append, List.count_cons, counted]
    simp only [withTable]
    omega

/-- A task that exits gives back everything but its heap.  The tasks that the vector
forgets, because it could not be made shorter, are lost with it. -/
theorem exit_spec (accounts : kernel.blocks.Accounts (kernel.owned ++ lost))
    (here : kernel.taskAt index = some task)
    (exited : kernel.exitRunningTask target taskSize allocate index = some after) :
    after.files = kernel.files ∧ Exists fun forgotten =>
      after.blocks.Accounts (after.owned ++ (task.heap :: (forgotten ++ lost))) ∧
      forall ptr, ptr ∈ task.destructs -> ptr ∉ task.heap :: (forgotten ++ lost) := by
  rw [exitRunningTask, here, Option.bind_eq_bind, Option.bind_some] at exited
  rcases Option.bind_eq_some_iff.mp exited with ⟨outcome, removed, next⟩
  rcases Option.bind_eq_some_iff.mp next with ⟨middle, released, next⟩
  rcases Option.bind_eq_some_iff.mp next with ⟨last, replaced, result⟩
  cases Option.some.inj result
  rcases live_at here with ⟨inside, split, changed⟩
  have remaining : Exists fun forgotten => ((kernel.tasks.elements.eraseIdx index).filterMap id).Perm
      (outcome.vector.elements.filterMap id ++ forgotten) := by
    rcases Vector.remove_elements removed with
      ⟨beyond, _, _⟩ | ⟨_, _, _, elements⟩ | ⟨_, _, _, _, elements⟩
    · exact absurd inside (Nat.not_lt.mpr beyond)
    · refine ⟨[], ?_⟩
      rw [elements, List.append_nil]
    · refine ⟨((kernel.tasks.elements.set index none).drop (kernel.tasks.count - 1)).filterMap id, ?_⟩
      rw [elements, ← List.filterMap_append, List.take_append_drop]
      exact (changed none).symm
  rcases remaining with ⟨forgotten, remaining⟩
  have arranged : kernel.blocks.Accounts (task.destructs ++ (bufferBlocks kernel.tasks ++
      (kernel.files.owned ++ ((outcome.vector.elements.filterMap id).flatMap KernelTask.blocks ++
        kernel.others) ++ (task.heap :: (forgotten.flatMap KernelTask.blocks ++ lost))))) := by
    refine accounts.congr (List.perm_iff_count.mpr fun ptr => ?_)
    have counted := (split.flatMap_right KernelTask.blocks).count_eq ptr
    have others := (remaining.flatMap_right KernelTask.blocks).count_eq ptr
    simp only [List.flatMap_cons, List.flatMap_append, KernelTask.blocks, List.count_append,
      List.count_cons] at counted others
    simp only [owned, List.count_append, List.count_cons, counted, others]
    omega
  rcases arranged.releaseAll with ⟨middle', same, left⟩
  cases Option.some.inj (same.symm.trans released)
  have held := accounts_replaceBuffer (rehouses_remove removed) left replaced
  refine ⟨rfl, forgotten.flatMap KernelTask.blocks, held.congr ?_, fun ptr member wrong => ?_⟩
  · rw [List.perm_iff_count]
    intro ptr
    simp only [owned, live, List.count_append]
    omega
  · have apart := (List.nodup_append.mp arranged.nodup).2.2 ptr member ptr
    exact apart (List.mem_append_right _ (List.mem_append_right _ wrong)) rfl

theorem Sound.tryCreateTask {flags : CreateFlags} {answers : KernelTask.CreateAnswers} {result : Bool}
    (sound : Sound kernel)
    (ran : kernel.tryCreateTask target taskSize flags answers allocate = some (result, after)) :
    Sound after := by
  rcases sound with ⟨lost, accounts⟩
  rcases Option.bind_eq_some_iff.mp ran with ⟨⟨maybeTask, files, blocks⟩, created, next⟩
  rw [owned, List.append_assoc] at accounts
  rcases KernelTask.tryCreate_cases created accounts with ⟨_, rfl, rfl, rfl⟩ | ⟨_, _, held, heap⟩
  · cases Option.some.inj next
    refine ⟨lost, ?_⟩
    rw [owned, List.append_assoc]
    exact accounts
  · cases maybeTask with
    | none =>
        cases Option.some.inj next
        refine ⟨answers.heap.ptr :: lost, held.congr (List.perm_iff_count.mpr fun ptr => ?_)⟩
        simp only [KernelTask.destructsOf, owned, live, Option.map_none, Option.getD_none,
          List.count_append, List.count_cons, List.count_nil]
        omega
    | some task =>
        rcases Option.bind_eq_some_iff.mp next with ⟨outcome, appended, next⟩
        rcases Option.bind_eq_some_iff.mp next with ⟨housed, replaced, next⟩
        have arranged : blocks.Accounts (bufferBlocks kernel.tasks ++ (task.destructs ++
            (files.owned ++ (kernel.live.flatMap KernelTask.blocks ++ kernel.others ++
              (task.heap :: lost))))) := by
          refine held.congr (List.perm_iff_count.mpr fun ptr => ?_)
          rw [← heap task rfl]
          simp only [KernelTask.destructsOf, Option.map_some, Option.getD_some, List.count_append,
            List.count_cons]
          omega
        have renewed := accounts_replaceBuffer (rehouses_append appended) arranged replaced
        have elements := Vector.append_elements appended
        cases success : outcome.result with
        | true =>
            simp only [success, if_true, Option.bind_eq_bind, Option.bind_some] at next
            cases Option.some.inj next
            refine ⟨lost, renewed.congr (List.perm_iff_count.mpr fun ptr => ?_)⟩
            have grown : outcome.vector.elements.filterMap id = kernel.live ++ [task] := by
              rw [elements.1 success, List.filterMap_append]
              rfl
            simp only [owned, live] at grown ⊢
            simp only [grown, List.flatMap_append, List.flatMap_singleton, KernelTask.blocks,
              List.count_append, List.count_cons]
            omega
        | false =>
            simp only [success, Bool.false_eq_true, if_false] at next
            rcases Option.bind_eq_some_iff.mp next with ⟨last, released, result⟩
            cases Option.some.inj result
            rcases (renewed.congr (List.perm_append_comm_assoc _ _ _)).releaseAll with
              ⟨last', same, left⟩
            cases Option.some.inj (same.symm.trans released)
            refine ⟨task.heap :: lost, left.congr (List.perm_iff_count.mpr fun ptr => ?_)⟩
            rw [elements.2 success]
            simp only [owned, live, List.count_append, List.count_cons]
            omega

theorem Sound.step (sound : Sound before) (stepped : Step target taskSize before call after) :
    Sound after := by
  cases call with
  | tryCreateTask flags answers allocate =>
      rcases Option.bind_eq_some_iff.mp stepped with ⟨⟨result, made⟩, ran, same⟩
      cases Option.some.inj same
      exact sound.tryCreateTask ran
  | «open» index answers path mode =>
      rcases sound with ⟨lost, accounts⟩
      rcases Option.bind_eq_some_iff.mp stepped with ⟨task, here, next⟩
      rcases Option.bind_eq_some_iff.mp next with ⟨⟨fd, files, table, blocks⟩, ran, same⟩
      cases Option.some.inj same
      rcases owned_withTable here lost with ⟨rest, split, changed⟩
      have held := KernelFiles.accounts_openDescriptor ran (accounts.congr split)
      exact ⟨lost, held.congr (changed files table blocks).symm⟩
  | close index fd =>
      rcases sound with ⟨lost, accounts⟩
      rcases Option.bind_eq_some_iff.mp stepped with ⟨task, here, next⟩
      rcases Option.bind_eq_some_iff.mp next with ⟨⟨result, files, table, blocks⟩, ran, same⟩
      cases Option.some.inj same
      rcases owned_withTable here lost with ⟨rest, split, changed⟩
      have held := KernelFiles.accounts_closeDescriptor ran (accounts.congr split)
      exact ⟨lost, held.congr (changed files table blocks).symm⟩
  | dup index allocate fd =>
      rcases sound with ⟨lost, accounts⟩
      rcases Option.bind_eq_some_iff.mp stepped with ⟨task, here, next⟩
      rcases Option.bind_eq_some_iff.mp next with ⟨⟨result, table, blocks⟩, ran, same⟩
      cases Option.some.inj same
      rcases owned_withTable here lost with ⟨rest, split, changed⟩
      have held := KernelFiles.accounts_dupDescriptor ran (accounts.congr split)
      exact ⟨lost, held.congr (changed before.files table blocks).symm⟩
  | exit runningTaskIndex allocate =>
      rcases sound with ⟨lost, accounts⟩
      rcases Option.bind_eq_some_iff.mp stepped with ⟨task, here, _⟩
      rcases exit_spec accounts here stepped with ⟨_, forgotten, held, _⟩
      exact ⟨_, held⟩
  | obtain_ ptr =>
      rcases sound with ⟨lost, accounts⟩
      rcases Option.bind_eq_some_iff.mp stepped with ⟨blocks, acquired, same⟩
      cases Option.some.inj same
      refine ⟨lost, (accounts.acquire acquired).2.congr (List.perm_iff_count.mpr fun other => ?_)⟩
      simp only [owned, live, List.count_append, List.count_cons]
      omega
  | giveBack ptr =>
      rcases sound with ⟨lost, accounts⟩
      have member : ptr ∈ before.others := by
        by_contra missing
        rw [Step, perform, if_neg missing] at stepped
        cases stepped
      rw [Step, perform, if_pos member] at stepped
      rcases Option.bind_eq_some_iff.mp stepped with ⟨blocks, released, same⟩
      cases Option.some.inj same
      have arranged : before.blocks.Accounts (ptr :: (({ before with
          blocks := blocks, others := before.others.erase ptr } : TaskKernel).owned ++ lost)) := by
        refine accounts.congr (List.perm_iff_count.mpr fun other => ?_)
        have counted := (List.perm_cons_erase member).count_eq other
        simp only [List.count_cons] at counted
        simp only [owned, live, List.count_append, List.count_cons, counted]
        omega
      rcases arranged.release with ⟨last, same, left⟩
      cases Option.some.inj (same.symm.trans released)
      exact ⟨lost, left⟩

/-! ## The balance -/

/-- The same blocks are in use, and every description is counted as before. -/
structure Neutral (files : KernelFiles) (blocks : KernelBlocks) (filesAfter : KernelFiles)
    (blocksAfter : KernelBlocks) : Prop where
  blocks : forall ptr, ptr ∈ blocksAfter <-> ptr ∈ blocks
  counts : filesAfter.fileTable.files.vector.elements.map (Option.map FileDescription.refCount) =
    files.fileTable.files.vector.elements.map (Option.map FileDescription.refCount)

/-- No block of a task is in use any more, except by someone who obtained it again, and
none of its descriptors is counted any more. -/
structure Released (before : TaskKernel) (task : KernelTask) (after : TaskKernel) : Prop where
  blocks : forall ptr, ptr ∈ task.blocks -> ptr ∈ after.blocks -> ptr ∈ after.owned
  descriptors : forall pointer description,
    before.files.fileTable.descriptionAt pointer = some description ->
      Exists fun later => after.files.fileTable.descriptionAt pointer = some later ∧
        later.refCount + task.fdTable.references pointer = description.refCount

/-- Whenever a task cannot be created, this is neutral just when a stack or the heap was
refused.  No task that exits is released: its heap stays in use without an owner and its
descriptors stay counted, while its stacks, its name and its table are given back. -/
theorem resource_neutral_iff {calls : List Call}
    (reached : Reaches (Step target taskSize) start calls kernel) :
    (forall flags answers files blocks,
      KernelTask.tryCreate target flags answers kernel.files kernel.blocks =
        some (none, files, blocks) ->
      (Neutral kernel.files kernel.blocks files blocks <-> KernelTask.RefusedEarly flags answers)) ∧
    (forall index task allocate after, kernel.taskAt index = some task ->
      kernel.exitRunningTask target taskSize allocate index = some after ->
      ¬ Released kernel task after ∧ task.heap ∈ after.blocks ∧ task.heap ∉ after.owned ∧
        after.files = kernel.files ∧
        forall ptr, ptr ∈ task.destructs -> ptr ∈ after.blocks -> ptr ∈ after.owned) := by
  have sound := reached.invariant Sound sound_start fun _ _ _ sound stepped => sound.step stepped
  rcases sound with ⟨lost, accounts⟩
  constructor
  · intro flags answers files blocks failed
    rw [owned, List.append_assoc] at accounts
    rcases KernelTask.tryCreate_cases failed accounts with
      ⟨early, _, rfl, rfl⟩ | ⟨late, fresh, held, _⟩
    · exact ⟨fun _ => early, fun _ => ⟨fun _ => Iff.rfl, rfl⟩⟩
    · refine ⟨fun neutral => absurd ((neutral.blocks _).mp (held.mem_iff.mpr ?_)) fresh,
        fun early => absurd early late⟩
      exact List.mem_append_right _ (List.mem_append_right _ List.mem_cons_self)
  · intro index task allocate after here exited
    rcases exit_spec accounts here exited with ⟨files, forgotten, held, apart⟩
    have inUse : task.heap ∈ after.blocks :=
      held.mem_iff.mpr (List.mem_append_right _ List.mem_cons_self)
    have nobody : task.heap ∉ after.owned := (held.congr List.perm_middle).not_both ∘
      List.mem_append_left _
    refine ⟨fun released => nobody (released.blocks _ List.mem_cons_self inUse), inUse, nobody, files,
      fun ptr member stays => ?_⟩
    exact (List.mem_append.mp (held.mem_iff.mp stays)).resolve_right (apart ptr member)

/-- Each block at an address of its own. -/
def answersAt (name : Allocation) : KernelTask.CreateAnswers where
  kernelStack := ⟨1048576, 32768⟩
  userStack := ⟨2097152, 2097152⟩
  heap := ⟨4194304, 4194304⟩
  name := name
  stdin := ⟨⟨4096, 8⟩, Files.blockAt 65536, Files.blockAt 131072⟩
  stdout := ⟨⟨8192, 8⟩, Files.blockAt 196608, Files.blockAt 262144⟩

/-- The size of a task in the examples. -/
def exampleSize : ElementSize := ⟨200, by decide⟩

/-- The shell is created, and exits. -/
theorem resource_neutral_iff_shell : Exists fun kernel => Exists fun task => Exists fun after =>
    Reaches (Step .aarch32 exampleSize) start
      [.tryCreateTask .CreateUserTask (answersAt ⟨16384, 5⟩) (Files.blockAt 327680)] kernel ∧
    kernel.taskAt 0 = some task ∧
    kernel.exitRunningTask .aarch32 exampleSize (Files.blockAt 393216) 0 = some after ∧
    ¬ Released kernel task after ∧ task.heap = 4194304 ∧ task.heap ∈ after.blocks := by
  have run : Reaches (Step .aarch32 exampleSize) start
      [.tryCreateTask .CreateUserTask (answersAt ⟨16384, 5⟩) (Files.blockAt 327680)] _ :=
    .tail .refl rfl
  rcases (resource_neutral_iff run).2 0 _ (Files.blockAt 393216) _ rfl rfl with
    ⟨released, inUse, _⟩
  exact ⟨_, _, _, run, rfl, rfl, released, rfl, inUse⟩

/-- There is no memory for the name of a task.  Its stack is given back, and its heap
is not. -/
theorem heap_lost_without_name : Exists fun files => Exists fun blocks =>
    KernelTask.tryCreate .aarch32 .CreateKernelTask (answersAt {}) start.files start.blocks =
      some (none, files, blocks) ∧
    start.blocks = [] ∧ blocks = [4194304] ∧ ¬ Neutral start.files start.blocks files blocks := by
  refine ⟨_, _, rfl, rfl, rfl, fun neutral => ?_⟩
  have kept : 4194304 ∈ start.blocks := (neutral.blocks 4194304).mp (by decide)
  exact absurd kept List.not_mem_nil

end TaskKernel

end Kernel
end Pinyon
