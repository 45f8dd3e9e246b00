import Pinyon.Library.Span
import Pinyon.Pine.FixedHeapSafety
import Pinyon.Pine.FreeListConservation
import Pinyon.Userspace.Malloc

namespace Pinyon
namespace Userspace

open Library Pine

/-!
# Statistics of the heap

`malloc` and `free` keep count of what they hand out and take back.  What is taken off for a
block is read from its header, which no caller reaches.  The sums are words: as long as `sbrk`
returns memory that the task does not have yet, no sum exceeds a word.
-/

/-- The heap of a task, the blocks that it has been given and not given back, and the memory
that `sbrk` has returned. -/
structure HeapUse where
  use : FreeListUse
  extender : HeapExtender

inductive HeapCall where
  | malloc (requestedSize : Nat)
  | free (alloc : Allocation)
  | write (sizeAt : Nat -> Nat)

namespace HeapUse

def start : HeapUse where
  use := .empty
  extender := {}

def heap (state : HeapUse) : TaskHeap :=
  (state.use.list, state.extender)

/-- `memstats()`. -/
def memstats (state : HeapUse) : MallocStats :=
  state.extender.stats

/-- What `sbrk` returns to a request that the list cannot serve. -/
def granted (target : Target) (sbrk : Sbrk) (state : HeapUse) (requestedSize : Nat) : Allocation :=
  ⟨sbrk state.extender.calls (increaseFor target requestedSize), increaseFor target requestedSize⟩

/-- After a `malloc` that succeeded. -/
def received (target : Target) (sbrk : Sbrk) (before : HeapUse) (requestedSize : Nat)
    (alloc : Allocation) (heap : TaskHeap) : HeapUse where
  use :=
    { list := heap.1
      live := alloc :: before.use.live
      added :=
        if heap.2.calls = before.extender.calls then before.use.added
        else before.granted target sbrk requestedSize :: before.use.added }
  extender := heap.2

/-- After a `free`. -/
def returned (target : Target) (before : HeapUse) (alloc : Allocation) : HeapUse where
  use := { before.use with
    list := (before.heap.free target alloc).1
    live := before.use.live.erase alloc }
  extender := (before.heap.free target alloc).2

/-- A `malloc` that does not fail, a `free` of a live block, or stores into live blocks. -/
inductive Step (target : Target) (sbrk : Sbrk) : HeapUse -> HeapCall -> HeapUse -> Prop
  | malloc (before : HeapUse) (requestedSize depth : Nat) (alloc : Allocation) (heap : TaskHeap)
      (result : malloc target sbrk depth (some before.heap) requestedSize = (alloc, some heap))
      (succeeded : alloc.succeeded = true) :
      Step target sbrk before (.malloc requestedSize)
        (before.received target sbrk requestedSize alloc heap)
  | free (before : HeapUse) (alloc : Allocation) (member : alloc ∈ before.use.live) :
      Step target sbrk before (.free alloc) (before.returned target alloc)
  | write (before : HeapUse) (use : FreeListUse) (sizeAt : Nat -> Nat)
      (words : forall node, sizeAt node < target.wordLimit)
      (stored : FreeListUse.Step target before.use (.write sizeAt) use) :
      Step target sbrk before (.write sizeAt) { before with use }

/-- `unsigned int`. -/
def unsignedLimit : Nat := 2 ^ 32

/-- The statistics say what is live, and no more is used than there is. -/
structure Truthful (state : HeapUse) : Prop where
  used : state.memstats.usedSize = (state.use.live.map Allocation.size).sum
  bounded : state.memstats.usedSize ≤ state.memstats.heapSize
  counted : (state.memstats.numMallocs + unsignedLimit - state.memstats.numFrees) % unsignedLimit =
    state.use.live.length

/-- When the list cannot serve a request, `sbrk` returns nothing or memory that the task does
not have yet; and the blocks that are live can be counted. -/
def Owned (target : Target) (sbrk : Sbrk) (before : HeapUse) : HeapCall -> Prop
  | .malloc requestedSize =>
      (CannotServe before.use.list requestedSize ->
        (before.granted target sbrk requestedSize).ptr ≠ 0 ->
          Addable target before.use.added (before.granted target sbrk requestedSize)) ∧
        before.use.live.length + 1 < unsignedLimit
  | _ => True

/-! ## A call of `malloc` that succeeds -/

variable {target : Target} {sbrk : Sbrk} {before after : HeapUse} {requestedSize : Nat}
variable {alloc : Allocation}

/-- Nothing is printed. -/
theorem malloc_succeeded {depth : Nat} {heap final : TaskHeap}
    (result : malloc target sbrk depth (some heap) requestedSize = (alloc, some final))
    (succeeded : alloc.succeeded = true) : Exists fun after =>
      heap.allocate target sbrk requestedSize = (alloc, after) ∧
        final = after.countMalloc target alloc := by
  cases depth with
  | zero => cases result
  | succ depth =>
      rw [malloc] at result
      rcases answered : heap.allocate target sbrk requestedSize with ⟨block, after⟩
      rw [answered] at result
      dsimp only at result
      cases obtained : block.succeeded with
      | true =>
          rw [obtained, if_pos rfl] at result
          cases result
          exact ⟨after, rfl, rfl⟩
      | false =>
          rw [obtained, if_neg Bool.false_ne_true] at result
          split at result
          · cases result
          · cases result
            exact absurd (obtained.symm.trans succeeded) Bool.false_ne_true

theorem ptr_ne_zero {list : IntrusiveFreeList} (words : SizeWords target list)
    (succeeded : (list.allocate target requestedSize).1.succeeded = true) :
    (list.allocate target requestedSize).1.ptr ≠ 0 := by
  intro null
  rw [allocate_of_cannotServe words ((allocate_null_iff words).mp null)] at succeeded
  cases succeeded

/-- A block is taken from a list, for a caller that had others before. -/
theorem step_allocate {use : FreeListUse} (words : SizeWords target use.list)
    (succeeded : (use.list.allocate target requestedSize).1.succeeded = true) :
    FreeListUse.Step target use (.allocate requestedSize)
      { use with
        list := (use.list.allocate target requestedSize).2
        live := (use.list.allocate target requestedSize).1 :: use.live } := by
  have step := @FreeListUse.Step.allocate target use requestedSize
  rwa [if_neg (ptr_ne_zero words succeeded)] at step

/-- The block is taken from the list as it was, or from the list with what `sbrk` returned. -/
theorem received_cases (words : SizeWords target before.use.list) {heap : TaskHeap}
    (owned : Owned target sbrk before (.malloc requestedSize))
    (answered : before.heap.allocate target sbrk requestedSize = (alloc, heap))
    (succeeded : alloc.succeeded = true) :
    (heap.2 = before.extender ∧
        FreeListUse.Step target before.use (.allocate requestedSize)
          { list := heap.1, live := alloc :: before.use.live, added := before.use.added }) ∨
      (heap.2.calls = before.extender.calls + 1 ∧
        heap.2.stats = { before.memstats with heapSize := (before.memstats.heapSize +
          (before.granted target sbrk requestedSize).size) % target.wordLimit } ∧
        Exists fun middle =>
          FreeListUse.Step target before.use (.add (before.granted target sbrk requestedSize)) middle ∧
          FreeListUse.Step target middle (.allocate requestedSize)
            { list := heap.1, live := alloc :: before.use.live
              added := before.granted target sbrk requestedSize :: before.use.added }) := by
  by_cases tooSmall : CannotServe before.use.list requestedSize
  · by_cases refused : (before.granted target sbrk requestedSize).ptr = 0
    · have failed := @allocate_refused target sbrk before.heap requestedSize words tooSmall refused
      cases answered.symm.trans failed
      cases succeeded
    · have extended := @allocate_extended target sbrk before.heap requestedSize words tooSmall refused
      cases answered.symm.trans extended
      refine .inr ⟨rfl, rfl, _, .add before.use _ (owned.1 tooSmall refused), ?_⟩
      exact step_allocate words.add succeeded
  · have served := @allocate_served target sbrk before.heap requestedSize
      (mt (allocate_null_iff words).mp tooSmall)
    cases answered.symm.trans served
    exact .inl ⟨rfl, step_allocate words succeeded⟩

/-! ## Runs -/

/-- The invariant: the list is used as a free list may be, and no sum has wrapped. -/
structure Tracks (target : Target) (state : HeapUse) : Prop where
  reached : Exists fun calls => Reaches (FreeListUse.Step target) .empty calls state.use
  words : SizeWords target state.use.list
  used : state.memstats.usedSize = (state.use.live.map Allocation.size).sum
  size : state.memstats.heapSize = state.use.bytesAdded
  few : state.use.live.length < unsignedLimit
  frees : state.memstats.numFrees < unsignedLimit
  counted : state.memstats.numMallocs = (state.use.live.length + state.memstats.numFrees) % unsignedLimit

theorem tracks_start (target : Target) : Tracks target start where
  reached := ⟨[], .refl⟩
  words := fun _ => Nat.two_pow_pos _
  used := rfl
  size := rfl
  few := Nat.two_pow_pos _
  frees := Nat.two_pow_pos _
  counted := rfl

/-- What is live is no more than what was added, which is less than a word. -/
theorem live_le_added {calls : List FreeListCall} {use : FreeListUse}
    (reached : Reaches (FreeListUse.Step target) .empty calls use) :
    (use.live.map Allocation.size).sum ≤ use.bytesAdded ∧ use.bytesAdded < target.wordLimit := by
  rcases FreeListUse.accounted_le reached with ⟨sound, bounded⟩
  constructor
  · have payloads : (use.live.map Allocation.size).sum ≤
        (use.live.map fun alloc => alloc.size + headerNodeSize target).sum :=
      List.sum_le_sum fun alloc _ => Nat.le_add_right _ _
    unfold FreeListUse.bytesAccounted at bounded
    omega
  · have positive : 0 < target.wordLimit := Nat.two_pow_pos _
    have below : forall region, region ∈ use.added -> region.ptr + region.size ≤ target.wordLimit - 1 :=
      fun region member => Nat.le_sub_one_of_lt (sound.memory.bounded region member)
    have total := lengths_le sound.memory.apart below
    unfold FreeListUse.bytesAdded
    omega

theorem Tracks.truthful (tracks : Tracks target after) : Truthful after := by
  rcases tracks.reached with ⟨calls, reached⟩
  refine ⟨tracks.used, ?_, ?_⟩
  · rw [tracks.used, tracks.size]
    exact (live_le_added reached).1
  · have frees := tracks.frees
    have few := tracks.few
    rw [tracks.counted]
    unfold unsignedLimit at *
    omega

/-- A block is counted when it is handed out. -/
theorem Tracks.count (tracks : Tracks target before) {use : FreeListUse} {calls : List FreeListCall}
    {extender : HeapExtender} (reached : Reaches (FreeListUse.Step target) .empty calls use)
    (words : SizeWords target use.list) (live : use.live = alloc :: before.use.live)
    (few : before.use.live.length + 1 < unsignedLimit)
    (stats : extender.stats = { before.memstats with heapSize := use.bytesAdded }) :
    Tracks target ⟨use, (TaskHeap.countMalloc target alloc (use.list, extender)).2⟩ where
  reached := ⟨calls, reached⟩
  words := words
  used := by
    have bounds := live_le_added reached
    rw [live, List.map_cons, List.sum_cons] at bounds
    change (extender.stats.usedSize + alloc.size) % target.wordLimit = _
    rw [stats, live, List.map_cons, List.sum_cons]
    dsimp only
    rw [tracks.used, Nat.add_comm]
    exact Nat.mod_eq_of_lt (Nat.lt_of_le_of_lt bounds.1 bounds.2)
  size := by
    change extender.stats.heapSize = _
    rw [stats]
  few := by
    rw [live]
    exact few
  frees := by
    change extender.stats.numFrees < _
    rw [stats]
    exact tracks.frees
  counted := by
    change (extender.stats.numMallocs + 1) % 2 ^ 32 = (use.live.length + extender.stats.numFrees) % _
    rw [stats, live, List.length_cons]
    dsimp only
    rw [tracks.counted, unsignedLimit, Nat.mod_add_mod, Nat.add_right_comm]

theorem Tracks.malloc (tracks : Tracks target before) {depth : Nat} {heap : TaskHeap}
    (owned : Owned target sbrk before (.malloc requestedSize))
    (result : Userspace.malloc target sbrk depth (some before.heap) requestedSize = (alloc, some heap))
    (succeeded : alloc.succeeded = true) :
    Tracks target (before.received target sbrk requestedSize alloc heap) := by
  rcases tracks.reached with ⟨calls, reached⟩
  rcases malloc_succeeded result succeeded with ⟨after, answered, rfl⟩
  have words : SizeWords target after.1 := by
    have kept := @sizeWords_allocate target sbrk before.heap requestedSize tracks.words
    rwa [answered] at kept
  rcases received_cases tracks.words owned answered succeeded with
    ⟨same, step⟩ | ⟨called, stats, middle, added, step⟩
  · have stats : after.2.stats = { before.memstats with heapSize := before.use.bytesAdded } := by
      rw [same, ← tracks.size]
      rfl
    have uncalled : (after.countMalloc target alloc).2.calls = before.extender.calls := by
      change after.2.calls = _
      rw [same]
    unfold received
    rw [if_pos uncalled]
    exact tracks.count (.tail reached step) words rfl owned.2 stats
  · have extended : Reaches (FreeListUse.Step target) .empty _ _ := .tail (.tail reached added) step
    have bounds := (live_le_added extended).2
    have total : (before.granted target sbrk requestedSize :: before.use.added).map Allocation.size =
        (before.granted target sbrk requestedSize).size :: before.use.added.map Allocation.size :=
      List.map_cons
    unfold FreeListUse.bytesAdded at bounds
    dsimp only at bounds
    rw [total, List.sum_cons] at bounds
    have recalled : (after.countMalloc target alloc).2.calls ≠ before.extender.calls := by
      change after.2.calls ≠ _
      omega
    unfold received
    rw [if_neg recalled]
    refine tracks.count extended words rfl owned.2 (stats.trans ?_)
    unfold FreeListUse.bytesAdded
    dsimp only
    rw [total, List.sum_cons, tracks.size, FreeListUse.bytesAdded, Nat.add_comm,
      Nat.mod_eq_of_lt bounds]

/-- A block is taken off with the size that its header has, which is the size it has. -/
theorem Tracks.free (tracks : Tracks target before) (member : alloc ∈ before.use.live) :
    Tracks target (before.returned target alloc) := by
  rcases tracks.reached with ⟨calls, reached⟩
  have sound : FreeListUse.Sound target before.use := .of_reaches reached
  have bounds := live_le_added reached
  have freed : (before.use.list.free target alloc).1 = alloc.size := by
    rcases sound.honest alloc member with ⟨node, rfl⟩
    change before.use.list.sizeAt (IntrusiveFreeList.toNodePtr target (node + headerNodeSize target)) = _
    rw [FreeListUse.toNodePtr_add]
  have rest : (before.use.live.map Allocation.size).sum =
      alloc.size + ((before.use.live.erase alloc).map Allocation.size).sum := by
    rw [((List.perm_cons_erase member).map Allocation.size).sum_nat, List.map_cons, List.sum_cons]
  have one : before.use.live.length = (before.use.live.erase alloc).length + 1 := by
    rw [(List.perm_cons_erase member).length_eq, List.length_cons]
  have few := tracks.few
  refine
    { reached := ⟨_, .tail reached (.free before.use alloc member)⟩
      words := tracks.words.free
      used := ?_
      size := tracks.size
      few := ?_
      frees := Nat.mod_lt _ (Nat.two_pow_pos _)
      counted := ?_ }
  · change wordSub target before.memstats.usedSize (before.use.list.free target alloc).1 =
      ((before.use.live.erase alloc).map Allocation.size).sum
    have ordered : alloc.size ≤ before.memstats.usedSize := by
      rw [tracks.used, rest]
      exact Nat.le_add_right _ _
    rw [freed, wordSub_eq ordered (by rw [tracks.used]; omega), tracks.used, rest,
      Nat.add_sub_cancel_left]
  · change (before.use.live.erase alloc).length < _
    omega
  · change before.memstats.numMallocs =
      ((before.use.live.erase alloc).length + (before.memstats.numFrees + 1) % 2 ^ 32) % unsignedLimit
    rw [tracks.counted, one, unsignedLimit, Nat.add_mod_mod]
    congr 1
    omega

theorem Tracks.step {call : HeapCall} (tracks : Tracks target before)
    (owned : Owned target sbrk before call) (step : Step target sbrk before call after) :
    Tracks target after := by
  cases step with
  | malloc requestedSize depth alloc heap result succeeded => exact tracks.malloc owned result succeeded
  | free alloc member => exact tracks.free member
  | write use sizeAt words stored =>
      rcases tracks.reached with ⟨calls, reached⟩
      have same := stored
      cases same with
      | write _ owns =>
          exact
            { reached := ⟨_, .tail reached stored⟩
              words := words
              used := tracks.used
              size := tracks.size
              few := tracks.few
              frees := tracks.frees
              counted := tracks.counted }

/-- In every run, the statistics are truthful as long as `sbrk` returns memory that the task
does not have yet and no more blocks are live than can be counted. -/
theorem memstats_truthful {calls : List HeapCall} {final : HeapUse}
    (reached : Reaches (guarded (Step target sbrk) (Owned target sbrk)) start calls final) :
    Truthful final := by
  have tracks : Tracks target final :=
    reached.guarded_invariant (Tracks target) (tracks_start target)
      fun before call after tracks owned step => tracks.step owned step
  exact tracks.truthful

/-- After a `malloc` that the allocator serves. -/
def served (target : Target) (sbrk : Sbrk) (before : HeapUse) (requestedSize : Nat) : HeapUse :=
  let answer := before.heap.allocate target sbrk requestedSize
  before.received target sbrk requestedSize answer.1 (answer.2.countMalloc target answer.1)

theorem step_served
    (succeeded : (before.heap.allocate target sbrk requestedSize).1.succeeded = true) :
    Step target sbrk before (.malloc requestedSize) (served target sbrk before requestedSize) := by
  refine .malloc before requestedSize 1 _ _ ?_ succeeded
  rw [malloc]
  dsimp only
  rw [if_pos succeeded]

/-- Blocks of 16 and of 32 bytes are taken from one page, and the first is given back. -/
theorem memstats_truthful_page : Exists fun final =>
    Reaches (Step .aarch64 singlePage) start [.free ⟨67108896, 16⟩, .malloc 32, .malloc 16] final ∧
      final.use.live.map Allocation.size = [32] ∧ Truthful final := by
  have addable : Addable .aarch64 [] ⟨67108864, 4096⟩ :=
    ⟨by decide, by simp, by decide, by decide, by decide, by decide⟩
  have owned : Owned .aarch64 singlePage start (.malloc 16) :=
    ⟨fun _ _ => addable, by decide⟩
  have first : Step .aarch64 singlePage start (.malloc 16) (served .aarch64 singlePage start 16) :=
    step_served rfl
  have second : Step .aarch64 singlePage (served .aarch64 singlePage start 16) (.malloc 32)
      (served .aarch64 singlePage (served .aarch64 singlePage start 16) 32) :=
    step_served rfl
  have listed : Owned .aarch64 singlePage (served .aarch64 singlePage start 16) (.malloc 32) :=
    ⟨fun _ granted => absurd rfl granted, by decide⟩
  have released : Step .aarch64 singlePage
      (served .aarch64 singlePage (served .aarch64 singlePage start 16) 32)
      (.free ⟨67108896, 16⟩) _ :=
    .free _ ⟨67108896, 16⟩ (List.mem_cons_of_mem _ List.mem_cons_self)
  have free : Owned .aarch64 singlePage
      (served .aarch64 singlePage (served .aarch64 singlePage start 16) 32)
      (.free ⟨67108896, 16⟩) := trivial
  exact ⟨_, .tail (.tail (.tail .refl first) second) released, rfl,
    memstats_truthful (.tail (.tail (.tail .refl ⟨owned, first⟩) ⟨listed, second⟩)
      ⟨free, released⟩)⟩

/-- What the heap of a task at 64 MiB returns to the two calls below. -/
def wrappingSbrk : Sbrk :=
  fun calls _ => if calls = 0 then 67108864 else 67112960

/-- The kernel grants all but a page of a word behind the first page, because the end of it is
the start of the heap again.  No `malloc` fails, and the size of the heap comes to zero. -/
theorem memstats_beyond_heap :
    (Exists fun first => Exists fun second =>
      (HeapRun.start HeapRun.exampleRegion).heap.allocate .aarch64 4096 =
        some (⟨wrappingSbrk 0 4096, 4096⟩, first) ∧
      FixedHeapAllocator.allocate .aarch64 first (2 ^ 64 - 4096) =
        some (⟨wrappingSbrk 1 (2 ^ 64 - 4096), 2 ^ 64 - 4096⟩, second)) ∧
    Exists fun final =>
      Reaches (Step .aarch64 wrappingSbrk) start [.malloc (2 ^ 64 - 4128), .malloc 16] final ∧
        final.memstats = ⟨0, 2 ^ 64 - 4112, 2, 0⟩ ∧ ¬ Truthful final := by
  refine ⟨⟨_, _, rfl, rfl⟩, ?_⟩
  have first : Step .aarch64 wrappingSbrk start (.malloc 16) (served .aarch64 wrappingSbrk start 16) :=
    step_served rfl
  have second : Step .aarch64 wrappingSbrk (served .aarch64 wrappingSbrk start 16)
      (.malloc (2 ^ 64 - 4128))
      (served .aarch64 wrappingSbrk (served .aarch64 wrappingSbrk start 16) (2 ^ 64 - 4128)) :=
    step_served rfl
  have stats : (served .aarch64 wrappingSbrk (served .aarch64 wrappingSbrk start 16)
      (2 ^ 64 - 4128)).memstats = ⟨0, 2 ^ 64 - 4112, 2, 0⟩ := rfl
  refine ⟨_, .tail (.tail .refl first) second, stats, fun truthful => ?_⟩
  have bounded := truthful.bounded
  rw [stats] at bounded
  exact absurd bounded (by decide)

end HeapUse

end Userspace
end Pinyon
