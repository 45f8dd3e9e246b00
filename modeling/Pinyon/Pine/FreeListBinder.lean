import Pinyon.Pine.FixedHeap
import Pinyon.Pine.FreeListSafety

namespace Pinyon
namespace Pine

open Library

/-!
# A free list with an allocator behind it

`FallbackAllocatorBinder` asks its fallback for `preferred_size` bytes when the free
list cannot serve a request, and looks through the list once more.  The preferred size
is enough for that second search, so the binder fails only if both have nothing.
-/

variable {Fallback : Type} {target : Target}

/-- `FallbackAllocatorBinder` with `IntrusiveFreeList`, and any allocator behind it. -/
def freeListBinder (target : Target)
    (fallbackAllocate : Nat -> Fallback -> Allocation × Fallback) :
    BinderParts (IntrusiveFreeList × Fallback) where
  preferredSize := IntrusiveFreeList.preferredSize target
  allocate := fun requestedSize state =>
    let served := state.1.allocate target requestedSize
    some (served.1, (served.2, state.2))
  add := fun ptr size state => some (state.1.add target ptr size, state.2)
  fallbackAllocate := fun preferredSize state =>
    let granted := fallbackAllocate preferredSize state.2
    some (granted.1, (state.1, granted.2))

/-- What an allocator answers to a request: nothing, or an aligned block that is as long
as asked for.  Its blocks should also be apart from those of the list, which the results
below do not need. -/
def Grants (target : Target) (requestedSize : Nat) (granted : Allocation) : Prop :=
  granted.ptr = 0 ∨
    target.alignment ∣ granted.ptr ∧ requestedSize ≤ granted.size ∧
      granted.size < target.wordLimit

/-- None of the sums in `preferred_size` wraps. -/
structure Unwrapped (target : Target) (requestedSize : Nat) : Prop where
  aligned : requestedSize + (target.alignment - 1) < target.wordLimit
  withHeader : alignUpTwo target.wordWidth requestedSize target.alignment + headerNodeSize target <
    target.wordLimit
  paged : IntrusiveFreeList.minAllocationSize target requestedSize + (pageSize - 1) < target.wordLimit

/-- No free block is as long as the request. -/
def CannotServe (list : IntrusiveFreeList) (requestedSize : Nat) : Prop :=
  forall node, node ∈ list.freeList -> list.sizeAt node < requestedSize

/-! ## The preferred size -/

theorem le_alignUpTwo {width bits value : Nat} (fits : bits ≤ width)
    (small : value + (2 ^ bits - 1) < 2 ^ width) : value ≤ alignUpTwo width value (2 ^ bits) := by
  by_cases zero : value = 0
  · rw [zero]
    exact Nat.zero_le _
  · have positive := Nat.two_pow_pos bits
    have below := Nat.lt_div_mul_add (a := value + (2 ^ bits - 1)) positive
    rw [alignUpTwo_eq fits zero small]
    omega

/-- There is room for the request and for a header. -/
theorem le_preferredSize {requestedSize : Nat} (unwrapped : Unwrapped target requestedSize) :
    requestedSize + headerNodeSize target ≤ IntrusiveFreeList.preferredSize target requestedSize := by
  have paged : 12 ≤ target.wordWidth := by
    cases target <;> decide
  have aligned := le_alignUpTwo target.alignmentBits_le unwrapped.aligned
  have least : IntrusiveFreeList.minAllocationSize target requestedSize =
      alignUpTwo target.wordWidth requestedSize target.alignment + headerNodeSize target :=
    Nat.mod_eq_of_lt unwrapped.withHeader
  calc
    requestedSize + headerNodeSize target ≤
        alignUpTwo target.wordWidth requestedSize target.alignment + headerNodeSize target :=
      Nat.add_le_add_right aligned _
    _ = IntrusiveFreeList.minAllocationSize target requestedSize := least.symm
    _ ≤ IntrusiveFreeList.preferredSize target requestedSize :=
      @le_alignUpTwo target.wordWidth 12 _ paged unwrapped.paged

/-! ## The two searches -/

section Searches

variable {list : IntrusiveFreeList} {requestedSize ptr size : Nat}

/-- The size words are words. -/
def SizeWords (target : Target) (list : IntrusiveFreeList) : Prop :=
  forall node, list.sizeAt node < target.wordLimit

theorem SizeWords.add (words : SizeWords target list) : SizeWords target (list.add target ptr size) := by
  intro node
  rw [IntrusiveFreeList.add, IntrusiveFreeList.constructNode]
  by_cases same : node = ptr
  · rw [same]
    simp only [Function.update_self]
    exact Nat.mod_lt _ (Nat.two_pow_pos _)
  · simp only [Function.update_of_ne same]
    exact words node

/-- What a search of the list comes to. -/
theorem SizeWords.allocate_case (words : SizeWords target list) (requestedSize : Nat) :
    IntrusiveFreeList.AllocateCase target list requestedSize (list.allocate target requestedSize) :=
  IntrusiveFreeList.allocate_cases fun node _ => words node

/-- The sizes of the two parts of a block are less than its size. -/
theorem SizeWords.allocate (words : SizeWords target list) :
    SizeWords target (list.allocate target requestedSize).2 := by
  have outcome := words.allocate_case requestedSize
  generalize list.allocate target requestedSize = result at outcome ⊢
  cases outcome with
  | full _ => exact words
  | whole node member fits => exact words
  | cut node kept rest member fits whole alignedRest =>
      have word := words node
      intro other
      simp only [IntrusiveFreeList.splitAt, cut, Function.update_apply]
      split
      · omega
      · split
        · omega
        · exact words other

theorem SizeWords.adopt {left right : Nat} (words : SizeWords target list) :
    SizeWords target (list.adoptRightNodeSize target left right) := by
  intro node
  simp only [IntrusiveFreeList.adoptRightNodeSize, Function.update_apply]
  split
  · exact Nat.mod_lt _ (Nat.two_pow_pos _)
  · exact words node

theorem SizeWords.free {alloc : Allocation} (words : SizeWords target list) :
    SizeWords target (list.free target alloc).2 := by
  have leftMerged (left node : Nat) : SizeWords target (list.mergeLeft target left node) := by
    unfold IntrusiveFreeList.mergeLeft
    split
    · exact words.adopt
    · exact words
  have merged (left node other right : Nat) :
      SizeWords target ((list.mergeLeft target left node).mergeRight target other right) := by
    unfold IntrusiveFreeList.mergeRight
    split
    · exact (leftMerged left node).adopt
    · exact leftMerged left node
  unfold IntrusiveFreeList.free
  dsimp only
  split <;> exact merged _ _ _ _

/-- The first search fails just when no block is long enough. -/
theorem allocate_null_iff (words : SizeWords target list) :
    (list.allocate target requestedSize).1.ptr = 0 <-> CannotServe list requestedSize := by
  have header := headerNodeSize_pos target
  have outcome := words.allocate_case requestedSize
  generalize list.allocate target requestedSize = result at outcome
  cases outcome with
  | full tooSmall => exact iff_of_true rfl tooSmall
  | whole node member fits =>
      exact iff_of_false (Nat.ne_of_gt (Nat.add_pos_right _ header))
        fun tooSmall => Nat.not_lt.mpr fits (tooSmall node member)
  | cut node kept rest member fits whole alignedRest =>
      refine iff_of_false (Nat.ne_of_gt (Nat.add_pos_right _ header)) fun tooSmall => ?_
      have less := tooSmall node member
      omega

/-- A search that fails changes nothing. -/
theorem allocate_of_cannotServe (words : SizeWords target list)
    (tooSmall : CannotServe list requestedSize) :
    list.allocate target requestedSize = ({}, list) := by
  have outcome := words.allocate_case requestedSize
  generalize list.allocate target requestedSize = result at outcome ⊢
  cases outcome with
  | full _ => rfl
  | whole node member fits => exact absurd (tooSmall node member) (Nat.not_lt.mpr fits)
  | cut node kept rest member fits whole alignedRest =>
      have less := tooSmall node member
      omega

/-- What is handed out is as long as asked for. -/
theorem allocate_size (words : SizeWords target list)
    (served : (list.allocate target requestedSize).1.ptr ≠ 0) :
    requestedSize ≤ (list.allocate target requestedSize).1.size := by
  have outcome := words.allocate_case requestedSize
  generalize list.allocate target requestedSize = result at outcome served
  cases outcome with
  | full tooSmall => exact absurd rfl served
  | whole node member fits => exact fits
  | cut node kept rest member fits whole alignedRest => exact fits

/-- The free blocks of a list, headers included. -/
def freeBytes (target : Target) (list : IntrusiveFreeList) : Set Nat :=
  cover (list.freeList.map (block target list.sizeAt))

/-- The second search takes the block that was added, and what it does not hand out is in
a free block. -/
theorem allocate_added (words : SizeWords target list) (tooSmall : CannotServe list requestedSize)
    (room : requestedSize + headerNodeSize target ≤ size) (word : size < target.wordLimit) :
    ((list.add target ptr size).allocate target requestedSize).1.ptr ≠ 0 ∧
      span ptr size ⊆
        ((list.add target ptr size).allocate target requestedSize).1.withHeader target ∪
          freeBytes target ((list.add target ptr size).allocate target requestedSize).2 := by
  have header := headerNodeSize_pos target
  have later : SizeWords target (list.add target ptr size) := words.add
  have outcome := later.allocate_case requestedSize
  have atPtr : (list.add target ptr size).sizeAt ptr = size - headerNodeSize target := by
    rw [IntrusiveFreeList.add, IntrusiveFreeList.constructNode]
    simp only [Function.update_self]
    exact wordSub_eq (by omega) word
  -- every other block was too short before, and has not changed
  have onlyPtr : forall node, node ∈ (list.add target ptr size).freeList ->
      requestedSize ≤ (list.add target ptr size).sizeAt node -> node = ptr := by
    intro node member fits
    by_contra different
    have old : node ∈ list.freeList := by
      rcases List.mem_append.mp member with old | new
      · exact old
      · exact absurd (List.mem_singleton.mp new) different
    have same : (list.add target ptr size).sizeAt node = list.sizeAt node :=
      Function.update_of_ne different _ _
    exact Nat.not_lt.mpr fits (same ▸ tooSmall node old)
  have listed : ptr ∈ (list.add target ptr size).freeList :=
    List.mem_append_right _ (List.mem_singleton.mpr rfl)
  have enough : requestedSize ≤ (list.add target ptr size).sizeAt ptr := by
    rw [atPtr]
    omega
  have given : span ptr size = block target (list.add target ptr size).sizeAt ptr := by
    rw [block, atPtr, Nat.add_sub_cancel' (by omega)]
  have handedOut : forall node length : Nat,
      Allocation.withHeader target ⟨node + headerNodeSize target, length⟩ =
        span node (headerNodeSize target + length) := fun node length => by
    rw [Allocation.withHeader, Nat.add_sub_cancel]
  rw [given]
  generalize list.add target ptr size = added at outcome onlyPtr listed enough
  generalize added.allocate target requestedSize = result at outcome
  cases outcome with
  | full tooSmall => exact absurd (tooSmall ptr listed) (Nat.not_lt.mpr enough)
  | whole node member fits =>
      cases onlyPtr node member fits
      refine ⟨Nat.ne_of_gt (Nat.add_pos_right _ header), ?_⟩
      rw [handedOut]
      exact Set.subset_union_left
  | cut node kept rest member fits whole alignedRest =>
      cases onlyPtr node member (by omega)
      refine ⟨Nat.ne_of_gt (Nat.add_pos_right _ header), ?_⟩
      have behind : ptr + (headerNodeSize target + kept) ∈
          (IntrusiveFreeList.splitAt target added ptr kept rest).freeList := by
        refine (List.mem_erase_of_ne (by omega)).mpr ?_
        exact List.mem_append_right _ (List.mem_singleton.mpr rfl)
      have front : Allocation.withHeader target ⟨ptr + headerNodeSize target, kept⟩ =
          block target (cut target added.sizeAt ptr kept rest) ptr := by
        rw [handedOut, block, cut_front]
      rw [block_cut whole, front]
      exact Set.union_subset_union_right _ (block_subset_cover behind)

end Searches

/-! ## The binder -/

section Bind

variable {fallbackAllocate : Nat -> Fallback -> Allocation × Fallback} {list : IntrusiveFreeList}
variable {fallback : Fallback} {requestedSize : Nat}

/-- The fallback is not asked when the list can serve the request. -/
theorem bind_served (served : (list.allocate target requestedSize).1.ptr ≠ 0) :
    (freeListBinder target fallbackAllocate).bind requestedSize (list, fallback) =
      some ((list.allocate target requestedSize).1,
        ((list.allocate target requestedSize).2, fallback)) := by
  simp only [BinderParts.bind, freeListBinder, Option.bind_eq_bind, Option.bind_some, if_neg served]
  rfl

/-- Neither the list nor the fallback has anything. -/
theorem bind_null (words : SizeWords target list) (tooSmall : CannotServe list requestedSize)
    {granted : Allocation} {later : Fallback} (answer : fallbackAllocate
      (IntrusiveFreeList.preferredSize target requestedSize) fallback = (granted, later))
    (refused : granted.ptr = 0) :
    (freeListBinder target fallbackAllocate).bind requestedSize (list, fallback) =
      some ({}, (list, later)) := by
  have failed := allocate_of_cannotServe words tooSmall
  simp only [BinderParts.bind, freeListBinder, Option.bind_eq_bind, Option.bind_some, failed,
    if_true, answer, if_pos refused]
  rfl

/-- With nothing to serve, the list is left as it was and gets what the fallback grants. -/
theorem bind_granted (words : SizeWords target list) (tooSmall : CannotServe list requestedSize)
    {granted : Allocation} {later : Fallback} (answer : fallbackAllocate
      (IntrusiveFreeList.preferredSize target requestedSize) fallback = (granted, later))
    (some_ : granted.ptr ≠ 0) :
    (freeListBinder target fallbackAllocate).bind requestedSize (list, fallback) =
      some (((list.add target granted.ptr granted.size).allocate target requestedSize).1,
        (((list.add target granted.ptr granted.size).allocate target requestedSize).2, later)) := by
  have failed := allocate_of_cannotServe words tooSmall
  simp only [BinderParts.bind, freeListBinder, Option.bind_eq_bind, Option.bind_some, failed,
    if_true, answer, if_neg some_]

end Bind

/-- The binder fails just when neither the list nor the fallback can serve the request.
Otherwise the block is long enough, and what the fallback gave is in the block or in the
list.  The fallback is asked once, and only if the list cannot serve the request. -/
def FailsOnlyWhenItMust (target : Target)
    (fallbackAllocate : Nat -> Fallback -> Allocation × Fallback) (list : IntrusiveFreeList)
    (fallback : Fallback) (requestedSize : Nat) : Prop :=
  let answer := fallbackAllocate (IntrusiveFreeList.preferredSize target requestedSize) fallback
  Exists fun allocation => Exists fun after => Exists fun later =>
    (freeListBinder target fallbackAllocate).bind requestedSize (list, fallback) =
      some (allocation, (after, later)) ∧
    (allocation.ptr = 0 <-> CannotServe list requestedSize ∧ answer.1.ptr = 0) ∧
    (allocation.ptr ≠ 0 -> requestedSize ≤ allocation.size) ∧
    (CannotServe list requestedSize -> later = answer.2 ∧ (allocation.ptr ≠ 0 ->
      answer.1.bytes ⊆ allocation.withHeader target ∪ freeBytes target after)) ∧
    (¬ CannotServe list requestedSize -> later = fallback)

theorem fails_only_when_it_must (target : Target)
    (fallbackAllocate : Nat -> Fallback -> Allocation × Fallback) (list : IntrusiveFreeList)
    (fallback : Fallback) (requestedSize : Nat) (words : SizeWords target list)
    (unwrapped : Unwrapped target requestedSize)
    (grants : forall size state, Grants target size (fallbackAllocate size state).1) :
    FailsOnlyWhenItMust target fallbackAllocate list fallback requestedSize := by
  unfold FailsOnlyWhenItMust
  by_cases tooSmall : CannotServe list requestedSize
  · have promise := grants (IntrusiveFreeList.preferredSize target requestedSize) fallback
    cases answer : fallbackAllocate (IntrusiveFreeList.preferredSize target requestedSize) fallback with
    | mk granted later =>
        rw [answer] at promise
        by_cases refused : granted.ptr = 0
        · exact ⟨{}, list, later, bind_null words tooSmall answer refused,
            iff_of_true rfl ⟨tooSmall, refused⟩, fun some_ => absurd rfl some_,
            fun _ => ⟨rfl, fun some_ => absurd rfl some_⟩, fun serves => absurd tooSmall serves⟩
        · rcases promise.resolve_left refused with ⟨_, enough, word⟩
          rcases allocate_added words tooSmall ((le_preferredSize unwrapped).trans enough) word with
            ⟨some_, bytes⟩
          have size := allocate_size (words.add : SizeWords target
            (list.add target granted.ptr granted.size)) some_
          exact ⟨_, _, later, bind_granted words tooSmall answer refused,
            iff_of_false some_ fun both => refused both.2, fun _ => size,
            fun _ => ⟨rfl, fun _ => bytes⟩, fun serves => absurd tooSmall serves⟩
  · have some_ := mt (@allocate_null_iff target list requestedSize words).mp tooSmall
    exact ⟨_, _, fallback, bind_served some_, iff_of_false some_ fun both => tooSmall both.1,
      fun _ => allocate_size words some_, fun impossible => absurd impossible tooSmall, fun _ => rfl⟩

/-- A fallback that has one page and then nothing. -/
def onePage (size : Nat) (given : Bool) : Allocation × Bool :=
  if given = false ∧ size ≤ pageSize then (⟨4096, pageSize⟩, true) else ({}, given)

theorem onePage_grants (size : Nat) (given : Bool) :
    Grants .aarch64 size (onePage size given).1 := by
  rw [onePage]
  split
  · next some_ => exact .inr ⟨by decide, some_.2, by decide⟩
  · exact .inl rfl

theorem fails_only_when_it_must_page :
    FailsOnlyWhenItMust .aarch64 onePage .empty false 100 :=
  fails_only_when_it_must .aarch64 onePage .empty false 100 (fun _ => Nat.two_pow_pos _)
    ⟨by decide, by decide, by decide⟩ onePage_grants

end Pine
end Pinyon
