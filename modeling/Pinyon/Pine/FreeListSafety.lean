import Pinyon.Library.History
import Pinyon.Pine.FreeListSteps

namespace Pinyon
namespace Pine

open Library

/-!
# The free list is a safe allocator

The list is used by callers that add memory, allocate, free what they were
given, and write into the payloads they own.  Such a write may put anything into
any word that overlaps a live payload, so the size words behind which the list
keeps its state are only protected by the disjointness proved here.
-/

/-- The free list together with what its callers know: the live allocations and
the memory that was added. -/
structure FreeListUse where
  list : IntrusiveFreeList
  live : List Allocation
  added : List Allocation

inductive FreeListCall where
  | add (region : Allocation)
  | allocate (requestedSize : Nat)
  | free (alloc : Allocation)
  | write (sizeAt : Nat -> Nat)

/-- The bytes of a live block: its payload and the header in front of it. -/
def Allocation.withHeader (target : Target) (alloc : Allocation) : Set Nat :=
  span (alloc.ptr - headerNodeSize target) (headerNodeSize target + alloc.size)

/-- What `add` asks of its caller: memory that nobody else uses, aligned, and
large enough for one header.  Memory never starts at the null pointer. -/
structure Addable (target : Target) (added : List Allocation) (region : Allocation) : Prop where
  nonnull : region.ptr ≠ 0
  apart : Disjoint region.bytes (cover (added.map Allocation.bytes))
  alignedPtr : target.alignment ∣ region.ptr
  alignedSize : target.alignment ∣ region.size
  holdsHeader : headerNodeSize target ≤ region.size
  bounded : region.ptr + region.size < target.wordLimit

namespace FreeListUse

def empty : FreeListUse where
  list := IntrusiveFreeList.empty
  live := []
  added := []

/-- One call.  A failed allocation, a null pointer, leaves nothing to free. -/
inductive Step (target : Target) : FreeListUse -> FreeListCall -> FreeListUse -> Prop
  | add (before : FreeListUse) (region : Allocation)
      (addable : Addable target before.added region) :
      Step target before (.add region)
        { before with
          list := before.list.add target region.ptr region.size
          added := region :: before.added }
  | allocate (before : FreeListUse) (requestedSize : Nat) :
      Step target before (.allocate requestedSize)
        { before with
          list := (before.list.allocate target requestedSize).2
          live :=
            if (before.list.allocate target requestedSize).1.ptr = 0 then before.live
            else (before.list.allocate target requestedSize).1 :: before.live }
  | free (before : FreeListUse) (alloc : Allocation) (member : alloc ∈ before.live) :
      Step target before (.free alloc)
        { before with
          list := (before.list.free target alloc).2
          live := before.live.erase alloc }
  | write (before : FreeListUse) (sizeAt : Nat -> Nat)
      (owned : forall node,
        (forall alloc, alloc ∈ before.live ->
          Disjoint (span node (headerNodeSize target)) alloc.bytes) ->
        sizeAt node = before.list.sizeAt node) :
      Step target before (.write sizeAt)
        { before with list := { before.list with sizeAt := sizeAt } }

/-- The headers of all blocks, free or live. -/
def nodes (target : Target) (use : FreeListUse) : List Nat :=
  use.list.freeList ++ use.live.map (fun alloc => IntrusiveFreeList.toNodePtr target alloc.ptr)

/-- The caller of `alloc` knows of its block what the header says. -/
def Honest (target : Target) (sizeAt : Nat -> Nat) (alloc : Allocation) : Prop :=
  Exists fun node => alloc = ⟨node + headerNodeSize target, sizeAt node⟩

/-- The invariant: the blocks are laid out in the added memory, and a caller
knows of its block what the header says. -/
structure Sound (target : Target) (use : FreeListUse) : Prop where
  memory : Memory target use.added
  laid : Laid target use.list.sizeAt (use.nodes target) use.added
  honest : forall alloc, alloc ∈ use.live -> Honest target use.list.sizeAt alloc

variable {target : Target} {before after use : FreeListUse} {call : FreeListCall}

theorem sound_empty (target : Target) : Sound target empty where
  memory := ⟨by simp [empty], by simp [empty], by simp [empty]⟩
  laid := ⟨by simp [nodes, empty, IntrusiveFreeList.empty],
    by simp [nodes, empty, IntrusiveFreeList.empty],
    by simp [nodes, empty, IntrusiveFreeList.empty]⟩
  honest := by simp [empty]

@[simp] theorem toNodePtr_add (target : Target) (node : Nat) :
    IntrusiveFreeList.toNodePtr target (node + headerNodeSize target) = node :=
  Nat.add_sub_cancel ..

/-- What a caller knows survives as long as the size word of its block does. -/
theorem Honest.congr {sizeAt sizeAt' : Nat -> Nat} {alloc : Allocation}
    (known : Honest target sizeAt alloc)
    (agree : sizeAt' (IntrusiveFreeList.toNodePtr target alloc.ptr) =
      sizeAt (IntrusiveFreeList.toNodePtr target alloc.ptr)) : Honest target sizeAt' alloc := by
  rcases known with ⟨node, rfl⟩
  rw [toNodePtr_add] at agree
  exact ⟨node, by rw [agree]⟩

namespace Sound

theorem mem_free {node : Nat} (member : node ∈ use.list.freeList) : node ∈ use.nodes target :=
  List.mem_append_left _ member

theorem mem_live {alloc : Allocation} (member : alloc ∈ use.live) :
    IntrusiveFreeList.toNodePtr target alloc.ptr ∈ use.nodes target :=
  List.mem_append_right _ (List.mem_map_of_mem member)

/-- A live block is the block at its header. -/
theorem withHeader_eq (sound : Sound target use) {alloc : Allocation} (member : alloc ∈ use.live) :
    alloc.withHeader target =
      block target use.list.sizeAt (IntrusiveFreeList.toNodePtr target alloc.ptr) := by
  rcases sound.honest alloc member with ⟨node, rfl⟩
  rw [toNodePtr_add, Allocation.withHeader, block, Nat.add_sub_cancel]

/-! ## Where the blocks of a merge stand

The headers are listed free ones first.  To merge, the header that grows is
brought to the front, followed by the headers that disappear. -/

section Order

variable {left right node : Nat} {freeList rest : List Nat}

theorem order_left (member : left ∈ freeList) : (node :: (freeList ++ rest)).Perm
    (left :: ([node] ++ (freeList.erase left ++ rest))) :=
  (((List.perm_cons_erase member).append_right rest).cons node).trans (List.Perm.swap left node _)

theorem order_right (member : right ∈ freeList) : (node :: (freeList ++ rest)).Perm
    (node :: ([right] ++ (freeList.erase right ++ rest))) :=
  ((List.perm_cons_erase member).append_right rest).cons node

theorem order_both (leftMember : left ∈ freeList.erase right) (rightMember : right ∈ freeList) :
    (node :: (freeList ++ rest)).Perm
      (left :: ([node, right] ++ ((freeList.erase right).erase left ++ rest))) := by
  refine List.Perm.trans (List.Perm.cons node ?_) (List.Perm.swap left node _)
  refine ((List.perm_cons_erase rightMember).append_right rest).trans ?_
  refine List.Perm.trans (List.Perm.cons right ?_) (List.Perm.swap left right _)
  exact (List.perm_cons_erase leftMember).append_right rest

end Order

/-- The headers other than that of one live block. -/
def others (target : Target) (use : FreeListUse) (alloc : Allocation) : List Nat :=
  (use.live.erase alloc).map (fun alloc => IntrusiveFreeList.toNodePtr target alloc.ptr)

theorem nodes_perm {alloc : Allocation} (member : alloc ∈ use.live) :
    (use.nodes target).Perm (IntrusiveFreeList.toNodePtr target alloc.ptr ::
      (use.list.freeList ++ others target use alloc)) :=
  (((List.perm_cons_erase member).map _).append_left _).trans List.perm_middle

theorem take_perm {node : Nat} (member : node ∈ use.list.freeList) :
    (use.nodes target).Perm (node :: (use.list.freeList.erase node ++
      use.live.map (fun alloc => IntrusiveFreeList.toNodePtr target alloc.ptr))) :=
  (List.perm_cons_erase member).append_right _

theorem cut_perm (target : Target) {node : Nat} (kept rest : Nat) (member : node ∈ use.list.freeList) :
    ((IntrusiveFreeList.splitAt target use.list node kept rest).freeList ++
      node :: use.live.map (fun alloc => IntrusiveFreeList.toNodePtr target alloc.ptr)).Perm
    ((node + (headerNodeSize target + kept)) :: node :: (use.list.freeList.erase node ++
      use.live.map (fun alloc => IntrusiveFreeList.toNodePtr target alloc.ptr))) := by
  rw [IntrusiveFreeList.splitAt, List.erase_append_left _ member, List.append_assoc,
    List.singleton_append]
  exact List.perm_middle.trans (List.Perm.cons _ List.perm_middle)

theorem free_outcome (sound : Sound target use) {alloc : Allocation} (member : alloc ∈ use.live) :
    IntrusiveFreeList.FreeCase target use.list (IntrusiveFreeList.toNodePtr target alloc.ptr)
      (use.list.free target alloc).2 :=
  IntrusiveFreeList.free_cases (sound.laid.end_lt sound.memory (mem_live member))
    (fun _ listed => sound.laid.end_lt sound.memory (mem_free listed)) rfl

theorem allocate_outcome (sound : Sound target use) (requestedSize : Nat) :
    IntrusiveFreeList.AllocateCase target use.list requestedSize
      (use.list.allocate target requestedSize) :=
  IntrusiveFreeList.allocate_cases
    fun _ member => sound.laid.size_lt sound.memory (mem_free member)

/-! ## Each call preserves the invariant -/

/-- The header of a new region is in front of everything else in it. -/
theorem add_size {region : Allocation} (addable : Addable target before.added region) :
    (before.list.add target region.ptr region.size).sizeAt region.ptr =
      region.size - headerNodeSize target := by
  have word : region.size < target.wordLimit :=
    Nat.lt_of_le_of_lt (Nat.le_add_left _ _) addable.bounded
  simp only [IntrusiveFreeList.add, IntrusiveFreeList.constructNode, Function.update_self,
    wordSub_eq addable.holdsHeader word]

theorem add_agrees (sound : Sound target before) {region : Allocation}
    (addable : Addable target before.added region) :
    forall node, node ∈ before.nodes target ->
      (before.list.add target region.ptr region.size).sizeAt node = before.list.sizeAt node := by
  have holds := addable.holdsHeader
  have positive := headerNodeSize_pos target
  refine update_agrees fun member => ?_
  have inside : region.ptr ∈ region.bytes := by
    rw [Allocation.bytes, mem_span]
    omega
  exact Set.disjoint_left.mp addable.apart inside
    (sound.laid.inside _ member (head_mem_block ..))

theorem add_nodes_perm (region : Allocation) :
    (nodes target { before with
      list := before.list.add target region.ptr region.size
      added := region :: before.added }).Perm (region.ptr :: before.nodes target) := by
  simp only [nodes, IntrusiveFreeList.add, List.append_assoc, List.singleton_append]
  exact List.perm_middle

theorem add (sound : Sound target before) {region : Allocation}
    (addable : Addable target before.added region) :
    Sound target { before with
      list := before.list.add target region.ptr region.size
      added := region :: before.added } := by
  have holds := addable.holdsHeader
  have agree := sound.add_agrees addable
  constructor
  · refine ⟨?_, sound.memory.apart.insert addable.apart, ?_⟩
    · exact List.forall_mem_cons.mpr ⟨addable.nonnull, sound.memory.nonnull⟩
    · exact List.forall_mem_cons.mpr ⟨addable.bounded, sound.memory.bounded⟩
  · have laid := sound.laid.extend addable.apart
      (by rw [add_size addable]; omega) addable.alignedPtr addable.alignedSize agree
    exact laid.perm (add_nodes_perm region).symm
  · intro alloc member
    exact (sound.honest alloc member).congr (agree _ (mem_live member))

theorem allocate (sound : Sound target before) (requestedSize : Nat) :
    Sound target { before with
      list := (before.list.allocate target requestedSize).2
      live :=
        if (before.list.allocate target requestedSize).1.ptr = 0 then before.live
        else (before.list.allocate target requestedSize).1 :: before.live } := by
  have positive := headerNodeSize_pos target
  have outcome := sound.allocate_outcome requestedSize
  generalize before.list.allocate target requestedSize = result at outcome ⊢
  cases outcome with
  | full => exact sound
  | whole node member fits =>
      have nonnull : node + headerNodeSize target ≠ 0 := by omega
      constructor
      · exact sound.memory
      · refine sound.laid.perm ?_
        simp only [nodes, nonnull, if_false, List.map_cons, toNodePtr_add]
        exact (take_perm member).trans List.perm_middle.symm
      · simp only [nonnull, if_false]
        intro alloc listed
        rcases List.mem_cons.mp listed with rfl | old
        · exact ⟨node, rfl⟩
        · exact sound.honest alloc old
  | cut node kept rest member fits whole alignedRest =>
      have nonnull : node + headerNodeSize target ≠ 0 := by omega
      have laid := sound.laid.perm (take_perm member)
      constructor
      · exact sound.memory
      · refine (laid.split whole alignedRest).perm ?_
        simp only [nodes, nonnull, if_false, List.map_cons, toNodePtr_add]
        exact (cut_perm target kept rest member).symm
      · simp only [nonnull, if_false]
        intro alloc listed
        rcases List.mem_cons.mp listed with rfl | old
        · exact ⟨node, by simp only [IntrusiveFreeList.splitAt, cut_front]⟩
        · refine (sound.honest alloc old).congr (laid.cut_agrees whole _ ?_)
          exact List.mem_append_right _ (List.mem_map_of_mem old)

theorem free (sound : Sound target before) {alloc : Allocation} (member : alloc ∈ before.live) :
    Sound target { before with
      list := (before.list.free target alloc).2
      live := before.live.erase alloc } := by
  let rest := others target before alloc
  have laid := sound.laid.perm (nodes_perm member)
  have outcome := sound.free_outcome member
  generalize IntrusiveFreeList.toNodePtr target alloc.ptr = node at laid outcome
  have known : forall other, other ∈ before.live.erase alloc ->
      Honest target before.list.sizeAt other :=
    fun other listed => sound.honest other (List.mem_of_mem_erase listed)
  -- A merge writes the size word of one header only; the headers of the other
  -- live blocks are in `rest`, and that header is not.
  have unchanged : forall {header value : Nat}, header ∉ rest ->
      forall other, other ∈ before.live.erase alloc ->
        Honest target (Function.update before.list.sizeAt header value) other := by
    intro header value absent other listed
    exact (known other listed).congr (update_agrees absent _ (List.mem_map_of_mem listed))
  generalize (before.list.free target alloc).2 = result at outcome ⊢
  cases outcome with
  | alone _ =>
      refine ⟨sound.memory, laid.perm ?_, known⟩
      simp only [nodes, List.append_assoc, List.singleton_append]
      exact List.perm_middle.symm
  | left left nonzero leftMember touching =>
      have ordered := laid.perm (order_left leftMember)
      have aligned := ordered.aligned left List.mem_cons_self
      have alignedNode := ordered.aligned node (by simp)
      have merged := ordered.absorb (Nat.dvd_add aligned.2 alignedNode.2) (by
        rw [span_extended (IntrusiveFreeList.contiguous_iff.mp touching)]
        exact Set.union_subset (block_subset_cover (by simp))
          (span_size_subset_block.trans (block_subset_cover (by simp))))
      refine ⟨sound.memory, ?_, unchanged fun listed => ordered.head_notMem ?_⟩
      · exact merged.perm ((List.perm_cons_erase leftMember).symm.append_right rest)
      · exact List.mem_append_right _ (List.mem_append_right _ listed)
  | right right nonzero rightMember touching =>
      have ordered := laid.perm (order_right rightMember)
      have alignedNode := ordered.aligned node List.mem_cons_self
      have aligned := ordered.aligned right (by simp)
      have merged := ordered.absorb (Nat.dvd_add alignedNode.2 aligned.2) (by
        rw [span_extended (IntrusiveFreeList.contiguous_iff.mp touching)]
        exact Set.union_subset (block_subset_cover (by simp))
          (span_size_subset_block.trans (block_subset_cover (by simp))))
      refine ⟨sound.memory, merged.perm ?_, unchanged fun listed => ordered.head_notMem ?_⟩
      · simp only [nodes, List.append_assoc, List.singleton_append]
        exact List.perm_middle.symm
      · exact List.mem_append_right _ (List.mem_append_right _ listed)
  | both left right leftNonzero rightNonzero leftMember rightMember leftTouching rightTouching =>
      have leftKept : left ∈ before.list.freeList.erase right :=
        IntrusiveFreeList.left_kept leftTouching rightTouching leftMember
      have ordered := laid.perm (order_both leftKept rightMember)
      have aligned := ordered.aligned left List.mem_cons_self
      have alignedNode := ordered.aligned node (by simp)
      have alignedRight := ordered.aligned right (by simp)
      have merged := ordered.absorb
        (Nat.dvd_add (Nat.dvd_add aligned.2 alignedNode.2) alignedRight.2) (by
          rw [Nat.add_assoc, span_extended (IntrusiveFreeList.contiguous_iff.mp leftTouching)]
          refine Set.union_subset (block_subset_cover (by simp)) ?_
          have reach : span node (before.list.sizeAt node + before.list.sizeAt right) ⊆
              block target before.list.sizeAt node ∪ block target before.list.sizeAt right := by
            refine (span_subset (Nat.le_refl _) (Nat.add_le_add_left
              (Nat.le_add_left _ (headerNodeSize target)) node)).trans ?_
            rw [span_extended (IntrusiveFreeList.contiguous_iff.mp rightTouching)]
            exact Set.union_subset_union_right _ span_size_subset_block
          exact reach.trans
            (Set.union_subset (block_subset_cover (by simp)) (block_subset_cover (by simp))))
      refine ⟨sound.memory, ?_, unchanged fun listed => ordered.head_notMem ?_⟩
      · exact merged.perm ((List.perm_cons_erase leftKept).symm.append_right rest)
      · exact List.mem_append_right _ (List.mem_append_right _ listed)

/-- A caller that writes into the payloads it owns reaches no header. -/
theorem write_agrees (sound : Sound target before) {sizeAt : Nat -> Nat}
    (owned : forall node,
      (forall alloc, alloc ∈ before.live ->
        Disjoint (span node (headerNodeSize target)) alloc.bytes) ->
      sizeAt node = before.list.sizeAt node) :
    forall node, node ∈ before.nodes target -> sizeAt node = before.list.sizeAt node := by
  intro node member
  refine owned node fun alloc listed => ?_
  rcases sound.honest alloc listed with ⟨home, rfl⟩
  have homeMember : home ∈ before.nodes target := by
    have headed : _ ∈ before.nodes target := mem_live listed
    rwa [toNodePtr_add] at headed
  by_cases same : node = home
  · subst same
    exact disjoint_span_of_le (Nat.le_refl _)
  · refine (sound.laid.disjoint_of_ne member homeMember same).mono
      (span_subset (Nat.le_refl _) (by omega)) ?_
    exact span_subset (Nat.le_add_right _ _) (by dsimp only; omega)

theorem write (sound : Sound target before) {sizeAt : Nat -> Nat}
    (agree : forall node, node ∈ before.nodes target -> sizeAt node = before.list.sizeAt node) :
    Sound target { before with list := { before.list with sizeAt := sizeAt } } :=
  ⟨sound.memory, sound.laid.congr agree,
    fun alloc listed => (sound.honest alloc listed).congr (agree _ (mem_live listed))⟩

theorem step (sound : Sound target before) (stepped : Step target before call after) :
    Sound target after := by
  cases stepped with
  | add region addable => exact sound.add addable
  | allocate requestedSize => exact sound.allocate requestedSize
  | free alloc member => exact sound.free member
  | write sizeAt owned => exact sound.write (sound.write_agrees owned)

theorem of_reaches {calls : List FreeListCall} (reached : Reaches (Step target) empty calls use) :
    Sound target use :=
  reached.invariant (Sound target) (sound_empty target) fun _ _ _ sound stepped => sound.step stepped

/-- The blocks as the callers see them: free nodes, and the allocations that are
live with the headers in front of them. -/
theorem packed (sound : Sound target use) :
    Packed (use.list.freeList.map (block target use.list.sizeAt) ++
      use.live.map (Allocation.withHeader target)) := by
  have same : use.live.map (Allocation.withHeader target) =
      (use.live.map (fun alloc => IntrusiveFreeList.toNodePtr target alloc.ptr)).map
        (block target use.list.sizeAt) := by
    rw [List.map_map]
    exact List.map_congr_left fun alloc member => sound.withHeader_eq member
  rw [same, ← List.map_append]
  exact sound.laid.packed

/-- A live allocation is aligned, and it lies in the added memory together with
its header. -/
theorem placed (sound : Sound target use) {alloc : Allocation} (member : alloc ∈ use.live) :
    target.alignment ∣ alloc.ptr ∧ headerNodeSize target ≤ alloc.ptr ∧
      alloc.withHeader target ⊆ cover (use.added.map Allocation.bytes) := by
  have headed : _ ∈ use.nodes target := mem_live member
  rw [sound.withHeader_eq member]
  refine ⟨?_, ?_, sound.laid.inside _ headed⟩
  · rcases sound.honest alloc member with ⟨node, rfl⟩
    rw [toNodePtr_add] at headed
    exact Nat.dvd_add (sound.laid.aligned node headed).1 (alignment_dvd_headerNodeSize target)
  · rcases sound.honest alloc member with ⟨node, rfl⟩
    exact Nat.le_add_left _ _

end Sound

/-- `IntrusiveFreeList` is a safe allocator.  Over every sequence of calls, the
blocks that are free and the blocks that are live never overlap, headers
included; a live block is aligned and lies in added memory; and an allocation
that does not fail is such a block, as large as was asked for. -/
theorem intrusiveFreeList_safe {calls : List FreeListCall}
    (reached : Reaches (Step target) empty calls use) :
    Packed (use.list.freeList.map (block target use.list.sizeAt) ++
      use.live.map (Allocation.withHeader target)) ∧
    (forall alloc, alloc ∈ use.live ->
      target.alignment ∣ alloc.ptr ∧ headerNodeSize target ≤ alloc.ptr ∧
        alloc.withHeader target ⊆ cover (use.added.map Allocation.bytes)) ∧
    (forall requestedSize alloc, (use.list.allocate target requestedSize).1 = alloc ->
      alloc.ptr ≠ 0 ->
      requestedSize ≤ alloc.size ∧ target.alignment ∣ alloc.ptr ∧
        headerNodeSize target ≤ alloc.ptr ∧
        alloc.withHeader target ⊆ cover (use.added.map Allocation.bytes)) := by
  have sound := Sound.of_reaches reached
  refine ⟨sound.packed, fun alloc member => sound.placed member, ?_⟩
  intro requestedSize alloc result nonnull
  have handed : alloc ∈ (if (use.list.allocate target requestedSize).1.ptr = 0 then use.live
      else (use.list.allocate target requestedSize).1 :: use.live) := by
    rw [result, if_neg nonnull]
    exact List.mem_cons_self
  refine ⟨?_, (sound.allocate requestedSize).placed handed⟩
  have outcome := sound.allocate_outcome requestedSize
  subst result
  generalize use.list.allocate target requestedSize = result at outcome nonnull ⊢
  cases outcome with
  | full => exact absurd rfl nonnull
  | whole node member fits => exact fits
  | cut node kept rest member fits whole alignedRest => exact fits

/-- One page is added and a hundred bytes are allocated from it. -/
theorem intrusiveFreeList_safe_page : Exists fun use =>
    Reaches (Step .aarch64) empty [.allocate 100, .add ⟨4096, 4096⟩] use ∧
      Packed (use.list.freeList.map (block .aarch64 use.list.sizeAt) ++
        use.live.map (Allocation.withHeader .aarch64)) := by
  have addable : Addable .aarch64 empty.added ⟨4096, 4096⟩ :=
    ⟨by decide, by simp [empty], by decide, by decide, by decide, by decide⟩
  exact ⟨_, .tail (.tail .refl (.add _ _ addable)) (.allocate _ 100),
    (intrusiveFreeList_safe (.tail (.tail .refl (.add _ _ addable)) (.allocate _ 100))).1⟩

end FreeListUse

end Pine
end Pinyon
