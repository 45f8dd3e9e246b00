import Pinyon.Pine.FreeListSafety

namespace Pinyon
namespace Pine

open Library

/-!
# What a merge loses

When a freed block touches a free one, `adopt_right_node_size` adds the payload
of the right block to the left one and forgets the header that stood between
them.  `sizeof(HeaderNode)` bytes are then behind the payload of the left block
and in front of nothing: they belong to no block, and the block no longer
touches the one that follows.

The accounting below is exact.  A call keeps the number of bytes accounted for
unless it frees a block that touches a free one, so a run conserves memory just
when it never merges.  A run that conserves memory also gives it back: once
everything is free again, each added region is one free block as on the first
day.
-/

namespace FreeListUse

variable {target : Target} {before after use : FreeListUse} {call : FreeListCall}

/-- Payload and header of every free node and of every live allocation. -/
def bytesAccounted (target : Target) (use : FreeListUse) : Nat :=
  (use.list.freeList.map (fun node => use.list.sizeAt node + headerNodeSize target)).sum +
    (use.live.map (fun alloc => alloc.size + headerNodeSize target)).sum

def bytesAdded (use : FreeListUse) : Nat :=
  (use.added.map Allocation.size).sum

/-- Every added byte is in some block. -/
def Conserved (target : Target) (use : FreeListUse) : Prop :=
  use.bytesAccounted target = use.bytesAdded

/-- When nothing is live, a request that one of the regions served on the day it
was added is served again. -/
def Reusable (target : Target) (use : FreeListUse) : Prop :=
  use.live = [] -> forall region requestedSize, region ∈ use.added ->
    ((IntrusiveFreeList.empty.add target region.ptr region.size).allocate target
      requestedSize).1.ptr ≠ 0 ->
    (use.list.allocate target requestedSize).1.ptr ≠ 0

/-- No free block touches the block at the given header. -/
def Lonely (target : Target) (list : IntrusiveFreeList) (node : Nat) : Prop :=
  forall other, other ∈ list.freeList ->
    ¬ IntrusiveFreeList.contiguous target list other node ∧
      ¬ IntrusiveFreeList.contiguous target list node other

/-- The call does not free a block that touches a free one. -/
def MergeFree (target : Target) (use : FreeListUse) : FreeListCall -> Prop
  | .free alloc => Lonely target use.list (IntrusiveFreeList.toNodePtr target alloc.ptr)
  | _ => True

namespace Sound

/-- Memory never starts at the null pointer, hence neither does a header. -/
theorem node_ne_zero (sound : Sound target use)
    {node : Nat} (member : node ∈ use.nodes target) : node ≠ 0 := by
  rcases sound.laid.inside node member (head_mem_block ..) with ⟨piece, listed, holds⟩
  rcases List.mem_map.mp listed with ⟨region, regionListed, rfl⟩
  have start := sound.memory.nonnull region regionListed
  have reached := (mem_span.mp holds).1
  omega

/-- The callers' sum is the sum over all headers. -/
theorem bytesAccounted_eq (sound : Sound target use) :
    use.bytesAccounted target = occupied target use.list.sizeAt (use.nodes target) := by
  have live : use.live.map (fun alloc => alloc.size + headerNodeSize target) =
      (use.live.map (fun alloc => IntrusiveFreeList.toNodePtr target alloc.ptr)).map
        (fun node => headerNodeSize target + use.list.sizeAt node) := by
    rw [List.map_map]
    refine List.map_congr_left fun alloc member => ?_
    rcases sound.honest alloc member with ⟨node, rfl⟩
    simp [Nat.add_comm]
  have free : use.list.freeList.map (fun node => use.list.sizeAt node + headerNodeSize target) =
      use.list.freeList.map (fun node => headerNodeSize target + use.list.sizeAt node) :=
    List.map_congr_left fun node _ => Nat.add_comm _ _
  rw [bytesAccounted, live, free, occupied, nodes, List.map_append, List.sum_append]

/-! ## The loss of one call -/

theorem add_accounted (sound : Sound target before) {region : Allocation}
    (addable : Addable target before.added region) :
    bytesAccounted target { before with
      list := before.list.add target region.ptr region.size
      added := region :: before.added } = region.size + before.bytesAccounted target := by
  have holds := addable.holdsHeader
  rw [sound.bytesAccounted_eq, (sound.add addable).bytesAccounted_eq,
    occupied_perm (add_nodes_perm region), occupied_cons, add_size addable,
    occupied_congr (sound.add_agrees addable)]
  omega

theorem allocate_accounted (sound : Sound target before) (requestedSize : Nat) :
    bytesAccounted target { before with
      list := (before.list.allocate target requestedSize).2
      live :=
        if (before.list.allocate target requestedSize).1.ptr = 0 then before.live
        else (before.list.allocate target requestedSize).1 :: before.live } =
      before.bytesAccounted target := by
  have positive := headerNodeSize_pos target
  have outcome := sound.allocate_outcome requestedSize
  rw [sound.bytesAccounted_eq, (sound.allocate requestedSize).bytesAccounted_eq]
  generalize before.list.allocate target requestedSize = result at outcome ⊢
  cases outcome with
  | full => rfl
  | whole node member fits =>
      have nonnull : node + headerNodeSize target ≠ 0 := by omega
      refine occupied_perm ?_
      simp only [nodes, nonnull, if_false, List.map_cons, toNodePtr_add]
      exact List.perm_middle.trans (take_perm member).symm
  | cut node kept rest member fits whole alignedRest =>
      have nonnull : node + headerNodeSize target ≠ 0 := by omega
      have laid := sound.laid.perm (take_perm member)
      rw [occupied_perm (take_perm member), ← occupied_cut laid whole]
      refine occupied_perm ?_
      simp only [nodes, nonnull, if_false, List.map_cons, toNodePtr_add]
      exact cut_perm target kept rest member

theorem free_accounted (sound : Sound target before) {alloc : Allocation}
    (member : alloc ∈ before.live) : Exists fun lost =>
    bytesAccounted target { before with
      list := (before.list.free target alloc).2
      live := before.live.erase alloc } + lost = before.bytesAccounted target ∧
    (lost = 0 <-> Lonely target before.list (IntrusiveFreeList.toNodePtr target alloc.ptr)) := by
  have positive := headerNodeSize_pos target
  have outcome := sound.free_outcome member
  have later := sound.free member
  have nonzero : forall other, other ∈ before.list.freeList -> other ≠ 0 :=
    fun other listed => sound.node_ne_zero (mem_free listed)
  rw [later.bytesAccounted_eq, sound.bytesAccounted_eq, occupied_perm (nodes_perm member)]
  have laid := sound.laid.perm (nodes_perm member)
  generalize IntrusiveFreeList.toNodePtr target alloc.ptr = node at outcome laid ⊢
  generalize (before.list.free target alloc).2 = result at outcome ⊢
  cases outcome with
  | alone free =>
      refine ⟨0, ?_, fun _ other listed => free other listed (nonzero other listed), fun _ => rfl⟩
      refine occupied_perm ?_
      simp only [nodes, List.append_assoc, List.singleton_append]
      exact List.perm_middle
  | left left leftNonzero leftMember touching =>
      have ordered := laid.perm (order_left leftMember)
      refine ⟨headerNodeSize target, ?_, by omega, fun free => absurd touching (free _ leftMember).1⟩
      have merged := occupied_absorb ordered
      rw [← occupied_perm (order_left leftMember)] at merged
      rw [← merged]
      simp only [List.map_cons, List.map_nil, List.sum_cons, List.sum_nil, List.length_singleton,
        Nat.add_zero, Nat.one_mul]
      exact congrArg (· + headerNodeSize target)
        (occupied_perm ((List.perm_cons_erase leftMember).append_right _))
  | right right rightNonzero rightMember touching =>
      have ordered := laid.perm (order_right rightMember)
      refine ⟨headerNodeSize target, ?_, by omega, fun free => absurd touching (free _ rightMember).2⟩
      have merged := occupied_absorb ordered
      rw [← occupied_perm (order_right rightMember)] at merged
      rw [← merged, ← occupied_perm List.perm_middle]
      simp [nodes, others]
  | both left right leftNonzero rightNonzero leftMember rightMember leftTouching rightTouching =>
      have leftKept : left ∈ before.list.freeList.erase right :=
        IntrusiveFreeList.left_kept leftTouching rightTouching leftMember
      have ordered := laid.perm (order_both leftKept rightMember)
      refine ⟨2 * headerNodeSize target, ?_, by omega,
        fun free => absurd leftTouching (free _ leftMember).1⟩
      have merged := occupied_absorb ordered
      rw [← occupied_perm (order_both leftKept rightMember)] at merged
      rw [← merged]
      simp only [List.map_cons, List.map_nil, List.sum_cons, List.sum_nil, List.length_cons,
        List.length_nil, Nat.add_zero, Nat.zero_add, ← Nat.add_assoc]
      exact congrArg (· + 2 * headerNodeSize target)
        (occupied_perm ((List.perm_cons_erase leftKept).append_right _))

/-- What one call loses of what it should account for, and when that is nothing. -/
theorem accounted_step (sound : Sound target before) (stepped : Step target before call after) :
    Exists fun lost => after.bytesAccounted target + lost + before.bytesAdded =
      before.bytesAccounted target + after.bytesAdded ∧
      (lost = 0 <-> MergeFree target before call) := by
  cases stepped with
  | add region addable =>
      refine ⟨0, ?_, by simp [MergeFree]⟩
      rw [sound.add_accounted addable]
      simp only [bytesAdded, List.map_cons, List.sum_cons]
      omega
  | allocate requestedSize =>
      refine ⟨0, ?_, by simp [MergeFree]⟩
      rw [sound.allocate_accounted requestedSize]
      rfl
  | free alloc member =>
      rcases sound.free_accounted member with ⟨lost, balance, free⟩
      refine ⟨lost, ?_, free⟩
      rw [← balance]
      rfl
  | write sizeAt owned =>
      have agree := sound.write_agrees owned
      refine ⟨0, ?_, by simp [MergeFree]⟩
      rw [sound.bytesAccounted_eq, (sound.write agree).bytesAccounted_eq]
      exact congrArg (· + 0 + before.bytesAdded) (occupied_congr agree)

end Sound

/-- No call invents memory, so what has been lost stays lost. -/
theorem accounted_le {calls : List FreeListCall} (reached : Reaches (Step target) empty calls use) :
    Sound target use ∧ use.bytesAccounted target ≤ use.bytesAdded := by
  refine reached.invariant (fun use =>
    Sound target use ∧ use.bytesAccounted target ≤ use.bytesAdded)
      (And.intro (sound_empty target) (Nat.le_refl _)) ?_
  rintro before call after ⟨sound, bound⟩ stepped
  rcases sound.accounted_step stepped with ⟨lost, balance, _⟩
  exact ⟨sound.step stepped, by omega⟩

theorem conserved_iff_mergeFree {calls : List FreeListCall}
    (reached : Reaches (Step target) empty calls use) :
    Conserved target use <-> Reaches (guarded (Step target) (MergeFree target)) empty calls use := by
  refine reached.iff_guarded (fun use =>
    Sound target use ∧ use.bytesAccounted target ≤ use.bytesAdded) (Conserved target)
      (And.intro (sound_empty target) (Nat.le_refl _)) rfl ?_ ?_
  · rintro before call after ⟨sound, bound⟩ stepped
    rcases sound.accounted_step stepped with ⟨lost, balance, _⟩
    exact ⟨sound.step stepped, by omega⟩
  · rintro before call after ⟨sound, bound⟩ stepped
    rcases sound.accounted_step stepped with ⟨lost, balance, none⟩
    unfold Conserved
    rw [← none]
    constructor <;> intro <;> omega

/-! ## Runs without a merge give everything back -/

/-- The shape of the blocks as long as nothing was merged: no block straddles
two regions, every added byte is in a block, and two free blocks of one region
never touch. -/
structure Whole (target : Target) (use : FreeListUse) : Prop where
  within : forall node, node ∈ use.nodes target -> Exists fun region =>
    region ∈ use.added ∧ block target use.list.sizeAt node ⊆ region.bytes
  filled : cover (use.added.map Allocation.bytes) ⊆
    cover ((use.nodes target).map (block target use.list.sizeAt))
  apart : forall left right region, left ∈ use.list.freeList -> right ∈ use.list.freeList ->
    region ∈ use.added -> left ∈ region.bytes -> right ∈ region.bytes ->
      ¬ IntrusiveFreeList.contiguous target use.list left right

namespace Whole

theorem empty (target : Target) : Whole target FreeListUse.empty where
  within := by simp [nodes, FreeListUse.empty, IntrusiveFreeList.empty]
  filled := by simp [FreeListUse.empty]
  apart := by simp [FreeListUse.empty]

theorem add (whole : Whole target before) (sound : Sound target before) {region : Allocation}
    (addable : Addable target before.added region) :
    Whole target { before with
      list := before.list.add target region.ptr region.size
      added := region :: before.added } := by
  have holds := addable.holdsHeader
  have positive := headerNodeSize_pos target
  have agree := sound.add_agrees addable
  have order : (nodes target _).Perm (region.ptr :: before.nodes target) :=
    Sound.add_nodes_perm region
  have same : block target (before.list.add target region.ptr region.size).sizeAt region.ptr =
      region.bytes := by
    rw [block, Sound.add_size addable, Allocation.bytes]
    congr 1
    omega
  -- The new region shares no byte with a block that was there before.
  have foreign : forall node, node ∈ before.nodes target -> node ∉ region.bytes := by
    intro node member inside
    exact Set.disjoint_left.mp addable.apart inside
      (sound.laid.inside node member (head_mem_block ..))
  have own : region.ptr ∈ region.bytes := same ▸ head_mem_block ..
  have outside : forall home, home ∈ before.added -> region.ptr ∉ home.bytes := by
    intro home listed inside
    exact Set.disjoint_left.mp addable.apart own
      (subset_cover (List.mem_map_of_mem listed) inside)
  constructor
  · intro node member
    rcases List.mem_cons.mp (order.mem_iff.mp member) with rfl | old
    · exact ⟨region, List.mem_cons_self, same.subset⟩
    · rcases whole.within node old with ⟨home, listed, inside⟩
      refine ⟨home, List.mem_cons_of_mem _ listed, ?_⟩
      rw [block_congr (agree node old)]
      exact inside
  · rw [cover_perm (order.map _), List.map_cons, List.map_cons, cover_cons, cover_cons, same,
      map_block_congr target agree]
    exact Set.union_subset_union_right _ whole.filled
  · intro left right home leftMember rightMember listed leftInside rightInside touching
    have leftCase : left ∈ before.list.freeList ∨ left = region.ptr := by
      simpa [IntrusiveFreeList.add] using leftMember
    have rightCase : right ∈ before.list.freeList ∨ right = region.ptr := by
      simpa [IntrusiveFreeList.add] using rightMember
    rcases List.mem_cons.mp listed with rfl | oldRegion
    · rcases leftCase with oldLeft | rfl
      · exact foreign left (Sound.mem_free oldLeft) leftInside
      · rcases rightCase with oldRight | rfl
        · exact foreign right (Sound.mem_free oldRight) rightInside
        · exact Nat.lt_irrefl _ (IntrusiveFreeList.contiguous_lt touching)
    · rcases leftCase with oldLeft | rfl
      · rcases rightCase with oldRight | rfl
        · refine whole.apart left right home oldLeft oldRight oldRegion leftInside rightInside ?_
          rw [IntrusiveFreeList.contiguous_iff] at touching ⊢
          rwa [agree left (Sound.mem_free oldLeft)] at touching
        · exact outside home oldRegion rightInside
      · exact outside home oldRegion leftInside

private theorem mem_splitAt {list : IntrusiveFreeList} {node kept rest other : Nat}
    (member : node ∈ list.freeList)
    (listed : other ∈ (IntrusiveFreeList.splitAt target list node kept rest).freeList) :
    other ∈ list.freeList.erase node ∨ other = node + (headerNodeSize target + kept) := by
  rwa [IntrusiveFreeList.splitAt, List.erase_append_left _ member, List.mem_append,
    List.mem_singleton] at listed

/-- Behind a cut comes what came behind the block, and in front of the cut is the
block that was handed out. -/
private theorem cut_apart (whole : Whole target before) (sound : Sound target before)
    {node kept rest left right : Nat} {region : Allocation}
    (member : node ∈ before.list.freeList)
    (size : before.list.sizeAt node = kept + (headerNodeSize target + rest))
    (leftCase : left ∈ before.list.freeList.erase node ∨
      left = node + (headerNodeSize target + kept))
    (rightCase : right ∈ before.list.freeList.erase node ∨
      right = node + (headerNodeSize target + kept))
    (listed : region ∈ before.added) (leftInside : left ∈ region.bytes)
    (rightInside : right ∈ region.bytes) :
    ¬ IntrusiveFreeList.contiguous target
      (IntrusiveFreeList.splitAt target before.list node kept rest) left right := by
  have positive := headerNodeSize_pos target
  have laid := sound.laid.perm (Sound.take_perm member)
  intro touching
  rw [IntrusiveFreeList.contiguous_iff] at touching
  simp only [IntrusiveFreeList.splitAt] at touching
  rcases leftCase with oldLeft | rfl
  · have oldFree := List.mem_of_mem_erase oldLeft
    rw [laid.cut_agrees size left (List.mem_append_left _ oldLeft)] at touching
    rcases rightCase with oldRight | rfl
    · exact whole.apart left right region oldFree (List.mem_of_mem_erase oldRight) listed
        leftInside rightInside (IntrusiveFreeList.contiguous_iff.mpr touching)
    · have avoids := disjoint_block_iff.mp
        (laid.disjoint_of_mem (List.mem_append_left _ oldLeft))
      omega
  · rw [cut_behind] at touching
    rcases rightCase with oldRight | rfl
    · rcases whole.within node (Sound.mem_free member) with ⟨home, homeListed, holds⟩
      have same : home = region := by
        refine sound.memory.region_unique homeListed listed (holds ?_) leftInside
        rw [mem_block]
        omega
      refine whole.apart node right region member (List.mem_of_mem_erase oldRight) listed
        (same ▸ holds (head_mem_block ..)) rightInside (IntrusiveFreeList.contiguous_iff.mpr ?_)
      omega
    · omega

theorem allocate (whole : Whole target before) (sound : Sound target before)
    (requestedSize : Nat) :
    Whole target { before with
      list := (before.list.allocate target requestedSize).2
      live :=
        if (before.list.allocate target requestedSize).1.ptr = 0 then before.live
        else (before.list.allocate target requestedSize).1 :: before.live } := by
  have positive := headerNodeSize_pos target
  have outcome := sound.allocate_outcome requestedSize
  generalize before.list.allocate target requestedSize = result at outcome ⊢
  cases outcome with
  | full => exact whole
  | whole node member fits =>
      have nonnull : node + headerNodeSize target ≠ 0 := by omega
      have order : (before.list.freeList.erase node ++ node :: before.live.map
          (fun alloc => IntrusiveFreeList.toNodePtr target alloc.ptr)).Perm (before.nodes target) :=
        List.perm_middle.trans (Sound.take_perm member).symm
      constructor
      · simp only [nodes, nonnull, if_false, List.map_cons, toNodePtr_add]
        exact fun other listed => whole.within other (order.mem_iff.mp listed)
      · simp only [nodes, nonnull, if_false, List.map_cons, toNodePtr_add]
        rw [cover_perm (order.map _)]
        exact whole.filled
      · intro left right region leftMember rightMember
        exact whole.apart left right region (List.mem_of_mem_erase leftMember)
          (List.mem_of_mem_erase rightMember)
  | cut node kept rest member fits size alignedRest =>
      have nonnull : node + headerNodeSize target ≠ 0 := by omega
      have laid := sound.laid.perm (Sound.take_perm member)
      have agree := laid.cut_agrees size
      have order := Sound.cut_perm target kept rest member
      have parts := block_cut size
      have headed : node ∈ before.nodes target := Sound.mem_free member
      rcases whole.within node headed with ⟨home, homeListed, homeHolds⟩
      constructor
      · simp only [nodes, nonnull, if_false, List.map_cons, toNodePtr_add]
        intro other listed
        have cases := order.mem_iff.mp listed
        rw [List.mem_cons, List.mem_cons] at cases
        rcases cases with rfl | rfl | old
        · exact ⟨home, homeListed, (parts ▸ Set.subset_union_right).trans homeHolds⟩
        · exact ⟨home, homeListed, (parts ▸ Set.subset_union_left).trans homeHolds⟩
        · rcases whole.within other ((Sound.take_perm member).mem_iff.mpr
            (List.mem_cons_of_mem _ old)) with ⟨region, regionListed, holds⟩
          refine ⟨region, regionListed, ?_⟩
          rw [IntrusiveFreeList.splitAt, block_congr (agree other old)]
          exact holds
      · simp only [nodes, nonnull, if_false, List.map_cons, toNodePtr_add]
        refine whole.filled.trans ?_
        rw [cover_perm ((Sound.take_perm member).map _), cover_perm (order.map _), List.map_cons,
          List.map_cons, List.map_cons, cover_cons, cover_cons, cover_cons,
          IntrusiveFreeList.splitAt, map_block_congr target agree, parts, ← Set.union_assoc,
          Set.union_comm (block target _ node)]
      · intro left right region leftMember rightMember regionListed leftInside rightInside touching
        exact whole.cut_apart sound member size (mem_splitAt member leftMember)
          (mem_splitAt member rightMember) regionListed leftInside rightInside touching

theorem free (whole : Whole target before) (sound : Sound target before) {alloc : Allocation}
    (member : alloc ∈ before.live)
    (lonely : Lonely target before.list (IntrusiveFreeList.toNodePtr target alloc.ptr)) :
    Whole target { before with
      list := (before.list.free target alloc).2
      live := before.live.erase alloc } := by
  have outcome := sound.free_outcome member
  have order : (before.nodes target).Perm _ := Sound.nodes_perm member
  unfold Sound.others at order
  generalize IntrusiveFreeList.toNodePtr target alloc.ptr = node at order outcome lonely
  generalize (before.list.free target alloc).2 = result at outcome ⊢
  cases outcome with
  | alone free =>
      have same : (before.list.freeList ++ [node] ++ (before.live.erase alloc).map
          (fun alloc => IntrusiveFreeList.toNodePtr target alloc.ptr)).Perm
          (before.nodes target) := by
        rw [List.append_assoc, List.singleton_append]
        exact List.perm_middle.trans order.symm
      constructor
      · exact fun other listed => whole.within other (same.mem_iff.mp listed)
      · rw [nodes, cover_perm (same.map _)]
        exact whole.filled
      · intro left right region leftMember rightMember listed leftInside rightInside touching
        rcases List.mem_append.mp leftMember with oldLeft | newLeft
        · rcases List.mem_append.mp rightMember with oldRight | newRight
          · exact whole.apart left right region oldLeft oldRight listed leftInside rightInside
              touching
          · exact (lonely left oldLeft).1 (List.mem_singleton.mp newRight ▸ touching)
        · rcases List.mem_append.mp rightMember with oldRight | newRight
          · exact (lonely right oldRight).2 (List.mem_singleton.mp newLeft ▸ touching)
          · rw [List.mem_singleton.mp newLeft, List.mem_singleton.mp newRight] at touching
            exact Nat.lt_irrefl _ (IntrusiveFreeList.contiguous_lt touching)
  | left left _ leftMember touching => exact absurd touching (lonely left leftMember).1
  | right right _ rightMember touching => exact absurd touching (lonely right rightMember).2
  | both left _ _ _ leftMember _ touching _ => exact absurd touching (lonely left leftMember).1

theorem write (whole : Whole target before) {sizeAt : Nat -> Nat}
    (agree : forall node, node ∈ before.nodes target -> sizeAt node = before.list.sizeAt node) :
    Whole target { before with list := { before.list with sizeAt := sizeAt } } where
  within := by
    intro node member
    rw [block_congr (agree node member)]
    exact whole.within node member
  filled := by
    have same := congrArg cover (map_block_congr target agree)
    exact whole.filled.trans same.symm.subset
  apart := by
    intro left right region leftMember rightMember listed leftInside rightInside touching
    refine whole.apart left right region leftMember rightMember listed leftInside rightInside ?_
    rw [IntrusiveFreeList.contiguous_iff, ← agree left (Sound.mem_free leftMember)]
    exact IntrusiveFreeList.contiguous_iff.mp touching

theorem step (whole : Whole target before) (sound : Sound target before)
    (mergeFree : MergeFree target before call) (stepped : Step target before call after) :
    Whole target after := by
  cases stepped with
  | add region addable => exact whole.add sound addable
  | allocate requestedSize => exact whole.allocate sound requestedSize
  | free alloc member => exact whole.free sound member mergeFree
  | write sizeAt owned => exact whole.write (sound.write_agrees owned)

/-- With nothing live, the block that starts a region ends with it: a block that
ended before would touch the next one. -/
theorem region_free (whole : Whole target use) (sound : Sound target use) (idle : use.live = [])
    {region : Allocation} (listed : region ∈ use.added)
    (holds : headerNodeSize target ≤ region.size) :
    region.ptr ∈ use.list.freeList ∧
      headerNodeSize target + use.list.sizeAt region.ptr = region.size := by
  have positive := headerNodeSize_pos target
  have allFree : use.nodes target = use.list.freeList := by
    rw [nodes, idle, List.map_nil, List.append_nil]
  -- The block that holds a byte of the region lies in the region.
  have find : forall address, address ∈ region.bytes -> Exists fun node =>
      node ∈ use.list.freeList ∧ address ∈ block target use.list.sizeAt node ∧
        block target use.list.sizeAt node ⊆ region.bytes := by
    intro address inside
    rcases whole.filled (subset_cover (List.mem_map_of_mem listed) inside) with
      ⟨piece, pieceListed, inPiece⟩
    rcases List.mem_map.mp pieceListed with ⟨node, member, rfl⟩
    rcases whole.within node member with ⟨home, homeListed, homeHolds⟩
    have same := sound.memory.region_unique homeListed listed (homeHolds inPiece) inside
    exact ⟨node, allFree ▸ member, inPiece, same ▸ homeHolds⟩
  have bounds : forall node, block target use.list.sizeAt node ⊆ region.bytes ->
      region.ptr ≤ node ∧
        node + (headerNodeSize target + use.list.sizeAt node) ≤ region.ptr + region.size :=
    fun node within => (span_subset_iff (block_length_pos ..)).mp within
  have start : region.ptr ∈ region.bytes := by
    rw [Allocation.bytes, mem_span]
    omega
  rcases find region.ptr start with ⟨first, firstFree, firstHolds, firstWithin⟩
  have firstBounds := bounds first firstWithin
  have same : first = region.ptr := Nat.le_antisymm (mem_block.mp firstHolds).1 firstBounds.1
  subst same
  refine ⟨firstFree, ?_⟩
  by_contra short
  have next : region.ptr + (headerNodeSize target + use.list.sizeAt region.ptr) ∈
      region.bytes := by
    rw [Allocation.bytes, mem_span]
    omega
  rcases find _ next with ⟨second, secondFree, secondHolds, secondWithin⟩
  have secondBounds := bounds second secondWithin
  have reached := mem_block.mp secondHolds
  have different : region.ptr ≠ second := by
    intro same
    rw [← same] at reached
    omega
  have avoids := disjoint_block_iff.mp (sound.laid.disjoint_of_ne (Sound.mem_free firstFree)
    (Sound.mem_free secondFree) different)
  refine whole.apart region.ptr second region firstFree secondFree listed start
    (secondWithin (head_mem_block ..)) (IntrusiveFreeList.contiguous_iff.mpr ?_)
  omega

end Whole

/-- A region that was added can hold a header. -/
theorem added_holds {calls : List FreeListCall}
    (reached : Reaches (Step target) empty calls use) :
    forall region, region ∈ use.added -> headerNodeSize target ≤ region.size := by
  refine reached.invariant (fun use =>
    forall region, region ∈ use.added -> headerNodeSize target ≤ region.size)
      (by simp [empty]) ?_
  intro before call after holds stepped
  cases stepped with
  | add region addable => exact List.forall_mem_cons.mpr ⟨addable.holdsHeader, holds⟩
  | allocate requestedSize => exact holds
  | free alloc member => exact holds
  | write sizeAt owned => exact holds

/-- An allocation fails just when every node is too small. -/
theorem allocate_ne_zero {list : IntrusiveFreeList} {requestedSize node : Nat}
    (small : forall node, node ∈ list.freeList -> list.sizeAt node < target.wordLimit)
    (member : node ∈ list.freeList) (fits : requestedSize ≤ list.sizeAt node) :
    (list.allocate target requestedSize).1.ptr ≠ 0 := by
  have positive := headerNodeSize_pos target
  have outcome : IntrusiveFreeList.AllocateCase target list requestedSize _ :=
    IntrusiveFreeList.allocate_cases small
  generalize list.allocate target requestedSize = result at outcome ⊢
  cases outcome with
  | full tooSmall => exact absurd fits (Nat.not_le.mpr (tooSmall node member))
  | whole node member fits => exact (by omega : node + headerNodeSize target ≠ 0)
  | cut node kept rest member fits whole alignedRest =>
      exact (by omega : node + headerNodeSize target ≠ 0)

theorem reusable_of_mergeFree {calls : List FreeListCall}
    (reached : Reaches (guarded (Step target) (MergeFree target)) empty calls use) :
    Reusable target use := by
  have both : Sound target use ∧ Whole target use :=
    reached.guarded_invariant (fun use => Sound target use ∧ Whole target use)
      (And.intro (sound_empty target) (Whole.empty target))
      fun _ _ _ holds mergeFree stepped =>
        ⟨holds.1.step stepped, holds.2.step holds.1 mergeFree stepped⟩
  rcases both with ⟨sound, whole⟩
  intro idle region requestedSize listed served
  have holds := added_holds reached.of_guarded region listed
  have word : region.size < target.wordLimit :=
    Nat.lt_of_le_of_lt (Nat.le_add_left _ _) (sound.memory.bounded region listed)
  rcases whole.region_free sound idle listed holds with ⟨member, size⟩
  refine allocate_ne_zero (fun _ free => sound.laid.size_lt sound.memory (Sound.mem_free free))
    member ?_
  by_contra tooLarge
  refine served ?_
  have fresh : (IntrusiveFreeList.empty.add target region.ptr region.size).sizeAt region.ptr =
      use.list.sizeAt region.ptr := by
    simp only [IntrusiveFreeList.add, IntrusiveFreeList.constructNode, Function.update_self,
      wordSub_eq holds word]
    omega
  rw [IntrusiveFreeList.allocate, List.find?_eq_none.mpr]
  intro node only
  have here : node = region.ptr := by
    simpa [IntrusiveFreeList.add, IntrusiveFreeList.empty] using only
  rw [here, fresh]
  simpa using tooLarge

/-- `IntrusiveFreeList` keeps every byte it was given exactly in the runs that
never free a block next to a free one, and then the memory it takes back serves
what it served before.  The first such `free` loses a header for good. -/
theorem noMemoryLost_iff_mergeFree {calls : List FreeListCall}
    (reached : Reaches (Step target) empty calls use) :
    Conserved target use ∧ Reusable target use <->
      Reaches (guarded (Step target) (MergeFree target)) empty calls use :=
  ⟨fun kept => (conserved_iff_mergeFree reached).mp kept.1,
    fun run => ⟨(conserved_iff_mergeFree reached).mpr run, reusable_of_mergeFree run⟩⟩

/-- One page, from which a hundred bytes are taken: nothing was lost. -/
theorem noMemoryLost_iff_mergeFree_page : Exists fun use =>
    Reaches (Step .aarch64) empty [.allocate 100, .add ⟨4096, 4096⟩] use ∧
      Conserved .aarch64 use ∧ Reusable .aarch64 use := by
  have addable : Addable .aarch64 empty.added ⟨4096, 4096⟩ :=
    ⟨by decide, by simp [empty], by decide, by decide, by decide, by decide⟩
  have run : Reaches (guarded (Step .aarch64) (MergeFree .aarch64)) empty
      [.allocate 100, .add ⟨4096, 4096⟩] _ :=
    .tail (.tail .refl ⟨trivial, .add _ _ addable⟩) ⟨trivial, .allocate _ 100⟩
  exact ⟨_, run.of_guarded, (noMemoryLost_iff_mergeFree run.of_guarded).mpr run⟩

/-- One page, from which sixteen bytes are taken and given back.  The page is one
free node again, but the node is a header too short, and it no longer serves the
largest request that the page served. -/
theorem memory_lost_by_merge : Exists fun use =>
    Reaches (Step .aarch64) empty
      [.free ⟨4128, 16⟩, .allocate 16, .add ⟨4096, 4096⟩] use ∧
      use.live = [] ∧ use.bytesAdded = 4096 ∧ use.bytesAccounted .aarch64 = 4064 ∧
      ¬ Conserved .aarch64 use ∧ ¬ Reusable .aarch64 use := by
  have addable : Addable .aarch64 empty.added ⟨4096, 4096⟩ :=
    ⟨by decide, by simp [empty], by decide, by decide, by decide, by decide⟩
  refine ⟨_, .tail (.tail (.tail .refl (.add _ _ addable)) (.allocate _ 16))
    (.free _ ⟨4128, 16⟩ (by decide +kernel)), by decide +kernel, by decide +kernel,
    by decide +kernel, ?_, ?_⟩
  · unfold Conserved
    decide +kernel
  · intro reusable
    exact reusable (by decide +kernel) ⟨4096, 4096⟩ 4064 (by decide +kernel) (by decide +kernel)
      (by decide +kernel)

end FreeListUse

end Pine
end Pinyon
