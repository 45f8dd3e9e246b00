import Pinyon.Library.Span
import Pinyon.Pine.FreeList

namespace Pinyon
namespace Pine

open Library

/-!
# How blocks lie in the added memory

A block is a header and the payload behind it.  This layer forgets which blocks
are free: it only knows the headers, the size word of each, and the memory that
was added.  `Laid` says that the blocks do not overlap and lie inside that
memory, and the laws say what the three ways of changing headers do to it: a
region is added, a block is cut in two, a block adopts its right neighbour.

`occupied` is the number of bytes that the blocks account for, headers included.
-/

variable {target : Target} {sizeAt sizeAt' : Nat -> Nat} {nodes nodes' : List Nat}
variable {added : List Allocation} {node left right : Nat}

/-- The bytes of an allocation. -/
def Allocation.bytes (allocation : Allocation) : Set Nat :=
  span allocation.ptr allocation.size

/-- The bytes of the block whose header is at `node`. -/
def block (target : Target) (sizeAt : Nat -> Nat) (node : Nat) : Set Nat :=
  span node (headerNodeSize target + sizeAt node)

/-- Pairwise disjoint pieces of memory, none of which starts at the null pointer
or reaches the end of the address space. -/
structure Memory (target : Target) (added : List Allocation) : Prop where
  nonnull : forall region, region ∈ added -> region.ptr ≠ 0
  apart : Packed (added.map Allocation.bytes)
  bounded : forall region, region ∈ added -> region.ptr + region.size < target.wordLimit

/-- The blocks at the given headers are laid out in the added memory.  A block
may straddle two regions that touch, because blocks of both can be merged. -/
structure Laid (target : Target) (sizeAt : Nat -> Nat) (nodes : List Nat)
    (added : List Allocation) : Prop where
  packed : Packed (nodes.map (block target sizeAt))
  inside : forall node, node ∈ nodes ->
    block target sizeAt node ⊆ cover (added.map Allocation.bytes)
  aligned : forall node, node ∈ nodes ->
    target.alignment ∣ node ∧ target.alignment ∣ sizeAt node

/-- The bytes the blocks account for: every payload and every header. -/
def occupied (target : Target) (sizeAt : Nat -> Nat) (nodes : List Nat) : Nat :=
  (nodes.map (fun node => headerNodeSize target + sizeAt node)).sum

/-! ## Headers and their bytes -/

theorem mem_block {address : Nat} : address ∈ block target sizeAt node <->
    node ≤ address ∧ address < node + (headerNodeSize target + sizeAt node) :=
  Iff.rfl

theorem block_length_pos (target : Target) (sizeAt : Nat -> Nat) (node : Nat) :
    0 < headerNodeSize target + sizeAt node :=
  Nat.add_pos_left (headerNodeSize_pos target) _

theorem disjoint_block_iff : Disjoint (block target sizeAt left) (block target sizeAt' right) <->
    left + (headerNodeSize target + sizeAt left) ≤ right ∨
      right + (headerNodeSize target + sizeAt' right) ≤ left :=
  disjoint_span (block_length_pos ..) (block_length_pos ..)

theorem block_congr (agree : sizeAt' node = sizeAt node) :
    block target sizeAt' node = block target sizeAt node := by
  rw [block, block, agree]

theorem map_block_congr (target : Target) (agree : forall node, node ∈ nodes -> sizeAt' node = sizeAt node) :
    nodes.map (block target sizeAt') = nodes.map (block target sizeAt) :=
  List.map_congr_left fun node member => block_congr (agree node member)

theorem occupied_congr (agree : forall node, node ∈ nodes -> sizeAt' node = sizeAt node) :
    occupied target sizeAt' nodes = occupied target sizeAt nodes := by
  unfold occupied
  rw [List.map_congr_left fun node member => by rw [agree node member]]

theorem occupied_perm (same : nodes.Perm nodes') :
    occupied target sizeAt nodes = occupied target sizeAt nodes' :=
  (same.map _).sum_nat

@[simp] theorem occupied_cons : occupied target sizeAt (node :: nodes) =
    headerNodeSize target + sizeAt node + occupied target sizeAt nodes := by
  simp [occupied]

/-- A size word that is written does not concern the other headers. -/
theorem update_agrees {value : Nat} (absent : node ∉ nodes) :
    forall other, other ∈ nodes -> Function.update sizeAt node value other = sizeAt other := by
  intro other member
  have different : other ≠ node := fun same => absent (same ▸ member)
  exact Function.update_of_ne different _ _

/-- A payload that is extended by `extra` bytes reaches that far into the block
it touches. -/
theorem span_extended (touching : left + (headerNodeSize target + sizeAt left) = right)
    (extra : Nat) : span left (headerNodeSize target + (sizeAt left + extra)) =
      block target sizeAt left ∪ span right extra := by
  rw [block, ← touching, span_union, Nat.add_assoc]

theorem block_subset_cover (member : node ∈ nodes) :
    block target sizeAt node ⊆ cover (nodes.map (block target sizeAt)) :=
  subset_cover (List.mem_map_of_mem member)

theorem span_size_subset_block : span node (sizeAt node) ⊆ block target sizeAt node :=
  span_subset (Nat.le_refl _) (by omega)

/-- The size words after a block was cut to `kept` bytes and a header for the
remaining `rest` bytes was placed behind them. -/
def cut (target : Target) (sizeAt : Nat -> Nat) (node kept rest : Nat) : Nat -> Nat :=
  Function.update (Function.update sizeAt node kept) (node + (headerNodeSize target + kept)) rest

theorem cut_front (target : Target) (sizeAt : Nat -> Nat) (node kept rest : Nat) :
    cut target sizeAt node kept rest node = kept := by
  have positive := headerNodeSize_pos target
  rw [cut, Function.update_of_ne (by omega), Function.update_self]

theorem cut_behind (target : Target) (sizeAt : Nat -> Nat) (node kept rest : Nat) :
    cut target sizeAt node kept rest (node + (headerNodeSize target + kept)) = rest :=
  Function.update_self ..

/-- The two blocks of a cut are the block that was cut. -/
theorem block_cut {kept rest : Nat} (whole : sizeAt node = kept + (headerNodeSize target + rest)) :
    block target sizeAt node = block target (cut target sizeAt node kept rest) node ∪
      block target (cut target sizeAt node kept rest) (node + (headerNodeSize target + kept)) := by
  rw [block, block, block, cut_front, cut_behind, span_union, whole, Nat.add_assoc]

theorem head_mem_block (target : Target) (sizeAt : Nat -> Nat) (node : Nat) :
    node ∈ block target sizeAt node := by
  have positive := block_length_pos target sizeAt node
  rw [mem_block]
  omega

/-- The region that holds an address is unique. -/
theorem Memory.region_unique (memory : Memory target added) {first second : Allocation}
    (firstMember : first ∈ added) (secondMember : second ∈ added) {address : Nat}
    (inFirst : address ∈ first.bytes) (inSecond : address ∈ second.bytes) : first = second := by
  have symmetric : Std.Symm fun first second : Allocation => Disjoint first.bytes second.bytes :=
    ⟨fun _ _ avoids => avoids.symm⟩
  by_contra different
  have avoids := (List.pairwise_map.mp memory.apart).forall firstMember secondMember different
  exact Set.disjoint_left.mp avoids inFirst inSecond

namespace Laid

theorem perm (laid : Laid target sizeAt nodes added) (same : nodes.Perm nodes') :
    Laid target sizeAt nodes' added where
  packed := (packed_perm (same.map _)).mp laid.packed
  inside := fun node member => laid.inside node (same.mem_iff.mpr member)
  aligned := fun node member => laid.aligned node (same.mem_iff.mpr member)

/-- Only the size words of the headers matter. -/
theorem congr (laid : Laid target sizeAt nodes added)
    (agree : forall node, node ∈ nodes -> sizeAt' node = sizeAt node) :
    Laid target sizeAt' nodes added where
  packed := by
    rw [map_block_congr target agree]
    exact laid.packed
  inside := by
    intro node member
    rw [block_congr (agree node member)]
    exact laid.inside node member
  aligned := by
    intro node member
    rw [agree node member]
    exact laid.aligned node member

theorem tail (laid : Laid target sizeAt (node :: nodes) added) :
    Laid target sizeAt nodes added where
  packed := (packed_cons.mp laid.packed).2
  inside := fun other member => laid.inside other (List.mem_cons_of_mem _ member)
  aligned := fun other member => laid.aligned other (List.mem_cons_of_mem _ member)

/-- Different headers head disjoint blocks. -/
theorem disjoint_of_mem (laid : Laid target sizeAt (node :: nodes) added)
    {other : Nat} (member : other ∈ nodes) :
    Disjoint (block target sizeAt node) (block target sizeAt other) :=
  disjoint_cover.mp (packed_cons.mp laid.packed).1 _ (List.mem_map_of_mem member)

theorem disjoint_of_ne (laid : Laid target sizeAt nodes added) (leftMember : left ∈ nodes)
    (rightMember : right ∈ nodes) (different : left ≠ right) :
    Disjoint (block target sizeAt left) (block target sizeAt right) := by
  have symmetric : Std.Symm fun first second : Nat =>
      Disjoint (block target sizeAt first) (block target sizeAt second) :=
    ⟨fun _ _ avoids => avoids.symm⟩
  exact (List.pairwise_map.mp laid.packed).forall leftMember rightMember different

theorem head_notMem (laid : Laid target sizeAt (node :: nodes) added) : node ∉ nodes := by
  intro member
  have apart := disjoint_block_iff.mp (laid.disjoint_of_mem member)
  have positive := block_length_pos target sizeAt node
  omega

theorem nodup (laid : Laid target sizeAt nodes added) : nodes.Nodup := by
  induction nodes with
  | nil => exact List.nodup_nil
  | cons node rest inductionHypothesis =>
      exact List.nodup_cons.mpr ⟨laid.head_notMem, inductionHypothesis laid.tail⟩

/-- No address computed from a header leaves the address space. -/
theorem end_lt (laid : Laid target sizeAt nodes added) (memory : Memory target added)
    (member : node ∈ nodes) :
    node + (headerNodeSize target + sizeAt node) < target.wordLimit := by
  have positive := block_length_pos target sizeAt node
  have last : node + (headerNodeSize target + sizeAt node) - 1 ∈ block target sizeAt node := by
    rw [mem_block]
    omega
  rcases laid.inside node member last with ⟨piece, listed, holds⟩
  rcases List.mem_map.mp listed with ⟨region, regionListed, rfl⟩
  have bound := memory.bounded region regionListed
  have reached := (mem_span.mp holds).2
  omega

theorem size_lt (laid : Laid target sizeAt nodes added) (memory : Memory target added)
    (member : node ∈ nodes) : sizeAt node < target.wordLimit := by
  have bound := laid.end_lt memory member
  omega

/-! ### The three ways of changing headers -/

/-- A header placed at the start of a new region heads all of it. -/
theorem extend (laid : Laid target sizeAt nodes added) {region : Allocation}
    (apart : Disjoint region.bytes (cover (added.map Allocation.bytes)))
    (whole : headerNodeSize target + sizeAt' region.ptr = region.size)
    (alignedPtr : target.alignment ∣ region.ptr) (alignedSize : target.alignment ∣ region.size)
    (agree : forall node, node ∈ nodes -> sizeAt' node = sizeAt node) :
    Laid target sizeAt' (region.ptr :: nodes) (region :: added) := by
  have same : block target sizeAt' region.ptr = region.bytes := by
    rw [block, whole, Allocation.bytes]
  have kept := laid.congr agree
  constructor
  · rw [List.map_cons, same]
    refine kept.packed.insert (apart.mono_right ?_)
    rintro address ⟨piece, listed, member⟩
    rcases List.mem_map.mp listed with ⟨node, headed, rfl⟩
    exact kept.inside node headed member
  · intro node member
    rw [List.map_cons, cover_cons]
    rcases List.mem_cons.mp member with rfl | old
    · rw [same]
      exact Set.subset_union_left
    · exact (kept.inside node old).trans Set.subset_union_right
  · intro node member
    rcases List.mem_cons.mp member with rfl | old
    · refine ⟨alignedPtr, ?_⟩
      exact (Nat.dvd_add_right (alignment_dvd_headerNodeSize target)).mp (whole ▸ alignedSize)
    · exact kept.aligned node old

/-- The place of the new header is inside the block that is cut, hence not the
place of another header. -/
theorem cut_agrees (laid : Laid target sizeAt (node :: nodes) added) {kept rest : Nat}
    (whole : sizeAt node = kept + (headerNodeSize target + rest)) :
    forall other, other ∈ nodes -> cut target sizeAt node kept rest other = sizeAt other := by
  intro other member
  have positive := headerNodeSize_pos target
  have avoids := disjoint_block_iff.mp (laid.disjoint_of_mem member)
  have different : other ≠ node := fun same => laid.head_notMem (same ▸ member)
  rw [cut, Function.update_of_ne (by omega), Function.update_of_ne different]

/-- The payload of a block is cut, and a header is placed behind the cut. -/
theorem split (laid : Laid target sizeAt (node :: nodes) added) {kept rest : Nat}
    (whole : sizeAt node = kept + (headerNodeSize target + rest))
    (alignedRest : target.alignment ∣ rest) :
    Laid target (cut target sizeAt node kept rest)
      ((node + (headerNodeSize target + kept)) :: node :: nodes) added := by
  have agree := laid.cut_agrees whole
  have aligned := laid.aligned node List.mem_cons_self
  have alignedKept : target.alignment ∣ kept :=
    (Nat.dvd_add_left (Nat.dvd_add (alignment_dvd_headerNodeSize target) alignedRest)).mp
      (whole ▸ aligned.2)
  have parts := block_cut whole
  have front : block target (cut target sizeAt node kept rest) node ⊆
      block target sizeAt node := parts ▸ Set.subset_union_left
  have behind : block target (cut target sizeAt node kept rest)
      (node + (headerNodeSize target + kept)) ⊆ block target sizeAt node :=
    parts ▸ Set.subset_union_right
  constructor
  · rw [List.map_cons, List.map_cons, map_block_congr target agree]
    refine laid.packed.split ?_ behind front
    rw [disjoint_block_iff, cut_front]
    exact Or.inr (Nat.le_refl _)
  · intro other member
    have within := laid.inside node List.mem_cons_self
    rcases List.mem_cons.mp member with rfl | member
    · exact behind.trans within
    · rcases List.mem_cons.mp member with rfl | old
      · exact front.trans within
      · rw [block_congr (agree other old)]
        exact laid.inside other (List.mem_cons_of_mem _ old)
  · intro other member
    rcases List.mem_cons.mp member with rfl | member
    · rw [cut_behind]
      exact ⟨Nat.dvd_add aligned.1
        (Nat.dvd_add (alignment_dvd_headerNodeSize target) alignedKept), alignedRest⟩
    · rcases List.mem_cons.mp member with rfl | old
      · rw [cut_front]
        exact ⟨aligned.1, alignedKept⟩
      · rw [agree other old]
        exact laid.aligned other (List.mem_cons_of_mem _ old)

/-- A block grows over blocks that lose their headers to it.  The new size word
need not reach the end of what was taken over. -/
theorem absorb {gone : List Nat} {size : Nat}
    (laid : Laid target sizeAt (node :: (gone ++ nodes)) added)
    (aligned : target.alignment ∣ size)
    (within : span node (headerNodeSize target + size) ⊆
      cover ((node :: gone).map (block target sizeAt))) :
    Laid target (Function.update sizeAt node size) (node :: nodes) added := by
  have agree : forall other, other ∈ nodes -> Function.update sizeAt node size other = sizeAt other :=
    update_agrees fun member => laid.head_notMem (List.mem_append_right gone member)
  have same : block target (Function.update sizeAt node size) node =
      span node (headerNodeSize target + size) := by
    rw [block, Function.update_self]
  constructor
  · rw [List.map_cons, map_block_congr target agree, same]
    have packed : Packed ((node :: gone).map (block target sizeAt) ++
        nodes.map (block target sizeAt)) := by
      rw [← List.map_append]
      exact laid.packed
    exact packed.merge within
  · intro other member
    rcases List.mem_cons.mp member with rfl | old
    · rw [same]
      rintro address inside
      rcases within inside with ⟨piece, listed, holds⟩
      rcases List.mem_map.mp listed with ⟨taken, headed, rfl⟩
      have member : taken ∈ other :: (gone ++ nodes) :=
        List.mem_append_left nodes headed
      exact laid.inside taken member holds
    · rw [block_congr (agree other old)]
      exact laid.inside other (List.mem_cons_of_mem _ (List.mem_append_right gone old))
  · intro other member
    rcases List.mem_cons.mp member with rfl | old
    · rw [Function.update_self]
      exact ⟨(laid.aligned other List.mem_cons_self).1, aligned⟩
    · rw [agree other old]
      exact laid.aligned other (List.mem_cons_of_mem _ (List.mem_append_right gone old))

end Laid

/-! ## Accounting -/

/-- Cutting a block loses no byte: the new header is paid for by the payload. -/
theorem occupied_cut (laid : Laid target sizeAt (node :: nodes) added) {kept rest : Nat}
    (whole : sizeAt node = kept + (headerNodeSize target + rest)) :
    occupied target (cut target sizeAt node kept rest)
        ((node + (headerNodeSize target + kept)) :: node :: nodes) =
      occupied target sizeAt (node :: nodes) := by
  rw [occupied_cons, occupied_cons, occupied_cons, occupied_congr (laid.cut_agrees whole),
    cut_front, cut_behind]
  omega

/-- A block that takes over the payloads, but not the headers, of other blocks
loses those headers. -/
theorem occupied_absorb {gone : List Nat}
    (laid : Laid target sizeAt (node :: (gone ++ nodes)) added) :
    occupied target (Function.update sizeAt node (sizeAt node + (gone.map sizeAt).sum))
        (node :: nodes) + gone.length * headerNodeSize target =
      occupied target sizeAt (node :: (gone ++ nodes)) := by
  have agree : forall other, other ∈ nodes ->
      Function.update sizeAt node (sizeAt node + (gone.map sizeAt).sum) other = sizeAt other :=
    update_agrees fun member => laid.head_notMem (List.mem_append_right gone member)
  have split : occupied target sizeAt (gone ++ nodes) =
      gone.length * headerNodeSize target + (gone.map sizeAt).sum + occupied target sizeAt nodes := by
    clear laid agree
    induction gone with
    | nil => simp
    | cons head rest inductionHypothesis =>
        rw [List.cons_append, occupied_cons, inductionHypothesis, List.length_cons, List.map_cons,
          List.sum_cons, Nat.succ_mul]
        omega
  rw [occupied_cons, occupied_cons, occupied_congr agree, Function.update_self, split]
  omega

end Pine
end Pinyon
