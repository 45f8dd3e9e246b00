import Pinyon.Pine.FreeListSafety
import Pinyon.Pine.SlabCells

namespace Pinyon
namespace Pine

open Library

/-!
# Runs of the slab allocator

Memory that is added is cut into chunks.  A chunk becomes a page of cells, or it
is given to `m_free_pages` and holds nodes from then on; `Kept` says that the two
kinds never share a byte.

`add` takes storage for the node of a page after it has seen that a chunk is
left, but when that storage costs a chunk it does not look again.  `LastChunk`
describes the turn in which this goes wrong: the page that is recorded then lies
behind the memory that was added, and the size wraps.
-/

theorem chunkSize_spec (target : Target) (value : ValueSize) :
    pageSize ∣ SlabAllocator.chunkSize target value ∧
      pageSize ≤ SlabAllocator.chunkSize target value := by
  have wide : 12 ≤ target.wordWidth := by
    cases target <;> decide
  have up : forall size, 0 < size -> size + (2 ^ 12 - 1) < 2 ^ target.wordWidth ->
      pageSize ∣ alignUpTwo target.wordWidth size pageSize ∧
        pageSize ≤ alignUpTwo target.wordWidth size pageSize := by
    intro size positive small
    have rounded := alignUpTwo_eq wide (Nat.ne_of_gt positive) small
    rw [show pageSize = 2 ^ 12 from rfl, rounded]
    exact ⟨Nat.dvd_mul_left _ _, Nat.le_mul_of_pos_left _ (Nat.div_pos (by omega) (by decide))⟩
  have bits : value.bitsPerBitmap ≤ 32768 := Nat.sub_le _ _
  have words : divideUp target.wordWidth value.bitsPerBitmap target.wordWidth ≤ 32831 := by
    have narrow : target.wordWidth ≤ 64 := by
      cases target <;> decide
    rw [divideUp]
    refine (Nat.div_le_self _ _).trans ((Nat.mod_le _ _).trans ?_)
    omega
  have bitmapNode := up (SlabAllocator.bitMapNodeSize target value)
    (Nat.add_pos_left (Nat.mul_pos (by decide) target.wordSize_pos) _) (by
      rw [SlabAllocator.bitMapNodeSize]
      cases target <;> simp only [Target.wordSize, Target.wordWidth] at * <;> omega)
  have slabNode := up (SlabAllocator.slabNodeSize target)
    (Nat.mul_pos (by decide) target.wordSize_pos) (by
      cases target <;> decide)
  rw [SlabAllocator.chunkSize]
  rcases Nat.le_total (alignUpTwo target.wordWidth (SlabAllocator.bitMapNodeSize target value)
    pageSize) (alignUpTwo target.wordWidth (SlabAllocator.slabNodeSize target) pageSize) with
    less | more
  · rw [Nat.max_eq_right less]
    exact slabNode
  · rw [Nat.max_eq_left more]
    exact bitmapNode

variable {target : Target} {value : ValueSize} {live chunks storage : List Allocation}

namespace SlabAllocator

variable {slab : SlabAllocator target value}

/-- The chunks that became pages of cells. -/
def pageChunks (slab : SlabAllocator target value) : List Allocation :=
  slab.slabPages.map fun page => ⟨page, chunkSize target value⟩

/-- Everything that was added and is in use, for nodes or for cells. -/
def claimed (slab : SlabAllocator target value) (chunks : List Allocation) : Set Nat :=
  cover ((chunks ++ slab.pageChunks).map Allocation.bytes)

/-- The invariant.  `chunks` is what `m_free_pages` was given and `storage` what
the nodes of the two lists got from it. -/
structure Kept (slab : SlabAllocator target value) (live chunks storage : List Allocation) :
    Prop where
  cells : Cells slab live
  nodes : FreeListUse.Sound target ⟨slab.freePages, storage, chunks⟩
  packed : Packed ((chunks ++ slab.pageChunks).map Allocation.bytes)

theorem Kept.empty (target : Target) (value : ValueSize) :
    Kept (SlabAllocator.empty target value) [] [] [] where
  cells := Cells.empty target value
  nodes := FreeListUse.sound_empty target
  packed := packed_nil

/-- The cells do not depend on the storage of the nodes. -/
theorem Cells.withFreePages (cells : Cells slab live) (freePages : IntrusiveFreeList) :
    Cells { slab with freePages := freePages } live :=
  ⟨cells.aligned, cells.bounded, cells.distinct, cells.counted, cells.small, cells.known,
    cells.nodup⟩

/-- A clear bitmap has nothing to say about the bits in front of it. -/
theorem bitAt_append (slab : SlabAllocator target value) (index : Nat) :
    SlabAllocator.bitAt { slab with
      bitmaps := slab.bitmaps ++ [BitMap.empty target value.bitsPerBitmap] } index = some true <->
    slab.bitAt index = some true := by
  have legal : index % value.bitsPerBitmap < value.bitsPerBitmap :=
    Nat.mod_lt _ (bitsPerBitmap_pos target value)
  rw [bitAt, bitAt]
  dsimp only
  rcases Nat.lt_trichotomy (index / value.bitsPerBitmap) slab.bitmaps.length with
    before | same | behind
  · rw [List.getElem?_append_left before]
  · rw [same, List.getElem?_append_right (Nat.le_refl _), List.getElem?_eq_none (Nat.le_refl _),
      Nat.sub_self]
    constructor
    · intro taken
      have read : (BitMap.empty target value.bitsPerBitmap).bit (index % value.bitsPerBitmap) =
          some true := taken
      have small := BitMap.small_of_bit read
      rw [BitMap.bit_empty (words_pos target value) legal small] at read
      exact absurd read (by decide)
    · intro taken
      exact absurd taken (by simp)
  · rw [List.getElem?_eq_none (Nat.le_of_lt behind), List.getElem?_eq_none (by simp; omega)]

theorem Cells.appendBitmap (cells : Cells slab live) :
    Cells { slab with
      bitmaps := slab.bitmaps ++ [BitMap.empty target value.bitsPerBitmap] } live where
  aligned := cells.aligned
  bounded := cells.bounded
  distinct := cells.distinct
  counted := by
    rw [List.length_append, Nat.add_mul]
    exact Nat.le_add_right_of_le cells.counted
  small := fun index taken => cells.small index ((bitAt_append slab index).mp taken)
  known := by
    intro alloc
    rw [cells.known alloc]
    exact exists_congr fun index => and_congr_left fun _ => (bitAt_append slab index).symm
  nodup := cells.nodup

/-- A page that is appended brings new cells and keeps the old ones. -/
theorem Cells.appendPage (cells : Cells slab live) {page : Nat} (aligned : pageSize ∣ page)
    (bounded : page + pageSize ≤ target.wordLimit) (fresh : page ∉ slab.slabPages)
    (room : slab.numSlabs + value.slabsPerPage ≤ slab.bitmaps.length * value.bitsPerBitmap) :
    Cells { slab with slabPages := slab.slabPages ++ [page] } live where
  aligned := by
    intro other member
    rcases List.mem_append.mp member with old | new
    · exact cells.aligned other old
    · exact List.mem_singleton.mp new ▸ aligned
  bounded := by
    intro other member
    rcases List.mem_append.mp member with old | new
    · exact cells.bounded other old
    · exact List.mem_singleton.mp new ▸ bounded
  distinct := by
    apply List.nodup_append.mpr
    refine ⟨cells.distinct, List.nodup_singleton page, ?_⟩
    intro other old last new
    rw [List.mem_singleton.mp new]
    exact fun same => fresh (same ▸ old)
  counted := by
    rw [numSlabs, List.length_append, Nat.add_mul, List.length_singleton, Nat.one_mul]
    exact room
  small := by
    intro index taken
    rcases cells.small index taken with ⟨inside, small⟩
    refine ⟨Nat.lt_of_lt_of_le inside ?_, small⟩
    apply Nat.mul_le_mul_right
    simp
  known := by
    intro alloc
    rw [cells.known alloc]
    refine exists_congr fun index => and_congr_right fun taken => ?_
    have inside := page_lt.mpr (cells.small index taken).1
    rw [cell, cell]
    dsimp only
    rw [List.getElem?_append_left inside]
  nodup := cells.nodup

end SlabAllocator

namespace SlabAdding

open SlabAllocator (chunkSize bitMapNodeSize slabNodeSize)

variable {adding : SlabAdding target value} {total : Set Nat}

/-- Storage for the node of a page is gone, and the one chunk that is left would
be spent on it. -/
def LastChunk (adding : SlabAdding target value) : Prop :=
  adding.placeBitmap.1 = true ∧ chunkSize target value ≤ adding.placeBitmap.2.size ∧
    adding.placeBitmap.2.size < 2 * chunkSize target value ∧
    (adding.placeBitmap.2.slab.freePages.allocate target (slabNodeSize target)).1.succeeded = false

/-- No turn of the loop is such a turn. -/
def Roomy : Nat -> SlabAdding target value -> Prop
  | 0, _ => True
  | turns + 1, adding =>
      chunkSize target value ≤ adding.size ->
        ¬ adding.LastChunk ∧ (adding.turn.1 = true -> Roomy turns adding.turn.2)

/-- The invariant of the loop: what is still to be added is no one's. -/
structure Sound (adding : SlabAdding target value) (live chunks storage : List Allocation)
    (total : Set Nat) : Prop where
  kept : adding.slab.Kept live chunks storage
  inside : adding.slab.claimed chunks ⊆ total
  left : span adding.ptr adding.size ⊆ total
  apart : Disjoint (span adding.ptr adding.size) (adding.slab.claimed chunks)
  aligned : pageSize ∣ adding.ptr
  nonnull : adding.ptr ≠ 0
  bounded : adding.ptr + adding.size < target.wordLimit

theorem removePageFromVariables_eq (bounded : adding.ptr + adding.size < target.wordLimit)
    (enough : chunkSize target value ≤ adding.size) :
    adding.removePageFromVariables =
      { adding with
        ptr := adding.ptr + chunkSize target value
        size := adding.size - chunkSize target value } := by
  rw [removePageFromVariables, Nat.mod_eq_of_lt (by omega), wordSub_eq enough (by omega)]

/-- The next chunk, and what is left behind it. -/
theorem Sound.chunk_subset (enough : chunkSize target value ≤ adding.size) :
    span adding.ptr (chunkSize target value) ⊆ span adding.ptr adding.size ∧
      span (adding.ptr + chunkSize target value) (adding.size - chunkSize target value) ⊆
        span adding.ptr adding.size :=
  ⟨span_subset (Nat.le_refl _) (by omega), span_subset (by omega) (by omega)⟩

/-- A chunk leaves the variables and is claimed. -/
theorem Sound.claim (sound : Sound adding live chunks storage total)
    (enough : chunkSize target value ≤ adding.size) {slab : SlabAllocator target value}
    {chunks' storage' : List Allocation} (kept : slab.Kept live chunks' storage')
    (claims : slab.claimed chunks' =
      span adding.ptr (chunkSize target value) ∪ adding.slab.claimed chunks) :
    Sound ⟨slab, adding.ptr + chunkSize target value, adding.size - chunkSize target value⟩
      live chunks' storage' total where
  kept := kept
  inside := by
    rw [claims]
    exact Set.union_subset ((chunk_subset enough).1.trans sound.left) sound.inside
  left := (chunk_subset enough).2.trans sound.left
  apart := by
    rw [claims, Set.disjoint_union_right]
    exact ⟨(disjoint_span_of_le (Nat.le_refl _)).symm, sound.apart.mono_left (chunk_subset enough).2⟩
  aligned := Nat.dvd_add sound.aligned (chunkSize_spec target value).1
  nonnull := by
    have nonnull := sound.nonnull
    dsimp only
    omega
  bounded := by
    have bounded := sound.bounded
    dsimp only
    omega

theorem alignment_dvd_pageSize (target : Target) : target.alignment ∣ pageSize := by
  cases target <;> decide

/-- What `m_free_pages` asks of a chunk it is given. -/
theorem Sound.addable (sound : Sound adding live chunks storage total)
    (enough : chunkSize target value ≤ adding.size) :
    Addable target chunks ⟨adding.ptr, chunkSize target value⟩ where
  nonnull := sound.nonnull
  apart := by
    refine (sound.apart.mono_left (chunk_subset enough).1).mono_right ?_
    rw [SlabAllocator.claimed, List.map_append, cover_append]
    exact Set.subset_union_left
  alignedPtr := (alignment_dvd_pageSize target).trans sound.aligned
  alignedSize := (alignment_dvd_pageSize target).trans (chunkSize_spec target value).1
  holdsHeader := by
    refine Nat.le_trans ?_ (chunkSize_spec target value).2
    cases target <;> decide
  bounded := by
    have bounded := sound.bounded
    dsimp only
    omega

theorem Sound.feed (sound : Sound adding live chunks storage total)
    (enough : chunkSize target value ≤ adding.size) :
    Sound adding.feedFreePages live (⟨adding.ptr, chunkSize target value⟩ :: chunks) storage
      total := by
  have apart := sound.apart.mono_left (chunk_subset enough).1
  rw [feedFreePages, removePageFromVariables_eq (by exact sound.bounded) (by exact enough)]
  refine sound.claim enough ⟨sound.kept.cells.withFreePages _,
    sound.kept.nodes.add (sound.addable enough), sound.kept.packed.insert apart⟩ ?_
  exact cover_cons _ _

/-- An allocation from `m_free_pages` concerns only the storage of the nodes. -/
theorem Sound.allocate (sound : Sound adding live chunks storage total) (nodeSize : Nat) :
    Exists fun storage' => Sound
      (adding.withFreePages (adding.slab.freePages.allocate target nodeSize).2) live chunks storage'
      total :=
  ⟨_, { sound with
    kept := ⟨sound.kept.cells.withFreePages _, sound.kept.nodes.allocate nodeSize,
      sound.kept.packed⟩ }⟩

/-- What a request for storage leaves as it was. -/
structure SameLists (adding after : SlabAdding target value) : Prop where
  bitmaps : after.slab.bitmaps = adding.slab.bitmaps
  slabPages : after.slab.slabPages = adding.slab.slabPages

/-- A request for storage succeeds at once, or else it costs the next chunk. -/
theorem Sound.takeNode (sound : Sound adding live chunks storage total)
    (enough : chunkSize target value ≤ adding.size) (nodeSize : Nat) :
    (Exists fun chunks' => Exists fun storage' =>
      Sound (adding.takeNode nodeSize).2 live chunks' storage' total) ∧
    SameLists adding (adding.takeNode nodeSize).2 ∧
    ((adding.takeNode nodeSize).2.size = adding.size ∧ (adding.takeNode nodeSize).1 = true ∨
      (adding.takeNode nodeSize).2.size + chunkSize target value = adding.size ∧
        (adding.slab.freePages.allocate target nodeSize).1.succeeded = false) := by
  rcases sound.allocate nodeSize with ⟨storage', first⟩
  rw [SlabAdding.takeNode]
  dsimp only
  cases served : (adding.slab.freePages.allocate target nodeSize).1.succeeded with
  | true => exact ⟨⟨chunks, storage', first⟩, ⟨rfl, rfl⟩, .inl ⟨rfl, rfl⟩⟩
  | false =>
      have fed := first.feed enough
      rcases fed.allocate nodeSize with ⟨storage'', second⟩
      refine ⟨⟨_, storage'', second⟩, ⟨rfl, rfl⟩, .inr ⟨?_, rfl⟩⟩
      have removed := removePageFromVariables_eq sound.bounded enough
      have size := congrArg SlabAdding.size removed
      exact (congrArg (· + chunkSize target value) size).trans (Nat.sub_add_cancel enough)

theorem Sound.appendBitmap (sound : Sound adding live chunks storage total) :
    Sound adding.appendBitmap live chunks storage total :=
  { sound with
    kept := ⟨sound.kept.cells.appendBitmap, sound.kept.nodes, sound.kept.packed⟩ }

/-- The bitmaps have room for the cells of one more page. -/
def Room (adding : SlabAdding target value) : Prop :=
  adding.slab.numSlabs + value.slabsPerPage ≤ adding.slab.bitmaps.length * value.bitsPerBitmap

theorem room_of_not_needsBitmap (sound : Sound adding live chunks storage total)
    (roomy : ¬ adding.needsBitmap) : adding.Room := by
  have counted := sound.kept.cells.counted
  rw [needsBitmap] at roomy
  rw [Room]
  omega

theorem room_appendBitmap (sound : Sound adding live chunks storage total) :
    adding.appendBitmap.Room := by
  have counted := sound.kept.cells.counted
  have wide : value.slabsPerPage ≤ value.bitsPerBitmap := by
    have cells : value.slabsPerPage ≤ pageSize := Nat.div_le_self _ _
    have remainder : pageSize % value.bytes ≤ pageSize := Nat.mod_le _ _
    rw [ValueSize.bitsPerBitmap, pageSize, charBit] at *
    omega
  rw [Room, SlabAdding.appendBitmap, List.length_append, List.length_singleton, Nat.succ_mul]
  exact Nat.add_le_add counted wide

/-- The next chunk becomes a page of cells. -/
theorem Sound.appendSlabPage (sound : Sound adding live chunks storage total) (room : adding.Room)
    (enough : chunkSize target value ≤ adding.size) :
    Sound adding.appendSlabPage live chunks storage total := by
  have chunk := chunkSize_spec target value
  have apart := sound.apart.mono_left (chunk_subset enough).1
  have bounded := sound.bounded
  have moved : (chunks ++ SlabAllocator.pageChunks { adding.slab with
      slabPages := adding.slab.slabPages ++ [adding.ptr] }).Perm
      (⟨adding.ptr, chunkSize target value⟩ :: (chunks ++ adding.slab.pageChunks)) := by
    rw [SlabAllocator.pageChunks, List.map_append, ← List.append_assoc]
    exact List.perm_append_singleton _ _
  have fresh : adding.ptr ∉ adding.slab.slabPages := by
    intro member
    have here : adding.ptr ∈ span adding.ptr (chunkSize target value) := by
      rw [mem_span, pageSize] at *
      omega
    refine Set.disjoint_left.mp apart here ?_
    have listed : (⟨adding.ptr, chunkSize target value⟩ : Allocation) ∈
        chunks ++ adding.slab.pageChunks :=
      List.mem_append_right _ (List.mem_map_of_mem member)
    exact subset_cover (List.mem_map_of_mem listed) here
  rw [SlabAdding.appendSlabPage, removePageFromVariables_eq bounded enough]
  refine sound.claim enough ⟨?_, sound.kept.nodes, ?_⟩ ?_
  · exact sound.kept.cells.appendPage sound.aligned (by omega) fresh room
  · exact (packed_perm (moved.map _)).mpr (sound.kept.packed.insert apart)
  · exact (cover_perm (moved.map _)).trans (cover_cons _ _)

/-- The first half of the loop body: there is a bitmap with room, or the loop is left. -/
theorem Sound.placeBitmap (sound : Sound adding live chunks storage total)
    (enough : chunkSize target value ≤ adding.size) :
    (Exists fun chunks' => Exists fun storage' =>
      Sound adding.placeBitmap.2 live chunks' storage' total) ∧
    adding.placeBitmap.2.size ≤ adding.size ∧
    (adding.placeBitmap.1 = true -> adding.placeBitmap.2.Room) ∧
      adding.placeBitmap.2.slab.slabPages = adding.slab.slabPages := by
  rw [SlabAdding.placeBitmap]
  by_cases needed : adding.needsBitmap
  · rw [if_pos needed]
    dsimp only
    rcases sound.takeNode enough (bitMapNodeSize target value) with
      ⟨⟨chunks', storage', taken⟩, same, sizes⟩
    have smaller : (adding.takeNode (bitMapNodeSize target value)).2.size ≤ adding.size := by
      rcases sizes with kept | spent
      · exact Nat.le_of_eq kept.1
      · exact Nat.le.intro spent.1
    cases served : (adding.takeNode (bitMapNodeSize target value)).1 with
    | true =>
        rw [if_pos rfl]
        exact ⟨⟨chunks', storage', taken.appendBitmap⟩, smaller,
          fun _ => room_appendBitmap taken, same.slabPages⟩
    | false =>
        rw [if_neg (by decide)]
        exact ⟨⟨chunks', storage', taken⟩, smaller,
          fun wrong => absurd (served.symm.trans wrong) (by decide), same.slabPages⟩
  · rw [if_neg needed]
    exact ⟨⟨chunks, storage, sound⟩, Nat.le_refl _,
      fun _ => room_of_not_needsBitmap sound needed, rfl⟩

/-- A turn that does not meet the last chunk keeps the invariant, and the loop
goes on with at least one chunk less. -/
theorem Sound.turn (sound : Sound adding live chunks storage total)
    (enough : chunkSize target value ≤ adding.size) (roomy : ¬ adding.LastChunk) :
    (Exists fun chunks' => Exists fun storage' =>
      Sound adding.turn.2 live chunks' storage' total) ∧
    (adding.turn.1 = true -> adding.turn.2.size < adding.size) := by
  have chunk := (chunkSize_spec target value).2
  rcases sound.placeBitmap enough with ⟨⟨chunks', storage', placed⟩, smaller, room, _⟩
  rw [SlabAdding.turn]
  by_cases goesOn : adding.placeBitmap.1 = true ∧
      chunkSize target value ≤ adding.placeBitmap.2.size
  · rw [if_pos goesOn, SlabAdding.placeSlabPage]
    rcases placed.takeNode goesOn.2 (slabNodeSize target) with
      ⟨⟨chunks'', storage'', taken⟩, same, sizes⟩
    have roomTaken : (adding.placeBitmap.2.takeNode (slabNodeSize target)).2.Room := by
      rw [Room, SlabAllocator.numSlabs, same.bitmaps, same.slabPages]
      exact room goesOn.1
    have left : chunkSize target value ≤
        (adding.placeBitmap.2.takeNode (slabNodeSize target)).2.size := by
      rcases sizes with kept | spent
      · rw [kept.1]
        exact goesOn.2
      · have many : ¬ adding.placeBitmap.2.size < 2 * chunkSize target value :=
          fun last => roomy ⟨goesOn.1, goesOn.2, last, spent.2⟩
        omega
    cases served : (adding.placeBitmap.2.takeNode (slabNodeSize target)).1 with
    | true =>
        rw [if_pos rfl]
        refine ⟨⟨chunks'', storage'', taken.appendSlabPage roomTaken left⟩, fun _ => ?_⟩
        rw [SlabAdding.appendSlabPage, removePageFromVariables_eq taken.bounded left]
        dsimp only
        rw [pageSize] at chunk
        omega
    | false =>
        rw [if_neg (by decide)]
        exact ⟨⟨chunks'', storage'', taken⟩,
          fun wrong => absurd (served.symm.trans wrong) (by decide)⟩
  · rw [if_neg goesOn]
    exact ⟨⟨chunks', storage', placed⟩, fun wrong => absurd wrong Bool.false_ne_true⟩

/-- The loop keeps the invariant. -/
theorem Sound.loop {slab : SlabAllocator target value} (turns : Nat)
    (sound : Sound adding live chunks storage total) (roomy : Roomy turns adding)
    (outcome : SlabAdding.loop turns adding = some slab) :
    Exists fun chunks' => Exists fun storage' =>
      slab.Kept live chunks' storage' ∧ slab.claimed chunks' ⊆ total := by
  induction turns generalizing adding chunks storage with
  | zero => exact absurd outcome (Option.some_ne_none slab).symm
  | succ turns inductionHypothesis =>
      rw [SlabAdding.loop] at outcome
      by_cases enough : chunkSize target value ≤ adding.size
      · rw [if_pos enough] at outcome
        rcases roomy enough with ⟨room, onward⟩
        rcases (sound.turn enough room).1 with ⟨chunks', storage', next⟩
        by_cases goesOn : adding.turn.1 = true
        · rw [if_pos goesOn] at outcome
          exact inductionHypothesis next (onward goesOn) outcome
        · rw [if_neg goesOn] at outcome
          rw [← Option.some.inj outcome]
          exact ⟨chunks', storage', next.kept, next.inside⟩
      · rw [if_neg enough] at outcome
        rw [← Option.some.inj outcome]
        exact ⟨chunks, storage, sound.kept, sound.inside⟩

/-- The loop ends. -/
theorem Sound.loop_ends (turns : Nat) (sound : Sound adding live chunks storage total)
    (roomy : Roomy turns adding) (many : adding.size < turns) :
    Exists fun slab => SlabAdding.loop turns adding = some slab := by
  induction turns generalizing adding chunks storage with
  | zero => exact absurd many (Nat.not_lt_zero _)
  | succ turns inductionHypothesis =>
      rw [SlabAdding.loop]
      by_cases enough : chunkSize target value ≤ adding.size
      · rw [if_pos enough]
        rcases roomy enough with ⟨room, onward⟩
        rcases sound.turn enough room with ⟨⟨chunks', storage', next⟩, smaller⟩
        by_cases goesOn : adding.turn.1 = true
        · rw [if_pos goesOn]
          have less := smaller goesOn
          exact inductionHypothesis next (onward goesOn) (by omega)
        · rw [if_neg goesOn]
          exact ⟨_, rfl⟩
      · rw [if_neg enough]
        exact ⟨_, rfl⟩

end SlabAdding

/-! ## Sequences of calls -/

/-- A slab allocator with what its callers know. -/
structure SlabUse (target : Target) (value : ValueSize) where
  slab : SlabAllocator target value
  live : List Allocation
  added : List Allocation

inductive SlabCall where
  | add (region : Allocation)
  | allocate
  | free (alloc : Allocation)

/-- What `add` asks of its caller: memory that nobody else uses, from the start of a page on. -/
structure PageAddable (target : Target) (added : List Allocation) (region : Allocation) : Prop where
  nonnull : region.ptr ≠ 0
  apart : Disjoint region.bytes (cover (added.map Allocation.bytes))
  aligned : pageSize ∣ region.ptr
  bounded : region.ptr + region.size < target.wordLimit

namespace SlabUse

def empty (target : Target) (value : ValueSize) : SlabUse target value where
  slab := SlabAllocator.empty target value
  live := []
  added := []

/-- One call that comes to an end.  A failed allocation leaves nothing to free. -/
inductive Step (target : Target) (value : ValueSize) :
    SlabUse target value -> SlabCall -> SlabUse target value -> Prop
  | add (before : SlabUse target value) (region : Allocation)
      (addable : PageAddable target before.added region) (turns : Nat)
      (after : SlabAllocator target value)
      (outcome : before.slab.add turns region.ptr region.size = some after) :
      Step target value before (.add region)
        { before with slab := after, added := region :: before.added }
  | allocate (before : SlabUse target value) (alloc : Allocation)
      (after : SlabAllocator target value)
      (outcome : before.slab.allocate = some (alloc, after)) :
      Step target value before .allocate
        { before with
          slab := after
          live := if alloc.succeeded then alloc :: before.live else before.live }
  | free (before : SlabUse target value) (alloc : Allocation) (member : alloc ∈ before.live)
      (after : SlabAllocator target value) (outcome : before.slab.free alloc = some after) :
      Step target value before (.free alloc)
        { before with slab := after, live := before.live.erase alloc }

/-- The calls that the defects of `BitMap::word` and of `add` do not touch. -/
def Served (use : SlabUse target value) : SlabCall -> Prop
  | .add region => forall turns, SlabAdding.Roomy turns ⟨use.slab, region.ptr, region.size⟩
  | .allocate => use.live.length < target.wordWidth ∨ use.slab.numSlabs ≤ target.wordWidth
  | .free _ => True

variable {before after use : SlabUse target value} {call : SlabCall}

/-- The invariant over runs. -/
def Sound (use : SlabUse target value) : Prop :=
  Exists fun chunks => Exists fun storage => use.slab.Kept use.live chunks storage ∧
    use.slab.claimed chunks ⊆ cover (use.added.map Allocation.bytes)

theorem sound_empty (target : Target) (value : ValueSize) : Sound (empty target value) :=
  ⟨[], [], SlabAllocator.Kept.empty target value, by
    simp [SlabAllocator.claimed, SlabAllocator.pageChunks, empty, SlabAllocator.empty]⟩

/-- The state in which the loop of `add` starts. -/
theorem Sound.adding (sound : Sound before) {region : Allocation}
    (addable : PageAddable target before.added region) :
    Exists fun chunks => Exists fun storage =>
      SlabAdding.Sound ⟨before.slab, region.ptr, region.size⟩ before.live chunks storage
        (cover ((region :: before.added).map Allocation.bytes)) := by
  rcases sound with ⟨chunks, storage, kept, inside⟩
  rw [List.map_cons, cover_cons]
  exact ⟨chunks, storage, kept, inside.trans Set.subset_union_right, Set.subset_union_left,
    addable.apart.mono_right inside, addable.aligned, addable.nonnull, addable.bounded⟩

theorem Sound.allocate (sound : Sound before) {alloc : Allocation}
    {slab : SlabAllocator target value} (outcome : before.slab.allocate = some (alloc, slab)) :
    Sound { before with
      slab := slab
      live := if alloc.succeeded then alloc :: before.live else before.live } := by
  rcases sound with ⟨chunks, storage, kept, inside⟩
  rcases kept.cells.allocate_spec outcome with ⟨_, served, failed, pages, nodes⟩
  have chunksSame : slab.pageChunks = before.slab.pageChunks := by
    rw [SlabAllocator.pageChunks, SlabAllocator.pageChunks, pages]
  refine ⟨chunks, storage, ⟨?_, nodes ▸ kept.nodes, chunksSame ▸ kept.packed⟩, ?_⟩
  · cases success : alloc.succeeded with
    | true => exact (served success).2
    | false => exact (failed success) ▸ kept.cells
  · rw [SlabAllocator.claimed, chunksSame]
    exact inside

theorem Sound.free (sound : Sound before) {alloc : Allocation} (member : alloc ∈ before.live)
    {slab : SlabAllocator target value} (outcome : before.slab.free alloc = some slab) :
    Sound { before with slab := slab, live := before.live.erase alloc } := by
  rcases sound with ⟨chunks, storage, kept, inside⟩
  rcases kept.cells.free_spec member with ⟨after, freed, cells, _, pages, nodes⟩
  have same : after = slab := Option.some.inj (freed.symm.trans outcome)
  subst same
  have chunksSame : after.pageChunks = before.slab.pageChunks := by
    rw [SlabAllocator.pageChunks, SlabAllocator.pageChunks, pages]
  refine ⟨chunks, storage, ⟨cells, nodes ▸ kept.nodes, chunksSame ▸ kept.packed⟩, ?_⟩
  rw [SlabAllocator.claimed, chunksSame]
  exact inside

theorem Sound.step (sound : Sound before) (served : Served before call)
    (stepped : Step target value before call after) : Sound after := by
  cases stepped with
  | add region addable turns slab outcome =>
      rcases sound.adding addable with ⟨chunks, storage, adding⟩
      exact adding.loop turns (served turns) outcome
  | allocate alloc slab outcome => exact sound.allocate outcome
  | free alloc member slab outcome => exact sound.free member outcome

theorem Sound.of_reaches {calls : List SlabCall}
    (reached : Reaches (guarded (Step target value) Served) (empty target value) calls use) :
    Sound use :=
  reached.guarded_invariant Sound (sound_empty target value)
    fun _ _ _ sound served stepped => sound.step served stepped

theorem not_served_allocate : ¬ Served use .allocate <->
    target.wordWidth ≤ use.live.length ∧ target.wordWidth < use.slab.numSlabs := by
  rw [Served, not_or, Nat.not_lt, Nat.not_le]

/-- A page of cells lies in added memory. -/
theorem Sound.page_subset (sound : Sound use) {page : Nat} (member : page ∈ use.slab.slabPages) :
    span page pageSize ⊆ cover (use.added.map Allocation.bytes) := by
  rcases sound with ⟨chunks, storage, kept, inside⟩
  have listed : (⟨page, SlabAllocator.chunkSize target value⟩ : Allocation) ∈
      chunks ++ use.slab.pageChunks :=
    List.mem_append_right _ (List.mem_map_of_mem member)
  refine Set.Subset.trans ?_ ((subset_cover (List.mem_map_of_mem listed)).trans inside)
  exact span_subset (Nat.le_refl _) (Nat.add_le_add_left (chunkSize_spec target value).2 _)

/-- `SlabAllocator` keeps its promises in every run that stays clear of its two
defects: no `allocate` finds all bits of the first word set while there are more
cells than that, and no `add` has to spend its last chunk on the node of a page.
Live allocations are then disjoint cells of the recorded pages; `allocate` reads
an illegal bit just when the condition fails and otherwise succeeds just when a
cell is left; `free` makes exactly the freed cell available; and `add` ends. -/
theorem slabAllocator_safe {calls : List SlabCall}
    (reached : Reaches (guarded (Step target value) Served) (empty target value) calls use) :
    Packed (use.live.map Allocation.bytes) ∧
    (forall alloc, alloc ∈ use.live -> Exists fun page => Exists fun place =>
      page ∈ use.slab.slabPages ∧ place < value.slabsPerPage ∧
        alloc = ⟨page + place * value.bytes, value.bytes⟩) ∧
    (forall page, page ∈ use.slab.slabPages ->
      span page pageSize ⊆ cover (use.added.map Allocation.bytes)) ∧
    (use.slab.allocate = none <-> ¬ Served use .allocate) ∧
    (forall alloc after, use.slab.allocate = some (alloc, after) ->
      (alloc.succeeded = true <-> use.live.length < use.slab.numSlabs) ∧
        (alloc.succeeded = true -> alloc ∈ use.slab.available)) ∧
    (forall alloc, alloc ∈ use.live -> Exists fun after => use.slab.free alloc = some after ∧
      after.available = insert alloc use.slab.available) ∧
    (forall region, PageAddable target use.added region -> Served use (.add region) ->
      Exists fun turns => Exists fun after =>
        use.slab.add turns region.ptr region.size = some after) := by
  have sound := Sound.of_reaches reached
  have pages : forall page, page ∈ use.slab.slabPages ->
      span page pageSize ⊆ cover (use.added.map Allocation.bytes) :=
    fun page member => sound.page_subset member
  have ends : forall region, PageAddable target use.added region -> Served use (.add region) ->
      Exists fun turns => Exists fun after =>
        use.slab.add turns region.ptr region.size = some after := by
    intro region addable served
    rcases sound.adding addable with ⟨chunks, storage, adding⟩
    exact ⟨region.size + 1, adding.loop_ends _ (served _) (Nat.lt_succ_self _)⟩
  rcases sound with ⟨chunks, storage, kept, inside⟩
  refine ⟨kept.cells.packed, fun alloc member => kept.cells.placed member, pages, ?_, ?_, ?_, ends⟩
  · rw [not_served_allocate]
    exact kept.cells.allocate_eq_none_iff
  · intro alloc after outcome
    have known := kept.cells.allocate_spec outcome
    exact ⟨known.1, fun succeeded => (known.2.1 succeeded).1⟩
  · intro alloc member
    rcases kept.cells.free_spec member with ⟨after, outcome, _, available, _⟩
    exact ⟨after, outcome, available⟩

/-! ## One run -/

/-- With less than a chunk left, the loop does not turn. -/
theorem roomy_of_small {adding : SlabAdding target value}
    (small : adding.size < SlabAllocator.chunkSize target value) (turns : Nat) :
    SlabAdding.Roomy turns adding := by
  cases turns with
  | zero => trivial
  | succ turns => exact fun enough => absurd enough (Nat.not_le.mpr small)

/-- Values of thirty-two bytes, of which a page holds 128. -/
def thirtyTwo : ValueSize := ⟨32, by decide, by decide⟩

theorem added_two_chunks : Exists fun use : SlabUse .aarch64 thirtyTwo =>
    Reaches (guarded (Step .aarch64 thirtyTwo) Served) (empty .aarch64 thirtyTwo)
      [.add ⟨8192, 16384⟩] use ∧ use.live = [] ∧ use.slab.numSlabs = 128 := by
  have addable : PageAddable .aarch64 (empty .aarch64 thirtyTwo).added ⟨8192, 16384⟩ :=
    ⟨by decide, by simp [empty], by decide, by decide⟩
  have served : Served (empty .aarch64 thirtyTwo) (.add ⟨8192, 16384⟩) := by
    intro turns
    cases turns with
    | zero => trivial
    | succ turns =>
        intro enough
        refine ⟨?_, fun _ => roomy_of_small (by decide +kernel) turns⟩
        unfold SlabAdding.LastChunk
        decide +kernel
  have ended : ((empty .aarch64 thirtyTwo).slab.add 2 8192 16384).map
      SlabAllocator.numSlabs = some 128 := by
    decide +kernel
  rcases Option.map_eq_some_iff.mp ended with ⟨after, outcome, many⟩
  exact ⟨_, .tail .refl ⟨served, .add _ _ addable 2 _ outcome⟩, rfl, many⟩

/-- One word's worth of allocations is served. -/
theorem allocates {calls : List SlabCall} (count : Nat)
    (reached : Reaches (guarded (Step target value) Served) (empty target value) calls use)
    (few : use.live.length + count ≤ target.wordWidth)
    (many : target.wordWidth < use.slab.numSlabs) : Exists fun final =>
      Reaches (guarded (Step target value) Served) (empty target value)
        (List.replicate count .allocate ++ calls) final ∧
      final.live.length = use.live.length + count ∧ final.slab.numSlabs = use.slab.numSlabs := by
  induction count with
  | zero => exact ⟨use, reached, rfl, rfl⟩
  | succ count inductionHypothesis =>
      rcases inductionHypothesis (by omega) with ⟨middle, run, length, slabs⟩
      have served : Served middle .allocate := .inl (by omega)
      rcases Sound.of_reaches run with ⟨chunks, storage, kept, _⟩
      cases result : middle.slab.allocate with
      | none =>
          have full := kept.cells.allocate_eq_none_iff.mp result
          omega
      | some outcome =>
          rcases outcome with ⟨alloc, after⟩
          have known := kept.cells.allocate_spec result
          have succeeded := known.1.mpr (by omega)
          refine ⟨_, .tail run ⟨served, .allocate _ alloc after result⟩, ?_, ?_⟩
          · rw [if_pos succeeded, List.length_cons, length]
            omega
          · rw [← slabs, SlabAllocator.numSlabs, SlabAllocator.numSlabs, known.2.2.2.1]

/-- Two chunks are added and a cell is allocated. -/
theorem slabAllocator_safe_cell : Exists fun use : SlabUse .aarch64 thirtyTwo =>
    use.live.length = 1 ∧ Packed (use.live.map Allocation.bytes) := by
  rcases added_two_chunks with ⟨use, reached, idle, many⟩
  have few : use.live.length + 1 ≤ Target.aarch64.wordWidth := by
    rw [idle]
    decide
  rcases allocates 1 reached few (by rw [many]; decide) with ⟨final, run, length, _⟩
  refine ⟨final, ?_, (slabAllocator_safe run).1⟩
  rw [length, idle]
  rfl

/-- With sixty-four cells taken of 128, the next allocation shifts by the width of
the word instead of handing out a cell. -/
theorem bitmap_word_exhausted : Exists fun use : SlabUse .aarch64 thirtyTwo =>
    Reaches (Step .aarch64 thirtyTwo) (empty .aarch64 thirtyTwo)
      (List.replicate 64 .allocate ++ [.add ⟨8192, 16384⟩]) use ∧
    use.live.length = 64 ∧ use.slab.numSlabs = 128 ∧ use.slab.allocate = none := by
  rcases added_two_chunks with ⟨use, reached, idle, many⟩
  have few : use.live.length + 64 ≤ Target.aarch64.wordWidth := by
    rw [idle]
    decide
  rcases allocates 64 reached few (by rw [many]; decide) with ⟨final, run, length, slabs⟩
  rw [idle, List.length_nil, Nat.zero_add] at length
  rcases Sound.of_reaches run with ⟨chunks, storage, kept, _⟩
  refine ⟨final, run.of_guarded, length, slabs.trans many, ?_⟩
  apply kept.cells.allocate_eq_none_iff.mpr
  rw [length, slabs, many]
  decide

end SlabUse

end Pine
end Pinyon
