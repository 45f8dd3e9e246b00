import Pinyon.Kernel.MmuAllocator
import Pinyon.Pine.SlabSafety

namespace Pinyon
namespace Kernel
namespace Mmu

open Pine

/-!
# The stock of L2 tables

The slab allocator of the tables is given half a megabyte at boot.  The first
chunk of it holds the nodes, each of the 63 others a page of four tables.  Of
these tables only the first 32 can be handed out, because the bitmap can read no
more bits.
-/

/-! ## A free list that is one block -/

structure OneBlock (list : IntrusiveFreeList) (node size : Nat) : Prop where
  only : list.freeList = [node]
  size : list.sizeAt node = size

/-- A request is cut off from the front of the block. -/
theorem OneBlock.allocate {list : IntrusiveFreeList} {node size : Nat}
    (block : OneBlock list node size) {requestedSize kept : Nat} (aligned : 8 ∣ size)
    (small : size < 2 ^ 32) (keptAligned : 8 ∣ kept) (covers : requestedSize ≤ kept)
    (tight : kept < requestedSize + 8) (roomy : kept + 24 < size) (positive : 0 < kept) :
    (list.allocate .aarch32 requestedSize).1.succeeded = true ∧
      OneBlock (list.allocate .aarch32 requestedSize).2 (node + 16 + kept) (size - kept - 16) := by
  have found : list.freeList.find? (fun node => requestedSize ≤ list.sizeAt node) = some node := by
    rw [block.only, List.find?_cons_of_pos]
    rw [block.size, decide_eq_true_eq]
    omega
  have remaining : alignDownTwo Target.aarch32.wordWidth (size - requestedSize)
      Target.aarch32.alignment = size - kept := by
    rw [alignDownTwo_alignment (by
      rw [Target.wordLimit]
      exact Nat.lt_of_le_of_lt (Nat.sub_le _ _) small)]
    rw [show Target.aarch32.alignment = 8 from rfl]
    omega
  have large : IntrusiveFreeList.minAllocationSize .aarch32 Target.aarch32.alignment < size - kept := by
    rw [minAllocationSize_alignment, show Target.aarch32.alignment + headerNodeSize .aarch32 = 24 from rfl]
    omega
  have keptSize : size - (size - kept) = kept := by omega
  have rest : wordSub .aarch32 (size - kept) (headerNodeSize .aarch32) = size - kept - 16 := by
    rw [wordSub_eq (by rw [show headerNodeSize .aarch32 = 16 from rfl]; omega)
      (Nat.lt_of_le_of_lt (Nat.sub_le _ _) small)]
    rfl
  have nodes : ([node] ++ [node + 16 + kept]).erase node = [node + 16 + kept] := by
    rw [List.singleton_append, List.erase_cons_head]
  rw [IntrusiveFreeList.allocate, found]
  dsimp only
  rw [block.size, remaining, if_pos large, keptSize]
  refine ⟨bne_iff_ne.mpr (Nat.ne_of_gt positive), ?_, ?_⟩
  · rw [block.only]
    exact nodes
  · exact (Function.update_self _ _ _).trans rest

/-! ## Adding memory -/

theorem chunkSize_l2Table : SlabAllocator.chunkSize .aarch32 l2TableSize = 8192 := by
  decide

abbrev L2TableAdding := SlabAdding .aarch32 l2TableSize

/-- There is room for the bits of the given number of pages. -/
def RoomFor (adding : L2TableAdding) (count : Nat) : Prop :=
  adding.slab.numSlabs + 4 * count ≤ adding.slab.bitmaps.length * l2TableSize.bitsPerBitmap

theorem placeBitmap_of_room {adding : L2TableAdding} {count : Nat}
    (room : RoomFor adding (count + 1)) : adding.placeBitmap = (true, adding) := by
  have enough : ¬ adding.needsBitmap := by
    rw [SlabAdding.needsBitmap, show l2TableSize.slabsPerPage = 4 from rfl]
    rw [RoomFor] at room
    omega
  rw [SlabAdding.placeBitmap, if_neg enough]

/-- The next chunk becomes a page of tables, and its node is cut off the block. -/
theorem placeSlabPage_of_block {adding : L2TableAdding} {node size : Nat}
    (block : OneBlock adding.slab.freePages node size) (aligned : 8 ∣ size) (small : size < 2 ^ 32)
    (roomy : 40 < size) : Exists fun freePages => OneBlock freePages (node + 32) (size - 32) ∧
      adding.placeSlabPage = (true, (adding.withFreePages freePages).appendSlabPage) := by
  rcases block.allocate aligned small (Dvd.intro 2 rfl) (by decide : 12 ≤ 16) (by decide)
    (by omega) (by decide) with ⟨served, cut⟩
  refine ⟨_, cut, ?_⟩
  rw [SlabAdding.placeSlabPage, SlabAdding.takeNode,
    show SlabAllocator.slabNodeSize .aarch32 = 12 from rfl]
  dsimp only
  rw [if_pos served, if_pos rfl]

theorem turn_of_block {adding : L2TableAdding} {node size count : Nat}
    (enough : 8192 ≤ adding.size) (room : RoomFor adding (count + 1))
    (block : OneBlock adding.slab.freePages node size) (aligned : 8 ∣ size) (small : size < 2 ^ 32)
    (roomy : 40 < size) : Exists fun freePages => OneBlock freePages (node + 32) (size - 32) ∧
      adding.turn = (true, (adding.withFreePages freePages).appendSlabPage) := by
  rcases placeSlabPage_of_block block aligned small roomy with ⟨freePages, cut, placed⟩
  refine ⟨freePages, cut, ?_⟩
  rw [SlabAdding.turn, placeBitmap_of_room room, chunkSize_l2Table]
  dsimp only
  rw [if_pos ⟨rfl, enough⟩, placed]

/-- The pages of so many chunks, from an address on. -/
def pagesFrom (ptr count : Nat) : List Nat :=
  (List.range count).map fun chunk => ptr + chunk * 8192

@[simp]
theorem pagesFrom_zero (ptr : Nat) : pagesFrom ptr 0 = [] := rfl

theorem pagesFrom_succ (ptr count : Nat) :
    pagesFrom ptr (count + 1) = ptr :: pagesFrom (ptr + 8192) count := by
  rw [pagesFrom, List.range_succ_eq_map, List.map_cons, List.map_map, Nat.zero_mul, Nat.add_zero]
  refine congrArg (List.cons ptr) (List.map_congr_left fun chunk _ => ?_)
  rw [Function.comp_apply, Nat.succ_mul]
  omega

/-- With storage for all nodes, every chunk becomes a page of tables. -/
theorem loop_of_block (count turns : Nat) (many : count < turns) (adding : L2TableAdding)
    (node size : Nat) (whole : adding.size = count * 8192) (few : count < 2 ^ 19)
    (bounded : adding.ptr + count * 8192 ≤ 2 ^ 32) (room : RoomFor adding count)
    (block : OneBlock adding.slab.freePages node size) (aligned : 8 ∣ size) (small : size < 2 ^ 32)
    (roomy : 32 * count + 40 < size) : Exists fun freePages => SlabAdding.loop turns adding =
      some ⟨adding.slab.bitmaps, adding.slab.slabPages ++ pagesFrom adding.ptr count, freePages⟩ := by
  induction count generalizing turns adding node size with
  | zero =>
      cases turns with
      | zero => exact absurd many (Nat.lt_irrefl 0)
      | succ turns =>
          rw [SlabAdding.loop, chunkSize_l2Table, if_neg (by omega)]
          refine ⟨adding.slab.freePages, ?_⟩
          rw [pagesFrom, List.range_zero, List.map_nil, List.append_nil]
  | succ count inductionHypothesis =>
      cases turns with
      | zero => exact absurd many (Nat.not_lt_zero _)
      | succ turns =>
          rcases turn_of_block (by omega) room block aligned small (by omega) with
            ⟨freePages, cut, turned⟩
          have left : wordSub .aarch32 adding.size 8192 = count * 8192 := by
            rw [wordSub_eq (by omega) (by rw [Target.wordLimit, Target.wordWidth]; omega), whole]
            omega
          have moved : (adding.ptr + 8192) % 2 ^ 32 ≤ adding.ptr + 8192 := Nat.mod_le _ _
          have roomLeft : RoomFor (adding.withFreePages freePages).appendSlabPage count := by
            rw [RoomFor, SlabAllocator.numSlabs] at room ⊢
            have pages : (adding.withFreePages freePages).appendSlabPage.slab.slabPages.length =
                adding.slab.slabPages.length + 1 := List.length_append
            rw [pages, show l2TableSize.slabsPerPage = 4 from rfl] at *
            refine Nat.le_trans ?_ room
            omega
          rcases inductionHypothesis turns (by omega) (adding.withFreePages freePages).appendSlabPage
            (node + 32) (size - 32) left (by omega) (by
              refine Nat.le_trans (Nat.add_le_add_right moved _) ?_
              omega) roomLeft cut (by omega) (by omega) (by omega) with ⟨final, looped⟩
          refine ⟨final, ?_⟩
          rw [SlabAdding.loop, chunkSize_l2Table, if_pos (by omega), turned]
          dsimp only
          have pages : pagesFrom ((adding.ptr + 8192) % 2 ^ 32) count =
              pagesFrom (adding.ptr + 8192) count := by
            cases count with
            | zero => rw [pagesFrom_zero, pagesFrom_zero]
            | succ count => rw [Nat.mod_eq_of_lt (by omega)]
          have appended : (adding.slab.slabPages ++ [adding.ptr]) ++
              pagesFrom ((adding.ptr + 8192) % 2 ^ 32) count =
                adding.slab.slabPages ++ pagesFrom adding.ptr (count + 1) := by
            rw [pages, pagesFrom_succ, List.append_assoc, List.singleton_append]
          rw [if_pos rfl, looped, ← appended]
          rfl

/-- A chunk that is given to the empty free list is one block, from which the
node of the bitmap is cut. -/
theorem takeNode_of_empty (ptr size : Nat) : Exists fun freePages =>
    OneBlock freePages (ptr + 16 + 4104) 4056 ∧
    SlabAdding.takeNode ⟨SlabAllocator.empty .aarch32 l2TableSize, ptr, size⟩ 4104 =
      (true, ⟨⟨[], [], freePages⟩, (ptr + 8192) % 2 ^ 32, wordSub .aarch32 size 8192⟩) := by
  have fed : OneBlock (IntrusiveFreeList.empty.add .aarch32 ptr 8192) ptr 8176 := by
    refine ⟨rfl, ?_⟩
    exact (Function.update_self _ _ _).trans (by decide)
  rcases fed.allocate (by decide) (by decide) (by decide : 8 ∣ 4104) (Nat.le_refl _) (by decide)
    (by decide) (by decide) with ⟨served, cut⟩
  refine ⟨_, cut, ?_⟩
  have nothing : (IntrusiveFreeList.empty.allocate .aarch32 4104) = ({}, IntrusiveFreeList.empty) :=
    rfl
  rw [SlabAdding.takeNode]
  dsimp only
  rw [show (SlabAllocator.empty .aarch32 l2TableSize).freePages = IntrusiveFreeList.empty from rfl,
    nothing, if_neg (by decide)]
  refine Prod.ext served ?_
  rfl

theorem loop_congr {first second : L2TableAdding} (turns : Nat) (firstEnough : 8192 ≤ first.size)
    (secondEnough : 8192 ≤ second.size) (same : first.turn = second.turn) :
    SlabAdding.loop (turns + 1) first = SlabAdding.loop (turns + 1) second := by
  rw [SlabAdding.loop, SlabAdding.loop, chunkSize_l2Table, if_pos firstEnough,
    if_pos secondEnough, same]

/-- The allocator once the first chunk holds its bitmap. -/
def withBitmap (freePages : IntrusiveFreeList) (ptr size : Nat) : L2TableAdding where
  slab := ⟨[BitMap.empty .aarch32 l2TableSize.bitsPerBitmap], [], freePages⟩
  ptr := ptr
  size := size

theorem roomFor_withBitmap (freePages : IntrusiveFreeList) (ptr size : Nat) :
    RoomFor (withBitmap freePages ptr size) 63 := by
  rw [RoomFor, SlabAllocator.numSlabs]
  simp only [withBitmap, List.length_nil, List.length_singleton, Nat.zero_mul, Nat.zero_add,
    Nat.one_mul]
  decide

theorem loop_withBitmap {freePages : IntrusiveFreeList} {node start : Nat} (turns : Nat)
    (many : 63 ≤ turns) (block : OneBlock freePages node 4056) (fits : start + 63 * 8192 ≤ 2 ^ 32) :
    Exists fun final => SlabAdding.loop (turns + 1) (withBitmap freePages start (63 * 8192)) =
      some ⟨[BitMap.empty .aarch32 l2TableSize.bitsPerBitmap], pagesFrom start 63, final⟩ := by
  exact loop_of_block 63 (turns + 1) (Nat.lt_succ_of_le many) _ _ _ rfl (by norm_num) fits
    (roomFor_withBitmap _ _ _) block (by norm_num) (by norm_num) (by norm_num)

/-- The first turn feeds the free list with a chunk, which holds the bitmap and has
room for the nodes of 63 pages. -/
theorem placeBitmap_of_empty (ptr : Nat) (bounded : ptr + 524288 ≤ 2 ^ 32) :
    Exists fun freePages => OneBlock freePages (ptr + 16 + 4104) 4056 ∧
      SlabAdding.placeBitmap ⟨SlabAllocator.empty .aarch32 l2TableSize, ptr, 524288⟩ =
        (true, withBitmap freePages (ptr + 8192) (63 * 8192)) := by
  rcases takeNode_of_empty ptr 524288 with ⟨freePages, block, taken⟩
  have moved : (ptr + 8192) % 2 ^ 32 = ptr + 8192 := Nat.mod_eq_of_lt (by omega)
  have left : wordSub .aarch32 524288 8192 = 63 * 8192 := by
    decide
  have needed : SlabAdding.needsBitmap
      ⟨SlabAllocator.empty .aarch32 l2TableSize, ptr, 524288⟩ := by
    rw [SlabAdding.needsBitmap, SlabAllocator.numSlabs]
    simp only [SlabAllocator.empty, List.length_nil, Nat.zero_mul, Nat.zero_sub]
    decide
  refine ⟨freePages, block, ?_⟩
  rw [SlabAdding.placeBitmap, if_pos needed,
    show SlabAllocator.bitMapNodeSize .aarch32 l2TableSize = 4104 from by decide, taken, moved, left]
  rfl

theorem add_half_megabyte {ptr turns : Nat} (many : 63 ≤ turns) (bounded : ptr + 524288 ≤ 2 ^ 32) :
    Exists fun slab =>
      (SlabAllocator.empty .aarch32 l2TableSize).add (turns + 1) ptr 524288 = some slab ∧
      slab.bitmaps = [BitMap.empty .aarch32 l2TableSize.bitsPerBitmap] ∧
      slab.slabPages = pagesFrom (ptr + 8192) 63 := by
  rcases placeBitmap_of_empty ptr bounded with ⟨freePages, block, placed⟩
  have fits : ptr + 8192 + 63 * 8192 ≤ 2 ^ 32 := by linarith only [bounded]
  rcases loop_withBitmap turns many block fits with ⟨final, looped⟩
  have room : RoomFor (withBitmap freePages (ptr + 8192) (63 * 8192)) 63 :=
    roomFor_withBitmap freePages _ _
  refine ⟨⟨_, pagesFrom (ptr + 8192) 63, final⟩, Eq.trans ?_ looped, rfl, rfl⟩
  apply loop_congr turns
  · norm_num
  · norm_num [withBitmap]
  · rw [SlabAdding.turn, SlabAdding.turn, placed, placeBitmap_of_room room]

/-! ## The stock after boot -/

theorem scratchRegion_length (codeEnd : Nat) :
    (asPageRegion .aarch32 (scratchRegion codeEnd)).length = 256 := by
  change 1 * (sectionSize / pageSize) % Target.aarch32.wordLimit = 256
  decide

/-- The memory for the tables is half a megabyte, and aligned to that. -/
theorem pageScratchRegion_fits (codeEnd : Nat) :
    (pageScratchRegion codeEnd).size .aarch32 = 524288 ∧
      524288 ∣ (pageScratchRegion codeEnd).ptr .aarch32 0 ∧
      (pageScratchRegion codeEnd).ptr .aarch32 0 + 524288 ≤ 2 ^ 32 := by
  have whole : (524288 : Nat) ∣ 2 ^ 32 := by norm_num
  have eighth : (128 : Nat) ∣ 2 ^ 32 := by norm_num
  have offset : 128 ∣ (pageScratchRegion codeEnd).offset := by
    rw [pageScratchRegion, Region.halve, scratchRegion_length]
    refine (Nat.dvd_mod_iff eighth).mpr (Nat.dvd_add ?_ (by norm_num))
    refine (Nat.dvd_mod_iff eighth).mpr (Dvd.dvd.mul_left ?_ _)
    norm_num [sectionSize, pageSize]
  have size : (pageScratchRegion codeEnd).size .aarch32 = 524288 := by
    rw [Region.size, pageScratchRegion, Region.halve, scratchRegion_length]
    change (256 / 2 + 256 % 2) * pageSize % Target.aarch32.wordLimit = 524288
    decide
  have aligned : 524288 ∣ (pageScratchRegion codeEnd).ptr .aarch32 0 := by
    refine (Nat.dvd_mod_iff whole).mpr ?_
    rw [Nat.add_zero, show (524288 : Nat) = 128 * pageSize by norm_num [pageSize]]
    exact Nat.mul_dvd_mul_right offset pageSize
  refine ⟨size, aligned, ?_⟩
  have small : (pageScratchRegion codeEnd).ptr .aarch32 0 < 2 ^ 32 := Nat.mod_lt _ (Nat.two_pow_pos _)
  rcases aligned with ⟨number, same⟩
  rw [same] at small ⊢
  omega

/-- An allocator with a clear bitmap and distinct pages has handed out nothing. -/
theorem cells_of_clear {slab : L2TableAllocator}
    (bitmaps : slab.bitmaps = [BitMap.empty .aarch32 l2TableSize.bitsPerBitmap]) {ptr : Nat}
    (slabPages : slab.slabPages = pagesFrom ptr 63) (aligned : pageSize ∣ ptr)
    (bounded : ptr + 63 * 8192 ≤ 2 ^ 32) : SlabAllocator.Cells slab [] := by
  have member : forall page, page ∈ slab.slabPages -> Exists fun chunk => chunk < 63 ∧
      page = ptr + chunk * 8192 := by
    intro page listed
    rw [slabPages, pagesFrom, List.mem_map] at listed
    rcases listed with ⟨chunk, inside, rfl⟩
    exact ⟨chunk, List.mem_range.mp inside, rfl⟩
  have many : slab.numSlabs = 252 := by
    rw [SlabAllocator.numSlabs, slabPages, pagesFrom, List.length_map, List.length_range]
    rfl
  have clear : forall index, slab.bitAt index ≠ some true := by
    intro index taken
    have same : slab.bitAt index = SlabAllocator.bitAt
        { SlabAllocator.empty .aarch32 l2TableSize with
          bitmaps := [] ++ [BitMap.empty .aarch32 l2TableSize.bitsPerBitmap] } index := by
      rw [SlabAllocator.bitAt, SlabAllocator.bitAt, bitmaps, List.nil_append]
    rw [same] at taken
    have before := (SlabAllocator.bitAt_append (SlabAllocator.empty _ _) index).mp taken
    simp [SlabAllocator.bitAt, SlabAllocator.empty] at before
  refine ⟨?_, ?_, ?_, ?_, fun index taken => absurd taken (clear index), ?_, List.nodup_nil⟩
  · intro page listed
    rcases member page listed with ⟨chunk, _, rfl⟩
    exact Nat.dvd_add aligned (Dvd.dvd.mul_left (by norm_num [pageSize]) chunk)
  · intro page listed
    rcases member page listed with ⟨chunk, few, rfl⟩
    rw [pageSize, Target.wordLimit, Target.wordWidth]
    omega
  · rw [slabPages, pagesFrom]
    refine List.nodup_range.map fun first second same => ?_
    omega
  · rw [many, bitmaps, List.length_singleton]
    decide
  · intro alloc
    refine ⟨fun wrong => absurd wrong List.not_mem_nil, ?_⟩
    rintro ⟨index, taken, _⟩
    exact absurd taken (clear index)

/-- The invariant: the live tables are those that were handed out, and every L1
entry that points to a table points to one of them. -/
structure Stocked (mmu : PageAllocator) (live : List Allocation) : Prop where
  cells : SlabAllocator.Cells mmu.l2TableAllocator live
  many : mmu.l2TableAllocator.numSlabs = 252
  spare : mmu.spareFreeL2Page = 0
  pointed : forall slot, L1Type.ofEntry (mmu.tables.l1Table slot) = .L2Ptr ->
    Exists fun alloc => alloc ∈ live ∧ alloc.ptr = L2Ptr.l2Table (mmu.tables.l1Table slot)

theorem stocked_start {memory : Nat -> L2Table} {codeEnd : Nat} {mmu : PageAllocator}
    (started : startPageTables memory codeEnd = some mmu) : Stocked mmu [] := by
  rw [startPageTables] at started
  rcases Option.bind_eq_some_iff.mp started with ⟨physical, _, started⟩
  rcases Option.bind_eq_some_iff.mp started with ⟨physicalDevices, _, started⟩
  rcases Option.bind_eq_some_iff.mp started with ⟨virtual, _, started⟩
  rcases Option.bind_eq_some_iff.mp started with ⟨slab, added, started⟩
  rcases pageScratchRegion_fits codeEnd with ⟨size, aligned, fits⟩
  rw [size] at added
  rcases add_half_megabyte (by norm_num : 63 ≤ 524288) fits with ⟨same, outcome, bitmaps, slabPages⟩
  rw [added, Option.some.injEq] at outcome
  subst outcome
  cases started
  have cells : SlabAllocator.Cells slab [] := by
    apply cells_of_clear bitmaps slabPages
    · refine Nat.dvd_add (Dvd.dvd.trans ?_ aligned) ?_ <;> norm_num [pageSize]
    · linarith only [fits]
  refine ⟨cells, ?_, rfl, ?_⟩
  · rw [SlabAllocator.numSlabs, slabPages, pagesFrom, List.length_map, List.length_range]
    rfl
  · intro slot pointed
    exact absurd ((ofEntry_empty_l1 slot).symm.trans pointed) (by decide)

variable {mmu after : PageAllocator} {live : List Allocation} {alloc : Allocation}

/-- A live table lies where the entries can point to. -/
theorem Stocked.placed (stocked : Stocked mmu live) (member : alloc ∈ live) :
    2 ^ 10 ∣ alloc.ptr ∧ alloc.ptr < 2 ^ 32 := by
  rcases stocked.cells.placed member with ⟨page, place, listed, small, rfl⟩
  have aligned := stocked.cells.aligned page listed
  have bounded := stocked.cells.bounded page listed
  have few : place < 4 := small
  rw [Target.wordLimit, Target.wordWidth, pageSize] at *
  change 2 ^ 10 ∣ page + place * 1024 ∧ page + place * 1024 < 2 ^ 32
  omega

/-- Two live tables at one address are one. -/
theorem Stocked.ptr_injective (stocked : Stocked mmu live) {other : Allocation}
    (member : alloc ∈ live) (otherMember : other ∈ live) (same : alloc.ptr = other.ptr) :
    alloc = other := by
  rcases stocked.cells.placed member with ⟨page, place, _, _, rfl⟩
  rcases stocked.cells.placed otherMember with ⟨otherPage, otherPlace, _, _, rfl⟩
  exact congrArg (Allocation.mk · _) same

/-- The allocator never runs out of tables: before that it fails to read a bit. -/
theorem Stocked.allocate (stocked : Stocked mmu live) {slab : L2TableAllocator}
    (outcome : mmu.l2TableAllocator.allocate = some (alloc, slab)) :
    alloc.succeeded = true ∧ SlabAllocator.Cells slab (alloc :: live) ∧ slab.numSlabs = 252 := by
  have few : live.length < 252 := by
    have read : mmu.l2TableAllocator.allocate ≠ none := by
      rw [outcome]
      exact Option.some_ne_none _
    rw [Ne, stocked.cells.allocate_eq_none_iff, stocked.many, Target.wordWidth] at read
    omega
  rcases stocked.cells.allocate_spec outcome with ⟨served, given, _, pages, _⟩
  rw [stocked.many] at served
  have succeeded := served.mpr few
  refine ⟨succeeded, (given succeeded).2, ?_⟩
  rw [SlabAllocator.numSlabs, pages]
  exact stocked.many

/-- A table that is reserved was not handed out before, and nothing but the
allocator has changed. -/
theorem Stocked.reserve {depth : Nat} (stocked : Stocked mmu live)
    (ran : PageAllocator.tryReserveL2TableEntry depth mmu = some (alloc, after)) :
    alloc.succeeded = true ∧ Stocked after (alloc :: live) ∧
      after = { mmu with l2TableAllocator := after.l2TableAllocator } := by
  cases depth with
  | zero => exact absurd ran (Option.some_ne_none _).symm
  | succ depth =>
      rw [PageAllocator.tryReserveL2TableEntry] at ran
      rcases Option.bind_eq_some_iff.mp ran with ⟨⟨l2Alloc, slab⟩, outcome, ran⟩
      rcases stocked.allocate outcome with ⟨succeeded, cells, many⟩
      dsimp only at ran
      rw [if_pos succeeded] at ran
      cases ran
      refine ⟨succeeded, ⟨cells, many, stocked.spare, ?_⟩, rfl⟩
      intro slot pointed
      rcases stocked.pointed slot pointed with ⟨other, member, here⟩
      exact ⟨other, List.mem_cons_of_mem _ member, here⟩

end Mmu
end Kernel
end Pinyon
