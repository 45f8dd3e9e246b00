import Pinyon.Kernel.Mmu
import Pinyon.Pine.PageBroker

namespace Pinyon
namespace Kernel
namespace Mmu

open Pine

/-!
# The allocator of mapped pages

`mmu::PageAllocator` takes pages from an allocator of physical pages and from one
of virtual pages, and records in the page tables which belongs to which.  L2
tables come from a slab allocator.  When that has none left, a page is reserved
for it, which has to be recorded in turn.

A panic, and everything that the code does with an address that is not there, is
an error, `none`.
-/

/-- `sizeof(L2Table)`. -/
def l2TableSize : ValueSize :=
  ⟨1024, by decide, by decide⟩

/-- The broker of an ARMv7 build. -/
abbrev RegionBroker := PageBroker (SlabAllocator .aarch32 (regionNode .aarch32))

abbrev L2TableAllocator := SlabAllocator .aarch32 l2TableSize

/-- `L2Table::num_entries`. -/
def l2NumEntries : Nat := 256

inductive Backing where
  | Mixed
  | Identity
deriving DecidableEq, Repr

structure PageAllocator where
  physicalPageAllocator : RegionBroker
  virtualPageAllocator : RegionBroker
  tables : PageTables
  l2TableAllocator : L2TableAllocator
  /-- `m_spare_free_l2_page`, where `0` is `nullptr`. -/
  spareFreeL2Page : Nat

/-! ## Recording

The loops over the tables, from an offset on. -/

def recordSections (physRegion virtRegion : SectionRegion) :
    Nat -> Nat -> PageTables -> Option PageTables
  | 0, _, tables => some tables
  | turns + 1, l1Offset, tables =>
      let virtPtr := virtRegion.ptr .aarch32 l1Offset
      let physPtr := physRegion.ptr .aarch32 l1Offset
      match L1Type.ofEntry (tables.l1Table (L1Table.slot virtPtr)) with
      | .Fault =>
          recordSections physRegion virtRegion turns (l1Offset + 1)
            (tables.setL1 (L1Table.slot virtPtr) (Section.entry physPtr))
      | _ => none

/-- The inner loop, over the pages that go into one L2 table. -/
def recordPages (physRegion virtRegion : PageRegion) (l2Table l1Offset : Nat) :
    Nat -> Nat -> PageTables -> Option PageTables
  | 0, _, tables => some tables
  | turns + 1, l2Offset, tables =>
      if l1Offset * l2NumEntries + l2Offset < virtRegion.length then
        let virtPtr := virtRegion.ptr .aarch32 (l1Offset * l2NumEntries + l2Offset)
        let physPtr := physRegion.ptr .aarch32 (l1Offset * l2NumEntries + l2Offset)
        match L2Type.ofEntry (tables.l2Tables l2Table (L2Table.slot virtPtr)) with
        | .Fault =>
            recordPages physRegion virtRegion l2Table l1Offset turns (l2Offset + 1)
              (tables.setL2 l2Table (L2Table.slot virtPtr) (Page.entry physPtr))
        | _ => none
      else some tables

namespace PageAllocator

/-- What `try_reserve_l2_table_entry` is called as. -/
abbrev ReserveTable := PageAllocator -> Option (Allocation × PageAllocator)

def tryRecordSectionInL1 (mmu : PageAllocator) (physRegion virtRegion : SectionRegion) :
    Option (Bool × PageAllocator) :=
  if physRegion.length ≠ virtRegion.length then some (false, mmu)
  else do
    let tables <- recordSections physRegion virtRegion virtRegion.length 0 mmu.tables
    return (true, { mmu with tables })

/-- The backing, or else a table that is reserved. -/
def obtainL2Table (reserveTable : ReserveTable) (mmu : PageAllocator) (l2Backing : Nat) :
    Option (Option Nat × PageAllocator) :=
  if l2Backing ≠ 0 then some (some l2Backing, mmu)
  else do
    let (l2TableAlloc, mmu) <- reserveTable mmu
    return (if l2TableAlloc.succeeded then some l2TableAlloc.ptr else none, mmu)

/-- The table that the L1 entry of an address points to, which is made to point to
one if need be. -/
def l2TableOf (reserveTable : ReserveTable) (mmu : PageAllocator) (virtPtr l2Backing : Nat) :
    Option (Option Nat × PageAllocator) :=
  let entry := mmu.tables.l1Table (L1Table.slot virtPtr)
  match L1Type.ofEntry entry with
  | .Section => none
  | .SuperSection => none
  | .L2Ptr => some (some (L2Ptr.l2Table entry), mmu)
  | .Fault => do
      match <- mmu.obtainL2Table reserveTable l2Backing with
      | (none, mmu) => return (none, mmu)
      | (some l2Table, mmu) =>
          let tables := (mmu.tables.newL2Table l2Table).setL1 (L1Table.slot virtPtr)
            (L2Ptr.entry l2Table)
          return (some l2Table, { mmu with tables })

/-- The outer loop. -/
def recordSlots (reserveTable : ReserveTable) (physRegion virtRegion : PageRegion)
    (l2Backing : Nat) : Nat -> Nat -> PageAllocator -> Option (Bool × PageAllocator)
  | 0, _, mmu => some (true, mmu)
  | turns + 1, l1Offset, mmu => do
      let virtPtr := virtRegion.ptr .aarch32 (l1Offset * l2NumEntries)
      match <- mmu.l2TableOf reserveTable virtPtr l2Backing with
      | (none, mmu) => return (false, mmu)
      | (some l2Table, mmu) =>
          let tables <- recordPages physRegion virtRegion l2Table l1Offset l2NumEntries 0 mmu.tables
          recordSlots reserveTable physRegion virtRegion l2Backing turns (l1Offset + 1)
            { mmu with tables }

/-- The number of L1 entries that the outer loop walks. -/
def numL1EntriesToWalk (virtRegion : PageRegion) : Nat :=
  divideUp Target.aarch32.wordWidth (virtRegion.size .aarch32) sectionSize

def recordPagesInL1 (reserveTable : ReserveTable) (mmu : PageAllocator)
    (physRegion virtRegion : PageRegion) (l2Backing : Nat) : Option (Bool × PageAllocator) :=
  recordSlots reserveTable physRegion virtRegion l2Backing (numL1EntriesToWalk virtRegion) 0 mmu

/-! ## Reserving -/

/-- The switch of `try_reserve_page_unrecorded`, in which a region that is not free
is a panic. -/
def backVirtual (mmu : PageAllocator) (numPages : Nat) (physRegion : PageRegion) :
    Backing -> Option (Allocation × RegionBroker)
  | .Mixed => mmu.virtualPageAllocator.allocate .aarch32 (slabNodes .aarch32) numPages .Page
  | .Identity => do
      let (virtAlloc, virtual) <-
        mmu.virtualPageAllocator.reserveRegion .aarch32 (slabNodes .aarch32) physRegion
      if virtAlloc.succeeded then return (virtAlloc, virtual) else none

/-- The switch of `try_reserve_region_unrecorded`. -/
def backPhysical (mmu : PageAllocator) (numPages : Nat) (virtRegion : PageRegion) :
    Backing -> Option (Allocation × RegionBroker)
  | .Mixed => mmu.physicalPageAllocator.allocate .aarch32 (slabNodes .aarch32) numPages .Page
  | .Identity =>
      mmu.physicalPageAllocator.reserveRegion .aarch32 (slabNodes .aarch32) virtRegion

def tryReservePageUnrecorded (mmu : PageAllocator) (numPages : Nat) (alignment : PageAlignmentLevel)
    (backing : Backing) : Option ((Allocation × Allocation) × PageAllocator) := do
  let (physAlloc, physical) <-
    mmu.physicalPageAllocator.allocate .aarch32 (slabNodes .aarch32) numPages alignment
  if physAlloc.succeeded then
    let physRegion : PageRegion := Region.fromPtr .aarch32 pageSize physAlloc.ptr physAlloc.size
    let (virtAlloc, virtual) <- mmu.backVirtual numPages physRegion backing
    let mmu := { mmu with physicalPageAllocator := physical, virtualPageAllocator := virtual }
    if virtAlloc.succeeded then return ((physAlloc, virtAlloc), mmu)
    else
      let physical <- physical.free .aarch32 (slabNodes .aarch32) physAlloc
      return (({}, {}), { mmu with physicalPageAllocator := physical })
  else return (({}, {}), { mmu with physicalPageAllocator := physical })

def tryReserveRegionUnrecorded (mmu : PageAllocator) (region : PageRegion) (backing : Backing) :
    Option ((Allocation × Allocation) × PageAllocator) := do
  let (virtAlloc, virtual) <-
    mmu.virtualPageAllocator.reserveRegion .aarch32 (slabNodes .aarch32) region
  if virtAlloc.succeeded then
    let virtRegion : PageRegion := Region.fromPtr .aarch32 pageSize virtAlloc.ptr virtAlloc.size
    let (physAlloc, physical) <- mmu.backPhysical region.length virtRegion backing
    let mmu := { mmu with physicalPageAllocator := physical, virtualPageAllocator := virtual }
    if physAlloc.succeeded then return ((physAlloc, virtAlloc), mmu)
    else
      let virtual <- virtual.free .aarch32 (slabNodes .aarch32) virtAlloc
      return (({}, {}), { mmu with virtualPageAllocator := virtual })
  else return (({}, {}), { mmu with virtualPageAllocator := virtual })

/-- `try_reserve_l2_table_entry`, as long as it is not called from within itself
more often than the given number of times. -/
def tryReserveL2TableEntry : Nat -> ReserveTable
  | 0, _ => none
  | depth + 1, mmu => do
      let (l2Alloc, l2TableAllocator) <- mmu.l2TableAllocator.allocate
      let mmu := { mmu with l2TableAllocator }
      if l2Alloc.succeeded then return (l2Alloc, mmu)
      let ((alloc, _), mmu) <- mmu.tryReservePageUnrecorded 1 .Page .Identity
      if alloc.succeeded then
        let region : PageRegion := Region.fromPtr .aarch32 pageSize alloc.ptr alloc.size
        let (recorded, mmu) <-
          mmu.recordPagesInL1 (tryReserveL2TableEntry depth) region region mmu.spareFreeL2Page
        if recorded then
          let l2TableAllocator <- mmu.l2TableAllocator.add (alloc.size + 1) alloc.ptr alloc.size
          let (alloc, l2TableAllocator) <- l2TableAllocator.allocate
          let (spare, l2TableAllocator) <- l2TableAllocator.allocate
          return (alloc, { mmu with l2TableAllocator, spareFreeL2Page := spare.ptr })
        else none
      else return ({}, mmu)

def tryRecordPageInL1 (depth : Nat) (mmu : PageAllocator) (physRegion virtRegion : PageRegion)
    (l2Backing : Nat) : Option (Bool × PageAllocator) :=
  mmu.recordPagesInL1 (tryReserveL2TableEntry depth) physRegion virtRegion l2Backing

/-! ## Requests -/

/-- What every request does with what it has reserved: when it cannot be recorded,
the physical allocation is given back to both allocators. -/
def recordOrFree {magnitude : Nat}
    (record : Region magnitude -> Region magnitude -> PageAllocator -> Option (Bool × PageAllocator)) :
    (Allocation × Allocation) × PageAllocator ->
      Option ((Region magnitude × Region magnitude) × PageAllocator)
  | ((physAlloc, virtAlloc), mmu) =>
      if physAlloc.succeeded then do
        let physRegion := Region.fromPtr .aarch32 magnitude physAlloc.ptr physAlloc.size
        let virtRegion := Region.fromPtr .aarch32 magnitude virtAlloc.ptr virtAlloc.size
        let (recorded, mmu) <- record physRegion virtRegion mmu
        if recorded then return ((physRegion, virtRegion), mmu)
        else
          let physical <- mmu.physicalPageAllocator.free .aarch32 (slabNodes .aarch32) physAlloc
          let virtual <- mmu.virtualPageAllocator.free .aarch32 (slabNodes .aarch32) physAlloc
          return ((physRegion, virtRegion),
            { mmu with physicalPageAllocator := physical, virtualPageAllocator := virtual })
      else some (({}, {}), mmu)

/-- How `reserve_region` records, which first insists on equal lengths. -/
def recordEqualPages (depth : Nat) (physRegion virtRegion : PageRegion) (mmu : PageAllocator) :
    Option (Bool × PageAllocator) :=
  if virtRegion.length ≠ physRegion.length then none
  else mmu.tryRecordPageInL1 depth physRegion virtRegion 0

def recordPagesOnce (depth : Nat) (physRegion virtRegion : PageRegion) (mmu : PageAllocator) :
    Option (Bool × PageAllocator) :=
  mmu.tryRecordPageInL1 depth physRegion virtRegion 0

def recordSectionsOnce (physRegion virtRegion : SectionRegion) (mmu : PageAllocator) :
    Option (Bool × PageAllocator) :=
  mmu.tryRecordSectionInL1 physRegion virtRegion

def reserveRegion (depth : Nat) (mmu : PageAllocator) (region : PageRegion) (backing : Backing) :
    Option ((PageRegion × PageRegion) × PageAllocator) := do
  let reserved <- mmu.tryReserveRegionUnrecorded region backing
  recordOrFree (recordEqualPages depth) reserved

def reserveSectionRegion (mmu : PageAllocator) (region : SectionRegion) (backing : Backing) :
    Option ((SectionRegion × SectionRegion) × PageAllocator) := do
  let reserved <- mmu.tryReserveRegionUnrecorded (asPageRegion .aarch32 region) backing
  recordOrFree recordSectionsOnce reserved

def allocatePages (depth : Nat) (mmu : PageAllocator) (numPages : Nat)
    (alignment : PageAlignmentLevel) (backing : Backing) :
    Option ((PageRegion × PageRegion) × PageAllocator) := do
  let reserved <- mmu.tryReservePageUnrecorded numPages alignment backing
  recordOrFree (recordPagesOnce depth) reserved

/-- `allocate`, but for the zeroes that it fills the memory with. -/
def allocate (depth : Nat) (mmu : PageAllocator) (size : Nat) :
    Option (Allocation × PageAllocator) := do
  let numPages := alignUpTwo Target.aarch32.wordWidth size pageSize / pageSize
  let ((_, virtRegion), mmu) <- mmu.allocatePages depth numPages .Page .Mixed
  return (virtRegion.allocation .aarch32, mmu)

/-- `free` does nothing but panic. -/
def free (_ : PageAllocator) (_ : Allocation) : Option PageAllocator :=
  none

/-! ## Booting -/

/-- `init`, with the memory in which tables will be placed as it happens to be. -/
def init (physical virtual : RegionBroker) (scratchPages : PageRegion) (memory : Nat -> L2Table) :
    Option PageAllocator := do
  let l2TableAllocator <- (SlabAllocator.empty .aarch32 l2TableSize).add
    (scratchPages.size .aarch32 + 1) (scratchPages.ptr .aarch32 0) (scratchPages.size .aarch32)
  return {
    physicalPageAllocator := physical
    virtualPageAllocator := virtual
    tables := ⟨L1Table.empty, memory⟩
    l2TableAllocator
    spareFreeL2Page := 0 }

end PageAllocator

/-- `PHYSICAL_MEMORY_END_PAGES`. -/
def physicalMemoryEndPages : Nat := 131072

/-- `MEMORY_END_PAGES`. -/
def memoryEndPages : Nat := 1048576

/-- From `DEVICES_START` to `DEVICES_END`. -/
def deviceRegion : SectionRegion :=
  Region.fromRange sectionSize 0x3C000000 0x40000000

/-- The sections from the first one to the end of the code. -/
def codeRegion (codeEnd : Nat) : SectionRegion :=
  Region.fromRange sectionSize 0 (alignUpTwo Target.aarch32.wordWidth codeEnd sectionSize)

def l1Region (codeEnd : Nat) : SectionRegion :=
  ⟨(codeRegion codeEnd).endOffset .aarch32, 1⟩

def scratchRegion (codeEnd : Nat) : SectionRegion :=
  ⟨(l1Region codeEnd).endOffset .aarch32, 1⟩

/-- The second half of the scratch region is for L2 tables, the quarters of the
first half for the two page allocators. -/
def pageScratchRegion (codeEnd : Nat) : PageRegion :=
  ((asPageRegion .aarch32 (scratchRegion codeEnd)).halve .aarch32).2

def pvScratchRegion (codeEnd : Nat) : PageRegion :=
  ((asPageRegion .aarch32 (scratchRegion codeEnd)).halve .aarch32).1

/-- The first part of `init_page_tables`, in which everything is initialized. -/
def startPageTables (memory : Nat -> L2Table) (codeEnd : Nat) : Option PageAllocator := do
  let (physScratchRegion, virtScratchRegion) := (pvScratchRegion codeEnd).halve .aarch32
  let physical <- PageBroker.init .aarch32 (slabNodes .aarch32) (SlabAllocator.empty _ _)
    ⟨0, physicalMemoryEndPages⟩ physScratchRegion
  let physical <- physical.add .aarch32 (slabNodes .aarch32) (asPageRegion .aarch32 deviceRegion)
  let virtual <- PageBroker.init .aarch32 (slabNodes .aarch32) (SlabAllocator.empty _ _)
    ⟨0, memoryEndPages⟩ virtScratchRegion
  PageAllocator.init physical virtual (pageScratchRegion codeEnd) memory

/-- `init_page_tables`, which does not look at what its requests return. -/
def initPageTables (memory : Nat -> L2Table) (codeEnd : Nat) : Option PageAllocator := do
  let mmu <- startPageTables memory codeEnd
  let (_, mmu) <- mmu.reserveSectionRegion (codeRegion codeEnd) .Identity
  let (_, mmu) <- mmu.reserveSectionRegion (l1Region codeEnd) .Identity
  let (_, mmu) <- mmu.reserveSectionRegion (scratchRegion codeEnd) .Mixed
  let (_, mmu) <- mmu.reserveSectionRegion deviceRegion .Identity
  return mmu

/-! ## What reserving and freeing leave alone -/

namespace PageAllocator

variable {before after mmu : PageAllocator} {physAlloc virtAlloc : Allocation}

/-- Only the two page allocators differ. -/
structure SameRecords (before after : PageAllocator) : Prop where
  tables : after.tables = before.tables
  l2TableAllocator : after.l2TableAllocator = before.l2TableAllocator
  spare : after.spareFreeL2Page = before.spareFreeL2Page

theorem SameRecords.refl (mmu : PageAllocator) : SameRecords mmu mmu :=
  ⟨rfl, rfl, rfl⟩

theorem tryReservePageUnrecorded_same {numPages : Nat} {alignment : PageAlignmentLevel}
    {backing : Backing} {allocs : Allocation × Allocation}
    (ran : mmu.tryReservePageUnrecorded numPages alignment backing = some (allocs, after)) :
    SameRecords mmu after := by
  simp only [tryReservePageUnrecorded, Option.bind_eq_bind, Option.bind_eq_some_iff] at ran
  rcases ran with ⟨⟨physAlloc, physical⟩, _, ran⟩
  dsimp only at ran
  split at ran
  · rcases Option.bind_eq_some_iff.mp ran with ⟨⟨virtAlloc, virtual⟩, _, ran⟩
    dsimp only at ran
    split at ran
    · cases ran
      exact ⟨rfl, rfl, rfl⟩
    · rcases Option.bind_eq_some_iff.mp ran with ⟨freed, _, ran⟩
      cases ran
      exact ⟨rfl, rfl, rfl⟩
  · cases ran
    exact ⟨rfl, rfl, rfl⟩

theorem tryReserveRegionUnrecorded_same {region : PageRegion} {backing : Backing}
    {allocs : Allocation × Allocation}
    (ran : mmu.tryReserveRegionUnrecorded region backing = some (allocs, after)) :
    SameRecords mmu after := by
  simp only [tryReserveRegionUnrecorded, Option.bind_eq_bind, Option.bind_eq_some_iff] at ran
  rcases ran with ⟨⟨virtAlloc, virtual⟩, _, ran⟩
  dsimp only at ran
  split at ran
  · rcases Option.bind_eq_some_iff.mp ran with ⟨⟨physAlloc, physical⟩, _, ran⟩
    dsimp only at ran
    split at ran
    · cases ran
      exact ⟨rfl, rfl, rfl⟩
    · rcases Option.bind_eq_some_iff.mp ran with ⟨freed, _, ran⟩
      cases ran
      exact ⟨rfl, rfl, rfl⟩
  · cases ran
    exact ⟨rfl, rfl, rfl⟩

/-- Whether or not its regions could be recorded, a request returns them. -/
theorem recordOrFree_spec {magnitude : Nat}
    {record : Region magnitude -> Region magnitude -> PageAllocator -> Option (Bool × PageAllocator)}
    {pair : Region magnitude × Region magnitude} (succeeded : physAlloc.succeeded = true)
    (ran : recordOrFree record ((physAlloc, virtAlloc), mmu) = some (pair, after)) :
    pair = (Region.fromPtr .aarch32 magnitude physAlloc.ptr physAlloc.size,
      Region.fromPtr .aarch32 magnitude virtAlloc.ptr virtAlloc.size) ∧
    Exists fun recorded => Exists fun middle =>
      record pair.1 pair.2 mmu = some (recorded, middle) ∧ SameRecords middle after := by
  rw [recordOrFree, if_pos succeeded] at ran
  rcases Option.bind_eq_some_iff.mp ran with ⟨⟨recorded, middle⟩, answer, ran⟩
  dsimp only at ran
  split at ran
  · cases ran
    exact ⟨rfl, recorded, _, answer, .refl _⟩
  · rcases Option.bind_eq_some_iff.mp ran with ⟨physical, _, ran⟩
    rcases Option.bind_eq_some_iff.mp ran with ⟨virtual, _, ran⟩
    cases ran
    exact ⟨rfl, recorded, _, answer, ⟨rfl, rfl, rfl⟩⟩

end PageAllocator

end Mmu
end Kernel
end Pinyon
