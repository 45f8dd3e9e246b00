import Pinyon.Library.History
import Pinyon.Kernel.MmuRecording
import Pinyon.Kernel.MmuRollback

namespace Pinyon
namespace Kernel
namespace Mmu

open Pine Library

/-!
# The supply of L2 tables

Every megabyte in which pages are recorded needs an L2 table.  The code means to
reserve a page for four more of them when none is left.  It never gets there:
after 32 tables the search for a free one shifts by the width of a word.

What would happen otherwise is no better.  The page that is reserved has half the
size of the smallest chunk that the allocator of the tables takes.
-/

variable {mmu before middle after : PageAllocator} {live : List Allocation} {depth : Nat}

/-! ## What requests keep -/

theorem Stocked.of_same (stocked : Stocked before live) (same : before.SameRecords after) :
    Stocked after live where
  cells := same.l2TableAllocator ▸ stocked.cells
  many := same.l2TableAllocator ▸ stocked.many
  spare := same.spare.trans stocked.spare
  pointed := by
    rw [same.tables]
    exact stocked.pointed

/-- A request that needs no table keeps the live ones. -/
theorem Stocked.recordOrFree {magnitude : Nat}
    {record : Region magnitude -> Region magnitude -> PageAllocator -> Option (Bool × PageAllocator)}
    {allocs : Allocation × Allocation} {pair : Region magnitude × Region magnitude}
    (stocked : Stocked before live) (property : List Allocation -> Prop) (enough : property live)
    (keeps : forall physRegion virtRegion recorded after,
      record physRegion virtRegion before = some (recorded, after) ->
        Exists fun liveAfter => Stocked after liveAfter ∧ property liveAfter)
    (ran : PageAllocator.recordOrFree record (allocs, before) = some (pair, after)) :
    Exists fun liveAfter => Stocked after liveAfter ∧ property liveAfter := by
  rcases allocs with ⟨physAlloc, virtAlloc⟩
  cases succeeded : physAlloc.succeeded with
  | false =>
      rw [PageAllocator.recordOrFree, succeeded, if_neg Bool.false_ne_true] at ran
      cases ran
      exact ⟨live, stocked, enough⟩
  | true =>
      rcases PageAllocator.recordOrFree_spec succeeded ran with ⟨_, recorded, middle, answer, same⟩
      rcases keeps _ _ recorded middle answer with ⟨liveAfter, stockedAfter, holds⟩
      exact ⟨liveAfter, stockedAfter.of_same same, holds⟩

/-- Requests for sections take no table. -/
theorem Stocked.reserveSectionRegion {region : SectionRegion} {backing : Backing}
    {pair : SectionRegion × SectionRegion} (stocked : Stocked before live)
    (ran : before.reserveSectionRegion region backing = some (pair, after)) :
    Stocked after live := by
  rcases Option.bind_eq_some_iff.mp ran with ⟨⟨allocs, reserved⟩, unrecorded, ran⟩
  have stockedReserved := stocked.of_same
    (PageAllocator.tryReserveRegionUnrecorded_same unrecorded)
  have keeps : forall physRegion virtRegion recorded final,
      PageAllocator.recordSectionsOnce physRegion virtRegion reserved = some (recorded, final) ->
        Exists fun liveAfter => Stocked final liveAfter ∧ liveAfter = live :=
    fun physRegion virtRegion recorded final answer =>
      ⟨live, (stockedReserved.tryRecordSectionInL1 answer).1.stocked, rfl⟩
  rcases stockedReserved.recordOrFree (fun liveAfter => liveAfter = live) rfl keeps ran with
    ⟨liveAfter, stockedAfter, rfl⟩
  exact stockedAfter

/-- Every request keeps the stock, whichever tables it takes. -/
theorem Stocked.perform {request : Request} {pair : Region request.magnitude × Region request.magnitude}
    (stocked : Stocked before live) (ran : request.perform depth before = some (pair, after)) :
    Exists fun liveAfter => Stocked after liveAfter := by
  rw [Request.perform_eq] at ran
  rcases Option.bind_eq_some_iff.mp ran with ⟨⟨allocs, reserved⟩, unrecorded, ran⟩
  have same : before.SameRecords reserved := by
    cases request with
    | allocatePages numPages alignment backing =>
        exact PageAllocator.tryReservePageUnrecorded_same unrecorded
    | reserveRegion region backing =>
        exact PageAllocator.tryReserveRegionUnrecorded_same unrecorded
    | reserveSectionRegion region backing =>
        exact PageAllocator.tryReserveRegionUnrecorded_same unrecorded
  have stockedReserved := stocked.of_same same
  have pages : forall (physRegion virtRegion : PageRegion) recorded final,
      reserved.tryRecordPageInL1 depth physRegion virtRegion 0 = some (recorded, final) ->
        Exists fun liveAfter => Stocked final liveAfter := by
    intro physRegion virtRegion recorded final answer
    rcases (stockedReserved.tryRecordPageInL1 answer).2.1 with ⟨liveAfter, advances⟩
    exact ⟨liveAfter, advances.stocked⟩
  have keeps : forall physRegion virtRegion recorded final,
      request.record depth physRegion virtRegion reserved = some (recorded, final) ->
        Exists fun liveAfter => Stocked final liveAfter ∧ True := by
    intro physRegion virtRegion recorded final answer
    cases request with
    | allocatePages numPages alignment backing =>
        exact (pages _ _ _ _ answer).imp fun _ stocked => ⟨stocked, trivial⟩
    | reserveRegion region backing =>
        have equal : PageAllocator.recordEqualPages depth physRegion virtRegion reserved =
            some (recorded, final) := answer
        unfold PageAllocator.recordEqualPages at equal
        split at equal
        · cases equal
        · exact (pages _ _ _ _ equal).imp fun _ stocked => ⟨stocked, trivial⟩
    | reserveSectionRegion region backing =>
        exact ⟨live, (stockedReserved.tryRecordSectionInL1 answer).1.stocked, trivial⟩
  exact (stockedReserved.recordOrFree (fun _ => True) trivial keeps ran).imp fun _ both => both.1

/-- Booting takes no table. -/
theorem stocked_init {memory : Nat -> L2Table} {codeEnd : Nat}
    (booted : initPageTables memory codeEnd = some mmu) : Stocked mmu [] := by
  rcases Option.bind_eq_some_iff.mp booted with ⟨started, start, booted⟩
  rcases Option.bind_eq_some_iff.mp booted with ⟨⟨_, code⟩, first, booted⟩
  rcases Option.bind_eq_some_iff.mp booted with ⟨⟨_, l1⟩, second, booted⟩
  rcases Option.bind_eq_some_iff.mp booted with ⟨⟨_, scratch⟩, third, booted⟩
  rcases Option.bind_eq_some_iff.mp booted with ⟨⟨_, device⟩, fourth, booted⟩
  cases booted
  have stocked := stocked_start start
  exact (((stocked.reserveSectionRegion first).reserveSectionRegion second).reserveSectionRegion
    third).reserveSectionRegion fourth

/-! ## Runs -/

inductive MmuCall where
  | request (request : Request)
  | allocate (size : Nat)
  | free (alloc : Allocation)

/-- A call that comes to an end, which none to `free` does. -/
inductive MmuStep : PageAllocator -> MmuCall -> PageAllocator -> Prop
  | request {before after : PageAllocator} (request : Request) (depth : Nat)
      (pair : Region request.magnitude × Region request.magnitude)
      (performed : request.perform depth before = some (pair, after)) :
      MmuStep before (.request request) after
  | allocate {before after : PageAllocator} (size depth : Nat) (alloc : Allocation)
      (performed : before.allocate depth size = some (alloc, after)) :
      MmuStep before (.allocate size) after
  | free {before after : PageAllocator} (alloc : Allocation)
      (performed : before.free alloc = some after) : MmuStep before (.free alloc) after

theorem Stocked.step {call : MmuCall} (stocked : Stocked before live)
    (stepped : MmuStep before call after) : Exists fun liveAfter => Stocked after liveAfter := by
  cases stepped with
  | request request depth pair performed => exact stocked.perform performed
  | allocate size depth alloc performed =>
      rcases Option.bind_eq_some_iff.mp performed with ⟨⟨pair, final⟩, ran, performed⟩
      cases performed
      exact @Stocked.perform _ _ _ _ (.allocatePages _ .Page .Mixed) pair stocked ran
  | free alloc performed => cases performed

theorem Stocked.of_reaches {memory : Nat -> L2Table} {codeEnd : Nat} {calls : List MmuCall}
    (booted : initPageTables memory codeEnd = some mmu) (reached : Reaches MmuStep mmu calls after) :
    Exists fun live => Stocked after live :=
  reached.invariant (fun mmu => Exists fun live => Stocked mmu live) ⟨[], stocked_init booted⟩
    fun _ _ _ stocked stepped => stocked.elim fun _ stocked => stocked.step stepped

/-! ## The supply -/

/-- The tables that an L1 entry points to, and the spare. -/
def PageAllocator.tablesInUse (mmu : PageAllocator) : Set Nat :=
  fun table => (Exists fun slot => L1Type.ofEntry (mmu.tables.l1Table slot) = .L2Ptr ∧
    L2Ptr.l2Table (mmu.tables.l1Table slot) = table) ∨
      (mmu.spareFreeL2Page ≠ 0 ∧ mmu.spareFreeL2Page = table)

/-- A table is found whenever a page is free in both allocators, no one else has
it, and the pages that were taken for tables are known to their allocator. -/
structure PageAllocator.Supplied (before : PageAllocator) (alloc : Allocation)
    (after : PageAllocator) : Prop where
  fresh : (Exists fun page => page ∈ freePages before.physicalPageAllocator ∧
      page ∈ freePages before.virtualPageAllocator) ->
    alloc.succeeded = true ∧ alloc.ptr ∉ before.tablesInUse ∧
      (after.spareFreeL2Page ≠ 0 -> alloc.ptr ≠ after.spareFreeL2Page)
  available : forall page, page ∈ freePages before.physicalPageAllocator ->
    page ∉ freePages after.physicalPageAllocator -> page ∈ after.tablePages

/-- `try_reserve_l2_table_entry` ends without a panic, and supplies a table. -/
def PageAllocator.Supplies (mmu : PageAllocator) : Prop :=
  Exists fun depth => Exists fun alloc => Exists fun after =>
    PageAllocator.tryReserveL2TableEntry depth mmu = some (alloc, after) ∧ mmu.Supplied alloc after

/-- One of the first 32 tables is not taken. -/
def PageAllocator.TableLeft (mmu : PageAllocator) : Prop :=
  Exists fun index => index < 32 ∧ mmu.l2TableAllocator.bitAt index = some false

theorem Stocked.few_of_left (stocked : Stocked mmu live) (left : mmu.TableLeft) :
    live.length < 32 := by
  rcases left with ⟨index, small, clear⟩
  refine stocked.cells.length_lt small ?_ fun other taken => (stocked.cells.small other taken).2
  rw [clear]
  decide

/-- With fewer than 32 live tables, the search succeeds at once and nothing else
changes. -/
theorem Stocked.reserves (stocked : Stocked mmu live) (few : live.length < 32) :
    Exists fun alloc => Exists fun slab =>
      PageAllocator.tryReserveL2TableEntry 1 mmu =
        some (alloc, { mmu with l2TableAllocator := slab }) ∧
      alloc.succeeded = true ∧ alloc ∉ live ∧
      Stocked { mmu with l2TableAllocator := slab } (alloc :: live) := by
  cases outcome : mmu.l2TableAllocator.allocate with
  | none =>
      have full := (stocked.cells.allocate_eq_none_iff.mp outcome).1
      exact absurd few (Nat.not_lt.mpr full)
  | some result =>
      rcases result with ⟨alloc, slab⟩
      have succeeded := (stocked.allocate outcome).1
      have reserved : PageAllocator.tryReserveL2TableEntry 1 mmu =
          some (alloc, { mmu with l2TableAllocator := slab }) := by
        simp only [PageAllocator.tryReserveL2TableEntry, outcome, Option.bind_eq_bind,
          Option.bind_some, succeeded, if_true, Option.pure_def]
      have stockedAfter := (stocked.reserve reserved).2.1
      have fresh := (List.nodup_cons.mp stockedAfter.cells.nodup).1
      exact ⟨alloc, slab, reserved, succeeded, fresh, stockedAfter⟩

theorem Stocked.supplies (stocked : Stocked mmu live) (left : mmu.TableLeft) : mmu.Supplies := by
  rcases stocked.reserves (stocked.few_of_left left) with
    ⟨alloc, slab, reserved, succeeded, fresh, stockedAfter⟩
  refine ⟨1, alloc, _, reserved, fun _ => ⟨succeeded, ?_, ?_⟩, ?_⟩
  · rintro (⟨slot, pointed, here⟩ | ⟨spare, _⟩)
    · rcases stocked.pointed slot pointed with ⟨other, member, there⟩
      have one := stockedAfter.ptr_injective (List.mem_cons_of_mem _ member)
        List.mem_cons_self (there.trans here)
      exact fresh (one ▸ member)
    · exact spare stocked.spare
  · exact fun spare => absurd stocked.spare spare
  · exact fun page free taken => absurd free taken

/-- Without one, the search reads a bit that does not exist. -/
theorem Stocked.not_supplies (stocked : Stocked mmu live) (none : ¬ mmu.TableLeft) :
    ¬ mmu.Supplies := by
  rintro ⟨depth, alloc, after, reserved, _⟩
  cases depth with
  | zero => cases reserved
  | succ depth =>
      rw [PageAllocator.tryReserveL2TableEntry] at reserved
      rcases Option.bind_eq_some_iff.mp reserved with ⟨⟨l2Alloc, slab⟩, outcome, _⟩
      have cases := SlabAllocator.allocate_cases stocked.cells.counted
      rw [outcome] at cases
      cases cases with
      | given index _ _ found clear small marks => exact none ⟨index, small, clear⟩
      | full all =>
          have succeeded := (stocked.allocate outcome).1
          cases succeeded

/-- In every state that can be reached from boot on, a table is supplied just when one
of the first 32 is left. -/
theorem table_supply_iff {memory : Nat -> L2Table} {codeEnd : Nat} {calls : List MmuCall}
    (booted : initPageTables memory codeEnd = some mmu) (reached : Reaches MmuStep mmu calls after) :
    after.Supplies <-> after.TableLeft := by
  rcases Stocked.of_reaches booted reached with ⟨live, stocked⟩
  constructor
  · intro supplies
    by_contra none
    exact stocked.not_supplies none supplies
  · exact stocked.supplies

/-! ## Taking all tables

Pages that fill whole megabytes take a table for each of them. -/

section Megabytes

variable {physRegion : PageRegion} {first count : Nat}

/-- So many megabytes of pages, from the first one on. -/
def megabytes (first count : Nat) : PageRegion :=
  ⟨first * 256, count * 256⟩

theorem megabytes_ptr {slot index : Nat} (inside : slot < count) (few : index < 256)
    (below : first + count ≤ 1024) :
    (megabytes first count).ptr .aarch32 (slot * 256 + index) =
      (first + slot) * 2 ^ 20 + index * 2 ^ 12 := by
  have small : (first * 256 + (slot * 256 + index)) * 4096 < 2 ^ 32 := by omega
  refine (Nat.mod_eq_of_lt small).trans ?_
  omega

theorem megabytes_l1Slot {slot index : Nat} (inside : slot < count) (few : index < 256)
    (below : first + count ≤ 1024) :
    (L1Table.slot ((megabytes first count).ptr .aarch32 (slot * 256 + index))).val =
      first + slot := by
  rw [megabytes_ptr inside few below]
  change ((first + slot) * 2 ^ 20 + index * 2 ^ 12) / 2 ^ 20 % 2 ^ 10 = first + slot
  omega

theorem megabytes_l2Slot {slot index : Nat} (inside : slot < count) (few : index < 256)
    (below : first + count ≤ 1024) :
    (L2Table.slot ((megabytes first count).ptr .aarch32 (slot * 256 + index))).val = index := by
  rw [megabytes_ptr inside few below]
  change ((first + slot) * 2 ^ 20 + index * 2 ^ 12) / 2 ^ 12 % 2 ^ 8 = index
  omega

/-- An empty table takes the pages of a megabyte. -/
theorem recordPages_fills {tables : PageTables} {l2Table slot l2Offset : Nat} (turns : Nat)
    (inside : slot < count) (below : first + count ≤ 1024) (few : l2Offset + turns ≤ 256)
    (empty : forall page : Fin 256, l2Offset ≤ page.val ->
      L2Type.ofEntry (tables.l2Tables l2Table page) = .Fault) :
    Exists fun filled => recordPages physRegion (megabytes first count) l2Table slot turns l2Offset
      tables = some filled := by
  induction turns generalizing l2Offset tables with
  | zero => exact ⟨tables, rfl⟩
  | succ turns inductionHypothesis =>
      have here := @megabytes_l2Slot first count slot l2Offset inside (by omega) below
      rw [recordPages, l2NumEntries]
      split
      · dsimp only
        rw [empty _ (Nat.le_of_eq here.symm)]
        apply inductionHypothesis (by omega)
        intro page later
        rw [PageTables.setL2_of_ne]
        · exact empty page (by omega)
        · right
          rintro rfl
          omega
      · exact ⟨tables, rfl⟩

/-- A table is left for a megabyte without one. -/
theorem Stocked.l2TableOf_succeeds {virtPtr : Nat} (stocked : Stocked mmu live)
    (few : live.length < 32)
    (fault : L1Type.ofEntry (mmu.tables.l1Table (L1Table.slot virtPtr)) = .Fault) :
    Exists fun alloc => Exists fun slab =>
      mmu.l2TableOf (PageAllocator.tryReserveL2TableEntry 1) virtPtr 0 = some (some alloc.ptr, {
        mmu with
        tables := (mmu.tables.newL2Table alloc.ptr).setL1 (L1Table.slot virtPtr)
          (L2Ptr.entry alloc.ptr)
        l2TableAllocator := slab }) ∧
      Stocked { mmu with
        tables := (mmu.tables.newL2Table alloc.ptr).setL1 (L1Table.slot virtPtr)
          (L2Ptr.entry alloc.ptr)
        l2TableAllocator := slab } (alloc :: live) := by
  rcases stocked.reserves few with ⟨alloc, slab, reserved, succeeded, fresh, stockedAfter⟩
  refine ⟨alloc, slab, ?_, (stocked.place fresh stockedAfter fault).1.stocked⟩
  rw [PageAllocator.l2TableOf]
  dsimp only
  rw [fault]
  simp only [PageAllocator.obtainL2Table, reserved, succeeded, Option.bind_eq_bind,
    Option.bind_some, if_true, Option.pure_def, ne_eq, not_true_eq_false, if_false]

/-- Megabytes in which nothing is recorded take a table each. -/
theorem Stocked.recordSlots_fills {l1Offset : Nat} (turns : Nat) (stocked : Stocked mmu live)
    (inside : l1Offset + turns ≤ count) (below : first + count ≤ 1024)
    (many : live.length + turns ≤ 32)
    (fault : forall slot : Fin 1024, first + l1Offset ≤ slot.val ->
      slot.val < first + l1Offset + turns -> L1Type.ofEntry (mmu.tables.l1Table slot) = .Fault) :
    Exists fun final => PageAllocator.recordSlots (PageAllocator.tryReserveL2TableEntry 1) physRegion
        (megabytes first count) 0 turns l1Offset mmu = some (true, final) ∧
      final.physicalPageAllocator = mmu.physicalPageAllocator ∧
      final.virtualPageAllocator = mmu.virtualPageAllocator ∧
      Exists fun liveAfter => Stocked final liveAfter ∧
        liveAfter.length = live.length + turns := by
  induction turns generalizing l1Offset mmu live with
  | zero => exact ⟨mmu, rfl, rfl, rfl, live, stocked, rfl⟩
  | succ turns inductionHypothesis =>
      have slot : (L1Table.slot ((megabytes first count).ptr .aarch32
          (l1Offset * l2NumEntries))).val = first + l1Offset := by
        have here := @megabytes_l1Slot first count l1Offset 0 (by omega) (by decide) below
        rwa [Nat.add_zero] at here
      have clear := fault _ (Nat.le_of_eq slot.symm) (by omega)
      rcases stocked.l2TableOf_succeeds (by omega) clear with ⟨alloc, slab, obtained, placed⟩
      have empty : forall page : Fin 256, 0 ≤ page.val ->
          L2Type.ofEntry ((mmu.tables.newL2Table alloc.ptr).l2Tables alloc.ptr page) = .Fault := by
        intro page _
        rw [PageTables.newL2Table_self, ofEntry_empty_l2]
      rcases @recordPages_fills physRegion first count ((mmu.tables.newL2Table alloc.ptr).setL1
          (L1Table.slot ((megabytes first count).ptr .aarch32 (l1Offset * l2NumEntries)))
          (L2Ptr.entry alloc.ptr)) alloc.ptr l1Offset 0 l2NumEntries (by omega) below (by decide)
        empty with ⟨filled, written⟩
      have sameL1 := (recordPages_spec written).1
      have stockedFilled : Stocked { mmu with tables := filled, l2TableAllocator := slab }
          (alloc :: live) := by
        refine ⟨placed.cells, placed.many, placed.spare, ?_⟩
        dsimp only
        rw [sameL1]
        exact placed.pointed
      have faultLater : forall slot : Fin 1024, first + (l1Offset + 1) ≤ slot.val ->
          slot.val < first + (l1Offset + 1) + turns ->
            L1Type.ofEntry (filled.l1Table slot) = .Fault := by
        intro later lower upper
        rw [sameL1, PageTables.setL1_of_ne]
        · exact fault later (by omega) (by omega)
        · rintro rfl
          omega
      rcases inductionHypothesis stockedFilled (by omega) (by rw [List.length_cons]; omega)
        faultLater with ⟨final, ran, physical, virtual, liveAfter, stockedFinal, length⟩
      refine ⟨final, ?_, physical, virtual, liveAfter, stockedFinal, ?_⟩
      · rw [PageAllocator.recordSlots, obtained]
        simp only [Option.bind_eq_bind, Option.bind_some, written]
        exact ran
      · rw [length, List.length_cons]
        omega

end Megabytes

/-! ## After booting

A task may ask for 32 megabytes.  They take all tables, so the next page that is
recorded elsewhere finds none, with most of the memory still free. -/

theorem table_supplied_after_boot : Exists fun mmu =>
    initPageTables (fun _ => L2Table.empty) 0x8000 = some mmu ∧ mmu.TableLeft ∧ mmu.Supplies := by
  have left : ((initPageTables (fun _ => L2Table.empty) 0x8000).bind fun mmu =>
      mmu.l2TableAllocator.bitAt 0) = some false := by
    decide +kernel
  rcases Option.bind_eq_some_iff.mp left with ⟨mmu, booted, clear⟩
  have here : mmu.TableLeft := ⟨0, by decide, clear⟩
  exact ⟨mmu, booted, here, (table_supply_iff booted .refl).mpr here⟩

/-- A region on the lists of a broker. -/
def lists (broker : RegionBroker) (region : PageRegion) : Bool :=
  broker.pageAllocator.listed.any fun node => node.contents = region

theorem free_of_lists {broker : RegionBroker} {region : PageRegion} {page : Nat}
    (listed : lists broker region = true) (inside : page ∈ region.pages) :
    page ∈ freePages broker := by
  rcases List.any_eq_true.mp listed with ⟨node, member, same⟩
  rw [freePages, mem_cover]
  refine ⟨region.pages, List.mem_map.mpr ⟨node, member, ?_⟩, inside⟩
  rw [of_decide_eq_true same]

theorem table_supply_ends : Exists fun mmu => Exists fun after =>
    initPageTables (fun _ => L2Table.empty) 0x8000 = some mmu ∧
    Reaches MmuStep mmu [.request (.allocatePages 8192 .Page .Mixed)] after ∧
    1024 ∈ freePages after.physicalPageAllocator ∧ 1024 ∈ freePages after.virtualPageAllocator ∧
    ¬ after.Supplies := by
  have reserves : ((initPageTables (fun _ => L2Table.empty) 0x8000).bind fun mmu =>
      (mmu.tryReservePageUnrecorded 8192 .Page .Mixed).map fun reserved =>
        (reserved.1, lists reserved.2.physicalPageAllocator ⟨1024, 1024⟩,
          lists reserved.2.virtualPageAllocator ⟨1024, 1024⟩)) =
      some ((⟨0x2000000, 0x2000000⟩, ⟨0x2000000, 0x2000000⟩), true, true) := by
    decide +kernel
  have clear : ((initPageTables (fun _ => L2Table.empty) 0x8000).map fun mmu =>
      (List.range 32).all fun slot =>
        L1Type.ofEntry (mmu.tables.l1Table ⟨(32 + slot) % 1024, Nat.mod_lt _ (by decide)⟩) = .Fault) =
      some true := by
    decide +kernel
  rcases Option.bind_eq_some_iff.mp reserves with ⟨mmu, booted, reserves⟩
  rcases Option.map_eq_some_iff.mp reserves with ⟨⟨allocs, reserved⟩, unrecorded, same⟩
  rw [booted, Option.map_some, Option.some.injEq, List.all_eq_true] at clear
  simp only [Prod.mk.injEq] at same
  rcases same with ⟨rfl, physListed, virtListed⟩
  have records := PageAllocator.tryReservePageUnrecorded_same unrecorded
  have stocked := (stocked_init booted).of_same records
  have fault : forall slot : Fin 1024, 32 + 0 ≤ slot.val -> slot.val < 32 + 0 + 32 ->
      L1Type.ofEntry (reserved.tables.l1Table slot) = .Fault := by
    intro slot lower upper
    have here := of_decide_eq_true (clear (slot.val - 32) (List.mem_range.mpr (by omega)))
    rw [records.tables]
    convert here using 3
    apply Fin.ext
    dsimp only
    omega
  rcases @Stocked.recordSlots_fills reserved [] ⟨8192, 8192⟩ 32 32 0 32 stocked (by decide) (by decide)
    (by decide) fault with ⟨final, recorded, physical, virtual, liveAfter, stockedFinal, length⟩
  have performed : (Request.allocatePages 8192 .Page .Mixed).perform 1 mmu =
      some ((⟨8192, 8192⟩, ⟨8192, 8192⟩), final) := by
    have walked : PageAllocator.numL1EntriesToWalk ⟨8192, 8192⟩ = 32 := by decide
    have answer : PageAllocator.recordPagesOnce 1 ⟨8192, 8192⟩ ⟨8192, 8192⟩ reserved =
        some (true, final) := by
      rw [PageAllocator.recordPagesOnce, PageAllocator.tryRecordPageInL1,
        PageAllocator.recordPagesInL1, walked]
      exact recorded
    rw [Request.perform_eq]
    refine Option.bind_eq_some_iff.mpr ⟨_, unrecorded, ?_⟩
    rw [PageAllocator.recordOrFree, if_pos (by decide)]
    exact Option.bind_eq_some_iff.mpr ⟨_, answer, rfl⟩
  have inside : 1024 ∈ Region.pages (⟨1024, 1024⟩ : PageRegion) :=
    mem_span.mpr ⟨Nat.le_refl _, by decide⟩
  refine ⟨mmu, final, booted, .tail .refl (.request _ 1 _ performed), ?_, ?_, ?_⟩
  · rw [physical]
    exact free_of_lists physListed inside
  · rw [virtual]
    exact free_of_lists virtListed inside
  · apply stockedFinal.not_supplies
    intro left
    have few := stockedFinal.few_of_left left
    rw [length] at few
    exact absurd few (by decide)

end Mmu
end Kernel
end Pinyon
