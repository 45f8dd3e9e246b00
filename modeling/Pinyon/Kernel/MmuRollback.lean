import Pinyon.Kernel.MmuAllocator

namespace Pinyon
namespace Kernel
namespace Mmu

open Pine Library

/-!
# Requests that cannot be recorded

A request first reserves physical and virtual pages and then records them.  When
that fails, all of it should be undone.  The code undoes the wrong thing: it gives
the physical allocation back to both allocators, leaves what was recorded, and
returns the regions as if nothing had happened.
-/

inductive Request where
  | allocatePages (numPages : Nat) (alignment : PageAlignmentLevel) (backing : Backing)
  | reserveRegion (region : PageRegion) (backing : Backing)
  | reserveSectionRegion (region : SectionRegion) (backing : Backing)

namespace Request

/-- The unit that a request is about. -/
def magnitude : Request -> Nat
  | allocatePages _ _ _ => pageSize
  | reserveRegion _ _ => pageSize
  | reserveSectionRegion _ _ => sectionSize

def perform (depth : Nat) (mmu : PageAllocator) : (request : Request) ->
    Option ((Region request.magnitude × Region request.magnitude) × PageAllocator)
  | allocatePages numPages alignment backing => mmu.allocatePages depth numPages alignment backing
  | reserveRegion region backing => mmu.reserveRegion depth region backing
  | reserveSectionRegion region backing => mmu.reserveSectionRegion region backing

/-- The first half of a request. -/
def unrecorded (mmu : PageAllocator) :
    Request -> Option ((Allocation × Allocation) × PageAllocator)
  | allocatePages numPages alignment backing =>
      mmu.tryReservePageUnrecorded numPages alignment backing
  | reserveRegion region backing => mmu.tryReserveRegionUnrecorded region backing
  | reserveSectionRegion region backing =>
      mmu.tryReserveRegionUnrecorded (asPageRegion .aarch32 region) backing

/-- The second half. -/
def record (depth : Nat) : (request : Request) -> Region request.magnitude ->
    Region request.magnitude -> PageAllocator -> Option (Bool × PageAllocator)
  | allocatePages _ _ _ => PageAllocator.recordPagesOnce depth
  | reserveRegion _ _ => PageAllocator.recordEqualPages depth
  | reserveSectionRegion _ _ => PageAllocator.recordSectionsOnce

variable {depth : Nat} {mmu after reserved : PageAllocator} {request : Request}

theorem perform_eq (depth : Nat) (mmu : PageAllocator) (request : Request) :
    request.perform depth mmu =
      (request.unrecorded mmu).bind (PageAllocator.recordOrFree (request.record depth)) := by
  cases request <;> rfl

/-- Pages were reserved, and recording them returns false. -/
def FailsToRecord (depth : Nat) (mmu : PageAllocator) (request : Request) : Prop :=
  Exists fun physAlloc => Exists fun virtAlloc => Exists fun reserved => Exists fun after =>
    request.unrecorded mmu = some ((physAlloc, virtAlloc), reserved) ∧
    physAlloc.succeeded = true ∧
    request.record depth
      (Region.fromPtr .aarch32 request.magnitude physAlloc.ptr physAlloc.size)
      (Region.fromPtr .aarch32 request.magnitude virtAlloc.ptr virtAlloc.size) reserved =
        some (false, after)

end Request

/-! ## What a failed request should leave behind -/

/-- The pages on the lists of a broker. -/
def freePages (broker : RegionBroker) : Set Nat :=
  cover (broker.pageAllocator.listed.map fun node => node.contents.pages)

/-- The pages that hold L2 tables. -/
def PageAllocator.tablePages (mmu : PageAllocator) : Set Nat :=
  fun page => page * pageSize ∈ mmu.l2TableAllocator.slabPages

/-- Two states that differ at most in pages that became L2 tables. -/
structure PageAllocator.Undone (before after : PageAllocator) : Prop where
  physical : forall page, page ∉ after.tablePages ->
    (page ∈ freePages after.physicalPageAllocator <-> page ∈ freePages before.physicalPageAllocator)
  virtual : forall page, page ∉ after.tablePages ->
    (page ∈ freePages after.virtualPageAllocator <-> page ∈ freePages before.virtualPageAllocator)
  recorded : forall address, after.tables.translate address = before.tables.translate address

namespace Request

variable {depth : Nat} {mmu after reserved : PageAllocator} {request : Request}

/-- The request returns the empty pair, and leaves everything as it was. -/
def AllOrNothing (depth : Nat) (mmu : PageAllocator) (request : Request) : Prop :=
  Exists fun after => request.perform depth mmu = some (({}, {}), after) ∧ mmu.Undone after

theorem numL1EntriesToWalk_empty : PageAllocator.numL1EntriesToWalk {} = 0 := by
  decide

/-- Nothing can always be recorded. -/
theorem record_empty (depth : Nat) (mmu : PageAllocator) (request : Request) :
    request.record depth {} {} mmu = some (true, mmu) := by
  have pages : mmu.tryRecordPageInL1 depth {} {} 0 = some (true, mmu) := by
    rw [PageAllocator.tryRecordPageInL1, PageAllocator.recordPagesInL1, numL1EntriesToWalk_empty]
    rfl
  cases request with
  | allocatePages numPages alignment backing => exact pages
  | reserveRegion region backing =>
      change PageAllocator.recordEqualPages depth {} {} mmu = some (true, mmu)
      rw [PageAllocator.recordEqualPages, if_neg (not_not.mpr rfl)]
      exact pages
  | reserveSectionRegion region backing => rfl

/-- What cannot be recorded is returned all the same. -/
theorem perform_of_fails (fails : request.FailsToRecord depth mmu) :
    forall pair after, request.perform depth mmu = some (pair, after) -> pair ≠ ({}, {}) := by
  rcases fails with ⟨physAlloc, virtAlloc, reserved, left, unrecorded, succeeded, failed⟩
  intro pair after performed same
  rw [perform_eq, unrecorded, Option.bind_some] at performed
  have returned := (PageAllocator.recordOrFree_spec succeeded performed).1
  rw [same, Prod.mk.injEq] at returned
  rw [← returned.1, ← returned.2, record_empty] at failed
  cases failed

/-- No request that fails to be recorded is undone, in any state: where it returns,
it returns what it had reserved. -/
theorem failed_request_not_undone (fails : request.FailsToRecord depth mmu) :
    ¬ request.AllOrNothing depth mmu := by
  rintro ⟨after, performed, _⟩
  exact perform_of_fails fails _ after performed rfl

/-! ## A request after booting

The code takes one section.  Sections 5 and 6 are then asked for; the virtual
allocator has them in a region of four sections, the physical allocator hands out
two. -/

theorem fails_after_boot : Exists fun mmu =>
    initPageTables (fun _ => L2Table.empty) 0x8000 = some mmu ∧
    FailsToRecord 0 mmu (.reserveSectionRegion ⟨5, 2⟩ .Mixed) := by
  have reserves : ((initPageTables (fun _ => L2Table.empty) 0x8000).bind fun mmu =>
      (mmu.tryReserveRegionUnrecorded (asPageRegion .aarch32 ⟨5, 2⟩) .Mixed).map Prod.fst) =
        some (⟨0x400000, 0x200000⟩, ⟨0x400000, 0x400000⟩) := by
    decide +kernel
  rcases Option.bind_eq_some_iff.mp reserves with ⟨mmu, booted, reserves⟩
  rcases Option.map_eq_some_iff.mp reserves with ⟨⟨allocs, reserved⟩, unrecorded, same⟩
  dsimp only at same
  subst same
  refine ⟨mmu, booted, _, _, reserved, reserved, unrecorded, by decide, ?_⟩
  change PageAllocator.tryRecordSectionInL1 reserved ⟨4, 2⟩ ⟨4, 4⟩ = some (false, reserved)
  rw [PageAllocator.tryRecordSectionInL1, if_pos (by decide)]

/-- The request returns two physical and four virtual sections, although none of
them is recorded. -/
theorem failed_request_returned : Exists fun mmu =>
    initPageTables (fun _ => L2Table.empty) 0x8000 = some mmu ∧
    FailsToRecord 0 mmu (.reserveSectionRegion ⟨5, 2⟩ .Mixed) ∧
    ((mmu.reserveSectionRegion ⟨5, 2⟩ .Mixed).map Prod.fst = some (⟨4, 2⟩, ⟨4, 4⟩)) ∧
    ¬ AllOrNothing 0 mmu (.reserveSectionRegion ⟨5, 2⟩ .Mixed) := by
  rcases fails_after_boot with ⟨mmu, booted, fails⟩
  have returns : ((initPageTables (fun _ => L2Table.empty) 0x8000).bind fun mmu =>
      (mmu.reserveSectionRegion ⟨5, 2⟩ .Mixed).map Prod.fst) = some (⟨4, 2⟩, ⟨4, 4⟩) := by
    decide +kernel
  rw [booted, Option.bind_some] at returns
  refine ⟨mmu, booted, fails, returns, ?_⟩
  rintro ⟨after, performed, _⟩
  exact perform_of_fails fails _ after performed rfl

theorem failed_request_not_undone_sections : Exists fun mmu =>
    FailsToRecord 0 mmu (.reserveSectionRegion ⟨5, 2⟩ .Mixed) ∧
    ¬ AllOrNothing 0 mmu (.reserveSectionRegion ⟨5, 2⟩ .Mixed) := by
  rcases fails_after_boot with ⟨mmu, _, fails⟩
  exact ⟨mmu, fails, failed_request_not_undone fails⟩

end Request

end Mmu
end Kernel
end Pinyon
