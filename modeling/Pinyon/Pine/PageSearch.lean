import Mathlib
import Pinyon.Library.Scan
import Pinyon.Pine.PageFiling

namespace Pinyon
namespace Pine

open Library

/-!
# The searches of the page allocator

`find_free_pages` and `find_free_region` go up through `m_free_lists` from the depth
of the request and stop when the depth is `max_depth`.  A request of a size that no
list can hold has that depth or a greater one: at `max_depth` itself nothing is read
and nothing is found, beyond it the loop starts outside of the table.
-/

namespace PageAllocatorBackend

variable {State : Type} {target : Target} {backend : PageAllocatorBackend State}

/-! ## The loops with what they read -/

/-- `while (depth != max_depth)`, with `find_if` on each list. -/
def searchLists (target : Target) (backend : PageAllocatorBackend State)
    (suits : PageRegion -> Bool) (depth : Nat) : Scan RegionNode :=
  scan (maxDepth target) backend.freeLists
    (fun list => list.find? fun node => suits node.contents) depth

def searchFreePages (target : Target) (backend : PageAllocatorBackend State) (numPages : Nat)
    (pageAlignment : PageAlignmentLevel) : Scan RegionNode :=
  backend.searchLists target
    (fun contents => contents.fits numPages && contents.alignedTo pageAlignment.toNat)
    (depthFromPageLength target numPages)

def searchFreeRegion (target : Target) (backend : PageAllocatorBackend State)
    (region : PageRegion) : Scan RegionNode :=
  backend.searchLists target (fun contents => contents.contains target region)
    (depthFromPageLength target region.length)

/-- What `findNode` says of the loop in one step. -/
theorem searchLists_result (table : backend.freeLists.length = maxDepth target)
    (suits : PageRegion -> Bool) (depth : Nat) :
    (backend.searchLists target suits depth).result = backend.findNode target depth suits := by
  rw [searchLists, findNode]
  by_cases within : depth ≤ maxDepth target
  · rw [if_pos within, Scan.result_eq table within, List.find?_flatten]
  · rw [if_neg within, Scan.of_beyond (by omega) (by omega)]

theorem searchFreePages_result (table : backend.freeLists.length = maxDepth target)
    (numPages : Nat) (pageAlignment : PageAlignmentLevel) :
    (backend.searchFreePages target numPages pageAlignment).result =
      backend.findFreePages target numPages pageAlignment :=
  searchLists_result table _ _

theorem searchFreeRegion_result (table : backend.freeLists.length = maxDepth target)
    (region : PageRegion) :
    (backend.searchFreeRegion target region).result = backend.findFreeRegion target region :=
  searchLists_result table _ _

/-- The table of a fresh allocator. -/
theorem empty_length (target : Target) (nodeAllocator : State) :
    (empty target nodeAllocator).freeLists.length = maxDepth target :=
  List.length_replicate

/-! ## Depths of requests -/

/-- The loop starts where it stops. -/
theorem depthFromPageLength_eq_maxDepth {numPages : Nat} (isWord : numPages < target.wordLimit)
    (large : 2 ^ maxDepth target ≤ numPages) (small : numPages < 2 ^ (maxDepth target + 1)) :
    depthFromPageLength target numPages = maxDepth target :=
  (depthFromPageLength_eq_iff isWord (Nat.lt_of_lt_of_le (Nat.two_pow_pos _) large)).mpr
    ⟨large, small⟩

/-! ## The searches end inside the table -/

/-- A search for so many pages ends, reads lists of the table only, and comes back
without a node when the number is beyond every list: the last one, of the depth
`max_depth - 1`, has regions of less than `2 ^ max_depth` pages. -/
structure SearchEnds (target : Target) (numPages : Nat) (search : Scan RegionNode) : Prop where
  ends : search.result.isSome = true
  inside : forall depth, depth ∈ search.indices -> depth < maxDepth target
  null : 2 ^ maxDepth target ≤ numPages -> search.result = some none

theorem searchEnds_iff (table : backend.freeLists.length = maxDepth target) {numPages : Nat}
    (isWord : numPages < target.wordLimit) (suits : PageRegion -> Bool) :
    SearchEnds target numPages
        (backend.searchLists target suits (depthFromPageLength target numPages)) <->
      numPages < 2 ^ (maxDepth target + 1) := by
  have within : depthFromPageLength target numPages ≤ maxDepth target <->
      numPages < 2 ^ (maxDepth target + 1) := by
    rw [← Nat.lt_succ_iff]
    exact depthFromPageLength_lt_iff isWord _
  constructor
  · intro searchEnds
    exact within.mp ((Scan.result_isSome_iff table).mp searchEnds.ends)
  · intro small
    refine ⟨(Scan.result_isSome_iff table).mpr (within.mpr small),
      Scan.indices_lt table (within.mpr small), ?_⟩
    intro large
    rw [depthFromPageLength_eq_maxDepth isWord large small, searchLists, Scan.of_stop]

theorem searchLists_tooLarge (table : backend.freeLists.length = maxDepth target) {numPages : Nat}
    (isWord : numPages < target.wordLimit) (large : 2 ^ maxDepth target ≤ numPages)
    (small : numPages < 2 ^ (maxDepth target + 1)) (suits : PageRegion -> Bool) :
    (backend.searchLists target suits (depthFromPageLength target numPages)).result = some none :=
  ((searchEnds_iff table isWord suits).mpr small).null large

/-- A request that is too large for every list, but not beyond the table, is refused. -/
theorem allocate_tooLarge {nodes : NodeAllocator State}
    (table : backend.freeLists.length = maxDepth target) {numPages : Nat}
    (isWord : numPages < target.wordLimit) (large : 2 ^ maxDepth target ≤ numPages)
    (small : numPages < 2 ^ (maxDepth target + 1)) (pageAlignment : PageAlignmentLevel) :
    backend.allocate target nodes numPages pageAlignment = some ({}, backend) := by
  rw [allocate, ← searchFreePages_result table, searchFreePages,
    searchLists_tooLarge table isWord large small]
  rfl

theorem reserveRegion_tooLarge {nodes : NodeAllocator State}
    (table : backend.freeLists.length = maxDepth target) {region : PageRegion}
    (isWord : region.length < target.wordLimit) (large : 2 ^ maxDepth target ≤ region.length)
    (small : region.length < 2 ^ (maxDepth target + 1)) :
    backend.reserveRegion target nodes region = some ({}, backend) := by
  rw [reserveRegion, ← searchFreeRegion_result table, searchFreeRegion,
    searchLists_tooLarge table isWord large small]
  rfl

/-- Both searches, whatever is on the lists. -/
theorem searches_end_iff (table : backend.freeLists.length = maxDepth target)
    (numPages : Nat) (isWord : numPages < target.wordLimit) (pageAlignment : PageAlignmentLevel)
    (region : PageRegion) (regionIsWord : region.length < target.wordLimit) :
    (SearchEnds target numPages (backend.searchFreePages target numPages pageAlignment) <->
        numPages < 2 ^ (maxDepth target + 1)) ∧
      (SearchEnds target region.length (backend.searchFreeRegion target region) <->
        region.length < 2 ^ (maxDepth target + 1)) :=
  ⟨searchEnds_iff table isWord _, searchEnds_iff table regionIsWord _⟩

theorem searches_end_iff_fresh :
    (SearchEnds .aarch64 (2 ^ 53) ((empty .aarch64 ()).searchFreePages .aarch64 (2 ^ 53) .Section) <->
        2 ^ 53 < 2 ^ (maxDepth .aarch64 + 1)) ∧
      (SearchEnds .aarch64 (2 ^ 20)
          ((empty .aarch64 ()).searchFreeRegion .aarch64 ⟨0, 2 ^ 20⟩) <->
        2 ^ 20 < 2 ^ (maxDepth .aarch64 + 1)) :=
  searches_end_iff (empty_length .aarch64 ()) (2 ^ 53) (by decide) .Section ⟨0, 2 ^ 20⟩ (by decide)

/-- The depth of the request is 54, and `m_free_lists` has 53 lists. -/
theorem search_leaves_table :
    ¬SearchEnds .aarch64 (2 ^ 54)
      ((empty .aarch64 ()).searchFreePages .aarch64 (2 ^ 54) .Page) := by
  intro searchEnds
  have small := (searchEnds_iff (empty_length .aarch64 ()) (by decide) _).mp searchEnds
  exact absurd small (by decide)

end PageAllocatorBackend
end Pine
end Pinyon
