import Pinyon.Library.Span
import Pinyon.Pine.FreeList

namespace Pinyon
namespace Pine

open Library

/-!
# Regions

A region is a run of pages, or of any other unit of memory whose size is its
magnitude.  Offsets, lengths and addresses are words, so every sum and product
here may wrap; the lemmas are about the regions whose end has an address, for
which nothing does.
-/

structure Region (magnitude : Nat) where
  offset : Nat := 0
  length : Nat := 0
deriving DecidableEq, Repr

abbrev PageRegion := Region pageSize

abbrev SectionRegion := Region sectionSize

namespace Region

variable {magnitude : Nat}

def fromPtr (target : Target) (magnitude ptr sizeInBytes : Nat) : Region magnitude where
  offset := ptr / magnitude
  length := divideUp target.wordWidth sizeInBytes magnitude

def ptr (target : Target) (region : Region magnitude) (leftOffset : Nat) : Nat :=
  (region.offset + leftOffset) * magnitude % target.wordLimit

def size (target : Target) (region : Region magnitude) : Nat :=
  region.length * magnitude % target.wordLimit

def fits (region : Region magnitude) (otherLength : Nat) : Bool :=
  otherLength ≤ region.length

def endOffset (target : Target) (region : Region magnitude) : Nat :=
  (region.offset + region.length) % target.wordLimit

def contains (target : Target) (region other : Region magnitude) : Bool :=
  region.offset ≤ other.offset ∧ other.endOffset target ≤ region.endOffset target

def alignedTo (region : Region magnitude) (alignment : Nat) : Bool :=
  region.offset % alignment = 0

def halve (target : Target) (region : Region magnitude) : Region magnitude × Region magnitude :=
  let remainder := region.length % 2
  let halvedLength := region.length / 2
  (⟨region.offset, halvedLength⟩,
    ⟨(region.offset + halvedLength) % target.wordLimit, halvedLength + remainder⟩)

/-- `from_range`, of a range that does not end before it starts. -/
def fromRange (magnitude start «end» : Nat) : Region magnitude where
  offset := start / magnitude
  length := («end» - start) / magnitude

/-- The allocation that a region is handed out as. -/
def allocation (target : Target) (region : Region magnitude) : Allocation :=
  ⟨region.ptr target 0, region.size target⟩

/-- The units that the region consists of. -/
def pages (region : Region magnitude) : Set Nat :=
  span region.offset region.length

end Region

/-- `as_page_region`. -/
def asPageRegion (target : Target) (region : SectionRegion) : PageRegion where
  offset := region.offset * (sectionSize / pageSize) % target.wordLimit
  length := region.length * (sectionSize / pageSize) % target.wordLimit

/-- The number of pages that have an address. -/
def addressablePages (target : Target) : Nat :=
  2 ^ (target.wordWidth - 12)

theorem addressablePages_mul (target : Target) :
    addressablePages target * pageSize = target.wordLimit := by
  cases target <;> rfl

/-- A region of `2 ^ depth` pages that have addresses, aligned to its length. -/
structure Natural (target : Target) (depth : Nat) (region : PageRegion) : Prop where
  length : region.length = 2 ^ depth
  aligned : 2 ^ depth ∣ region.offset
  addressable : region.offset + region.length ≤ addressablePages target

namespace Natural

variable {target : Target} {depth : Nat} {region : PageRegion}

theorem addressable_lt (natural : Natural target depth region) :
    region.offset + region.length < target.wordLimit := by
  have whole := addressablePages_mul target
  have positive : 0 < addressablePages target := Nat.two_pow_pos _
  have addressable := natural.addressable
  rw [pageSize] at whole
  omega

theorem offset_lt (natural : Natural target depth region) :
    region.offset < addressablePages target := by
  have positive := Nat.two_pow_pos depth
  have length := natural.length
  have addressable := natural.addressable
  omega

theorem power_le (natural : Natural target depth region) :
    2 ^ depth ≤ 2 ^ (target.wordWidth - 1) := by
  have length := natural.length
  have addressable := natural.addressable
  have narrow : addressablePages target ≤ 2 ^ (target.wordWidth - 1) :=
    Nat.pow_le_pow_right (by decide) (Nat.sub_le_sub_left (by decide) _)
  omega

theorem ptr_eq (natural : Natural target depth region) :
    region.ptr target 0 = region.offset * pageSize := by
  rw [Region.ptr, Nat.add_zero]
  apply Nat.mod_eq_of_lt
  rw [← addressablePages_mul]
  exact Nat.mul_lt_mul_of_pos_right natural.offset_lt (by decide)

/-- Only a region that is smaller than the address space has a size. -/
theorem size_eq (small : region.length < addressablePages target) :
    region.size target = region.length * pageSize := by
  rw [Region.size]
  apply Nat.mod_eq_of_lt
  rw [← addressablePages_mul]
  exact Nat.mul_lt_mul_of_pos_right small (by decide)

/-- What was handed out for a region leads back to the region. -/
theorem fromPtr_allocation (natural : Natural target depth region)
    (small : region.length < addressablePages target) :
    Region.fromPtr target pageSize (region.allocation target).ptr (region.allocation target).size =
      region := by
  have whole := addressablePages_mul target
  have fits : region.length * pageSize + (pageSize - 1) < target.wordLimit := by
    simp only [pageSize] at whole ⊢
    omega
  rw [Region.allocation, natural.ptr_eq, size_eq small, Region.fromPtr, divideUp]
  rw [Target.wordLimit] at fits
  rw [Nat.mod_eq_of_lt fits, Nat.mul_div_cancel _ (by decide), Nat.mul_comm,
    Nat.mul_add_div (by decide), Nat.div_eq_of_lt (by decide), Nat.add_zero]

/-- The halves of a region are natural regions, too. -/
theorem halve (natural : Natural target (depth + 1) region) :
    Natural target depth (region.halve target).1 ∧ Natural target depth (region.halve target).2 := by
  have length := natural.length
  have addressable := natural.addressable
  have small := natural.addressable_lt
  rw [Nat.pow_succ] at length
  have half : region.length / 2 = 2 ^ depth := by omega
  have even : region.length % 2 = 0 := by omega
  have within : (region.offset + 2 ^ depth) % target.wordLimit = region.offset + 2 ^ depth :=
    Nat.mod_eq_of_lt (by omega)
  have aligned : 2 ^ depth ∣ region.offset :=
    Nat.dvd_trans (Nat.pow_dvd_pow 2 (Nat.le_succ depth)) natural.aligned
  refine ⟨⟨half, aligned, ?_⟩, ⟨?_, ?_, ?_⟩⟩
  · simp only [Region.halve]
    omega
  · simp only [Region.halve, even, half, Nat.add_zero]
  · simp only [Region.halve, half, within]
    exact Nat.dvd_add aligned (Nat.dvd_refl _)
  · simp only [Region.halve, half, within, even]
    omega

/-- They have no page in common, and together are the region. -/
theorem halve_pages (natural : Natural target (depth + 1) region) :
    Disjoint (region.halve target).1.pages (region.halve target).2.pages ∧
      (region.halve target).1.pages ∪ (region.halve target).2.pages = region.pages := by
  have length := natural.length
  have small := natural.addressable_lt
  rw [Nat.pow_succ] at length
  have even : region.length % 2 = 0 := by omega
  have within : (region.offset + region.length / 2) % target.wordLimit =
      region.offset + region.length / 2 := Nat.mod_eq_of_lt (by omega)
  simp only [Region.halve, Region.pages, within, even, Nat.add_zero]
  refine ⟨disjoint_span_of_le (Nat.le_refl _), ?_⟩
  rw [span_union, show region.length / 2 + region.length / 2 = region.length by omega]

end Natural

end Pine
end Pinyon
