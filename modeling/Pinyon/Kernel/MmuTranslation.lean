import Pinyon.Library.History
import Pinyon.Kernel.MmuRecording

namespace Pinyon
namespace Kernel
namespace Mmu

open Pine Library
open BitField (extract)
open PageTables (Grows Extends)

/-!
# What is recorded is not what is translated

Two regions of equal length are recorded as belonging together.  The machine should
then translate an address of the virtual one to the address at the same offset of
the physical one.

It does for sections below the first gigabyte, whose entries the L1 table has.  It
does for no page but the first one of physical memory: the base address of a page
was put where the machine reads it four times as large.
-/

/-- Addresses that were recorded as belonging together. -/
structure Mapping where
  physical : Nat
  virtual : Nat
  size : Nat

/-- Each virtual address has the physical one at its offset. -/
def Mapping.Faithful (mapping : Mapping) (tables : PageTables) : Prop :=
  forall offset, offset < mapping.size ->
    tables.translate (mapping.virtual + offset) = some (mapping.physical + offset)

def mappingOf {magnitude : Nat} (physRegion virtRegion : Region magnitude) : Mapping where
  physical := physRegion.offset * magnitude
  virtual := virtRegion.offset * magnitude
  size := virtRegion.length * magnitude

/-! ## What the two page allocators can hand out -/

/-- The physical pages that were added at boot. -/
def addedPages : Set Nat :=
  span 0 physicalMemoryEndPages ∪ (asPageRegion .aarch32 deviceRegion).pages

/-- Regions of pages are powers of two, and aligned to their length. -/
structure PagePair (physRegion virtRegion : PageRegion) : Prop where
  natural : Exists fun depth => Natural .aarch32 depth physRegion ∧ Natural .aarch32 depth virtRegion
  added : physRegion.pages ⊆ addedPages

structure SectionPair (physRegion virtRegion : SectionRegion) : Prop where
  equal : physRegion.length = virtRegion.length
  nonempty : 0 < virtRegion.length
  addressable : virtRegion.offset + virtRegion.length ≤ 4096
  added : span (physRegion.offset * 256) (physRegion.length * 256) ⊆ addedPages

theorem addedPages_lt {page : Nat} (added : page ∈ addedPages) : page < 2 ^ 18 := by
  have devices : asPageRegion .aarch32 deviceRegion = ⟨245760, 16384⟩ := by
    decide
  rw [addedPages, devices] at added
  rcases added with memory | device
  · rw [mem_span, physicalMemoryEndPages] at memory
    omega
  · rw [Region.pages, mem_span] at device
    exact device.2

/-- A run of added pages ends within the first gigabyte. -/
theorem end_le_of_added {first count : Nat} (some : 0 < count)
    (added : span first count ⊆ addedPages) : first + count ≤ 2 ^ 18 := by
  have last := addedPages_lt (added (mem_span.mpr ⟨Nat.le_add_right first (count - 1), by omega⟩))
  omega

/-! ## Where the loops write -/

/-- Addresses in one megabyte have one L1 entry, those in one page one L2 entry. -/
theorem l1Slot_eq {first second : Nat} (same : first / 2 ^ 20 = second / 2 ^ 20) :
    L1Table.slot first = L1Table.slot second := by
  apply Fin.ext
  change first / 2 ^ 20 % 2 ^ 10 = second / 2 ^ 20 % 2 ^ 10
  rw [same]

theorem l2Slot_eq {first second : Nat} (same : first / 2 ^ 12 = second / 2 ^ 12) :
    L2Table.slot first = L2Table.slot second := by
  apply Fin.ext
  change first / 2 ^ 12 % 2 ^ 8 = second / 2 ^ 12 % 2 ^ 8
  rw [same]

/-- A region with an end that can be addressed has an address for each unit. -/
theorem ptr_of_le {magnitude limit : Nat} {region : Region magnitude} {index : Nat}
    (positive : 0 < magnitude) (inside : index < region.length)
    (ends : region.offset + region.length ≤ limit) (bounded : limit * magnitude ≤ 2 ^ 32) :
    region.ptr .aarch32 index = (region.offset + index) * magnitude := by
  apply Nat.mod_eq_of_lt
  refine Nat.lt_of_lt_of_le ?_ bounded
  exact Nat.mul_lt_mul_of_pos_right (by omega) positive

/-- The pages that one turn of the outer loop records lie in one megabyte. -/
theorem same_megabyte {depth offset slot index : Nat} (aligned : 2 ^ depth ∣ offset)
    (small : index < 256) (inside : slot * 256 + index < 2 ^ depth) :
    (offset + (slot * 256 + index)) / 256 = (offset + slot * 256) / 256 := by
  rcases Nat.lt_or_ge depth 8 with shallow | deep
  · -- the whole region is smaller than a megabyte
    have power : 2 ^ depth * 2 ^ (8 - depth) = 256 := by
      rw [← Nat.pow_add, Nat.add_sub_cancel' (Nat.le_of_lt shallow)]
    have below : 2 ^ depth ≤ 256 := Nat.le.intro (by
      rw [show 256 = 2 ^ 8 from rfl]
      exact Nat.add_sub_cancel' (Nat.pow_le_pow_right (by decide) (Nat.le_of_lt shallow)))
    have zero : slot = 0 := by omega
    subst zero
    rcases aligned with ⟨number, rfl⟩
    have within : index < 2 ^ depth := by omega
    rw [Nat.zero_mul, Nat.zero_add, Nat.add_zero, ← power, ← Nat.div_div_eq_div_mul,
      ← Nat.div_div_eq_div_mul, Nat.mul_add_div (Nat.two_pow_pos depth),
      Nat.mul_div_cancel_left _ (Nat.two_pow_pos depth), Nat.div_eq_of_lt within, Nat.add_zero]
  · have whole : 256 ∣ offset := (Nat.pow_dvd_pow 2 deep).trans aligned
    rcases whole with ⟨number, rfl⟩
    omega

section Translation

variable {tables : PageTables}

theorem translate_section_at {virtual physical offset : Nat} (below : virtual < 1024)
    (within : physical < 1024) (small : offset < sectionSize)
    (entry : tables.l1Table (L1Table.slot (virtual * sectionSize)) =
      Section.entry (physical * sectionSize)) :
    tables.translate (virtual * sectionSize + offset) = some (physical * sectionSize + offset) := by
  rw [sectionSize] at *
  rw [← l1Slot_eq (show (virtual * 1048576 + offset) / 2 ^ 20 = virtual * 1048576 / 2 ^ 20 by omega)]
    at entry
  rw [PageTables.translate_section (by omega) entry, extract]
  refine congrArg some ?_
  omega

theorem translate_page_at {virtual physical first offset l2Table : Nat} (below : virtual < 2 ^ 18)
    (small : offset < pageSize) (megabyte : virtual / 256 = first / 256)
    (points : PointsTo tables (first * pageSize) l2Table)
    (entry : tables.l2Tables l2Table (L2Table.slot (virtual * pageSize)) =
      Page.entry (physical * pageSize)) :
    tables.translate (virtual * pageSize + offset) =
      some (4 * physical % 2 ^ 20 * pageSize + offset) := by
  rw [pageSize] at *
  rw [PointsTo, ← l1Slot_eq (show (virtual * 4096 + offset) / 2 ^ 20 = first * 4096 / 2 ^ 20 by omega)]
    at points
  rw [← l2Slot_eq (show (virtual * 4096 + offset) / 2 ^ 12 = virtual * 4096 / 2 ^ 12 by omega)]
    at entry
  rw [PageTables.translate_page (by omega) points.1 points.2 entry, extract]
  refine congrArg some ?_
  omega

/-- A section below the first gigabyte is translated as it was recorded. -/
theorem translate_recorded_section {physRegion virtRegion : SectionRegion} {index offset : Nat}
    (pair : SectionPair physRegion virtRegion) (inside : index < virtRegion.length)
    (small : offset < sectionSize) (below : virtRegion.offset + index < 1024)
    (entry : tables.l1Table (L1Table.slot (virtRegion.ptr .aarch32 index)) =
      Section.entry (physRegion.ptr .aarch32 index)) :
    tables.translate ((virtRegion.offset + index) * sectionSize + offset) =
      some ((physRegion.offset + index) * sectionSize + offset) := by
  have equal := pair.equal
  have addressable := pair.addressable
  have last := end_le_of_added (Nat.mul_pos (equal ▸ pair.nonempty) (by decide)) pair.added
  have within : physRegion.offset + index < 1024 := by omega
  rw [ptr_of_le (by decide) inside addressable (by decide),
    ptr_of_le (by decide) (inside.trans_eq equal.symm) (by omega : _ ≤ 1024) (by decide)] at entry
  exact translate_section_at below within small entry

/-- A page below the first gigabyte is translated to four times its address. -/
theorem translate_recorded_page {physRegion virtRegion : PageRegion} {slot index offset : Nat}
    (pair : PagePair physRegion virtRegion) (few : index < 256)
    (inside : slot * 256 + index < virtRegion.length) (small : offset < pageSize)
    (below : virtRegion.offset + (slot * 256 + index) < 2 ^ 18)
    (recorded : PageRecorded tables physRegion virtRegion slot index) :
    tables.translate ((virtRegion.offset + (slot * 256 + index)) * pageSize + offset) =
      some (4 * (physRegion.offset + (slot * 256 + index)) % 2 ^ 20 * pageSize + offset) := by
  rcases pair.natural with ⟨depth, physNatural, virtNatural⟩
  have length : physRegion.length = virtRegion.length :=
    physNatural.length.trans virtNatural.length.symm
  have virtAddressable := virtNatural.addressable
  have physAddressable := physNatural.addressable
  rw [show addressablePages .aarch32 = 2 ^ 20 from rfl] at virtAddressable physAddressable
  have within : slot * 256 + index < 2 ^ depth := by
    rw [← virtNatural.length]
    exact inside
  have megabyte := same_megabyte virtNatural.aligned few within
  have first : slot * 256 < virtRegion.length :=
    Nat.lt_of_le_of_lt (Nat.le_add_right _ index) inside
  rcases recorded with ⟨l2Table, points, entry⟩
  rw [l2NumEntries, ptr_of_le (by decide) first virtAddressable (by decide)] at points
  rw [l2NumEntries, ptr_of_le (by decide) inside virtAddressable (by decide),
    ptr_of_le (by decide) (inside.trans_eq length.symm) physAddressable (by decide)] at entry
  exact translate_page_at below small megabyte points entry

end Translation

/-! ## What one call records -/

section Calls

variable {mmu after : PageAllocator} {live : List Allocation} {depth : Nat}

/-- An address of a region, as a unit of it and an offset into the unit. -/
theorem address_split {first offset unit : Nat} :
    first * unit + offset = (first + offset / unit) * unit + offset % unit := by
  rw [Nat.add_mul, Nat.add_assoc, Nat.div_add_mod']

theorem sections_translated {physRegion virtRegion : SectionRegion} (stocked : Stocked mmu live)
    (pair : SectionPair physRegion virtRegion)
    (ran : mmu.tryRecordSectionInL1 physRegion virtRegion = some (true, after)) {offset : Nat}
    (inside : offset < (mappingOf physRegion virtRegion).size)
    (below : (mappingOf physRegion virtRegion).virtual + offset < 2 ^ 30) :
    after.tables.translate ((mappingOf physRegion virtRegion).virtual + offset) =
      some ((mappingOf physRegion virtRegion).physical + offset) := by
  have entries := (stocked.tryRecordSectionInL1 ran).2 rfl
  have positive : 0 < sectionSize := by decide
  have index : offset / sectionSize < virtRegion.length := Nat.div_lt_of_lt_mul (by
    rw [Nat.mul_comm]
    exact inside)
  rw [mappingOf] at below ⊢
  dsimp only at below ⊢
  have megabyte : virtRegion.offset + offset / sectionSize < 1024 := by
    rw [@address_split virtRegion.offset offset sectionSize] at below
    have upper := Nat.lt_of_le_of_lt (Nat.le_add_right _ _) below
    exact Nat.lt_of_mul_lt_mul_right (Nat.lt_of_lt_of_eq upper (by decide))
  rw [@address_split virtRegion.offset offset sectionSize,
    @address_split physRegion.offset offset sectionSize]
  exact translate_recorded_section pair index (Nat.mod_lt _ positive) megabyte
    (entries _ index)

/-- The outer loop walks far enough. -/
theorem page_walked {physRegion virtRegion : PageRegion} (pair : PagePair physRegion virtRegion)
    {page : Nat} (inside : page < virtRegion.length) :
    page / 256 < PageAllocator.numL1EntriesToWalk virtRegion := by
  rcases pair.natural with ⟨depth, physNatural, virtNatural⟩
  have length : physRegion.length = virtRegion.length :=
    physNatural.length.trans virtNatural.length.symm
  have last := end_le_of_added (by omega) pair.added
  have few : virtRegion.length ≤ 2 ^ 18 := by omega
  have size : virtRegion.size .aarch32 = virtRegion.length * pageSize :=
    Nat.mod_eq_of_lt (Nat.lt_of_le_of_lt (Nat.mul_le_mul_right pageSize few) (by decide))
  rw [PageAllocator.numL1EntriesToWalk, size, divideUp, Target.wordWidth, sectionSize]
  generalize virtRegion.length = total at *
  rw [pageSize]
  omega

theorem pages_translated {physRegion virtRegion : PageRegion} {recorded : Bool}
    (stocked : Stocked mmu live) (pair : PagePair physRegion virtRegion)
    (ran : mmu.tryRecordPageInL1 depth physRegion virtRegion 0 = some (recorded, after))
    {offset : Nat} (inside : offset < (mappingOf physRegion virtRegion).size)
    (below : (mappingOf physRegion virtRegion).virtual + offset < 2 ^ 30) :
    after.tables.translate ((mappingOf physRegion virtRegion).virtual + offset) =
      some (4 * (physRegion.offset + offset / pageSize) % 2 ^ 20 * pageSize + offset % pageSize) := by
  rcases stocked.tryRecordPageInL1 ran with ⟨_, _, entries⟩
  have index : offset / pageSize < virtRegion.length := Nat.div_lt_of_lt_mul (by
    rw [Nat.mul_comm]
    exact inside)
  rw [mappingOf] at below ⊢
  dsimp only at below ⊢
  have gigabyte : virtRegion.offset + offset / pageSize < 2 ^ 18 := by
    rw [@address_split virtRegion.offset offset pageSize] at below
    have upper := Nat.lt_of_le_of_lt (Nat.le_add_right _ _) below
    exact Nat.lt_of_mul_lt_mul_right (Nat.lt_of_lt_of_eq upper (by decide))
  rw [@address_split virtRegion.offset offset pageSize]
  have split : offset / pageSize / 256 * 256 + offset / pageSize % 256 = offset / pageSize :=
    Nat.div_add_mod' _ _
  have few : offset / pageSize % 256 < 256 := Nat.mod_lt _ (by decide)
  have entry := entries (offset / pageSize / 256) (page_walked pair index)
    (offset / pageSize % 256) few (by
      rw [l2NumEntries, split]
      exact index)
  rw [← split] at index gigabyte
  have translated := translate_recorded_page pair few index
    (Nat.mod_lt offset (by decide : 0 < pageSize)) gigabyte entry
  rw [split] at translated
  exact translated

/-- What is beyond the first gigabyte is translated by nothing. -/
theorem Mapping.Faithful.below {mapping : Mapping} {tables : PageTables}
    (faithful : mapping.Faithful tables) (addressable : mapping.virtual + mapping.size ≤ 2 ^ 32)
    {offset : Nat} (inside : offset < mapping.size) : mapping.virtual + offset < 2 ^ 30 := by
  apply Nat.lt_of_not_le
  intro above
  have nothing := @PageTables.translate_of_ge tables _ above
    (Nat.lt_of_lt_of_le (Nat.add_lt_add_left inside _) addressable)
  rw [faithful offset inside] at nothing
  cases nothing

theorem mappingOf_addressable {magnitude limit : Nat} (physRegion : Region magnitude)
    {virtRegion : Region magnitude} (ends : virtRegion.offset + virtRegion.length ≤ limit)
    (bounded : limit * magnitude ≤ 2 ^ 32) :
    (mappingOf physRegion virtRegion).virtual + (mappingOf physRegion virtRegion).size ≤ 2 ^ 32 := by
  rw [mappingOf, ← Nat.add_mul]
  exact (Nat.mul_le_mul_right magnitude ends).trans bounded

theorem sections_faithful_iff {physRegion virtRegion : SectionRegion} (stocked : Stocked mmu live)
    (pair : SectionPair physRegion virtRegion)
    (ran : mmu.tryRecordSectionInL1 physRegion virtRegion = some (true, after)) :
    (mappingOf physRegion virtRegion).Faithful after.tables <->
      virtRegion.offset + virtRegion.length ≤ 1024 := by
  have nonempty := pair.nonempty
  have positive : 0 < sectionSize := by decide
  have gigabyte : 2 ^ 30 = 1024 * sectionSize := by decide
  constructor
  · intro faithful
    have addressable := mappingOf_addressable physRegion pair.addressable (by decide)
    have inside : (virtRegion.length - 1) * sectionSize < (mappingOf physRegion virtRegion).size :=
      Nat.mul_lt_mul_of_pos_right (by omega) positive
    have last := faithful.below addressable inside
    rw [mappingOf, gigabyte] at last
    dsimp only at last
    rw [← Nat.add_mul] at last
    have few := Nat.lt_of_mul_lt_mul_right last
    omega
  · intro low offset inside
    apply sections_translated stocked pair ran inside
    have upper := Nat.mul_le_mul_right sectionSize low
    rw [Nat.add_mul] at upper
    rw [mappingOf] at inside ⊢
    dsimp only at inside ⊢
    omega

theorem eq_zero_of_fourfold {page : Nat} (small : page < 2 ^ 18) (same : 4 * page % 2 ^ 20 = page) :
    page = 0 := by
  omega

/-- The page with the address zero is the only one that is four times its address. -/
theorem pages_faithful_iff {physRegion virtRegion : PageRegion} {recorded : Bool}
    (stocked : Stocked mmu live) (pair : PagePair physRegion virtRegion)
    (ran : mmu.tryRecordPageInL1 depth physRegion virtRegion 0 = some (recorded, after)) :
    (mappingOf physRegion virtRegion).Faithful after.tables <->
      physRegion = ⟨0, 1⟩ ∧ virtRegion.offset < 2 ^ 18 := by
  rcases pair.natural with ⟨exponent, physNatural, virtNatural⟩
  have equal : physRegion.length = virtRegion.length :=
    physNatural.length.trans virtNatural.length.symm
  have nonempty : 0 < virtRegion.length := by
    rw [virtNatural.length]
    exact Nat.two_pow_pos exponent
  have ends := end_le_of_added (equal ▸ nonempty) pair.added
  have positive : 0 < pageSize := by decide
  have gigabyte : 2 ^ 30 = 2 ^ 18 * pageSize := by decide
  constructor
  · intro faithful
    have addressable := mappingOf_addressable physRegion virtNatural.addressable (by decide)
    have page : forall index, index < virtRegion.length ->
        virtRegion.offset + index < 2 ^ 18 ∧ physRegion.offset + index = 0 := by
      intro index small
      have inside : index * pageSize < (mappingOf physRegion virtRegion).size :=
        Nat.mul_lt_mul_of_pos_right small positive
      have below := faithful.below addressable inside
      have right := faithful (index * pageSize) inside
      rw [pages_translated stocked pair ran inside below, Option.some.injEq,
        Nat.mul_div_cancel _ positive, Nat.mul_mod_left, Nat.add_zero, mappingOf] at right
      rw [mappingOf, gigabyte] at below
      dsimp only at below right
      rw [← Nat.add_mul] at below right
      have same := Nat.eq_of_mul_eq_mul_right positive right
      have added := Nat.lt_of_lt_of_le
        (Nat.add_lt_add_left (small.trans_eq equal.symm) physRegion.offset) ends
      exact ⟨Nat.lt_of_mul_lt_mul_right below, eq_zero_of_fourfold added same⟩
    have first := page 0 nonempty
    have single : virtRegion.length = 1 := by
      by_contra more
      have second := page 1 (by omega)
      omega
    refine ⟨?_, first.1⟩
    rcases physRegion with ⟨offset, length⟩
    rw [Region.mk.injEq]
    exact ⟨first.2, equal.trans single⟩
  · rintro ⟨rfl, low⟩ offset inside
    have single : virtRegion.length = 1 := equal.symm
    have small : offset < pageSize := by
      rw [mappingOf, single, Nat.one_mul] at inside
      exact inside
    have below : (mappingOf ⟨0, 1⟩ virtRegion).virtual + offset < 2 ^ 30 := by
      have upper := Nat.mul_le_mul_right pageSize (Nat.succ_le_of_lt low)
      rw [Nat.succ_mul, ← gigabyte] at upper
      rw [mappingOf]
      dsimp only
      omega
    rw [pages_translated stocked pair ran inside below, Nat.div_eq_of_lt small,
      Nat.mod_eq_of_lt small]
    rfl

end Calls

/-! ## Runs -/

/-- An allocator with the mappings for which recording has returned true. -/
structure MappingUse where
  mmu : PageAllocator
  recorded : List Mapping

inductive TableCall where
  | brokers
  | sections (physRegion virtRegion : SectionRegion)
  | pages (physRegion virtRegion : PageRegion)

namespace MappingUse

variable {use before after : MappingUse} {call : TableCall}

def start (mmu : PageAllocator) : MappingUse where
  mmu := mmu
  recorded := []

/-- Regions are recorded, or the two page allocators do whatever they do. -/
inductive Step : MappingUse -> TableCall -> MappingUse -> Prop
  | brokers (before : MappingUse) (physical virtual : RegionBroker) :
      Step before .brokers { before with
        mmu := { before.mmu with
          physicalPageAllocator := physical, virtualPageAllocator := virtual } }
  | sections (before : MappingUse) (physRegion virtRegion : SectionRegion)
      (pair : SectionPair physRegion virtRegion) (recorded : Bool) (mmu : PageAllocator)
      (ran : before.mmu.tryRecordSectionInL1 physRegion virtRegion = some (recorded, mmu)) :
      Step before (.sections physRegion virtRegion) ⟨mmu,
        if recorded then mappingOf physRegion virtRegion :: before.recorded else before.recorded⟩
  | pages (before : MappingUse) (physRegion virtRegion : PageRegion)
      (pair : PagePair physRegion virtRegion) (depth : Nat) (recorded : Bool) (mmu : PageAllocator)
      (ran : before.mmu.tryRecordPageInL1 depth physRegion virtRegion 0 = some (recorded, mmu)) :
      Step before (.pages physRegion virtRegion) ⟨mmu,
        if recorded then mappingOf physRegion virtRegion :: before.recorded else before.recorded⟩

/-- What a call that records should do: its mapping is translated faithfully, and
the translation of what was recorded earlier is unchanged. -/
def KeepsFaith (before after : MappingUse) : Prop :=
  (forall mapping, after.recorded = mapping :: before.recorded ->
    mapping.Faithful after.mmu.tables) ∧
  (forall mapping, mapping ∈ before.recorded -> forall offset, offset < mapping.size ->
    after.mmu.tables.translate (mapping.virtual + offset) =
      before.mmu.tables.translate (mapping.virtual + offset))

/-- Sections below the first gigabyte, and the first page of physical memory. -/
def Translatable : TableCall -> Prop
  | .brokers => True
  | .sections _ virtRegion => virtRegion.offset + virtRegion.length ≤ 1024
  | .pages physRegion virtRegion => physRegion = ⟨0, 1⟩ ∧ virtRegion.offset < 2 ^ 18

/-- The invariant: every address that was recorded is below the first gigabyte and
has a translation, or is beyond it. -/
structure Sound (use : MappingUse) (live : List Allocation) : Prop where
  stocked : Stocked use.mmu live
  addressable : forall mapping, mapping ∈ use.recorded -> mapping.virtual + mapping.size ≤ 2 ^ 32
  translated : forall mapping, mapping ∈ use.recorded -> forall offset, offset < mapping.size ->
    mapping.virtual + offset < 2 ^ 30 ->
      Exists fun target => use.mmu.tables.translate (mapping.virtual + offset) = some target

variable {live : List Allocation}

/-- What has grown translates every recorded address as before. -/
theorem Sound.unchanged (sound : Sound before live) {tables : PageTables}
    (grows : Grows before.mmu.tables tables) {mapping : Mapping} (member : mapping ∈ before.recorded)
    {offset : Nat} (inside : offset < mapping.size) :
    tables.translate (mapping.virtual + offset) =
      before.mmu.tables.translate (mapping.virtual + offset) := by
  rcases Nat.lt_or_ge (mapping.virtual + offset) (2 ^ 30) with below | above
  · rcases sound.translated mapping member offset inside below with ⟨target, found⟩
    rw [found]
    exact grows.extends _ _ found
  · have addressable := sound.addressable mapping member
    have small : mapping.virtual + offset < 2 ^ 32 := by omega
    rw [PageTables.translate_of_ge above small, PageTables.translate_of_ge above small]

/-- A mapping is added that has translations below the first gigabyte. -/
theorem Sound.record (sound : Sound before live) {mmu : PageAllocator}
    {liveAfter : List Allocation} (advances : Advances before.mmu live mmu liveAfter)
    {mapping : Mapping} (addressable : mapping.virtual + mapping.size ≤ 2 ^ 32)
    (translated : forall offset, offset < mapping.size -> mapping.virtual + offset < 2 ^ 30 ->
      Exists fun target => mmu.tables.translate (mapping.virtual + offset) = some target) :
    Sound ⟨mmu, mapping :: before.recorded⟩ liveAfter where
  stocked := advances.stocked
  addressable := by
    intro other member
    rcases List.mem_cons.mp member with rfl | old
    · exact addressable
    · exact sound.addressable other old
  translated := by
    intro other member offset inside below
    rcases List.mem_cons.mp member with rfl | old
    · exact translated offset inside below
    · rcases sound.translated other old offset inside below with ⟨target, found⟩
      exact ⟨target, advances.grows.extends _ _ found⟩

/-- Since nothing changes for what was recorded earlier, only the new mapping counts. -/
theorem Sound.keepsFaith_iff (sound : Sound before live) {mmu : PageAllocator}
    (grows : Grows before.mmu.tables mmu.tables) (mapping : Mapping) :
    KeepsFaith before ⟨mmu, mapping :: before.recorded⟩ <-> mapping.Faithful mmu.tables := by
  constructor
  · exact fun keeps => keeps.1 mapping rfl
  · intro faithful
    refine ⟨?_, fun other member offset inside => sound.unchanged grows member inside⟩
    intro other same
    rw [← (List.cons.inj same).1]
    exact faithful

/-- What one step does: it keeps the invariant, and keeps faith just when its call
can be translated. -/
theorem Sound.step (sound : Sound before live) (stepped : Step before call after) :
    (Exists fun liveAfter => Sound after liveAfter) ∧
      (KeepsFaith before after <-> Translatable call) := by
  cases stepped with
  | brokers physical virtual =>
      refine ⟨⟨live, ⟨sound.stocked.cells, sound.stocked.many, sound.stocked.spare,
        sound.stocked.pointed⟩, sound.addressable, sound.translated⟩, ?_⟩
      refine ⟨fun _ => trivial, fun _ => ⟨?_, fun _ _ _ _ => rfl⟩⟩
      intro mapping longer
      exact absurd longer.symm (List.cons_ne_self mapping _)
  | sections physRegion virtRegion pair recorded mmu ran =>
      have success : recorded = true := by
        rw [PageAllocator.tryRecordSectionInL1, if_neg (not_not.mpr pair.equal)] at ran
        rcases Option.bind_eq_some_iff.mp ran with ⟨tables, _, ran⟩
        cases ran
        rfl
      subst success
      have advances := (sound.stocked.tryRecordSectionInL1 ran).1
      rw [if_pos rfl, sound.keepsFaith_iff advances.grows]
      refine ⟨⟨live, sound.record advances (mappingOf_addressable _ pair.addressable (by decide)) ?_⟩,
        sections_faithful_iff sound.stocked pair ran⟩
      exact fun offset inside below =>
        ⟨_, sections_translated sound.stocked pair ran inside below⟩
  | pages physRegion virtRegion pair depth recorded mmu ran =>
      rcases sound.stocked.tryRecordPageInL1 ran with ⟨success, ⟨liveAfter, advances⟩, _⟩
      subst success
      rcases pair.natural with ⟨exponent, _, natural⟩
      rw [if_pos rfl, sound.keepsFaith_iff advances.grows]
      refine ⟨⟨liveAfter, sound.record advances
        (mappingOf_addressable _ natural.addressable (by decide)) ?_⟩,
        pages_faithful_iff sound.stocked pair ran⟩
      exact fun offset inside below =>
        ⟨_, pages_translated sound.stocked pair ran inside below⟩

theorem sound_start {memory : Nat -> L2Table} {codeEnd : Nat} {mmu : PageAllocator}
    (started : startPageTables memory codeEnd = some mmu) : Sound (start mmu) [] where
  stocked := stocked_start started
  addressable := fun _ wrong => absurd wrong List.not_mem_nil
  translated := fun _ wrong => absurd wrong List.not_mem_nil

theorem Sound.of_reaches {memory : Nat -> L2Table} {codeEnd : Nat} {mmu : PageAllocator}
    {calls : List TableCall} (started : startPageTables memory codeEnd = some mmu)
    (reached : Reaches Step (start mmu) calls use) : Exists fun live => Sound use live :=
  reached.invariant (fun use => Exists fun live => Sound use live) ⟨[], sound_start started⟩
    fun _ _ _ sound stepped => sound.elim fun _ sound => (sound.step stepped).1

theorem recorded_of_step (stepped : Step before call after) :
    after.recorded = before.recorded ∨
      Exists fun mapping => after.recorded = mapping :: before.recorded := by
  cases stepped with
  | brokers physical virtual => exact .inl rfl
  | sections physRegion virtRegion pair recorded mmu ran =>
      cases recorded with
      | true => exact .inr ⟨_, rfl⟩
      | false => exact .inl rfl
  | pages physRegion virtRegion pair depth recorded mmu ran =>
      cases recorded with
      | true => exact .inr ⟨_, rfl⟩
      | false => exact .inl rfl

/-- Keeping faith at every step keeps every mapping faithful. -/
theorem KeepsFaith.faithful (keeps : KeepsFaith before after) (stepped : Step before call after)
    (faithful : forall mapping, mapping ∈ before.recorded -> mapping.Faithful before.mmu.tables) :
    forall mapping, mapping ∈ after.recorded -> mapping.Faithful after.mmu.tables := by
  have earlier : forall mapping, mapping ∈ before.recorded -> mapping.Faithful after.mmu.tables := by
    intro mapping member offset inside
    rw [keeps.2 mapping member offset inside]
    exact faithful mapping member offset inside
  intro mapping member
  rcases recorded_of_step stepped with same | ⟨latest, longer⟩
  · exact earlier mapping (same ▸ member)
  · rw [longer] at member
    rcases List.mem_cons.mp member with rfl | old
    · exact keeps.1 mapping longer
    · exact earlier mapping old

/-- In every run from boot on, a call that records keeps faith just when it can be
translated.  In a run of such calls every address that was recorded is translated
faithfully. -/
theorem recording_faithful_iff {memory : Nat -> L2Table} {codeEnd : Nat} {mmu : PageAllocator}
    (started : startPageTables memory codeEnd = some mmu) :
    (forall calls use call after, Reaches Step (start mmu) calls use -> Step use call after ->
      (KeepsFaith use after <-> Translatable call)) ∧
    (forall calls use, Reaches (guarded Step fun _ => Translatable) (start mmu) calls use ->
      forall mapping, mapping ∈ use.recorded -> mapping.Faithful use.mmu.tables) := by
  constructor
  · intro calls use call after reached stepped
    rcases Sound.of_reaches started reached with ⟨live, sound⟩
    exact (sound.step stepped).2
  · intro calls use reached
    induction reached with
    | refl => exact fun _ wrong => absurd wrong List.not_mem_nil
    | tail earlier last inductionHypothesis =>
        rcases Sound.of_reaches started earlier.of_guarded with ⟨live, sound⟩
        exact ((sound.step last.2).2.mpr last.1).faithful last.2 inductionHypothesis

/-- One section is recorded at another address than its own. -/
theorem recording_faithful_iff_section : Exists fun mmu => Exists fun after =>
    startPageTables (fun _ => L2Table.empty) 0x8000 = some mmu ∧
    mmu.tryRecordSectionInL1 ⟨2, 1⟩ ⟨1, 1⟩ = some (true, after) ∧
    after.tables.translate 0x100004 = some 0x200004 := by
  have records : ((startPageTables (fun _ => L2Table.empty) 0x8000).bind fun mmu =>
      (mmu.tryRecordSectionInL1 ⟨2, 1⟩ ⟨1, 1⟩).map Prod.fst) = some true := by
    decide +kernel
  rcases Option.bind_eq_some_iff.mp records with ⟨mmu, started, records⟩
  rcases Option.map_eq_some_iff.mp records with ⟨⟨recorded, after⟩, ran, success⟩
  dsimp only at success
  subst success
  have pair : SectionPair ⟨2, 1⟩ ⟨1, 1⟩ := by
    refine ⟨rfl, by decide, by decide, ?_⟩
    exact (span_subset (by decide) (by decide)).trans Set.subset_union_left
  have run : Reaches (guarded Step fun _ => Translatable) (start mmu) [.sections ⟨2, 1⟩ ⟨1, 1⟩]
      ⟨after, [mappingOf (⟨2, 1⟩ : SectionRegion) ⟨1, 1⟩]⟩ := by
    have translatable : Translatable (.sections ⟨2, 1⟩ ⟨1, 1⟩) := (by decide : 1 + 1 ≤ 1024)
    exact .tail .refl ⟨translatable, .sections (start mmu) _ _ pair true after ran⟩
  have faithful := (recording_faithful_iff started).2 _ _ run _ List.mem_cons_self
  exact ⟨mmu, after, started, ran, faithful 4 (by decide)⟩

/-- The page at four megabytes is recorded as itself, and translated to the page at
sixteen. -/
theorem page_recorded_elsewhere : Exists fun mmu => Exists fun after =>
    startPageTables (fun _ => L2Table.empty) 0x8000 = some mmu ∧
    Step (start mmu) (.pages ⟨1024, 1⟩ ⟨1024, 1⟩) after ∧
    after.recorded = [⟨0x400000, 0x400000, 0x1000⟩] ∧
    after.mmu.tables.translate 0x400000 = some 0x1000000 ∧ ¬ KeepsFaith (start mmu) after := by
  have records : ((startPageTables (fun _ => L2Table.empty) 0x8000).bind fun mmu =>
      (mmu.tryRecordPageInL1 1 ⟨1024, 1⟩ ⟨1024, 1⟩ 0).map fun result =>
        (result.1, result.2.tables.translate 0x400000)) = some (true, some 0x1000000) := by
    decide +kernel
  rcases Option.bind_eq_some_iff.mp records with ⟨mmu, started, records⟩
  rcases Option.map_eq_some_iff.mp records with ⟨⟨recorded, after⟩, ran, outcome⟩
  rw [Prod.mk.injEq] at outcome
  rcases outcome with ⟨success, translated⟩
  dsimp only at success translated
  subst success
  have natural : Natural .aarch32 0 ⟨1024, 1⟩ := ⟨rfl, by decide, by decide⟩
  have pair : PagePair ⟨1024, 1⟩ ⟨1024, 1⟩ := by
    refine ⟨⟨0, natural, natural⟩, ?_⟩
    exact (span_subset (by decide) (by decide)).trans Set.subset_union_left
  refine ⟨mmu, _, started, .pages (start mmu) _ _ pair 1 true after ran, rfl, translated, ?_⟩
  intro keeps
  have faithful := keeps.1 _ rfl 0 (by decide)
  rw [show (mappingOf (⟨1024, 1⟩ : PageRegion) ⟨1024, 1⟩).virtual + 0 = 0x400000 from rfl] at faithful
  exact absurd (translated.symm.trans faithful) (by decide)

end MappingUse

end Mmu
end Kernel
end Pinyon
