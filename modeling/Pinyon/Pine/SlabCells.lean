import Pinyon.Library.Span
import Pinyon.Pine.SlabAllocator

namespace Pinyon
namespace Pine

open Library

/-!
# The cells of a slab allocator

Cells are numbered through over all recorded pages, and so are the bits of the
bitmaps.  `cell` and `bitAt` read the two numberings, and `Cells` ties them to
the allocations that are live: cell `k` is live just when bit `k` is set.

Every search for a clear bit is described by its three outcomes.  The third,
where a bit beyond the width of a word was looked at, is the one that the
accessor of the bitmap cannot survive.
-/

namespace SlabAllocator

variable {target : Target} {value : ValueSize}
variable {slab after : SlabAllocator target value} {live : List Allocation} {index : Nat}
variable {alloc : Allocation}

/-- Cell number `index`, when some page has it. -/
def cell (slab : SlabAllocator target value) (index : Nat) : Option Allocation :=
  slab.slabPages[index / value.slabsPerPage]?.map fun page =>
    ⟨page + index % value.slabsPerPage * value.bytes, value.bytes⟩

/-- Bit number `index`, when some bitmap has it and it can be read. -/
def bitAt (slab : SlabAllocator target value) (index : Nat) : Option Bool := do
  let bitmap <- slab.bitmaps[index / value.bitsPerBitmap]?
  bitmap.bit (index % value.bitsPerBitmap)

/-- The allocator knows of the live allocations, and of no others, that their
cells are taken. -/
structure Cells (slab : SlabAllocator target value) (live : List Allocation) : Prop where
  aligned : forall page, page ∈ slab.slabPages -> pageSize ∣ page
  bounded : forall page, page ∈ slab.slabPages -> page + pageSize ≤ target.wordLimit
  distinct : slab.slabPages.Nodup
  counted : slab.numSlabs ≤ slab.bitmaps.length * value.bitsPerBitmap
  small : forall index, slab.bitAt index = some true ->
    index < slab.numSlabs ∧ index < target.wordWidth
  known : forall alloc, alloc ∈ live <->
    Exists fun index => slab.bitAt index = some true ∧ slab.cell index = some alloc
  nodup : live.Nodup

/-- The cells that no one holds. -/
def available (slab : SlabAllocator target value) : Set Allocation :=
  fun alloc => Exists fun index => slab.bitAt index ≠ some true ∧ slab.cell index = some alloc

/-! ## The two numberings -/

theorem bitsPerBitmap_pos (target : Target) (value : ValueSize) : 0 < value.bitsPerBitmap :=
  Nat.lt_of_le_of_lt (Nat.zero_le _) (wordWidth_lt_bitsPerBitmap target value)

theorem cell_eq_some : slab.cell index = some alloc <->
    Exists fun page => slab.slabPages[index / value.slabsPerPage]? = some page ∧
      alloc = ⟨page + index % value.slabsPerPage * value.bytes, value.bytes⟩ := by
  rw [cell, Option.map_eq_some_iff]
  exact exists_congr fun page => and_congr_right fun _ => eq_comm

theorem page_lt : index / value.slabsPerPage < slab.slabPages.length <-> index < slab.numSlabs :=
  Nat.div_lt_iff_lt_mul (slabsPerPage_pos value)

theorem cell_of_lt (inside : index < slab.numSlabs) :
    Exists fun alloc => slab.cell index = some alloc := by
  have page := page_lt.mpr inside
  exact ⟨_, by rw [cell, List.getElem?_eq_getElem page, Option.map_some]⟩

theorem lt_of_cell (found : slab.cell index = some alloc) : index < slab.numSlabs := by
  rcases cell_eq_some.mp found with ⟨page, listed, _⟩
  exact page_lt.mp (List.getElem?_eq_some_iff.mp listed).1

/-- A cell lies inside its page. -/
theorem cell_fits (value : ValueSize) (index : Nat) :
    index % value.slabsPerPage * value.bytes + value.bytes ≤ pageSize := by
  have last : index % value.slabsPerPage + 1 ≤ value.slabsPerPage :=
    Nat.mod_lt _ (slabsPerPage_pos value)
  calc index % value.slabsPerPage * value.bytes + value.bytes
      = (index % value.slabsPerPage + 1) * value.bytes := (Nat.succ_mul _ _).symm
    _ ≤ value.slabsPerPage * value.bytes := Nat.mul_le_mul_right _ last
    _ ≤ pageSize := Nat.div_mul_le_self _ _

theorem Cells.page_mem (cells : Cells slab live) {page : Nat}
    (listed : slab.slabPages[index / value.slabsPerPage]? = some page) :
    pageSize ∣ page ∧ page + pageSize ≤ target.wordLimit := by
  have member := List.mem_of_getElem? listed
  exact ⟨cells.aligned page member, cells.bounded page member⟩

/-- The way back from the address of a cell to its number. -/
theorem Cells.findAssociatedSlabPage_eq (cells : Cells slab live)
    (found : slab.cell index = some alloc) :
    slab.findAssociatedSlabPage alloc.ptr =
      (index / value.slabsPerPage, index % value.slabsPerPage) := by
  rcases cell_eq_some.mp found with ⟨page, listed, rfl⟩
  rcases List.getElem?_eq_some_iff.mp listed with ⟨inside, rfl⟩
  rcases cells.page_mem listed with ⟨⟨number, here⟩, bounded⟩
  have fits := cell_fits value index
  have positive := value.positive
  have base : alignDownTwo target.wordWidth
      (slab.slabPages[index / value.slabsPerPage] + index % value.slabsPerPage * value.bytes)
      pageSize = slab.slabPages[index / value.slabsPerPage] := by
    have small : slab.slabPages[index / value.slabsPerPage] +
        index % value.slabsPerPage * value.bytes < 2 ^ target.wordWidth := by
      rw [Target.wordLimit] at bounded
      omega
    have rounded : (pageSize * number + index % value.slabsPerPage * value.bytes) / pageSize =
        number := by
      rw [Nat.mul_add_div (by decide), Nat.div_eq_of_lt (by omega), Nat.add_zero]
    rw [show pageSize = 2 ^ 12 from rfl, alignDownTwo_eq (by cases target <;> decide) small, here,
      show 2 ^ 12 = pageSize from rfl, rounded, Nat.mul_comm]
  simp only [findAssociatedSlabPage, base, Nat.add_sub_cancel_left,
    Nat.mul_div_cancel _ positive, cells.distinct.idxOf_getElem]

theorem Cells.cell_injective (cells : Cells slab live) {first second : Nat}
    (left : slab.cell first = some alloc) (right : slab.cell second = some alloc) :
    first = second := by
  have same := (cells.findAssociatedSlabPage_eq left).symm.trans
    (cells.findAssociatedSlabPage_eq right)
  have pages : first / value.slabsPerPage = second / value.slabsPerPage := congrArg Prod.fst same
  have places : first % value.slabsPerPage = second % value.slabsPerPage := congrArg Prod.snd same
  rw [← Nat.div_add_mod first value.slabsPerPage, pages, places, Nat.div_add_mod]

/-- Different cells share no byte. -/
theorem Cells.cell_disjoint (cells : Cells slab live) {first second : Nat} {left right : Allocation}
    (leftCell : slab.cell first = some left) (rightCell : slab.cell second = some right)
    (different : first ≠ second) :
    Disjoint (span left.ptr left.size) (span right.ptr right.size) := by
  have unequal : left ≠ right := fun same =>
    different (cells.cell_injective leftCell (same ▸ rightCell))
  rcases cell_eq_some.mp leftCell with ⟨leftPage, leftListed, rfl⟩
  rcases cell_eq_some.mp rightCell with ⟨rightPage, rightListed, rfl⟩
  rcases (cells.page_mem leftListed).1 with ⟨leftNumber, rfl⟩
  rcases (cells.page_mem rightListed).1 with ⟨rightNumber, rfl⟩
  have leftFits := cell_fits value first
  have rightFits := cell_fits value second
  have positive := value.positive
  apply (disjoint_span positive positive).mpr
  dsimp only
  generalize first % value.slabsPerPage = leftPlace at *
  generalize second % value.slabsPerPage = rightPlace at *
  rcases Nat.lt_trichotomy leftNumber rightNumber with before | rfl | behind
  · have apart := Nat.mul_le_mul_left pageSize (Nat.succ_le_of_lt before)
    rw [Nat.mul_succ] at apart
    omega
  · rcases Nat.lt_trichotomy leftPlace rightPlace with before | rfl | behind
    · have apart := Nat.mul_le_mul_right value.bytes (Nat.succ_le_of_lt before)
      rw [Nat.succ_mul] at apart
      omega
    · exact absurd rfl unequal
    · have apart := Nat.mul_le_mul_right value.bytes (Nat.succ_le_of_lt behind)
      rw [Nat.succ_mul] at apart
      omega
  · have apart := Nat.mul_le_mul_left pageSize (Nat.succ_le_of_lt behind)
    rw [Nat.mul_succ] at apart
    omega

/-! ## Searching for a clear bit -/

theorem bitAt_eq {page bit : Nat} {bitmap : BitMap target value.bitsPerBitmap}
    (listed : slab.bitmaps[page]? = some bitmap) (legal : bit < value.bitsPerBitmap) :
    slab.bitAt (page * value.bitsPerBitmap + bit) = bitmap.bit bit := by
  have positive := bitsPerBitmap_pos target value
  rw [bitAt, Nat.mul_comm, Nat.mul_add_div positive, Nat.mul_add_mod, Nat.div_eq_of_lt legal,
    Nat.mod_eq_of_lt legal, Nat.add_zero, listed]
  rfl

/-- The outcomes of a search from bit `start` on: a clear bit, no clear bit, or
a bit that cannot be read. -/
inductive Search (slab : SlabAllocator target value) (start : Nat) :
    Option (Option (Nat × Nat)) -> Prop
  | found (page bit : Nat) (legal : bit < value.bitsPerBitmap)
      (behind : start ≤ page * value.bitsPerBitmap + bit)
      (inside : page * value.bitsPerBitmap + bit < slab.numSlabs)
      (clear : slab.bitAt (page * value.bitsPerBitmap + bit) = some false)
      (earlier : forall index, start ≤ index -> index < page * value.bitsPerBitmap + bit ->
        slab.bitAt index = some true) :
      Search slab start (some (some (page, bit)))
  | full (all : forall index, start ≤ index -> index < slab.numSlabs ->
        slab.bitAt index = some true) :
      Search slab start (some none)
  | stuck (index : Nat) (behind : start ≤ index) (inside : index < slab.numSlabs)
      (unreadable : slab.bitAt index = none)
      (earlier : forall other, start ≤ other -> other < index -> slab.bitAt other = some true) :
      Search slab start none

/-- A bit that is taken may be put in front of a search. -/
theorem Search.step {start : Nat} {result : Option (Option (Nat × Nat))}
    (search : Search slab (start + 1) result) (taken : slab.bitAt start = some true) :
    Search slab start result := by
  have extend : forall {limit : Nat},
      (forall index, start + 1 ≤ index -> index < limit -> slab.bitAt index = some true) ->
      forall index, start ≤ index -> index < limit -> slab.bitAt index = some true := by
    intro limit later index lower upper
    rcases Nat.eq_or_lt_of_le lower with rfl | strict
    · exact taken
    · exact later index strict upper
  cases search with
  | found page bit legal behind inside clear earlier =>
      exact .found page bit legal (by omega) inside clear (extend earlier)
  | full all => exact .full (extend all)
  | stuck index behind inside unreadable earlier =>
      exact .stuck index (by omega) inside unreadable (extend earlier)

/-- Nothing is found beyond the last cell. -/
theorem Search.beyond {start start' : Nat} {result : Option (Option (Nat × Nat))}
    (search : Search slab start' result) (ahead : start ≤ start') (last : slab.numSlabs ≤ start) :
    Search slab start result := by
  cases search with
  | found page bit legal behind inside clear earlier => omega
  | full all => exact .full fun index lower upper => absurd upper (by omega)
  | stuck index behind inside unreadable earlier => omega

/-- One bitmap is searched, and then whatever comes behind it. -/
private theorem findFreeBitIn_spec {page : Nat} {bitmap : BitMap target value.bitsPerBitmap}
    (listed : slab.bitmaps[page]? = some bitmap) {onward : Option (Option (Nat × Nat))}
    (next : Search slab ((page + 1) * value.bitsPerBitmap) onward)
    (rest bit : Nat) (whole : bit + rest = value.bitsPerBitmap) :
    Search slab (page * value.bitsPerBitmap + bit)
      (match findFreeBitIn slab.numSlabs page bitmap rest bit with
        | none => none
        | some (some index) => some (some (page, index))
        | some none => onward) := by
  rw [Nat.succ_mul] at next
  induction rest generalizing bit with
  | zero =>
      rw [Nat.add_zero] at whole
      rw [findFreeBitIn, whole]
      exact next
  | succ rest inductionHypothesis =>
      have legal : bit < value.bitsPerBitmap := by omega
      have here := bitAt_eq listed legal
      rw [findFreeBitIn, calculateIndexFromBitmapIndexes]
      by_cases inside : page * value.bitsPerBitmap + bit < slab.numSlabs
      · rw [if_pos inside]
        cases read : bitmap.bit bit with
        | none =>
            refine .stuck _ (Nat.le_refl _) inside (here.trans read) ?_
            intro other lower upper
            omega
        | some value =>
            cases value with
            | false =>
                refine .found page bit legal (Nat.le_refl _) inside (here.trans read) ?_
                intro other lower upper
                omega
            | true =>
                have onwards := inductionHypothesis (bit + 1) (by omega)
                exact onwards.step (here.trans read)
      · rw [if_neg inside]
        exact next.beyond (by omega) (by omega)

private theorem findFreeBit_spec (counted : slab.numSlabs ≤ slab.bitmaps.length * value.bitsPerBitmap)
    (rest earlier : List (BitMap target value.bitsPerBitmap))
    (split : slab.bitmaps = earlier ++ rest) :
    Search slab (earlier.length * value.bitsPerBitmap)
      (findFreeBit slab.numSlabs rest earlier.length) := by
  induction rest generalizing earlier with
  | nil =>
      rw [split, List.append_nil] at counted
      exact .full fun index lower upper => absurd upper (by omega)
  | cons bitmap rest inductionHypothesis =>
      have listed : slab.bitmaps[earlier.length]? = some bitmap := by
        rw [split, List.getElem?_append_right (Nat.le_refl _), Nat.sub_self]
        rfl
      have next := inductionHypothesis (earlier ++ [bitmap]) (by simpa using split)
      rw [List.length_append, List.length_singleton] at next
      exact findFreeBitIn_spec listed next value.bitsPerBitmap 0 (Nat.zero_add _)

theorem tryFindFreeBit_spec
    (counted : slab.numSlabs ≤ slab.bitmaps.length * value.bitsPerBitmap) :
    Search slab 0 slab.tryFindFreeBit := by
  have whole := findFreeBit_spec counted slab.bitmaps [] rfl
  rwa [List.length_nil, Nat.zero_mul] at whole

/-! ## Bits beyond the width of a word -/

theorem bitAt_eq_none (large : target.wordWidth ≤ index) (first : index < value.bitsPerBitmap) :
    slab.bitAt index = none := by
  cases listed : slab.bitmaps[0]? with
  | none => simp [bitAt, Nat.div_eq_of_lt first, listed]
  | some bitmap =>
      have here := bitAt_eq listed first
      rw [Nat.zero_mul, Nat.zero_add] at here
      rw [here, BitMap.bit_eq_none large]

/-- A bit that can be read behind nothing but taken bits is a bit of the first
word: the bits in front of a later one would include one that cannot be read. -/
theorem small_of_earlier {held : Bool} (read : slab.bitAt index = some held)
    (earlier : forall other, other < index -> slab.bitAt other = some true) :
    index < target.wordWidth := by
  have wide := wordWidth_lt_bitsPerBitmap target value
  apply Nat.lt_of_not_le
  intro large
  have unreadable : slab.bitAt target.wordWidth = none := bitAt_eq_none (Nat.le_refl _) wide
  rcases Nat.eq_or_lt_of_le large with same | strict
  · rw [same] at unreadable
    exact absurd (unreadable.symm.trans read) (Option.some_ne_none held).symm
  · exact absurd (unreadable.symm.trans (earlier _ strict)) (Option.some_ne_none true).symm

/-- A bit of the first word can be read. -/
theorem large_of_unreadable
    (counted : slab.numSlabs ≤ slab.bitmaps.length * value.bitsPerBitmap)
    (inside : index < slab.numSlabs) (unreadable : slab.bitAt index = none) :
    target.wordWidth ≤ index := by
  have wide := wordWidth_lt_bitsPerBitmap target value
  apply Nat.le_of_not_lt
  intro small
  have legal : index < value.bitsPerBitmap := Nat.lt_trans small wide
  have some : 0 < slab.bitmaps.length := by
    apply Nat.pos_of_ne_zero
    intro zero
    rw [zero, Nat.zero_mul] at counted
    omega
  have here := bitAt_eq (List.getElem?_eq_getElem some) legal
  rw [Nat.zero_mul, Nat.zero_add, unreadable, BitMap.bit_eq (words_pos target value) legal small]
    at here
  exact absurd here (Option.some_ne_none _).symm

/-! ## One bit is written -/

/-- The allocator after bit `index` was given a value. -/
structure Marks (slab after : SlabAllocator target value) (index : Nat) (held : Bool) : Prop where
  slabPages : after.slabPages = slab.slabPages
  freePages : after.freePages = slab.freePages
  bitmaps : after.bitmaps.length = slab.bitmaps.length
  bits : forall other, after.bitAt other = if other = index then some held else slab.bitAt other

theorem nodeAt_eq {Content : Type} {list : List Content} {steps : Nat} {content : Content}
    (listed : list[steps]? = some content) : nodeAt list steps = some content := by
  have inside := (List.getElem?_eq_some_iff.mp listed).1
  rw [nodeAt, Nat.min_eq_left (by omega), listed]

private theorem marks_set {page bit : Nat} {bitmap marked : BitMap target value.bitsPerBitmap}
    {held : Bool} (listed : slab.bitmaps[page]? = some bitmap) (legal : bit < value.bitsPerBitmap)
    (bits : forall other, other < value.bitsPerBitmap ->
      marked.bit other = if other = bit then some held else bitmap.bit other) :
    Marks slab { slab with bitmaps := slab.bitmaps.set page marked }
      (page * value.bitsPerBitmap + bit) held := by
  have positive := bitsPerBitmap_pos target value
  refine ⟨rfl, rfl, List.length_set, ?_⟩
  intro other
  have split := Nat.div_add_mod other value.bitsPerBitmap
  have place : other % value.bitsPerBitmap < value.bitsPerBitmap := Nat.mod_lt _ positive
  by_cases samePage : other / value.bitsPerBitmap = page
  · have inside := (List.getElem?_eq_some_iff.mp listed).1
    rw [bitAt, bitAt, samePage, listed, List.getElem?_set_self inside]
    dsimp only [Option.bind_eq_bind, Option.bind_some]
    rw [bits _ place]
    apply if_congr _ rfl rfl
    rw [samePage, Nat.mul_comm] at split
    omega
  · have different : other ≠ page * value.bitsPerBitmap + bit := by
      intro same
      apply samePage
      rw [same, Nat.mul_comm, Nat.mul_add_div positive, Nat.div_eq_of_lt legal, Nat.add_zero]
    rw [if_neg different, bitAt, bitAt, List.getElem?_set_ne (Ne.symm samePage)]

theorem Marks.numSlabs {held : Bool} (marks : Marks slab after index held) :
    after.numSlabs = slab.numSlabs := by
  rw [SlabAllocator.numSlabs, SlabAllocator.numSlabs, marks.slabPages]

theorem Marks.cell {held : Bool} (marks : Marks slab after index held) (other : Nat) :
    after.cell other = slab.cell other := by
  rw [SlabAllocator.cell, SlabAllocator.cell, marks.slabPages]

/-- The outcomes of `allocate`. -/
inductive AllocateCase (slab : SlabAllocator target value) :
    Option (Allocation × SlabAllocator target value) -> Prop
  | given (index : Nat) (alloc : Allocation) (after : SlabAllocator target value)
      (found : slab.cell index = some alloc) (clear : slab.bitAt index = some false)
      (small : index < target.wordWidth) (marks : Marks slab after index true) :
      AllocateCase slab (some (alloc, after))
  | full (all : forall index, index < slab.numSlabs -> slab.bitAt index = some true) :
      AllocateCase slab (some ({}, slab))
  | stuck (large : target.wordWidth < slab.numSlabs)
      (all : forall index, index < target.wordWidth -> slab.bitAt index = some true) :
      AllocateCase slab none

theorem allocate_cases
    (counted : slab.numSlabs ≤ slab.bitmaps.length * value.bitsPerBitmap) :
    AllocateCase slab slab.allocate := by
  have search := tryFindFreeBit_spec counted
  unfold allocate
  generalize slab.tryFindFreeBit = result at search ⊢
  cases search with
  | full all => exact .full fun index inside => all index (Nat.zero_le _) inside
  | stuck index behind inside unreadable earlier =>
      have large := large_of_unreadable counted inside unreadable
      refine .stuck (Nat.lt_of_le_of_lt large inside) ?_
      intro other small
      exact earlier other (Nat.zero_le _) (by omega)
  | found page bit legal behind inside clear earlier =>
      have small := small_of_earlier clear fun other => earlier other (Nat.zero_le _)
      have pageInside : page < slab.bitmaps.length := by
        apply Nat.lt_of_mul_lt_mul_right
        exact Nat.lt_of_le_of_lt (Nat.le_add_right _ bit) (Nat.lt_of_lt_of_le inside counted)
      have listed := List.getElem?_eq_getElem pageInside
      have clearBit := (bitAt_eq listed legal).symm.trans clear
      rcases BitMap.setBit_spec (words_pos target value) legal clearBit with
        ⟨marked, written, bits⟩
      rcases cell_of_lt inside with ⟨alloc, cellFound⟩
      rcases cell_eq_some.mp cellFound with ⟨slabPage, slabListed, rfl⟩
      dsimp only
      rw [nodeAt_eq listed]
      dsimp only [Option.bind_eq_bind, Option.bind_some]
      rw [written]
      dsimp only [Option.bind_some, calculateSlabIndexes, calculateIndexFromBitmapIndexes]
      rw [nodeAt_eq slabListed]
      exact .given _ _ _ cellFound clear small (marks_set listed legal bits)

/-! ## Live cells -/

namespace Cells

theorem empty (target : Target) (value : ValueSize) :
    Cells (SlabAllocator.empty target value) [] where
  aligned := by simp [SlabAllocator.empty]
  bounded := by simp [SlabAllocator.empty]
  distinct := List.nodup_nil
  counted := by simp [SlabAllocator.empty, numSlabs]
  small := by simp [SlabAllocator.empty, bitAt]
  known := by simp [SlabAllocator.empty, bitAt]
  nodup := List.nodup_nil

/-- A live allocation is a cell of a recorded page. -/
theorem placed (cells : Cells slab live) (member : alloc ∈ live) :
    Exists fun page => Exists fun place => page ∈ slab.slabPages ∧ place < value.slabsPerPage ∧
      alloc = ⟨page + place * value.bytes, value.bytes⟩ := by
  rcases (cells.known alloc).mp member with ⟨index, _, found⟩
  rcases cell_eq_some.mp found with ⟨page, listed, same⟩
  exact ⟨page, _, List.mem_of_getElem? listed, Nat.mod_lt _ (slabsPerPage_pos value), same⟩

theorem packed (cells : Cells slab live) :
    Packed (live.map fun alloc => span alloc.ptr alloc.size) := by
  apply List.pairwise_map.mpr
  refine cells.nodup.imp_of_mem ?_
  intro left right leftMember rightMember different
  rcases (cells.known left).mp leftMember with ⟨first, _, leftFound⟩
  rcases (cells.known right).mp rightMember with ⟨second, _, rightFound⟩
  refine cells.cell_disjoint leftFound rightFound ?_
  rintro rfl
  exact different (Option.some.inj (leftFound.symm.trans rightFound))

/-- As many cells are live as there are bits that are set. -/
theorem length_ge (cells : Cells slab live) {count : Nat} (within : count ≤ slab.numSlabs)
    (all : forall index, index < count -> slab.bitAt index = some true) :
    count ≤ live.length := by
  have whole : ((List.range count).filterMap slab.cell).length = count := by
    rw [List.filterMap_length_eq_length.mpr, List.length_range]
    intro index member
    rcases cell_of_lt (Nat.lt_of_lt_of_le (List.mem_range.mp member) within) with ⟨alloc, found⟩
    rw [found]
    rfl
  have distinct : ((List.range count).filterMap slab.cell).Nodup := by
    apply List.Nodup.filterMap _ List.nodup_range
    intro first second alloc left right
    exact cells.cell_injective left right
  have sub : (List.range count).filterMap slab.cell ⊆ live := by
    intro alloc member
    rcases List.mem_filterMap.mp member with ⟨index, inside, found⟩
    exact (cells.known alloc).mpr ⟨index, all index (List.mem_range.mp inside), found⟩
  calc count = ((List.range count).filterMap slab.cell).length := whole.symm
    _ ≤ live.length := (distinct.subperm sub).length_le

theorem length_lt (cells : Cells slab live) {count : Nat} (inside : index < count)
    (free : slab.bitAt index ≠ some true)
    (below : forall other, slab.bitAt other = some true -> other < count) :
    live.length < count := by
  have sub : live ⊆ ((List.range count).erase index).filterMap slab.cell := by
    intro alloc member
    rcases (cells.known alloc).mp member with ⟨other, taken, found⟩
    have different : other ≠ index := fun same => free (same ▸ taken)
    exact List.mem_filterMap.mpr ⟨other,
      (List.mem_erase_of_ne different).mpr (List.mem_range.mpr (below other taken)), found⟩
  calc live.length ≤ (((List.range count).erase index).filterMap slab.cell).length :=
        (cells.nodup.subperm sub).length_le
    _ ≤ ((List.range count).erase index).length := List.length_filterMap_le _ _
    _ = count - 1 := by
        rw [List.length_erase_of_mem (List.mem_range.mpr inside), List.length_range]
    _ < count := by omega

/-- An allocation that the bitmaps can serve becomes live, and no other. -/
theorem mark (cells : Cells slab live) (marks : Marks slab after index true)
    (found : slab.cell index = some alloc) (clear : slab.bitAt index = some false)
    (small : index < target.wordWidth) : Cells after (alloc :: live) where
  aligned := marks.slabPages ▸ cells.aligned
  bounded := marks.slabPages ▸ cells.bounded
  distinct := marks.slabPages ▸ cells.distinct
  counted := by
    rw [marks.numSlabs, marks.bitmaps]
    exact cells.counted
  small := by
    intro other taken
    rw [marks.bits] at taken
    rw [marks.numSlabs]
    by_cases same : other = index
    · rw [same]
      exact ⟨lt_of_cell found, small⟩
    · rw [if_neg same] at taken
      exact cells.small other taken
  known := by
    intro other
    simp only [marks.cell, marks.bits]
    constructor
    · intro member
      rcases List.mem_cons.mp member with rfl | old
      · exact ⟨index, if_pos rfl, found⟩
      · rcases (cells.known other).mp old with ⟨place, taken, here⟩
        refine ⟨place, ?_, here⟩
        by_cases same : place = index
        · exact if_pos same
        · rw [if_neg same]
          exact taken
    · rintro ⟨place, taken, here⟩
      by_cases same : place = index
      · rw [same, found] at here
        exact List.mem_cons.mpr (.inl (Option.some.inj here).symm)
      · rw [if_neg same] at taken
        exact List.mem_cons_of_mem _ ((cells.known other).mpr ⟨place, taken, here⟩)
  nodup := by
    apply List.nodup_cons.mpr
    refine ⟨?_, cells.nodup⟩
    intro member
    rcases (cells.known alloc).mp member with ⟨place, taken, here⟩
    rw [cells.cell_injective here found, clear] at taken
    exact absurd taken (by decide)

/-- What a live allocation leaves behind when its bit is cleared. -/
theorem unmark (cells : Cells slab live) (marks : Marks slab after index false)
    (found : slab.cell index = some alloc) : Cells after (live.erase alloc) where
  aligned := marks.slabPages ▸ cells.aligned
  bounded := marks.slabPages ▸ cells.bounded
  distinct := marks.slabPages ▸ cells.distinct
  counted := by
    rw [marks.numSlabs, marks.bitmaps]
    exact cells.counted
  small := by
    intro other taken
    rw [marks.bits] at taken
    rw [marks.numSlabs]
    by_cases same : other = index
    · rw [if_pos same] at taken
      exact absurd taken (by decide)
    · rw [if_neg same] at taken
      exact cells.small other taken
  known := by
    intro other
    simp only [marks.cell, marks.bits]
    rw [cells.nodup.mem_erase_iff]
    constructor
    · rintro ⟨different, member⟩
      rcases (cells.known other).mp member with ⟨place, taken, here⟩
      have elsewhere : place ≠ index := by
        rintro rfl
        exact different (Option.some.inj (here.symm.trans found))
      exact ⟨place, by rwa [if_neg elsewhere], here⟩
    · rintro ⟨place, taken, here⟩
      by_cases same : place = index
      · rw [if_pos same] at taken
        exact absurd taken (by decide)
      · rw [if_neg same] at taken
        refine ⟨?_, (cells.known other).mpr ⟨place, taken, here⟩⟩
        rintro rfl
        exact same (cells.cell_injective here found)
  nodup := cells.nodup.erase alloc

/-- A live allocation can be freed, and its bit is the one that is cleared. -/
theorem free_marks (cells : Cells slab live) (member : alloc ∈ live) :
    Exists fun index => Exists fun after => slab.free alloc = some after ∧
      slab.cell index = some alloc ∧ slab.bitAt index = some true ∧
        Marks slab after index false := by
  rcases (cells.known alloc).mp member with ⟨index, taken, found⟩
  have inside := (cells.small index taken).1
  have small := (cells.small index taken).2
  have positive := bitsPerBitmap_pos target value
  have legal : index % value.bitsPerBitmap < value.bitsPerBitmap := Nat.mod_lt _ positive
  have whole := Nat.div_add_mod' index value.bitsPerBitmap
  have pageInside : index / value.bitsPerBitmap < slab.bitmaps.length :=
    (Nat.div_lt_iff_lt_mul positive).mpr (Nat.lt_of_lt_of_le inside cells.counted)
  have listed := List.getElem?_eq_getElem pageInside
  rcases BitMap.clearBit_spec (words_pos target value) legal
    (Nat.lt_of_le_of_lt (Nat.mod_le _ _) small) with ⟨cleared, written, bits⟩
  have marks := marks_set listed legal bits
  rw [whole] at marks
  refine ⟨index, _, ?_, found, taken, marks⟩
  have number : index / value.slabsPerPage * value.slabsPerPage + index % value.slabsPerPage =
      index := Nat.div_add_mod' _ _
  simp only [free, cells.findAssociatedSlabPage_eq found, calculateBitmapIndexes,
    calculateIndexFromSlabIndexes, number, nodeAt_eq listed]
  dsimp only [Option.bind_eq_bind, Option.bind_some]
  rw [written]
  rfl

/-! ## What the allocator promises as long as one word holds all set bits -/

/-- `allocate` fails to read a bit just when all bits of the first word are set
and another bit belongs to a cell. -/
theorem allocate_eq_none_iff (cells : Cells slab live) : slab.allocate = none <->
    target.wordWidth ≤ live.length ∧ target.wordWidth < slab.numSlabs := by
  have outcome := allocate_cases cells.counted
  constructor
  · intro failed
    rw [failed] at outcome
    cases outcome with
    | stuck large all => exact ⟨cells.length_ge (Nat.le_of_lt large) all, large⟩
  · rintro ⟨many, large⟩
    have wide := wordWidth_lt_bitsPerBitmap target value
    generalize slab.allocate = result at outcome
    cases outcome with
    | given index alloc after found clear small marks =>
        have fewer := cells.length_lt small (by rw [clear]; decide)
          fun other taken => (cells.small other taken).2
        omega
    | full all =>
        have beyond := all _ large
        rw [bitAt_eq_none (Nat.le_refl _) wide] at beyond
        exact absurd beyond (Option.some_ne_none true).symm
    | stuck large all => rfl

/-- An allocation that does not fail to read a bit succeeds just when a cell is
left, and then with a cell that no one held. -/
theorem allocate_spec (cells : Cells slab live)
    (outcome : slab.allocate = some (alloc, after)) :
    (alloc.succeeded = true <-> live.length < slab.numSlabs) ∧
      (alloc.succeeded = true -> alloc ∈ slab.available ∧ Cells after (alloc :: live)) ∧
      (alloc.succeeded = false -> after = slab) ∧ after.slabPages = slab.slabPages ∧
        after.freePages = slab.freePages := by
  have cases := allocate_cases cells.counted
  rw [outcome] at cases
  cases cases with
  | given index _ _ found clear small marks =>
      have succeeded : alloc.succeeded = true := by
        rcases cell_eq_some.mp found with ⟨page, _, rfl⟩
        simpa [Allocation.succeeded] using Nat.ne_of_gt value.positive
      have free : slab.bitAt index ≠ some true := by
        rw [clear]
        decide
      refine ⟨⟨fun _ => ?_, fun _ => succeeded⟩, fun _ => ⟨⟨index, free, found⟩, ?_⟩, ?_,
        marks.slabPages, marks.freePages⟩
      · exact cells.length_lt (lt_of_cell found) free fun other taken => (cells.small other taken).1
      · exact cells.mark marks found clear small
      · intro failed
        exact absurd (failed.symm.trans succeeded) (by decide)
  | full all =>
      have many := cells.length_ge (Nat.le_refl _) all
      refine ⟨⟨fun succeeded => absurd succeeded (by decide), fun fewer => by omega⟩,
        fun succeeded => absurd succeeded (by decide), fun _ => rfl, rfl, rfl⟩

/-- The cells that no one holds are those of the recorded pages that are not live. -/
theorem mem_available (cells : Cells slab live) : alloc ∈ slab.available <->
    (Exists fun index => slab.cell index = some alloc) ∧ alloc ∉ live := by
  constructor
  · rintro ⟨index, free, found⟩
    refine ⟨⟨index, found⟩, ?_⟩
    intro member
    rcases (cells.known alloc).mp member with ⟨other, taken, here⟩
    exact free (cells.cell_injective here found ▸ taken)
  · rintro ⟨⟨index, found⟩, absent⟩
    exact ⟨index, fun taken => absent ((cells.known alloc).mpr ⟨index, taken, found⟩), found⟩

/-- `free` makes the freed cell available, and no other. -/
theorem free_spec (cells : Cells slab live) (member : alloc ∈ live) :
    Exists fun after => slab.free alloc = some after ∧ Cells after (live.erase alloc) ∧
      after.available = insert alloc slab.available ∧ after.slabPages = slab.slabPages ∧
        after.freePages = slab.freePages := by
  rcases cells.free_marks member with ⟨index, after, outcome, found, taken, marks⟩
  have later := cells.unmark marks found
  refine ⟨after, outcome, later, ?_, marks.slabPages, marks.freePages⟩
  ext other
  simp only [Set.mem_insert_iff, later.mem_available, cells.mem_available, marks.cell,
    cells.nodup.mem_erase_iff]
  constructor
  · rintro ⟨cell, absent⟩
    by_cases same : other = alloc
    · exact .inl same
    · exact .inr ⟨cell, fun listed => absent ⟨same, listed⟩⟩
  · rintro (rfl | ⟨cell, absent⟩)
    · exact ⟨⟨index, found⟩, fun kept => kept.1 rfl⟩
    · exact ⟨cell, fun kept => absent kept.2⟩

end Cells

end SlabAllocator

end Pine
end Pinyon
