import Pinyon.Pine.BitMap
import Pinyon.Pine.FreeList

namespace Pinyon
namespace Pine

/-!
# The slab allocator

`SlabAllocator<Value>` hands out cells of `sizeof(Value)` bytes.  The cells of
all recorded pages are numbered through, and bit `k` of the bitmaps, numbered
through as well, says whether cell `k` is taken.  The two lists are intrusive:
their nodes are placed in storage from `m_free_pages`, and when that has none, a
chunk of the memory that is being added goes there instead of becoming a page
of cells.
-/

/-- `sizeof(Value)` of a value that passes the static assertion. -/
structure ValueSize where
  bytes : Nat
  positive : 0 < bytes
  fits : bytes ≤ pageSize

namespace ValueSize

/-- `c_bits_per_bitmap`. -/
def bitsPerBitmap (value : ValueSize) : Nat :=
  pageSize * charBit - pageSize % value.bytes

/-- `c_slabs_per_page`. -/
def slabsPerPage (value : ValueSize) : Nat :=
  pageSize / value.bytes

end ValueSize

/-- `*next(list.begin(), steps)`.  The iterator stops at the last node; only an
empty list has no node to dereference. -/
def nodeAt {Content : Type} (list : List Content) (steps : Nat) : Option Content :=
  list[min steps (list.length - 1)]?

structure SlabAllocator (target : Target) (value : ValueSize) where
  bitmaps : List (BitMap target value.bitsPerBitmap)
  slabPages : List Nat
  freePages : IntrusiveFreeList

namespace SlabAllocator

variable {target : Target} {value : ValueSize}

def empty (target : Target) (value : ValueSize) : SlabAllocator target value where
  bitmaps := []
  slabPages := []
  freePages := IntrusiveFreeList.empty

/-- `sizeof(BitMapNode)`: two links and the words of the bitmap. -/
def bitMapNodeSize (target : Target) (value : ValueSize) : Nat :=
  2 * target.wordSize +
    divideUp target.wordWidth value.bitsPerBitmap target.wordWidth * target.wordSize

/-- `sizeof(SlabNode)`: two links and the address of the page. -/
def slabNodeSize (target : Target) : Nat :=
  3 * target.wordSize

def chunkSize (target : Target) (value : ValueSize) : Nat :=
  max (alignUpTwo target.wordWidth (bitMapNodeSize target value) pageSize)
    (alignUpTwo target.wordWidth (slabNodeSize target) pageSize)

def numSlabs (slab : SlabAllocator target value) : Nat :=
  slab.slabPages.length * value.slabsPerPage

/-! ## Numbering of the cells -/

def calculateIndexFromBitmapIndexes (value : ValueSize) (bitmapPageIndex indexInBitmapPage : Nat) :
    Nat :=
  bitmapPageIndex * value.bitsPerBitmap + indexInBitmapPage

def calculateIndexFromSlabIndexes (value : ValueSize) (slabPageIndex indexInSlabPage : Nat) : Nat :=
  slabPageIndex * value.slabsPerPage + indexInSlabPage

def calculateSlabIndexes (value : ValueSize) (bitmapPageIndex indexInBitmapPage : Nat) :
    Nat × Nat :=
  let index := calculateIndexFromBitmapIndexes value bitmapPageIndex indexInBitmapPage
  (index / value.slabsPerPage, index % value.slabsPerPage)

def calculateBitmapIndexes (value : ValueSize) (slabPageIndex indexInSlabPage : Nat) : Nat × Nat :=
  let index := calculateIndexFromSlabIndexes value slabPageIndex indexInSlabPage
  (index / value.bitsPerBitmap, index % value.bitsPerBitmap)

/-! ## Allocation -/

/-- The inner loop of `try_find_free_bit`, from bit `index` of one bitmap on;
`rest` bits of the bitmap are left.  The outer `none` is a failed read. -/
def findFreeBitIn (numSlabs bitmapPageIndex : Nat) (bitmap : BitMap target value.bitsPerBitmap) :
    Nat -> Nat -> Option (Option Nat)
  | 0, _ => some none
  | rest + 1, index =>
      if calculateIndexFromBitmapIndexes value bitmapPageIndex index < numSlabs then
        match bitmap.bit index with
        | none => none
        | some false => some (some index)
        | some true => findFreeBitIn numSlabs bitmapPageIndex bitmap rest (index + 1)
      else some none

/-- The outer loop, over the bitmaps from number `pageIndex` on. -/
def findFreeBit (numSlabs : Nat) :
    List (BitMap target value.bitsPerBitmap) -> Nat -> Option (Option (Nat × Nat))
  | [], _ => some none
  | bitmap :: rest, pageIndex =>
      match findFreeBitIn numSlabs pageIndex bitmap value.bitsPerBitmap 0 with
      | none => none
      | some (some index) => some (some (pageIndex, index))
      | some none => findFreeBit numSlabs rest (pageIndex + 1)

def tryFindFreeBit (slab : SlabAllocator target value) : Option (Option (Nat × Nat)) :=
  findFreeBit slab.numSlabs slab.bitmaps 0

def allocate (slab : SlabAllocator target value) :
    Option (Allocation × SlabAllocator target value) :=
  match slab.tryFindFreeBit with
  | none => none
  | some none => some ({}, slab)
  | some (some (bitmapPageIndex, indexInBitmapPage)) => do
      let bitmap <- nodeAt slab.bitmaps bitmapPageIndex
      let marked <- bitmap.setBit indexInBitmapPage
      let indexes := calculateSlabIndexes value bitmapPageIndex indexInBitmapPage
      let slabPage <- nodeAt slab.slabPages indexes.1
      return (⟨slabPage + indexes.2 * value.bytes, value.bytes⟩,
        { slab with bitmaps := slab.bitmaps.set bitmapPageIndex marked })

/-! ## Release -/

def findAssociatedSlabPage (slab : SlabAllocator target value) (ptr : Nat) : Nat × Nat :=
  let slabPage := alignDownTwo target.wordWidth ptr pageSize
  (slab.slabPages.idxOf slabPage, (ptr - slabPage) / value.bytes)

def free (slab : SlabAllocator target value) (alloc : Allocation) :
    Option (SlabAllocator target value) := do
  let slabIndexes := slab.findAssociatedSlabPage alloc.ptr
  let indexes := calculateBitmapIndexes value slabIndexes.1 slabIndexes.2
  let bitmap <- nodeAt slab.bitmaps indexes.1
  let cleared <- bitmap.clearBit indexes.2
  return { slab with bitmaps := slab.bitmaps.set indexes.1 cleared }

/-! ## Adding memory -/

end SlabAllocator

/-- The variables of `add`: the allocator, and the memory still to be added. -/
structure SlabAdding (target : Target) (value : ValueSize) where
  slab : SlabAllocator target value
  ptr : Nat
  size : Nat

namespace SlabAdding

open SlabAllocator (chunkSize bitMapNodeSize slabNodeSize)

variable {target : Target} {value : ValueSize}

def withFreePages (adding : SlabAdding target value) (freePages : IntrusiveFreeList) :
    SlabAdding target value :=
  { adding with slab := { adding.slab with freePages := freePages } }

def removePageFromVariables (adding : SlabAdding target value) : SlabAdding target value :=
  { adding with
    ptr := (adding.ptr + chunkSize target value) % target.wordLimit
    size := wordSub target adding.size (chunkSize target value) }

/-- A chunk is given to `m_free_pages`. -/
def feedFreePages (adding : SlabAdding target value) : SlabAdding target value :=
  (adding.withFreePages (adding.slab.freePages.add target adding.ptr (chunkSize target value))
    ).removePageFromVariables

/-- Storage for a node of the given size, if need be after a chunk was given to
`m_free_pages`.  The flag says whether there is any. -/
def takeNode (adding : SlabAdding target value) (nodeSize : Nat) :
    Bool × SlabAdding target value :=
  let first := adding.slab.freePages.allocate target nodeSize
  if first.1.succeeded then (true, adding.withFreePages first.2)
  else
    let fed := (adding.withFreePages first.2).feedFreePages
    let second := fed.slab.freePages.allocate target nodeSize
    (second.1.succeeded, fed.withFreePages second.2)

/-- The bitmaps have too few bits left for one more page of cells. -/
def needsBitmap (adding : SlabAdding target value) : Prop :=
  adding.slab.bitmaps.length * value.bitsPerBitmap - adding.slab.numSlabs < value.slabsPerPage

instance (adding : SlabAdding target value) : Decidable adding.needsBitmap :=
  inferInstanceAs (Decidable (_ < _))

def appendBitmap (adding : SlabAdding target value) : SlabAdding target value :=
  { adding with
    slab := { adding.slab with
      bitmaps := adding.slab.bitmaps ++ [BitMap.empty target value.bitsPerBitmap] } }

/-- The first half of the loop body. -/
def placeBitmap (adding : SlabAdding target value) : Bool × SlabAdding target value :=
  if adding.needsBitmap then
    let taken := adding.takeNode (bitMapNodeSize target value)
    if taken.1 then (true, taken.2.appendBitmap) else taken
  else (true, adding)

/-- The memory that is next becomes a page of cells. -/
def appendSlabPage (adding : SlabAdding target value) : SlabAdding target value :=
  { adding.removePageFromVariables with
    slab := { adding.slab with slabPages := adding.slab.slabPages ++ [adding.ptr] } }

/-- The second half of the loop body.  It does not look at the size again after
a chunk was given to `m_free_pages`. -/
def placeSlabPage (adding : SlabAdding target value) : Bool × SlabAdding target value :=
  let taken := adding.takeNode (slabNodeSize target)
  if taken.1 then (true, taken.2.appendSlabPage) else taken

/-- The loop body; the flag is false where the loop is left. -/
def turn (adding : SlabAdding target value) : Bool × SlabAdding target value :=
  let placed := adding.placeBitmap
  if placed.1 ∧ chunkSize target value ≤ placed.2.size then placed.2.placeSlabPage
  else (false, placed.2)

/-- The loop, for at most the given number of turns. -/
def loop : Nat -> SlabAdding target value -> Option (SlabAllocator target value)
  | 0, _ => none
  | turns + 1, adding =>
      if chunkSize target value ≤ adding.size then
        if adding.turn.1 then loop turns adding.turn.2 else some adding.turn.2.slab
      else some adding.slab

end SlabAdding

namespace SlabAllocator

variable {target : Target} {value : ValueSize}

/-- `add`, provided that the loop ends within the given number of turns. -/
def add (turns : Nat) (slab : SlabAllocator target value) (ptr size : Nat) :
    Option (SlabAllocator target value) :=
  SlabAdding.loop turns ⟨slab, ptr, size⟩

/-! ## Sizes -/

theorem wordWidth_lt_bitsPerBitmap (target : Target) (value : ValueSize) :
    target.wordWidth < value.bitsPerBitmap := by
  have remainder : pageSize % value.bytes < pageSize :=
    Nat.lt_of_lt_of_le (Nat.mod_lt _ value.positive) value.fits
  rw [ValueSize.bitsPerBitmap, pageSize, charBit] at *
  cases target <;> simp only [Target.wordWidth] <;> omega

theorem slabsPerPage_pos (value : ValueSize) : 0 < value.slabsPerPage :=
  Nat.div_pos value.fits value.positive

theorem words_pos (target : Target) (value : ValueSize) :
    0 < divideUp target.wordWidth value.bitsPerBitmap target.wordWidth := by
  have large := wordWidth_lt_bitsPerBitmap target value
  have small : value.bitsPerBitmap ≤ 32768 := Nat.sub_le _ _
  rw [divideUp]
  cases target <;> simp only [Target.wordWidth] at * <;> omega

end SlabAllocator

end Pine
end Pinyon
