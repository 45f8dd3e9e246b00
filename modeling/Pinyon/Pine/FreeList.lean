import Pinyon.Pine.TwoMath

namespace Pinyon
namespace Pine

/-!
# The intrusive free list

`IntrusiveFreeList` keeps its bookkeeping inside the memory it manages.  Every
block, free or handed out, begins with a `HeaderNode`: two list links and a
header whose first word is the size of the payload behind it.  A free block is
a member of `m_free_list`; a block in use is in no list, and only the size word
in front of its payload remembers how long it is.

The model keeps these size words as memory indexed by the address of the
header, and the list as the addresses of its nodes from `m_head` on.  Addresses
are natural numbers and `0` is `nullptr`.
-/

/-- `pine::Allocation`; the default value is the failed allocation `{}`. -/
structure Allocation where
  ptr : Nat := 0
  size : Nat := 0
deriving DecidableEq, Repr

namespace Allocation

/-- `operator bool`, which looks at the size and not at the pointer. -/
def succeeded (allocation : Allocation) : Bool :=
  allocation.size != 0

end Allocation

/-- `sizeof(HeaderNode)`: the links of the node, then `size` and `_padding`. -/
def headerNodeSize (target : Target) : Nat :=
  4 * target.wordSize

/-- `a - b` on `size_t`. -/
def wordSub (target : Target) (first second : Nat) : Nat :=
  (first + target.wordLimit - second) % target.wordLimit

structure IntrusiveFreeList where
  /-- The `size` word of the header that starts at an address. -/
  sizeAt : Nat -> Nat
  /-- The nodes of `m_free_list`, its head first. -/
  freeList : List Nat

namespace IntrusiveFreeList

def empty : IntrusiveFreeList where
  sizeAt := fun _ => 0
  freeList := []

def minAllocationSize (target : Target) (requestedSize : Nat) : Nat :=
  (alignUpTwo target.wordWidth requestedSize target.alignment + headerNodeSize target)
    % target.wordLimit

def preferredSize (target : Target) (requestedSize : Nat) : Nat :=
  alignUpTwo target.wordWidth (minAllocationSize target requestedSize) pageSize

def toUserPtr (target : Target) (node offset : Nat) : Nat :=
  node + headerNodeSize target + offset

def toNodePtr (target : Target) (ptr : Nat) : Nat :=
  ptr - headerNodeSize target

/-- Placement of a fresh header in front of a region of the given size. -/
def constructNode (target : Target) (list : IntrusiveFreeList) (regionSize location : Nat) :
    IntrusiveFreeList :=
  { list with
    sizeAt := Function.update list.sizeAt location (wordSub target regionSize (headerNodeSize target)) }

/-- First fit.  What lies beyond the request is cut off into a node of its own
when it can still hold a header and one aligned unit. -/
def allocate (target : Target) (list : IntrusiveFreeList) (requestedSize : Nat) :
    Allocation × IntrusiveFreeList :=
  match list.freeList.find? (fun node => requestedSize ≤ list.sizeAt node) with
  | none => ({}, list)
  | some node =>
      let allocSize := list.sizeAt node
      let remainingSize :=
        alignDownTwo target.wordWidth (allocSize - requestedSize) target.alignment
      if minAllocationSize target target.alignment < remainingSize then
        let keptSize := allocSize - remainingSize
        let newNode := toUserPtr target node keptSize
        let kept := { list with sizeAt := Function.update list.sizeAt node keptSize }
        let split := constructNode target kept remainingSize newNode
        (⟨toUserPtr target node 0, keptSize⟩,
          { split with freeList := (list.freeList ++ [newNode]).erase node })
      else
        (⟨toUserPtr target node 0, allocSize⟩, { list with freeList := list.freeList.erase node })

def add (target : Target) (list : IntrusiveFreeList) (newLocation newSize : Nat) :
    IntrusiveFreeList :=
  { constructNode target list newSize newLocation with
    freeList := list.freeList ++ [newLocation] }

/-- `are_nodes_are_contiguous`: the payload of the left node ends where the
header of the right node begins. -/
def contiguous (target : Target) (list : IntrusiveFreeList) (left right : Nat) : Prop :=
  toUserPtr target left (list.sizeAt left) = right

instance (target : Target) (list : IntrusiveFreeList) (left right : Nat) :
    Decidable (contiguous target list left right) :=
  inferInstanceAs (Decidable (_ = _))

/-- The loop over the free list, with the neighbours found so far. -/
def findNeighbors (target : Target) (list : IntrusiveFreeList) (node : Nat) :
    List Nat -> Nat × Nat -> Nat × Nat
  | [], found => found
  | freeNode :: rest, (left, right) =>
      let found :=
        if left = 0 ∧ freeNode < node ∧ contiguous target list freeNode node then
          (freeNode, right)
        else if right = 0 ∧ freeNode > node ∧ contiguous target list node freeNode then
          (left, freeNode)
        else (left, right)
      if found.1 ≠ 0 ∧ found.2 ≠ 0 then found
      else findNeighbors target list node rest found

def tryFindNeighboringMemoryNodes (target : Target) (list : IntrusiveFreeList) (node : Nat) :
    Nat × Nat :=
  findNeighbors target list node list.freeList (0, 0)

/-- The payload of the right node is added to that of the left node.  The header
of the right node is not counted. -/
def adoptRightNodeSize (target : Target) (list : IntrusiveFreeList) (left right : Nat) :
    IntrusiveFreeList :=
  { list with
    sizeAt := Function.update list.sizeAt left
      ((list.sizeAt left + list.sizeAt right) % target.wordLimit) }

/-- The left neighbour adopts the freed block when there is one. -/
def mergeLeft (target : Target) (list : IntrusiveFreeList) (left node : Nat) : IntrusiveFreeList :=
  if left ≠ 0 then adoptRightNodeSize target list left node else list

/-- The right neighbour, when there is one, is adopted and leaves the list. -/
def mergeRight (target : Target) (list : IntrusiveFreeList) (node right : Nat) :
    IntrusiveFreeList :=
  if right ≠ 0 then
    let adopted := adoptRightNodeSize target list node right
    { adopted with freeList := adopted.freeList.erase right }
  else list

/-- Returns the size that was freed next to the list.  Only the pointer of the
allocation is looked at. -/
def free (target : Target) (list : IntrusiveFreeList) (alloc : Allocation) :
    Nat × IntrusiveFreeList :=
  let node := toNodePtr target alloc.ptr
  let sizeFreed := list.sizeAt node
  let neighbors := tryFindNeighboringMemoryNodes target list node
  let left := neighbors.1
  let right := neighbors.2
  let merged := mergeRight target (mergeLeft target list left node)
    (if left ≠ 0 then left else node) right
  (sizeFreed,
    if left ≠ 0 then merged else { merged with freeList := merged.freeList ++ [node] })

end IntrusiveFreeList

/-! ## Sizes -/

theorem headerNodeSize_pos (target : Target) : 0 < headerNodeSize target := by
  cases target <;> decide

/-- The static assertion that keeps payloads aligned. -/
theorem alignment_dvd_headerNodeSize (target : Target) :
    target.alignment ∣ headerNodeSize target := by
  cases target <;> decide

theorem minAllocationSize_alignment (target : Target) :
    IntrusiveFreeList.minAllocationSize target target.alignment =
      target.alignment + headerNodeSize target := by
  cases target <;> decide

theorem wordSub_eq {target : Target} {first second : Nat} (ordered : second ≤ first)
    (small : first < target.wordLimit) : wordSub target first second = first - second := by
  rw [wordSub, Nat.sub_add_comm ordered, Nat.add_mod_right, Nat.mod_eq_of_lt (by omega)]

theorem alignDownTwo_alignment {target : Target} {value : Nat} (small : value < target.wordLimit) :
    alignDownTwo target.wordWidth value target.alignment =
      value / target.alignment * target.alignment :=
  alignDownTwo_eq target.alignmentBits_le small

end Pine
end Pinyon
