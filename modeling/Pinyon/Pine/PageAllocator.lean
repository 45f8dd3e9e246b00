import Pinyon.Pine.Page
import Pinyon.Pine.SlabAllocator

namespace Pinyon
namespace Pine

/-!
# The page allocator

`PageAllocatorBackend` keeps the free regions in one list for each power of two.
A region that is larger than what is asked for is halved until it fits; the
halves that are not needed become free regions of their own.  The nodes of the
lists are placed in storage from a slab allocator, which may have none.

Everything that the code does with a list or an address that is not there is an
error, `none`.
-/

/-- What the page allocator uses of `m_node_allocator`. -/
structure NodeAllocator (State : Type) where
  add : State -> (ptr size : Nat) -> Option State
  allocate : State -> Option (Allocation × State)
  free : State -> Allocation -> Option State

/-- Whether there is no storage for one more node. -/
def NodeAllocator.refuses {State : Type} (nodes : NodeAllocator State) (state : State) : Bool :=
  (nodes.allocate state).any fun answer => answer.1.ptr == 0

/-- `ManualLinkedList<PageRegion>::Node`, placed at an address. -/
structure RegionNode where
  address : Nat
  contents : PageRegion
deriving DecidableEq, Repr

/-- `sizeof(Node)`: two links, the offset and the length. -/
def regionNodeSize (target : Target) : Nat :=
  4 * target.wordSize

def regionNode (target : Target) : ValueSize where
  bytes := regionNodeSize target
  positive := Nat.mul_pos (by decide) target.wordSize_pos
  fits := by cases target <;> decide

/-- `SlabAllocator<Node>`.  Each turn of the loop of `add` uses up at least a byte. -/
def slabNodes (target : Target) : NodeAllocator (SlabAllocator target (regionNode target)) where
  add slab ptr size := slab.add (size + 1) ptr size
  allocate := SlabAllocator.allocate
  free := SlabAllocator.free

structure BrokeredAllocation where
  ptr : Nat := 0
  size : Nat := 0
  overheadUsed : Nat := 0
deriving DecidableEq, Repr

def BrokeredAllocation.asAllocation (brokered : BrokeredAllocation) : Allocation :=
  ⟨brokered.ptr, brokered.size⟩

/-- `operator bool`. -/
def BrokeredAllocation.succeeded (brokered : BrokeredAllocation) : Bool :=
  brokered.size != 0

/-- `PageAlignmentLevel`. -/
inductive PageAlignmentLevel where
  | Page
  | Section
deriving DecidableEq, Repr

def PageAlignmentLevel.toNat : PageAlignmentLevel -> Nat
  | Page => 1
  | Section => sectionSize / pageSize

/-! ## The order of a list

`insert_node` looks for the place of a node with `lower_bound`. -/

/-- `distance` of iterators without random access: `dist` is not counted up. -/
def distance {Content : Type} : List Content -> Nat
  | [] => 0
  | _ :: rest => distance rest

/-- The loop of `lower_bound`, from the position `first` on. -/
def lowerBoundLoop {Content : Type} (compare : Content -> Bool) (list : List Content) :
    Nat -> Nat -> Nat -> Nat
  | 0, first, _ => first
  | turns + 1, first, length =>
      if length = 0 then first
      else
        let offset := length / 2
        if (list[first + offset]?).any compare then
          lowerBoundLoop compare list turns (first + offset + 1) (length - (offset + 1))
        else lowerBoundLoop compare list turns first offset

def lowerBound {Content : Type} (compare : Content -> Bool) (list : List Content) : Nat :=
  lowerBoundLoop compare list (distance list + 1) 0 (distance list)

/-- `insert_after`, behind the node at a position. -/
def insertAfter {Content : Type} (list : List Content) (position : Nat) (new : Content) :
    List Content :=
  list.take (position + 1) ++ new :: list.drop (position + 1)

/-- `operator>`. -/
def Region.greater {magnitude : Nat} (first second : Region magnitude) : Bool :=
  second.offset < first.offset ∨ first.offset = second.offset ∧ second.length < first.length

/-! ## Depths -/

def depthFromPageLength (target : Target) (numPages : Nat) : Nat :=
  if numPages = 0 then 0 else bitWidth target.wordWidth numPages - 1

/-- `max_depth`. -/
def maxDepth (target : Target) : Nat :=
  target.wordWidth - bitWidth target.wordWidth pageSize + 2

/-- The difference of two depths, which are `unsigned`, times the overhead. -/
def allocationCost (target : Target) (first second : Nat) : Nat :=
  ((first + 2 ^ 32 - second) % 2 ^ 32) * headerNodeSize target % target.wordLimit

structure PageAllocatorBackend (State : Type) where
  nodeAllocator : State
  freeLists : List (List RegionNode)

namespace PageAllocatorBackend

variable {State : Type}

def empty (target : Target) (nodeAllocator : State) : PageAllocatorBackend State where
  nodeAllocator := nodeAllocator
  freeLists := List.replicate (maxDepth target) []

/-- The nodes of all lists. -/
def listed (backend : PageAllocatorBackend State) : List RegionNode :=
  backend.freeLists.flatten

/-! ## Nodes -/

/-- `create_node`.  What happens to a node that another one is written over is
not described. -/
def createNode (target : Target) (nodes : NodeAllocator State) (backend : PageAllocatorBackend State)
    (region : PageRegion) : Option ((Nat × Option RegionNode) × PageAllocatorBackend State) := do
  let (allocation, nodeAllocator) <- nodes.allocate backend.nodeAllocator
  let after := { backend with nodeAllocator := nodeAllocator }
  if allocation.ptr = 0 then return ((0, none), after)
  if allocation.ptr ∈ backend.listed.map RegionNode.address then none
  else return ((depthFromPageLength target region.length, some ⟨allocation.ptr, region⟩), after)

def removeNode (target : Target) (nodes : NodeAllocator State) (backend : PageAllocatorBackend State)
    (depth : Nat) (node : RegionNode) : Option (PageAllocatorBackend State) := do
  let list <- backend.freeLists[depth]?
  if node ∈ list then
    let nodeAllocator <- nodes.free backend.nodeAllocator ⟨node.address, regionNodeSize target⟩
    return { nodeAllocator, freeLists := backend.freeLists.set depth (list.erase node) }
  else none

def insertNode (backend : PageAllocatorBackend State) (depth : Nat) (node : RegionNode) :
    Option (PageAllocatorBackend State) := do
  let list <- backend.freeLists[depth]?
  let insertionPt := lowerBound (fun other => other.contents.greater node.contents) list
  return { backend with
    freeLists := backend.freeLists.set depth (insertAfter list insertionPt node) }

/-- The two loops over the lists, from a depth on.  They stop at `max_depth`,
which a greater depth never meets. -/
def findNode (target : Target) (backend : PageAllocatorBackend State) (depth : Nat)
    (suits : PageRegion -> Bool) : Option (Option RegionNode) :=
  if depth ≤ maxDepth target then
    some ((backend.freeLists.drop depth).flatten.find? fun node => suits node.contents)
  else none

def findFreePages (target : Target) (backend : PageAllocatorBackend State) (numPages : Nat)
    (pageAlignment : PageAlignmentLevel) : Option (Option RegionNode) :=
  backend.findNode target (depthFromPageLength target numPages) fun contents =>
    contents.fits numPages && contents.alignedTo pageAlignment.toNat

def findFreeRegion (target : Target) (backend : PageAllocatorBackend State) (region : PageRegion) :
    Option (Option RegionNode) :=
  backend.findNode target (depthFromPageLength target region.length) fun contents =>
    contents.contains target region

/-! ## Halving -/

/-- The half that is kept and the half that is not. -/
def keepLeft (target : Target) (region : PageRegion) : Option (PageRegion × PageRegion) :=
  some (region.halve target)

/-- The half that contains a region is kept. -/
def keepContaining (target : Target) (minRegion region : PageRegion) :
    Option (PageRegion × PageRegion) :=
  let (reservedRegion, remainderRegion) := region.halve target
  if reservedRegion.contains target minRegion then some (reservedRegion, remainderRegion)
  else if remainderRegion.contains target minRegion then some (remainderRegion, reservedRegion)
  else none

/-- The loops of `trim_aligned_region` and `remove_and_trim_region`, which differ
in the half that they keep.  Without a node for the other half the region stays
whole, although its depth has been lowered. -/
def trimLoop (target : Target) (nodes : NodeAllocator State)
    (keep : PageRegion -> Option (PageRegion × PageRegion)) (endDepth : Nat) :
    Nat -> PageAllocatorBackend State -> PageRegion ->
      Option (PageRegion × Nat × PageAllocatorBackend State)
  | 0, backend, currRegion =>
      if endDepth = 0 then some (currRegion, 0, backend)
      else
        match keep currRegion with
        | none => some (currRegion, 0, backend)
        | some (_, remainderRegion) => do
            let ((_, node), backend) <- backend.createNode target nodes remainderRegion
            match node with
            | none => return (currRegion, 2 ^ 32 - 1, backend)
            | some _ => none
  | depth + 1, backend, currRegion =>
      if endDepth = depth + 1 then some (currRegion, depth + 1, backend)
      else
        match keep currRegion with
        | none => some (currRegion, depth + 1, backend)
        | some (reservedRegion, remainderRegion) => do
            let ((_, node), backend) <- backend.createNode target nodes remainderRegion
            match node with
            | none => return (currRegion, depth, backend)
            | some node =>
                let backend <- backend.insertNode depth node
                trimLoop target nodes keep endDepth depth backend reservedRegion

def trimAlignedRegion (target : Target) (nodes : NodeAllocator State)
    (backend : PageAllocatorBackend State) (currRegion : PageRegion) (currDepth endDepth : Nat) :
    Option ((PageRegion × Nat) × PageAllocatorBackend State) := do
  let (region, depth, backend) <-
    trimLoop target nodes (keepLeft target) endDepth currDepth backend currRegion
  return ((region, allocationCost target currDepth depth), backend)

def removeAndTrimPages (target : Target) (nodes : NodeAllocator State)
    (backend : PageAllocatorBackend State) (node : RegionNode) (minPages : Nat) :
    Option ((PageRegion × Nat) × PageAllocatorBackend State) := do
  let currDepth := depthFromPageLength target node.contents.length
  let backend <- backend.removeNode target nodes currDepth node
  let numPagesAligned <- alignUpToPower target.wordWidth minPages
  let minDepth := depthFromPageLength target numPagesAligned
  backend.trimAlignedRegion target nodes node.contents currDepth minDepth

/-- The cost is that of the splits with its sign reversed. -/
def removeAndTrimRegion (target : Target) (nodes : NodeAllocator State)
    (backend : PageAllocatorBackend State) (node : RegionNode) (minRegion : PageRegion) :
    Option ((PageRegion × Nat) × PageAllocatorBackend State) := do
  let currDepth := depthFromPageLength target node.contents.length
  let backend <- backend.removeNode target nodes currDepth node
  let endDepth := depthFromPageLength target minRegion.length
  let (region, depth, backend) <-
    trimLoop target nodes (keepContaining target minRegion) endDepth currDepth backend node.contents
  return ((region, allocationCost target endDepth depth), backend)

/-! ## The interface -/

/-- A region as it is handed out.  What is called the number of splits is a
number of bytes already. -/
def broker (target : Target) (region : PageRegion) (numSplits : Nat) : BrokeredAllocation where
  ptr := region.ptr target 0
  size := region.size target
  overheadUsed := numSplits * regionNodeSize target % target.wordLimit

def allocate (target : Target) (nodes : NodeAllocator State) (backend : PageAllocatorBackend State)
    (numPages : Nat) (pageAlignment : PageAlignmentLevel) :
    Option (BrokeredAllocation × PageAllocatorBackend State) := do
  match <- backend.findFreePages target numPages pageAlignment with
  | none => return ({}, backend)
  | some node =>
      let ((region, numSplits), backend) <- backend.removeAndTrimPages target nodes node numPages
      return (broker target region numSplits, backend)

def reserveRegion (target : Target) (nodes : NodeAllocator State)
    (backend : PageAllocatorBackend State) (region : PageRegion) :
    Option (BrokeredAllocation × PageAllocatorBackend State) := do
  match <- backend.findFreeRegion target region with
  | none => return ({}, backend)
  | some node =>
      let ((finalRegion, numSplits), backend) <- backend.removeAndTrimRegion target nodes node region
      return (broker target finalRegion numSplits, backend)

/-- The cost tells whether the region is on a list now. -/
def freeRegion (target : Target) (nodes : NodeAllocator State) (backend : PageAllocatorBackend State)
    (region : PageRegion) : Option (Nat × PageAllocatorBackend State) := do
  if region.length = 0 then return (0, backend)
  let ((depth, node), backend) <- backend.createNode target nodes region
  match node with
  | none => return (0, backend)
  | some node =>
      let backend <- backend.insertNode depth node
      return (headerNodeSize target, backend)

def add (target : Target) (nodes : NodeAllocator State) (backend : PageAllocatorBackend State)
    (pages : PageRegion) : Option (Nat × PageAllocatorBackend State) :=
  backend.freeRegion target nodes pages

def free (target : Target) (nodes : NodeAllocator State) (backend : PageAllocatorBackend State)
    (allocation : Allocation) : Option (Nat × PageAllocatorBackend State) :=
  backend.freeRegion target nodes (Region.fromPtr target pageSize allocation.ptr allocation.size)

def init (target : Target) (nodes : NodeAllocator State) (fresh : State)
    (allocatingRange scratchPages : PageRegion) : Option (Nat × PageAllocatorBackend State) := do
  let nodeAllocator <- nodes.add fresh (scratchPages.ptr target 0) (scratchPages.size target)
  (empty target nodeAllocator).add target nodes allocatingRange

end PageAllocatorBackend

end Pine
end Pinyon
