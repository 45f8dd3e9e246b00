import Pinyon.Pine.FreeList

namespace Pinyon
namespace Pine

/-!
# Allocators that only grow

`HighWatermarkAllocator` hands out its memory from left to right and takes
nothing back.  `FixedAllocation` hands out the one region it was built with, all
at once.  `FallbackAllocatorBinder` asks its own allocator first, and feeds it
from the fallback allocator when that fails.

The binder reaches its fallback allocator through a pointer.  Its operations
therefore act on a state in which that pointer may be dead, and `none` is what
following a dead pointer comes to.
-/

structure HighWatermarkAllocator where
  start : Nat := 0
  watermark : Nat := 0
  endPtr : Nat := 0
deriving DecidableEq, Repr

namespace HighWatermarkAllocator

def preferredSize (requestedSize : Nat) : Nat :=
  requestedSize

def allocate (target : Target) (allocator : HighWatermarkAllocator) (requestedSize : Nat) :
    Allocation × HighWatermarkAllocator :=
  let requestedSize := alignUpTwo target.wordWidth requestedSize target.alignment
  if allocator.watermark = 0 ∨
      allocator.endPtr < (allocator.watermark + requestedSize) % target.wordLimit then
    ({}, allocator)
  else
    (⟨allocator.watermark, requestedSize⟩,
      { allocator with watermark := (allocator.watermark + requestedSize) % target.wordLimit })

def add (target : Target) (_ : HighWatermarkAllocator) (ptr size : Nat) :
    HighWatermarkAllocator where
  start := ptr
  watermark := ptr
  endPtr := (ptr + size) % target.wordLimit

end HighWatermarkAllocator

structure FixedAllocation where
  start : Nat
  size : Nat
  hasMemory : Bool := true
deriving DecidableEq, Repr

namespace FixedAllocation

def allocate (fixed : FixedAllocation) (amount : Nat) : Allocation × FixedAllocation :=
  if fixed.hasMemory = false ∨ fixed.size < amount then ({}, fixed)
  else (⟨fixed.start, fixed.size⟩, { fixed with hasMemory := false })

end FixedAllocation

/-- The operations a binder is built from, on the state that holds the binder
and whatever its pointer leads to. -/
structure BinderParts (State : Type) where
  preferredSize : Nat -> Nat
  allocate : Nat -> State -> Option (Allocation × State)
  add : Nat -> Nat -> State -> Option State
  fallbackAllocate : Nat -> State -> Option (Allocation × State)

/-- `FallbackAllocatorBinder::allocate`. -/
def BinderParts.bind {State : Type} (parts : BinderParts State) (requestedSize : Nat)
    (state : State) : Option (Allocation × State) := do
  let (allocation, state) <- parts.allocate requestedSize state
  if allocation.ptr = 0 then
    let (fallback, state) <- parts.fallbackAllocate (parts.preferredSize requestedSize) state
    if fallback.ptr = 0 then return ({}, state)
    let state <- parts.add fallback.ptr fallback.size state
    parts.allocate requestedSize state
  else return (allocation, state)

end Pine
end Pinyon
