import Pinyon.Pine.PageAllocator

namespace Pinyon
namespace Pine

/-!
# The page broker

`PageBroker` keeps a page allocator and a number of bytes, the runway, that is
meant to say how much storage for nodes is left.  With less than the required
runway it first allocates pages for itself.
-/

/-- `max_overhead`. -/
def maxOverhead (target : Target) : Nat :=
  headerNodeSize target * maxDepth target

/-- `initial_cost`. -/
def initialCost (target : Target) : Nat :=
  headerNodeSize target

/-- `c_required_runway`, a constant expression. -/
def requiredRunway (target : Target) : Nat :=
  (alignUpToPower target.wordWidth (maxOverhead target)).getD 0

/-- `c_required_runway_in_pages`, which is a number of bytes. -/
def requiredRunwayInPages (target : Target) : Nat :=
  alignUpTwo target.wordWidth (requiredRunway target) pageSize

structure PageBroker (State : Type) where
  currRunway : Nat
  pageAllocator : PageAllocatorBackend State

namespace PageBroker

variable {State : Type}

def init (target : Target) (nodes : NodeAllocator State) (fresh : State)
    (allocatingRange scratchPages : PageRegion) : Option (PageBroker State) := do
  let (_, pageAllocator) <-
    PageAllocatorBackend.init target nodes fresh allocatingRange scratchPages
  return { currRunway := wordSub target (scratchPages.size target) (initialCost target), pageAllocator }

def add (target : Target) (nodes : NodeAllocator State) (broker : PageBroker State)
    (region : PageRegion) : Option (PageBroker State) := do
  let (_, pageAllocator) <- broker.pageAllocator.add target nodes region
  return { broker with pageAllocator }

/-- The pages that are allocated here go nowhere, only their size is counted. -/
def allocateRequiredRunway (target : Target) (nodes : NodeAllocator State)
    (broker : PageBroker State) : Option (Bool × PageBroker State) := do
  let (brokered, pageAllocator) <-
    broker.pageAllocator.allocate target nodes (requiredRunwayInPages target) .Page
  if brokered.succeeded then
    return (true, {
      currRunway := wordSub target ((broker.currRunway + brokered.size) % target.wordLimit)
        brokered.overheadUsed
      pageAllocator })
  else return (false, { broker with pageAllocator })

/-- The test in front of every allocation. -/
def ensureRunway (target : Target) (nodes : NodeAllocator State) (broker : PageBroker State) :
    Option (Bool × PageBroker State) :=
  if broker.currRunway < requiredRunway target then broker.allocateRequiredRunway target nodes
  else some (true, broker)

/-- What was brokered is paid for. -/
def pay (target : Target) (broker : PageBroker State)
    (result : BrokeredAllocation × PageAllocatorBackend State) : Allocation × PageBroker State :=
  (result.1.asAllocation, {
    currRunway := wordSub target broker.currRunway result.1.overheadUsed
    pageAllocator := result.2 })

def allocate (target : Target) (nodes : NodeAllocator State) (broker : PageBroker State)
    (numPages : Nat) (pageAlignment : PageAlignmentLevel) :
    Option (Allocation × PageBroker State) := do
  let (ready, broker) <- broker.ensureRunway target nodes
  if ready then
    let result <- broker.pageAllocator.allocate target nodes numPages pageAlignment
    return broker.pay target result
  else return ({}, broker)

def reserveRegion (target : Target) (nodes : NodeAllocator State) (broker : PageBroker State)
    (region : PageRegion) : Option (Allocation × PageBroker State) := do
  let (ready, broker) <- broker.ensureRunway target nodes
  if ready then
    let result <- broker.pageAllocator.reserveRegion target nodes region
    return broker.pay target result
  else return ({}, broker)

def free (target : Target) (nodes : NodeAllocator State) (broker : PageBroker State)
    (alloc : Allocation) : Option (PageBroker State) := do
  let (_, pageAllocator) <- broker.pageAllocator.free target nodes alloc
  return { broker with pageAllocator }

end PageBroker

end Pine
end Pinyon
