import Pinyon.Pine.PageBroker
import Pinyon.Pine.PageOwnership
import Pinyon.Pine.SlabSafety

namespace Pinyon
namespace Pine

open Library

/-!
# The promise of the broker

The broker promises that the page allocator never lacks storage for a node.  Two
things stand in the way.  Below the required runway it asks for more pages than
most machines have, and what it gets never reaches the slab allocator of the
nodes.  And that allocator serves no more cells than a word has bits.

`Provident` is the condition under which a call meets neither.  A runway that is
too short is no harm where the pages are to be had, or where the request has to be
refused in any case.
-/

/-! ## The slab allocator of the nodes -/

/-- The slab allocator with exactly the cells at the given addresses taken. -/
structure SlabHolds (target : Target) (cells : Nat) (slab : SlabAllocator target (regionNode target))
    (used : List Nat) : Prop where
  numSlabs : slab.numSlabs = cells
  nonnull : forall page, page ∈ slab.slabPages -> page ≠ 0
  cells : SlabAllocator.Cells slab (used.map fun address => ⟨address, regionNodeSize target⟩)

namespace SlabHolds

variable {target : Target} {cells : Nat} {slab : SlabAllocator target (regionNode target)}
variable {used : List Nat}

theorem perm (holds : SlabHolds target cells slab used) {used' : List Nat} (same : used.Perm used') :
    SlabHolds target cells slab used' := by
  have mapped := same.map fun address => (⟨address, regionNodeSize target⟩ : Allocation)
  refine ⟨holds.numSlabs, holds.nonnull, { holds.cells with known := ?_, nodup := ?_ }⟩
  · exact fun alloc => mapped.mem_iff.symm.trans (holds.cells.known alloc)
  · exact mapped.nodup_iff.mp holds.cells.nodup

/-- A failed allocation is the empty one. -/
theorem ptr_of_failed (holds : SlabHolds target cells slab used) {alloc : Allocation}
    {after : SlabAllocator target (regionNode target)} (outcome : slab.allocate = some (alloc, after))
    (failed : alloc.succeeded = false) : alloc.ptr = 0 := by
  have cases := SlabAllocator.allocate_cases holds.cells.counted
  rw [outcome] at cases
  cases cases with
  | given index _ _ found clear small marks =>
      rcases SlabAllocator.cell_eq_some.mp found with ⟨page, _, rfl⟩
      have positive := (regionNode target).positive
      rw [Allocation.succeeded, bne_eq_false_iff_eq] at failed
      exact absurd failed (Nat.ne_of_gt positive)
  | full all => rfl

/-- The slab allocator answers as long as no bit has to be read that does not
exist, and has storage as long as there is a cell. -/
theorem provides {room : Nat -> Prop} {generous : Prop}
    (safe : forall nodes, room nodes -> nodes < target.wordWidth ∨ cells ≤ target.wordWidth)
    (plenty : generous -> forall nodes, room nodes -> nodes < cells) :
    Provides target (slabNodes target) (SlabHolds target cells) room generous where
  perm := fun holds same => holds.perm same
  allocate := by
    intro slab used holds roomy
    have length : (used.map fun address => (⟨address, regionNodeSize target⟩ : Allocation)).length =
        used.length := List.length_map _
    cases outcome : slab.allocate with
    | none =>
        have stuck := holds.cells.allocate_eq_none_iff.mp outcome
        rw [length, holds.numSlabs] at stuck
        rcases safe _ roomy with few | small
        · omega
        · omega
    | some reply =>
        rcases reply with ⟨alloc, after⟩
        rcases holds.cells.allocate_spec outcome with ⟨served, given, failed, pages, _⟩
        rw [length, holds.numSlabs] at served
        have slabs : after.numSlabs = cells := by
          rw [SlabAllocator.numSlabs, pages]
          exact holds.numSlabs
        refine ⟨alloc, after, outcome, ?_⟩
        cases success : alloc.succeeded with
        | false =>
            have same := failed success
            subst same
            refine .inl ⟨?_, ?_, holds⟩
            · exact holds.ptr_of_failed outcome success
            · intro always
              have more := served.mpr (plenty always _ roomy)
              exact absurd (success.symm.trans more) (by decide)
        | true =>
            rcases given success with ⟨⟨index, _, found⟩, taken⟩
            rcases SlabAllocator.cell_eq_some.mp found with ⟨page, listed, rfl⟩
            have nonnull := holds.nonnull page (List.mem_of_getElem? listed)
            refine .inr ⟨?_, ?_, slabs, ?_, taken⟩
            · dsimp only
              omega
            · intro member
              have nodup := taken.nodup
              rw [List.nodup_cons] at nodup
              exact nodup.1 (List.mem_map_of_mem member)
            · rw [pages]
              exact holds.nonnull
  free := by
    intro slab address used holds
    have member : (⟨address, regionNodeSize target⟩ : Allocation) ∈
        (address :: used).map fun address => (⟨address, regionNodeSize target⟩ : Allocation) :=
      List.mem_map_of_mem List.mem_cons_self
    rcases holds.cells.free_spec member with ⟨after, outcome, rest, _, pages, _⟩
    rw [List.map_cons, List.erase_cons_head] at rest
    refine ⟨after, outcome, ?_, ?_, rest⟩
    · rw [SlabAllocator.numSlabs, pages]
      exact holds.numSlabs
    · rw [pages]
      exact holds.nonnull

end SlabHolds

/-! ## Runs -/

/-- A broker with what its callers know. -/
structure BrokerUse (target : Target) where
  broker : PageBroker (SlabAllocator target (regionNode target))
  live : List Allocation

namespace BrokerUse

variable {target : Target} {use before after : BrokerUse target} {call : PageCall} {cells : Nat}

def start (broker : PageBroker (SlabAllocator target (regionNode target))) : BrokerUse target where
  broker := broker
  live := []

def handedOut (use : BrokerUse target)
    (result : Allocation × PageBroker (SlabAllocator target (regionNode target))) :
    BrokerUse target where
  broker := result.2
  live := if result.1.succeeded then result.1 :: use.live else use.live

def perform (use : BrokerUse target) : PageCall -> Option (BrokerUse target)
  | .add region => (use.broker.add target (slabNodes target) region).map fun broker =>
      { use with broker }
  | .allocate numPages pageAlignment =>
      (use.broker.allocate target (slabNodes target) numPages pageAlignment).map use.handedOut
  | .reserveRegion region =>
      (use.broker.reserveRegion target (slabNodes target) region).map use.handedOut
  | .free alloc => (use.broker.free target (slabNodes target) alloc).map fun broker =>
      { broker, live := use.live.erase alloc }

/-- What is asked of the callers: regions that are added are natural, and what is
freed is live. -/
def Allowed (use : BrokerUse target) : PageCall -> Prop
  | .add region => Exists fun depth => Natural target depth region
  | .allocate _ _ => True
  | .reserveRegion _ => True
  | .free alloc => alloc ∈ use.live

def Step (before : BrokerUse target) (call : PageCall) (after : BrokerUse target) : Prop :=
  Allowed before call ∧ before.perform call = some after

/-- The number of nodes on the lists. -/
def nodes (use : BrokerUse target) : Nat :=
  use.broker.pageAllocator.listed.length

/-- The number of cells of the slab allocator. -/
def numSlabs (use : BrokerUse target) : Nat :=
  use.broker.pageAllocator.nodeAllocator.numSlabs

/-- How many nodes the slab allocator can serve. -/
def capacity (use : BrokerUse target) : Nat :=
  min target.wordWidth use.numSlabs

/-- A node on the lists satisfies a request for pages. -/
def HasPages (use : BrokerUse target) (numPages : Nat) (pageAlignment : PageAlignmentLevel) : Prop :=
  Exists fun node => node ∈ use.broker.pageAllocator.listed ∧
    node.contents.fits numPages = true ∧ node.contents.alignedTo pageAlignment.toNat = true

/-- A node on the lists satisfies a request for a region. -/
def HasRegion (use : BrokerUse target) (region : PageRegion) : Prop :=
  Exists fun node => node ∈ use.broker.pageAllocator.listed ∧
    node.contents.offset ≤ region.offset ∧
    region.offset + region.length ≤ node.contents.offset + node.contents.length

/-- There are cells for the nodes of the halves, after the node that was found has
given its own back, and the number of pages is rounded up by a shift that exists. -/
def RoomForPages (use : BrokerUse target) (numPages : Nat) (pageAlignment : PageAlignmentLevel) :
    Prop :=
  forall node, use.broker.pageAllocator.findFreePages target numPages pageAlignment = some (some node) ->
    numPages < 2 ^ 32 ∧ forall exponent,
      alignUpToPower target.wordWidth numPages = some (2 ^ exponent) ->
        use.nodes + PageAllocatorBackend.splitCount (PageAllocatorBackend.keepLeft target) exponent
          (depthFromPageLength target node.contents.length) node.contents ≤ use.capacity + 1

def RoomForRegion (use : BrokerUse target) (region : PageRegion) : Prop :=
  forall node, use.broker.pageAllocator.findFreeRegion target region = some (some node) ->
    use.nodes + PageAllocatorBackend.splitCount (PageAllocatorBackend.keepContaining target region)
      (depthFromPageLength target region.length)
      (depthFromPageLength target node.contents.length) node.contents ≤ use.capacity + 1

/-- The pages that the broker asks for when its runway is too short are to be had. -/
def CanReplenish (use : BrokerUse target) : Prop :=
  (Exists fun node => use.broker.pageAllocator.findFreePages target (requiredRunwayInPages target)
    .Page = some (some node)) ∧ use.RoomForPages (requiredRunwayInPages target) .Page

/-- A request finds the broker with a runway, and with room for what it needs and as much
to satisfy it as there was before the runway was replenished.  Or it is refused with good
reason: nothing satisfies it, nor is there anything to replenish the runway with. -/
def Supplied (use : BrokerUse target) (satisfied roomy : BrokerUse target -> Prop) : Prop :=
  (requiredRunway target ≤ use.broker.currRunway ∨ use.CanReplenish) ∧
      (forall broker, use.broker.ensureRunway target (slabNodes target) = some (true, broker) ->
        roomy { use with broker } ∧ (satisfied use -> satisfied { use with broker })) ∨
    use.broker.currRunway < requiredRunway target ∧ ¬ satisfied use ∧
      use.broker.pageAllocator.findFreePages target (requiredRunwayInPages target) .Page = some none

/-- The calls for which the broker has what it needs. -/
def Provident (use : BrokerUse target) : PageCall -> Prop
  | .add _ => use.nodes < target.wordWidth ∨ use.numSlabs ≤ target.wordWidth
  | .allocate numPages pageAlignment =>
      use.Supplied (HasPages · numPages pageAlignment) (RoomForPages · numPages pageAlignment)
  | .reserveRegion region => use.Supplied (HasRegion · region) (RoomForRegion · region)
  | .free _ => use.nodes < use.capacity

/-- The depth of the whole address space. -/
def spaceDepth (target : Target) : Nat :=
  target.wordWidth - 12

theorem spaceDepth_lt (target : Target) : spaceDepth target < maxDepth target := by
  cases target <;> decide

theorem Natural.depth_le {depth : Nat} {region : PageRegion} (natural : Natural target depth region) :
    depth ≤ spaceDepth target := by
  have length := natural.length
  have addressable := natural.addressable
  have power : 2 ^ depth ≤ 2 ^ spaceDepth target := by
    rw [addressablePages] at addressable
    rw [spaceDepth]
    omega
  exact (Nat.pow_le_pow_iff_right (by decide)).mp power

/-- The invariant: the nodes on the lists are the cells in use, and what is live
was handed out for a natural region. -/
structure Sound (target : Target) (cells : Nat) (use : BrokerUse target) : Prop where
  housed : PageAllocatorBackend.Housed target (spaceDepth target) (SlabHolds target cells)
    use.broker.pageAllocator
  live : forall alloc, alloc ∈ use.live -> Exists fun depth => Exists fun region =>
    Natural target depth region ∧ region.length < addressablePages target ∧
      alloc = region.allocation target

/-- The slab allocator as it answers while it is used. -/
theorem provides_answers (target : Target) (cells : Nat) :
    Provides target (slabNodes target) (SlabHolds target cells)
      (fun nodes => nodes < target.wordWidth ∨ cells ≤ target.wordWidth) False :=
  SlabHolds.provides (fun _ room => room) fun wrong => absurd wrong id

/-- The slab allocator as long as it always has a cell. -/
theorem provides_cells (target : Target) (cells : Nat) :
    Provides target (slabNodes target) (SlabHolds target cells)
      (fun nodes => nodes < min target.wordWidth cells) True :=
  SlabHolds.provides (fun _ room => .inl (by omega)) fun _ _ room => by omega

theorem Sound.numSlabs_eq (sound : Sound target cells use) : use.numSlabs = cells :=
  sound.housed.holds.numSlabs

/-- A live allocation stands for the region that it was handed out for. -/
theorem Sound.region_of_live (sound : Sound target cells use) {alloc : Allocation}
    (member : alloc ∈ use.live) : Exists fun depth => Natural target depth (alloc.region target) := by
  rcases sound.live alloc member with ⟨depth, region, natural, small, given⟩
  have back : alloc.region target = region := by
    rw [given]
    exact natural.fromPtr_allocation small
  exact ⟨depth, back ▸ natural⟩

/-- A region that is handed out whole has a size unless it is all there is. -/
theorem succeeded_of_natural {depth : Nat} {region : PageRegion} (natural : Natural target depth region)
    (small : region.length < addressablePages target) :
    (region.allocation target).succeeded = true := by
  have positive := Nat.two_pow_pos depth
  rw [Allocation.succeeded, Region.allocation, bne_iff_ne]
  dsimp only
  rw [Natural.size_eq small, natural.length]
  exact Nat.mul_ne_zero (Nat.ne_of_gt positive) (by decide)

/-! ## The runway -/

theorem ensureRunway_of_le {broker : PageBroker (SlabAllocator target (regionNode target))}
    (runway : requiredRunway target ≤ broker.currRunway) :
    broker.ensureRunway target (slabNodes target) = some (true, broker) :=
  if_neg (Nat.not_lt.mpr runway)

/-- The pages for the runway have a power of two for their number. -/
theorem exponent_runway {exponent : Nat}
    (power : alignUpToPower target.wordWidth (requiredRunwayInPages target) = some (2 ^ exponent)) :
    exponent = 12 := by
  have twelve : alignUpToPower target.wordWidth (requiredRunwayInPages target) = some (2 ^ 12) := by
    cases target <;> decide
  exact (Nat.pow_right_injective (Nat.le_refl 2) (Option.some.inj (twelve.symm.trans power))).symm

/-- Where the search finds none to replenish the runway with, nothing has changed. -/
theorem ensureRunway_of_none {broker : PageBroker (SlabAllocator target (regionNode target))}
    (short : broker.currRunway < requiredRunway target)
    (search : broker.pageAllocator.findFreePages target (requiredRunwayInPages target) .Page =
      some none) : broker.ensureRunway target (slabNodes target) = some (false, broker) := by
  rw [PageBroker.ensureRunway, if_pos short, PageBroker.allocateRequiredRunway,
    PageAllocatorBackend.allocate, search]
  rfl

/-- The runway is replenished from pages that are there. -/
theorem Sound.ensureRunway (sound : Sound target cells use)
    (ready : requiredRunway target ≤ use.broker.currRunway ∨ use.CanReplenish) :
    Exists fun broker => use.broker.ensureRunway target (slabNodes target) = some (true, broker) ∧
      Sound target cells { use with broker } := by
  by_cases runway : requiredRunway target ≤ use.broker.currRunway
  · exact ⟨use.broker, ensureRunway_of_le runway, sound⟩
  · rcases ready.resolve_left runway with ⟨⟨found, search⟩, roomy⟩
    rcases PageAllocatorBackend.allocate_returns (provides_cells target cells) sound.housed
      (spaceDepth_lt target) .Page search (fun _ => (roomy found search).1)
      (fun node exponent same aligned nodes few => by
        have room := (roomy node (search.trans (congrArg some same))).2 exponent aligned
        rw [capacity, sound.numSlabs_eq, BrokerUse.nodes] at room
        omega) with ⟨brokered, backend, ran, answers⟩
    rcases answers.serves trivial rfl with ⟨final, ⟨exponent, power, fulfils⟩, given⟩
    rcases fulfils.natural with ⟨depth, natural, above, exactly⟩
    cases exponent_runway power
    have whole : depth = 12 := by
      by_contra different
      exact absurd (exactly (by omega)) (by simp [PageAllocatorBackend.keepLeft])
    have part : final.length < addressablePages target := by
      rw [natural.length, whole]
      cases target <;> decide
    have success : brokered.succeeded = true := by
      have size := succeeded_of_natural natural part
      rw [← given] at size
      exact size
    have replenished : use.broker.ensureRunway target (slabNodes target) = some (true, {
        currRunway := wordSub target ((use.broker.currRunway + brokered.size) % target.wordLimit)
          brokered.overheadUsed
        pageAllocator := backend }) := by
      rw [PageBroker.ensureRunway, if_pos (Nat.lt_of_not_le runway),
        PageBroker.allocateRequiredRunway, ran]
      simp only [Option.bind_eq_bind, Option.bind_some, success, if_true]
      rfl
    exact ⟨_, replenished, answers.housed, sound.live⟩

/-! ## Requests -/

/-- What a request is answered with: nothing when nothing was found, otherwise a
natural region that fulfils it. -/
structure Answered (target : Target) (cells : Nat) (use : BrokerUse target)
    (found : Option RegionNode) (fulfils : PageRegion -> Prop)
    (outcome : Option (Allocation × PageBroker (SlabAllocator target (regionNode target)))) :
    Prop where
  returns : Exists fun alloc => Exists fun broker => outcome = some (alloc, broker) ∧
    Sound target cells (use.handedOut (alloc, broker)) ∧ (found.isSome = true ->
      Exists fun final => fulfils final ∧ alloc = final.allocation target)

/-- The broker pays and hands out what the page allocator answers. -/
theorem Sound.answered (sound : Sound target cells use) {found : Option RegionNode}
    {fulfils : PageRegion -> Prop}
    (natural : forall final, fulfils final -> Exists fun depth => Natural target depth final)
    {brokered : BrokeredAllocation}
    {backend : PageAllocatorBackend (SlabAllocator target (regionNode target))}
    (answers : PageAllocatorBackend.Answers target (spaceDepth target) (SlabHolds target cells) True
      found fulfils use.broker.pageAllocator brokered backend) :
    Answered target cells use found fulfils (some (use.broker.pay target (brokered, backend))) := by
  refine ⟨brokered.asAllocation, _, rfl, ⟨answers.housed, ?_⟩, fun something => ?_⟩
  · intro alloc member
    dsimp only [handedOut] at member
    cases success : brokered.asAllocation.succeeded with
    | false =>
        rw [success] at member
        exact sound.live alloc member
    | true =>
        rw [success, if_pos rfl] at member
        rcases List.mem_cons.mp member with new | old
        · cases found with
          | none =>
              rw [(answers.idle rfl).1] at success
              exact absurd success (by decide)
          | some node =>
              rcases answers.serves trivial rfl with ⟨final, fulfilled, given⟩
              rcases natural final fulfilled with ⟨depth, finalNatural⟩
              refine ⟨depth, final, finalNatural, ?_, new.trans given⟩
              rw [given, Allocation.succeeded, Region.allocation, bne_iff_ne] at success
              have most := finalNatural.addressable
              by_contra large
              have whole : final.length = addressablePages target := by omega
              apply success
              dsimp only
              rw [Region.size, whole, addressablePages_mul, Nat.mod_self]
        · exact sound.live alloc old
  · exact answers.serves trivial something

/-- A request looks to the runway first. -/
def request (broker : PageBroker (SlabAllocator target (regionNode target)))
    (answer : PageBroker (SlabAllocator target (regionNode target)) ->
      Option (Allocation × PageBroker (SlabAllocator target (regionNode target)))) :
    Option (Allocation × PageBroker (SlabAllocator target (regionNode target))) :=
  (broker.ensureRunway target (slabNodes target)).bind fun ready =>
    if ready.1 then answer ready.2 else some ({}, ready.2)

/-- With a runway, the broker hands out what the page allocator answers. -/
theorem allocate_eq (broker : PageBroker (SlabAllocator target (regionNode target))) (numPages : Nat)
    (pageAlignment : PageAlignmentLevel) :
    broker.allocate target (slabNodes target) numPages pageAlignment = request broker fun broker =>
      (broker.pageAllocator.allocate target (slabNodes target) numPages pageAlignment).map
        (broker.pay target) := by
  unfold PageBroker.allocate request
  cases broker.ensureRunway target (slabNodes target) with
  | none => rfl
  | some ready =>
      rcases ready with ⟨_ | _, broker⟩
      · rfl
      · simp only [Option.bind_eq_bind, Option.bind_some, if_true]
        cases broker.pageAllocator.allocate target (slabNodes target) numPages pageAlignment <;> rfl

theorem reserveRegion_eq (broker : PageBroker (SlabAllocator target (regionNode target)))
    (region : PageRegion) :
    broker.reserveRegion target (slabNodes target) region = request broker fun broker =>
      (broker.pageAllocator.reserveRegion target (slabNodes target) region).map
        (broker.pay target) := by
  unfold PageBroker.reserveRegion request
  cases broker.ensureRunway target (slabNodes target) with
  | none => rfl
  | some ready =>
      rcases ready with ⟨_ | _, broker⟩
      · rfl
      · simp only [Option.bind_eq_bind, Option.bind_some, if_true]
        cases broker.pageAllocator.reserveRegion target (slabNodes target) region <;> rfl

theorem Sound.allocate (sound : Sound target cells use) {numPages : Nat}
    {pageAlignment : PageAlignmentLevel} (roomy : use.RoomForPages numPages pageAlignment)
    {found : Option RegionNode}
    (search : use.broker.pageAllocator.findFreePages target numPages pageAlignment = some found) :
    Answered target cells use found
      (fun final => Exists fun exponent =>
        alignUpToPower target.wordWidth numPages = some (2 ^ exponent) ∧
        PageAllocatorBackend.Fulfils target (PageAllocatorBackend.keepLeft target)
          (fun region => region.alignedTo pageAlignment.toNat = true) exponent final)
      ((use.broker.pageAllocator.allocate target (slabNodes target) numPages pageAlignment).map
        (use.broker.pay target)) := by
  have small (some_ : found.isSome = true) : numPages < 2 ^ 32 := by
    rcases Option.isSome_iff_exists.mp some_ with ⟨node, same⟩
    exact (roomy node (search.trans (congrArg some same))).1
  rcases PageAllocatorBackend.allocate_returns (provides_cells target cells) sound.housed
    (spaceDepth_lt target) pageAlignment search small (fun node exponent same aligned nodes few => by
      have room := (roomy node (search.trans (congrArg some same))).2 exponent aligned
      rw [capacity, sound.numSlabs_eq, BrokerUse.nodes] at room
      omega) with ⟨brokered, backend, ran, answers⟩
  rw [ran]
  refine sound.answered ?_ answers
  rintro final ⟨exponent, _, fulfils⟩
  rcases fulfils.natural with ⟨depth, natural, _⟩
  exact ⟨depth, natural⟩

theorem Sound.reserveRegion (sound : Sound target cells use) {region : PageRegion}
    (roomy : use.RoomForRegion region) {found : Option RegionNode}
    (search : use.broker.pageAllocator.findFreeRegion target region = some found) :
    Answered target cells use found
      (PageAllocatorBackend.Fulfils target (PageAllocatorBackend.keepContaining target region)
        (fun final => final.contains target region = true)
        (depthFromPageLength target region.length))
      ((use.broker.pageAllocator.reserveRegion target (slabNodes target) region).map
        (use.broker.pay target)) := by
  rcases PageAllocatorBackend.reserveRegion_returns (provides_cells target cells) sound.housed
    (spaceDepth_lt target) region search (fun node same nodes few => by
      have room := roomy node (search.trans (congrArg some same))
      rw [capacity, sound.numSlabs_eq, BrokerUse.nodes] at room
      omega) with ⟨brokered, backend, ran, answers⟩
  rw [ran]
  refine sound.answered ?_ answers
  intro final fulfils
  rcases fulfils.natural with ⟨depth, natural, _⟩
  exact ⟨depth, natural⟩

/-- A request that is supplied keeps the invariant, whatever it is answered with. -/
theorem Sound.of_request (sound : Sound target cells use) {satisfied roomy : BrokerUse target -> Prop}
    (supplied : use.Supplied satisfied roomy)
    {answer : PageBroker (SlabAllocator target (regionNode target)) ->
      Option (Allocation × PageBroker (SlabAllocator target (regionNode target)))}
    (kept : forall broker, Sound target cells { use with broker } -> roomy { use with broker } ->
      forall result, answer broker = some result -> Sound target cells (use.handedOut result))
    {result : Allocation × PageBroker (SlabAllocator target (regionNode target))}
    (requested : request use.broker answer = some result) :
    Sound target cells (use.handedOut result) := by
  rcases supplied with ⟨ready, room⟩ | ⟨short, _, nothing⟩
  · rcases sound.ensureRunway ready with ⟨broker, ran, later⟩
    rw [BrokerUse.request, ran] at requested
    exact kept broker later (room broker ran).1 result requested
  · rw [BrokerUse.request, ensureRunway_of_none short nothing] at requested
    cases Option.some.inj requested
    exact sound

/-- A request that can be satisfied is passed on with a runway. -/
theorem Sound.requested (sound : Sound target cells use) {satisfied roomy : BrokerUse target -> Prop}
    (supplied : use.Supplied satisfied roomy) (there : satisfied use)
    (answer : PageBroker (SlabAllocator target (regionNode target)) ->
      Option (Allocation × PageBroker (SlabAllocator target (regionNode target)))) :
    Exists fun broker => request use.broker answer = answer broker ∧
      Sound target cells { use with broker } ∧ roomy { use with broker } ∧
      satisfied { use with broker } := by
  rcases supplied with ⟨ready, room⟩ | ⟨_, missing, _⟩
  · rcases sound.ensureRunway ready with ⟨broker, ran, later⟩
    refine ⟨broker, ?_, later, (room broker ran).1, (room broker ran).2 there⟩
    rw [BrokerUse.request, ran]
    rfl
  · exact absurd there missing

/-- With a cell left, a live allocation goes back onto a list. -/
theorem Sound.free (sound : Sound target cells use) {alloc : Allocation} (member : alloc ∈ use.live)
    (provident : Provident use (.free alloc)) :
    Exists fun broker => use.broker.free target (slabNodes target) alloc = some broker ∧
      Sound target cells { broker, live := use.live.erase alloc } ∧
      broker.pageAllocator.blocks.Perm
        ((alloc.region target).pages :: use.broker.pageAllocator.blocks) := by
  rcases sound.region_of_live member with ⟨depth, natural⟩
  rw [Provident, capacity, sound.numSlabs_eq] at provident
  rcases PageAllocatorBackend.freeRegion_returns (provides_cells target cells) sound.housed
    (spaceDepth_lt target) (Natural.depth_le natural) natural provident with
    ⟨cost, backend, ran, housed, freed⟩
  refine ⟨{ use.broker with pageAllocator := backend }, ?_, ⟨housed, fun other kept => ?_⟩,
    (freed trivial).2⟩
  · rw [PageBroker.free, PageAllocatorBackend.free]
    rw [Allocation.region] at ran
    rw [ran]
    rfl
  · exact sound.live other (List.mem_of_mem_erase kept)

theorem Sound.add (sound : Sound target cells use) {region : PageRegion} {depth : Nat}
    (natural : Natural target depth region) (provident : Provident use (.add region)) :
    Exists fun broker => use.broker.add target (slabNodes target) region = some broker ∧
      Sound target cells { use with broker } := by
  rw [Provident, sound.numSlabs_eq] at provident
  rcases PageAllocatorBackend.freeRegion_returns (provides_answers target cells) sound.housed
    (spaceDepth_lt target) (Natural.depth_le natural) natural provident with
    ⟨cost, backend, ran, housed, _⟩
  refine ⟨{ use.broker with pageAllocator := backend }, ?_, ⟨housed, sound.live⟩⟩
  rw [PageBroker.add, PageAllocatorBackend.add, ran]
  rfl

theorem Sound.step (sound : Sound target cells before) (provident : Provident before call)
    (stepped : Step before call after) : Sound target cells after := by
  rcases stepped with ⟨allowed, performed⟩
  cases call with
  | add region =>
      rcases allowed with ⟨depth, natural⟩
      rcases sound.add natural provident with ⟨broker, ran, later⟩
      rw [perform, ran] at performed
      cases Option.some.inj performed
      exact later
  | allocate numPages pageAlignment =>
      rcases Option.map_eq_some_iff.mp performed with ⟨result, ran, rfl⟩
      rw [allocate_eq] at ran
      have supplied : before.Supplied (HasPages · numPages pageAlignment)
          (RoomForPages · numPages pageAlignment) := provident
      refine sound.of_request supplied (fun broker later roomy result answered => ?_) ran
      cases search : broker.pageAllocator.findFreePages target numPages pageAlignment with
      | none => simp [PageAllocatorBackend.allocate, search] at answered
      | some found =>
          rcases (later.allocate roomy search).returns with ⟨alloc, after, same, kept, _⟩
          cases Option.some.inj (answered.symm.trans same)
          exact kept
  | reserveRegion region =>
      rcases Option.map_eq_some_iff.mp performed with ⟨result, ran, rfl⟩
      rw [reserveRegion_eq] at ran
      have supplied : before.Supplied (HasRegion · region) (RoomForRegion · region) := provident
      refine sound.of_request supplied (fun broker later roomy result answered => ?_) ran
      cases search : broker.pageAllocator.findFreeRegion target region with
      | none => simp [PageAllocatorBackend.reserveRegion, search] at answered
      | some found =>
          rcases (later.reserveRegion roomy search).returns with ⟨alloc, after, same, kept, _⟩
          cases Option.some.inj (answered.symm.trans same)
          exact kept
  | free alloc =>
      rcases sound.free allowed provident with ⟨broker, ran, later, _⟩
      rw [perform, ran] at performed
      cases Option.some.inj performed
      exact later

theorem Sound.listed_natural (sound : Sound target cells use) {node : RegionNode}
    (member : node ∈ use.broker.pageAllocator.listed) : Exists fun depth =>
      Natural target depth node.contents ∧ 0 < node.contents.length ∧
        node.contents.length < target.wordLimit := by
  rcases List.mem_flatten.mp member with ⟨list, inside, here⟩
  rcases List.mem_iff_getElem?.mp inside with ⟨depth, listed⟩
  have natural := (sound.housed.tidy.natural depth list node listed here).2
  have positive := Nat.two_pow_pos depth
  have length := natural.length
  have small := natural.addressable_lt
  exact ⟨depth, natural, by omega, by omega⟩

/-- The pages that were added as scratch are storage for the nodes. -/
theorem slabHolds_start {scratchPages : PageRegion}
    {slab : SlabAllocator target (regionNode target)}
    (addable : PageAddable target [] (scratchPages.allocation target))
    (served : SlabUse.Served (SlabUse.empty target (regionNode target))
      (.add (scratchPages.allocation target)))
    (stocked : (slabNodes target).add (SlabAllocator.empty _ _) (scratchPages.ptr target 0)
      (scratchPages.size target) = some slab) :
    SlabHolds target slab.numSlabs slab [] := by
  have sound := (SlabUse.sound_empty target (regionNode target)).step served
    (.add (SlabUse.empty target (regionNode target)) _ addable _ slab stocked)
  have nonnull : forall page, page ∈ slab.slabPages -> page ≠ 0 := by
    intro page member zero
    have inside := sound.page_subset member
    have first : page ∈ cover ([scratchPages.allocation target].map Allocation.bytes) :=
      inside ⟨Nat.le_refl _, Nat.lt_add_of_pos_right (by decide)⟩
    rw [List.map_singleton, cover_cons, cover_nil, Set.union_empty, zero] at first
    exact addable.nonnull (Nat.le_zero.mp first.1)
  rcases sound with ⟨chunks, storage, kept, _⟩
  exact ⟨rfl, nonnull, kept.cells⟩

theorem sound_start {depth : Nat} {allocatingRange scratchPages : PageRegion}
    {broker : PageBroker (SlabAllocator target (regionNode target))}
    (natural : Natural target depth allocatingRange)
    (addable : PageAddable target [] (scratchPages.allocation target))
    (served : SlabUse.Served (SlabUse.empty target (regionNode target))
      (.add (scratchPages.allocation target)))
    (initialised : PageBroker.init target (slabNodes target) (SlabAllocator.empty _ _)
      allocatingRange scratchPages = some broker) :
    Exists fun cells => Sound target cells (start broker) := by
  rcases Option.bind_eq_some_iff.mp initialised with ⟨⟨cost, backend⟩, begun, made⟩
  cases Option.some.inj made
  rcases Option.bind_eq_some_iff.mp begun with ⟨slab, stocked, added⟩
  have idle := slabHolds_start addable served stocked
  have empty : PageAllocatorBackend.Housed target (spaceDepth target)
      (SlabHolds target slab.numSlabs) (PageAllocatorBackend.empty target slab) := by
    refine ⟨⟨List.length_replicate, ?_⟩, ?_⟩
    · intro depth list node here member
      rw [List.eq_of_mem_replicate (List.mem_of_getElem? here)] at member
      exact absurd member List.not_mem_nil
    · simpa [PageAllocatorBackend.addresses, PageAllocatorBackend.listed,
        PageAllocatorBackend.empty] using idle
  have few : (PageAllocatorBackend.empty target slab).listed.length < target.wordWidth := by
    simpa [PageAllocatorBackend.listed, PageAllocatorBackend.empty] using
      (by cases target <;> decide : 0 < target.wordWidth)
  rcases PageAllocatorBackend.freeRegion_returns (provides_answers target slab.numSlabs) empty
    (spaceDepth_lt target) (Natural.depth_le natural) natural (.inl few) with
    ⟨cost', backend', ran, housed, _⟩
  cases Option.some.inj (ran.symm.trans added)
  exact ⟨slab.numSlabs, housed, fun alloc wrong => absurd wrong List.not_mem_nil⟩

/-- In every run of provident calls the broker keeps its promise to the next one.
A request that some node on the lists satisfies is served, with a region that was
halved as far as it could be, and a live allocation goes back onto a list. -/
theorem broker_keeps_promise {allocatingRange scratchPages : PageRegion}
    {broker : PageBroker (SlabAllocator target (regionNode target))} {calls : List PageCall}
    (allocating : Exists fun depth => Natural target depth allocatingRange)
    (addable : PageAddable target [] (scratchPages.allocation target))
    (served : SlabUse.Served (SlabUse.empty target (regionNode target))
      (.add (scratchPages.allocation target)))
    (initialised : PageBroker.init target (slabNodes target) (SlabAllocator.empty _ _)
      allocatingRange scratchPages = some broker)
    (reached : Reaches (guarded Step Provident) (start broker) calls use) :
    (forall numPages pageAlignment, Provident use (.allocate numPages pageAlignment) ->
      (Exists fun node => node ∈ use.broker.pageAllocator.listed ∧
        node.contents.fits numPages = true ∧
        node.contents.alignedTo pageAlignment.toNat = true) ->
      Exists fun final => Exists fun exponent => Exists fun after =>
        use.broker.allocate target (slabNodes target) numPages pageAlignment =
          some (final.allocation target, after) ∧
        alignUpToPower target.wordWidth numPages = some (2 ^ exponent) ∧
        Natural target exponent final ∧ final.alignedTo pageAlignment.toNat = true ∧
        (final.length < addressablePages target -> (final.allocation target).succeeded = true)) ∧
    (forall region, Provident use (.reserveRegion region) ->
      (Exists fun node => node ∈ use.broker.pageAllocator.listed ∧
        node.contents.offset ≤ region.offset ∧
        region.offset + region.length ≤ node.contents.offset + node.contents.length) ->
      Exists fun final => Exists fun depth => Exists fun after =>
        use.broker.reserveRegion target (slabNodes target) region =
          some (final.allocation target, after) ∧
        Natural target depth final ∧ final.contains target region = true ∧
        (depthFromPageLength target region.length < depth ->
          (final.halve target).1.contains target region = false ∧
          (final.halve target).2.contains target region = false) ∧
        (final.length < addressablePages target -> (final.allocation target).succeeded = true)) ∧
    (forall alloc, alloc ∈ use.live -> Provident use (.free alloc) ->
      Exists fun after => use.broker.free target (slabNodes target) alloc = some after ∧
        after.pageAllocator.blocks.Perm
          ((alloc.region target).pages :: use.broker.pageAllocator.blocks)) := by
  rcases allocating with ⟨depth, natural⟩
  rcases sound_start natural addable served initialised with ⟨cells, initial⟩
  have sound := reached.guarded_invariant (Sound target cells) initial
    fun before call after sound provident stepped => sound.step provident stepped
  refine ⟨?_, ?_, fun alloc member provident => ?_⟩
  · rintro numPages pageAlignment provident there
    have supplied : use.Supplied (HasPages · numPages pageAlignment)
        (RoomForPages · numPages pageAlignment) := provident
    rw [allocate_eq]
    rcases sound.requested supplied there fun broker =>
      (broker.pageAllocator.allocate target (slabNodes target) numPages pageAlignment).map
        (broker.pay target) with ⟨broker, passed, later, roomy, node, member, fits, aligned⟩
    rcases later.listed_natural member with ⟨actual, nodeNatural, positive, small⟩
    have long := two_pow_depthFromPageLength_le small positive (of_decide_eq_true fits)
    have searched : Exists fun found => broker.pageAllocator.findFreePages target numPages
        pageAlignment = some (some found) :=
      PageAllocatorBackend.findNode_of_member later.housed.tidy (spaceDepth_lt target) member
        (by rw [fits, aligned]; rfl) long
    rcases searched with ⟨found, search⟩
    rcases (later.allocate roomy search).returns with ⟨alloc, after, ran, _, serves⟩
    rcases serves rfl with ⟨final, ⟨exponent, power, fulfils⟩, given⟩
    rcases fulfils.natural with ⟨finalDepth, finalNatural, above, exactly⟩
    have exact' : finalDepth = exponent := by
      by_contra different
      exact absurd (exactly (by omega)) (by simp [PageAllocatorBackend.keepLeft])
    exact ⟨final, exponent, after, passed.trans (given ▸ ran), power, exact' ▸ finalNatural,
      fulfils.suits, succeeded_of_natural finalNatural⟩
  · rintro region provident there
    have supplied : use.Supplied (HasRegion · region) (RoomForRegion · region) := provident
    rw [reserveRegion_eq]
    rcases sound.requested supplied there fun broker =>
      (broker.pageAllocator.reserveRegion target (slabNodes target) region).map
        (broker.pay target) with ⟨broker, passed, later, roomy, node, member, before, behind⟩
    rcases later.listed_natural member with ⟨actual, nodeNatural, positive, small⟩
    have wide := nodeNatural.addressable_lt
    have contains : node.contents.contains target region = true := by
      rw [Region.contains, decide_eq_true_eq, Region.endOffset, Region.endOffset,
        Nat.mod_eq_of_lt wide, Nat.mod_eq_of_lt (by omega)]
      exact ⟨before, behind⟩
    have fits : region.length ≤ node.contents.length := by omega
    have long := two_pow_depthFromPageLength_le small positive fits
    have searched : Exists fun found =>
        broker.pageAllocator.findFreeRegion target region = some (some found) :=
      PageAllocatorBackend.findNode_of_member later.housed.tidy (spaceDepth_lt target) member
        contains long
    rcases searched with ⟨found, search⟩
    rcases (later.reserveRegion roomy search).returns with ⟨alloc, after, ran, _, serves⟩
    rcases serves rfl with ⟨final, fulfils, given⟩
    rcases fulfils.natural with ⟨finalDepth, finalNatural, above, straddles⟩
    refine ⟨final, finalDepth, after, passed.trans (given ▸ ran), finalNatural, fulfils.suits,
      fun larger => ?_,
      succeeded_of_natural finalNatural⟩
    exact PageAllocatorBackend.keepContaining_eq_none.mp (straddles larger)
  · rcases sound.free member provident with ⟨after, ran, _, back⟩
    exact ⟨after, ran, back⟩

/-! ## A small machine -/

/-- Sixty-four pages, and four for the nodes. -/
def smallBroker : Option (PageBroker (SlabAllocator .aarch32 (regionNode .aarch32))) :=
  PageBroker.init .aarch32 (slabNodes .aarch32) (SlabAllocator.empty _ _) ⟨64, 64⟩ ⟨128, 4⟩

theorem addable_small : PageAddable .aarch32 []
    (Region.allocation .aarch32 (⟨128, 4⟩ : PageRegion)) :=
  ⟨by decide, by simp, by decide, by decide⟩

theorem served_small : SlabUse.Served (SlabUse.empty .aarch32 (regionNode .aarch32))
    (.add (Region.allocation .aarch32 (⟨128, 4⟩ : PageRegion))) := by
  intro turns
  cases turns with
  | zero => trivial
  | succ turns =>
      intro enough
      refine ⟨?_, fun _ => SlabUse.roomy_of_small (by decide +kernel) turns⟩
      unfold SlabAdding.LastChunk
      decide +kernel

/-- A page is allocated from the sixty-four. -/
theorem broker_keeps_promise_page : Exists fun broker => Exists fun final => Exists fun after =>
    smallBroker = some broker ∧ Natural .aarch32 0 final ∧
      broker.allocate .aarch32 (slabNodes .aarch32) 1 .Page =
        some (final.allocation .aarch32, after) := by
  have made : smallBroker.map (fun broker =>
      (broker.currRunway, broker.pageAllocator.listed.map RegionNode.contents,
        broker.pageAllocator.nodeAllocator.numSlabs,
        (broker.pageAllocator.findFreePages .aarch32 1 .Page).map (Option.map RegionNode.contents))) =
      some (16368, [⟨64, 64⟩], 256, some (some ⟨64, 64⟩)) := by
    decide +kernel
  rcases Option.map_eq_some_iff.mp made with ⟨broker, initialised, facts⟩
  simp only [Prod.mk.injEq] at facts
  rcases facts with ⟨runway, regions, slabs, found⟩
  have nodes : (start broker).nodes = 1 := by
    rw [BrokerUse.nodes, start, ← List.length_map RegionNode.contents, regions]
    rfl
  have capacity : (start broker).capacity = 32 := by
    rw [BrokerUse.capacity, BrokerUse.numSlabs, start, slabs]
    rfl
  have natural : Natural .aarch32 6 ⟨64, 64⟩ := ⟨by decide, by decide, by decide⟩
  have long : requiredRunway .aarch32 ≤ broker.currRunway := by
    rw [runway]
    decide
  have roomy : (start broker).RoomForPages 1 .Page := by
    refine fun node search => ⟨by decide, fun exponent power => ?_⟩
    · dsimp only [start] at search
      rw [search] at found
      have contents : node.contents = ⟨64, 64⟩ := by simpa using found
      have zero : exponent = 0 := by
        have one : 2 ^ 0 = 2 ^ exponent := Option.some.inj power
        exact (Nat.pow_right_injective (Nat.le_refl 2) one).symm
      rw [nodes, capacity, contents, zero]
      decide
  have provident : Provident (start broker) (.allocate 1 .Page) := by
    refine .inl ⟨.inl long, fun supplied ready => ?_⟩
    have same : supplied = broker := by
      cases (ensureRunway_of_le long).symm.trans ready
      rfl
    subst same
    exact ⟨roomy, id⟩
  have node : Exists fun node => node ∈ (start broker).broker.pageAllocator.listed ∧
      node.contents.fits 1 = true ∧ node.contents.alignedTo PageAlignmentLevel.Page.toNat = true := by
    have listed : (⟨64, 64⟩ : PageRegion) ∈
        broker.pageAllocator.listed.map RegionNode.contents := by
      rw [regions]
      exact List.mem_singleton_self _
    rcases List.mem_map.mp listed with ⟨node, member, contents⟩
    exact ⟨node, member, by rw [contents]; decide, by rw [contents]; decide⟩
  rcases (broker_keeps_promise ⟨6, natural⟩ addable_small served_small initialised .refl).1 1 .Page
    provident node with ⟨final, exponent, after, ran, power, finalNatural, _⟩
  have one : 2 ^ 0 = 2 ^ exponent := Option.some.inj power
  cases Nat.pow_right_injective (Nat.le_refl 2) one
  exact ⟨broker, final, after, initialised, finalNatural, ran⟩

/-- One page is allocated again and again. -/
def allocatePages (broker : PageBroker (SlabAllocator target (regionNode target))) :
    Nat -> Option (BrokerUse target)
  | 0 => some (start broker)
  | count + 1 => (allocatePages broker count).bind fun use => use.perform (.allocate 1 .Page)

theorem reaches_allocatePages {broker : PageBroker (SlabAllocator target (regionNode target))}
    {count : Nat} (allocated : allocatePages broker count = some use) :
    Reaches Step (start broker) (List.replicate count (.allocate 1 .Page)) use := by
  induction count generalizing use with
  | zero =>
      cases Option.some.inj allocated
      exact .refl
  | succ count inductionHypothesis =>
      rcases Option.bind_eq_some_iff.mp allocated with ⟨before, earlier, last⟩
      exact .tail (inductionHypothesis earlier) ⟨trivial, last⟩

-- With 496 bytes of runway left, four thousand pages are taken off the lists for more.
example : (PageBroker.init .aarch32 (slabNodes .aarch32) (SlabAllocator.empty _ _) ⟨8192, 8192⟩
    ⟨128, 4⟩).bind (fun broker => (allocatePages broker 54).map fun use =>
      (use.broker.currRunway, use.live.length)) = some (16777712, 54) := by
  decide +kernel

/-- Sixty-one of the sixty-four pages are allocated.  The runway is used up, the
broker asks for four thousand pages, and the next page is refused although two
regions are free. -/
theorem free_page_refused : Exists fun broker => Exists fun use => smallBroker = some broker ∧
    Reaches Step (start broker) (List.replicate 61 (.allocate 1 .Page)) use ∧
    use.broker.pageAllocator.listed.map RegionNode.contents = [⟨125, 1⟩, ⟨126, 2⟩] ∧
    (use.broker.allocate .aarch32 (slabNodes .aarch32) 1 .Page).map Prod.fst = some {} := by
  have ran : smallBroker.bind (fun broker => (allocatePages broker 61).map fun use =>
      (use.broker.pageAllocator.listed.map RegionNode.contents,
        (use.broker.allocate .aarch32 (slabNodes .aarch32) 1 .Page).map Prod.fst)) =
      some ([⟨125, 1⟩, ⟨126, 2⟩], some {}) := by
    decide +kernel
  rcases Option.bind_eq_some_iff.mp ran with ⟨broker, initialised, later⟩
  rcases Option.map_eq_some_iff.mp later with ⟨use, allocated, facts⟩
  exact ⟨broker, use, initialised, reaches_allocatePages allocated, (Prod.mk.inj facts).1,
    (Prod.mk.inj facts).2⟩

end BrokerUse

end Pine
end Pinyon
