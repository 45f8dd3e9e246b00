import Pinyon.Library.History
import Pinyon.Pine.PageReturns

namespace Pinyon
namespace Pine

open Library

/-!
# Who owns a page

Every page that was added is on one list, or belongs to one live allocation, or
was lost because there was no storage for its node when it was given to
`free_region`.  Every call is a repacking of the regions, however many nodes it got
for them, and `add` brings new pages.
-/

/-- A page allocator with what its callers know.  A region is lost when it was to
go onto a list and the node allocator had no storage. -/
structure PageUse (State : Type) where
  backend : PageAllocatorBackend State
  live : List Allocation
  added : List PageRegion
  lost : List PageRegion

inductive PageCall where
  | add (region : PageRegion)
  | allocate (numPages : Nat) (pageAlignment : PageAlignmentLevel)
  | reserveRegion (region : PageRegion)
  | free (allocation : Allocation)

/-- The greatest depth of a region that is added, which is one of `2 ^ 19` pages. -/
def greatestDepth : Nat := 19

/-- The region that an allocation stands for when it is given back. -/
def Allocation.region (target : Target) (allocation : Allocation) : PageRegion :=
  Region.fromPtr target pageSize allocation.ptr allocation.size

namespace PageUse

variable {State : Type}

/-- A region was given to `free_region`.  Whether it is lost is up to the node allocator. -/
def freed (nodes : NodeAllocator State) (use : PageUse State) (region : PageRegion)
    (result : Nat × PageAllocatorBackend State) : PageUse State :=
  { use with
    backend := result.2
    lost :=
      if nodes.refuses use.backend.nodeAllocator then region :: use.lost else use.lost }

def handedOut (use : PageUse State) (result : BrokeredAllocation × PageAllocatorBackend State) :
    PageUse State :=
  { use with
    backend := result.2
    live := if result.1.succeeded then result.1.asAllocation :: use.live else use.live }

def perform (target : Target) (nodes : NodeAllocator State) (use : PageUse State) :
    PageCall -> Option (PageUse State)
  | .add region => (use.backend.add target nodes region).map fun result =>
      freed nodes { use with added := region :: use.added } region result
  | .allocate numPages pageAlignment =>
      (use.backend.allocate target nodes numPages pageAlignment).map use.handedOut
  | .reserveRegion region => (use.backend.reserveRegion target nodes region).map use.handedOut
  | .free allocation => (use.backend.free target nodes allocation).map fun result =>
      freed nodes { use with live := use.live.erase allocation } (allocation.region target) result

/-- What is asked of the callers: a region that is added has at most `2 ^ 19`
pages, which nobody else added, no more than that is requested, and what is
freed is live. -/
def Allowed (target : Target) (use : PageUse State) : PageCall -> Prop
  | .add region => (Exists fun depth => depth ≤ greatestDepth ∧ Natural target depth region) ∧
      Disjoint region.pages (cover (use.added.map Region.pages))
  | .allocate numPages _ => numPages ≤ 2 ^ greatestDepth
  | .reserveRegion _ => True
  | .free allocation => allocation ∈ use.live

def Step (target : Target) (nodes : NodeAllocator State) (before : PageUse State) (call : PageCall)
    (after : PageUse State) : Prop :=
  Allowed target before call ∧ before.perform target nodes call = some after

/-- A page allocator whose node allocator has its storage. -/
def start (target : Target) (nodeAllocator : State) : PageUse State where
  backend := PageAllocatorBackend.empty target nodeAllocator
  live := []
  added := []
  lost := []

/-- The regions on the lists and the live allocations. -/
def owned (target : Target) (use : PageUse State) : List (Set Nat) :=
  use.backend.blocks ++ use.live.map fun allocation => (allocation.region target).pages

def lostPages (use : PageUse State) : List (Set Nat) :=
  use.lost.map Region.pages

variable {target : Target} {nodes : NodeAllocator State} {before after use : PageUse State}
variable {call : PageCall} {region : PageRegion} {depth : Nat}

/-- The invariant. -/
structure Sound (target : Target) (use : PageUse State) : Prop where
  tidy : Tidy target greatestDepth use.backend.freeLists
  live : forall allocation, allocation ∈ use.live -> Exists fun depth => Exists fun region =>
    depth ≤ greatestDepth ∧ Natural target depth region ∧ allocation = region.allocation target
  packed : Packed (use.owned target ++ use.lostPages)
  whole : cover (use.owned target ++ use.lostPages) = cover (use.added.map Region.pages)

theorem greatestDepth_lt (target : Target) : greatestDepth < maxDepth target := by
  cases target <;> decide

/-- A region that can be handed out is smaller than the address space. -/
theorem length_lt (bounded : depth ≤ greatestDepth) (natural : Natural target depth region) :
    region.length < addressablePages target := by
  rw [natural.length, addressablePages]
  apply Nat.pow_lt_pow_right (by decide)
  rw [greatestDepth] at bounded
  cases target <;> simp only [Target.wordWidth] <;> omega

theorem region_allocation (bounded : depth ≤ greatestDepth) (natural : Natural target depth region) :
    (region.allocation target).region target = region :=
  natural.fromPtr_allocation (length_lt bounded natural)

theorem succeeded_of_natural {brokered : BrokeredAllocation} (bounded : depth ≤ greatestDepth)
    (natural : Natural target depth region)
    (same : brokered.asAllocation = region.allocation target) : brokered.succeeded = true := by
  have size : brokered.size = region.length * pageSize :=
    (congrArg Allocation.size same).trans (Natural.size_eq (length_lt bounded natural))
  have positive := Nat.two_pow_pos depth
  rw [BrokeredAllocation.succeeded, size, natural.length]
  exact bne_iff_ne.mpr (Nat.mul_ne_zero (Nat.ne_of_gt positive) (by decide))

theorem sound_start (target : Target) (nodeAllocator : State) :
    Sound target (start target nodeAllocator) := by
  have nothing : (PageAllocatorBackend.empty target nodeAllocator).listed = [] := by
    simp [PageAllocatorBackend.listed, PageAllocatorBackend.empty]
  have none : (start target nodeAllocator).owned target ++ (start target nodeAllocator).lostPages =
      [] := by
    simp [owned, lostPages, start, PageAllocatorBackend.blocks, nothing]
  refine ⟨⟨List.length_replicate, ?_⟩, fun allocation wrong => absurd wrong List.not_mem_nil, ?_, ?_⟩
  · intro depth list node here member
    have empty := List.eq_of_mem_replicate (List.mem_of_getElem? here)
    rw [empty] at member
    exact absurd member List.not_mem_nil
  · rw [none]
    exact packed_nil
  · rw [none]
    rfl

/-- A call that hands out a region, or nothing. -/
theorem Sound.handedOut (sound : Sound target use)
    {result : BrokeredAllocation × PageAllocatorBackend State}
    (handsOut : PageAllocatorBackend.HandsOut target greatestDepth use.backend result.1 result.2) :
    Sound target (use.handedOut result) := by
  rcases result with ⟨brokered, backend⟩
  rcases handsOut.outcome with ⟨nothing, same⟩ | ⟨depth, region, bounded, natural, given, repacks⟩
  · cases nothing
    cases same
    exact sound
  · have succeeded := succeeded_of_natural bounded natural given
    have onLists : Repacks (use.owned target ++ use.lostPages)
        ((use.handedOut (brokered, backend)).owned target ++
          (use.handedOut (brokered, backend)).lostPages) := by
      simp only [owned, PageUse.handedOut, succeeded, if_true, given, List.map_cons,
        region_allocation bounded natural]
      refine .append (.trans (.append repacks _) (.of_perm ?_)) _
      exact List.perm_middle.symm
    refine ⟨handsOut.tidy, ?_, onLists.packed sound.packed, onLists.cover.trans sound.whole⟩
    intro allocation member
    simp only [PageUse.handedOut, succeeded, if_true, given] at member
    rcases List.mem_cons.mp member with new | old
    · exact ⟨depth, region, bounded, natural, new⟩
    · exact sound.live allocation old

/-- A region that is in nobody's hands goes onto a list, or is lost. -/
theorem Sound.freed {held : List (Set Nat)} (use : PageUse State)
    (tidy : Tidy target greatestDepth use.backend.freeLists)
    (live : forall allocation, allocation ∈ use.live -> Exists fun depth => Exists fun region =>
      depth ≤ greatestDepth ∧ Natural target depth region ∧ allocation = region.allocation target)
    (repacks : Repacks held (region.pages :: (use.owned target ++ use.lostPages)))
    (packed : Packed held) (whole : cover held = cover (use.added.map Region.pages))
    (bounded : depth ≤ greatestDepth) (natural : Natural target depth region)
    {result : Nat × PageAllocatorBackend State}
    (ran : use.backend.freeRegion target nodes region = some result) :
    Sound target (use.freed nodes region result) := by
  rcases result with ⟨cost, backend⟩
  rcases PageAllocatorBackend.freeRegion_spec tidy (greatestDepth_lt target) bounded natural ran with
    ⟨tidyAfter, outcome⟩
  have onLists : Repacks held ((use.freed nodes region (cost, backend)).owned target ++
      (use.freed nodes region (cost, backend)).lostPages) := by
    refine repacks.trans (.of_perm ?_)
    rcases outcome with ⟨refused, sameLists⟩ | ⟨granted, blocksPerm⟩
    · have sameBlocks : backend.blocks = use.backend.blocks := by
        rw [PageAllocatorBackend.blocks, PageAllocatorBackend.blocks, PageAllocatorBackend.listed,
          PageAllocatorBackend.listed, sameLists]
      simp only [owned, lostPages, PageUse.freed, refused, if_true, List.map_cons, sameBlocks]
      exact List.perm_middle.symm
    · simp only [owned, lostPages, PageUse.freed, granted, Bool.false_eq_true, if_false]
      exact (blocksPerm.symm.append_right _).append_right _
  exact ⟨tidyAfter, live, onLists.packed packed, onLists.cover.trans whole⟩

theorem Sound.step (sound : Sound target before) (stepped : Step target nodes before call after) :
    Sound target after := by
  rcases stepped with ⟨allowed, performed⟩
  cases call with
  | add region =>
      rcases allowed with ⟨⟨depth, bounded, natural⟩, apart⟩
      rcases Option.map_eq_some_iff.mp performed with ⟨result, ran, rfl⟩
      rw [← sound.whole] at apart
      refine Sound.freed { before with added := region :: before.added } sound.tidy sound.live
        (.refl _) (sound.packed.insert apart) ?_ bounded natural ran
      have whole := sound.whole
      simp only [owned, lostPages] at whole
      simp only [owned, lostPages, cover_cons, List.map_cons, whole]
  | allocate numPages pageAlignment =>
      rcases Option.map_eq_some_iff.mp performed with ⟨result, ran, rfl⟩
      have small : numPages < 2 ^ 32 := Nat.lt_of_le_of_lt allowed (by decide)
      exact sound.handedOut
        (PageAllocatorBackend.allocate_spec sound.tidy (greatestDepth_lt target) small ran)
  | reserveRegion region =>
      rcases Option.map_eq_some_iff.mp performed with ⟨result, ran, rfl⟩
      exact sound.handedOut
        (PageAllocatorBackend.reserveRegion_spec sound.tidy (greatestDepth_lt target) ran)
  | free allocation =>
      rcases Option.map_eq_some_iff.mp performed with ⟨result, ran, rfl⟩
      rcases sound.live allocation allowed with ⟨depth, region, bounded, natural, given⟩
      have back : allocation.region target = region := by
        rw [given]
        exact region_allocation bounded natural
      have ranRegion : before.backend.freeRegion target nodes (allocation.region target) = some result :=
        ran
      rw [back] at ranRegion ⊢
      refine Sound.freed { before with live := before.live.erase allocation } sound.tidy
        (fun other member => sound.live other (List.mem_of_mem_erase member)) ?_ sound.packed
        sound.whole bounded natural ranRegion
      have liveSame : (before.live.map fun allocation => (allocation.region target).pages).Perm
          (region.pages ::
            (before.live.erase allocation).map fun allocation => (allocation.region target).pages) := by
        rw [← back]
        exact (List.perm_cons_erase allowed).map fun allocation => (allocation.region target).pages
      simp only [owned, lostPages]
      apply Repacks.of_perm
      exact ((liveSame.append_left _).trans List.perm_middle).append_right _

/-- The state after `init`, whose region is the first one that is added. -/
def ofInit (nodes : NodeAllocator State) (nodeAllocator : State) (allocatingRange : PageRegion)
    (result : Nat × PageAllocatorBackend State) : PageUse State where
  backend := result.2
  live := []
  added := [allocatingRange]
  lost := if nodes.refuses nodeAllocator then [allocatingRange] else []

/-- `init` is an `add` to an allocator that has storage for its nodes. -/
theorem step_ofInit {fresh nodeAllocator : State} {allocatingRange scratchPages : PageRegion}
    {result : Nat × PageAllocatorBackend State} (bounded : depth ≤ greatestDepth)
    (natural : Natural target depth allocatingRange)
    (stocked : nodes.add fresh (scratchPages.ptr target 0) (scratchPages.size target) =
      some nodeAllocator)
    (initialised : PageAllocatorBackend.init target nodes fresh allocatingRange scratchPages =
      some result) :
    Step target nodes (start target nodeAllocator) (.add allocatingRange)
      (ofInit nodes nodeAllocator allocatingRange result) := by
  rw [PageAllocatorBackend.init, stocked] at initialised
  refine ⟨⟨⟨depth, bounded, natural⟩, ?_⟩, ?_⟩
  · simp [start]
  · exact Option.map_eq_some_iff.mpr ⟨result, initialised, rfl⟩

/-! ## Calls return -/

/-- What is asked for is not longer than the address space. -/
def Addressable (target : Target) : PageCall -> Prop
  | .reserveRegion region => depthFromPageLength target region.length ≤ maxDepth target
  | _ => True

theorem depthFromPageLength_le {numPages : Nat} (small : numPages ≤ addressablePages target) :
    depthFromPageLength target numPages ≤ maxDepth target := by
  have word : numPages < target.wordLimit :=
    Nat.lt_of_le_of_lt small (Nat.pow_lt_pow_right (by decide) (by cases target <;> decide))
  rw [← Nat.lt_succ_iff]
  apply (depthFromPageLength_lt_iff word _).mpr
  exact Nat.lt_of_le_of_lt small (Nat.pow_lt_pow_right (by decide) (by cases target <;> decide))

/-- An allocator that always answers lets every call return. -/
theorem Sound.performs {holds : State -> List Nat -> Prop} {generous : Prop} (sound : Sound target use)
    (provides : Provides target nodes holds (fun _ => True) generous)
    (housed : PageAllocatorBackend.Housed target greatestDepth holds use.backend)
    (allowed : Allowed target use call) (addressable : Addressable target call) :
    Exists fun after => use.perform target nodes call = some after ∧
      PageAllocatorBackend.Housed target greatestDepth holds after.backend := by
  have deep := greatestDepth_lt target
  cases call with
  | add region =>
      rcases allowed with ⟨⟨depth, bounded, natural⟩, _⟩
      rcases PageAllocatorBackend.freeRegion_returns provides housed deep bounded natural trivial with
        ⟨cost, backend, ran, housedAfter, _⟩
      exact ⟨_, Option.map_eq_some_iff.mpr ⟨_, ran, rfl⟩, housedAfter⟩
  | allocate numPages pageAlignment =>
      have small : numPages < 2 ^ 32 := Nat.lt_of_le_of_lt allowed (by decide)
      have legal : depthFromPageLength target numPages ≤ maxDepth target :=
        depthFromPageLength_le (Nat.le_trans allowed (by cases target <;> decide))
      rcases PageAllocatorBackend.allocate_returns provides housed deep pageAlignment
        (PageAllocatorBackend.findNode_total legal) (fun _ => small) (fun _ _ _ _ _ _ => trivial) with
        ⟨brokered, backend, ran, answers⟩
      exact ⟨_, Option.map_eq_some_iff.mpr ⟨_, ran, rfl⟩, answers.housed⟩
  | reserveRegion region =>
      rcases PageAllocatorBackend.reserveRegion_returns provides housed deep region
        (PageAllocatorBackend.findNode_total addressable) (fun _ _ _ _ => trivial) with
        ⟨brokered, backend, ran, answers⟩
      exact ⟨_, Option.map_eq_some_iff.mpr ⟨_, ran, rfl⟩, answers.housed⟩
  | free allocation =>
      rcases sound.live allocation allowed with ⟨depth, region, bounded, natural, given⟩
      rcases PageAllocatorBackend.freeRegion_returns provides housed deep bounded natural trivial with
        ⟨cost, backend, ran, housedAfter, _⟩
      have back : allocation.region target = region := by
        rw [given]
        exact region_allocation bounded natural
      rw [← back] at ran
      exact ⟨_, Option.map_eq_some_iff.mpr ⟨_, ran, rfl⟩, housedAfter⟩

theorem addressable_of_perform (performed : before.perform target nodes call = some after) :
    Addressable target call := by
  cases call with
  | reserveRegion region =>
      by_contra beyond
      have nowhere : before.backend.findFreeRegion target region = none := if_neg beyond
      simp [perform, PageAllocatorBackend.reserveRegion, nowhere] at performed
  | add => trivial
  | allocate => trivial
  | free => trivial

/-- The invariant, with a node allocator that keeps account of the nodes. -/
structure HeldBy (target : Target) (holds : State -> List Nat -> Prop) (use : PageUse State) : Prop where
  sound : Sound target use
  housed : PageAllocatorBackend.Housed target greatestDepth holds use.backend

section HeldBy

variable {holds : State -> List Nat -> Prop} {nodeAllocator : State}

theorem heldBy_start (empty : holds nodeAllocator []) :
    HeldBy target holds (start target nodeAllocator) where
  sound := sound_start target nodeAllocator
  housed := by
    refine ⟨(sound_start target nodeAllocator).tidy, ?_⟩
    simpa [PageAllocatorBackend.addresses, PageAllocatorBackend.listed, start,
      PageAllocatorBackend.empty] using empty

theorem HeldBy.step {generous : Prop} (holding : HeldBy target holds before)
    (provides : Provides target nodes holds (fun _ => True) generous)
    (stepped : Step target nodes before call after) : HeldBy target holds after := by
  rcases holding.sound.performs provides holding.housed stepped.1
    (addressable_of_perform stepped.2) with ⟨other, performed, housedAfter⟩
  cases Option.some.inj (performed.symm.trans stepped.2)
  exact ⟨holding.sound.step stepped, housedAfter⟩

/-- An allocator that always has storage never lets a region be lost. -/
theorem HeldBy.lost_eq (holding : HeldBy target holds before)
    (provides : Provides target nodes holds (fun _ => True) True)
    (stepped : Step target nodes before call after) : after.lost = before.lost := by
  have granted : nodes.refuses before.backend.nodeAllocator = false := by
    rcases provides.allocate holding.housed.holds trivial with ⟨allocation, state, answered, outcome⟩
    rw [NodeAllocator.refuses, answered, Option.any_some, beq_eq_false_iff_ne]
    rcases outcome with ⟨_, mean, _⟩ | ⟨present, _, _⟩
    · exact absurd trivial mean
    · exact present
  cases call with
  | add region =>
      rcases Option.map_eq_some_iff.mp stepped.2 with ⟨result, _, rfl⟩
      exact if_neg (Bool.eq_false_iff.mp granted)
  | allocate numPages pageAlignment =>
      rcases Option.map_eq_some_iff.mp stepped.2 with ⟨result, _, rfl⟩
      rfl
  | reserveRegion region =>
      rcases Option.map_eq_some_iff.mp stepped.2 with ⟨result, _, rfl⟩
      rfl
  | free allocation =>
      rcases Option.map_eq_some_iff.mp stepped.2 with ⟨result, _, rfl⟩
      exact if_neg (Bool.eq_false_iff.mp granted)

/-- The invariant, with nothing lost. -/
structure LosesNothing (target : Target) (holds : State -> List Nat -> Prop) (use : PageUse State) :
    Prop extends HeldBy target holds use where
  lost : use.lost = []

theorem LosesNothing.step (holding : LosesNothing target holds before)
    (provides : Provides target nodes holds (fun _ => True) True)
    (stepped : Step target nodes before call after) : LosesNothing target holds after where
  toHeldBy := holding.toHeldBy.step provides stepped
  lost := (holding.toHeldBy.lost_eq provides stepped).trans holding.lost

end HeldBy

/-- Page ownership is exclusive and conserved.  Whatever the node allocator
answers, as long as it never answers with the storage of a node that is on a
list, the free regions and the live allocations are disjoint, together with what
was lost they are the pages that were added, and each list holds regions of its
own depth.  With a node allocator that always answers, every call returns, and with
one that always has storage nothing is lost. -/
theorem pages_owned {fresh nodeAllocator : State} {allocatingRange scratchPages : PageRegion}
    {result : Nat × PageAllocatorBackend State} {calls : List PageCall}
    (allocating : Exists fun depth => depth ≤ greatestDepth ∧ Natural target depth allocatingRange)
    (stocked : nodes.add fresh (scratchPages.ptr target 0) (scratchPages.size target) =
      some nodeAllocator)
    (initialised : PageAllocatorBackend.init target nodes fresh allocatingRange scratchPages =
      some result)
    (reached : Reaches (Step target nodes) (ofInit nodes nodeAllocator allocatingRange result) calls
      use) :
    Tidy target greatestDepth use.backend.freeLists ∧
    Packed (use.owned target) ∧
    cover (use.owned target) ∪ cover use.lostPages = cover (use.added.map Region.pages) ∧
    (use.lost = [] -> cover (use.owned target) = cover (use.added.map Region.pages)) ∧
    forall holds, holds nodeAllocator [] ->
      (Provides target nodes holds (fun _ => True) False ->
        forall call, Allowed target use call -> Addressable target call ->
          Exists fun after => Step target nodes use call after) ∧
      (Provides target nodes holds (fun _ => True) True -> use.lost = []) := by
  rcases allocating with ⟨depth, bounded, natural⟩
  have first := step_ofInit bounded natural stocked initialised
  have initial := (sound_start target nodeAllocator).step first
  have sound := reached.invariant (Sound target) initial fun _ _ _ sound stepped => sound.step stepped
  have whole := sound.whole
  rw [cover_append] at whole
  refine ⟨sound.tidy, (packed_append.mp sound.packed).1, whole, fun none => ?_, ?_⟩
  · rw [lostPages, none, List.map_nil, cover_nil, Set.union_empty] at whole
    exact whole
  · intro holds empty
    constructor
    · intro provides call allowed addressable
      have begun := (heldBy_start empty).step provides first
      have housed := reached.invariant (HeldBy target holds) begun
        fun _ _ _ holding stepped => holding.step provides stepped
      rcases housed.sound.performs provides housed.housed allowed addressable with
        ⟨after, performed, _⟩
      exact ⟨after, allowed, performed⟩
    · intro provides
      have nothing : LosesNothing target holds (start target nodeAllocator) :=
        ⟨heldBy_start empty, rfl⟩
      have all := reached.invariant (LosesNothing target holds) (nothing.step provides first)
        fun _ _ _ holding stepped => holding.step provides stepped
      exact all.lost

/-- The physical memory of a machine, with sixty-four scratch pages, of which one
page is allocated and given back.  All of it is free or allocated then. -/
theorem pages_owned_physical : Exists fun nodeAllocator => Exists fun result => Exists fun use =>
    PageAllocatorBackend.init .aarch32 (slabNodes .aarch32) (SlabAllocator.empty _ _) ⟨0, 131072⟩
      ⟨512, 64⟩ = some result ∧
    Reaches (Step .aarch32 (slabNodes .aarch32))
      (ofInit (slabNodes .aarch32) nodeAllocator ⟨0, 131072⟩ result)
      [.free ⟨0, 4096⟩, .allocate 1 .Page] use ∧
    Packed (use.owned .aarch32) ∧
    cover (use.owned .aarch32) = (⟨0, 131072⟩ : PageRegion).pages := by
  have ran : (((slabNodes .aarch32).add (SlabAllocator.empty _ _)
        ((⟨512, 64⟩ : PageRegion).ptr .aarch32 0) ((⟨512, 64⟩ : PageRegion).size .aarch32)).bind
      fun nodeAllocator =>
        (PageAllocatorBackend.init .aarch32 (slabNodes .aarch32) (SlabAllocator.empty _ _)
          ⟨0, 131072⟩ ⟨512, 64⟩).bind fun result =>
            ((ofInit (slabNodes .aarch32) nodeAllocator ⟨0, 131072⟩ result).perform .aarch32
              (slabNodes .aarch32) (.allocate 1 .Page)).bind fun use =>
                (use.perform .aarch32 (slabNodes .aarch32) (.free ⟨0, 4096⟩)).map fun last =>
                  (use.live, last.live, last.added, last.lost)) =
      some ([⟨0, 4096⟩], [], [⟨0, 131072⟩], []) := by
    decide +kernel
  rcases Option.bind_eq_some_iff.mp ran with ⟨nodeAllocator, stocked, later⟩
  rcases Option.bind_eq_some_iff.mp later with ⟨result, initialised, later⟩
  rcases Option.bind_eq_some_iff.mp later with ⟨middle, allocated, last⟩
  rcases Option.map_eq_some_iff.mp last with ⟨use, freed, answer⟩
  cases use with
  | mk backend live added lost =>
      cases (Prod.mk.inj answer).2
      have member : (⟨0, 4096⟩ : Allocation) ∈ middle.live := by
        rw [(Prod.mk.inj answer).1]
        exact List.mem_singleton_self _
      have natural : Natural .aarch32 17 ⟨0, 131072⟩ := ⟨by decide, by decide, by decide⟩
      have run : Reaches (Step .aarch32 (slabNodes .aarch32))
          (ofInit (slabNodes .aarch32) nodeAllocator ⟨0, 131072⟩ result)
          [.free ⟨0, 4096⟩, .allocate 1 .Page] ⟨backend, [], [⟨0, 131072⟩], []⟩ :=
        .tail (.tail .refl ⟨Nat.one_le_two_pow, allocated⟩) ⟨member, freed⟩
      have owned := pages_owned ⟨17, by decide, natural⟩ stocked initialised run
      refine ⟨nodeAllocator, result, _, initialised, run, owned.2.1, ?_⟩
      rw [owned.2.2.2.1 rfl]
      simp

end PageUse

end Pine
end Pinyon
