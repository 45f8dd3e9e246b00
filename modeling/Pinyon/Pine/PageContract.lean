import Mathlib
import Pinyon.Pine.PageOwnership

namespace Pinyon
namespace Pine

open Library

/-!
# What a request gets

A request for pages is answered whenever one region on the lists is long enough and
aligned, and the answer is the smallest power of two that will do, unless a node
for a half could not be had.  A request for a region is answered whenever one region
on the lists contains it.

The search for a region starts at the list for its length and stops at the last
list.  Starting behind the last list it leaves the array, and where the end of the
region wraps, it finds regions that do not contain it.
-/

namespace PageAllocatorBackend

variable {State : Type} {target : Target} {limit depth endDepth finalDepth numPages : Nat}
variable {nodes : NodeAllocator State} {backend after : PageAllocatorBackend State}
variable {node : RegionNode} {region final : PageRegion} {brokered : BrokeredAllocation}

/-! ## Halving to the end -/

/-- There was a node for every half that was put aside. -/
def NodesCreated (target : Target) (nodes : NodeAllocator State)
    (keep : PageRegion -> Option (PageRegion × PageRegion)) (endDepth : Nat) :
    Nat -> PageAllocatorBackend State -> PageRegion -> Prop
  | 0, _, _ => True
  | depth + 1, backend, region =>
      endDepth ≠ depth + 1 -> forall kept other, keep region = some (kept, other) ->
        Exists fun number => Exists fun node => Exists fun middle => Exists fun after =>
          backend.createNode target nodes other = some ((number, some node), middle) ∧
          middle.insertNode depth node = some after ∧
          NodesCreated target nodes keep endDepth depth after kept

/-- Halving ends at a natural region, which is as small as it should be if there was
a node for every half. -/
theorem trimLoop_final {keep : PageRegion -> Option (PageRegion × PageRegion)}
    (halves : Halves target keep) {suits : PageRegion -> Prop}
    (keeps : forall region kept other, suits region -> keep region = some (kept, other) -> suits kept)
    (natural : Natural target depth region) (suitable : suits region) (ends : endDepth ≤ depth)
    (trimmed : trimLoop target nodes keep endDepth depth backend region =
      some (final, finalDepth, after)) :
    suits final ∧ Exists fun actual => endDepth ≤ actual ∧ actual ≤ depth ∧
      Natural target actual final ∧
      (NodesCreated target nodes keep endDepth depth backend region -> endDepth < actual ->
        keep final = none) := by
  induction depth generalizing backend region with
  | zero =>
      rcases trimLoop_zero_cases trimmed with ⟨_, rfl, _, rfl⟩ | ⟨_, _, _, further, _⟩
      · exact ⟨suitable, 0, ends, Nat.le_refl _, natural, fun _ wrong => absurd wrong (by omega)⟩
      · exact absurd (Nat.le_zero.mp ends) further
  | succ depth inductionHypothesis =>
      rcases trimLoop_succ_cases trimmed with ⟨stops, rfl, _, rfl⟩ |
        ⟨kept, other, done, kept_eq, ⟨_, created, rfl, _⟩ |
          ⟨_, node, middle, inserted, created, placed, later⟩⟩
      · refine ⟨suitable, depth + 1, ends, Nat.le_refl _, natural, fun _ further => ?_⟩
        exact stops.resolve_left (Nat.ne_of_lt further)
      · refine ⟨suitable, _, ends, Nat.le_refl _, natural, fun all _ => ?_⟩
        rcases all done kept other kept_eq with ⟨_, _, _, _, made, _, _⟩
        cases created.symm.trans made
      · rcases halves depth region kept other natural kept_eq with ⟨keptNatural, _, _, _⟩
        rcases inductionHypothesis keptNatural (keeps region kept other suitable kept_eq) (by omega)
          later with ⟨suits', actual, above, below, finalNatural, exactly⟩
        refine ⟨suits', actual, above, by omega, finalNatural, fun all further => ?_⟩
        rcases all done kept other kept_eq with ⟨_, _, _, _, made, placed', others⟩
        cases created.symm.trans made
        cases placed.symm.trans placed'
        exact exactly others further

/-- There is a node for every half of the region of a node that was found. -/
def NodesSuffice (target : Target) (nodes : NodeAllocator State)
    (keep : PageRegion -> Option (PageRegion × PageRegion)) (endDepth : Nat)
    (backend : PageAllocatorBackend State) (node : RegionNode) : Prop :=
  forall middle,
    backend.removeNode target nodes (depthFromPageLength target node.contents.length) node =
      some middle ->
    NodesCreated target nodes keep endDepth (depthFromPageLength target node.contents.length) middle
      node.contents

/-! ## Requests for pages -/

/-- A region as it is handed out. -/
structure Given (brokered : BrokeredAllocation) (region : PageRegion) : Prop where
  ptr : brokered.ptr = region.offset * pageSize
  size : brokered.size = region.length * pageSize

/-- A node that a request for pages can be answered from. -/
def Offers (numPages : Nat) (pageAlignment : PageAlignmentLevel) (node : RegionNode) : Prop :=
  numPages ≤ node.contents.length ∧ pageAlignment.toNat ∣ node.contents.offset

/-- Nothing is returned just when no region offers the pages; otherwise they are
returned, no more than necessary if there was a node for every half. -/
structure Allocates (target : Target) (nodes : NodeAllocator State)
    (backend : PageAllocatorBackend State) (numPages : Nat) (pageAlignment : PageAlignmentLevel)
    (brokered : BrokeredAllocation) : Prop where
  nothing : brokered.succeeded = false <->
    forall node, node ∈ backend.listed -> ¬ Offers numPages pageAlignment node
  something : brokered.succeeded = true -> Exists fun final => Given brokered final ∧
    pageAlignment.toNat ∣ final.offset ∧ numPages ≤ final.length ∧
    ((forall node aligned, backend.findFreePages target numPages pageAlignment = some (some node) ->
        alignUpToPower target.wordWidth numPages = some aligned ->
        NodesSuffice target nodes (keepLeft target) (depthFromPageLength target aligned) backend node) ->
      IsLeast { power | (Exists fun exponent => power = 2 ^ exponent) ∧ max numPages 1 ≤ power }
        final.length)

theorem offers_iff {pageAlignment : PageAlignmentLevel} :
    (node.contents.fits numPages && node.contents.alignedTo pageAlignment.toNat) = true <->
      Offers numPages pageAlignment node := by
  rw [Bool.and_eq_true, Region.fits, Region.alignedTo, decide_eq_true_eq, decide_eq_true_eq,
    ← Nat.dvd_iff_mod_eq_zero, Offers]

/-- Whatever suits is found, if it is long enough for the list that the search starts at. -/
theorem findNode_none_iff {suits : PageRegion -> Bool} (tidy : Tidy target limit backend.freeLists)
    (deep : limit < maxDepth target) {found : Option RegionNode}
    (search : backend.findNode target depth suits = some found) :
    found = none <-> forall node, node ∈ backend.listed -> 2 ^ depth ≤ node.contents.length ->
      suits node.contents = false := by
  constructor
  · intro nothing node member long
    by_contra suitable
    rcases findNode_of_member tidy deep member (Bool.eq_true_of_not_eq_false suitable) long with
      ⟨other, searched⟩
    cases (search.symm.trans searched).symm.trans (congrArg some nothing)
  · intro none
    cases found with
    | none => rfl
    | some node =>
        rcases findNode_spec search with ⟨suitable, actual, list, above, here, member⟩
        rcases tidy.natural actual list node here member with ⟨_, natural⟩
        have long : 2 ^ depth ≤ node.contents.length := by
          rw [natural.length]
          exact Nat.pow_le_pow_right (by decide) above
        have listed : node ∈ backend.listed :=
          List.mem_flatten.mpr ⟨list, List.mem_of_getElem? here, member⟩
        exact absurd (suitable.symm.trans (none node listed long)) (by decide)

/-- A natural region that is small enough is handed out as it is. -/
theorem given_of_natural (natural : Natural target depth final)
    (small : final.length < addressablePages target)
    (same : brokered.asAllocation = final.allocation target) : Given brokered final where
  ptr := (congrArg Allocation.ptr same).trans natural.ptr_eq
  size := (congrArg Allocation.size same).trans (Natural.size_eq small)

/-- The length of the region is the smallest power of two that will do. -/
theorem isLeast_power {exponent : Nat} (covers : forall depth, numPages ≤ 2 ^ depth <-> exponent ≤ depth) :
    IsLeast { power | (Exists fun exponent => power = 2 ^ exponent) ∧ max numPages 1 ≤ power }
      (2 ^ exponent) := by
  constructor
  · exact ⟨⟨exponent, rfl⟩, Nat.max_le.mpr ⟨(covers exponent).mpr (Nat.le_refl _), Nat.one_le_two_pow⟩⟩
  · rintro power ⟨⟨other, rfl⟩, enough⟩
    exact Nat.pow_le_pow_right (by decide) ((covers other).mp (Nat.max_le.mp enough).1)

end PageAllocatorBackend

namespace PageUse

open PageAllocatorBackend

variable {State : Type} {target : Target} {nodes : NodeAllocator State} {use : PageUse State}
variable {numPages : Nat} {pageAlignment : PageAlignmentLevel} {region : PageRegion}
variable {brokered : BrokeredAllocation} {after : PageAllocatorBackend State}

theorem Sound.natural_of_listed (sound : Sound target use) {node : RegionNode}
    (member : node ∈ use.backend.listed) :
    Exists fun depth => depth ≤ greatestDepth ∧ Natural target depth node.contents := by
  rcases List.mem_flatten.mp member with ⟨list, inside, here⟩
  rcases List.mem_iff_getElem?.mp inside with ⟨depth, listed⟩
  exact ⟨depth, sound.tidy.natural depth list node listed here⟩

theorem Sound.allocates (sound : Sound target use) (small : numPages ≤ 2 ^ greatestDepth)
    (allocated : use.backend.allocate target nodes numPages pageAlignment = some (brokered, after)) :
    Allocates target nodes use.backend numPages pageAlignment brokered := by
  have word : numPages < 2 ^ 32 := Nat.lt_of_le_of_lt small (by decide)
  have deep := greatestDepth_lt target
  rcases allocate_cases allocated with
    ⟨search, rfl, rfl⟩ | ⟨node, aligned, final, finalDepth, search, power, trims, rfl⟩
  · have none := (findNode_none_iff sound.tidy deep search).mp rfl
    refine ⟨⟨fun _ node member offers => ?_, fun _ => rfl⟩, fun wrong => by cases wrong⟩
    rcases sound.natural_of_listed member with ⟨depth, bounded, natural⟩
    have narrow : node.contents.length < target.wordLimit :=
      Nat.lt_of_le_of_lt (Nat.le_add_left _ _) natural.addressable_lt
    have positive : 0 < node.contents.length := by
      rw [natural.length]
      exact Nat.two_pow_pos _
    have long := two_pow_depthFromPageLength_le narrow positive offers.1
    exact absurd (offers_iff.mpr offers) (by rw [none node member long]; decide)
  · rcases depth_of_found sound.tidy word search power with
      ⟨depth, list, exponent, here, member, isPower, exactly, ends, suitable, covers⟩
    rcases sound.tidy.natural depth list node here member with ⟨bounded, natural⟩
    have sorted := depth_eq sound.tidy deep here member
    rcases trims with ⟨middle, removed, trimmed⟩
    rw [sorted] at trimmed
    rw [exactly] at trimmed
    rcases trimLoop_final (halves_keepLeft target) (fun _ _ _ => alignedTo_of_keepLeft) natural
      suitable ends trimmed with
      ⟨finalAligned, actual, above, below, finalNatural, whole⟩
    have actualBounded := Nat.le_trans below bounded
    have shortFinal := length_lt actualBounded finalNatural
    have succeeded : (broker target final (allocationCost target
        (depthFromPageLength target node.contents.length) finalDepth)).succeeded = true :=
      succeeded_of_natural actualBounded finalNatural rfl
    constructor
    · rw [succeeded]
      refine ⟨fun wrong => (by cases wrong), fun none => ?_⟩
      have listed : node ∈ use.backend.listed :=
        List.mem_flatten.mpr ⟨list, List.mem_of_getElem? here, member⟩
      exact absurd (offers_iff.mp (findNode_spec search).1) (none node listed)
    · intro _
      refine ⟨final, given_of_natural finalNatural shortFinal rfl, ?_, ?_, fun suffice => ?_⟩
      · rw [Region.alignedTo, decide_eq_true_eq] at finalAligned
        exact Nat.dvd_of_mod_eq_zero finalAligned
      · rw [finalNatural.length]
        exact (covers actual).mpr above
      · have created := suffice node aligned search power middle removed
        rw [sorted, exactly] at created
        have exact' : actual = exponent := by
          by_contra different
          exact absurd (whole created (by omega)) (by simp [keepLeft])
        rw [finalNatural.length, exact']
        exact isLeast_power covers

/-! ## Requests for a region -/

/-- Nothing is returned just when no region on the lists contains the one that is
asked for; otherwise a region that contains it is. -/
structure Reserves (backend : PageAllocatorBackend State) (region : PageRegion)
    (brokered : BrokeredAllocation) : Prop where
  nothing : brokered.succeeded = false <->
    forall node, node ∈ backend.listed -> ¬ region.pages ⊆ node.contents.pages
  something : brokered.succeeded = true -> Exists fun final => Given brokered final ∧
    region.pages ⊆ final.pages

/-- The end of the region does not wrap, or at least lies behind every region that is
searched. -/
def Unmistaken (target : Target) (backend : PageAllocatorBackend State) (region : PageRegion) : Prop :=
  region.offset + region.length < target.wordLimit ∨
    forall node, node ∈ backend.listed ->
      2 ^ depthFromPageLength target region.length ≤ node.contents.length ->
      node.contents.offset + node.contents.length < region.endOffset target

theorem contains_iff {depth : Nat} {whole : PageRegion} (natural : Natural target depth whole) :
    whole.contains target region = true <->
      whole.offset ≤ region.offset ∧ region.endOffset target ≤ whole.offset + whole.length := by
  rw [Region.contains, decide_eq_true_eq, Region.endOffset, Region.endOffset,
    Nat.mod_eq_of_lt natural.addressable_lt]

/-- Where nothing wraps, `contains` is what it says. -/
theorem contains_iff_subset {depth : Nat} {whole : PageRegion} (natural : Natural target depth whole)
    (nonempty : 0 < region.length) (straight : region.offset + region.length < target.wordLimit) :
    whole.contains target region = true <-> region.pages ⊆ whole.pages := by
  rw [contains_iff natural, Region.endOffset, Nat.mod_eq_of_lt straight, Region.pages, Region.pages,
    span_subset_iff nonempty]

/-- The search starts at a list that exists, or right behind the last one. -/
theorem reachable_iff (sized : region.length < target.wordLimit) :
    depthFromPageLength target region.length ≤ maxDepth target <->
      region.length < 2 ^ (maxDepth target + 1) := by
  rw [← Nat.lt_succ_iff]
  exact depthFromPageLength_lt_iff sized _

/-- A region for a list that exists, but whose end wraps, starts behind all pages. -/
theorem addressable_le_offset (short : region.length < 2 ^ (maxDepth target + 1))
    (wraps : target.wordLimit ≤ region.offset + region.length) :
    addressablePages target ≤ region.offset := by
  have deep : maxDepth target + 1 = target.wordWidth - 10 := by cases target <;> rfl
  rw [deep] at short
  rw [addressablePages]
  rw [Target.wordLimit] at wraps
  cases target with
  | aarch32 =>
      simp only [Target.wordWidth] at short wraps ⊢
      omega
  | aarch64 =>
      simp only [Target.wordWidth] at short wraps ⊢
      omega

theorem not_subset_of_wraps {depth : Nat} {whole : PageRegion} (natural : Natural target depth whole)
    (nonempty : 0 < region.length) (behind : addressablePages target ≤ region.offset) :
    ¬ region.pages ⊆ whole.pages := by
  rw [Region.pages, Region.pages, span_subset_iff nonempty]
  have addressable := natural.addressable
  omega

/-- A request for a region that returns is answered rightly just when the end of the
region is not mistaken for one that lies before it. -/
theorem Sound.reserves_iff (sound : Sound target use) (nonempty : 0 < region.length)
    (sized : region.length < target.wordLimit)
    (reserved : use.backend.reserveRegion target nodes region = some (brokered, after)) :
    Reserves use.backend region brokered <-> Unmistaken target use.backend region := by
  have deep := greatestDepth_lt target
  have short : region.length < 2 ^ (maxDepth target + 1) := by
    rw [← reachable_iff sized]
    by_contra beyond
    have nowhere : use.backend.findFreeRegion target region = none := if_neg beyond
    rw [reserveRegion, nowhere] at reserved
    cases reserved
  rcases reserveRegion_cases reserved with
    ⟨search, rfl, rfl⟩ | ⟨node, final, finalDepth, search, ⟨middle, removed, trimmed⟩, rfl⟩
  · have none := (findNode_none_iff sound.tidy deep search).mp rfl
    constructor
    · intro _
      by_cases straight : region.offset + region.length < target.wordLimit
      · exact .inl straight
      · refine .inr fun node member long => ?_
        rcases sound.natural_of_listed member with ⟨depth, _, natural⟩
        have behind := addressable_le_offset short (Nat.le_of_not_lt straight)
        by_contra reaches
        have found : node.contents.contains target region = true := (contains_iff natural).mpr
          ⟨Nat.le_of_lt (Nat.lt_of_lt_of_le natural.offset_lt behind), Nat.le_of_not_lt reaches⟩
        exact absurd found (by rw [none node member long]; decide)
    · intro _
      refine ⟨⟨fun _ node member inside => ?_, fun _ => rfl⟩, fun wrong => by cases wrong⟩
      rcases sound.natural_of_listed member with ⟨depth, _, natural⟩
      by_cases straight : region.offset + region.length < target.wordLimit
      · have bounds := (span_subset_iff nonempty).mp inside
        have narrow : node.contents.length < target.wordLimit :=
          Nat.lt_of_le_of_lt (Nat.le_add_left _ _) natural.addressable_lt
        have fits : region.length ≤ node.contents.length := by omega
        have long := two_pow_depthFromPageLength_le narrow (Nat.lt_of_lt_of_le nonempty fits) fits
        have found := (contains_iff_subset natural nonempty straight).mpr inside
        exact absurd found (by rw [none node member long]; decide)
      · exact not_subset_of_wraps natural nonempty
          (addressable_le_offset short (Nat.le_of_not_lt straight)) inside
  · rcases findNode_spec search with ⟨suitable, depth, list, ends, here, member⟩
    rcases sound.tidy.natural depth list node here member with ⟨bounded, natural⟩
    have listed : node ∈ use.backend.listed :=
      List.mem_flatten.mpr ⟨list, List.mem_of_getElem? here, member⟩
    rw [depth_eq sound.tidy deep here member] at trimmed
    rcases trimLoop_final (halves_keepContaining target region)
      (fun _ _ _ _ => contains_of_keepContaining) natural suitable ends trimmed with
      ⟨finalContains, actual, above, below, finalNatural, _⟩
    have actualBounded := Nat.le_trans below bounded
    have shortFinal := length_lt actualBounded finalNatural
    have succeeded : (broker target final (allocationCost target
        (depthFromPageLength target region.length) finalDepth)).succeeded = true :=
      succeeded_of_natural actualBounded finalNatural rfl
    constructor
    · intro reserves
      by_contra mistaken
      rw [Unmistaken, not_or] at mistaken
      rcases reserves.something succeeded with ⟨other, given, inside⟩
      have sameLength : other.length = final.length :=
        Nat.eq_of_mul_eq_mul_right (by decide) (given.size.symm.trans
          (given_of_natural finalNatural shortFinal rfl).size)
      have sameOffset : other.offset = final.offset :=
        Nat.eq_of_mul_eq_mul_right (by decide) (given.ptr.symm.trans
          (given_of_natural finalNatural shortFinal rfl).ptr)
      have same : other.pages = final.pages := by
        rw [Region.pages, Region.pages, sameOffset, sameLength]
      rw [same] at inside
      exact not_subset_of_wraps finalNatural nonempty
        (addressable_le_offset short (Nat.le_of_not_lt mistaken.1)) inside
    · intro unmistaken
      have straight : region.offset + region.length < target.wordLimit := by
        rcases unmistaken with straight | behind
        · exact straight
        · have long : 2 ^ depthFromPageLength target region.length ≤ node.contents.length := by
            rw [natural.length]
            exact Nat.pow_le_pow_right (by decide) ends
          have before := behind node listed long
          have within := ((contains_iff natural).mp suitable).2
          exact absurd before (Nat.not_lt.mpr within)
      constructor
      · rw [succeeded]
        refine ⟨fun wrong => (by cases wrong), fun none => ?_⟩
        exact absurd ((contains_iff_subset natural nonempty straight).mp suitable) (none node listed)
      · intro _
        exact ⟨final, given_of_natural finalNatural shortFinal rfl,
          (contains_iff_subset finalNatural nonempty straight).mp finalContains⟩

/-! ## All requests -/

/-- Requests are answered as they should be, except that a request for a region of
more pages than the last list is for leaves the array of lists, and that one whose
end wraps may be mistaken.  The first two parts hold whatever the node allocator
does; with one that always answers, the calls return. -/
theorem requests_answered_iff {nodeAllocator : State} {calls : List PageCall}
    (reached : Reaches (Step target nodes) (start target nodeAllocator) calls use) :
    (forall numPages pageAlignment brokered after, numPages ≤ 2 ^ greatestDepth ->
      use.backend.allocate target nodes numPages pageAlignment = some (brokered, after) ->
      Allocates target nodes use.backend numPages pageAlignment brokered) ∧
    (forall (region : PageRegion) brokered after,
      region.length ≠ 0 -> region.length < target.wordLimit ->
      use.backend.reserveRegion target nodes region = some (brokered, after) ->
      (Reserves use.backend region brokered <-> Unmistaken target use.backend region)) ∧
    forall holds, Provides target nodes holds (fun _ => True) False -> holds nodeAllocator [] ->
      (forall numPages pageAlignment, numPages ≤ 2 ^ greatestDepth ->
        Exists fun brokered => Exists fun after =>
          use.backend.allocate target nodes numPages pageAlignment = some (brokered, after) ∧
          Allocates target nodes use.backend numPages pageAlignment brokered) ∧
      forall region : PageRegion, region.length ≠ 0 -> region.length < target.wordLimit ->
        ((Exists fun brokered => Exists fun after =>
            use.backend.reserveRegion target nodes region = some (brokered, after) ∧
            Reserves use.backend region brokered) <->
          region.length < 2 ^ (maxDepth target + 1) ∧ Unmistaken target use.backend region) := by
  have sound := reached.invariant (Sound target) (sound_start target nodeAllocator)
    fun _ _ _ sound stepped => sound.step stepped
  refine ⟨fun _ _ _ _ small allocated => sound.allocates small allocated,
    fun _ _ _ nonempty sized reserved =>
      sound.reserves_iff (Nat.pos_of_ne_zero nonempty) sized reserved, ?_⟩
  intro holds provides empty
  have held := reached.invariant (HeldBy target holds) (heldBy_start empty)
    fun _ _ _ held stepped => held.step provides stepped
  constructor
  · intro numPages pageAlignment small
    have allowed : Allowed target use (.allocate numPages pageAlignment) := small
    rcases held.sound.performs provides held.housed allowed trivial with ⟨_, performed, _⟩
    rcases Option.map_eq_some_iff.mp performed with ⟨⟨brokered, after⟩, allocated, _⟩
    exact ⟨brokered, after, allocated, sound.allocates small allocated⟩
  · intro region nonempty sized
    constructor
    · rintro ⟨brokered, after, reserved, reserves⟩
      have right := (sound.reserves_iff (Nat.pos_of_ne_zero nonempty) sized reserved).mp reserves
      refine ⟨(reachable_iff sized).mp ?_, right⟩
      by_contra beyond
      have nowhere : use.backend.findFreeRegion target region = none := if_neg beyond
      rw [reserveRegion, nowhere] at reserved
      cases reserved
    · rintro ⟨short, unmistaken⟩
      have allowed : Allowed target use (.reserveRegion region) := trivial
      rcases held.sound.performs provides held.housed allowed ((reachable_iff sized).mpr short) with
        ⟨_, performed, _⟩
      rcases Option.map_eq_some_iff.mp performed with ⟨⟨brokered, after⟩, reserved, _⟩
      exact ⟨brokered, after, reserved,
        (sound.reserves_iff (Nat.pos_of_ne_zero nonempty) sized reserved).mpr unmistaken⟩

/-- Storage for nodes in four pages of scratch memory. -/
def scratchNodes : Option (SlabAllocator .aarch32 (regionNode .aarch32)) :=
  (slabNodes .aarch32).add (SlabAllocator.empty _ _) 2097152 16384

/-- A machine to which 512 MiB were added. -/
theorem reaches_added : Exists fun nodeAllocator => Exists fun use =>
    scratchNodes = some nodeAllocator ∧
    Reaches (Step .aarch32 (slabNodes .aarch32)) (start .aarch32 nodeAllocator)
      [.add ⟨0, 131072⟩] use ∧
    (use.backend.allocate .aarch32 (slabNodes .aarch32) 3 .Page).map (·.1) = some ⟨0, 16384, 3840⟩ := by
  have ran : (scratchNodes.bind fun nodeAllocator =>
      ((start .aarch32 nodeAllocator).perform .aarch32 (slabNodes .aarch32) (.add ⟨0, 131072⟩)).bind
        fun use => (use.backend.allocate .aarch32 (slabNodes .aarch32) 3 .Page).map (·.1)) =
      some ⟨0, 16384, 3840⟩ := by
    decide +kernel
  rcases Option.bind_eq_some_iff.mp ran with ⟨nodeAllocator, stocked, rest⟩
  rcases Option.bind_eq_some_iff.mp rest with ⟨use, added, allocated⟩
  have natural : Natural .aarch32 17 ⟨0, 131072⟩ := ⟨by decide, by decide, by decide⟩
  have allowed : Allowed .aarch32 (start .aarch32 nodeAllocator) (.add ⟨0, 131072⟩) :=
    ⟨⟨17, by decide, natural⟩, by simp [start]⟩
  exact ⟨nodeAllocator, use, stocked, .tail .refl ⟨allowed, added⟩, allocated⟩

/-- Three pages are requested. -/
theorem requests_answered_iff_three : Exists fun use : PageUse _ => Exists fun brokered =>
    Allocates .aarch32 (slabNodes .aarch32) use.backend 3 .Page brokered ∧
    brokered = ⟨0, 16384, 3840⟩ := by
  rcases reaches_added with ⟨nodeAllocator, use, _, run, allocated⟩
  rcases Option.map_eq_some_iff.mp allocated with ⟨⟨brokered, after⟩, ran, same⟩
  exact ⟨use, brokered, (requests_answered_iff run).1 3 .Page brokered after (by decide) ran, same⟩

/-- A region of 2 ^ 22 pages is asked for.  The search starts at the list with
number 22, of 21 lists. -/
theorem reservation_leaves_lists : Exists fun nodeAllocator => Exists fun use =>
    scratchNodes = some nodeAllocator ∧
    Reaches (Step .aarch32 (slabNodes .aarch32)) (start .aarch32 nodeAllocator)
      [.add ⟨0, 131072⟩] use ∧
    use.backend.freeLists.length = 21 ∧ depthFromPageLength .aarch32 (2 ^ 22) = 22 ∧
    (forall node, node ∈ use.backend.listed ->
      ¬ (⟨0, 2 ^ 22⟩ : PageRegion).pages ⊆ node.contents.pages) ∧
    use.backend.reserveRegion .aarch32 (slabNodes .aarch32) ⟨0, 2 ^ 22⟩ = none := by
  rcases reaches_added with ⟨nodeAllocator, use, stocked, run, _⟩
  have sound := run.invariant (Sound .aarch32) (sound_start .aarch32 nodeAllocator)
    fun _ _ _ sound stepped => sound.step stepped
  have depth : depthFromPageLength .aarch32 (2 ^ 22) = 22 := by decide +kernel
  refine ⟨nodeAllocator, use, stocked, run, sound.tidy.length, depth, ?_, ?_⟩
  · intro node member inside
    rcases sound.natural_of_listed member with ⟨_, _, natural⟩
    have bounds := ((span_subset_iff (Nat.two_pow_pos 22)).mp inside).2
    have addressable := natural.addressable
    have pages : addressablePages .aarch32 = 2 ^ 20 := rfl
    have length : (⟨0, 2 ^ 22⟩ : PageRegion).length = 2 ^ 22 := rfl
    omega
  · have nowhere : use.backend.findFreeRegion .aarch32 ⟨0, 2 ^ 22⟩ = none := by
      rw [findFreeRegion, findNode, depth]
      exact if_neg (by decide)
    rw [reserveRegion, nowhere]
    rfl

end PageUse

end Pine
end Pinyon
