import Pinyon.Pine.PageLists

namespace Pinyon
namespace Pine

open Library

/-!
# Calls that come to an end

The page allocator does what it should as long as the allocator of its nodes
does.  `Provides` is the contract between them.  It says up to which number of
nodes the node allocator answers at all, and whether it then always has storage.
With storage for every node that is asked for, halving goes on to the end.
-/

/-- A node allocator that keeps account of the storage in use.  While there is
`room` for another node it answers, with nothing or with storage that is not in
use; with nothing only if it is not `generous`. -/
structure Provides {State : Type} (target : Target) (nodes : NodeAllocator State)
    (holds : State -> List Nat -> Prop) (room : Nat -> Prop) (generous : Prop) : Prop where
  perm : forall {state used used'}, holds state used -> used.Perm used' -> holds state used'
  allocate : forall {state used}, holds state used -> room used.length ->
    Exists fun allocation => Exists fun after => nodes.allocate state = some (allocation, after) ∧
      (allocation.ptr = 0 ∧ ¬ generous ∧ holds after used ∨
        allocation.ptr ≠ 0 ∧ allocation.ptr ∉ used ∧ holds after (allocation.ptr :: used))
  free : forall {state address used}, holds state (address :: used) ->
    Exists fun after => nodes.free state ⟨address, regionNodeSize target⟩ = some after ∧
      holds after used

namespace PageAllocatorBackend

variable {State : Type} {target : Target} {limit depth endDepth numPages : Nat}
variable {nodes : NodeAllocator State} {holds : State -> List Nat -> Prop} {room : Nat -> Prop}
variable {generous : Prop} {backend : PageAllocatorBackend State} {node : RegionNode}
variable {list : List RegionNode} {region : PageRegion}

def addresses (backend : PageAllocatorBackend State) : List Nat :=
  backend.listed.map RegionNode.address

/-- The nodes on the lists are in storage that the node allocator knows to be in use. -/
structure Housed (target : Target) (limit : Nat) (holds : State -> List Nat -> Prop)
    (backend : PageAllocatorBackend State) : Prop where
  tidy : Tidy target limit backend.freeLists
  holds : holds backend.nodeAllocator backend.addresses

theorem length_addresses (backend : PageAllocatorBackend State) :
    backend.addresses.length = backend.listed.length :=
  List.length_map _

/-- A node allocator that keeps account of the nodes answers, whatever is on the lists. -/
theorem createNode_answers (provides : Provides target nodes holds room generous)
    (held : holds backend.nodeAllocator backend.addresses) (roomy : room backend.listed.length)
    (region : PageRegion) :
    Exists fun answer => Exists fun after =>
      backend.createNode target nodes region = some (answer, after) ∧
      after.freeLists = backend.freeLists ∧
      (answer.2 = none ∧ ¬ generous ∧ holds after.nodeAllocator after.addresses ∨
        Exists fun node => answer.2 = some node ∧ node.contents = region ∧
          answer.1 = depthFromPageLength target region.length ∧
          holds after.nodeAllocator (node.address :: after.addresses)) := by
  rw [← length_addresses] at roomy
  rcases provides.allocate held roomy with ⟨allocation, state, answered, outcome⟩
  rw [createNode, answered]
  simp only [Option.bind_eq_bind, Option.bind_some]
  rcases outcome with ⟨nothing, mean, still⟩ | ⟨something, fresh, more⟩
  · rw [if_pos nothing]
    exact ⟨_, _, rfl, rfl, .inl ⟨rfl, mean, still⟩⟩
  · rw [addresses] at fresh
    rw [if_neg something, if_neg fresh]
    exact ⟨_, _, rfl, rfl, .inr ⟨_, rfl, rfl, rfl, more⟩⟩

theorem createNode_returns (provides : Provides target nodes holds room generous)
    (housed : Housed target limit holds backend) (roomy : room backend.listed.length)
    (region : PageRegion) :
    Exists fun answer => Exists fun after =>
      backend.createNode target nodes region = some (answer, after) ∧
      after.freeLists = backend.freeLists ∧
      (answer.2 = none ∧ ¬ generous ∧ Housed target limit holds after ∨
        Exists fun node => answer.2 = some node ∧ node.contents = region ∧
          answer.1 = depthFromPageLength target region.length ∧
          holds after.nodeAllocator (node.address :: after.addresses)) := by
  rcases createNode_answers provides housed.holds roomy region with
    ⟨answer, after, created, sameLists, outcome⟩
  refine ⟨answer, after, created, sameLists, outcome.imp_left ?_⟩
  rintro ⟨nothing, mean, still⟩
  refine ⟨nothing, mean, ?_, still⟩
  rw [sameLists]
  exact housed.tidy

/-- A node that got storage goes onto a list. -/
theorem insertNode_returns (provides : Provides target nodes holds room generous)
    (tidy : Tidy target limit backend.freeLists) (deep : limit < maxDepth target)
    (bounded : depth ≤ limit) (natural : Natural target depth node.contents)
    (more : holds backend.nodeAllocator (node.address :: backend.addresses)) :
    Exists fun after => backend.insertNode depth node = some after ∧
      Housed target limit holds after ∧ after.listed.length = backend.listed.length + 1 ∧
      after.listed.Perm (node :: backend.listed) := by
  rcases insertNode_spec tidy (by omega) bounded natural with
    ⟨after, inserted, same, tidyAfter, listedPerm⟩
  refine ⟨after, inserted, ⟨tidyAfter, ?_⟩, listedPerm.length_eq, listedPerm⟩
  rw [same]
  exact provides.perm more (listedPerm.map RegionNode.address).symm

/-- A node that is on a list leaves it, and its storage is given back. -/
theorem removeNode_answers (provides : Provides target nodes holds room generous)
    (held : holds backend.nodeAllocator backend.addresses)
    (here : backend.freeLists[depth]? = some list) (member : node ∈ list) :
    Exists fun after => backend.removeNode target nodes depth node = some after ∧
      holds after.nodeAllocator after.addresses := by
  have listed : node ∈ backend.listed := List.mem_flatten.mpr ⟨list, List.mem_of_getElem? here, member⟩
  have used : holds backend.nodeAllocator
      (node.address :: (backend.listed.erase node).map RegionNode.address) :=
    provides.perm held ((List.perm_cons_erase listed).map RegionNode.address)
  rcases provides.free used with ⟨state, freed, less⟩
  have removed : backend.removeNode target nodes depth node =
      some ⟨state, backend.freeLists.set depth (list.erase node)⟩ := by
    rw [removeNode, here]
    simp only [Option.bind_eq_bind, Option.bind_some, member, if_true, freed]
    rfl
  rcases removeNode_cases removed with ⟨_, _, _, _, listedPerm, _⟩
  have rest := (List.perm_cons_erase listed).symm.trans listedPerm
  exact ⟨_, removed, provides.perm less ((List.perm_cons node).mp rest |>.map RegionNode.address)⟩

theorem removeNode_returns (provides : Provides target nodes holds room generous)
    (housed : Housed target limit holds backend)
    (here : backend.freeLists[depth]? = some list) (member : node ∈ list) :
    Exists fun after => backend.removeNode target nodes depth node = some after ∧
      Housed target limit holds after ∧ after.listed.length + 1 = backend.listed.length := by
  rcases removeNode_answers provides housed.holds here member with ⟨after, removed, less⟩
  rcases removeNode_spec housed.tidy removed with ⟨tidyAfter, listedPerm, _⟩
  exact ⟨after, removed, ⟨tidyAfter, less⟩, listedPerm.length_eq.symm⟩

/-- How often a region is halved on the way to a depth, by a rule that may stop. -/
def splitCount (keep : PageRegion -> Option (PageRegion × PageRegion)) (endDepth : Nat) :
    Nat -> PageRegion -> Nat
  | 0, _ => 0
  | depth + 1, region =>
      if endDepth = depth + 1 then 0
      else
        match keep region with
        | none => 0
        | some (kept, _) => splitCount keep endDepth depth kept + 1

/-- What a request for a region at a depth gets from a node that was found: the
region, or more of it where the rule has no half to keep. -/
structure Fulfils (target : Target) (keep : PageRegion -> Option (PageRegion × PageRegion))
    (suits : PageRegion -> Prop) (endDepth : Nat) (final : PageRegion) : Prop where
  suits : suits final
  natural : Exists fun finalDepth => Natural target finalDepth final ∧ endDepth ≤ finalDepth ∧
    (endDepth < finalDepth -> keep final = none)

/-- Halving comes to an end.  With storage for every node it stops at the depth
that was asked for, or where the rule has no half to keep. -/
theorem trimLoop_returns (provides : Provides target nodes holds room generous)
    {keep : PageRegion -> Option (PageRegion × PageRegion)} (halves : Halves target keep)
    {suits : PageRegion -> Prop}
    (keeps : forall region kept other, suits region -> keep region = some (kept, other) -> suits kept)
    (housed : Housed target limit holds backend) (natural : Natural target depth region)
    (suitable : suits region) (bounded : depth ≤ limit) (deep : limit < maxDepth target)
    (ends : endDepth ≤ depth)
    (roomy : forall extra, extra < splitCount keep endDepth depth region ->
      room (backend.listed.length + extra)) :
    Exists fun final => Exists fun finalDepth => Exists fun after =>
      trimLoop target nodes keep endDepth depth backend region = some (final, finalDepth, after) ∧
      Housed target limit holds after ∧ (generous -> Fulfils target keep suits endDepth final) := by
  induction depth generalizing backend region with
  | zero =>
      rw [trimLoop, if_pos (Nat.le_zero.mp ends)]
      exact ⟨region, 0, backend, rfl, housed, fun _ => ⟨suitable, 0, natural, ends,
        fun wrong => absurd wrong (Nat.not_lt_zero _)⟩⟩
  | succ depth inductionHypothesis =>
      rw [trimLoop]
      rw [splitCount] at roomy
      by_cases done : endDepth = depth + 1
      · rw [if_pos done]
        exact ⟨region, depth + 1, backend, rfl, housed, fun _ => ⟨suitable, depth + 1, natural, ends,
          fun wrong => absurd wrong (by omega)⟩⟩
      · rw [if_neg done] at roomy ⊢
        cases kept_eq : keep region with
        | none =>
            exact ⟨region, depth + 1, backend, rfl, housed, fun _ => ⟨suitable, depth + 1, natural,
              ends, fun _ => kept_eq⟩⟩
        | some parts =>
            rcases parts with ⟨kept, other⟩
            rw [kept_eq] at roomy
            dsimp only at roomy
            rcases halves depth region kept other natural kept_eq with
              ⟨keptNatural, otherNatural, _, _⟩
            rcases createNode_returns provides housed (roomy 0 (Nat.succ_pos _)) other with
              ⟨answer, middle, created, sameLists, outcome⟩
            simp only [created, Option.bind_eq_bind, Option.bind_some]
            rcases outcome with ⟨nothing, mean, still⟩ | ⟨node, made, content, _, more⟩
            · rw [nothing]
              exact ⟨_, _, _, rfl, still, fun wrong => absurd wrong mean⟩
            · have tidyMiddle : Tidy target limit middle.freeLists := by
                rw [sameLists]
                exact housed.tidy
              have within : depth ≤ limit := by omega
              rcases insertNode_returns provides tidyMiddle deep within
                (by rw [content]; exact otherNatural) more with
                ⟨inserted, ran, housedInserted, length, _⟩
              have sameLength : middle.listed.length = backend.listed.length := by
                rw [listed, listed, sameLists]
              have spare : forall extra, extra < splitCount keep endDepth depth kept ->
                  room (inserted.listed.length + extra) := by
                intro extra small
                have next := roomy (extra + 1) (Nat.succ_lt_succ small)
                rwa [length, sameLength, Nat.add_right_comm, Nat.add_assoc]
              rcases inductionHypothesis housedInserted keptNatural
                (keeps region kept other suitable kept_eq) (by omega) (by omega) spare with
                ⟨final, finalDepth, after, trimmed, housedAfter, complete⟩
              simp only [made, ran, Option.bind_some]
              exact ⟨final, finalDepth, after, trimmed, housedAfter, complete⟩

/-- A node that was found leaves its list and is halved. -/
theorem trimmed_returns (provides : Provides target nodes holds room generous)
    {keep : PageRegion -> Option (PageRegion × PageRegion)} (halves : Halves target keep)
    {suits : PageRegion -> Prop}
    (keeps : forall region kept other, suits region -> keep region = some (kept, other) -> suits kept)
    (housed : Housed target limit holds backend) (deep : limit < maxDepth target)
    (here : backend.freeLists[depth]? = some list) (member : node ∈ list)
    (suitable : suits node.contents) (ends : endDepth ≤ depth)
    (roomy : forall nodes,
      nodes + 1 < backend.listed.length + splitCount keep endDepth depth node.contents -> room nodes) :
    Exists fun middle => Exists fun final => Exists fun finalDepth => Exists fun after =>
      backend.removeNode target nodes depth node = some middle ∧
      trimLoop target nodes keep endDepth depth middle node.contents =
        some (final, finalDepth, after) ∧
      Housed target limit holds after ∧ (generous -> Fulfils target keep suits endDepth final) := by
  rcases housed.tidy.natural depth list node here member with ⟨bounded, natural⟩
  rcases removeNode_returns provides housed here member with
    ⟨middle, removed, housedMiddle, length⟩
  rcases trimLoop_returns provides halves keeps housedMiddle natural suitable bounded deep ends
    (fun extra small => roomy _ (by omega)) with
    ⟨final, finalDepth, after, trimmed, housedAfter, complete⟩
  exact ⟨middle, final, finalDepth, after, removed, trimmed, housedAfter, complete⟩

/-- The first region that the lists hold for a request, if any. -/
theorem findNode_total {suits : PageRegion -> Bool} (legal : depth ≤ maxDepth target) :
    backend.findNode target depth suits =
      some ((backend.freeLists.drop depth).flatten.find? fun node => suits node.contents) :=
  if_pos legal

/-- Nothing was found, and nothing happens; or a node was found, and the request
is fulfilled if there is always storage. -/
structure Answers (target : Target) (limit : Nat) (holds : State -> List Nat -> Prop)
    (generous : Prop) (found : Option RegionNode)
    (fulfils : PageRegion -> Prop) (before : PageAllocatorBackend State)
    (brokered : BrokeredAllocation) (after : PageAllocatorBackend State) : Prop where
  housed : Housed target limit holds after
  idle : found = none -> brokered = {} ∧ after = before
  serves : generous -> found.isSome = true -> Exists fun final =>
    fulfils final ∧ brokered.asAllocation = final.allocation target

/-- An allocation returns if there is room for the nodes that the region which is
found needs, and is of the exact size if there is always storage. -/
theorem allocate_returns (provides : Provides target nodes holds room generous)
    (housed : Housed target limit holds backend) (deep : limit < maxDepth target)
    (pageAlignment : PageAlignmentLevel) {found : Option RegionNode}
    (search : backend.findFreePages target numPages pageAlignment = some found)
    (small : found.isSome = true -> numPages < 2 ^ 32)
    (roomy : forall node exponent, found = some node ->
      alignUpToPower target.wordWidth numPages = some (2 ^ exponent) ->
      forall nodes, nodes + 1 < backend.listed.length + splitCount (keepLeft target) exponent
        (depthFromPageLength target node.contents.length) node.contents -> room nodes) :
    Exists fun brokered => Exists fun after =>
      backend.allocate target nodes numPages pageAlignment = some (brokered, after) ∧
      Answers target limit holds generous found
        (fun final => Exists fun exponent =>
          alignUpToPower target.wordWidth numPages = some (2 ^ exponent) ∧
          Fulfils target (keepLeft target) (fun region => region.alignedTo pageAlignment.toNat = true)
            exponent final) backend brokered after := by
  cases found with
  | none =>
      refine ⟨{}, backend, ?_, housed, fun _ => ⟨rfl, rfl⟩, fun _ wrong => absurd wrong (by simp)⟩
      rw [allocate, search]
      rfl
  | some node =>
      rcases findNode_spec search with ⟨suits, depth, list, _, here, member⟩
      rcases housed.tidy.natural depth list node here member with ⟨bounded, natural⟩
      rw [Bool.and_eq_true, Region.fits, decide_eq_true_eq, natural.length] at suits
      rcases alignUpToPower_spec (small rfl) (Nat.le_trans suits.1 natural.power_le) with
        ⟨exponent, aligned, narrow, covers⟩
      have sorted := depth_eq housed.tidy deep here member
      have ends : depthFromPageLength target (2 ^ exponent) = exponent :=
        depthFromPageLength_two_pow narrow
      have spare := roomy node exponent rfl aligned
      rw [sorted] at spare
      rcases trimmed_returns provides (halves_keepLeft target) (fun _ _ _ => alignedTo_of_keepLeft)
        housed deep here member suits.2 ((covers depth).mp suits.1) spare with
        ⟨middle, final, finalDepth, after, removed, trimmed, housedAfter, fulfils⟩
      refine ⟨broker target final (allocationCost target depth finalDepth), after, ?_, housedAfter,
        fun wrong => absurd wrong (by simp),
        fun always _ => ⟨final, ⟨exponent, aligned, fulfils always⟩, rfl⟩⟩
      rw [allocate, search]
      simp only [removeAndTrimPages, trimAlignedRegion, sorted, removed, aligned, ends, trimmed,
        Option.bind_eq_bind, Option.bind_some]
      rfl

theorem reserveRegion_returns (provides : Provides target nodes holds room generous)
    (housed : Housed target limit holds backend) (deep : limit < maxDepth target)
    (region : PageRegion) {found : Option RegionNode}
    (search : backend.findFreeRegion target region = some found)
    (roomy : forall node, found = some node ->
      forall nodes, nodes + 1 < backend.listed.length + splitCount (keepContaining target region)
        (depthFromPageLength target region.length)
        (depthFromPageLength target node.contents.length) node.contents -> room nodes) :
    Exists fun brokered => Exists fun after =>
      backend.reserveRegion target nodes region = some (brokered, after) ∧
      Answers target limit holds generous found
        (Fulfils target (keepContaining target region) (fun final => final.contains target region = true)
          (depthFromPageLength target region.length)) backend brokered after := by
  cases found with
  | none =>
      refine ⟨{}, backend, ?_, housed, fun _ => ⟨rfl, rfl⟩, fun _ wrong => absurd wrong (by simp)⟩
      rw [reserveRegion, search]
      rfl
  | some node =>
      rcases findNode_spec search with ⟨suits, depth, list, ends, here, member⟩
      have sorted := depth_eq housed.tidy deep here member
      have spare := roomy node rfl
      rw [sorted] at spare
      rcases trimmed_returns provides (halves_keepContaining target region)
        (fun _ _ _ _ => contains_of_keepContaining) housed deep here member suits ends spare with
        ⟨middle, final, finalDepth, after, removed, trimmed, housedAfter, fulfils⟩
      refine ⟨broker target final
        (allocationCost target (depthFromPageLength target region.length) finalDepth), after, ?_,
        housedAfter, fun wrong => absurd wrong (by simp), fun always _ => ⟨final, fulfils always, rfl⟩⟩
      rw [reserveRegion, search]
      simp only [removeAndTrimRegion, sorted, removed, trimmed, Option.bind_eq_bind, Option.bind_some]
      rfl

/-- A natural region that is given back goes onto a list if there is storage. -/
theorem freeRegion_returns (provides : Provides target nodes holds room generous)
    (housed : Housed target limit holds backend) (deep : limit < maxDepth target)
    (bounded : depth ≤ limit) (natural : Natural target depth region)
    (roomy : room backend.listed.length) :
    Exists fun cost => Exists fun after =>
      backend.freeRegion target nodes region = some (cost, after) ∧
      Housed target limit holds after ∧
      (generous -> cost ≠ 0 ∧ after.blocks.Perm (region.pages :: backend.blocks)) := by
  have nonempty : region.length ≠ 0 := by
    rw [natural.length]
    exact Nat.ne_of_gt (Nat.two_pow_pos _)
  rcases createNode_returns provides housed roomy region with
    ⟨⟨number, answer⟩, middle, created, sameLists, outcome⟩
  rcases outcome with ⟨nothing, mean, still⟩ | ⟨node, made, content, number_eq, more⟩
  · cases nothing
    refine ⟨0, middle, ?_, still, fun wrong => absurd wrong mean⟩
    rw [freeRegion, if_neg nonempty]
    simp only [created, Option.bind_eq_bind, Option.bind_some]
    rfl
  · cases made
    have tidyMiddle : Tidy target limit middle.freeLists := by
      rw [sameLists]
      exact housed.tidy
    have narrow := maxDepth_lt_wordWidth target
    have sorted : number = depth := by
      rw [natural.length] at number_eq
      exact number_eq.trans (depthFromPageLength_two_pow (by omega))
    rcases insertNode_returns provides tidyMiddle deep bounded (by rw [content]; exact natural) more with
      ⟨after, inserted, housedAfter, _, listedPerm⟩
    refine ⟨headerNodeSize target, after, ?_, housedAfter,
      fun _ => ⟨Nat.ne_of_gt (headerNodeSize_pos target), ?_⟩⟩
    · rw [freeRegion, if_neg nonempty]
      simp only [created, Option.bind_eq_bind, Option.bind_some, sorted, inserted]
      rfl
    · have blocksPerm : after.blocks.Perm (node.contents.pages :: middle.blocks) :=
        listedPerm.map fun node : RegionNode => node.contents.pages
      rw [content] at blocksPerm
      have sameBlocks : middle.blocks = backend.blocks := by
        rw [blocks, blocks, listed, listed, sameLists]
      exact sameBlocks ▸ blocksPerm

end PageAllocatorBackend

end Pine
end Pinyon
