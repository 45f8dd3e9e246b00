import Mathlib
import Pinyon.Library.History
import Pinyon.Pine.LowerBound
import Pinyon.Pine.PageFiling

namespace Pinyon
namespace Pine

open Library

/-!
# The order of the free lists

`insert_node` searches its list from the greatest region to the least, and the search
ends where it begins.  Every node goes right behind the head, then, whether it is in
order there or not.
-/

/-- Each region is greater than its successor. -/
def Ordered (list : List RegionNode) : Prop :=
  list.IsChain fun node next => node.contents.greater next.contents = true

/-- A region is in order right behind the head of a list, or there is no head. -/
def GoesSecond (region : PageRegion) : List RegionNode -> Prop
  | [] => True
  | head :: rest => head.contents.greater region = true ∧
      forall next, rest.head? = some next -> region.greater next.contents = true

section

variable {list : List RegionNode} {node : RegionNode}

theorem Region.greater_iff {magnitude : Nat} (first second : Region magnitude) :
    first.greater second = true <-> second.offset < first.offset ∨
      first.offset = second.offset ∧ second.length < first.length :=
  decide_eq_true_iff

theorem Region.greater_trans {magnitude : Nat} {first second third : Region magnitude}
    (above : first.greater second = true) (above' : second.greater third = true) :
    first.greater third = true := by
  rw [greater_iff] at above above' ⊢
  omega

instance : Trans (fun node next : RegionNode => node.contents.greater next.contents = true)
    (fun node next : RegionNode => node.contents.greater next.contents = true)
    (fun node next : RegionNode => node.contents.greater next.contents = true) where
  trans := Region.greater_trans

theorem Ordered.erase (ordered : Ordered list) (node : RegionNode) : Ordered (list.erase node) :=
  List.IsChain.sublist ordered List.erase_sublist

theorem ordered_insert_iff (ordered : Ordered list) (node : RegionNode) :
    Ordered (insertAfter list 0 node) <-> GoesSecond node.contents list := by
  unfold Ordered at ordered ⊢
  cases list with
  | nil => exact iff_of_true (List.isChain_singleton node) trivial
  | cons head rest =>
      change List.IsChain _ (head :: node :: rest) <-> _
      rw [List.isChain_cons_cons]
      cases rest with
      | nil =>
          refine and_congr_right fun _ => iff_of_true (List.isChain_singleton node) ?_
          exact fun next wrong => absurd wrong (by simp)
      | cons next rest =>
          rw [List.isChain_cons_cons] at ordered ⊢
          refine and_congr_right fun _ => ⟨fun both other same => ?_, fun second => ⟨?_, ordered.2⟩⟩
          · cases same
            exact both.1
          · exact second next rfl

end

/-- The place that is searched for is where the search of the list's iterators ends. -/
theorem lowerBound_place {Content : Type} (compare : Content -> Bool) (list : List Content) :
    (PtrIter.iterClass list).lowerBound (list.length + 1) (PtrIter.begin list) (PtrIter.end_ list)
      compare = some (PtrIter.place list (lowerBound compare list)) := by
  rw [PtrIter.lowerBound_eq, lowerBound_eq_zero, PtrIter.place_zero]

namespace PageAllocatorBackend

variable {State : Type} {target : Target} {depth endDepth place finalDepth : Nat}
variable {nodes : NodeAllocator State} {backend after : PageAllocatorBackend State}
variable {node : RegionNode} {region final : PageRegion} {list : List RegionNode}
variable {keep : PageRegion -> Option (PageRegion × PageRegion)}

/-- Every free list is in order. -/
def AllOrdered (backend : PageAllocatorBackend State) : Prop :=
  forall (depth : Nat) (list : List RegionNode), backend.freeLists[depth]? = some list -> Ordered list

theorem allOrdered_empty (target : Target) (nodeAllocator : State) :
    AllOrdered (empty target nodeAllocator) := by
  intro depth list here
  rw [List.eq_of_mem_replicate (List.mem_of_getElem? here)]
  exact List.isChain_nil

theorem AllOrdered.set (ordered : AllOrdered backend)
    (lists : after.freeLists = backend.freeLists.set depth list) (orderedList : Ordered list) :
    AllOrdered after := by
  intro place other there
  rw [lists, List.getElem?_set] at there
  split at there
  · split at there
    · cases Option.some.inj there
      exact orderedList
    · cases there
  · exact ordered place other there

theorem AllOrdered.remove (ordered : AllOrdered backend)
    (removed : backend.removeNode target nodes depth node = some after) : AllOrdered after := by
  rcases removeNode_cases removed with ⟨list, here, _, lists, _⟩
  exact ordered.set lists ((ordered depth list here).erase node)

theorem AllOrdered.insert_iff (ordered : AllOrdered backend)
    (here : backend.freeLists[depth]? = some list)
    (inserted : backend.insertNode depth node = some after) :
    AllOrdered after <-> GoesSecond node.contents list := by
  rcases insertNode_inserts here node with ⟨after', inserted', _, lists, _⟩
  cases Option.some.inj (inserted.symm.trans inserted')
  have exactly := ordered_insert_iff (ordered depth list here) node
  refine ⟨fun ordered' => exactly.mp (ordered' depth _ ?_), fun second => ?_⟩
  · rw [lists]
    exact List.getElem?_set_self (List.getElem?_eq_some_iff.mp here).1
  · exact ordered.set lists (exactly.mpr second)

/-! ## Halves -/

/-- Each half that is put aside is in order behind the head of its list. -/
def HalvesGoSecond (target : Target) (nodes : NodeAllocator State)
    (keep : PageRegion -> Option (PageRegion × PageRegion)) (endDepth : Nat) :
    Nat -> PageAllocatorBackend State -> PageRegion -> Prop
  | 0, _, _ => True
  | depth + 1, backend, region =>
      endDepth ≠ depth + 1 -> forall kept other number node middle list after,
        keep region = some (kept, other) ->
          backend.createNode target nodes other = some ((number, some node), middle) ->
            backend.freeLists[depth]? = some list -> middle.insertNode depth node = some after ->
              GoesSecond other list ∧
                HalvesGoSecond target nodes keep endDepth depth after kept

/-- At depth zero the lists are not touched. -/
theorem trimLoop_zero_lists (trimmed : trimLoop target nodes keep endDepth 0 backend region =
    some (final, finalDepth, after)) : after.freeLists = backend.freeLists := by
  rcases trimLoop_zero_cases trimmed with ⟨_, _, _, rfl⟩ | ⟨_, _, _, _, _, created, _⟩
  · rfl
  · exact (createNode_spec created).1

/-- A half that is put aside goes behind the head of its list. -/
theorem insertedHalf_lists {other : PageRegion} {number : Nat}
    (created : backend.createNode target nodes other = some ((number, some node), middle))
    (placed : middle.insertNode depth node = some inserted) :
    Exists fun list => backend.freeLists[depth]? = some list ∧
      inserted.freeLists = backend.freeLists.set depth (insertAfter list 0 node) := by
  have sameLists := (createNode_spec created).1
  rcases Option.bind_eq_some_iff.mp placed with ⟨list, here, _⟩
  rcases insertNode_inserts here node with ⟨inserted', placed', _, lists, _⟩
  cases placed.symm.trans placed'
  rw [sameLists] at here lists
  exact ⟨list, here, lists⟩

/-- The lists from a depth on are not touched. -/
theorem trimLoop_frame (trimmed : trimLoop target nodes keep endDepth depth backend region =
    some (final, finalDepth, after)) (above : depth ≤ place) :
    after.freeLists[place]? = backend.freeLists[place]? := by
  induction depth generalizing backend region with
  | zero => rw [trimLoop_zero_lists trimmed]
  | succ depth inductionHypothesis =>
      rcases trimLoop_succ_cases trimmed with ⟨_, _, _, rfl⟩ |
        ⟨kept, other, _, _, ⟨_, created, _⟩ |
          ⟨_, node, middle, inserted, created, placed, later⟩⟩
      · rfl
      · rw [(createNode_spec created).1]
      · rcases insertedHalf_lists created placed with ⟨list, _, lists⟩
        rw [inductionHypothesis later (Nat.le_of_succ_le above), lists,
          List.getElem?_set_ne (Nat.ne_of_lt above)]

theorem AllOrdered.trim_iff (ordered : AllOrdered backend)
    (trimmed : trimLoop target nodes keep endDepth depth backend region =
      some (final, finalDepth, after)) :
    AllOrdered after <-> HalvesGoSecond target nodes keep endDepth depth backend region := by
  induction depth generalizing backend region with
  | zero =>
      refine iff_of_true (fun place list here => ordered place list ?_) trivial
      rwa [← trimLoop_zero_lists trimmed]
  | succ depth inductionHypothesis =>
      rcases trimLoop_succ_cases trimmed with ⟨stops, _, _, rfl⟩ |
        ⟨kept, other, further, kept_eq, ⟨_, created, _⟩ |
          ⟨number, node, middle, inserted, created, ran, later⟩⟩
      · refine iff_of_true ordered fun further kept other _ _ _ _ _ kept_eq => ?_
        cases (stops.resolve_left further).symm.trans kept_eq
      · refine iff_of_true (fun place list here => ordered place list ?_) ?_
        · rwa [← (createNode_spec created).1]
        · intro _ kept' other' _ _ _ _ _ kept_eq' created'
          cases Option.some.inj (kept_eq.symm.trans kept_eq')
          cases created.symm.trans created'
      · rcases insertedHalf_lists created ran with ⟨list, here, lists⟩
        have content : node.contents = other := ((createNode_spec created).2 node rfl).1
        have orderedMiddle : AllOrdered middle := fun place list here =>
          ordered place list ((createNode_spec created).1 ▸ here)
        have hereMiddle : middle.freeLists[depth]? = some list :=
          (createNode_spec created).1.symm ▸ here
        have exactly := orderedMiddle.insert_iff hereMiddle ran
        rw [content] at exactly
        constructor
        · intro ordered' _ kept' other' number' node' middle' list' inserted' kept_eq' created' here' ran'
          cases Option.some.inj (kept_eq.symm.trans kept_eq')
          cases Option.some.inj (created.symm.trans created')
          cases Option.some.inj (here.symm.trans here')
          cases Option.some.inj (ran.symm.trans ran')
          -- no later half goes onto this list, so it is in order already
          have last : after.freeLists[depth]? = some (insertAfter list 0 node) := by
            rw [trimLoop_frame later (Nat.le_refl depth), lists]
            exact List.getElem?_set_self (List.getElem?_eq_some_iff.mp here).1
          have second : GoesSecond other list :=
            content ▸ (ordered_insert_iff (ordered depth list here) node).mp (ordered' depth _ last)
          exact ⟨second, (inductionHypothesis (exactly.mpr second) later).mp ordered'⟩
        · intro halves
          rcases halves further kept other number node middle list inserted kept_eq created here ran
            with ⟨second, halves⟩
          exact (inductionHypothesis (exactly.mpr second) later).mpr halves

/-! ## Calls -/

/-- One of the operations of the backend. -/
def perform (target : Target) (nodes : NodeAllocator State) (backend : PageAllocatorBackend State) :
    PageCall -> Option (PageAllocatorBackend State)
  | .add region => (backend.add target nodes region).map Prod.snd
  | .allocate numPages pageAlignment =>
      (backend.allocate target nodes numPages pageAlignment).map Prod.snd
  | .reserveRegion region => (backend.reserveRegion target nodes region).map Prod.snd
  | .free allocation => (backend.free target nodes allocation).map Prod.snd

/-- A call that is performed. -/
def Performs (target : Target) (nodes : NodeAllocator State) (before : PageAllocatorBackend State)
    (call : PageCall) (after : PageAllocatorBackend State) : Prop :=
  before.perform target nodes call = some after

/-- The region of a new node is in order behind the head of its list. -/
def RegionGoesSecond (target : Target) (nodes : NodeAllocator State)
    (backend : PageAllocatorBackend State) (region : PageRegion) : Prop :=
  region.length ≠ 0 -> forall depth node middle list,
    backend.createNode target nodes region = some ((depth, some node), middle) ->
      backend.freeLists[depth]? = some list -> GoesSecond region list

/-- The halves of a node's region are in order behind the heads of their lists. -/
def NodeHalvesGoSecond (target : Target) (nodes : NodeAllocator State)
    (keep : PageRegion -> Option (PageRegion × PageRegion)) (endDepth : Nat)
    (backend : PageAllocatorBackend State) (node : RegionNode) : Prop :=
  forall middle,
    backend.removeNode target nodes (depthFromPageLength target node.contents.length) node =
        some middle ->
      HalvesGoSecond target nodes keep endDepth (depthFromPageLength target node.contents.length)
        middle node.contents

/-- Each node that a call inserts goes onto an empty list, or is less than the head and
greater than the second node. -/
def InsertsSecond (target : Target) (nodes : NodeAllocator State)
    (backend : PageAllocatorBackend State) : PageCall -> Prop
  | .add region => RegionGoesSecond target nodes backend region
  | .allocate numPages pageAlignment => forall node aligned,
      backend.findFreePages target numPages pageAlignment = some (some node) ->
        alignUpToPower target.wordWidth numPages = some aligned ->
          NodeHalvesGoSecond target nodes (keepLeft target) (depthFromPageLength target aligned)
            backend node
  | .reserveRegion region => forall node,
      backend.findFreeRegion target region = some (some node) ->
        NodeHalvesGoSecond target nodes (keepContaining target region)
          (depthFromPageLength target region.length) backend node
  | .free allocation => RegionGoesSecond target nodes backend (allocation.region target)

theorem AllOrdered.freeRegion_iff {cost : Nat} (ordered : AllOrdered backend)
    (freed : backend.freeRegion target nodes region = some (cost, after)) :
    AllOrdered after <-> RegionGoesSecond target nodes backend region := by
  unfold PageAllocatorBackend.freeRegion at freed
  by_cases empty : region.length = 0
  · rw [if_pos empty] at freed
    cases Option.some.inj freed
    exact iff_of_true ordered fun nonempty => absurd empty nonempty
  · rw [if_neg empty] at freed
    rcases Option.bind_eq_some_iff.mp freed with ⟨⟨⟨depth, answer⟩, middle⟩, created, rest⟩
    have sameLists := (createNode_spec created).1
    have orderedMiddle : AllOrdered middle := fun place list here =>
      ordered place list (sameLists ▸ here)
    cases answer with
    | none =>
        cases Option.some.inj rest
        refine iff_of_true orderedMiddle fun _ depth' node middle' list made => ?_
        cases created.symm.trans made
    | some node =>
        rcases Option.bind_eq_some_iff.mp rest with ⟨inserted, ran, result⟩
        cases Option.some.inj result
        rcases Option.bind_eq_some_iff.mp ran with ⟨list, here, _⟩
        have content : node.contents = region := ((createNode_spec created).2 node rfl).1
        rw [orderedMiddle.insert_iff here ran, content]
        constructor
        · intro second _ depth' node' middle' list' made here'
          cases created.symm.trans made
          rw [← sameLists] at here'
          cases Option.some.inj (here.symm.trans here')
          exact second
        · intro second
          exact second empty depth node middle list created (sameLists ▸ here)

theorem AllOrdered.trims_iff (ordered : AllOrdered backend)
    (trims : Trims target nodes keep endDepth backend node final finalDepth after) :
    AllOrdered after <-> NodeHalvesGoSecond target nodes keep endDepth backend node := by
  rcases trims with ⟨middle, removed, trimmed⟩
  rw [(ordered.remove removed).trim_iff trimmed]
  constructor
  · intro halves middle' removed'
    cases Option.some.inj (removed.symm.trans removed')
    exact halves
  · intro halves
    exact halves middle removed

/-- A call keeps the lists in order if and only if it inserts in order. -/
theorem AllOrdered.performs_iff {call : PageCall} (ordered : AllOrdered backend)
    (performed : Performs target nodes backend call after) :
    AllOrdered after <-> InsertsSecond target nodes backend call := by
  rcases call with region | ⟨numPages, pageAlignment⟩ | region | allocation
  · rcases Option.map_eq_some_iff.mp performed with ⟨⟨cost, after⟩, ran, rfl⟩
    exact ordered.freeRegion_iff ran
  · rcases Option.map_eq_some_iff.mp performed with ⟨⟨brokered, after⟩, ran, rfl⟩
    rcases allocate_cases ran with ⟨search, _, rfl⟩ |
      ⟨node, aligned, final, finalDepth, search, power, trims, _⟩
    · refine iff_of_true ordered fun node aligned found => ?_
      cases search.symm.trans found
    · rw [ordered.trims_iff trims]
      constructor
      · intro halves node' aligned' search' power'
        cases Option.some.inj (Option.some.inj (search.symm.trans search'))
        cases Option.some.inj (power.symm.trans power')
        exact halves
      · intro halves
        exact halves node aligned search power
  · rcases Option.map_eq_some_iff.mp performed with ⟨⟨brokered, after⟩, ran, rfl⟩
    rcases reserveRegion_cases ran with ⟨search, _, rfl⟩ |
      ⟨node, final, finalDepth, search, trims, _⟩
    · refine iff_of_true ordered fun node found => ?_
      cases search.symm.trans found
    · rw [ordered.trims_iff trims]
      constructor
      · intro halves node' search'
        cases Option.some.inj (Option.some.inj (search.symm.trans search'))
        exact halves
      · intro halves
        exact halves node search
  · rcases Option.map_eq_some_iff.mp performed with ⟨⟨cost, after⟩, ran, rfl⟩
    exact ordered.freeRegion_iff ran

/-- The runs that keep every list in order throughout are those that insert every node
where it is in order behind the head. -/
theorem lists_ordered_iff {nodeAllocator : State} {calls : List PageCall} :
    Reaches (keeping (Performs target nodes) fun _ _ after => AllOrdered after)
        (empty target nodeAllocator) calls after <->
      Reaches (guarded (Performs target nodes) (InsertsSecond target nodes))
        (empty target nodeAllocator) calls after := by
  apply Reaches.keeping_iff_guarded AllOrdered (allOrdered_empty target nodeAllocator)
  · intro before call after ordered performed
    exact ordered.performs_iff performed
  · intro before call after _ _ ordered
    exact ordered

/-! ## Two pages given back -/

/-- The second of two pages that are given back goes behind the first. -/
theorem pages_out_of_order : Exists fun nodeAllocator => Exists fun after =>
    Filing.scratch = some nodeAllocator ∧
    Reaches (Performs .aarch32 (slabNodes .aarch32)) (empty .aarch32 nodeAllocator)
      [.free ⟨4096, 4096⟩, .free ⟨0, 4096⟩, .allocate 1 .Page, .allocate 1 .Page, .add ⟨0, 4⟩]
      after ∧ ¬ AllOrdered after := by
  have ran : (Filing.scratch.bind fun nodeAllocator =>
      ((empty .aarch32 nodeAllocator).perform .aarch32 (slabNodes .aarch32) (.add ⟨0, 4⟩)).bind
        fun added => (added.perform .aarch32 (slabNodes .aarch32) (.allocate 1 .Page)).bind
        fun one => (one.perform .aarch32 (slabNodes .aarch32) (.allocate 1 .Page)).bind
        fun two => (two.perform .aarch32 (slabNodes .aarch32) (.free ⟨0, 4096⟩)).bind
        fun freed => (freed.perform .aarch32 (slabNodes .aarch32) (.free ⟨4096, 4096⟩)).map
        fun after => after.freeLists[0]?.map (List.map RegionNode.contents)) =
      some (some [⟨0, 1⟩, ⟨1, 1⟩]) := by
    decide +kernel
  rcases Option.bind_eq_some_iff.mp ran with ⟨nodeAllocator, stocked, ran⟩
  rcases Option.bind_eq_some_iff.mp ran with ⟨added, adds, ran⟩
  rcases Option.bind_eq_some_iff.mp ran with ⟨one, first, ran⟩
  rcases Option.bind_eq_some_iff.mp ran with ⟨two, second, ran⟩
  rcases Option.bind_eq_some_iff.mp ran with ⟨freed, frees, ran⟩
  rcases Option.map_eq_some_iff.mp ran with ⟨after, last, lists⟩
  refine ⟨nodeAllocator, after, stocked, ?_, fun ordered => ?_⟩
  · exact .tail (.tail (.tail (.tail (.tail .refl adds) first) second) frees) last
  · rcases Option.map_eq_some_iff.mp lists with ⟨list, here, contents⟩
    have chain : (list.map RegionNode.contents).IsChain fun region next =>
        region.greater next = true :=
      (List.isChain_map RegionNode.contents).mpr (ordered 0 list here)
    rw [contents, List.isChain_cons_cons] at chain
    exact absurd chain.1 (by decide)

end PageAllocatorBackend

end Pine
end Pinyon
