import Mathlib
import Pinyon.Pine.BrokerPromise
import Pinyon.Pine.PageOwnership

namespace Pinyon
namespace Pine

open Library

/-!
# Where the nodes are filed

A region of any length may be added.  Halving keeps the depth in a counter, which is
the depth of the halves as long as they are halves: an odd page goes to the right, and
the right half of a region of one page less than a power of two is as long as that
power.  It is put on the list below the one for its length.  The counter is also
compared with the depth of what is asked for, which is rounded up, and may have passed
it before the first halving.
-/

namespace PageAllocatorBackend

variable {State : Type} {target : Target} {depth endDepth place finalDepth length numPages : Nat}
variable {nodes : NodeAllocator State} {backend after : PageAllocatorBackend State}
variable {node : RegionNode} {list : List RegionNode} {lists : List (List RegionNode)}
variable {region final : PageRegion}

/-! ## Sizes and lists -/

theorem depthFromPageLength_eq_iff (small : length < target.wordLimit) (positive : 0 < length) :
    depthFromPageLength target length = depth <-> 2 ^ depth ≤ length ∧ length < 2 ^ (depth + 1) := by
  have nonzero := Nat.ne_of_gt positive
  rw [depthFromPageLength_eq_log2 small nonzero, Nat.log2_eq_iff nonzero]

/-- As many pages as a region can have. -/
def greatestLength : Nat := 2 ^ 20

theorem length_lt_wordLimit (bounded : length ≤ greatestLength) : length < target.wordLimit := by
  refine Nat.lt_of_le_of_lt bounded ?_
  cases target <;> decide

/-- There is a list for every length. -/
theorem lt_maxDepth (long : 2 ^ depth ≤ length) (bounded : length ≤ greatestLength) :
    depth < maxDepth target := by
  have shallow : depth ≤ 20 := (Nat.pow_le_pow_iff_right (by decide)).mp (Nat.le_trans long bounded)
  refine Nat.lt_of_le_of_lt shallow ?_
  cases target <;> decide

/-- Every node is on the list for its length. -/
def Filed (target : Target) (lists : List (List RegionNode)) : Prop :=
  forall depth list node, lists[depth]? = some list -> node ∈ list ->
    depthFromPageLength target node.contents.length = depth

/-- A list holds regions of its size. -/
structure OfSize (depth : Nat) (region : PageRegion) : Prop where
  long : 2 ^ depth ≤ region.length
  short : region.length < 2 ^ (depth + 1)
  bounded : region.length ≤ greatestLength

/-- The lists hold regions of their sizes. -/
structure Sized (target : Target) (lists : List (List RegionNode)) : Prop where
  length : lists.length = maxDepth target
  sized : forall depth list node, lists[depth]? = some list -> node ∈ list ->
    OfSize depth node.contents

theorem OfSize.depth_eq (ofSize : OfSize depth region) :
    depthFromPageLength target region.length = depth := by
  have positive : 0 < region.length := Nat.lt_of_lt_of_le (Nat.two_pow_pos depth) ofSize.long
  exact (depthFromPageLength_eq_iff (length_lt_wordLimit ofSize.bounded) positive).mpr
    ⟨ofSize.long, ofSize.short⟩

theorem ofSize_depth (nonempty : 0 < region.length) (bounded : region.length ≤ greatestLength) :
    OfSize (depthFromPageLength target region.length) region := by
  have small : region.length < target.wordLimit := length_lt_wordLimit bounded
  rcases (depthFromPageLength_eq_iff small nonempty).mp rfl with ⟨long, short⟩
  exact ⟨long, short, bounded⟩

namespace Sized

theorem filed (sized : Sized target lists) : Filed target lists := by
  intro depth list node here member
  exact (sized.sized depth list node here member).depth_eq

theorem list_of_lt (sized : Sized target lists) (small : depth < maxDepth target) :
    Exists fun list => lists[depth]? = some list :=
  ⟨_, List.getElem?_eq_getElem (by rw [sized.length]; exact small)⟩

theorem set (sized : Sized target lists) {new : List RegionNode}
    (ofSize : forall node, node ∈ new -> OfSize depth node.contents) :
    Sized target (lists.set depth new) where
  length := by rw [List.length_set, sized.length]
  sized := by
    intro other list node here member
    rw [List.getElem?_set] at here
    by_cases same : depth = other
    · subst same
      rw [if_pos rfl] at here
      split at here
      · cases Option.some.inj here
        exact ofSize node member
      · cases here
    · rw [if_neg same] at here
      exact sized.sized other list node here member

theorem start (target : Target) (nodeAllocator : State) :
    Sized target (PageAllocatorBackend.empty target nodeAllocator).freeLists where
  length := List.length_replicate
  sized := by
    intro depth list node here member
    rw [List.eq_of_mem_replicate (List.mem_of_getElem? here)] at member
    exact absurd member List.not_mem_nil

end Sized

/-! ## Halving -/

/-- A rule by which a region is divided in two, with an odd page on the right. -/
def Divides (keep : PageRegion -> Option (PageRegion × PageRegion)) : Prop :=
  forall region kept other, keep region = some (kept, other) ->
    kept.length = region.length / 2 ∧ other.length = region.length / 2 + region.length % 2 ∨
    kept.length = region.length / 2 + region.length % 2 ∧ other.length = region.length / 2

theorem divides_keepLeft (target : Target) : Divides (keepLeft target) := by
  intro region kept other kept_eq
  cases Option.some.inj kept_eq
  exact .inl ⟨rfl, rfl⟩

theorem divides_keepContaining (target : Target) (minRegion : PageRegion) :
    Divides (keepContaining target minRegion) := by
  intro region kept other kept_eq
  unfold keepContaining at kept_eq
  dsimp only at kept_eq
  split at kept_eq
  · cases Option.some.inj kept_eq
    exact .inl ⟨rfl, rfl⟩
  · split at kept_eq
    · cases Option.some.inj kept_eq
      exact .inr ⟨rfl, rfl⟩
    · cases kept_eq

/-- Both halves are long enough for the list below, and no longer than a region is. -/
theorem Divides.lengths {keep : PageRegion -> Option (PageRegion × PageRegion)}
    (divides : Divides keep) {kept other : PageRegion} (kept_eq : keep region = some (kept, other))
    (long : 2 ^ (depth + 1) ≤ region.length) (bounded : region.length ≤ greatestLength) :
    (2 ^ depth ≤ kept.length ∧ kept.length ≤ greatestLength) ∧
      2 ^ depth ≤ other.length ∧ other.length ≤ greatestLength := by
  rw [Nat.pow_succ] at long
  rcases divides region kept other kept_eq with ⟨left, right⟩ | ⟨left, right⟩
  · omega
  · omega

/-- From a depth down to another, each half that is put aside is short enough for the
list it is put on, and the halving ends before the counter does. -/
def Fitting (keep : PageRegion -> Option (PageRegion × PageRegion)) (endDepth : Nat) :
    Nat -> PageRegion -> Prop
  | 0, region => endDepth = 0 ∨ keep region = none
  | depth + 1, region => endDepth = depth + 1 ∨ forall kept other, keep region = some (kept, other) ->
      other.length < 2 ^ (depth + 1) ∧ Fitting keep endDepth depth kept

/-- A length that can be halved from a depth down to another, rounding down. -/
def Halvable (length depth endDepth : Nat) : Prop :=
  endDepth = depth ∨ endDepth < depth ∧ length + 2 ^ (depth - endDepth - 1) < 2 ^ (depth + 1)

/-- Halving to the left, only the length matters. -/
theorem fitting_keepLeft_iff (long : 2 ^ depth ≤ region.length)
    (short : region.length < 2 ^ (depth + 1)) :
    Fitting (keepLeft target) endDepth depth region <-> Halvable region.length depth endDepth := by
  induction depth generalizing region with
  | zero => simp [Fitting, Halvable, keepLeft]
  | succ depth inductionHypothesis =>
      rw [Nat.pow_succ] at long
      have double : 2 ^ (depth + 1 + 1) = 2 ^ (depth + 1) * 2 := Nat.pow_succ _ _
      have halves : Fitting (keepLeft target) endDepth depth (region.halve target).1 <->
          Halvable (region.length / 2) depth endDepth :=
        inductionHypothesis (show 2 ^ depth ≤ region.length / 2 by omega)
          (show region.length / 2 < 2 ^ (depth + 1) by omega)
      have unfolded : Fitting (keepLeft target) endDepth (depth + 1) region <->
          endDepth = depth + 1 ∨ region.length / 2 + region.length % 2 < 2 ^ (depth + 1) ∧
            Fitting (keepLeft target) endDepth depth (region.halve target).1 := by
        constructor
        · exact Or.imp_right fun fits => fits _ _ rfl
        · refine Or.imp_right fun fits kept other kept_eq => ?_
          cases Option.some.inj kept_eq
          exact fits
      rw [unfolded, halves, Halvable, Halvable]
      rcases Nat.lt_trichotomy endDepth depth with under | same | above
      · have twice : 2 ^ (depth + 1 - endDepth - 1) = 2 ^ (depth - endDepth - 1) * 2 := by
          rw [← Nat.pow_succ]
          congr 1
          omega
        have positive := Nat.two_pow_pos (depth - endDepth - 1)
        rw [twice]
        omega
      · subst same
        rw [Nat.add_sub_cancel_left]
        omega
      · omega

/-! ## The lists while a region is halved -/

section Halving

variable {holds : State -> List Nat -> Prop} {room : Nat -> Prop} {generous : Prop}
variable {keep : PageRegion -> Option (PageRegion × PageRegion)}

/-- The node for a half is created and put on a list; or there is none. -/
theorem createNode_inserts (provides : Provides target nodes holds room generous)
    (held : holds backend.nodeAllocator backend.addresses) (roomy : room backend.listed.length)
    (here : backend.freeLists[depth]? = some list) (region : PageRegion) :
    Exists fun number => Exists fun answer => Exists fun middle =>
      backend.createNode target nodes region = some ((number, answer), middle) ∧
      (answer = none ∧ ¬ generous ∧ middle.freeLists = backend.freeLists ∧
          holds middle.nodeAllocator middle.addresses ∨
        Exists fun node => Exists fun after => answer = some node ∧ node.contents = region ∧
          number = depthFromPageLength target region.length ∧
          middle.insertNode depth node = some after ∧
          after.freeLists = backend.freeLists.set depth (insertAfter list 0 node) ∧
          after.listed.length = backend.listed.length + 1 ∧
          holds after.nodeAllocator after.addresses) := by
  rcases createNode_answers provides held roomy region with
    ⟨⟨number, answer⟩, middle, created, sameLists, outcome⟩
  refine ⟨number, answer, middle, created, ?_⟩
  rcases outcome with ⟨nothing, mean, still⟩ | ⟨node, made, content, number_eq, more⟩
  · exact .inl ⟨nothing, mean, sameLists, still⟩
  · rw [← sameLists] at here
    rcases insertNode_inserts here node with ⟨after, inserted, same, lists, listedPerm⟩
    refine .inr ⟨node, after, made, content, number_eq, inserted, ?_, ?_, ?_⟩
    · rw [lists, sameLists]
    · rw [listedPerm.length_eq, List.length_cons, listed, listed, sameLists]
    · rw [same]
      exact provides.perm more (listedPerm.map RegionNode.address).symm

theorem Sized.insert (sized : Sized target lists) (here : lists[depth]? = some list)
    (ofSize : OfSize depth node.contents) :
    Sized target (lists.set depth (insertAfter list 0 node)) := by
  refine sized.set fun other member => ?_
  rcases List.mem_cons.mp ((insertAfter_perm list 0 node).mem_iff.mp member) with same | old
  · rw [same]
    exact ofSize
  · exact sized.sized depth list other here old

/-- Where everything fits, the loop ends with every half on the list for its length. -/
theorem trimLoop_files (provides : Provides target nodes holds room generous) (divides : Divides keep)
    (held : holds backend.nodeAllocator backend.addresses) (sized : Sized target backend.freeLists)
    (long : 2 ^ depth ≤ region.length) (bounded : region.length ≤ greatestLength)
    (roomy : forall extra, extra ≤ depth -> room (backend.listed.length + extra))
    (fits : Fitting keep endDepth depth region) :
    Exists fun final => Exists fun finalDepth => Exists fun after =>
      trimLoop target nodes keep endDepth depth backend region = some (final, finalDepth, after) ∧
      Sized target after.freeLists ∧ holds after.nodeAllocator after.addresses ∧
      final.length ≤ greatestLength := by
  induction depth generalizing backend region with
  | zero =>
      rw [trimLoop]
      rcases fits with done | nothing
      · rw [if_pos done]
        exact ⟨_, _, _, rfl, sized, held, bounded⟩
      · rw [nothing]
        split
        · exact ⟨_, _, _, rfl, sized, held, bounded⟩
        · exact ⟨_, _, _, rfl, sized, held, bounded⟩
  | succ depth inductionHypothesis =>
      rw [trimLoop]
      by_cases done : endDepth = depth + 1
      · rw [if_pos done]
        exact ⟨_, _, _, rfl, sized, held, bounded⟩
      · rw [if_neg done]
        cases kept_eq : keep region with
        | none => exact ⟨_, _, _, rfl, sized, held, bounded⟩
        | some parts =>
            rcases parts with ⟨kept, other⟩
            rcases divides.lengths kept_eq long bounded with
              ⟨⟨keptLong, keptBounded⟩, otherLong, otherBounded⟩
            rcases fits.resolve_left done kept other kept_eq with ⟨short, fitsKept⟩
            rcases sized.list_of_lt (lt_maxDepth otherLong otherBounded) with ⟨list, here⟩
            rcases createNode_inserts provides held (roomy 0 (Nat.zero_le _)) here other with
              ⟨number, answer, middle, created, outcome⟩
            simp only [created, Option.bind_eq_bind, Option.bind_some]
            rcases outcome with ⟨rfl, _, sameLists, still⟩ |
              ⟨node, inserted, rfl, content, _, ran, lists, counted, more⟩
            · refine ⟨_, _, _, rfl, ?_, still, bounded⟩
              rw [sameLists]
              exact sized
            · have ofSize : OfSize depth node.contents := by
                rw [content]
                exact ⟨otherLong, short, otherBounded⟩
              have sizedInserted : Sized target inserted.freeLists := by
                rw [lists]
                exact sized.insert here ofSize
              simp only [ran, Option.bind_some]
              refine inductionHypothesis more sizedInserted keptLong keptBounded ?_ fitsKept
              intro extra few
              rw [counted, Nat.add_right_comm]
              exact roomy (extra + 1) (Nat.succ_le_succ few)

/-- What is on a list while a region is halved stays there. -/
theorem trimLoop_keeps
    (trimmed : trimLoop target nodes keep endDepth depth backend region =
      some (final, finalDepth, after)) (here : backend.freeLists[place]? = some list) :
    Exists fun later => after.freeLists[place]? = some later ∧ list ⊆ later := by
  induction depth generalizing backend region list with
  | zero =>
      rcases trimLoop_zero_cases trimmed with ⟨_, _, _, rfl⟩ | ⟨_, _, _, _, _, created, _⟩
      · exact ⟨list, here, List.Subset.refl _⟩
      · rw [(createNode_spec created).1]
        exact ⟨list, here, List.Subset.refl _⟩
  | succ depth inductionHypothesis =>
      rcases trimLoop_succ_cases trimmed with ⟨_, _, _, rfl⟩ |
        ⟨kept, other, _, _, ⟨_, created, _⟩ |
          ⟨_, node, middle, inserted, created, placed, later⟩⟩
      · exact ⟨list, here, List.Subset.refl _⟩
      · rw [(createNode_spec created).1]
        exact ⟨list, here, List.Subset.refl _⟩
      · rw [← (createNode_spec created).1] at here
        rcases Option.bind_eq_some_iff.mp placed with ⟨old, there, result⟩
        cases Option.some.inj result
        by_cases same : depth = place
        · subst same
          cases Option.some.inj (here.symm.trans there)
          have within := (List.getElem?_eq_some_iff.mp here).1
          rcases inductionHypothesis later (List.getElem?_set_self within) with ⟨last, found, kept⟩
          refine ⟨last, found, fun node member => kept ?_⟩
          exact (insertAfter_perm _ _ _).mem_iff.mpr (List.mem_cons_of_mem _ member)
        · refine inductionHypothesis later ?_
          rw [List.getElem?_set_ne same]
          exact here

/-- With a node for every half, the loop ends with every half on the list for its length
only where everything fits. -/
theorem fitting_of_filed (provides : Provides target nodes holds room generous)
    (always : generous) (divides : Divides keep)
    (held : holds backend.nodeAllocator backend.addresses)
    (count : backend.freeLists.length = maxDepth target)
    (long : 2 ^ depth ≤ region.length) (bounded : region.length ≤ greatestLength)
    (roomy : forall extra, extra ≤ depth -> room (backend.listed.length + extra))
    (trimmed : trimLoop target nodes keep endDepth depth backend region =
      some (final, finalDepth, after))
    (filed : Filed target after.freeLists) : Fitting keep endDepth depth region := by
  induction depth generalizing backend region with
  | zero =>
      by_cases done : endDepth = 0
      · exact .inl done
      · refine .inr ?_
        cases kept_eq : keep region with
        | none => rfl
        | some parts =>
            rw [trimLoop, if_neg done, kept_eq] at trimmed
            rcases createNode_answers provides held (roomy 0 (Nat.le_refl _)) parts.2 with
              ⟨⟨number, answer⟩, middle, created, _, outcome⟩
            rcases outcome with ⟨_, mean, _⟩ | ⟨node, made, _⟩
            · exact absurd always mean
            · cases made
              simp only [created, Option.bind_eq_bind, Option.bind_some] at trimmed
              cases trimmed
  | succ depth inductionHypothesis =>
      by_cases done : endDepth = depth + 1
      · exact .inl done
      · refine .inr fun kept other kept_eq => ?_
        rcases divides.lengths kept_eq long bounded with
          ⟨⟨keptLong, keptBounded⟩, otherLong, otherBounded⟩
        have within : depth < backend.freeLists.length := by
          rw [count]
          exact lt_maxDepth otherLong otherBounded
        have here := List.getElem?_eq_getElem within
        rw [trimLoop, if_neg done, kept_eq] at trimmed
        rcases createNode_inserts provides held (roomy 0 (Nat.zero_le _)) here other with
          ⟨number, answer, middle, created, outcome⟩
        simp only [created, Option.bind_eq_bind, Option.bind_some] at trimmed
        rcases outcome with ⟨_, mean, _⟩ | ⟨node, inserted, rfl, content, _, ran, lists, counted, more⟩
        · exact absurd always mean
        · simp only [ran, Option.bind_some] at trimmed
          have there : inserted.freeLists[depth]? =
              some (insertAfter backend.freeLists[depth] 0 node) := by
            rw [lists]
            exact List.getElem?_set_self within
          rcases trimLoop_keeps trimmed there with ⟨last, found, kept'⟩
          have member : node ∈ last :=
            kept' ((insertAfter_perm _ _ _).mem_iff.mpr List.mem_cons_self)
          have exactly := filed depth last node found member
          rw [content] at exactly
          have positive : 0 < other.length := Nat.lt_of_lt_of_le (Nat.two_pow_pos _) otherLong
          refine ⟨((depthFromPageLength_eq_iff (length_lt_wordLimit otherBounded) positive).mp
            exactly).2, ?_⟩
          refine inductionHypothesis more ?_ keptLong keptBounded ?_ trimmed
          · rw [lists, List.length_set, count]
          · intro extra few
            rw [counted, Nat.add_right_comm]
            exact roomy (extra + 1) (Nat.succ_le_succ few)

/-! ## Calls -/

/-- The lists between two calls. -/
structure Kept (target : Target) (holds : State -> List Nat -> Prop)
    (backend : PageAllocatorBackend State) : Prop where
  sized : Sized target backend.freeLists
  held : holds backend.nodeAllocator backend.addresses

/-- The node allocator answers for a node of every depth, which is what the runway of
the broker is for. -/
def Roomy (target : Target) (room : Nat -> Prop) (backend : PageAllocatorBackend State) : Prop :=
  forall nodes, nodes ≤ backend.listed.length + maxDepth target -> room nodes

theorem Sized.found {suits : PageRegion -> Bool} (sized : Sized target backend.freeLists)
    (search : backend.findNode target place suits = some (some node)) :
    suits node.contents = true ∧ Exists fun list =>
      backend.freeLists[depthFromPageLength target node.contents.length]? = some list ∧
      node ∈ list ∧ OfSize (depthFromPageLength target node.contents.length) node.contents := by
  rcases findNode_spec search with ⟨suitable, depth, list, _, here, member⟩
  have ofSize := sized.sized depth list node here member
  rw [ofSize.depth_eq]
  exact ⟨suitable, list, here, member, ofSize⟩

/-- A node leaves its list, and there is room for the halves of its region. -/
theorem Kept.remove (kept : Kept target holds backend)
    (provides : Provides target nodes holds room generous) (roomy : Roomy target room backend)
    (here : backend.freeLists[depth]? = some list) (member : node ∈ list) :
    Exists fun middle => backend.removeNode target nodes depth node = some middle ∧
      Kept target holds middle ∧
      forall extra, extra ≤ depth -> room (middle.listed.length + extra) := by
  rcases removeNode_answers provides kept.held here member with ⟨middle, removed, less⟩
  rcases removeNode_cases removed with ⟨list', here', _, lists, listedPerm, _⟩
  cases Option.some.inj (here.symm.trans here')
  refine ⟨middle, removed, ⟨?_, less⟩, fun extra few => roomy _ ?_⟩
  · rw [lists]
    exact kept.sized.set fun other old =>
      kept.sized.sized depth list other here (List.mem_of_mem_erase old)
  · have within : depth < backend.freeLists.length := (List.getElem?_eq_some_iff.mp here).1
    rw [kept.sized.length] at within
    rw [listedPerm.length_eq, List.length_cons]
    omega

/-- A node that was found is removed and halved, if that fits. -/
theorem Kept.trims (kept : Kept target holds backend)
    (provides : Provides target nodes holds room generous) (divides : Divides keep)
    (roomy : Roomy target room backend) (here : backend.freeLists[depth]? = some list)
    (member : node ∈ list) (fits : Fitting keep endDepth depth node.contents) :
    Exists fun middle => Exists fun final => Exists fun finalDepth => Exists fun after =>
      backend.removeNode target nodes depth node = some middle ∧
      trimLoop target nodes keep endDepth depth middle node.contents =
        some (final, finalDepth, after) ∧
      Kept target holds after ∧ final.length ≤ greatestLength := by
  have ofSize := kept.sized.sized depth list node here member
  rcases kept.remove provides roomy here member with ⟨middle, removed, keptMiddle, spare⟩
  rcases trimLoop_files provides divides keptMiddle.held keptMiddle.sized ofSize.long ofSize.bounded
    spare fits with ⟨final, finalDepth, after, trimmed, sized, held, bounded⟩
  exact ⟨middle, final, finalDepth, after, removed, trimmed, ⟨sized, held⟩, bounded⟩

theorem Kept.fitting_of_trims (kept : Kept target holds backend)
    (provides : Provides target nodes holds room generous) (always : generous)
    (divides : Divides keep) (roomy : Roomy target room backend)
    (here : backend.freeLists[depthFromPageLength target node.contents.length]? = some list)
    (member : node ∈ list)
    (trims : Trims target nodes keep endDepth backend node final finalDepth after)
    (filed : Filed target after.freeLists) :
    Fitting keep endDepth (depthFromPageLength target node.contents.length) node.contents := by
  have ofSize := kept.sized.sized _ list node here member
  rcases kept.remove provides roomy here member with ⟨middle, removed, keptMiddle, spare⟩
  rcases trims with ⟨middle', removed', trimmed⟩
  cases Option.some.inj (removed.symm.trans removed')
  exact fitting_of_filed provides always divides keptMiddle.held keptMiddle.sized.length ofSize.long
    ofSize.bounded spare trimmed filed

/-- The allocation that a region is handed out as stands for no more than the region. -/
theorem length_region_le (final : PageRegion) (cost : Nat) :
    ((broker target final cost).asAllocation.region target).length ≤ final.length := by
  have size : final.size target ≤ final.length * pageSize := Nat.mod_le _ _
  have rounded : (final.size target + (pageSize - 1)) % 2 ^ target.wordWidth ≤
      final.length * pageSize + (pageSize - 1) :=
    Nat.le_trans (Nat.mod_le _ _) (Nat.add_le_add_right size _)
  calc
    (final.size target + (pageSize - 1)) % 2 ^ target.wordWidth / pageSize ≤
        (final.length * pageSize + (pageSize - 1)) / pageSize := Nat.div_le_div_right rounded
    _ = final.length := by
      rw [Nat.mul_comm, Nat.mul_add_div (by decide), Nat.div_eq_of_lt (by decide), Nat.add_zero]

/-- A search for pages does not start behind the lists, and the region that it finds can
be halved down to what is asked for, rounded up. -/
def PagesFit (target : Target) (backend : PageAllocatorBackend State) (numPages : Nat)
    (pageAlignment : PageAlignmentLevel) : Prop :=
  depthFromPageLength target numPages ≤ maxDepth target ∧
    forall node aligned, backend.findFreePages target numPages pageAlignment = some (some node) ->
      alignUpToPower target.wordWidth numPages = some aligned ->
      Halvable node.contents.length (depthFromPageLength target node.contents.length)
        (depthFromPageLength target aligned)

/-- A search for a region does not start behind the lists, and every half that is put
aside on the way to the region fits. -/
def RegionFits (target : Target) (backend : PageAllocatorBackend State) (region : PageRegion) : Prop :=
  depthFromPageLength target region.length ≤ maxDepth target ∧
    forall node, backend.findFreeRegion target region = some (some node) ->
      Fitting (keepContaining target region) (depthFromPageLength target region.length)
        (depthFromPageLength target node.contents.length) node.contents

/-- What a call for a region or for pages leaves. -/
def Leaves (target : Target) (holds : State -> List Nat -> Prop)
    (ran : Option (BrokeredAllocation × PageAllocatorBackend State)) : Prop :=
  Exists fun brokered => Exists fun after => ran = some (brokered, after) ∧
    Kept target holds after ∧ (brokered.asAllocation.region target).length ≤ greatestLength

theorem Kept.leaves_nothing (kept : Kept target holds backend) :
    Leaves target holds (some ({}, backend)) := by
  refine ⟨_, _, rfl, kept, ?_⟩
  have nothing : ((broker target ⟨0, 0⟩ 0).asAllocation.region target).length ≤ 0 :=
    length_region_le ⟨0, 0⟩ 0
  have same : (broker target ⟨0, 0⟩ 0).asAllocation = ({} : BrokeredAllocation).asAllocation := by
    cases target <;> rfl
  rw [same] at nothing
  exact Nat.le_trans nothing (Nat.zero_le _)

variable {pageAlignment : PageAlignmentLevel} {brokered : BrokeredAllocation}

/-- The pages that are asked for are rounded up to a power of two that is a word. -/
theorem Sized.rounds (sized : Sized target backend.freeLists)
    (search : backend.findFreePages target numPages pageAlignment = some (some node)) :
    Exists fun exponent => alignUpToPower target.wordWidth numPages = some (2 ^ exponent) ∧
      depthFromPageLength target (2 ^ exponent) = exponent := by
  rcases sized.found search with ⟨suits, _, _, _, ofSize⟩
  rw [Bool.and_eq_true, Region.fits, decide_eq_true_eq] at suits
  have few : numPages ≤ 2 ^ 20 := Nat.le_trans suits.1 ofSize.bounded
  have word : 2 ^ 20 ≤ 2 ^ (target.wordWidth - 1) := by
    refine Nat.pow_le_pow_right (by decide) ?_
    cases target <;> decide
  have small : numPages < 2 ^ 32 := Nat.lt_of_le_of_lt few (by decide)
  rcases alignUpToPower_spec small (Nat.le_trans few word) with ⟨exponent, rounded, narrow, _⟩
  exact ⟨exponent, rounded, depthFromPageLength_two_pow narrow⟩

theorem Kept.allocate (kept : Kept target holds backend)
    (provides : Provides target nodes holds room generous) (roomy : Roomy target room backend)
    (fit : PagesFit target backend numPages pageAlignment) :
    Leaves target holds (backend.allocate target nodes numPages pageAlignment) := by
  rcases fit with ⟨legal, halvable⟩
  have search : backend.findFreePages target numPages pageAlignment = some _ := findNode_total legal
  generalize ((backend.freeLists.drop (depthFromPageLength target numPages)).flatten.find? _) = found
    at search
  cases found with
  | none =>
      have idle : backend.allocate target nodes numPages pageAlignment = some ({}, backend) := by
        rw [PageAllocatorBackend.allocate, search]
        rfl
      rw [idle]
      exact kept.leaves_nothing
  | some node =>
      rcases kept.sized.found search with ⟨_, list, here, member, ofSize⟩
      rcases kept.sized.rounds search with ⟨exponent, rounded, _⟩
      have fits : Fitting (keepLeft target) (depthFromPageLength target (2 ^ exponent))
          (depthFromPageLength target node.contents.length) node.contents :=
        (fitting_keepLeft_iff ofSize.long ofSize.short).mpr (halvable node _ search rounded)
      rcases kept.trims provides (divides_keepLeft target) roomy here member fits with
        ⟨middle, final, finalDepth, after, removed, trimmed, keptAfter, bounded⟩
      refine ⟨broker target final (allocationCost target
        (depthFromPageLength target node.contents.length) finalDepth), after, ?_, keptAfter,
        Nat.le_trans (length_region_le final _) bounded⟩
      rw [PageAllocatorBackend.allocate, search]
      simp only [removeAndTrimPages, trimAlignedRegion, removed, rounded, trimmed,
        Option.bind_eq_bind, Option.bind_some]
      rfl

theorem Kept.pagesFit_of_filed (kept : Kept target holds backend)
    (provides : Provides target nodes holds room generous) (always : generous)
    (roomy : Roomy target room backend)
    (allocated : backend.allocate target nodes numPages pageAlignment = some (brokered, after))
    (filed : Filed target after.freeLists) : PagesFit target backend numPages pageAlignment := by
  constructor
  · by_contra beyond
    have nowhere : backend.findFreePages target numPages pageAlignment = none := if_neg beyond
    rw [PageAllocatorBackend.allocate, nowhere] at allocated
    cases allocated
  · intro node aligned search rounded
    rcases allocate_cases allocated with
      ⟨none, _, _⟩ | ⟨node', aligned', final, finalDepth, search', rounded', trims, _⟩
    · cases search.symm.trans none
    · cases search.symm.trans search'
      cases rounded.symm.trans rounded'
      rcases kept.sized.found search with ⟨_, list, here, member, ofSize⟩
      exact (fitting_keepLeft_iff ofSize.long ofSize.short).mp
        (kept.fitting_of_trims provides always (divides_keepLeft target) roomy here member trims filed)

theorem Kept.reserveRegion (kept : Kept target holds backend)
    (provides : Provides target nodes holds room generous) (roomy : Roomy target room backend)
    (fit : RegionFits target backend region) :
    Leaves target holds (backend.reserveRegion target nodes region) := by
  rcases fit with ⟨legal, fitting⟩
  have search : backend.findFreeRegion target region = some _ := findNode_total legal
  generalize ((backend.freeLists.drop (depthFromPageLength target region.length)).flatten.find? _) =
    found at search
  cases found with
  | none =>
      have idle : backend.reserveRegion target nodes region = some ({}, backend) := by
        rw [PageAllocatorBackend.reserveRegion, search]
        rfl
      rw [idle]
      exact kept.leaves_nothing
  | some node =>
      rcases kept.sized.found search with ⟨_, list, here, member, _⟩
      rcases kept.trims provides (divides_keepContaining target region) roomy here member
        (fitting node search) with
        ⟨middle, final, finalDepth, after, removed, trimmed, keptAfter, bounded⟩
      refine ⟨broker target final (allocationCost target
        (depthFromPageLength target region.length) finalDepth), after, ?_, keptAfter,
        Nat.le_trans (length_region_le final _) bounded⟩
      rw [PageAllocatorBackend.reserveRegion, search]
      simp only [removeAndTrimRegion, removed, trimmed, Option.bind_eq_bind, Option.bind_some]
      rfl

theorem Kept.regionFits_of_filed (kept : Kept target holds backend)
    (provides : Provides target nodes holds room generous) (always : generous)
    (roomy : Roomy target room backend)
    (reserved : backend.reserveRegion target nodes region = some (brokered, after))
    (filed : Filed target after.freeLists) : RegionFits target backend region := by
  constructor
  · by_contra beyond
    have nowhere : backend.findFreeRegion target region = none := if_neg beyond
    rw [PageAllocatorBackend.reserveRegion, nowhere] at reserved
    cases reserved
  · intro node search
    rcases reserveRegion_cases reserved with
      ⟨none, _, _⟩ | ⟨node', final, finalDepth, search', trims, _⟩
    · cases search.symm.trans none
    · cases search.symm.trans search'
      rcases kept.sized.found search with ⟨_, list, here, member, _⟩
      exact kept.fitting_of_trims provides always (divides_keepContaining target region) roomy here
        member trims filed

/-- A region that is given back goes onto the list for its length. -/
theorem Kept.freeRegion (kept : Kept target holds backend)
    (provides : Provides target nodes holds room generous) (roomy : Roomy target room backend)
    (bounded : region.length ≤ greatestLength) :
    Exists fun cost => Exists fun after =>
      backend.freeRegion target nodes region = some (cost, after) ∧ Kept target holds after := by
  by_cases empty : region.length = 0
  · refine ⟨0, backend, ?_, kept⟩
    rw [PageAllocatorBackend.freeRegion, if_pos empty]
    rfl
  · have ofSize : OfSize (depthFromPageLength target region.length) region :=
      ofSize_depth (Nat.pos_of_ne_zero empty) bounded
    rcases kept.sized.list_of_lt (lt_maxDepth ofSize.long bounded) with ⟨list, here⟩
    rcases createNode_inserts provides kept.held (roomy _ (Nat.le_add_right _ _)) here region with
      ⟨number, answer, middle, created, outcome⟩
    rw [PageAllocatorBackend.freeRegion, if_neg empty]
    simp only [created, Option.bind_eq_bind, Option.bind_some]
    rcases outcome with ⟨rfl, _, sameLists, still⟩ |
      ⟨node, after, rfl, content, rfl, ran, lists, _, more⟩
    · refine ⟨0, middle, rfl, ?_, still⟩
      rw [sameLists]
      exact kept.sized
    · simp only [ran, Option.bind_some]
      refine ⟨headerNodeSize target, after, rfl, ?_, more⟩
      rw [lists]
      refine kept.sized.insert here ?_
      rw [content]
      exact ofSize

end Halving

end PageAllocatorBackend

namespace Filing

open PageAllocatorBackend

variable {State : Type} {target : Target} {nodes : NodeAllocator State} {use : PageUse State}
variable {holds : State -> List Nat -> Prop} {room : Nat -> Prop} {generous : Prop}
variable {before after : Option (PageUse State)} {call : PageCall}

/-- What is asked of the callers: what is added is not empty, lies below `2 ^ 20` pages
and was not added before, and what is freed is live. -/
def Allowed (use : PageUse State) : PageCall -> Prop
  | .add region => 0 < region.length ∧ region.offset + region.length ≤ greatestLength ∧
      Disjoint region.pages (cover (use.added.map Region.pages))
  | .allocate _ _ => True
  | .reserveRegion _ => True
  | .free allocation => allocation ∈ use.live

/-- A call is made while the node allocator answers.  There is no state afterwards if it
used a list that does not exist, or took a node from a list that it is not on. -/
def Step (target : Target) (nodes : NodeAllocator State) (room : Nat -> Prop)
    (before : Option (PageUse State)) (call : PageCall) (after : Option (PageUse State)) : Prop :=
  Exists fun use => before = some use ∧ Allowed use call ∧ Roomy target room use.backend ∧
    use.perform target nodes call = after

/-- The lists that a call uses exist, the node that it removes is on the list that it is
taken from, and afterwards every node is on the list for its length. -/
def Promise (target : Target) (_ : Option (PageUse State)) (_ : PageCall)
    (after : Option (PageUse State)) : Prop :=
  Exists fun use => after = some use ∧ Filed target use.backend.freeLists

/-- What a request asks for can be halved down to. -/
def Fits (target : Target) (before : Option (PageUse State)) (call : PageCall) : Prop :=
  forall use, before = some use ->
    match call with
    | .allocate numPages pageAlignment => PagesFit target use.backend numPages pageAlignment
    | .reserveRegion region => RegionFits target use.backend region
    | .add _ | .free _ => True

/-- The invariant. -/
structure Sound (target : Target) (holds : State -> List Nat -> Prop) (use : PageUse State) :
    Prop where
  kept : Kept target holds use.backend
  live : forall allocation, allocation ∈ use.live ->
    (allocation.region target).length ≤ greatestLength

theorem sound_start {nodeAllocator : State} (empty : holds nodeAllocator []) :
    Sound target holds (PageUse.start target nodeAllocator) := by
  refine ⟨⟨Sized.start target nodeAllocator, ?_⟩, fun _ wrong => absurd wrong List.not_mem_nil⟩
  have nothing : (PageAllocatorBackend.empty target nodeAllocator).addresses = [] := by
    simp [addresses, listed, PageAllocatorBackend.empty]
  rw [PageUse.start, nothing]
  exact empty

theorem Sound.handedOut (sound : Sound target holds use)
    {result : BrokeredAllocation × PageAllocatorBackend State} (kept : Kept target holds result.2)
    (bounded : (result.1.asAllocation.region target).length ≤ greatestLength) :
    Sound target holds (use.handedOut result) := by
  refine ⟨kept, fun allocation member => ?_⟩
  rw [PageUse.handedOut] at member
  split at member
  · rcases List.mem_cons.mp member with new | old
    · rw [new]
      exact bounded
    · exact sound.live allocation old
  · exact sound.live allocation member

/-- A call whose request fits. -/
theorem Sound.performs (sound : Sound target holds use)
    (provides : Provides target nodes holds room generous) (allowed : Allowed use call)
    (roomy : Roomy target room use.backend) (fits : Fits target (some use) call) :
    Exists fun later => use.perform target nodes call = some later ∧ Sound target holds later := by
  have fit := fits use rfl
  cases call with
  | add region =>
      have bounded : region.length ≤ greatestLength :=
        Nat.le_trans (Nat.le_add_left _ _) allowed.2.1
      rcases sound.kept.freeRegion provides roomy bounded with ⟨cost, backend, ran, kept⟩
      refine ⟨PageUse.freed nodes { use with added := region :: use.added } region (cost, backend), ?_,
        kept, sound.live⟩
      rw [PageUse.perform, PageAllocatorBackend.add, ran]
      rfl
  | allocate numPages pageAlignment =>
      rcases sound.kept.allocate provides roomy fit with ⟨brokered, backend, ran, kept, bounded⟩
      refine ⟨use.handedOut (brokered, backend), ?_, sound.handedOut kept bounded⟩
      rw [PageUse.perform, ran]
      rfl
  | reserveRegion region =>
      rcases sound.kept.reserveRegion provides roomy fit with ⟨brokered, backend, ran, kept, bounded⟩
      refine ⟨use.handedOut (brokered, backend), ?_, sound.handedOut kept bounded⟩
      rw [PageUse.perform, ran]
      rfl
  | free allocation =>
      rcases sound.kept.freeRegion provides roomy (sound.live allocation allowed) with
        ⟨cost, backend, ran, kept⟩
      refine ⟨PageUse.freed nodes { use with live := use.live.erase allocation }
        (allocation.region target) (cost, backend), ?_, kept,
        fun other member => sound.live other (List.mem_of_mem_erase member)⟩
      rw [Allocation.region] at ran ⊢
      rw [PageUse.perform, PageAllocatorBackend.free, ran]
      rfl

/-- With a node for every half, a request that does not fit breaks the promise. -/
theorem Sound.fits_of_promise (sound : Sound target holds use)
    (provides : Provides target nodes holds room generous) (always : generous)
    (roomy : Roomy target room use.backend) {later : PageUse State}
    (performed : use.perform target nodes call = some later)
    (filed : Filed target later.backend.freeLists) : Fits target (some use) call := by
  intro same' same
  cases Option.some.inj same
  cases call with
  | add region => trivial
  | allocate numPages pageAlignment =>
      rcases Option.map_eq_some_iff.mp performed with ⟨⟨brokered, backend⟩, ran, rfl⟩
      exact sound.kept.pagesFit_of_filed provides always roomy ran filed
  | reserveRegion region =>
      rcases Option.map_eq_some_iff.mp performed with ⟨⟨brokered, backend⟩, ran, rfl⟩
      exact sound.kept.regionFits_of_filed provides always roomy ran filed
  | free allocation => trivial

/-- The state exists and is sound. -/
def Good (target : Target) (holds : State -> List Nat -> Prop) (state : Option (PageUse State)) : Prop :=
  Exists fun use => state = some use ∧ Sound target holds use

theorem Good.performs (good : Good target holds before)
    (provides : Provides target nodes holds room generous)
    (stepped : Step target nodes room before call after) (fits : Fits target before call) :
    Good target holds after := by
  rcases stepped with ⟨use, rfl, allowed, roomy, rfl⟩
  rcases good with ⟨other, same, sound⟩
  cases Option.some.inj same
  exact sound.performs provides allowed roomy fits

theorem Good.fits_of_promise (good : Good target holds before)
    (provides : Provides target nodes holds room generous) (always : generous)
    (stepped : Step target nodes room before call after) (promise : Promise target before call after) :
    Fits target before call := by
  rcases stepped with ⟨use, rfl, allowed, roomy, performed⟩
  rcases good with ⟨other, same, sound⟩
  cases Option.some.inj same
  rcases promise with ⟨later, rfl, filed⟩
  exact sound.fits_of_promise provides always roomy performed filed

theorem Good.promise (good : Good target holds after) : Promise target before call after := by
  rcases good with ⟨use, same, sound⟩
  exact ⟨use, same, sound.kept.sized.filed⟩

/-- Every node is on the list for its length, removed from the list it is on, and every
list that is used exists, in all runs whose requests fit the regions that are found for
them.  With a node for every half these are the only such runs. -/
theorem nodes_filed_iff {nodeAllocator : State} {calls : List PageCall}
    (provides : Provides target nodes holds room generous) (empty : holds nodeAllocator []) :
    (Reaches (guarded (Step target nodes room) (Fits target))
        (some (PageUse.start target nodeAllocator)) calls after ->
      Reaches (keeping (Step target nodes room) (Promise target))
        (some (PageUse.start target nodeAllocator)) calls after) ∧
    (generous ->
      (Reaches (keeping (Step target nodes room) (Promise target))
          (some (PageUse.start target nodeAllocator)) calls after <->
        Reaches (guarded (Step target nodes room) (Fits target))
          (some (PageUse.start target nodeAllocator)) calls after)) := by
  have initial : Good target holds (some (PageUse.start target nodeAllocator)) :=
    ⟨_, rfl, sound_start empty⟩
  have enough : forall before call after, Good target holds before ->
      Step target nodes room before call after -> Fits target before call ->
        Promise target before call after := by
    intro before call after good stepped fits
    exact (good.performs provides stepped fits).promise
  constructor
  · exact Reaches.keeping_of_guarded (Good target holds) initial enough
      fun before call after good stepped fits => good.performs provides stepped fits
  · intro always
    have exactly : forall before call after, Good target holds before ->
        Step target nodes room before call after ->
          (Promise target before call after <-> Fits target before call) := by
      intro before call after good stepped
      refine ⟨fun promise => ?_, enough before call after good stepped⟩
      exact good.fits_of_promise provides always stepped promise
    apply Reaches.keeping_iff_guarded (Good target holds) initial exactly
    intro before call after good stepped promise
    exact good.performs provides stepped ((exactly before call after good stepped).mp promise)

/-! ## Three pages and four pages -/

/-- Storage for nodes in four pages. -/
def scratch : Option (SlabAllocator .aarch32 (regionNode .aarch32)) :=
  (slabNodes .aarch32).add (SlabAllocator.empty _ _) ((⟨128, 4⟩ : PageRegion).ptr .aarch32 0)
    ((⟨128, 4⟩ : PageRegion).size .aarch32)

/-- As many nodes as the bits of the first word of the bitmap. -/
def few (nodes : Nat) : Prop :=
  nodes < min Target.aarch32.wordWidth 256

/-- Pages are added first. -/
theorem step_add {nodeAllocator : State} {numPages : Nat} {later : PageUse State}
    (nonempty : 0 < numPages) (bounded : numPages ≤ greatestLength)
    (roomy : forall nodes, nodes ≤ maxDepth target -> room nodes)
    (added : (PageUse.start target nodeAllocator).perform target nodes (.add ⟨0, numPages⟩) =
      some later) :
    Step target nodes room (some (PageUse.start target nodeAllocator)) (.add ⟨0, numPages⟩)
      (some later) := by
  refine ⟨_, rfl, ⟨nonempty, by simpa using bounded, by simp [PageUse.start]⟩, ?_, added⟩
  have nothing : (PageAllocatorBackend.empty target nodeAllocator).listed.length = 0 := by
    simp [listed, PageAllocatorBackend.empty]
  intro nodes few
  rw [PageUse.start, nothing, Nat.zero_add] at few
  exact roomy nodes few

/-- Four pages are halved twice for one page. -/
theorem nodes_filed_iff_four : Exists fun nodeAllocator => Exists fun use =>
    scratch = some nodeAllocator ∧
    Reaches (keeping (Step .aarch32 (slabNodes .aarch32) few) (Promise .aarch32))
      (some (PageUse.start .aarch32 nodeAllocator)) [.allocate 1 .Page, .add ⟨0, 4⟩] (some use) ∧
    use.backend.freeLists.map (List.map RegionNode.contents) =
      [[⟨1, 1⟩], [⟨2, 2⟩]] ++ List.replicate 19 [] := by
  have ran : (scratch.bind fun nodeAllocator =>
      ((PageUse.start .aarch32 nodeAllocator).perform .aarch32 (slabNodes .aarch32)
        (.add ⟨0, 4⟩)).bind fun added =>
      (added.perform .aarch32 (slabNodes .aarch32) (.allocate 1 .Page)).map fun use =>
        (nodeAllocator.numSlabs, added.backend.listed.map RegionNode.contents,
          use.backend.freeLists.map (List.map RegionNode.contents))) =
      some (256, [⟨0, 4⟩], [[⟨1, 1⟩], [⟨2, 2⟩]] ++ List.replicate 19 []) := by
    decide +kernel
  rcases Option.bind_eq_some_iff.mp ran with ⟨nodeAllocator, stocked, rest⟩
  rcases Option.bind_eq_some_iff.mp rest with ⟨added, adds, last⟩
  rcases Option.map_eq_some_iff.mp last with ⟨use, allocates, facts⟩
  simp only [Prod.mk.injEq] at facts
  rcases facts with ⟨slabs, regions, lists⟩
  have idle := BrokerUse.slabHolds_start BrokerUse.addable_small BrokerUse.served_small stocked
  rw [slabs] at idle
  have first : Step .aarch32 (slabNodes .aarch32) few (some (PageUse.start .aarch32 nodeAllocator))
      (.add ⟨0, 4⟩) (some added) :=
    step_add (by decide) (by decide) (fun _ within => Nat.lt_of_le_of_lt within (by decide)) adds
  have fits : Fits .aarch32 (some added) (.allocate 1 .Page) := by
    intro same' same
    cases Option.some.inj same
    refine ⟨by decide +kernel, fun node aligned search power => ?_⟩
    have one : 1 = aligned := Option.some.inj power
    have member : node.contents ∈ added.backend.listed.map RegionNode.contents := by
      rcases findNode_spec search with ⟨_, _, list, _, here, member⟩
      exact List.mem_map_of_mem (List.mem_flatten.mpr ⟨list, List.mem_of_getElem? here, member⟩)
    rw [regions, List.mem_singleton] at member
    rw [← one, member]
    unfold Halvable
    decide +kernel
  have second : Step .aarch32 (slabNodes .aarch32) few (some added) (.allocate 1 .Page) (some use) := by
    refine ⟨added, rfl, trivial, fun nodes within => ?_, allocates⟩
    rw [← List.length_map RegionNode.contents, regions] at within
    exact Nat.lt_of_le_of_lt within (by decide)
  refine ⟨nodeAllocator, use, stocked, ?_, lists⟩
  apply (nodes_filed_iff (BrokerUse.provides_cells .aarch32 256) idle).1
  exact .tail (.tail .refl ⟨fun _ _ => trivial, first⟩) ⟨fits, second⟩

/-- Three pages are halved into one and two for one page, and the two are put on the list
for one.  For three pages, which are rounded up to four, the counter passes zero. -/
theorem two_pages_misfiled : Exists fun nodeAllocator => Exists fun added => Exists fun use =>
    scratch = some nodeAllocator ∧
    Reaches (Step .aarch32 (slabNodes .aarch32) fun _ => True)
      (some (PageUse.start .aarch32 nodeAllocator)) [.add ⟨0, 3⟩] (some added) ∧
    Step .aarch32 (slabNodes .aarch32) (fun _ => True) (some added) (.allocate 1 .Page) (some use) ∧
    use.backend.freeLists[0]?.map (List.map RegionNode.contents) = some [⟨1, 2⟩] ∧
    ¬ Filed .aarch32 use.backend.freeLists ∧
    Step .aarch32 (slabNodes .aarch32) (fun _ => True) (some added) (.allocate 3 .Page) none := by
  have ran : (scratch.bind fun nodeAllocator =>
      ((PageUse.start .aarch32 nodeAllocator).perform .aarch32 (slabNodes .aarch32)
        (.add ⟨0, 3⟩)).bind fun added =>
      (added.perform .aarch32 (slabNodes .aarch32) (.allocate 1 .Page)).map fun use =>
        (use.backend.freeLists[0]?.map (List.map RegionNode.contents),
          (added.perform .aarch32 (slabNodes .aarch32) (.allocate 3 .Page)).isNone)) =
      some (some [⟨1, 2⟩], true) := by
    decide +kernel
  rcases Option.bind_eq_some_iff.mp ran with ⟨nodeAllocator, stocked, rest⟩
  rcases Option.bind_eq_some_iff.mp rest with ⟨added, adds, last⟩
  rcases Option.map_eq_some_iff.mp last with ⟨use, allocates, facts⟩
  simp only [Prod.mk.injEq] at facts
  rcases facts with ⟨misfiled, falls⟩
  have first : Step .aarch32 (slabNodes .aarch32) (fun _ => True)
      (some (PageUse.start .aarch32 nodeAllocator)) (.add ⟨0, 3⟩) (some added) :=
    step_add (by decide) (by decide) (fun _ _ => trivial) adds
  refine ⟨nodeAllocator, added, use, stocked, .tail .refl first,
    ⟨added, rfl, trivial, fun _ _ => trivial, allocates⟩, misfiled, fun filed => ?_,
    ⟨added, rfl, trivial, fun _ _ => trivial, Option.isNone_iff_eq_none.mp falls⟩⟩
  rcases Option.map_eq_some_iff.mp misfiled with ⟨list, here, contents⟩
  have member : (⟨1, 2⟩ : PageRegion) ∈ list.map RegionNode.contents := by
    rw [contents]
    exact List.mem_singleton_self _
  rcases List.mem_map.mp member with ⟨node, inside, two⟩
  have sorted := filed 0 list node here inside
  rw [two] at sorted
  exact absurd sorted (by decide +kernel)

end Filing

end Pine
end Pinyon
