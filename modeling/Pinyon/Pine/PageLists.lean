import Pinyon.Pine.PageAllocator

namespace Pinyon
namespace Pine

open Library

/-!
# The lists of free regions

List number `depth` holds natural regions of `2 ^ depth` pages.  What every
operation does to the lists is a repacking of the regions that are on them and
the one that is in its hands, whether or not there was a node for each half.
-/

/-! ## Powers of two -/

theorem log2_two_pow (exponent : Nat) : (2 ^ exponent).log2 = exponent :=
  Nat.log2_eq_iff (Nat.ne_of_gt (Nat.two_pow_pos _)) |>.mpr
    ⟨Nat.le_refl _, Nat.pow_lt_pow_right (by decide) (Nat.lt_succ_self _)⟩

theorem depthFromPageLength_eq_log2 {target : Target} {numPages : Nat}
    (isWord : numPages < target.wordLimit) (nonzero : numPages ≠ 0) :
    depthFromPageLength target numPages = numPages.log2 := by
  rw [depthFromPageLength, if_neg nonzero, bitWidth_eq isWord nonzero, Nat.add_sub_cancel]

theorem depthFromPageLength_lt_iff {target : Target} {numPages : Nat}
    (isWord : numPages < target.wordLimit) (depth : Nat) :
    depthFromPageLength target numPages < depth + 1 <-> numPages < 2 ^ (depth + 1) := by
  by_cases zero : numPages = 0
  · rw [depthFromPageLength, if_pos zero, zero]
    exact iff_of_true (Nat.succ_pos depth) (Nat.two_pow_pos _)
  · rw [depthFromPageLength_eq_log2 isWord zero]
    exact Nat.log2_lt zero

theorem depthFromPageLength_two_pow {target : Target} {depth : Nat} (small : depth < target.wordWidth) :
    depthFromPageLength target (2 ^ depth) = depth := by
  rw [depthFromPageLength_eq_log2 (Nat.pow_lt_pow_right (by decide) small)
    (Nat.ne_of_gt (Nat.two_pow_pos _)), log2_two_pow]

/-- The depth that a search starts at holds no region longer than it has to. -/
theorem two_pow_depthFromPageLength_le {target : Target} {numPages length : Nat}
    (small : length < target.wordLimit) (positive : 0 < length) (fits : numPages ≤ length) :
    2 ^ depthFromPageLength target numPages ≤ length := by
  by_cases zero : numPages = 0
  · rw [depthFromPageLength, if_pos zero]
    exact positive
  · rw [depthFromPageLength_eq_log2 (Nat.lt_of_le_of_lt fits small) zero]
    exact Nat.le_trans (Nat.log2_self_le zero) fits

/-- Rounding up to a power of two, which is done with a 32-bit one. -/
theorem alignUpToPower_spec {target : Target} {value : Nat} (small : value < 2 ^ 32)
    (word : value ≤ 2 ^ (target.wordWidth - 1)) :
    Exists fun exponent => alignUpToPower target.wordWidth value = some (2 ^ exponent) ∧
      exponent < target.wordWidth ∧ forall depth, value ≤ 2 ^ depth <-> exponent ≤ depth := by
  have wide : 32 ≤ target.wordWidth := by cases target <;> decide
  by_cases zero : value = 0
  · exact ⟨0, by rw [alignUpToPower, if_pos zero]; rfl, by omega, by simp [zero]⟩
  · have fits : value < 2 ^ target.wordWidth :=
      Nat.lt_of_le_of_lt word (Nat.pow_lt_pow_right (by decide) (by omega))
    have above : value < 2 ^ (value.log2 + 1) := Nat.lt_log2_self
    have up := alignUpToPower_eq fits zero small
    have below : 2 ^ value.log2 ≤ value := Nat.log2_self_le zero
    by_cases same : 2 ^ value.log2 = value
    · rw [if_pos same] at up
      refine ⟨value.log2, ?_, ?_, fun depth => ?_⟩
      · rw [up, same]
      · exact (Nat.log2_lt zero).mpr fits
      · rw [← same, log2_two_pow]
        exact Nat.pow_le_pow_iff_right (by decide)
    · have strict : 2 ^ value.log2 < 2 ^ (target.wordWidth - 1) := by omega
      have room : value.log2 < target.wordWidth - 1 := (Nat.pow_lt_pow_iff_right (by decide)).mp strict
      have isWord : 2 ^ (value.log2 + 1) < 2 ^ target.wordWidth :=
        Nat.pow_lt_pow_right (by decide) (by omega)
      rw [if_neg same, Nat.mod_eq_of_lt isWord] at up
      refine ⟨value.log2 + 1, up, by omega, fun depth => ?_⟩
      · constructor
        · intro within
          have strict : 2 ^ value.log2 < 2 ^ depth := by omega
          exact (Nat.pow_lt_pow_iff_right (by decide)).mp strict
        · intro deep
          exact Nat.le_trans (Nat.le_of_lt above) (Nat.pow_le_pow_right (by decide) deep)

/-! ## Lists -/

theorem distance_eq_zero {Content : Type} (list : List Content) : distance list = 0 := by
  induction list with
  | nil => rfl
  | cons _ rest inductionHypothesis => exact inductionHypothesis

/-- The search for the place of a node ends where it starts. -/
theorem lowerBound_eq_zero {Content : Type} (compare : Content -> Bool) (list : List Content) :
    lowerBound compare list = 0 := by
  rw [lowerBound, distance_eq_zero]
  rfl

theorem insertAfter_perm {Content : Type} (list : List Content) (position : Nat) (new : Content) :
    (insertAfter list position new).Perm (new :: list) := by
  have whole := List.take_append_drop (position + 1) list
  calc
    (list.take (position + 1) ++ new :: list.drop (position + 1)).Perm
        (new :: (list.take (position + 1) ++ list.drop (position + 1))) := List.perm_middle
    _ = new :: list := by rw [whole]

/-- One list of many is replaced. -/
theorem flatten_set_perm {Content : Type} {lists : List (List Content)} {depth : Nat}
    {old : List Content} (here : lists[depth]? = some old) (new : List Content) :
    ((lists.set depth new).flatten ++ old).Perm (lists.flatten ++ new) := by
  induction lists generalizing depth with
  | nil => exact absurd here (by simp)
  | cons first rest inductionHypothesis =>
      cases depth with
      | zero =>
          rw [List.getElem?_cons_zero] at here
          cases Option.some.inj here
          rw [List.set_cons_zero, List.flatten_cons, List.flatten_cons, List.append_assoc]
          calc
            (new ++ (rest.flatten ++ old)).Perm ((rest.flatten ++ old) ++ new) := List.perm_append_comm
            List.Perm _ ((old ++ rest.flatten) ++ new) := List.perm_append_comm.append_right new
      | succ depth =>
          rw [List.getElem?_cons_succ] at here
          simp only [List.set_cons_succ, List.flatten_cons, List.append_assoc]
          exact (inductionHypothesis here).append_left first

/-- The lists hold natural regions of their depth, none deeper than a limit. -/
structure Tidy (target : Target) (limit : Nat) (lists : List (List RegionNode)) : Prop where
  length : lists.length = maxDepth target
  natural : forall depth list node, lists[depth]? = some list -> node ∈ list ->
    depth ≤ limit ∧ Natural target depth node.contents

namespace Tidy

variable {target : Target} {limit depth : Nat} {lists : List (List RegionNode)}
variable {list : List RegionNode}

theorem list_of_lt (tidy : Tidy target limit lists) (small : depth < maxDepth target) :
    Exists fun list => lists[depth]? = some list :=
  ⟨_, List.getElem?_eq_getElem (by rw [tidy.length]; exact small)⟩

theorem set (tidy : Tidy target limit lists) {new : List RegionNode}
    (natural : forall node, node ∈ new -> depth ≤ limit ∧ Natural target depth node.contents) :
    Tidy target limit (lists.set depth new) where
  length := by rw [List.length_set, tidy.length]
  natural := by
    intro depth' list' node here member
    rw [List.getElem?_set] at here
    by_cases same : depth = depth'
    · subst same
      rw [if_pos rfl] at here
      split at here
      · cases Option.some.inj here
        exact natural node member
      · exact absurd here (by simp)
    · rw [if_neg same] at here
      exact tidy.natural depth' list' node here member

end Tidy

namespace PageAllocatorBackend

variable {State : Type} {target : Target} {limit depth endDepth finalDepth numPages : Nat}
variable {nodes : NodeAllocator State} {backend after : PageAllocatorBackend State}
variable {node : RegionNode} {list : List RegionNode} {region final : PageRegion}

/-- The pages of the regions on the lists. -/
def blocks (backend : PageAllocatorBackend State) : List (Set Nat) :=
  backend.listed.map fun node => node.contents.pages

/-- A node goes onto a list, whatever is on it. -/
theorem insertNode_inserts (here : backend.freeLists[depth]? = some list) (node : RegionNode) :
    Exists fun after => backend.insertNode depth node = some after ∧
      after.nodeAllocator = backend.nodeAllocator ∧
      after.freeLists = backend.freeLists.set depth (insertAfter list 0 node) ∧
      after.listed.Perm (node :: backend.listed) := by
  have order : lowerBound (fun other => other.contents.greater node.contents) list = 0 :=
    lowerBound_eq_zero _ _
  refine ⟨{ backend with freeLists := backend.freeLists.set depth (insertAfter list 0 node) }, ?_,
    rfl, rfl, ?_⟩
  · rw [insertNode, here]
    simp only [Option.bind_eq_bind, Option.bind_some, order]
    rfl
  · refine (List.perm_append_right_iff list).mp ?_
    calc
      List.Perm _ (backend.listed ++ insertAfter list 0 node) := flatten_set_perm here _
      List.Perm _ (backend.listed ++ node :: list) := (insertAfter_perm list 0 node).append_left _
      List.Perm _ ((node :: backend.listed) ++ list) := List.perm_middle

theorem insertNode_spec (tidy : Tidy target limit backend.freeLists)
    (within : depth < maxDepth target) (bounded : depth ≤ limit)
    (natural : Natural target depth node.contents) :
    Exists fun after => backend.insertNode depth node = some after ∧
      after.nodeAllocator = backend.nodeAllocator ∧ Tidy target limit after.freeLists ∧
      after.listed.Perm (node :: backend.listed) := by
  rcases tidy.list_of_lt within with ⟨list, here⟩
  rcases insertNode_inserts here node with ⟨after, inserted, same, lists, listedPerm⟩
  refine ⟨after, inserted, same, ?_, listedPerm⟩
  rw [lists]
  refine tidy.set fun other member => ?_
  rcases List.mem_cons.mp ((insertAfter_perm list 0 node).mem_iff.mp member) with same | old
  · rw [same]
    exact ⟨bounded, natural⟩
  · exact tidy.natural depth list other here old

/-- A node leaves the list that it is found on. -/
theorem removeNode_cases (removed : backend.removeNode target nodes depth node = some after) :
    Exists fun list => backend.freeLists[depth]? = some list ∧ node ∈ list ∧
      after.freeLists = backend.freeLists.set depth (list.erase node) ∧
      backend.listed.Perm (node :: after.listed) ∧
      nodes.free backend.nodeAllocator ⟨node.address, regionNodeSize target⟩ =
        some after.nodeAllocator := by
  rcases Option.bind_eq_some_iff.mp removed with ⟨list, here, rest⟩
  by_cases member : node ∈ list
  · rw [if_pos member] at rest
    rcases Option.bind_eq_some_iff.mp rest with ⟨nodeAllocator, freed, result⟩
    cases Option.some.inj result
    refine ⟨list, here, member, rfl, ?_, freed⟩
    refine (List.perm_append_right_iff (list.erase node)).mp ?_
    have moved := flatten_set_perm here (list.erase node)
    calc
      List.Perm _ ((backend.freeLists.set depth (list.erase node)).flatten ++ list) :=
        moved.symm
      List.Perm _ ((backend.freeLists.set depth (list.erase node)).flatten ++
          node :: list.erase node) := (List.perm_cons_erase member).append_left _
      List.Perm _ (node :: (backend.freeLists.set depth (list.erase node)).flatten ++
          list.erase node) := List.perm_middle
  · rw [if_neg member] at rest
    cases rest

/-- A node is found on the list of its depth. -/
theorem removeNode_spec (tidy : Tidy target limit backend.freeLists)
    (removed : backend.removeNode target nodes depth node = some after) :
    Tidy target limit after.freeLists ∧ backend.listed.Perm (node :: after.listed) ∧
      nodes.free backend.nodeAllocator ⟨node.address, regionNodeSize target⟩ =
        some after.nodeAllocator := by
  rcases removeNode_cases removed with ⟨list, here, member, lists, listedPerm, freed⟩
  refine ⟨?_, listedPerm, freed⟩
  rw [lists]
  exact tidy.set fun other old => tidy.natural depth list other here (List.mem_of_mem_erase old)

/-- Creating a node does not touch the lists. -/
theorem createNode_spec {answer : Nat × Option RegionNode}
    (created : backend.createNode target nodes region = some (answer, after)) :
    after.freeLists = backend.freeLists ∧ forall node, answer.2 = some node ->
      node.contents = region ∧ answer.1 = depthFromPageLength target region.length := by
  unfold createNode at created
  cases allocated : nodes.allocate backend.nodeAllocator with
  | none => simp [allocated] at created
  | some reply =>
      simp only [allocated, Option.bind_eq_bind, Option.bind_some] at created
      split at created
      · cases Option.some.inj created
        exact ⟨rfl, fun node wrong => absurd wrong (by simp)⟩
      · split at created
        · exact absurd created (by simp)
        · cases Option.some.inj created
          exact ⟨rfl, fun node same => by cases Option.some.inj same; exact ⟨rfl, rfl⟩⟩

/-- There is no node just when there is no storage for it. -/
theorem createNode_none_iff {answer : Nat × Option RegionNode}
    (created : backend.createNode target nodes region = some (answer, after)) :
    answer.2 = none <-> nodes.refuses backend.nodeAllocator = true := by
  unfold createNode at created
  rw [NodeAllocator.refuses]
  cases allocated : nodes.allocate backend.nodeAllocator with
  | none => simp [allocated] at created
  | some reply =>
      simp only [allocated, Option.bind_eq_bind, Option.bind_some] at created
      rw [Option.any_some, beq_iff_eq]
      split at created
      next null =>
        cases Option.some.inj created
        exact ⟨fun _ => null, fun _ => rfl⟩
      next present =>
        split at created
        · exact absurd created (by simp)
        · cases Option.some.inj created
          exact ⟨fun wrong => absurd wrong (by simp), fun null => absurd null present⟩

/-! ## Halving -/

/-- A rule by which a region of a depth is divided in two. -/
def Halves (target : Target) (keep : PageRegion -> Option (PageRegion × PageRegion)) : Prop :=
  forall depth region kept other, Natural target (depth + 1) region ->
    keep region = some (kept, other) ->
      Natural target depth kept ∧ Natural target depth other ∧
        Disjoint kept.pages other.pages ∧ kept.pages ∪ other.pages = region.pages

theorem halves_keepLeft (target : Target) : Halves target (keepLeft target) := by
  intro depth region kept other natural kept_eq
  rw [keepLeft] at kept_eq
  have same := Option.some.inj kept_eq
  have halves := natural.halve
  have pages := natural.halve_pages
  rw [same] at halves pages
  exact ⟨halves.1, halves.2, pages⟩

theorem alignedTo_of_keepLeft {kept other : PageRegion} {alignment : Nat}
    (suits : region.alignedTo alignment = true) (kept_eq : keepLeft target region = some (kept, other)) :
    kept.alignedTo alignment = true := by
  cases Option.some.inj kept_eq
  exact suits

theorem halves_keepContaining (target : Target) (minRegion : PageRegion) :
    Halves target (keepContaining target minRegion) := by
  intro depth region kept other natural kept_eq
  have halves := natural.halve
  have pages := natural.halve_pages
  unfold keepContaining at kept_eq
  dsimp only at kept_eq
  split at kept_eq
  · cases Option.some.inj kept_eq
    exact ⟨halves.1, halves.2, pages⟩
  · split at kept_eq
    · cases Option.some.inj kept_eq
      exact ⟨halves.2, halves.1, pages.1.symm, (Set.union_comm _ _).trans pages.2⟩
    · exact absurd kept_eq (by simp)

theorem keepContaining_eq_none {minRegion : PageRegion} :
    keepContaining target minRegion region = none <->
      (region.halve target).1.contains target minRegion = false ∧
        (region.halve target).2.contains target minRegion = false := by
  unfold keepContaining
  dsimp only
  cases (region.halve target).1.contains target minRegion <;>
    cases (region.halve target).2.contains target minRegion <;> simp

theorem contains_of_keepContaining {minRegion kept other : PageRegion}
    (kept_eq : keepContaining target minRegion region = some (kept, other)) :
    kept.contains target minRegion = true := by
  unfold keepContaining at kept_eq
  dsimp only at kept_eq
  split at kept_eq
  · cases Option.some.inj kept_eq
    assumption
  · split at kept_eq
    · cases Option.some.inj kept_eq
      assumption
    · exact absurd kept_eq (by simp)

/-- The loop at depth zero stops, or there is no node for the half that it puts aside. -/
theorem trimLoop_zero_cases {keep : PageRegion -> Option (PageRegion × PageRegion)}
    (trimmed : trimLoop target nodes keep endDepth 0 backend region =
      some (final, finalDepth, after)) :
    ((endDepth = 0 ∨ keep region = none) ∧ final = region ∧ finalDepth = 0 ∧ after = backend) ∨
      Exists fun kept => Exists fun other => Exists fun number =>
        endDepth ≠ 0 ∧ keep region = some (kept, other) ∧
        backend.createNode target nodes other = some ((number, none), after) ∧
        final = region ∧ finalDepth = 2 ^ 32 - 1 := by
  rw [trimLoop] at trimmed
  by_cases done : endDepth = 0
  · rw [if_pos done] at trimmed
    cases Option.some.inj trimmed
    exact .inl ⟨.inl done, rfl, rfl, rfl⟩
  · rw [if_neg done] at trimmed
    cases kept_eq : keep region with
    | none =>
        rw [kept_eq] at trimmed
        cases Option.some.inj trimmed
        exact .inl ⟨.inr rfl, rfl, rfl, rfl⟩
    | some parts =>
        rcases parts with ⟨kept, other⟩
        simp only [kept_eq] at trimmed
        rcases Option.bind_eq_some_iff.mp trimmed with ⟨⟨⟨number, answer⟩, middle⟩, created, rest⟩
        cases answer with
        | none =>
            cases Option.some.inj rest
            exact .inr ⟨kept, other, number, done, rfl, created, rfl, rfl⟩
        | some node => cases rest

/-- At any other depth the loop stops, is out of nodes, or goes on with the half that is
kept, once the other is on the list below. -/
theorem trimLoop_succ_cases {keep : PageRegion -> Option (PageRegion × PageRegion)}
    (trimmed : trimLoop target nodes keep endDepth (depth + 1) backend region =
      some (final, finalDepth, after)) :
    ((endDepth = depth + 1 ∨ keep region = none) ∧
        final = region ∧ finalDepth = depth + 1 ∧ after = backend) ∨
      Exists fun kept => Exists fun other =>
        endDepth ≠ depth + 1 ∧ keep region = some (kept, other) ∧
        ((Exists fun number =>
            backend.createNode target nodes other = some ((number, none), after) ∧
            final = region ∧ finalDepth = depth) ∨
          Exists fun number => Exists fun node => Exists fun middle => Exists fun inserted =>
            backend.createNode target nodes other = some ((number, some node), middle) ∧
            middle.insertNode depth node = some inserted ∧
            trimLoop target nodes keep endDepth depth inserted kept =
              some (final, finalDepth, after)) := by
  rw [trimLoop] at trimmed
  by_cases done : endDepth = depth + 1
  · rw [if_pos done] at trimmed
    cases Option.some.inj trimmed
    exact .inl ⟨.inl done, rfl, rfl, rfl⟩
  · rw [if_neg done] at trimmed
    cases kept_eq : keep region with
    | none =>
        rw [kept_eq] at trimmed
        cases Option.some.inj trimmed
        exact .inl ⟨.inr rfl, rfl, rfl, rfl⟩
    | some parts =>
        rcases parts with ⟨kept, other⟩
        simp only [kept_eq] at trimmed
        rcases Option.bind_eq_some_iff.mp trimmed with ⟨⟨⟨number, answer⟩, middle⟩, created, rest⟩
        cases answer with
        | none =>
            cases Option.some.inj rest
            exact .inr ⟨kept, other, done, rfl, .inl ⟨number, created, rfl, rfl⟩⟩
        | some node =>
            rcases Option.bind_eq_some_iff.mp rest with ⟨inserted, placed, later⟩
            exact .inr
              ⟨kept, other, done, rfl, .inr ⟨number, node, middle, inserted, created, placed, later⟩⟩

/-- Wherever the halving stops, the region that remains and the lists divide
what they held before. -/
theorem trimLoop_spec {keep : PageRegion -> Option (PageRegion × PageRegion)}
    (halves : Halves target keep) (tidy : Tidy target limit backend.freeLists)
    (natural : Natural target depth region) (bounded : depth ≤ limit)
    (deep : limit < maxDepth target) (ends : endDepth ≤ depth)
    (trimmed : trimLoop target nodes keep endDepth depth backend region =
      some (final, finalDepth, after)) :
    Tidy target limit after.freeLists ∧
      (Exists fun actual => actual ≤ limit ∧ Natural target actual final) ∧
      Repacks (region.pages :: backend.blocks) (final.pages :: after.blocks) := by
  induction depth generalizing backend region with
  | zero =>
      rcases trimLoop_zero_cases trimmed with ⟨_, rfl, _, rfl⟩ | ⟨_, _, _, further, _⟩
      · exact ⟨tidy, ⟨0, bounded, natural⟩, .refl _⟩
      · exact absurd (Nat.le_zero.mp ends) further
  | succ depth inductionHypothesis =>
      have still : Exists fun actual => actual ≤ limit ∧ Natural target actual region :=
        ⟨depth + 1, bounded, natural⟩
      rcases trimLoop_succ_cases trimmed with ⟨_, rfl, _, rfl⟩ |
        ⟨kept, other, done, kept_eq, ⟨_, created, rfl, _⟩ |
          ⟨_, node, middle, inserted, created, placed, later⟩⟩
      · exact ⟨tidy, still, .refl _⟩
      · have sameLists := (createNode_spec created).1
        rw [blocks, blocks, listed, listed, sameLists]
        exact ⟨tidy, still, .refl _⟩
      · rcases halves depth region kept other natural kept_eq with
          ⟨keptNatural, otherNatural, apart, whole⟩
        rcases createNode_spec created with ⟨sameLists, contents⟩
        have content : node.contents = other := (contents node rfl).1
        have tidyMiddle : Tidy target limit middle.freeLists := by
          rw [sameLists]
          exact tidy
        rcases insertNode_spec tidyMiddle (by omega) (by omega) (content ▸ otherNatural) with
          ⟨inserted', placed', _, tidyInserted, listedPerm⟩
        cases placed.symm.trans placed'
        rcases inductionHypothesis tidyInserted keptNatural (by omega) (by omega) later with
          ⟨tidyAfter, natural', repacks⟩
        refine ⟨tidyAfter, natural', .trans ?_ repacks⟩
        have sameBlocks : middle.blocks = backend.blocks := by
          rw [blocks, blocks, listed, listed, sameLists]
        have blocksPerm : inserted.blocks.Perm (other.pages :: backend.blocks) := by
          rw [← sameBlocks, ← content]
          exact listedPerm.map _
        exact (Repacks.split apart whole).trans (.of_perm (blocksPerm.symm.cons kept.pages))

/-! ## Handing out and taking back -/

theorem findNode_spec {suits : PageRegion -> Bool}
    (found : backend.findNode target depth suits = some (some node)) :
    suits node.contents = true ∧ Exists fun actual => Exists fun list =>
      depth ≤ actual ∧ backend.freeLists[actual]? = some list ∧ node ∈ list := by
  unfold findNode at found
  split at found
  · have search := Option.some.inj found
    have suitable := List.find?_some search
    rcases List.mem_flatten.mp (List.mem_of_find?_eq_some search) with ⟨list, inside, member⟩
    rcases List.mem_iff_getElem?.mp inside with ⟨index, here⟩
    rw [List.getElem?_drop] at here
    exact ⟨suitable, depth + index, list, Nat.le_add_right _ _, here, member⟩
  · exact absurd found (by simp)

/-- A list deep enough to hold what is asked for is searched. -/
theorem findNode_of_member {suits : PageRegion -> Bool} (tidy : Tidy target limit backend.freeLists)
    (deep : limit < maxDepth target) (member : node ∈ backend.listed)
    (suitable : suits node.contents = true) (long : 2 ^ depth ≤ node.contents.length) :
    Exists fun found => backend.findNode target depth suits = some (some found) := by
  rcases List.mem_flatten.mp member with ⟨list, inside, here⟩
  rcases List.mem_iff_getElem?.mp inside with ⟨actual, listed⟩
  rcases tidy.natural actual list node listed here with ⟨bounded, natural⟩
  rw [natural.length] at long
  have reached : depth ≤ actual := (Nat.pow_le_pow_iff_right (by decide)).mp long
  have searched : node ∈ (backend.freeLists.drop depth).flatten := by
    refine List.mem_flatten.mpr ⟨list, List.mem_iff_getElem?.mpr ⟨actual - depth, ?_⟩, here⟩
    rw [List.getElem?_drop, Nat.add_sub_cancel' reached]
    exact listed
  have search : ((backend.freeLists.drop depth).flatten.find? fun node =>
      suits node.contents).isSome = true := List.find?_isSome.mpr ⟨node, searched, suitable⟩
  rcases Option.isSome_iff_exists.mp search with ⟨found, here⟩
  exact ⟨found, by rw [findNode, if_pos (by omega), here]⟩

/-- Nothing is handed out, or a region that was part of one on the lists. -/
structure HandsOut (target : Target) (limit : Nat) (before : PageAllocatorBackend State)
    (brokered : BrokeredAllocation) (after : PageAllocatorBackend State) : Prop where
  tidy : Tidy target limit after.freeLists
  outcome : brokered = {} ∧ after = before ∨ Exists fun actual => Exists fun final =>
    actual ≤ limit ∧ Natural target actual final ∧
      brokered.asAllocation = final.allocation target ∧
      Repacks before.blocks (final.pages :: after.blocks)

/-- A node that was found leaves its list and is halved. -/
theorem trimmed_spec {keep : PageRegion -> Option (PageRegion × PageRegion)}
    (halves : Halves target keep) (tidy : Tidy target limit backend.freeLists)
    (deep : limit < maxDepth target) (here : backend.freeLists[depth]? = some list)
    (member : node ∈ list) (ends : endDepth ≤ depth) {middle : PageAllocatorBackend State}
    (removed : backend.removeNode target nodes depth node = some middle)
    (trimmed : trimLoop target nodes keep endDepth depth middle node.contents =
      some (final, finalDepth, after)) (numSplits : Nat) :
    HandsOut target limit backend (broker target final numSplits) after := by
  rcases tidy.natural depth list node here member with ⟨bounded, natural⟩
  rcases removeNode_spec tidy removed with ⟨tidyMiddle, listedPerm, _⟩
  rcases trimLoop_spec halves tidyMiddle natural bounded deep ends trimmed with
    ⟨tidyAfter, ⟨actual, actualBounded, actualNatural⟩, repacks⟩
  refine ⟨tidyAfter, .inr ⟨actual, final, actualBounded, actualNatural, rfl, ?_⟩⟩
  have blocksPerm : backend.blocks.Perm (node.contents.pages :: middle.blocks) :=
    listedPerm.map fun node : RegionNode => node.contents.pages
  exact (Repacks.of_perm blocksPerm).trans repacks

theorem maxDepth_lt_wordWidth (target : Target) : maxDepth target < target.wordWidth := by
  cases target <;> decide

/-- The list on which a node was found is the one for its length. -/
theorem depth_eq (tidy : Tidy target limit backend.freeLists) (deep : limit < maxDepth target)
    (here : backend.freeLists[depth]? = some list) (member : node ∈ list) :
    depthFromPageLength target node.contents.length = depth := by
  rcases tidy.natural depth list node here member with ⟨bounded, natural⟩
  have narrow := maxDepth_lt_wordWidth target
  rw [natural.length]
  exact depthFromPageLength_two_pow (by omega)

/-- A node leaves the list for its length, and its region is halved. -/
def Trims (target : Target) (nodes : NodeAllocator State)
    (keep : PageRegion -> Option (PageRegion × PageRegion)) (endDepth : Nat)
    (backend : PageAllocatorBackend State) (node : RegionNode) (final : PageRegion)
    (finalDepth : Nat) (after : PageAllocatorBackend State) : Prop :=
  Exists fun middle =>
    backend.removeNode target nodes (depthFromPageLength target node.contents.length) node =
      some middle ∧
    trimLoop target nodes keep endDepth (depthFromPageLength target node.contents.length) middle
      node.contents = some (final, finalDepth, after)

/-- An allocation that returns has found nothing, or a node whose region it halved. -/
theorem allocate_cases {pageAlignment : PageAlignmentLevel} {brokered : BrokeredAllocation}
    (allocated : backend.allocate target nodes numPages pageAlignment = some (brokered, after)) :
    backend.findFreePages target numPages pageAlignment = some none ∧ brokered = {} ∧
        after = backend ∨
      Exists fun node => Exists fun aligned => Exists fun final => Exists fun finalDepth =>
        backend.findFreePages target numPages pageAlignment = some (some node) ∧
        alignUpToPower target.wordWidth numPages = some aligned ∧
        Trims target nodes (keepLeft target) (depthFromPageLength target aligned) backend node final
          finalDepth after ∧
        brokered = broker target final
          (allocationCost target (depthFromPageLength target node.contents.length) finalDepth) := by
  rcases Option.bind_eq_some_iff.mp allocated with ⟨found, search, rest⟩
  cases found with
  | none =>
      cases Option.some.inj rest
      exact .inl ⟨search, rfl, rfl⟩
  | some node =>
      rcases Option.bind_eq_some_iff.mp rest with ⟨⟨⟨region, cost⟩, last⟩, ran, given⟩
      cases Option.some.inj given
      rcases Option.bind_eq_some_iff.mp ran with ⟨middle, removed, aligning⟩
      rcases Option.bind_eq_some_iff.mp aligning with ⟨aligned, power, trimming⟩
      rcases Option.bind_eq_some_iff.mp trimming with ⟨⟨final, finalDepth, after⟩, trimmed, result⟩
      cases Option.some.inj result
      exact .inr ⟨node, aligned, _, finalDepth, search, power, ⟨middle, removed, trimmed⟩, rfl⟩

theorem reserveRegion_cases {brokered : BrokeredAllocation}
    (reserved : backend.reserveRegion target nodes region = some (brokered, after)) :
    backend.findFreeRegion target region = some none ∧ brokered = {} ∧ after = backend ∨
      Exists fun node => Exists fun final => Exists fun finalDepth =>
        backend.findFreeRegion target region = some (some node) ∧
        Trims target nodes (keepContaining target region)
          (depthFromPageLength target region.length) backend node final finalDepth after ∧
        brokered = broker target final
          (allocationCost target (depthFromPageLength target region.length) finalDepth) := by
  rcases Option.bind_eq_some_iff.mp reserved with ⟨found, search, rest⟩
  cases found with
  | none =>
      cases Option.some.inj rest
      exact .inl ⟨search, rfl, rfl⟩
  | some node =>
      rcases Option.bind_eq_some_iff.mp rest with ⟨⟨⟨whole, cost⟩, last⟩, ran, given⟩
      cases Option.some.inj given
      rcases Option.bind_eq_some_iff.mp ran with ⟨middle, removed, trimming⟩
      rcases Option.bind_eq_some_iff.mp trimming with ⟨⟨final, finalDepth, after⟩, trimmed, result⟩
      cases Option.some.inj result
      exact .inr ⟨node, _, finalDepth, search, ⟨middle, removed, trimmed⟩, rfl⟩

/-- The node that a search for pages finds is long enough for its list to be deep enough. -/
theorem depth_of_found {pageAlignment : PageAlignmentLevel} {aligned : Nat}
    (tidy : Tidy target limit backend.freeLists) (small : numPages < 2 ^ 32)
    (search : backend.findFreePages target numPages pageAlignment = some (some node))
    (power : alignUpToPower target.wordWidth numPages = some aligned) :
    Exists fun depth => Exists fun list => Exists fun exponent =>
      backend.freeLists[depth]? = some list ∧ node ∈ list ∧ aligned = 2 ^ exponent ∧
      depthFromPageLength target aligned = exponent ∧ exponent ≤ depth ∧
      node.contents.alignedTo pageAlignment.toNat = true ∧
      forall depth, numPages ≤ 2 ^ depth <-> exponent ≤ depth := by
  rcases findNode_spec search with ⟨suits, depth, list, _, here, member⟩
  rcases tidy.natural depth list node here member with ⟨bounded, natural⟩
  rw [Bool.and_eq_true, Region.fits, decide_eq_true_eq, natural.length] at suits
  rcases alignUpToPower_spec small (Nat.le_trans suits.1 natural.power_le) with
    ⟨exponent, isPower, narrow, covers⟩
  cases Option.some.inj (power.symm.trans isPower)
  exact ⟨depth, list, exponent, here, member, rfl, depthFromPageLength_two_pow narrow,
    (covers depth).mp suits.1, suits.2, covers⟩

theorem allocate_spec {pageAlignment : PageAlignmentLevel} {brokered : BrokeredAllocation}
    (tidy : Tidy target limit backend.freeLists) (deep : limit < maxDepth target)
    (small : numPages < 2 ^ 32)
    (allocated : backend.allocate target nodes numPages pageAlignment = some (brokered, after)) :
    HandsOut target limit backend brokered after := by
  rcases allocate_cases allocated with
    ⟨_, rfl, rfl⟩ | ⟨node, aligned, final, finalDepth, search, power, ⟨middle, removed, trimmed⟩, rfl⟩
  · exact ⟨tidy, .inl ⟨rfl, rfl⟩⟩
  · rcases depth_of_found tidy small search power with
      ⟨depth, list, exponent, here, member, _, exactly, ends, _, _⟩
    rw [depth_eq tidy deep here member] at removed trimmed
    rw [exactly] at trimmed
    exact trimmed_spec (halves_keepLeft target) tidy deep here member ends removed trimmed _

theorem reserveRegion_spec {brokered : BrokeredAllocation}
    (tidy : Tidy target limit backend.freeLists) (deep : limit < maxDepth target)
    (reserved : backend.reserveRegion target nodes region = some (brokered, after)) :
    HandsOut target limit backend brokered after := by
  rcases reserveRegion_cases reserved with
    ⟨_, rfl, rfl⟩ | ⟨node, final, finalDepth, search, ⟨middle, removed, trimmed⟩, rfl⟩
  · exact ⟨tidy, .inl ⟨rfl, rfl⟩⟩
  · rcases findNode_spec search with ⟨_, depth, list, ends, here, member⟩
    rw [depth_eq tidy deep here member] at removed trimmed
    exact trimmed_spec (halves_keepContaining target region) tidy deep here member ends removed
      trimmed _

/-- A region goes onto its list, unless there is no storage for its node. -/
theorem freeRegion_spec {cost : Nat} (tidy : Tidy target limit backend.freeLists)
    (deep : limit < maxDepth target) (bounded : depth ≤ limit) (natural : Natural target depth region)
    (freed : backend.freeRegion target nodes region = some (cost, after)) :
    Tidy target limit after.freeLists ∧
      (nodes.refuses backend.nodeAllocator = true ∧ after.freeLists = backend.freeLists ∨
        nodes.refuses backend.nodeAllocator = false ∧
          after.blocks.Perm (region.pages :: backend.blocks)) := by
  unfold freeRegion at freed
  have nonempty : region.length ≠ 0 := by
    rw [natural.length]
    exact Nat.ne_of_gt (Nat.two_pow_pos _)
  rw [if_neg nonempty] at freed
  cases created : backend.createNode target nodes region with
  | none => simp [created] at freed
  | some answer =>
      rcases answer with ⟨⟨number, node⟩, middle⟩
      rcases createNode_spec created with ⟨sameLists, contents⟩
      have refused := createNode_none_iff created
      have tidyMiddle : Tidy target limit middle.freeLists := by
        rw [sameLists]
        exact tidy
      simp only [created, Option.bind_eq_bind, Option.bind_some] at freed
      cases node with
      | none =>
          cases Option.some.inj freed
          exact ⟨tidyMiddle, .inl ⟨refused.mp rfl, sameLists⟩⟩
      | some node =>
          rcases contents node rfl with ⟨content, number_eq⟩
          have narrow := maxDepth_lt_wordWidth target
          have sorted : number = depth := by
            rw [natural.length] at number_eq
            exact number_eq.trans (depthFromPageLength_two_pow (by omega))
          have nodeNatural : Natural target depth node.contents := by
            rw [content]
            exact natural
          rcases insertNode_spec tidyMiddle (by omega) bounded nodeNatural with
            ⟨inserted, ran, _, tidyInserted, listedPerm⟩
          simp only [sorted, ran, Option.bind_some] at freed
          cases Option.some.inj freed
          have granted : nodes.refuses backend.nodeAllocator = false :=
            Bool.eq_false_iff.mpr fun wrong => absurd (refused.mpr wrong) (by simp)
          refine ⟨tidyInserted, .inr ⟨granted, ?_⟩⟩
          have blocksPerm : after.blocks.Perm (node.contents.pages :: middle.blocks) :=
            listedPerm.map fun node : RegionNode => node.contents.pages
          rw [content] at blocksPerm
          rw [blocks, blocks, listed, listed, sameLists] at blocksPerm
          exact blocksPerm

end PageAllocatorBackend

end Pine
end Pinyon
