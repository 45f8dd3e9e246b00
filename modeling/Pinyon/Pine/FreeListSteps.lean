import Pinyon.Pine.FreeListLayout

namespace Pinyon
namespace Pine

open Library

/-!
# What the free list operations can do

One lemma for each operation lists its outcomes together with every fact that
its tests established.  The safety and the accounting of the free list are both
read off these lists; neither looks at the code again.
-/

namespace IntrusiveFreeList

variable {target : Target} {list : IntrusiveFreeList} {node requestedSize : Nat}

/-- The state after a block at `node` was cut to `kept` bytes. -/
def splitAt (target : Target) (list : IntrusiveFreeList) (node kept rest : Nat) :
    IntrusiveFreeList where
  sizeAt := cut target list.sizeAt node kept rest
  freeList := (list.freeList ++ [node + (headerNodeSize target + kept)]).erase node

/-- The outcomes of `allocate`: nothing fits, a node is handed out whole, or a
node is cut and its front is handed out. -/
inductive AllocateCase (target : Target) (list : IntrusiveFreeList) (requestedSize : Nat) :
    Allocation × IntrusiveFreeList -> Prop
  | full (tooSmall : forall node, node ∈ list.freeList -> list.sizeAt node < requestedSize) :
      AllocateCase target list requestedSize ({}, list)
  | whole (node : Nat) (member : node ∈ list.freeList)
      (fits : requestedSize ≤ list.sizeAt node) :
      AllocateCase target list requestedSize
        (⟨node + headerNodeSize target, list.sizeAt node⟩,
          { list with freeList := list.freeList.erase node })
  | cut (node kept rest : Nat) (member : node ∈ list.freeList)
      (fits : requestedSize ≤ kept)
      (whole : list.sizeAt node = kept + (headerNodeSize target + rest))
      (alignedRest : target.alignment ∣ rest) :
      AllocateCase target list requestedSize
        (⟨node + headerNodeSize target, kept⟩, splitAt target list node kept rest)

theorem allocate_cases
    (small : forall node, node ∈ list.freeList -> list.sizeAt node < target.wordLimit) :
    AllocateCase target list requestedSize (allocate target list requestedSize) := by
  unfold allocate
  split
  · next nothing =>
      refine .full fun node member => ?_
      have tooSmall := List.find?_eq_none.mp nothing node member
      simpa using tooSmall
  · next node found =>
      have member := List.mem_of_find?_eq_some found
      have fits : requestedSize ≤ list.sizeAt node := by
        simpa using List.find?_some found
      have bound := small node member
      dsimp only
      rw [alignDownTwo_alignment (Nat.lt_of_le_of_lt (Nat.sub_le _ _) bound),
        minAllocationSize_alignment]
      have rounded := Nat.div_mul_le_self (list.sizeAt node - requestedSize) target.alignment
      have multiple : target.alignment ∣
          (list.sizeAt node - requestedSize) / target.alignment * target.alignment :=
        Nat.dvd_mul_left _ _
      generalize (list.sizeAt node - requestedSize) / target.alignment * target.alignment =
        remaining at rounded multiple ⊢
      split
      · next large =>
          have outcome : AllocateCase target list requestedSize
              (⟨node + headerNodeSize target, list.sizeAt node - remaining⟩,
                splitAt target list node (list.sizeAt node - remaining)
                  (remaining - headerNodeSize target)) := by
            refine .cut node _ _ member (by omega) (by omega) ?_
            exact Nat.dvd_sub multiple (alignment_dvd_headerNodeSize target)
          simpa only [constructNode, wordSub_eq (show headerNodeSize target ≤ remaining by omega)
            (show remaining < target.wordLimit by omega), splitAt, cut, toUserPtr, Nat.add_zero,
            Nat.add_assoc] using outcome
      · exact .whole node member fits

/-! ## The neighbours of a freed block -/

/-- What the search for neighbours promises about its answer: a reported
neighbour is a free node that touches the block on that side, and when none is
reported no node that was looked at does. -/
structure Neighbors (target : Target) (list : IntrusiveFreeList) (node : Nat)
    (looked : List Nat) (found : Nat × Nat) : Prop where
  left : found.1 ≠ 0 -> found.1 ∈ looked ∧ found.1 < node ∧ contiguous target list found.1 node
  right : found.2 ≠ 0 -> found.2 ∈ looked ∧ node < found.2 ∧ contiguous target list node found.2
  noLeft : found.1 = 0 -> forall other, other ∈ looked -> other ≠ 0 ->
    ¬ contiguous target list other node
  noRight : found.2 = 0 -> forall other, other ∈ looked -> other ≠ 0 ->
    ¬ contiguous target list node other

theorem contiguous_iff {left right : Nat} : contiguous target list left right <->
    left + (headerNodeSize target + list.sizeAt left) = right := by
  rw [contiguous, toUserPtr, Nat.add_assoc]

theorem contiguous_lt {left right : Nat} (touching : contiguous target list left right) :
    left < right := by
  have positive := headerNodeSize_pos target
  rw [contiguous_iff] at touching
  omega

/-- The left neighbour of a node is not the right one. -/
theorem left_kept {left right : Nat} (leftTouching : contiguous target list left node)
    (rightTouching : contiguous target list node right) (member : left ∈ list.freeList) :
    left ∈ list.freeList.erase right :=
  (List.mem_erase_of_ne (Nat.ne_of_lt
    (Nat.lt_trans (contiguous_lt leftTouching) (contiguous_lt rightTouching)))).mpr member

namespace Neighbors

theorem mono {looked more : List Nat} {found : Nat × Nat} (both : found.1 ≠ 0 ∧ found.2 ≠ 0)
    (known : Neighbors target list node looked found) (sub : looked ⊆ more) :
    Neighbors target list node more found where
  left := fun nonzero => ⟨sub (known.left nonzero).1, (known.left nonzero).2⟩
  right := fun nonzero => ⟨sub (known.right nonzero).1, (known.right nonzero).2⟩
  noLeft := fun zero => absurd zero both.1
  noRight := fun zero => absurd zero both.2

variable {looked : List Nat} {left right freeNode : Nat}

private theorem mem_snoc {other : Nat} (member : other ∈ looked ++ [freeNode]) :
    other ∈ looked ∨ other = freeNode := by
  simpa using member

/-- The node is recorded as the left neighbour. -/
theorem takeLeft (known : Neighbors target list node looked (left, right)) (missing : left = 0)
    (touching : contiguous target list freeNode node) :
    Neighbors target list node (looked ++ [freeNode]) (freeNode, right) where
  left := fun _ => ⟨by simp, contiguous_lt touching, touching⟩
  right := fun nonzero => ⟨List.mem_append_left _ (known.right nonzero).1, (known.right nonzero).2⟩
  noLeft := by
    intro zero other member nonzero
    rcases mem_snoc member with old | rfl
    · exact known.noLeft missing other old nonzero
    · exact absurd zero nonzero
  noRight := by
    intro zero other member nonzero
    rcases mem_snoc member with old | rfl
    · exact known.noRight zero other old nonzero
    · exact fun beyond => Nat.lt_asymm (contiguous_lt touching) (contiguous_lt beyond)

/-- The node is recorded as the right neighbour. -/
theorem takeRight (known : Neighbors target list node looked (left, right)) (missing : right = 0)
    (touching : contiguous target list node freeNode) :
    Neighbors target list node (looked ++ [freeNode]) (left, freeNode) where
  left := fun nonzero => ⟨List.mem_append_left _ (known.left nonzero).1, (known.left nonzero).2⟩
  right := fun _ => ⟨by simp, contiguous_lt touching, touching⟩
  noLeft := by
    intro zero other member nonzero
    rcases mem_snoc member with old | rfl
    · exact known.noLeft zero other old nonzero
    · exact fun beyond => Nat.lt_asymm (contiguous_lt touching) (contiguous_lt beyond)
  noRight := by
    intro zero other member nonzero
    rcases mem_snoc member with old | rfl
    · exact known.noRight missing other old nonzero
    · exact absurd zero nonzero

/-- The node is passed over. -/
theorem pass (known : Neighbors target list node looked (left, right))
    (notLeft : left = 0 -> ¬ contiguous target list freeNode node)
    (notRight : right = 0 -> ¬ contiguous target list node freeNode) :
    Neighbors target list node (looked ++ [freeNode]) (left, right) where
  left := fun nonzero => ⟨List.mem_append_left _ (known.left nonzero).1, (known.left nonzero).2⟩
  right := fun nonzero => ⟨List.mem_append_left _ (known.right nonzero).1, (known.right nonzero).2⟩
  noLeft := by
    intro zero other member nonzero
    rcases mem_snoc member with old | rfl
    · exact known.noLeft zero other old nonzero
    · exact notLeft zero
  noRight := by
    intro zero other member nonzero
    rcases mem_snoc member with old | rfl
    · exact known.noRight zero other old nonzero
    · exact notRight zero

end Neighbors

private theorem findNeighbors_spec (rest looked : List Nat) (found : Nat × Nat)
    (known : Neighbors target list node looked found) :
    Neighbors target list node (looked ++ rest) (findNeighbors target list node rest found) := by
  induction rest generalizing looked found with
  | nil => simpa [findNeighbors] using known
  | cons freeNode rest inductionHypothesis =>
      rcases found with ⟨left, right⟩
      have step : forall next, Neighbors target list node (looked ++ [freeNode]) next ->
          Neighbors target list node (looked ++ freeNode :: rest)
            (if next.1 ≠ 0 ∧ next.2 ≠ 0 then next
              else findNeighbors target list node rest next) := by
        intro next sound
        split
        · next both => exact sound.mono both (by simp)
        · have onward := inductionHypothesis _ _ sound
          rwa [List.append_assoc, List.singleton_append] at onward
      rw [findNeighbors]
      apply step
      split
      · next isLeft => exact known.takeLeft isLeft.1 isLeft.2.2
      · next notLeft =>
          split
          · next isRight => exact known.takeRight isRight.1 isRight.2.2
          · next notRight =>
              exact known.pass
                (fun zero touching => notLeft ⟨zero, contiguous_lt touching, touching⟩)
                (fun zero touching => notRight ⟨zero, contiguous_lt touching, touching⟩)

theorem tryFindNeighboringMemoryNodes_spec :
    Neighbors target list node list.freeList (tryFindNeighboringMemoryNodes target list node) := by
  have start : Neighbors target list node [] (0, 0) :=
    ⟨by simp, by simp, by simp, by simp⟩
  exact findNeighbors_spec list.freeList [] (0, 0) start

/-! ## The outcomes of freeing a block -/

/-- The block joins the list by itself, or a neighbour on one side or on both
takes part in a merge. -/
inductive FreeCase (target : Target) (list : IntrusiveFreeList) (node : Nat) :
    IntrusiveFreeList -> Prop
  | alone (free : forall other, other ∈ list.freeList -> other ≠ 0 ->
        ¬ contiguous target list other node ∧ ¬ contiguous target list node other) :
      FreeCase target list node { list with freeList := list.freeList ++ [node] }
  | left (left : Nat) (nonzero : left ≠ 0) (member : left ∈ list.freeList)
      (touching : contiguous target list left node) :
      FreeCase target list node
        { list with
          sizeAt := Function.update list.sizeAt left (list.sizeAt left + list.sizeAt node) }
  | right (right : Nat) (nonzero : right ≠ 0) (member : right ∈ list.freeList)
      (touching : contiguous target list node right) :
      FreeCase target list node
        { sizeAt := Function.update list.sizeAt node (list.sizeAt node + list.sizeAt right)
          freeList := list.freeList.erase right ++ [node] }
  | both (left right : Nat) (leftNonzero : left ≠ 0) (rightNonzero : right ≠ 0)
      (leftMember : left ∈ list.freeList) (rightMember : right ∈ list.freeList)
      (leftTouching : contiguous target list left node)
      (rightTouching : contiguous target list node right) :
      FreeCase target list node
        { sizeAt := Function.update list.sizeAt left
            (list.sizeAt left + list.sizeAt node + list.sizeAt right)
          freeList := list.freeList.erase right }

/-- Blocks that end inside the address space have sizes whose sums do not wrap
when they touch. -/
theorem free_cases {alloc : Allocation}
    (bound : node + (headerNodeSize target + list.sizeAt node) < target.wordLimit)
    (bounds : forall other, other ∈ list.freeList ->
      other + (headerNodeSize target + list.sizeAt other) < target.wordLimit)
    (header : toNodePtr target alloc.ptr = node) :
    FreeCase target list node (free target list alloc).2 := by
  have known : Neighbors target list node list.freeList _ := tryFindNeighboringMemoryNodes_spec
  unfold free
  dsimp only
  rw [header]
  generalize tryFindNeighboringMemoryNodes target list node = found at known ⊢
  rcases found with ⟨left, right⟩
  dsimp only
  by_cases noLeft : left = 0 <;> by_cases noRight : right = 0
  · subst noLeft noRight
    exact .alone fun other member nonzero =>
      ⟨known.noLeft rfl other member nonzero, known.noRight rfl other member nonzero⟩
  · subst noLeft
    rcases known.right noRight with ⟨member, _, touching⟩
    have rightBound := bounds right member
    have place := contiguous_iff.mp touching
    have word : list.sizeAt node + list.sizeAt right < target.wordLimit := by omega
    have outcome : FreeCase target list node _ := .right right noRight member touching
    simpa [mergeLeft, mergeRight, noRight, adoptRightNodeSize, Nat.mod_eq_of_lt word] using outcome
  · subst noRight
    rcases known.left noLeft with ⟨member, _, touching⟩
    have place : left + (headerNodeSize target + list.sizeAt left) = _ := contiguous_iff.mp touching
    have word : list.sizeAt left + list.sizeAt node < target.wordLimit := by omega
    have outcome : FreeCase target list node _ := .left left noLeft member touching
    simpa [mergeLeft, mergeRight, noLeft, adoptRightNodeSize, Nat.mod_eq_of_lt word] using outcome
  · rcases known.left noLeft with ⟨leftMember, leftBefore, leftTouching⟩
    rcases known.right noRight with ⟨rightMember, rightBehind, rightTouching⟩
    have rightBound := bounds right rightMember
    have different : right ≠ left := by omega
    have leftPlace : left + (headerNodeSize target + list.sizeAt left) = _ :=
      contiguous_iff.mp leftTouching
    have rightPlace : _ = right := contiguous_iff.mp rightTouching
    have word : list.sizeAt left + list.sizeAt node < target.wordLimit := by omega
    have wholeWord : list.sizeAt left + list.sizeAt node + list.sizeAt right < target.wordLimit := by
      omega
    have outcome : FreeCase target list node _ := .both left right noLeft noRight leftMember
      rightMember leftTouching rightTouching
    simpa [mergeLeft, mergeRight, noLeft, noRight, adoptRightNodeSize, Nat.mod_eq_of_lt word,
      Nat.mod_eq_of_lt wholeWord, Function.update_of_ne different] using outcome

end IntrusiveFreeList

end Pine
end Pinyon
