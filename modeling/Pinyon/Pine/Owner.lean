import Pinyon.Library.History
import Pinyon.Library.LeastFree

namespace Pinyon
namespace Pine

open Library LeastFree

/-!
# Owners

An `Owner` refers to an object and to the allocator that the block of the object
came from.  Both are needed to give the block back: the destructor of the owner
calls `free` on its own allocator.

Moving an owner takes both along.  Assigning to an owner swaps the objects only,
so from then on each of the two objects is with the allocator of the other.

A block is known by the number of the successful `try_create` that obtained it.
The classes of the repository have one base at most, so a pointer to an object is
a pointer to its base.
-/

/-- An owner whose static type is the one for a class. -/
structure Owner (Class : Type) where
  valueClass : Class
  allocator : Nat
  /-- `m_ptr`, as the number of a block. -/
  ptr : Option Nat

structure OwnedBlock where
  allocator : Nat
  size : Nat

/-- A call of `free`. -/
structure OwnerFree where
  allocator : Nat
  block : Nat
  size : Nat

/-- The owners by their variables, in which a variable that is gone is `none`.  The
other fields record what happened. -/
structure Owners (Class : Type) where
  owners : List (Option (Owner Class)) := []
  blocks : List OwnedBlock := []
  freed : List OwnerFree := []
  released : List Nat := []

inductive OwnerCall (Class : Type) where
  | tryCreate (allocator : Nat) (valueClass : Class) (allocated : Bool)
  | moveConstruct (source : Nat)
  | convert (source : Nat) (base : Class)
  | moveAssign (target source : Nat)
  | release (owner : Nat)
  | destroy (owner : Nat)

variable {Class : Type}

/-! ## The code -/

/-- The owner that is left when `release` has been called. -/
def Owner.emptied (owner : Owner Class) : Owner Class :=
  { owner with ptr := none }

namespace Owners

variable (sizeOf : Class -> Nat)

/-- The owner in a variable. -/
def at_ (state : Owners Class) (index : Nat) : Option (Owner Class) :=
  lookup state.owners index

/-- The destructor. -/
def destruct (state : Owners Class) (owner : Owner Class) : Owners Class :=
  match owner.ptr with
  | none => state
  | some block =>
      { state with freed := ⟨owner.allocator, block, sizeOf owner.valueClass⟩ :: state.freed }

/-- A new variable, for an owner that takes over from another. -/
def takeOver (state : Owners Class) (source : Nat) (owner other : Owner Class) : Owners Class :=
  { state with owners := state.owners.set source (some other.emptied) ++ [some owner] }

def perform [DecidableEq Class] (state : Owners Class) : OwnerCall Class -> Option (Owners Class)
  | .tryCreate allocator valueClass allocated =>
      if allocated then some { state with
        owners := state.owners ++ [some ⟨valueClass, allocator, some state.blocks.length⟩]
        blocks := state.blocks ++ [⟨allocator, sizeOf valueClass⟩] }
      else some state
  | .moveConstruct source => do
      let other <- state.at_ source
      return state.takeOver source other other
  | .convert source base => do
      let other <- state.at_ source
      return state.takeOver source { other with valueClass := base } other
  | .moveAssign target source => do
      -- the moved owner is a local variable, which the swap leaves the old object to
      let owner <- state.at_ source
      let moved := { state with owners := state.owners.set source (some owner.emptied) }
      let this <- moved.at_ target
      if this.valueClass = owner.valueClass then
        let swapped := { moved with
          owners := moved.owners.set target (some { this with ptr := owner.ptr }) }
        return swapped.destruct sizeOf { owner with ptr := this.ptr }
      else none
  | .release owner => do
      let released <- state.at_ owner
      return { state with
        owners := state.owners.set owner (some released.emptied)
        released := released.ptr.toList ++ state.released }
  | .destroy owner => do
      let destroyed <- state.at_ owner
      let gone := { state with owners := state.owners.set owner none }
      return gone.destruct sizeOf destroyed

def Step [DecidableEq Class] (before : Owners Class) (call : OwnerCall Class)
    (after : Owners Class) : Prop :=
  before.perform sizeOf call = some after

/-- The destructors of all owners that are still there. -/
def finish (state : Owners Class) : Owners Class :=
  state.owners.reduceOption.foldl (destruct sizeOf) { state with owners := [] }

/-! ## What should come back -/

/-- How often a block was freed. -/
def timesFreed (state : Owners Class) (block : Nat) : Nat :=
  (state.freed.map OwnerFree.block).count block

/-- The allocator that a block was obtained from. -/
def home (state : Owners Class) (block : Nat) : Option Nat :=
  state.blocks[block]?.map OwnedBlock.allocator

/-- Every block is freed at most once, once unless it was released, and on the
allocator that it came from. -/
structure ReturnedOnce (state : Owners Class) : Prop where
  atMostOnce : forall block, block < state.blocks.length -> state.timesFreed block ≤ 1
  onceUnlessReleased : forall block, block < state.blocks.length -> block ∉ state.released ->
    state.timesFreed block = 1
  home : forall free, free ∈ state.freed ->
    state.home free.block = some free.allocator

/-- An assignment is between owners with one allocator, or with nothing to give back. -/
def SameAllocator (state : Owners Class) : OwnerCall Class -> Prop
  | .moveAssign target source => forall this owner, state.at_ target = some this ->
      state.at_ source = some owner ->
        this.allocator = owner.allocator ∨ this.ptr = none ∧ owner.ptr = none
  | _ => True

/-! ## Every block is somewhere -/

variable {sizeOf} {state before after : Owners Class} {call : OwnerCall Class} {owner : Owner Class}

/-- The blocks that owners refer to. -/
def holdings (owners : List (Option (Owner Class))) : List Nat :=
  owners.filterMap fun owner => owner.bind Owner.ptr

/-- A block that was obtained is in exactly one place: with an owner, freed or released. -/
def Conserved (state : Owners Class) : Prop :=
  forall block, (holdings state.owners).count block + state.timesFreed block +
    state.released.count block = if block < state.blocks.length then 1 else 0

theorem holdings_cons (first : Option (Owner Class)) (rest : List (Option (Owner Class))) :
    holdings (first :: rest) = (first.bind Owner.ptr).toList ++ holdings rest := by
  rw [holdings, List.filterMap_cons]
  cases first.bind Owner.ptr <;> rfl

theorem count_holdings_set {owners : List (Option (Owner Class))} {index : Nat}
    {old : Option (Owner Class)} (here : owners[index]? = some old) (new : Option (Owner Class))
    (block : Nat) :
    (holdings (owners.set index new)).count block + (old.bind Owner.ptr).toList.count block =
      (holdings owners).count block + (new.bind Owner.ptr).toList.count block := by
  induction owners generalizing index with
  | nil => cases here
  | cons first rest inductionHypothesis =>
      cases index with
      | zero =>
          cases here
          rw [List.set_cons_zero, holdings_cons, holdings_cons, List.count_append, List.count_append]
          omega
      | succ index =>
          have later := inductionHypothesis here
          rw [List.set_cons_succ, holdings_cons, holdings_cons, List.count_append, List.count_append]
          omega

theorem holdings_append (owners : List (Option (Owner Class))) (owner : Owner Class) :
    holdings (owners ++ [some owner]) = holdings owners ++ owner.ptr.toList := by
  rw [holdings, List.filterMap_append, ← holdings, ← holdings, holdings_cons, Option.bind_some]
  exact congrArg _ (List.append_nil _)

theorem timesFreed_destruct (state : Owners Class) (owner : Owner Class) (block : Nat) :
    (state.destruct sizeOf owner).timesFreed block =
      state.timesFreed block + owner.ptr.toList.count block := by
  rw [destruct]
  cases owner.ptr with
  | none => rfl
  | some freed => rw [timesFreed, List.map_cons, List.count_cons, timesFreed, Option.toList_some,
      List.count_singleton]

@[simp]
theorem destruct_owners (state : Owners Class) (owner : Owner Class) :
    (state.destruct sizeOf owner).owners = state.owners := by
  rw [destruct]
  split <;> rfl

@[simp]
theorem destruct_blocks (state : Owners Class) (owner : Owner Class) :
    (state.destruct sizeOf owner).blocks = state.blocks := by
  rw [destruct]
  split <;> rfl

@[simp]
theorem destruct_released (state : Owners Class) (owner : Owner Class) :
    (state.destruct sizeOf owner).released = state.released := by
  rw [destruct]
  split <;> rfl

theorem getElem?_of_at {index : Nat} (here : state.at_ index = some owner) :
    state.owners[index]? = some (some owner) :=
  Option.join_eq_some_iff.mp here

theorem count_emptied {index : Nat} (here : state.at_ index = some owner) (block : Nat) :
    (holdings (state.owners.set index (some owner.emptied))).count block +
      owner.ptr.toList.count block = (holdings state.owners).count block :=
  count_holdings_set (getElem?_of_at here) (some owner.emptied) block

/-- What a variable has lost, a new one has. -/
theorem count_takeOver {source : Nat} {other : Owner Class} (here : state.at_ source = some other)
    (same : owner.ptr = other.ptr) (block : Nat) :
    (holdings (state.takeOver source owner other).owners).count block =
      (holdings state.owners).count block := by
  rw [takeOver]
  dsimp only
  rw [holdings_append, List.count_append, same]
  exact count_emptied here block

/-- The swap of an assignment, after which the local variable has the old object. -/
theorem count_swapped {target : Nat} {this : Owner Class} (here : state.at_ target = some this)
    (ptr : Option Nat) (block : Nat) :
    (holdings (state.owners.set target (some { this with ptr := ptr }))).count block +
      this.ptr.toList.count block = (holdings state.owners).count block + ptr.toList.count block :=
  count_holdings_set (getElem?_of_at here) (some { this with ptr := ptr }) block

theorem Conserved.step [DecidableEq Class] (conserved : before.Conserved)
    (step : Step sizeOf before call after) : after.Conserved := by
  intro block
  have place := conserved block
  cases call with
  | tryCreate allocator valueClass allocated =>
      cases allocated with
      | false =>
          cases step
          exact place
      | true =>
          cases step
          dsimp only [timesFreed] at place ⊢
          rw [holdings_append, List.count_append, Option.toList_some, List.count_singleton,
            List.length_append, List.length_singleton]
          by_cases new : before.blocks.length = block
          · rw [if_neg (by omega)] at place
            simp only [new, BEq.rfl, if_true, Nat.lt_succ_self]
            omega
          · simp only [beq_iff_eq, new, if_false, Nat.add_zero]
            rw [place]
            by_cases old : block < before.blocks.length
            · rw [if_pos old, if_pos (Nat.lt_succ_of_lt old)]
            · rw [if_neg old, if_neg (by omega)]
  | moveConstruct source =>
      rcases Option.bind_eq_some_iff.mp step with ⟨other, here, ended⟩
      cases ended
      rw [count_takeOver here rfl]
      exact place
  | convert source base =>
      rcases Option.bind_eq_some_iff.mp step with ⟨other, here, ended⟩
      cases ended
      have same : (⟨base, other.allocator, other.ptr⟩ : Owner Class).ptr = other.ptr := rfl
      rw [count_takeOver here same]
      exact place
  | moveAssign target source =>
      rcases Option.bind_eq_some_iff.mp step with ⟨owner, here, rest⟩
      rcases Option.bind_eq_some_iff.mp rest with ⟨this, there, ended⟩
      dsimp only at ended
      split at ended
      · cases ended
        have emptied := count_emptied here block
        have swapped := count_swapped there owner.ptr block
        dsimp only at swapped
        rw [timesFreed_destruct, destruct_owners, destruct_released, destruct_blocks]
        dsimp only [timesFreed] at place ⊢
        omega
      · cases ended
  | release index =>
      rcases Option.bind_eq_some_iff.mp step with ⟨other, here, ended⟩
      cases ended
      have emptied := count_emptied here block
      dsimp only [timesFreed] at place ⊢
      rw [List.count_append]
      omega
  | destroy index =>
      rcases Option.bind_eq_some_iff.mp step with ⟨other, here, ended⟩
      cases ended
      have gone : (holdings (before.owners.set index none)).count block +
          other.ptr.toList.count block = (holdings before.owners).count block :=
        count_holdings_set (getElem?_of_at here) none block
      rw [timesFreed_destruct, destruct_owners, destruct_released, destruct_blocks]
      dsimp only [timesFreed] at place ⊢
      omega

/-! ## Owners that know where their block came from -/

/-- Whatever is held came from the allocator of its owner. -/
def HeldHome (home : Nat -> Option Nat) (map : Nat -> Option (Owner Class)) : Prop :=
  forall index owner block, map index = some owner -> owner.ptr = some block ->
    home block = some owner.allocator

/-- What was freed went home, and so will what the owners still have. -/
structure Homeward (state : Owners Class) : Prop where
  freed : forall free, free ∈ state.freed -> state.home free.block = some free.allocator
  held : HeldHome state.home state.at_

theorem HeldHome.update {home : Nat -> Option Nat} {map : Nat -> Option (Owner Class)}
    (held : HeldHome home map) (index : Nat) {new : Option (Owner Class)}
    (also : forall owner block, new = some owner -> owner.ptr = some block ->
      home block = some owner.allocator) : HeldHome home (Function.update map index new) := by
  intro other owner block here has
  by_cases same : other = index
  · subst same
    rw [Function.update_self] at here
    exact also owner block here has
  · rw [Function.update_of_ne same] at here
    exact held other owner block here has

theorem HeldHome.update_emptied {home : Nat -> Option Nat} {map : Nat -> Option (Owner Class)}
    (held : HeldHome home map) (index : Nat) (owner : Owner Class) :
    HeldHome home (Function.update map index (some owner.emptied)) := by
  apply held.update
  rintro _ block ⟨⟩ has
  cases has

theorem at_lt {index : Nat} (here : state.at_ index = some owner) : index < state.owners.length :=
  (List.getElem?_eq_some_iff.mp (getElem?_of_at here)).1

theorem Homeward.destruct (homeward : state.Homeward)
    (also : forall block, owner.ptr = some block -> state.home block = some owner.allocator) :
    (state.destruct sizeOf owner).Homeward := by
  rw [Owners.destruct]
  cases has : owner.ptr with
  | none => exact homeward
  | some block =>
      refine ⟨?_, homeward.held⟩
      rintro free (_ | ⟨_, member⟩)
      · exact also block has
      · exact homeward.freed free member

/-- The owner that is destroyed leaves its mark. -/
theorem Homeward.of_destruct (homeward : (state.destruct sizeOf owner).Homeward) {block : Nat}
    (has : owner.ptr = some block) : state.home block = some owner.allocator := by
  have freed := homeward.freed ⟨owner.allocator, block, sizeOf owner.valueClass⟩
  simp only [Owners.destruct, has, List.mem_cons, true_or, forall_const] at freed
  exact freed

theorem Homeward.takeOver (homeward : state.Homeward) {source : Nat} {other : Owner Class}
    (here : state.at_ source = some other) (allocator : owner.allocator = other.allocator)
    (ptr : owner.ptr = other.ptr) : (state.takeOver source owner other).Homeward := by
  refine ⟨homeward.freed, ?_⟩
  have map : (state.takeOver source owner other).at_ = Function.update (Function.update state.at_
      source (some other.emptied)) (state.owners.set source (some other.emptied)).length
        (some owner) := by
    funext index
    rw [at_, Owners.takeOver, lookup_append, lookup_set (at_lt here)]
    rfl
  rw [map]
  apply (homeward.held.update_emptied source other).update
  rintro _ block ⟨⟩ has
  rw [allocator]
  exact homeward.held source other block here (ptr ▸ has)

/-- A swap with a local owner keeps the way home just when the allocators are the
same, or there is nothing to bring home. -/
theorem Homeward.swap_iff (homeward : state.Homeward) {target : Nat} {this other : Owner Class}
    (there : state.at_ target = some this)
    (came : forall block, other.ptr = some block -> state.home block = some other.allocator) :
    (Owners.destruct sizeOf
      { state with owners := state.owners.set target (some { this with ptr := other.ptr }) }
      { other with ptr := this.ptr }).Homeward <->
        this.allocator = other.allocator ∨ this.ptr = none ∧ other.ptr = none := by
  have map : lookup (state.owners.set target (some { this with ptr := other.ptr })) =
      Function.update state.at_ target (some { this with ptr := other.ptr }) :=
    lookup_set (at_lt there) _
  have own := homeward.held target this
  constructor
  · intro after
    cases mine : this.ptr with
    | some block =>
        have left := after.of_destruct mine
        have came := own block there mine
        exact .inl (Option.some.inj (came.symm.trans left))
    | none =>
        cases theirs : other.ptr with
        | none => exact .inr ⟨rfl, rfl⟩
        | some block =>
            have held := after.held target { this with ptr := other.ptr } block
            rw [at_, destruct_owners, map, Function.update_self, Owners.home, destruct_blocks] at held
            have now := held rfl theirs
            exact .inl (Option.some.inj (now.symm.trans (came block theirs)))
  · intro same
    have kept : Homeward { state with
        owners := state.owners.set target (some { this with ptr := other.ptr }) } := by
      refine ⟨homeward.freed, ?_⟩
      change HeldHome state.home (lookup _)
      rw [map]
      apply homeward.held.update
      rintro _ block ⟨⟩ has
      rcases same with same | ⟨_, nothing⟩
      · rw [same]
        exact came block has
      · exact absurd (nothing.symm.trans has) (by simp)
    apply kept.destruct
    intro block has
    rcases same with same | ⟨nothing, _⟩
    · rw [← same]
      exact own block there has
    · exact absurd (nothing.symm.trans has) (by simp)

/-- What a block came from stays known. -/
theorem home_append {block allocator : Nat} (came : state.home block = some allocator)
    (more : List OwnedBlock) :
    (state.blocks ++ more)[block]?.map OwnedBlock.allocator = some allocator := by
  rcases Option.map_eq_some_iff.mp came with ⟨old, here, same⟩
  rw [List.getElem?_append_left (List.getElem?_eq_some_iff.mp here).1, here, Option.map_some, same]

/-- Only an assignment can put a block on the wrong way. -/
theorem Homeward.step_iff [DecidableEq Class] (homeward : before.Homeward)
    (step : Step sizeOf before call after) : after.Homeward <-> before.SameAllocator call := by
  cases call with
  | tryCreate allocator valueClass allocated =>
      refine ⟨fun _ => trivial, fun _ => ?_⟩
      cases allocated with
      | false =>
          cases step
          exact homeward
      | true =>
          cases step
          refine ⟨fun free member => home_append (homeward.freed free member) _, ?_⟩
          intro index owner block here has
          rw [at_, lookup_append] at here
          by_cases new : index = before.owners.length
          · subst new
            rw [Function.update_self] at here
            cases here
            cases has
            rw [Owners.home, List.getElem?_append_right (Nat.le_refl _), Nat.sub_self]
            rfl
          · rw [Function.update_of_ne new] at here
            exact home_append (homeward.held index owner block here has) _
  | moveConstruct source =>
      refine ⟨fun _ => trivial, fun _ => ?_⟩
      rcases Option.bind_eq_some_iff.mp step with ⟨other, here, ended⟩
      cases ended
      exact homeward.takeOver here rfl rfl
  | convert source base =>
      refine ⟨fun _ => trivial, fun _ => ?_⟩
      rcases Option.bind_eq_some_iff.mp step with ⟨other, here, ended⟩
      cases ended
      exact homeward.takeOver here rfl rfl
  | moveAssign target source =>
      rcases Option.bind_eq_some_iff.mp step with ⟨other, here, rest⟩
      rcases Option.bind_eq_some_iff.mp rest with ⟨this, there, ended⟩
      dsimp only at ended
      split at ended
      · cases ended
        have map : lookup (before.owners.set source (some other.emptied)) =
            Function.update before.at_ source (some other.emptied) := lookup_set (at_lt here) _
        have moved : Homeward { before with
            owners := before.owners.set source (some other.emptied) } := by
          refine ⟨homeward.freed, ?_⟩
          change HeldHome before.home (lookup _)
          rw [map]
          exact homeward.held.update_emptied source other
        rw [moved.swap_iff there fun block has => homeward.held source other block here has]
        rw [at_, map] at there
        by_cases self : target = source
        · subst self
          rw [Function.update_self] at there
          cases there
          refine ⟨fun _ this owner one two => .inl ?_, fun _ => .inl rfl⟩
          cases one.symm.trans two
          rfl
        · rw [Function.update_of_ne self] at there
          constructor
          · intro same first second one two
            cases there.symm.trans one
            cases here.symm.trans two
            exact same
          · intro same
            exact same this other there here
      · cases ended
  | release index =>
      refine ⟨fun _ => trivial, fun _ => ?_⟩
      rcases Option.bind_eq_some_iff.mp step with ⟨other, here, ended⟩
      cases ended
      refine ⟨homeward.freed, ?_⟩
      change HeldHome before.home (lookup _)
      rw [lookup_set (at_lt here)]
      exact homeward.held.update_emptied index other
  | destroy index =>
      refine ⟨fun _ => trivial, fun _ => ?_⟩
      rcases Option.bind_eq_some_iff.mp step with ⟨other, here, ended⟩
      cases ended
      have gone : Homeward { before with owners := before.owners.set index none } := by
        refine ⟨homeward.freed, ?_⟩
        change HeldHome before.home (lookup _)
        rw [lookup_set (at_lt here)]
        apply homeward.held.update
        rintro _ _ ⟨⟩
      exact gone.destruct fun block has => homeward.held index other block here has

/-! ## When all owners are gone -/

/-- The destructors of some owners, one after the other. -/
theorem foldl_destruct (owners : List (Owner Class)) (state : Owners Class) :
    (owners.foldl (destruct sizeOf) state).blocks = state.blocks ∧
    (owners.foldl (destruct sizeOf) state).released = state.released ∧
    (forall block, (owners.foldl (destruct sizeOf) state).timesFreed block =
      state.timesFreed block + (owners.filterMap Owner.ptr).count block) ∧
    forall free, free ∈ (owners.foldl (destruct sizeOf) state).freed <->
      free ∈ state.freed ∨ Exists fun owner => owner ∈ owners ∧
        owner.ptr = some free.block ∧ free = ⟨owner.allocator, free.block, sizeOf owner.valueClass⟩ := by
  induction owners generalizing state with
  | nil => simp
  | cons owner rest inductionHypothesis =>
      rw [List.foldl_cons]
      rcases inductionHypothesis (state.destruct sizeOf owner) with ⟨blocks, released, times, freed⟩
      refine ⟨blocks.trans (destruct_blocks _ _), released.trans (destruct_released _ _), ?_, ?_⟩
      · intro block
        rw [times, timesFreed_destruct, List.filterMap_cons]
        cases owner.ptr with
        | none => rfl
        | some other =>
            rw [Option.toList_some, List.count_singleton, List.count_cons]
            omega
      · intro free
        rw [freed, destruct]
        cases has : owner.ptr with
        | none =>
            constructor
            · rintro (member | ⟨other, member, rest⟩)
              · exact .inl member
              · exact .inr ⟨other, List.mem_cons_of_mem _ member, rest⟩
            · rintro (member | ⟨other, member, rest⟩)
              · exact .inl member
              · rcases List.mem_cons.mp member with rfl | member
                · exact absurd (has.symm.trans rest.1) (by simp)
                · exact .inr ⟨other, member, rest⟩
        | some block =>
            constructor
            · rintro (member | ⟨other, member, rest⟩)
              · rcases List.mem_cons.mp member with rfl | member
                · exact .inr ⟨owner, List.mem_cons_self, has, rfl⟩
                · exact .inl member
              · exact .inr ⟨other, List.mem_cons_of_mem _ member, rest⟩
            · rintro (member | ⟨other, member, here, same⟩)
              · exact .inl (List.mem_cons_of_mem _ member)
              · rcases List.mem_cons.mp member with rfl | member
                · refine .inl (List.mem_cons.mpr (.inl ?_))
                  cases here.symm.trans has
                  exact same
                · exact .inr ⟨other, member, here, same⟩

theorem holdings_eq (owners : List (Option (Owner Class))) :
    holdings owners = owners.reduceOption.filterMap Owner.ptr := by
  rw [holdings, List.reduceOption, List.filterMap_filterMap]
  rfl

/-- Once the owners that are left are gone, each block has come back once, unless one
was on the wrong way. -/
theorem Conserved.finish_iff (conserved : state.Conserved) :
    (state.finish sizeOf).ReturnedOnce <-> state.Homeward := by
  rcases @foldl_destruct _ sizeOf state.owners.reduceOption { state with owners := [] } with
    ⟨blocks, released, times, freed⟩
  have home : forall block, (state.finish sizeOf).home block = state.home block := by
    intro block
    rw [Owners.home, finish, blocks]
    rfl
  constructor
  · intro returned
    constructor
    · intro free member
      rw [← home]
      exact returned.home free ((freed free).mpr (.inl member))
    · intro index owner block here has
      rw [← home]
      apply returned.home ⟨owner.allocator, block, sizeOf owner.valueClass⟩
      refine (freed _).mpr (.inr ⟨owner, ?_, has, rfl⟩)
      exact List.reduceOption_mem_iff.mpr (List.mem_of_getElem? (getElem?_of_at here))
  · intro homeward
    have places : forall block, block < (state.finish sizeOf).blocks.length ->
        (state.finish sizeOf).timesFreed block + state.released.count block = 1 := by
      intro block inside
      have place := conserved block
      rw [finish, blocks] at inside
      rw [if_pos inside, holdings_eq] at place
      rw [finish, times]
      dsimp only [timesFreed] at place ⊢
      omega
    refine ⟨fun block inside => by have place := places block inside; omega, ?_, ?_⟩
    · intro block inside kept
      rw [finish, released] at kept
      have place := places block inside
      rwa [List.count_eq_zero_of_not_mem kept] at place
    · intro free member
      rw [home]
      rcases (freed free).mp member with before | ⟨owner, member, has, same⟩
      · exact homeward.freed free before
      · rcases List.getElem?_of_mem (List.reduceOption_mem_iff.mp member) with ⟨index, here⟩
        have held := homeward.held index owner free.block (by rw [at_, lookup, here]; rfl) has
        rw [held, same]

/-! ## Runs -/

theorem conserved_start : Conserved ({} : Owners Class) := by
  intro block
  rfl

theorem homeward_start : Homeward ({} : Owners Class) where
  freed := by
    intro free member
    cases member
  held := by
    intro index owner block here
    cases here

/-- What a run comes to when it ends here and the remaining owners are destroyed. -/
def Returns [DecidableEq Class] (sizeOf : Class -> Nat) (_ : Owners Class) (_ : OwnerCall Class)
    (after : Owners Class) : Prop :=
  (after.finish sizeOf).ReturnedOnce

/-- The runs in which every block comes back once, wherever they end, are those that
only assign between owners with one allocator, or with nothing to give back. -/
theorem returned_iff_same_allocator [DecidableEq Class] (sizeOf : Class -> Nat)
    (calls : List (OwnerCall Class)) (final : Owners Class) :
    Reaches (keeping (Step sizeOf) (Returns sizeOf)) {} calls final <->
      Reaches (guarded (Step sizeOf) SameAllocator) {} calls final := by
  apply Reaches.keeping_iff_guarded (fun state => state.Conserved ∧ state.Homeward)
    ⟨conserved_start, homeward_start⟩
  · intro before call after both step
    rw [Returns, (both.1.step step).finish_iff]
    exact both.2.step_iff step
  · intro before call after both step returns
    have conserved := both.1.step step
    exact ⟨conserved, conserved.finish_iff.mp returns⟩

/-- Two owners of the same class, with an allocator each, of which one is assigned to
the other: the old object of the target is freed on the allocator of the source. -/
theorem freed_on_other_allocator : Exists fun final : Owners Unit =>
    Reaches (Step fun _ => 8) {}
      [.moveAssign 0 1, .tryCreate 1 () true, .tryCreate 0 () true] final ∧
    final.freed = [⟨1, 0, 8⟩] ∧ final.home 0 = some 0 ∧ ¬ (final.finish fun _ => 8).ReturnedOnce := by
  have run : Reaches (Step fun _ => 8) ({} : Owners Unit)
      [.moveAssign 0 1, .tryCreate 1 () true, .tryCreate 0 () true] _ :=
    .tail (.tail (.tail .refl rfl) rfl) rfl
  refine ⟨_, run, rfl, rfl, fun returned => ?_⟩
  have home := returned.home ⟨1, 0, 8⟩ (.tail _ (.head _))
  exact absurd home (by decide)

end Owners

end Pine
end Pinyon
