import Pinyon.Library.Blocks
import Pinyon.Library.History

namespace Pinyon
namespace Library

universe u v w x

/-!
# Several cores on one memory

Cores run the same code and share a memory, one block at a time and in any order.
When all of them but one are parked, where they change nothing, that one runs as if it
were alone, and the others stay parked even when it has left the code.
-/

/-- The memory as a part of what one core sees. -/
structure SharedMemory (Machine : Type u) (Memory : Type v) where
  memory : Machine -> Memory
  withMemory : Machine -> Memory -> Machine
  withMemory_memory : forall machine, withMemory machine (memory machine) = machine
  memory_withMemory : forall machine contents, memory (withMemory machine contents) = contents

structure Cores (Index : Type w) (Machine : Type u) (Memory : Type v) where
  core : Index -> Machine
  memory : Memory

namespace Cores

variable {Index : Type w} {Machine : Type u} {Memory : Type v} {Address : Type} {Label : Type x}

/-- A core with the memory as it is now. -/
def view (shared : SharedMemory Machine Memory) (cores : Cores Index Machine Memory)
    (index : Index) : Machine :=
  shared.withMemory (cores.core index) cores.memory

/-- A step of a core in the code that they share, or outside of it. -/
inductive Act (Index : Type w) where
  | inside (index : Index)
  | outside (index : Index)
deriving DecidableEq

/-- The core that takes a step. -/
def Act.core : Act Index -> Index
  | inside index => index
  | outside index => index

variable [DecidableEq Index]

/-- A step of one core.  Outside the code a core may do anything. -/
inductive Step (shared : SharedMemory Machine Memory) (code : BlockCode Machine Address Label) :
    Cores Index Machine Memory -> Act Index -> Cores Index Machine Memory -> Prop
  | inside {cores : Cores Index Machine Memory} {index : Index} {after : Machine} :
      code.step (cores.view shared index) = some after ->
        Step shared code cores (.inside index)
          { core := Function.update cores.core index after, memory := shared.memory after }
  | outside {cores : Cores Index Machine Memory} {index : Index} {after : Machine} :
      code.labelAt (code.pc (cores.view shared index)) = none ->
        Step shared code cores (.outside index)
          { core := Function.update cores.core index after, memory := shared.memory after }

/-- A core that is parked stays so inside the code, and changes nothing.  How far it has
come is told by the number of its steps. -/
structure Parks (shared : SharedMemory Machine Memory) (code : BlockCode Machine Address Label)
    (parked : Nat -> Machine -> Prop) : Prop where
  inside : forall count machine, parked count machine -> code.labelAt (code.pc machine) ≠ none
  step : forall count before after, parked count before -> code.step before = some after ->
    parked (count + 1) after ∧ shared.memory after = shared.memory before
  withMemory : forall count machine contents, parked count machine ->
    parked count (shared.withMemory machine contents)

/-- One core has come through the code alone.  It has left the code, as `booted`, after a
number of rounds, or can go on; every other one is parked, and its steps leave the memory
as it is. -/
structure Boots (shared : SharedMemory Machine Memory) (code : BlockCode Machine Address Label)
    (parked : Nat -> Machine -> Prop) (first : Index) (rounds : Nat) (booted : Machine)
    (acts : List (Act Index)) (state : Cores Index Machine Memory) : Prop where
  others : forall index, index ≠ first -> parked (acts.count (.inside index)) (state.core index)
  memory : forall act after, act.core ≠ first -> Step shared code state act after ->
    after.memory = state.memory
  most : .outside first ∉ acts -> acts.count (.inside first) ≤ rounds
  ready : .outside first ∉ acts -> acts.count (.inside first) = rounds ->
    state.view shared first = booted
  goesOn : .outside first ∉ acts -> acts.count (.inside first) < rounds ->
    (code.step (state.view shared first)).isSome = true

variable {shared : SharedMemory Machine Memory} {code : BlockCode Machine Address Label}
variable {parked : Nat -> Machine -> Prop} {first : Index}
variable {start state after : Cores Index Machine Memory} {acts : List (Act Index)}

theorem view_update_self {index : Index} {machine : Machine} :
    (Cores.mk (Function.update state.core index machine) (shared.memory machine)).view shared index =
      machine := by
  change shared.withMemory (Function.update state.core index machine index) _ = machine
  rw [Function.update_self, shared.withMemory_memory]

theorem view_update_of_ne {index other : Index} {machine : Machine} (different : other ≠ index)
    (memory : shared.memory machine = state.memory) :
    (Cores.mk (Function.update state.core index machine) (shared.memory machine)).view shared other =
      state.view shared other := by
  change shared.withMemory (Function.update state.core index machine other) (shared.memory machine) = _
  rw [Function.update_of_ne different, memory]
  rfl

/-- A core that is parked takes a step inside the code only, and leaves the memory alone. -/
theorem memory_of_parked (parks : Parks shared code parked) {act : Act Index} {count : Nat}
    (isParked : parked count (state.core act.core)) (stepped : Step shared code state act after) :
    after.memory = state.memory := by
  have seen := parks.withMemory count _ state.memory isParked
  cases stepped with
  | @inside index machine taken =>
      exact (parks.step _ _ _ seen taken).2.trans (shared.memory_withMemory _ _)
  | @outside index machine isOutside => exact absurd isOutside (parks.inside _ _ seen)

/-- The cores that are parked stay so, whatever the first one does. -/
theorem parked_step (parks : Parks shared code parked) {act : Act Index}
    (others : forall index, index ≠ first -> parked (acts.count (.inside index)) (state.core index))
    (stepped : Step shared code state act after) (other : Index) (different : other ≠ first) :
    parked ((act :: acts).count (.inside other)) (after.core other) := by
  have seen := parks.withMemory _ _ state.memory (others other different)
  cases stepped with
  | @inside index machine taken =>
      change parked _ (Function.update state.core index machine other)
      by_cases same : other = index
      · subst same
        rw [Function.update_self, List.count_cons_self]
        exact (parks.step _ _ _ seen taken).1
      · rw [Function.update_of_ne same, List.count_cons_of_ne]
        · exact others other different
        · exact fun acts => same (Act.inside.inj acts).symm
  | @outside index machine isOutside =>
      change parked _ (Function.update state.core index machine other)
      by_cases same : other = index
      · subst same
        exact absurd isOutside (parks.inside _ _ seen)
      · rw [Function.update_of_ne same, List.count_cons_of_ne]
        · exact others other different
        · exact fun acts => by cases acts

/-- Where all cores but one are parked they stay so in every run, and that one runs
through the code as if it were alone, until it leaves it. -/
theorem alone_of_reaches (parks : Parks shared code parked)
    (others : forall index, index ≠ first -> parked 0 (start.core index))
    (reached : Reaches (Step shared code) start acts state) :
    (forall index, index ≠ first -> parked (acts.count (.inside index)) (state.core index)) ∧
      (.outside first ∉ acts ->
        code.afterSteps (start.view shared first) (acts.count (.inside first)) =
          some (state.view shared first)) := by
  induction reached with
  | refl => exact ⟨others, fun _ => rfl⟩
  | @tail acts act before after _ last inductionHypothesis =>
      rcases inductionHypothesis with ⟨stayed, runs⟩
      refine ⟨parked_step parks stayed last, fun within => ?_⟩
      have earlier := runs fun member => within (List.mem_cons_of_mem _ member)
      cases last with
      | @inside index machine taken =>
          by_cases isFirst : index = first
          · subst isFirst
            rw [view_update_self, List.count_cons_self, BlockCode.afterSteps, earlier]
            exact taken
          · have isParked := parks.withMemory _ _ before.memory (stayed index isFirst)
            have sameMemory := (parks.step _ _ _ isParked taken).2
            rw [view_update_of_ne (Ne.symm isFirst)
              (sameMemory.trans (shared.memory_withMemory _ _)), List.count_cons_of_ne]
            · exact earlier
            · exact fun acts => isFirst (Act.inside.inj acts)
      | @outside index machine isOutside =>
          by_cases isFirst : index = first
          · subst isFirst
            exact absurd List.mem_cons_self within
          · exact absurd isOutside
              (parks.inside _ _ (parks.withMemory _ _ before.memory (stayed index isFirst)))

/-- A core that would leave the code alone leaves it in every run, where it takes as many
steps as it needs alone. -/
theorem boots_of_leaves (parks : Parks shared code parked) {booted : Machine}
    (others : forall index, index ≠ first -> parked 0 (start.core index))
    (leaves : code.Leaves (start.view shared first) booted) :
    Exists fun rounds => forall acts state, Reaches (Step shared code) start acts state ->
      Boots shared code parked first rounds booted acts state := by
  rcases leaves with ⟨steps, outside⟩
  rcases steps.afterSteps with ⟨rounds, there⟩
  refine ⟨rounds, fun acts state reached => ?_⟩
  rcases alone_of_reaches parks others reached with ⟨stayed, runs⟩
  exact
    { others := stayed
      memory := fun act after other stepped =>
        memory_of_parked parks (stayed act.core other) stepped
      most := fun within => BlockCode.afterSteps_le there outside (runs within)
      ready := fun within done => by
        have here := runs within
        rw [done, there] at here
        exact (Option.some.inj here).symm
      goesOn := fun within less => BlockCode.step_of_afterSteps (runs within) there less }

end Cores

end Library
end Pinyon
