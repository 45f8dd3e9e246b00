import Mathlib

namespace Pinyon
namespace Library

universe u v w

/-!
# Histories of a labelled transition system

A component is given by a relation between a state, an action and the next
state.  A history lists the actions of a finite run with the most recent one
first, so that an invariant is proved by looking at the last action only.

Two rules are used throughout.  `Reaches.invariant` turns a step lemma into a
run lemma.  `guarded` restricts a system to the steps that meet a side
condition, which is how a property that only some runs enjoy is stated.  A
promise about single steps restricts it too, by `keeping`; a promise that every
step keeps just when it meets a condition is kept by the runs that meet it.
`Reaches.simulated` carries a run over to a specification of the component, and
`Reaches.refines` does so where the specification does not see every step.
-/

variable {State : Type u} {Act : Type v}

/-- The states that a history of actions can lead to. -/
inductive Reaches (step : State -> Act -> State -> Prop) (start : State) :
    List Act -> State -> Prop
  | refl : Reaches step start [] start
  | tail {acts : List Act} {act : Act} {before after : State} :
      Reaches step start acts before -> step before act after ->
        Reaches step start (act :: acts) after

/-- The steps that also meet a condition on the state before and the action. -/
def guarded (step : State -> Act -> State -> Prop) (condition : State -> Act -> Prop) :
    State -> Act -> State -> Prop :=
  fun before act after => condition before act ∧ step before act after

/-- The steps that keep a promise about what they do. -/
def keeping (step : State -> Act -> State -> Prop) (promise : State -> Act -> State -> Prop) :
    State -> Act -> State -> Prop :=
  fun before act after => promise before act after ∧ step before act after

namespace Reaches

variable {step : State -> Act -> State -> Prop} {start final : State} {acts : List Act}

/-- What holds at the start and is preserved by each step holds in every
state reached. -/
theorem invariant (property : State -> Prop) (reached : Reaches step start acts final)
    (initial : property start)
    (preserved : forall before act after,
      property before -> step before act after -> property after) :
    property final := by
  induction reached with
  | refl => exact initial
  | tail _ last inductionHypothesis => exact preserved _ _ _ inductionHypothesis last

/-- One run after another. -/
theorem append {middle : State} {further : List Act} (reached : Reaches step start acts middle)
    (goesOn : Reaches step middle further final) : Reaches step start (further ++ acts) final := by
  induction goesOn with
  | refl => exact reached
  | tail _ last inductionHypothesis => exact .tail inductionHypothesis last

/-- A run whose steps are simulated one by one is a run of the specification,
with the same history. -/
theorem simulated {Spec : Type w} {specStep : Spec -> Act -> Spec -> Prop} {specStart : Spec}
    (related : State -> Spec -> Prop) (reached : Reaches step start acts final)
    (initial : related start specStart)
    (simulates : forall before act after spec, related before spec -> step before act after ->
      Exists fun specAfter => specStep spec act specAfter ∧ related after specAfter) :
    Exists fun spec => Reaches specStep specStart acts spec ∧ related final spec := by
  induction reached with
  | refl => exact ⟨specStart, .refl, initial⟩
  | tail _ last inductionHypothesis =>
      rcases inductionHypothesis with ⟨spec, earlier, holds⟩
      rcases simulates _ _ _ _ holds last with ⟨specAfter, stepped, holdsAfter⟩
      exact ⟨specAfter, .tail earlier stepped, holdsAfter⟩

/-- A run that a specification does not see all of.  Each step is one of the
specification's, or the specification stays where it is. -/
theorem refines {Spec SpecAct : Type w} {specStep : Spec -> SpecAct -> Spec -> Prop}
    (project : State -> Spec) (visible : Act -> Option SpecAct) (good : State -> Prop)
    (reached : Reaches step start acts final) (initial : good start)
    (preserved : forall before act after, good before -> step before act after -> good after)
    (seen : forall before act after specAct, good before -> step before act after ->
      visible act = some specAct -> specStep (project before) specAct (project after))
    (hidden : forall before act after, good before -> step before act after ->
      visible act = none -> project after = project before) :
    Reaches specStep (project start) (acts.filterMap visible) (project final) := by
  induction reached with
  | refl => exact .refl
  | @tail _ act _ _ earlier last inductionHypothesis =>
      have sound := earlier.invariant good initial preserved
      cases isVisible : visible act with
      | none =>
          rw [List.filterMap_cons_none isVisible, hidden _ _ _ sound last isVisible]
          exact inductionHypothesis
      | some specAct =>
          rw [List.filterMap_cons_some isVisible]
          exact .tail inductionHypothesis (seen _ _ _ _ sound last isVisible)

/-- A run of guarded steps is a run. -/
theorem of_guarded {condition : State -> Act -> Prop}
    (reached : Reaches (guarded step condition) start acts final) :
    Reaches step start acts final := by
  induction reached with
  | refl => exact .refl
  | tail _ last inductionHypothesis => exact .tail inductionHypothesis last.2

/-- The states of a run in which every step met the condition satisfy what
the condition is needed to preserve. -/
theorem guarded_invariant {condition : State -> Act -> Prop} (property : State -> Prop)
    (reached : Reaches (guarded step condition) start acts final)
    (initial : property start)
    (preserved : forall before act after,
      property before -> condition before act -> step before act after -> property after) :
    property final :=
  reached.invariant property initial fun before act after holds last =>
    preserved before act after holds last.1 last.2

/-- A defect that the condition describes exactly.  Each step keeps the
property just when it held before and the step met the condition, so the
property of the final state says that every step of the run met it. -/
theorem iff_guarded (good property : State -> Prop) {condition : State -> Act -> Prop}
    (reached : Reaches step start acts final) (initial : good start) (holds : property start)
    (preserved : forall before act after, good before -> step before act after -> good after)
    (kept : forall before act after, good before -> step before act after ->
      (property after <-> property before ∧ condition before act)) :
    property final <-> Reaches (guarded step condition) start acts final := by
  constructor
  · induction reached with
    | refl => exact fun _ => .refl
    | tail earlier last inductionHypothesis =>
        intro holdsAfter
        have sound := earlier.invariant good initial preserved
        have parts := (kept _ _ _ sound last).mp holdsAfter
        exact .tail (inductionHypothesis parts.1) ⟨parts.2, last⟩
  · intro run
    induction run with
    | refl => exact holds
    | tail earlier last inductionHypothesis =>
        have sound := earlier.of_guarded.invariant good initial preserved
        exact (kept _ _ _ sound last.2).mpr
          ⟨inductionHypothesis earlier.of_guarded, last.1⟩

/-- A condition that is enough for a promise about single steps is enough for runs. -/
theorem keeping_of_guarded (good : State -> Prop) {promise : State -> Act -> State -> Prop}
    {condition : State -> Act -> Prop} (initial : good start)
    (enough : forall before act after, good before -> step before act after ->
      condition before act -> promise before act after)
    (preserved : forall before act after, good before -> step before act after ->
      condition before act -> good after)
    (run : Reaches (guarded step condition) start acts final) :
    Reaches (keeping step promise) start acts final := by
  induction run with
  | refl => exact .refl
  | tail earlier last inductionHypothesis =>
      have sound := earlier.guarded_invariant good initial
        fun before act after holds meets taken => preserved before act after holds taken meets
      exact .tail inductionHypothesis ⟨enough _ _ _ sound last.2 last.1, last.2⟩

/-- A defect of single steps that a condition describes exactly.  The runs that
keep the promise throughout are the runs that meet the condition throughout. -/
theorem keeping_iff_guarded (good : State -> Prop) {promise : State -> Act -> State -> Prop}
    {condition : State -> Act -> Prop} (initial : good start)
    (exactly : forall before act after, good before -> step before act after ->
      (promise before act after <-> condition before act))
    (preserved : forall before act after, good before -> step before act after ->
      promise before act after -> good after) :
    Reaches (keeping step promise) start acts final <->
      Reaches (guarded step condition) start acts final := by
  constructor
  · intro run
    induction run with
    | refl => exact .refl
    | tail earlier last inductionHypothesis =>
        have sound := earlier.invariant good initial fun before act after holds taken =>
          preserved before act after holds taken.2 taken.1
        exact .tail inductionHypothesis ⟨(exactly _ _ _ sound last.2).mp last.1, last.2⟩
  · exact keeping_of_guarded good initial
      (fun before act after holds taken => (exactly before act after holds taken).mpr)
      fun before act after holds taken meets =>
        preserved before act after holds taken ((exactly before act after holds taken).mpr meets)

end Reaches

end Library
end Pinyon
