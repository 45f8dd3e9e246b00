import Pinyon.Library.History

namespace Pinyon
namespace Library

universe u v w

/-!
# Switching between contexts

Several contexts take turns on one machine.  Each has a block of memory for its saved
state and a stack of its own.  The code of a switch keeps its promise when a context
that was switched out depends on nothing but these two, when saving one context
changes nothing else, and when entering another leads back to where it was.  Then no
run of switches, with anything in between that respects the other contexts, mixes
them up.
-/

/-- A way to switch.  `Enters` is a call that saves a context, or none, and is to enter
another one. -/
structure ContextSwitch (Machine Address Value Key : Type u) where
  memory : Machine -> Address -> Value
  block : Key -> Set Address
  stack : Key -> Set Address
  Leaves : Machine -> Machine -> Prop
  Enters : Machine -> Option Key -> Key -> Prop
  New : Key -> (Address -> Value) -> Prop
  Suspended : Key -> Machine -> (Address -> Value) -> Prop
  Running : Key -> (Address -> Value) -> Prop
  Returned : Key -> Machine -> Machine -> Prop

namespace ContextSwitch

variable {Machine Address Value Key : Type u}

/-- What can be entered: a new context, or one that was switched out. -/
def Waits (switch : ContextSwitch Machine Address Value Key) (key : Key)
    (memory : Address -> Value) : Prop :=
  switch.New key memory ∨ Exists fun call => switch.Suspended key call memory

/-- What comes of entering a context. -/
structure Entered (switch : ContextSwitch Machine Address Value Key) (key : Key)
    (call after : Machine) : Prop where
  leaves : switch.Leaves call after
  running : switch.Running key (switch.memory after)
  returned : forall old, switch.Suspended key old (switch.memory call) ->
    switch.Returned key old after

/-- The promise of the code of a switch. -/
structure Works (switch : ContextSwitch Machine Address Value Key) : Prop where
  apart : forall key other, key ≠ other ->
    Disjoint (switch.block key ∪ switch.stack key) (switch.block other ∪ switch.stack other)
  unique : forall call after other, switch.Leaves call after -> switch.Leaves call other ->
    other = after
  newCongr : forall key before after,
    (forall address, address ∈ switch.block key -> after address = before address) ->
    switch.New key before -> switch.New key after
  suspendedCongr : forall key call before after,
    (forall address, address ∈ switch.block key ∪ switch.stack key ->
      after address = before address) ->
    switch.Suspended key call before -> switch.Suspended key call after
  runningCongr : forall key before after,
    (forall address, address ∈ switch.block key -> after address = before address) ->
    switch.Running key before -> switch.Running key after
  saves : forall call current next, current ≠ next -> switch.Enters call (some current) next ->
    switch.Running current (switch.memory call) -> switch.Waits next (switch.memory call) ->
    Exists fun after => switch.Entered next call after ∧
      switch.Suspended current call (switch.memory after) ∧
      forall address, address ∉ switch.block current ∪ switch.stack current ->
        switch.memory after address = switch.memory call address
  starts : forall call next, switch.Enters call none next ->
    switch.Waits next (switch.memory call) ->
    Exists fun after => switch.Entered next call after ∧
      forall address, switch.memory after address = switch.memory call address

/-! ## Runs -/

/-- What may be switched to.  A context that was switched out goes on from the state of
its call. -/
inductive Standing (Machine : Type u) where
  | new
  | switchedOut (call : Machine)
  | notWaiting

structure Contexts (Machine Key : Type u) where
  machine : Machine
  running : Option Key
  standing : Key -> Standing Machine

inductive ContextEvent (Key : Type u) where
  | work
  | switchTo (next : Key)
  | start (next : Key)

variable {switch : ContextSwitch Machine Address Value Key} {state after : Contexts Machine Key}

/-- What the running context leaves alone: the blocks of the contexts there are, and the
stacks of those that were switched out. -/
structure KeepsOthers (switch : ContextSwitch Machine Address Value Key)
    (state : Contexts Machine Key) (after : Machine) : Prop where
  blocks : forall key, state.standing key ≠ .notWaiting ∨ state.running = some key ->
    forall address, address ∈ switch.block key ->
      switch.memory after address = switch.memory state.machine address
  ownStack : forall key call, state.standing key = .switchedOut call ->
    forall address, address ∈ switch.stack key ->
      switch.memory after address = switch.memory state.machine address

/-- A call of the switch in a run. -/
structure Calls (switch : ContextSwitch Machine Address Value Key) (state : Contexts Machine Key)
    (saved : Option Key) (next : Key) : Prop where
  enters : switch.Enters state.machine saved next
  waiting : state.standing next ≠ .notWaiting
  isRunning : forall current, saved = some current -> state.running = some current ∧ current ≠ next

inductive SwitchStep [DecidableEq Key] (switch : ContextSwitch Machine Address Value Key) :
    Contexts Machine Key -> ContextEvent Key -> Contexts Machine Key -> Prop
  | work {state : Contexts Machine Key} {machine : Machine} :
      KeepsOthers switch state machine ->
        SwitchStep switch state .work { state with machine := machine }
  | switchTo {state : Contexts Machine Key} {current next : Key} {machine : Machine} :
      Calls switch state (some current) next -> switch.Leaves state.machine machine ->
        SwitchStep switch state (.switchTo next)
          { machine := machine
            running := some next
            standing := Function.update
              (Function.update state.standing current (.switchedOut state.machine)) next .notWaiting }
  | start {state : Contexts Machine Key} {next : Key} {machine : Machine} :
      Calls switch state none next -> switch.Leaves state.machine machine ->
        SwitchStep switch state (.start next)
          { machine := machine
            running := some next
            standing := Function.update state.standing next .notWaiting }

/-- The invariant of every run. -/
structure Kept (switch : ContextSwitch Machine Address Value Key) (state : Contexts Machine Key) :
    Prop where
  new : forall key, state.standing key = .new -> switch.New key (switch.memory state.machine)
  suspended : forall key call, state.standing key = .switchedOut call ->
    switch.Suspended key call (switch.memory state.machine)
  running : forall key, state.running = some key ->
    switch.Running key (switch.memory state.machine)

theorem Kept.waits (kept : Kept switch state) {key : Key}
    (waiting : state.standing key ≠ .notWaiting) :
    switch.Waits key (switch.memory state.machine) := by
  cases standing : state.standing key with
  | new => exact .inl (kept.new key standing)
  | switchedOut call => exact .inr ⟨call, kept.suspended key call standing⟩
  | notWaiting => exact absurd standing waiting

theorem Kept.work (works : switch.Works) (kept : Kept switch state) {machine : Machine}
    (keeps : KeepsOthers switch state machine) :
    Kept switch { state with machine := machine } where
  new := fun key new =>
    works.newCongr key _ _ (keeps.blocks key (.inl (by
      rw [new]
      exact fun wrong => by cases wrong))) (kept.new key new)
  suspended := fun key call switchedOut => by
    refine works.suspendedCongr key call _ _ (fun address member => ?_)
      (kept.suspended key call switchedOut)
    rcases member with inBlock | onStack
    · refine keeps.blocks key (.inl ?_) address inBlock
      rw [switchedOut]
      exact fun wrong => by cases wrong
    · exact keeps.ownStack key call switchedOut address onStack
  running := fun key running =>
    works.runningCongr key _ _ (keeps.blocks key (.inr running)) (kept.running key running)

variable [DecidableEq Key]

/-- Entering a context that changes nothing of the others. -/
theorem Kept.enter {machine : Machine} {next : Key}
    {standing : Key -> Standing Machine}
    (new : forall key, key ≠ next -> standing key = .new ->
      switch.New key (switch.memory machine))
    (suspended : forall key call, key ≠ next -> standing key = .switchedOut call ->
      switch.Suspended key call (switch.memory machine))
    (running : switch.Running next (switch.memory machine)) :
    Kept switch
      { machine := machine, running := some next
        standing := Function.update standing next .notWaiting } where
  new := fun key isNew => by
    by_cases same : key = next
    · subst same
      cases (Function.update_self key _ standing).symm.trans isNew
    · exact new key same ((Function.update_of_ne same _ _).symm.trans isNew)
  suspended := fun key call switchedOut => by
    by_cases same : key = next
    · subst same
      cases (Function.update_self key _ standing).symm.trans switchedOut
    · exact suspended key call same ((Function.update_of_ne same _ _).symm.trans switchedOut)
  running := fun key isRunning => by
    cases isRunning
    exact running

theorem Kept.step (works : switch.Works) {event : ContextEvent Key} (kept : Kept switch state)
    (stepped : SwitchStep switch state event after) : Kept switch after := by
  cases stepped with
  | work keeps => exact kept.work works keeps
  | @switchTo current next machine calls leaves =>
      rcases calls.isRunning current rfl with ⟨isRunning, different⟩
      rcases works.saves _ current next different calls.enters (kept.running current isRunning)
        (kept.waits calls.waiting) with ⟨entered, enters, saved, outside⟩
      cases works.unique _ _ _ enters.leaves leaves
      have others : forall key, key ≠ current -> forall address,
          address ∈ switch.block key ∪ switch.stack key ->
            switch.memory machine address = switch.memory state.machine address :=
        fun key other address member =>
          outside address fun within =>
            Set.disjoint_left.mp (works.apart key current other) member within
      refine Kept.enter ?_ ?_ enters.running
      · intro key _ isNew
        by_cases same : key = current
        · subst same
          cases (Function.update_self key _ state.standing).symm.trans isNew
        · refine works.newCongr key _ _ (fun address member => others key same address (.inl member))
            (kept.new key ((Function.update_of_ne same _ _).symm.trans isNew))
      · intro key call _ switchedOut
        by_cases same : key = current
        · subst same
          cases (Function.update_self key _ state.standing).symm.trans switchedOut
          exact saved
        · exact works.suspendedCongr key call _ _ (others key same)
            (kept.suspended key call ((Function.update_of_ne same _ _).symm.trans switchedOut))
  | @start next machine calls leaves =>
      rcases works.starts _ next calls.enters (kept.waits calls.waiting) with
        ⟨entered, enters, unchanged⟩
      cases works.unique _ _ _ enters.leaves leaves
      refine Kept.enter ?_ ?_ enters.running
      · exact fun key _ isNew =>
          works.newCongr key _ _ (fun address _ => unchanged address) (kept.new key isNew)
      · exact fun key call _ switchedOut =>
          works.suspendedCongr key call _ _ (fun address _ => unchanged address)
            (kept.suspended key call switchedOut)

/-- In every run, a call of the switch comes to its end in one way, and when it enters a
context that was switched out it returns to where this context was. -/
theorem Works.transparent (works : switch.Works) {start : Contexts Machine Key}
    {events : List (ContextEvent Key)} (initial : Kept switch start)
    (reached : Reaches (SwitchStep switch) start events state) {saved : Option Key} {next : Key}
    (calls : Calls switch state saved next) :
    Exists fun after => switch.Leaves state.machine after ∧
      (forall other, switch.Leaves state.machine other -> other = after) ∧
      forall old, state.standing next = .switchedOut old -> switch.Returned next old after := by
  have kept := reached.invariant (Kept switch) initial
    fun _ _ _ holds stepped => holds.step works stepped
  have waits := kept.waits calls.waiting
  have entered : Exists fun after => switch.Entered next state.machine after := by
    cases saved with
    | none =>
        rcases works.starts _ next calls.enters waits with ⟨after, entered, _⟩
        exact ⟨after, entered⟩
    | some current =>
        rcases calls.isRunning current rfl with ⟨isRunning, different⟩
        rcases works.saves _ current next different calls.enters
          (kept.running current isRunning) waits with ⟨after, entered, _⟩
        exact ⟨after, entered⟩
  rcases entered with ⟨after, entered⟩
  exact ⟨after, entered.leaves, fun other leaves => works.unique _ _ _ entered.leaves leaves,
    fun old switchedOut => entered.returned old (kept.suspended next old switchedOut)⟩

end ContextSwitch

end Library
end Pinyon
