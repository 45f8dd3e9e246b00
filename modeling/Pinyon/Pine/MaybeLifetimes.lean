import Pinyon.Library.History
import Pinyon.Library.Lifetimes

namespace Pinyon
namespace Pine

open Library LifeEvent

/-!
# The values of `Maybe`s

A `Maybe` is a flag and the storage for a value.  The two are updated apart from each
other: `release_value` takes the flag down and leaves the value that was moved from where
it is, and a copy assignment does not look at what is in the storage.

Every `Maybe` has a number of its own, which stands for its storage too.  The values that
are handed in or out live elsewhere.
-/

/-- `m_has_value` of the `Maybe`s that there are, how many have been made so far, and what
happened in their storages. -/
structure MaybePool where
  hasValue : Nat -> Option Bool
  made : Nat
  log : List (LifeEvent Nat Unit)

/-- A new `Maybe` has the next number.  The one that is moved from when another is
constructed may be for another type. -/
inductive MaybeCall where
  | empty
  | ofValue
  | copyConstruct (other : Nat)
  | moveConstruct (other : Nat)
  | copyAssign (this other : Nat)
  | moveAssign (this other : Nat)
  | releaseValue (this : Nat)
  | destroy (this : Nat)

namespace MaybePool

/-! ## The code -/

def none_ : MaybePool where
  hasValue := fun _ => none
  made := 0
  log := []

/-- Sets `m_has_value`. -/
def setHasValue (pool : MaybePool) (this : Nat) (value : Bool) : MaybePool :=
  { pool with hasValue := Function.update pool.hasValue this (some value) }

/-- Placement new, in the storage of a `Maybe`. -/
def construct (pool : MaybePool) (this : Nat) : MaybePool :=
  { pool with log := .construct this () :: pool.log }

def destroyValueIfPresent (pool : MaybePool) (this : Nat) : MaybePool :=
  if pool.hasValue this = some true then { pool with log := .destroy this () :: pool.log }
  else pool

/-- `release_value`, with the value moved out. -/
def releaseValue (pool : MaybePool) (this : Nat) : MaybePool :=
  pool.setHasValue this false

/-- A new `Maybe` without a value. -/
def make (pool : MaybePool) : MaybePool :=
  { pool.setHasValue pool.made false with made := pool.made + 1 }

def perform (pool : MaybePool) : MaybeCall -> Option MaybePool
  | .empty => some pool.make
  | .ofValue => some ((pool.make.setHasValue pool.made true).construct pool.made)
  | .copyConstruct other => do
      let hasValue <- pool.hasValue other
      let made := pool.make.setHasValue pool.made hasValue
      return if hasValue then made.construct pool.made else made
  | .moveConstruct other => do
      let hasValue <- pool.hasValue other
      let made := pool.make.setHasValue pool.made hasValue
      return if hasValue then (made.releaseValue other).construct pool.made else made
  | .copyAssign this other => do
      let _ <- pool.hasValue this
      let hasValue <- pool.hasValue other
      if this = other then return pool
      let flagged := pool.setHasValue this hasValue
      return if hasValue then flagged.construct this else flagged
  | .moveAssign this other => do
      let _ <- pool.hasValue this
      let hasValue <- pool.hasValue other
      if this = other then return pool
      let flagged := (pool.destroyValueIfPresent this).setHasValue this hasValue
      return if hasValue then (flagged.releaseValue other).construct this else flagged
  | .releaseValue this => do
      let _ <- pool.hasValue this
      return pool.releaseValue this
  | .destroy this => do
      let _ <- pool.hasValue this
      let destroyed := pool.destroyValueIfPresent this
      return { destroyed with
        hasValue := Function.update destroyed.hasValue this none
        log := .giveBack this :: destroyed.log }

def Step (before : MaybePool) (call : MaybeCall) (after : MaybePool) : Prop :=
  before.perform call = some after

/-! ## What a call can do -/

/-- The outcomes of the calls, with the flags that were looked at. -/
inductive Outcome (before : MaybePool) : MaybeCall -> MaybePool -> Prop
  | empty : Outcome before .empty before.make
  | ofValue :
      Outcome before .ofValue
        ((before.make.setHasValue before.made true).construct before.made)
  | copied (other : Nat) (full : before.hasValue other = some true) :
      Outcome before (.copyConstruct other)
        ((before.make.setHasValue before.made true).construct before.made)
  | copiedNone (other : Nat) (bare : before.hasValue other = some false) :
      Outcome before (.copyConstruct other) (before.make.setHasValue before.made false)
  | moved (other : Nat) (full : before.hasValue other = some true) :
      Outcome before (.moveConstruct other)
        (((before.make.setHasValue before.made true).releaseValue other).construct before.made)
  | movedNone (other : Nat) (bare : before.hasValue other = some false) :
      Outcome before (.moveConstruct other) (before.make.setHasValue before.made false)
  | copyItself (this : Nat) : Outcome before (.copyAssign this this) before
  | copyAssigned (this other : Nat) (old : Bool) (different : this ≠ other)
      (here : before.hasValue this = some old) (full : before.hasValue other = some true) :
      Outcome before (.copyAssign this other) ((before.setHasValue this true).construct this)
  | copyAssignedNone (this other : Nat) (old : Bool) (different : this ≠ other)
      (here : before.hasValue this = some old) (bare : before.hasValue other = some false) :
      Outcome before (.copyAssign this other) (before.setHasValue this false)
  | moveItself (this : Nat) : Outcome before (.moveAssign this this) before
  | moveAssigned (this other : Nat) (old : Bool) (different : this ≠ other)
      (here : before.hasValue this = some old) (full : before.hasValue other = some true) :
      Outcome before (.moveAssign this other)
        ((((before.destroyValueIfPresent this).setHasValue this true).releaseValue other).construct
          this)
  | moveAssignedNone (this other : Nat) (old : Bool) (different : this ≠ other)
      (here : before.hasValue this = some old) (bare : before.hasValue other = some false) :
      Outcome before (.moveAssign this other)
        ((before.destroyValueIfPresent this).setHasValue this false)
  | released (this : Nat) (old : Bool) (here : before.hasValue this = some old) :
      Outcome before (.releaseValue this) (before.releaseValue this)
  | destroyed (this : Nat) (old : Bool) (here : before.hasValue this = some old) :
      Outcome before (.destroy this)
        { before.destroyValueIfPresent this with
          hasValue := Function.update (before.destroyValueIfPresent this).hasValue this none
          log := .giveBack this :: (before.destroyValueIfPresent this).log }

theorem step_cases {before after : MaybePool} {call : MaybeCall} (step : Step before call after) :
    Outcome before call after := by
  cases call with
  | empty =>
      cases step
      exact .empty
  | ofValue =>
      cases step
      exact .ofValue
  | copyConstruct other =>
      rcases Option.bind_eq_some_iff.mp step with ⟨hasValue, there, rest⟩
      cases rest
      cases hasValue with
      | false => exact .copiedNone other there
      | true => exact .copied other there
  | moveConstruct other =>
      rcases Option.bind_eq_some_iff.mp step with ⟨hasValue, there, rest⟩
      cases rest
      cases hasValue with
      | false => exact .movedNone other there
      | true => exact .moved other there
  | copyAssign this other =>
      rcases Option.bind_eq_some_iff.mp step with ⟨old, here, rest⟩
      rcases Option.bind_eq_some_iff.mp rest with ⟨hasValue, there, rest⟩
      by_cases same : this = other
      · subst same
        rw [if_pos rfl] at rest
        cases rest
        exact .copyItself this
      · rw [if_neg same] at rest
        cases rest
        cases hasValue with
        | false => exact .copyAssignedNone this other old same here there
        | true => exact .copyAssigned this other old same here there
  | moveAssign this other =>
      rcases Option.bind_eq_some_iff.mp step with ⟨old, here, rest⟩
      rcases Option.bind_eq_some_iff.mp rest with ⟨hasValue, there, rest⟩
      by_cases same : this = other
      · subst same
        rw [if_pos rfl] at rest
        cases rest
        exact .moveItself this
      · rw [if_neg same] at rest
        cases rest
        cases hasValue with
        | false => exact .moveAssignedNone this other old same here there
        | true => exact .moveAssigned this other old same here there
  | releaseValue this =>
      rcases Option.bind_eq_some_iff.mp step with ⟨old, here, rest⟩
      cases rest
      exact .released this old here
  | destroy this =>
      rcases Option.bind_eq_some_iff.mp step with ⟨old, here, rest⟩
      cases rest
      exact .destroyed this old here

/-! ## What is promised -/

/-- Each `Maybe` that has a value holds one, the others hold none, no value has been
overwritten, and when there are no more `Maybe`s their values have been destroyed. -/
structure Balanced (pool : MaybePool) : Prop where
  orderly : Orderly pool.log
  holds : forall this, Lives pool.log this () <-> pool.hasValue this = some true
  destroyed : (forall this, pool.hasValue this = none) -> forall this,
    pool.log.count (.construct this ()) = pool.log.count (.destroy this ())

/-- Nothing is moved out of a `Maybe` that has a value, and none that has one is assigned a
copy of another. -/
def Keeps (pool : MaybePool) : MaybeCall -> Prop
  | .empty | .ofValue | .copyConstruct _ | .destroy _ => True
  | .moveConstruct other => pool.hasValue other ≠ some true
  | .copyAssign this other => this ≠ other -> pool.hasValue this ≠ some true
  | .moveAssign this other => this ≠ other -> pool.hasValue other ≠ some true
  | .releaseValue this => pool.hasValue this ≠ some true

/-- The numbers that have not been given to a `Maybe` so far. -/
def Numbered (pool : MaybePool) : Prop :=
  forall this, pool.made ≤ this -> pool.hasValue this = none

/-! ## The parts of a call -/

/-- The storages hold a value where the flags say so. -/
def Agree (pool : MaybePool) : Prop :=
  Orderly pool.log ∧ forall this, Lives pool.log this () <-> pool.hasValue this = some true

theorem balanced_iff {pool : MaybePool} : Balanced pool <-> Agree pool := by
  constructor
  · exact fun balanced => ⟨balanced.orderly, balanced.holds⟩
  · rintro ⟨orderly, holds⟩
    refine ⟨orderly, holds, fun gone this => ?_⟩
    rcases orderly.balance this () with ⟨lives, _⟩ | ⟨_, equal⟩
    · rw [holds, gone] at lives
      cases lives
    · exact equal

namespace Agree

variable {pool : MaybePool} {this other : Nat}

/-- A value that is there while the flag is down. -/
theorem not_of_left (lives : Lives pool.log this ()) (down : pool.hasValue this = some false) :
    ¬ Agree pool := by
  intro agree
  have up := (agree.2 this).mp lives
  rw [down] at up
  cases up

theorem setFalse (agree : Agree pool) (without : pool.hasValue this ≠ some true) :
    Agree (pool.setHasValue this false) := by
  refine ⟨agree.1, fun place => ?_⟩
  change Lives pool.log place () <-> Function.update pool.hasValue this (some false) place = some true
  rw [agree.2 place]
  by_cases same : place = this
  · subst same
    rw [Function.update_self]
    exact iff_of_false without (by simp)
  · rw [Function.update_of_ne same]

theorem construct (agree : Agree pool) (without : pool.hasValue this ≠ some true) :
    Agree ((pool.setHasValue this true).construct this) := by
  refine ⟨⟨agree.1, fun lives => without ((agree.2 this).mp lives)⟩, fun place => ?_⟩
  change Lives (.construct this () :: pool.log) place () <->
    Function.update pool.hasValue this (some true) place = some true
  rw [lives_construct, agree.2 place]
  by_cases same : place = this
  · subst same
    rw [Function.update_self]
    exact iff_of_true (.inl ⟨rfl, rfl⟩) rfl
  · rw [Function.update_of_ne same]
    exact or_iff_right fun both => same both.1

/-- What `destroy_value_if_present` leaves behind, except for the flag. -/
theorem destroyed (agree : Agree pool) (this : Nat) :
    Orderly (pool.destroyValueIfPresent this).log ∧
      forall place, Lives (pool.destroyValueIfPresent this).log place () <->
        place ≠ this ∧ pool.hasValue place = some true := by
  rw [destroyValueIfPresent]
  split
  next present =>
      refine ⟨⟨agree.1, (agree.2 this).mpr present⟩, fun place => ?_⟩
      change Lives (.destroy this () :: pool.log) place () <-> _
      rw [lives_destroy, agree.2 place]
      simp
  next absent =>
      refine ⟨agree.1, fun place => ?_⟩
      rw [agree.2 place]
      constructor
      · exact fun present => ⟨fun same => absent (same ▸ present), present⟩
      · exact And.right

theorem hasValue_destroyed (pool : MaybePool) (this : Nat) :
    (pool.destroyValueIfPresent this).hasValue = pool.hasValue := by
  rw [destroyValueIfPresent]
  split <;> rfl

theorem empty (agree : Agree pool) (this : Nat) :
    Agree ((pool.destroyValueIfPresent this).setHasValue this false) := by
  rcases agree.destroyed this with ⟨orderly, lives⟩
  refine ⟨orderly, fun place => ?_⟩
  change Lives (pool.destroyValueIfPresent this).log place () <->
    Function.update (pool.destroyValueIfPresent this).hasValue this (some false) place = some true
  rw [lives place, hasValue_destroyed]
  by_cases same : place = this
  · subst same
    rw [Function.update_self]
    exact iff_of_false (fun both => both.1 rfl) (by simp)
  · rw [Function.update_of_ne same]
    exact and_iff_right same

theorem giveBack (agree : Agree pool) (this : Nat) :
    Agree
      { pool.destroyValueIfPresent this with
        hasValue := Function.update (pool.destroyValueIfPresent this).hasValue this none
        log := .giveBack this :: (pool.destroyValueIfPresent this).log } := by
  rcases agree.destroyed this with ⟨orderly, lives⟩
  refine ⟨⟨orderly, fun slot present => ((lives this).mp present).1 rfl⟩, fun place => ?_⟩
  change Lives (.giveBack this :: (pool.destroyValueIfPresent this).log) place () <->
    Function.update (pool.destroyValueIfPresent this).hasValue this none place = some true
  rw [lives_giveBack, lives place, hasValue_destroyed]
  by_cases same : place = this
  · subst same
    rw [Function.update_self]
    exact iff_of_false (fun both => both.1 rfl) (by simp)
  · rw [Function.update_of_ne same]
    exact and_iff_right same

end Agree

/-! ## One call -/

variable {before after : MaybePool} {call : MaybeCall}

theorem made_lt (numbered : Numbered before) {this : Nat} {value : Bool}
    (there : before.hasValue this = some value) : this < before.made := by
  by_contra outside
  rw [numbered this (Nat.le_of_not_lt outside)] at there
  cases there

theorem make_agree (numbered : Numbered before) (agree : Agree before) : Agree before.make :=
  agree.setFalse (by rw [numbered before.made (Nat.le_refl _)]; simp)

theorem make_hasValue (pool : MaybePool) : pool.make.hasValue pool.made ≠ some true := by
  change Function.update pool.hasValue pool.made (some false) pool.made ≠ some true
  rw [Function.update_self]
  simp

/-- A call that keeps the condition keeps the balance. -/
theorem agree_of_keeps (numbered : Numbered before) (agree : Agree before)
    (step : Step before call after) (keeps : before.Keeps call) : Agree after := by
  have made := make_agree numbered agree
  have bare := make_hasValue before
  cases step_cases step with
  | empty => exact made
  | ofValue => exact made.construct bare
  | copied other full => exact made.construct bare
  | copiedNone other _ => exact made.setFalse bare
  | moved other full => exact absurd full keeps
  | movedNone other _ => exact made.setFalse bare
  | copyItself this => exact agree
  | copyAssigned this other old different here full => exact agree.construct (keeps different)
  | copyAssignedNone this other old different here _ => exact agree.setFalse (keeps different)
  | moveItself this => exact agree
  | moveAssigned this other old different here full => exact absurd full (keeps different)
  | moveAssignedNone this other old different here _ => exact agree.empty this
  | released this old here => exact agree.setFalse keeps
  | destroyed this old here => exact agree.giveBack this

/-- A call that does not leaves a value behind or overwrites one. -/
theorem keeps_of_agree (agree : Agree before) (step : Step before call after)
    (balanced : Agree after) : before.Keeps call := by
  cases step_cases step with
  | empty => trivial
  | ofValue => trivial
  | copied other full => trivial
  | copiedNone other bare => trivial
  | destroyed this old here => trivial
  | moved other full =>
      refine absurd balanced (Agree.not_of_left (.inr ((agree.2 other).mpr full)) ?_)
      exact Function.update_self ..
  | movedNone other bare =>
      intro full
      cases bare.symm.trans full
  | copyItself this => exact fun different => absurd rfl different
  | copyAssigned this other old different here full =>
      exact fun _ up => balanced.1.2 ((agree.2 this).mpr up)
  | copyAssignedNone this other old different here bare =>
      intro _ up
      refine @Agree.not_of_left (before.setHasValue this false) this ((agree.2 this).mpr up) ?_ balanced
      exact Function.update_self ..
  | moveItself this => exact fun different => absurd rfl different
  | moveAssigned this other old different here full =>
      have lives := ((agree.destroyed this).2 other).mpr ⟨Ne.symm different, full⟩
      refine absurd balanced (Agree.not_of_left (.inr lives) ?_)
      exact Function.update_self ..
  | moveAssignedNone this other old different here bare =>
      intro _ full
      cases bare.symm.trans full
  | released this old here =>
      intro full
      refine @Agree.not_of_left (before.releaseValue this) this ((agree.2 this).mpr full) ?_ balanced
      exact Function.update_self ..

/-! ## Numbers -/

namespace Numbered

variable {pool : MaybePool} {this : Nat}

theorem update (numbered : Numbered pool) (old : this < pool.made) (value : Option Bool) {place : Nat}
    (new : pool.made ≤ place) : Function.update pool.hasValue this value place = none := by
  rw [Function.update_of_ne (by omega), numbered place new]

theorem setHasValue (numbered : Numbered pool) (old : this < pool.made) (value : Bool) :
    Numbered (pool.setHasValue this value) :=
  fun _ new => numbered.update old (some value) new

theorem make (numbered : Numbered pool) : Numbered pool.make := by
  intro place new
  have behind : pool.made < place := new
  change Function.update pool.hasValue pool.made (some false) place = none
  rw [Function.update_of_ne (by omega), numbered place behind.le]

theorem destroyValueIfPresent (numbered : Numbered pool) (this : Nat) :
    Numbered (pool.destroyValueIfPresent this) := by
  rw [MaybePool.destroyValueIfPresent]
  split <;> exact numbered

theorem destroyed_made (pool : MaybePool) (this : Nat) :
    (pool.destroyValueIfPresent this).made = pool.made := by
  rw [MaybePool.destroyValueIfPresent]
  split <;> rfl

/-- A number is not given to a second `Maybe`. -/
theorem step (numbered : Numbered before) (step : Step before call after) : Numbered after := by
  have newest : before.made < before.make.made := Nat.lt_succ_self before.made
  have known {this : Nat} {old : Bool} (here : before.hasValue this = some old) (other : Nat) :
      this < (before.destroyValueIfPresent other).made :=
    destroyed_made before other ▸ made_lt numbered here
  cases step_cases step with
  | empty => exact numbered.make
  | ofValue => exact numbered.make.setHasValue newest true
  | copied other full => exact numbered.make.setHasValue newest true
  | copiedNone other bare => exact numbered.make.setHasValue newest false
  | moved other full =>
      have old : other < before.make.made := (made_lt numbered full).trans newest
      exact (numbered.make.setHasValue newest true).setHasValue old false
  | movedNone other bare => exact numbered.make.setHasValue newest false
  | copyItself this => exact numbered
  | copyAssigned this other old different here full =>
      exact numbered.setHasValue (made_lt numbered here) true
  | copyAssignedNone this other old different here bare =>
      exact numbered.setHasValue (made_lt numbered here) false
  | moveItself this => exact numbered
  | moveAssigned this other old different here full =>
      have set_ := (numbered.destroyValueIfPresent this).setHasValue (known here this) true
      exact set_.setHasValue (known full this) false
  | moveAssignedNone this other old different here bare =>
      exact (numbered.destroyValueIfPresent this).setHasValue (known here this) false
  | released this old here => exact numbered.setHasValue (made_lt numbered here) false
  | destroyed this old here =>
      exact fun place new => (numbered.destroyValueIfPresent this).update (known here this) none new

end Numbered

theorem numbered_none : Numbered none_ :=
  fun _ _ => rfl

theorem balanced_none : Balanced none_ :=
  balanced_iff.mpr ⟨trivial, fun _ => by simp [none_]⟩

/-! ## Runs -/

/-- The `Maybe`s are balanced throughout a run just when nothing is moved out of one with
a value in it, and none with a value is assigned a copy. -/
theorem balanced_iff_keeps (calls : List MaybeCall) (pool : MaybePool) :
    Reaches (keeping Step fun _ _ after => Balanced after) none_ calls pool <->
      Reaches (guarded Step Keeps) none_ calls pool := by
  refine Reaches.keeping_iff_guarded (fun pool => Numbered pool ∧ Balanced pool)
    ⟨numbered_none, balanced_none⟩ ?_ ?_
  · intro before call after holds step
    have agree := balanced_iff.mp holds.2
    constructor
    · exact fun balanced => keeps_of_agree agree step (balanced_iff.mp balanced)
    · exact fun keeps => balanced_iff.mpr (agree_of_keeps holds.1 agree step keeps)
  · exact fun before call after holds step balanced => ⟨holds.1.step step, balanced⟩

/-- A value is copied to a `Maybe` that has one already. -/
theorem assignment_overwrites : Exists fun pool =>
    Reaches Step none_ [.copyAssign 0 1, .ofValue, .ofValue] pool ∧ ¬ Balanced pool := by
  refine ⟨_, .tail (.tail (.tail .refl rfl) rfl) rfl, fun balanced => ?_⟩
  have orderly := balanced.orderly
  simp [none_, make, setHasValue, MaybePool.construct] at orderly

end MaybePool

end Pine
end Pinyon
