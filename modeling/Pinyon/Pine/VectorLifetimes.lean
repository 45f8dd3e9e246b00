import Mathlib
import Pinyon.Library.History
import Pinyon.Library.Lifetimes
import Pinyon.Pine.VectorSafety

namespace Pinyon
namespace Pine

open Library LifeEvent

/-!
# The objects of a vector

Which constructors and destructors run in the buffers of vectors, over a run in
which vectors are made, moved, assigned and destroyed.  A buffer is a storage, known
by the number of the successful allocation that obtained it; its slots are the
places of elements.

`resize` and `remove` construct the elements anew in the next buffer, and leave the
originals they moved from to the old one.  The destructor of a vector is the one
that `Owner` uses, which destroys one object.  The allocator that a buffer goes back
to plays no part here.
-/

/-- A vector with the storage that `m_contents` points to. -/
structure HeldVector (Value : Type) where
  vector : Vector Value
  storage : Nat

/-- The vectors by their variables, the number of storages obtained so far, and what
happened in them. -/
structure VectorPool (Value : Type) where
  vectors : Nat -> Option (HeldVector Value)
  storages : Nat
  log : List (LifeEvent Nat Nat)

inductive PoolCall (Value : Type) where
  | create (variable_ : Nat)
  | call (variable_ : Nat) (call : VectorCall Value)
  | moveConstruct (target source : Nat)
  | moveAssign (target source : Nat)
  | destroy (variable_ : Nat)

variable {Value : Type}

/-! ## The code -/

namespace HeldVector

/-- A vector without elements and without a buffer. -/
def fresh (Value : Type) : HeldVector Value where
  vector := Vector.empty Value
  storage := 0

/-- `~Vector`: `DefaultDestructor::destroy` on `m_contents`, if that is not null. -/
def destructorEvents (held : HeldVector Value) : List (LifeEvent Nat Nat) :=
  if held.vector.contents ≠ 0 then [giveBack held.storage, .destroy held.storage 0] else []

/-- How `resize` and `remove` end: elements are constructed in the new buffer, and the
old one is given back. -/
def moveEvents (held : HeldVector Value) (elements storage : Nat) : List (LifeEvent Nat Nat) :=
  (if held.vector.contents ≠ 0 then [giveBack held.storage] else []) ++ row storage elements

/-- What a call does, whose outcome may be that it has moved to another storage. -/
def callEvents (held : HeldVector Value) (outcome : VectorOutcome Value) (storage : Nat) :
    VectorCall Value -> List (LifeEvent Nat Nat)
  | .ensure _ _ =>
      if outcome.obtained.isSome then held.moveEvents held.vector.count storage else []
  | .append _ _ =>
      (if outcome.result then
        [construct (if outcome.obtained.isSome then storage else held.storage) held.vector.count]
        else []) ++
      if outcome.obtained.isSome then held.moveEvents held.vector.count storage else []
  | .remove _ index =>
      (if outcome.obtained.isSome then held.moveEvents (held.vector.count - 1) storage else []) ++
      if index < held.vector.count then [.destroy held.storage index] else []

end HeldVector

namespace VectorPool

def empty (Value : Type) : VectorPool Value where
  vectors := fun _ => none
  storages := 0
  log := []

def perform (target : Target) (element : ElementSize) (pool : VectorPool Value) :
    PoolCall Value -> Option (VectorPool Value)
  | .create variable_ =>
      if (pool.vectors variable_).isNone then
        some { pool with
          vectors := Function.update pool.vectors variable_ (some (HeldVector.fresh Value)) }
      else none
  | .call variable_ call => do
      let held <- pool.vectors variable_
      let outcome <- call.run target element held.vector
      let obtained := outcome.obtained.isSome
      let after : HeldVector Value :=
        { vector := outcome.vector
          storage := if obtained then pool.storages else held.storage }
      return {
        vectors := Function.update pool.vectors variable_ (some after)
        storages := if obtained then pool.storages + 1 else pool.storages
        log := held.callEvents outcome pool.storages call ++ pool.log }
  | .moveConstruct destination source => do
      let other <- pool.vectors source
      if (pool.vectors destination).isNone then
        return { pool with
          vectors := Function.update
            (Function.update pool.vectors source (some (HeldVector.fresh Value)))
            destination (some other) }
      else none
  | .moveAssign destination source => do
      -- the argument is constructed from the source, swapped with the target and destroyed
      let other <- pool.vectors source
      let moved := Function.update pool.vectors source (some (HeldVector.fresh Value))
      let this <- moved destination
      return { pool with
        vectors := Function.update moved destination (some other)
        log := this.destructorEvents ++ pool.log }
  | .destroy variable_ => do
      let held <- pool.vectors variable_
      return { pool with
        vectors := Function.update pool.vectors variable_ none
        log := held.destructorEvents ++ pool.log }

def Step (target : Target) (element : ElementSize) (before : VectorPool Value)
    (call : PoolCall Value) (after : VectorPool Value) : Prop :=
  before.perform target element call = some after

end VectorPool

/-! ## The condition -/

/-- The vector is moved to a larger buffer to hold an amount of elements. -/
def Vector.Grows (target : Target) (element : ElementSize) (allocate : Nat -> Allocation)
    (vector : Vector Value) (amount : Nat) : Prop :=
  vector.capacity < amount ∧ forall bytes, requestedBytes target element amount = some bytes ->
    (allocate bytes).ptr ≠ 0

/-- The vector grows only while it is empty, and loses only its last element. -/
def VectorCall.Spares (target : Target) (element : ElementSize) (vector : Vector Value) :
    VectorCall Value -> Prop
  | ensure allocate amount =>
      vector.Grows target element allocate amount -> vector.count = 0
  | append allocate _ =>
      vector.Grows target element allocate ((vector.count + 1) % target.wordLimit) ->
        vector.count = 0
  | remove _ index => index < vector.count -> index + 1 = vector.count

/-- Nothing but the object that the destructor destroys is there. -/
def HeldVector.Disposable (held : HeldVector Value) : Prop :=
  held.vector.contents ≠ 0 -> held.vector.count = 1

/-- Elements stay where they were constructed, and a vector that goes has one of them
or no buffer. -/
def VectorPool.Spares (target : Target) (element : ElementSize) (pool : VectorPool Value) :
    PoolCall Value -> Prop
  | .create _ => True
  | .call variable_ call => forall held, pool.vectors variable_ = some held ->
      call.Spares target element held.vector
  | .moveConstruct _ _ => True
  | .moveAssign destination source => destination ≠ source ->
      forall held, pool.vectors destination = some held -> held.Disposable
  | .destroy variable_ => forall held, pool.vectors variable_ = some held -> held.Disposable

/-! ## What a call does to one vector -/

namespace Vector

variable {target : Target} {element : ElementSize} {allocate : Nat -> Allocation}
variable {vector : Vector Value} {outcome : VectorOutcome Value} {amount index : Nat} {value : Value}

/-- The vector is in the block that the allocator answered with. -/
structure Renewed (vector : Vector Value) (outcome : VectorOutcome Value) : Prop where
  obtained : outcome.obtained.isSome = true
  contents : outcome.vector.contents ≠ 0
  count : outcome.vector.count = vector.count
  result : outcome.result = true

theorem renewed_of_moves {reply : Allocation} (count : outcome.vector.count = vector.count)
    (moves : Moves target element allocate amount reply outcome) : Renewed vector outcome where
  obtained := by
    rw [moves.obtained]
    rfl
  contents := by
    rw [moves.contents]
    exact moves.served
  count := count
  result := moves.result

theorem not_grows_of_stays {needs : Prop}
    (stays : Stays target element allocate needs amount vector outcome)
    (short : vector.capacity < amount -> needs) : ¬ vector.Grows target element allocate amount := by
  intro grows
  rcases stays.refused (short grows.1) with ⟨bytes, requested, refused⟩
  exact grows.2 bytes requested refused

theorem grows_of_moves {reply : Allocation} (short : vector.capacity < amount)
    (moves : Moves target element allocate amount reply outcome) :
    vector.Grows target element allocate amount := by
  refine ⟨short, fun bytes same => ?_⟩
  rcases moves.requested with ⟨asked, requested, answer⟩
  cases Option.some.inj (requested.symm.trans same)
  rw [answer]
  exact moves.served

/-- `ensure` leaves the vector alone or moves it to a larger buffer. -/
theorem ensure_renews (ran : vector.ensure target element allocate amount = some outcome) :
    ¬ vector.Grows target element allocate amount ∧ outcome.obtained = none ∧
        outcome.vector = vector ∧ (outcome.result = true -> amount ≤ vector.capacity) ∨
      vector.Grows target element allocate amount ∧ Renewed vector outcome := by
  have known := ensure_elements ran
  rcases ensure_cases ran with ⟨count, ⟨stays, enough⟩ | ⟨short, reply, moves⟩⟩
  · refine .inl ⟨not_grows_of_stays stays id, stays.obtained, ?_, enough.mp⟩
    cases success : outcome.result with
    | true =>
        rw [ensure, if_pos (enough.mp success)] at ran
        cases Option.some.inj ran
        rfl
    | false => exact known.2 success
  · exact .inr ⟨grows_of_moves short moves, renewed_of_moves count moves⟩

/-- `append` is an `ensure` that is followed by a store when it succeeds. -/
theorem append_renews (ran : vector.append target element allocate value = some outcome) :
    ¬ vector.Grows target element allocate ((vector.count + 1) % target.wordLimit) ∧
        outcome.obtained = none ∧ (outcome.result = false ∧ outcome.vector = vector ∨
          outcome.result = true ∧ outcome.vector = vector.emplaceUnensured value ∧
            (vector.count + 1) % target.wordLimit ≤ vector.capacity) ∨
      vector.Grows target element allocate ((vector.count + 1) % target.wordLimit) ∧
        outcome.obtained.isSome = true ∧ outcome.vector.contents ≠ 0 ∧
        outcome.vector.count = vector.count + 1 ∧ outcome.result = true := by
  rcases Option.bind_eq_some_iff.mp ran with ⟨ensured, prepared, rest⟩
  rcases ensure_renews prepared with ⟨stays, obtained, same, enough⟩ | ⟨grows, renewed⟩
  · cases success : ensured.result with
    | true =>
        simp only [success, if_true] at rest
        cases Option.some.inj rest
        refine .inl ⟨stays, obtained, .inr ⟨rfl, ?_, enough success⟩⟩
        dsimp only
        rw [same]
    | false =>
        simp only [success, Bool.false_eq_true, if_false] at rest
        cases Option.some.inj rest
        exact .inl ⟨stays, obtained, .inl ⟨success, same⟩⟩
  · simp only [renewed.result, if_true] at rest
    cases Option.some.inj rest
    exact .inr ⟨grows, renewed.obtained, renewed.contents, congrArg (· + 1) renewed.count, rfl⟩

/-- `remove` keeps the buffer unless the allocator has another one for the rest. -/
theorem remove_renews (ran : vector.remove target element allocate index = some outcome) :
    vector.count ≤ index ∧ outcome.obtained = none ∧ outcome.vector = vector ∨
      index < vector.count ∧ outcome.obtained = none ∧
        outcome.vector.count = vector.count - 1 ∧ outcome.vector.capacity = vector.capacity ∧
        outcome.vector.contents = vector.contents ∨
      index + 1 < vector.count ∧ outcome.obtained.isSome = true ∧ outcome.vector.contents ≠ 0 := by
  cases remove_case ran with
  | beyond behind => exact .inl ⟨behind, rfl, rfl⟩
  | last isLast => exact .inr (.inl ⟨by omega, rfl, rfl, rfl, rfl⟩)
  | refused further bytes requested refused => exact .inr (.inl ⟨by omega, rfl, rfl, rfl, rfl⟩)
  | moved further bytes requested served => exact .inr (.inr ⟨further, rfl, served⟩)

end Vector

namespace HeldVector

variable {held after : HeldVector Value} {events log : List (LifeEvent Nat Nat)} {new : Nat}
variable {spares : Prop} {moved : Bool}

/-- The ways in which a call changes a vector: whether it moves to the new storage,
whether the call is a sparing one, and what happens in the storages. -/
inductive Change (held : HeldVector Value) (new : Nat) :
    Bool -> Prop -> List (LifeEvent Nat Nat) -> HeldVector Value -> Prop
  | none {after : HeldVector Value} (same : after = held) : Change held new false True [] after
  | stored {after : HeldVector Value} (buffer : held.vector.contents ≠ 0)
      (storage : after.storage = held.storage)
      (contents : after.vector.contents = held.vector.contents)
      (count : after.vector.count = held.vector.count + 1) :
      Change held new false True [construct held.storage held.vector.count] after
  | removed {after : HeldVector Value} (index : Nat) (inside : index < held.vector.count)
      (storage : after.storage = held.storage)
      (contents : after.vector.contents = held.vector.contents)
      (count : after.vector.count = held.vector.count - 1) :
      Change held new false (index + 1 = held.vector.count) [.destroy held.storage index] after
  | grown {after : HeldVector Value} (storage : after.storage = new)
      (contents : after.vector.contents ≠ 0) (count : after.vector.count = held.vector.count) :
      Change held new true (held.vector.count = 0) (held.moveEvents held.vector.count new) after
  | grownStored {after : HeldVector Value} (storage : after.storage = new)
      (contents : after.vector.contents ≠ 0) (count : after.vector.count = held.vector.count + 1) :
      Change held new true (held.vector.count = 0)
        (construct new held.vector.count :: held.moveEvents held.vector.count new) after
  | shrunk {after : HeldVector Value} (index : Nat) (further : index + 1 < held.vector.count)
      (storage : after.storage = new) (contents : after.vector.contents ≠ 0) :
      Change held new true False
        (held.moveEvents (held.vector.count - 1) new ++ [.destroy held.storage index]) after

/-- Without a buffer there is neither an element nor room for one. -/
def Plausible (held : HeldVector Value) : Prop :=
  held.vector.contents = 0 -> held.vector.count = 0 ∧ held.vector.capacity = 0

theorem change_of_call {target : Target} {element : ElementSize} {call : VectorCall Value}
    {outcome : VectorOutcome Value} (sensible : held.Plausible)
    (ran : call.run target element held.vector = some outcome) :
    Exists fun spares => (spares <-> call.Spares target element held.vector) ∧
      Change held new outcome.obtained.isSome spares (held.callEvents outcome new call)
        { vector := outcome.vector
          storage := if outcome.obtained.isSome then new else held.storage } ∧
      (outcome.vector.contents = 0 -> outcome.vector.count = 0 ∧ outcome.vector.capacity = 0) := by
  cases call with
  | ensure allocate amount =>
      rcases Vector.ensure_renews ran with ⟨stays, obtained, same, _⟩ | ⟨grows, renewed⟩
      · refine ⟨True, ⟨fun _ grows => absurd grows stays, fun _ => trivial⟩, ?_, ?_⟩
        · rw [callEvents, obtained, same]
          exact .none rfl
        · rw [same]
          exact sensible
      · refine ⟨held.vector.count = 0, ⟨fun none _ => none, fun spared => spared grows⟩, ?_,
          fun wrong => absurd wrong renewed.contents⟩
        rw [callEvents, renewed.obtained, if_pos rfl]
        exact .grown rfl renewed.contents renewed.count
  | append allocate value =>
      rcases Vector.append_renews ran with
        ⟨stays, obtained, ⟨failed, same⟩ | ⟨success, same, enough⟩⟩ |
        ⟨grows, obtained, contents, count, success⟩
      · refine ⟨True, ⟨fun _ grows => absurd grows stays, fun _ => trivial⟩, ?_, ?_⟩
        · rw [callEvents, obtained, same, failed]
          exact .none rfl
        · rw [same]
          exact sensible
      · have buffer : held.vector.contents ≠ 0 := by
          intro nowhere
          rcases sensible nowhere with ⟨count, capacity⟩
          rw [count, capacity] at enough
          exact absurd enough (by cases target <;> decide)
        refine ⟨True, ⟨fun _ grows => absurd grows stays, fun _ => trivial⟩, ?_, ?_⟩
        · rw [callEvents, obtained, same, success]
          exact .stored buffer rfl rfl rfl
        · rw [same]
          exact fun nowhere => absurd nowhere buffer
      · refine ⟨held.vector.count = 0, ⟨fun none _ => none, fun spared => spared grows⟩, ?_,
          fun wrong => absurd wrong contents⟩
        rw [callEvents, obtained, success, if_pos rfl, if_pos rfl, if_pos rfl]
        exact .grownStored rfl contents count
  | remove allocate index =>
      rcases Vector.remove_renews ran with
        ⟨beyond, obtained, same⟩ | ⟨inside, obtained, count, capacity, contents⟩ |
        ⟨further, obtained, contents⟩
      · have outside : ¬ index < held.vector.count := Nat.not_lt.mpr beyond
        refine ⟨True, ⟨fun _ inside => absurd inside outside, fun _ => trivial⟩, ?_, ?_⟩
        · rw [callEvents, obtained, same, if_neg outside]
          exact .none rfl
        · rw [same]
          exact sensible
      · refine ⟨index + 1 = held.vector.count, ⟨fun last _ => last, fun spared => spared inside⟩,
          ?_, ?_⟩
        · rw [callEvents, obtained, if_pos inside]
          exact .removed index inside rfl contents count
        · intro nowhere
          rw [count, capacity]
          rw [contents] at nowhere
          have none := sensible nowhere
          omega
      · have inside : index < held.vector.count := by omega
        refine ⟨False, ⟨False.elim, fun spared => ?_⟩, ?_, fun wrong => absurd wrong contents⟩
        · have last := spared inside
          omega
        · rw [callEvents, obtained, if_pos inside, if_pos rfl]
          exact .shrunk index further rfl contents

/-! ## What happens in the storages -/

/-- The objects in the buffer are the elements. -/
def Accounts (log : List (LifeEvent Nat Nat)) (held : HeldVector Value) : Prop :=
  held.vector.contents ≠ 0 -> forall slot, Lives log held.storage slot <-> slot < held.vector.count

theorem lives_moveEvents {elements storage slot : Nat} :
    Lives (held.moveEvents elements new ++ log) storage slot <->
      storage = new ∧ slot < elements ∨ Lives log storage slot := by
  rw [moveEvents]
  by_cases buffer : held.vector.contents ≠ 0
  · rw [if_pos buffer, List.singleton_append, List.cons_append, lives_giveBack, lives_row]
  · rw [if_neg buffer, List.nil_append, lives_row]

/-- A buffer that elements were moved from still holds what it held. -/
theorem orderly_moveEvents {elements : Nat} (bare : forall slot, ¬ Lives log new slot)
    (old : held.vector.contents ≠ 0 -> held.storage ≠ new) :
    Orderly (held.moveEvents elements new ++ log) <->
      Orderly log ∧ (held.vector.contents ≠ 0 -> forall slot, ¬ Lives log held.storage slot) := by
  rw [moveEvents]
  by_cases buffer : held.vector.contents ≠ 0
  · rw [if_pos buffer, List.singleton_append, List.cons_append, orderly_giveBack, orderly_row bare]
    refine and_congr Iff.rfl ?_
    constructor
    · intro gone _ slot lives
      exact gone slot (lives_row.mpr (.inr lives))
    · intro gone slot lives
      rcases lives_row.mp lives with ⟨same, _⟩ | lives
      · exact old buffer same
      · exact gone buffer slot lives
  · rw [if_neg buffer, List.nil_append, orderly_row bare]
    exact ⟨fun orderly => ⟨orderly, fun wrong => absurd wrong buffer⟩, And.left⟩

/-- Nothing lives in the buffer, if there is one, just when there are no elements. -/
theorem gone_iff_empty (sensible : held.Plausible) (accounts : Accounts log held) :
    (held.vector.contents ≠ 0 -> forall slot, ¬ Lives log held.storage slot) <->
      held.vector.count = 0 := by
  by_cases buffer : held.vector.contents ≠ 0
  · constructor
    · intro gone
      have first := mt (accounts buffer 0).mpr (gone buffer 0)
      omega
    · intro none _ slot lives
      have inside := (accounts buffer slot).mp lives
      omega
  · exact iff_of_true (fun has => absurd has buffer) (sensible (not_not.mp buffer)).1

/-- A call changes nothing in the storages of others. -/
theorem Change.elsewhere (change : Change held new moved spares events after) {storage slot : Nat}
    (own : held.vector.contents ≠ 0 -> storage ≠ held.storage) (other : moved = true -> storage ≠ new)
    (sensible : held.Plausible) :
    Lives (events ++ log) storage slot <-> Lives log storage slot := by
  cases change with
  | none same => rfl
  | stored buffer _ _ _ => simp [own buffer]
  | removed index inside _ _ _ =>
      have buffer : held.vector.contents ≠ 0 := fun nowhere => by
        have none := sensible nowhere
        omega
      simp [own buffer]
  | grown _ _ _ =>
      rw [lives_moveEvents]
      simp [other rfl]
  | grownStored _ _ _ =>
      rw [List.cons_append, lives_construct, lives_moveEvents]
      simp [other rfl]
  | shrunk index further _ _ =>
      have buffer : held.vector.contents ≠ 0 := fun nowhere => by
        have none := sensible nowhere
        omega
      rw [List.append_assoc, lives_moveEvents]
      simp [own buffer, other rfl]

/-- A vector is in the storage it was in, or in the new one. -/
theorem Change.place (change : Change held new moved spares events after) :
    moved = false ∧ after.storage = held.storage ∧
        after.vector.contents = held.vector.contents ∨
      moved = true ∧ after.storage = new := by
  cases change with
  | none same =>
      subst same
      exact .inl ⟨rfl, rfl, rfl⟩
  | stored buffer storage contents count => exact .inl ⟨rfl, storage, contents⟩
  | removed index inside storage contents count => exact .inl ⟨rfl, storage, contents⟩
  | grown storage contents count => exact .inr ⟨rfl, storage⟩
  | grownStored storage contents count => exact .inr ⟨rfl, storage⟩
  | shrunk index further storage contents => exact .inr ⟨rfl, storage⟩

/-- The log stays orderly and the vector accounts for its objects just when the call
is a sparing one. -/
theorem Change.promise_iff (change : Change held new moved spares events after)
    (sensible : held.Plausible) (orderly : Orderly log) (accounts : Accounts log held)
    (bare : forall slot, ¬ Lives log new slot)
    (old : held.vector.contents ≠ 0 -> held.storage ≠ new) :
    Orderly (events ++ log) ∧ Accounts (events ++ log) after <-> spares := by
  cases change with
  | none same =>
      subst same
      exact ⟨fun _ => trivial, fun _ => ⟨orderly, accounts⟩⟩
  | stored buffer storage contents count =>
      refine ⟨fun _ => trivial, fun _ => ⟨⟨orderly, ?_⟩, ?_⟩⟩
      · intro lives
        exact Nat.lt_irrefl _ ((accounts buffer _).mp lives)
      · intro _ slot
        rw [storage, count, List.singleton_append, lives_construct, accounts buffer]
        omega
  | removed index inside storage contents count =>
      have buffer : held.vector.contents ≠ 0 := fun nowhere => by
        have none := sensible nowhere
        omega
      constructor
      · rintro ⟨_, accounted⟩
        by_contra notLast
        have stray := (accounted (by rwa [contents]) (held.vector.count - 1)).mp
        rw [storage, count, List.singleton_append, lives_destroy, accounts buffer] at stray
        omega
      · intro last
        refine ⟨⟨orderly, (accounts buffer index).mpr inside⟩, ?_⟩
        intro _ slot
        rw [storage, count, List.singleton_append, lives_destroy, accounts buffer]
        omega
  | grown storage contents count =>
      rw [orderly_moveEvents bare old, gone_iff_empty sensible accounts]
      refine ⟨fun whole => whole.1.2, fun none => ⟨⟨orderly, none⟩, ?_⟩⟩
      intro _ slot
      rw [storage, count, lives_moveEvents]
      have elsewhere := bare slot
      tauto
  | grownStored storage contents count =>
      rw [List.cons_append, orderly_construct, orderly_moveEvents bare old,
        gone_iff_empty sensible accounts, lives_moveEvents]
      refine ⟨fun whole => whole.1.1.2, fun none => ⟨⟨⟨orderly, none⟩, ?_⟩, ?_⟩⟩
      · rintro (⟨_, wrong⟩ | lives)
        · exact Nat.lt_irrefl _ wrong
        · exact bare _ lives
      · intro _ slot
        rw [storage, count, lives_construct, lives_moveEvents]
        have elsewhere := bare slot
        simp only [elsewhere, or_false, true_and]
        omega
  | shrunk index further storage contents =>
      have buffer : held.vector.contents ≠ 0 := fun nowhere => by
        have none := sensible nowhere
        omega
      refine ⟨?_, False.elim⟩
      have unused : forall slot, ¬ Lives ([LifeEvent.destroy held.storage index] ++ log) new slot :=
        fun slot lives => bare slot lives.2
      rw [List.append_assoc, orderly_moveEvents unused old]
      rintro ⟨⟨_, gone⟩, _⟩
      -- an element that stays has an original, which is not the one that was removed
      have original : Exists fun slot => slot < held.vector.count ∧ slot ≠ index := by
        by_cases first : index = 0
        · exact ⟨1, by omega, by omega⟩
        · exact ⟨0, by omega, by omega⟩
      rcases original with ⟨slot, inside, different⟩
      exact gone buffer slot ⟨fun same => different same.2, (accounts buffer slot).mpr inside⟩

/-- The destructor of a vector is right just when it is a disposable one. -/
theorem orderly_destructorEvents (orderly : Orderly log) (accounts : Accounts log held) :
    Orderly (held.destructorEvents ++ log) <-> held.Disposable := by
  rw [destructorEvents, Disposable]
  by_cases buffer : held.vector.contents ≠ 0
  · rw [if_pos buffer, List.cons_append, List.singleton_append, orderly_giveBack, orderly_destroy,
      accounts buffer]
    constructor
    · rintro ⟨⟨_, some⟩, gone⟩ _
      have second := mt (accounts buffer 1).mpr fun lives =>
        gone 1 ⟨fun same => absurd same.2 (by decide), lives⟩
      omega
    · intro one
      refine ⟨⟨orderly, by rw [one buffer]; exact Nat.one_pos⟩, ?_⟩
      rintro slot ⟨different, lives⟩
      have inside := (accounts buffer slot).mp lives
      rw [one buffer] at inside
      exact different ⟨rfl, by omega⟩
  · rw [if_neg buffer]
    exact ⟨fun _ wrong => absurd wrong buffer, fun _ => orderly⟩

theorem lives_destructorEvents {storage slot : Nat}
    (own : held.vector.contents ≠ 0 -> storage ≠ held.storage) :
    Lives (held.destructorEvents ++ log) storage slot <-> Lives log storage slot := by
  rw [destructorEvents]
  by_cases buffer : held.vector.contents ≠ 0
  · rw [if_pos buffer, List.cons_append, List.singleton_append, lives_giveBack, lives_destroy]
    simp [own buffer]
  · rw [if_neg buffer]
    rfl

end HeldVector

/-! ## What a step does to all of them -/

namespace VectorPool

open HeldVector

variable {target : Target} {element : ElementSize} {pool before after : VectorPool Value}
variable {call : PoolCall Value} {log : List (LifeEvent Nat Nat)} {variable_ : Nat}
variable {held : HeldVector Value}

/-- The storages are apart, known, and hold just the elements of their vectors. -/
structure Sound (pool : VectorPool Value) : Prop where
  orderly : Orderly pool.log
  accounts : forall variable_ held, pool.vectors variable_ = some held -> Accounts pool.log held
  sensible : forall variable_ held, pool.vectors variable_ = some held -> held.Plausible
  known : forall variable_ held, pool.vectors variable_ = some held ->
    held.vector.contents ≠ 0 -> held.storage < pool.storages
  apart : forall first second one another, pool.vectors first = some one ->
    pool.vectors second = some another -> first ≠ second -> one.vector.contents ≠ 0 ->
    another.vector.contents ≠ 0 -> one.storage ≠ another.storage
  unused : forall storage, pool.storages ≤ storage -> forall slot, ¬ Lives pool.log storage slot

/-- What a step promises: the log stays orderly, and no vector loses sight of an
object. -/
structure Promise (_ : VectorPool Value) (_ : PoolCall Value) (after : VectorPool Value) : Prop where
  orderly : Orderly after.log
  accounts : forall variable_ held, after.vectors variable_ = some held -> Accounts after.log held

theorem sound_empty : Sound (empty Value) where
  orderly := trivial
  accounts := by
    intro _ _ wrong
    cases wrong
  sensible := by
    intro _ _ wrong
    cases wrong
  known := by
    intro _ _ wrong
    cases wrong
  apart := by
    intro _ _ _ _ wrong
    cases wrong
  unused := fun _ _ _ => id

theorem accounts_congr {other : List (LifeEvent Nat Nat)}
    (same : held.vector.contents ≠ 0 -> forall slot,
      Lives other held.storage slot <-> Lives log held.storage slot)
    (accounts : Accounts log held) : Accounts other held :=
  fun buffer slot => (same buffer slot).trans (accounts buffer slot)

theorem accounts_fresh : Accounts log (HeldVector.fresh Value) :=
  fun wrong => absurd rfl wrong

theorem sensible_fresh : (HeldVector.fresh Value).Plausible :=
  fun _ => ⟨rfl, rfl⟩

/-- Another vector is without a buffer, or with a buffer somewhere else. -/
theorem Sound.elsewhere (sound : Sound pool) {other : Nat} {another : HeldVector Value}
    (here : pool.vectors variable_ = some held) (there : pool.vectors other = some another)
    (different : other ≠ variable_) (buffer : another.vector.contents ≠ 0) :
    held.vector.contents ≠ 0 -> another.storage ≠ held.storage :=
  fun own => sound.apart _ _ _ _ there here different buffer own

/-- The other variables when one is given a new value. -/
theorem forall_update {property : Nat -> HeldVector Value -> Prop}
    {vectors : Nat -> Option (HeldVector Value)} {new : Option (HeldVector Value)}
    (own : forall held, new = some held -> property variable_ held)
    (others : forall other held, other ≠ variable_ -> vectors other = some held ->
      property other held) (other : Nat) (held : HeldVector Value)
    (here : Function.update vectors variable_ new other = some held) : property other held := by
  by_cases same : other = variable_
  · subst same
    rw [Function.update_self] at here
    exact own held here
  · rw [Function.update_of_ne same] at here
    exact others other held same here

/-! ### A vector that changes -/

/-- The pool after a change of one vector. -/
def changed (pool : VectorPool Value) (variable_ : Nat) (held : HeldVector Value) (moved : Bool)
    (events : List (LifeEvent Nat Nat)) : VectorPool Value where
  vectors := Function.update pool.vectors variable_ (some held)
  storages := if moved then pool.storages + 1 else pool.storages
  log := events ++ pool.log

section Changing

variable {spares : Prop} {events : List (LifeEvent Nat Nat)} {next : HeldVector Value} {moved : Bool}

theorem storages_le_changed : pool.storages ≤ (pool.changed variable_ next moved events).storages := by
  cases moved with
  | true => exact Nat.le_succ _
  | false => exact Nat.le_refl _

theorem Sound.old (sound : Sound pool) (here : pool.vectors variable_ = some held) :
    held.vector.contents ≠ 0 -> held.storage ≠ pool.storages :=
  fun buffer => Nat.ne_of_lt (sound.known _ _ here buffer)

theorem Sound.others_account (sound : Sound pool) (here : pool.vectors variable_ = some held)
    (change : Change held pool.storages moved spares events next) :
    forall other another, other ≠ variable_ -> pool.vectors other = some another ->
      Accounts (events ++ pool.log) another := by
  intro other another different there
  refine accounts_congr (fun buffer slot => ?_) (sound.accounts _ _ there)
  exact change.elsewhere (sound.elsewhere here there different buffer)
    (fun _ => sound.old there buffer) (sound.sensible _ _ here)

theorem Sound.changed_iff (sound : Sound pool) (here : pool.vectors variable_ = some held)
    (change : Change held pool.storages moved spares events next) :
    Promise pool call (pool.changed variable_ next moved events) <-> spares := by
  rw [← change.promise_iff (sound.sensible _ _ here) sound.orderly (sound.accounts _ _ here)
    (sound.unused _ (Nat.le_refl _)) (sound.old here)]
  constructor
  · intro promise
    exact ⟨promise.orderly, promise.accounts variable_ next (Function.update_self _ _ _)⟩
  · rintro ⟨orderly, accounts⟩
    refine ⟨orderly, forall_update ?_ (sound.others_account here change)⟩
    intro same isNext
    cases isNext
    exact accounts

/-- The vector that changed is in a storage of its own. -/
theorem Sound.far (sound : Sound pool) (here : pool.vectors variable_ = some held)
    (change : Change held pool.storages moved spares events next) {other : Nat}
    {another : HeldVector Value} (different : other ≠ variable_)
    (there : pool.vectors other = some another) (buffer : another.vector.contents ≠ 0)
    (own : next.vector.contents ≠ 0) : another.storage ≠ next.storage := by
  rcases change.place with ⟨_, storage, contents⟩ | ⟨_, storage⟩
  · rw [storage]
    exact sound.elsewhere here there different buffer (contents ▸ own)
  · rw [storage]
    exact sound.old there buffer

theorem Sound.changed (sound : Sound pool) (here : pool.vectors variable_ = some held)
    (change : Change held pool.storages moved spares events next) (sensible : next.Plausible)
    (promise : Promise pool call (pool.changed variable_ next moved events)) :
    Sound (pool.changed variable_ next moved events) where
  orderly := promise.orderly
  accounts := promise.accounts
  sensible := by
    refine forall_update ?_ fun other another _ there => sound.sensible other another there
    intro same isNext
    cases isNext
    exact sensible
  known := by
    refine forall_update ?_ ?_
    · intro same isNext buffer
      cases isNext
      rcases change.place with ⟨_, storage, contents⟩ | ⟨isMoved, storage⟩
      · rw [storage]
        exact Nat.lt_of_lt_of_le (sound.known _ _ here (contents ▸ buffer)) storages_le_changed
      · rw [storage, isMoved]
        exact Nat.lt_succ_self _
    · intro other another _ there buffer
      exact Nat.lt_of_lt_of_le (sound.known _ _ there buffer) storages_le_changed
  apart := by
    intro first second one another there behind different
    dsimp only [VectorPool.changed] at there behind
    by_cases isFirst : first = variable_
    · subst isFirst
      rw [Function.update_self] at there
      rw [Function.update_of_ne (Ne.symm different)] at behind
      cases there
      intro own buffer
      exact (sound.far here change (Ne.symm different) behind buffer own).symm
    · rw [Function.update_of_ne isFirst] at there
      by_cases isSecond : second = variable_
      · subst isSecond
        rw [Function.update_self] at behind
        cases behind
        exact sound.far here change isFirst there
      · rw [Function.update_of_ne isSecond] at behind
        exact sound.apart _ _ _ _ there behind different
  unused := by
    intro storage beyond slot lives
    have behind := Nat.le_trans storages_le_changed beyond
    refine sound.unused storage behind slot ((change.elsewhere ?_ ?_ (sound.sensible _ _ here)).mp lives)
    · intro buffer
      have within := sound.known _ _ here buffer
      omega
    · intro isMoved
      rw [isMoved] at beyond
      exact Nat.ne_of_gt beyond

end Changing

/-! ### A vector that goes, and one that takes over -/

/-- The pool without a vector. -/
def gone (pool : VectorPool Value) (variable_ : Nat) (held : HeldVector Value) : VectorPool Value :=
  { pool with
    vectors := Function.update pool.vectors variable_ none
    log := held.destructorEvents ++ pool.log }

/-- The pool after a vector took over what another had. -/
def taken (pool : VectorPool Value) (destination source : Nat) (other : HeldVector Value) :
    VectorPool Value :=
  { pool with
    vectors := Function.update
      (Function.update pool.vectors source (some (HeldVector.fresh Value))) destination (some other) }

theorem Sound.gone (sound : Sound pool) (here : pool.vectors variable_ = some held)
    (disposable : held.Disposable) : Sound (pool.gone variable_ held) where
  orderly := (orderly_destructorEvents sound.orderly (sound.accounts _ _ here)).mpr disposable
  accounts := by
    refine forall_update (fun _ wrong => by cases wrong) ?_
    intro other another different there
    refine accounts_congr (fun buffer slot => ?_) (sound.accounts _ _ there)
    exact lives_destructorEvents (sound.elsewhere here there different buffer)
  sensible := forall_update (fun _ wrong => by cases wrong)
    fun other another _ there => sound.sensible other another there
  known := forall_update (fun _ wrong => by cases wrong)
    fun other another _ there => sound.known other another there
  apart := by
    intro first second one another there behind
    dsimp only [VectorPool.gone] at there behind
    have isOne : first ≠ variable_ := by
      intro same
      rw [same, Function.update_self] at there
      cases there
    have isAnother : second ≠ variable_ := by
      intro same
      rw [same, Function.update_self] at behind
      cases behind
    rw [Function.update_of_ne isOne] at there
    rw [Function.update_of_ne isAnother] at behind
    exact sound.apart _ _ _ _ there behind
  unused := by
    intro storage beyond slot lives
    refine sound.unused storage beyond slot ((lives_destructorEvents fun buffer => ?_).mp lives)
    have within := sound.known _ _ here buffer
    exact Nat.ne_of_gt (Nat.lt_of_lt_of_le within beyond)

/-- A vector of the pool afterwards is fresh, or it was there, where `origin` says. -/
theorem Sound.rearranged (sound : Sound pool) {vectors : Nat -> Option (HeldVector Value)}
    (origin : Nat -> Nat) (injective : Function.Injective origin)
    (from_ : forall variable_ held, vectors variable_ = some held ->
      held = HeldVector.fresh Value ∨ pool.vectors (origin variable_) = some held) :
    Sound { pool with vectors := vectors } where
  orderly := sound.orderly
  accounts := by
    intro variable_ held here
    rcases from_ _ _ here with rfl | there
    · exact accounts_fresh
    · exact sound.accounts _ _ there
  sensible := by
    intro variable_ held here
    rcases from_ _ _ here with rfl | there
    · exact sensible_fresh
    · exact sound.sensible _ _ there
  known := by
    intro variable_ held here buffer
    rcases from_ _ _ here with rfl | there
    · exact absurd rfl buffer
    · exact sound.known _ _ there buffer
  apart := by
    intro first second one another here there different own other
    rcases from_ _ _ here with rfl | was
    · exact absurd rfl own
    · rcases from_ _ _ there with rfl | wasThere
      · exact absurd rfl other
      · exact sound.apart _ _ _ _ was wasThere (fun same => different (injective same)) own other
  unused := sound.unused

theorem Sound.created (sound : Sound pool) : Sound { pool with
    vectors := Function.update pool.vectors variable_ (some (HeldVector.fresh Value)) } := by
  refine sound.rearranged id Function.injective_id (forall_update ?_ ?_)
  · intro held same
    cases same
    exact .inl rfl
  · intro other held _ there
    exact .inr there

theorem Sound.taken (sound : Sound pool) {destination source : Nat} {other : HeldVector Value}
    (here : pool.vectors source = some other) (free : pool.vectors destination = none) :
    Sound (pool.taken destination source other) := by
  have different : destination ≠ source := by
    intro same
    rw [same, here] at free
    cases free
  refine sound.rearranged (Equiv.swap destination source) (Equiv.injective _) (forall_update ?_ ?_)
  · intro held same
    cases same
    rw [Equiv.swap_apply_left]
    exact .inr here
  · intro variable_ held notTarget
    by_cases isSource : variable_ = source
    · rw [isSource, Function.update_self]
      intro same
      cases same
      exact .inl rfl
    · rw [Function.update_of_ne isSource, Equiv.swap_apply_of_ne_of_ne notTarget isSource]
      exact .inr

/-- An assignment destroys what the target had and then moves. -/
theorem taken_gone {destination source : Nat} {this other : HeldVector Value}
    (different : destination ≠ source) :
    { pool with
      vectors := Function.update
        (Function.update pool.vectors source (some (HeldVector.fresh Value))) destination (some other)
      log := this.destructorEvents ++ pool.log } =
        (pool.gone destination this).taken destination source other := by
  rw [gone, taken]
  dsimp only
  rw [Function.update_comm different, Function.update_idem]

/-! ## One step -/

theorem Sound.promise (sound : Sound after) : Promise before call after :=
  ⟨sound.orderly, sound.accounts⟩

/-- A step keeps the promise only when it is a sparing one, and one that is keeps
everything. -/
theorem Sound.step_cases (sound : Sound before) (stepped : Step target element before call after) :
    (Promise before call after -> before.Spares target element call) ∧
      (before.Spares target element call -> Sound after) := by
  cases call with
  | create variable_ =>
      rw [Step, perform] at stepped
      by_cases free : (before.vectors variable_).isNone
      · rw [if_pos free] at stepped
        cases stepped
        exact ⟨fun _ => trivial, fun _ => sound.created⟩
      · rw [if_neg free] at stepped
        cases stepped
  | call variable_ call =>
      rcases Option.bind_eq_some_iff.mp stepped with ⟨held, here, rest⟩
      rcases Option.bind_eq_some_iff.mp rest with ⟨outcome, ran, ended⟩
      cases ended
      have sensible := sound.sensible _ _ here
      have changes := @change_of_call Value held before.storages target element call outcome
        sensible ran
      rcases changes with ⟨spares, exactly, change, sensibleAfter⟩
      constructor
      · intro promise other there
        cases here.symm.trans there
        exact exactly.mp ((sound.changed_iff here change).mp promise)
      · intro spared
        have kept := exactly.mpr (spared held here)
        have promise : Promise before (.call variable_ call) _ :=
          (sound.changed_iff here change).mpr kept
        exact sound.changed here change sensibleAfter promise
  | moveConstruct destination source =>
      rcases Option.bind_eq_some_iff.mp stepped with ⟨other, here, ended⟩
      by_cases free : (before.vectors destination).isNone
      · simp only [free, if_true] at ended
        cases ended
        exact ⟨fun _ => trivial, fun _ => sound.taken here (Option.isNone_iff_eq_none.mp free)⟩
      · simp only [free, Bool.false_eq_true, if_false] at ended
        cases ended
  | moveAssign destination source =>
      rcases Option.bind_eq_some_iff.mp stepped with ⟨other, here, rest⟩
      rcases Option.bind_eq_some_iff.mp rest with ⟨this, there, ended⟩
      cases ended
      by_cases same : destination = source
      · subst same
        rw [Function.update_self] at there
        cases there
        have unchanged : Function.update
            (Function.update before.vectors destination (some (HeldVector.fresh Value)))
            destination (some other) = before.vectors := by
          rw [Function.update_idem, ← here, Function.update_eq_self]
        rw [unchanged]
        exact ⟨fun _ wrong => absurd rfl wrong, fun _ => sound⟩
      · rw [Function.update_of_ne same] at there
        rw [taken_gone same]
        constructor
        · intro promise _ held was
          cases there.symm.trans was
          exact (orderly_destructorEvents sound.orderly (sound.accounts _ _ there)).mp promise.orderly
        · intro spared
          have went := sound.gone there (spared same this there)
          refine went.taken ?_ (Function.update_self _ _ _)
          rw [VectorPool.gone]
          exact (Function.update_of_ne (Ne.symm same) _ _).trans here
  | destroy variable_ =>
      rcases Option.bind_eq_some_iff.mp stepped with ⟨held, here, ended⟩
      cases ended
      constructor
      · intro promise other there
        cases here.symm.trans there
        exact (orderly_destructorEvents sound.orderly (sound.accounts _ _ here)).mp promise.orderly
      · intro spared
        exact sound.gone here (spared held here)

/-- Constructors and destructors match in exactly the runs in which a vector that
has elements never moves to another buffer, only last elements are removed, and a
vector goes only with one element or without a buffer.  In these runs, every
storage that was given back had one destructor for each constructor, slot by slot. -/
theorem lifetimes_match_iff {calls : List (PoolCall Value)} :
    (Reaches (keeping (Step target element) Promise) (empty Value) calls pool <->
      Reaches (guarded (Step target element) (Spares target element)) (empty Value) calls pool) ∧
    (Reaches (guarded (Step target element) (Spares target element)) (empty Value) calls pool ->
      forall later storage earlier, pool.log = later ++ giveBack storage :: earlier ->
        forall slot, earlier.count (construct storage slot) =
          earlier.count (.destroy storage slot)) := by
  constructor
  · refine Reaches.keeping_iff_guarded Sound sound_empty ?_ ?_
    · intro before call after sound stepped
      have cases := sound.step_cases stepped
      exact ⟨cases.1, fun spared => (cases.2 spared).promise⟩
    · intro before call after sound stepped promise
      have cases := sound.step_cases stepped
      exact cases.2 (cases.1 promise)
  · intro run later storage earlier log slot
    have sound : Sound pool := run.guarded_invariant Sound sound_empty
      fun before call after sound spared stepped => (sound.step_cases stepped).2 spared
    have orderly := sound.orderly
    rw [log] at orderly
    exact orderly.destroyed slot

/-- Two characters are appended and the vector is destroyed.  The second is given
back with the buffer, without a destructor. -/
theorem second_element_not_destroyed : Exists fun pool : VectorPool Char =>
    Reaches (Step .aarch64 ⟨1, by decide⟩) (empty Char)
      [.destroy 0, .call 0 (.append VectorUse.fixedBlock 'b'),
        .call 0 (.append VectorUse.fixedBlock 'a'), .create 0] pool ∧
    pool.log = [giveBack 0, .destroy 0 0, construct 0 1, construct 0 0] ∧
    ¬ Orderly pool.log := by
  have made : Reaches (Step .aarch64 ⟨1, by decide⟩) (empty Char) [.create 0] _ := .tail .refl rfl
  have first : Reaches (Step .aarch64 ⟨1, by decide⟩) (empty Char)
      [.call 0 (.append VectorUse.fixedBlock 'a'), .create 0] _ := .tail made rfl
  have second : Reaches (Step .aarch64 ⟨1, by decide⟩) (empty Char)
      [.call 0 (.append VectorUse.fixedBlock 'b'), .call 0 (.append VectorUse.fixedBlock 'a'),
        .create 0] _ := .tail first rfl
  have stray : ¬ Orderly [giveBack 0, .destroy 0 0, construct 0 1, construct 0 0] := by
    intro orderly
    have bare := orderly.2 1
    simp at bare
  exact ⟨_, .tail second rfl, rfl, stray⟩

end VectorPool

end Pine
end Pinyon
