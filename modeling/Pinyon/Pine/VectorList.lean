import Mathlib
import Pinyon.Library.History
import Pinyon.Pine.VectorSafety

namespace Pinyon
namespace Pine

open Library

/-!
# A vector is a list

The elements of a vector are compared with a list that the calls act on: `append`
adds at the end and `remove` takes one element out, each when it returns true, and
a call that returns false does nothing.  The buffer is taken to be long enough for
its elements, so that no element ends up in memory of someone else and their
number does not reach the end of the address space.

`remove` destroys its element and counts down before it asks for the buffer that
the others are to move to.
-/

namespace Vector

variable {Value : Type} {target : Target} {element : ElementSize} {allocate : Nat -> Allocation}
variable {vector : Vector Value} {outcome : VectorOutcome Value} {index : Nat}

/-! ## Removing an element -/

/-- The loop of `remove` fills the places from `destination` on.  It reads one
place further along once it has passed the removed element. -/
theorem moveWithout_spec (old : Nat -> Option Value) {count index turns source destination : Nat}
    (moved : Nat -> Option Value)
    (apart : destination ≤ index ∧ source = destination ∨
      index < source ∧ source = destination + 1)
    (enough : count + 1 ≤ turns + source) :
    moveWithout old count index turns source destination moved = fun place =>
      if destination ≤ place ∧ place < count then old (if place < index then place else place + 1)
      else moved place := by
  induction turns generalizing source destination moved with
  | zero =>
      have filled : count ≤ destination := by omega
      funext place
      rw [moveWithout, if_neg fun inside => by omega]
  | succ turns inductionHypothesis =>
      rw [moveWithout]
      by_cases more : destination < count
      · rw [if_pos more]
        by_cases passing : source = index
        · have here : source = destination := by omega
          rw [if_pos passing, inductionHypothesis moved (by omega) (by omega)]
        · rw [if_neg passing, inductionHypothesis _ (by omega) (by omega)]
          funext place
          by_cases stored : place = destination
          · have read : (if place < index then place else place + 1) = source := by
              split <;> omega
            rw [if_neg (by omega), if_pos (by omega), read, stored, Function.update_self]
          · rw [Function.update_of_ne stored]
            by_cases later : destination + 1 ≤ place ∧ place < count
            · have whole : destination ≤ place ∧ place < count := by omega
              rw [if_pos later, if_pos whole]
            · have nowhere : ¬ (destination ≤ place ∧ place < count) := by omega
              rw [if_neg later, if_neg nowhere]
      · rw [if_neg more]
        funext place
        rw [if_neg fun inside => more (Nat.lt_of_le_of_lt inside.1 inside.2)]

theorem getElem?_elements (vector : Vector Value) (place : Nat) :
    vector.elements[place]? = if place < vector.count then some (vector.slots place) else none := by
  rw [elements, List.getElem?_map]
  by_cases inside : place < vector.count
  · rw [if_pos inside, List.getElem?_range inside, Option.map_some]
  · rw [if_neg inside, List.getElem?_eq_none (by simpa using inside), Option.map_none]

/-- The elements without one: those before it stay, those behind it move up. -/
theorem elements_without {after : Vector Value} (count : after.count = vector.count - 1)
    (inside : index < vector.count)
    (slots : forall place, place < vector.count - 1 ->
      after.slots place = vector.slots (if place < index then place else place + 1)) :
    after.elements = vector.elements.eraseIdx index := by
  apply List.ext_getElem?
  intro place
  rw [List.getElem?_eraseIdx, getElem?_elements, getElem?_elements, getElem?_elements, count]
  by_cases kept : place < vector.count - 1
  · rw [if_pos kept, slots place kept]
    by_cases before : place < index
    · rw [if_pos before, if_pos before, if_pos (by omega)]
    · rw [if_neg before, if_neg before, if_pos (by omega)]
  · have behind : ¬ place + 1 < vector.count := by omega
    have notBefore : ¬ place < index := by omega
    rw [if_neg kept, if_neg notBefore, if_neg behind]

/-- An element is destroyed, and the last ones are forgotten. -/
theorem elements_emptied {count : Nat} (fewer : count ≤ vector.count) :
    ({ vector with count := count, slots := Function.update vector.slots index none } :
      Vector Value).elements = (vector.elements.set index none).take count := by
  apply List.ext_getElem?
  intro place
  rw [getElem?_elements, List.getElem?_take, List.getElem?_set, length_elements, getElem?_elements]
  dsimp only
  by_cases kept : place < count
  · rw [if_pos kept, if_pos kept, if_pos (Nat.lt_of_lt_of_le kept fewer)]
    by_cases same : index = place
    · subst same
      rw [if_pos rfl, if_pos (Nat.lt_of_lt_of_le kept fewer), Function.update_self]
    · rw [if_neg same, Function.update_of_ne (Ne.symm same)]
  · rw [if_neg kept, if_neg kept]

/-- The allocator has a buffer for the elements that stay, where they must move. -/
def CanShrink (target : Target) (element : ElementSize) (allocate : Nat -> Allocation)
    (vector : Vector Value) (index : Nat) : Prop :=
  index + 1 < vector.count -> forall bytes,
    requestedBytes target element (vector.count - 1) = some bytes -> (allocate bytes).ptr ≠ 0

/-- What `remove` does: nothing behind the end, otherwise it takes the element out,
unless it must move the others and cannot. -/
theorem remove_elements (ran : vector.remove target element allocate index = some outcome) :
    vector.count ≤ index ∧ outcome.result = false ∧ outcome.vector = vector ∨
      index < vector.count ∧ CanShrink target element allocate vector index ∧ outcome.result = true ∧
        outcome.vector.elements = vector.elements.eraseIdx index ∨
      index + 1 < vector.count ∧ ¬ CanShrink target element allocate vector index ∧
        outcome.result = false ∧ outcome.vector.count = vector.count - 1 ∧
        outcome.vector.elements = (vector.elements.set index none).take (vector.count - 1) := by
  cases remove_case ran with
  | beyond behind => exact .inl ⟨behind, rfl, rfl⟩
  | last isLast =>
      have inside : index < vector.count := by omega
      refine .inr (.inl ⟨inside, fun further => absurd further (by omega), rfl, ?_⟩)
      apply elements_without rfl inside
      intro place kept
      rw [if_pos (show place < index by omega)]
      exact Function.update_of_ne (by omega) _ _
  | refused further bytes requested refused =>
      refine .inr (.inr ⟨further, fun can => can further bytes requested refused, rfl, rfl, ?_⟩)
      exact elements_emptied (Nat.sub_le _ _)
  | moved further bytes requested served =>
      have inside : index < vector.count := by omega
      refine .inr (.inl ⟨inside, ?_, rfl, ?_⟩)
      · intro _ other same
        cases Option.some.inj (requested.symm.trans same)
        exact served
      · apply elements_without rfl inside
        intro place kept
        have read : (if place < index then place else place + 1) ≠ index := by
          split <;> omega
        rw [adopt]
        dsimp only
        rw [moveWithout_spec _ _ (.inl ⟨Nat.zero_le _, rfl⟩) (Nat.le_refl _)]
        dsimp only
        rw [if_pos (And.intro (Nat.zero_le _) kept)]
        exact Function.update_of_ne read _ _

end Vector

/-! ## The vector and the list -/

namespace VectorCall

variable {Value : Type}

/-- What a call that returned `result` does to a list. -/
def onList (result : Bool) (list : List Value) : VectorCall Value -> List Value
  | ensure _ _ => list
  | append _ value => if result then list ++ [value] else list
  | remove _ index => if result then list.eraseIdx index else list

/-- No element in the middle is removed while the allocator refuses. -/
def Shrinks (target : Target) (element : ElementSize) (vector : Vector Value) :
    VectorCall Value -> Prop
  | ensure _ _ => True
  | append _ _ => True
  | remove allocate index => vector.CanShrink target element allocate index

end VectorCall

/-- A vector beside the list it stands for, and what the last call returned. -/
structure Listed (Value : Type) where
  vector : Vector Value
  list : List Value
  result : Bool

namespace Listed

variable {Value : Type}

def empty (Value : Type) : Listed Value where
  vector := Vector.empty Value
  list := []
  result := true

/-- Each call comes with an allocator that may answer anything. -/
inductive Step (target : Target) (element : ElementSize) :
    Listed Value -> VectorCall Value -> Listed Value -> Prop
  | call (before : Listed Value) (call : VectorCall Value) (outcome : VectorOutcome Value)
      (ran : call.run target element before.vector = some outcome) :
      Step target element before call
        { vector := outcome.vector
          list := call.onList outcome.result before.list
          result := outcome.result }

/-- The objects in the buffer are the elements of the list. -/
def Agrees (listed : Listed Value) : Prop :=
  listed.vector.elements = listed.list.map some

/-- What a call promises. -/
structure Promise (before : Listed Value) (call : VectorCall Value) (after : Listed Value) : Prop where
  agrees : after.Agrees
  unchanged : after.result = false ->
    after.vector.count = before.vector.count ∧ after.vector.elements = before.vector.elements
  found : forall allocate index, call = .remove allocate index -> after.result = true ->
    index < before.list.length

variable {target : Target} {element : ElementSize} {before after : Listed Value}
variable {call : VectorCall Value}

theorem agrees_empty : Agrees (empty Value) :=
  rfl

theorem Agrees.length (agrees : before.Agrees) : before.list.length = before.vector.count := by
  rw [← before.vector.length_elements, agrees, List.length_map]

/-- A call of which all that matters is whether it succeeded. -/
theorem promise_of_cases {outcome : VectorOutcome Value} (agrees : before.Agrees)
    (succeeds : outcome.result = true ->
      outcome.vector.elements = (call.onList true before.list).map some)
    (fails : outcome.result = false -> outcome.vector = before.vector)
    (refused : call.onList false before.list = before.list)
    (found : forall allocate index, call = .remove allocate index -> outcome.result = true ->
      index < before.list.length) :
    Promise before call
      { vector := outcome.vector
        list := call.onList outcome.result before.list
        result := outcome.result } where
  agrees := by
    cases success : outcome.result with
    | true => exact succeeds success
    | false =>
        rw [refused, fails success]
        exact agrees
  unchanged := by
    intro failed
    have same : outcome.vector = before.vector := fails failed
    dsimp only
    rw [same]
    exact ⟨rfl, rfl⟩
  found := found

/-- A call keeps the promise just when it is no refused removal in the middle. -/
theorem Agrees.promise_iff (agrees : before.Agrees) (stepped : Step target element before call after) :
    Promise before call after <-> call.Shrinks target element before.vector := by
  cases stepped with
  | call outcome ran =>
      cases call with
      | ensure allocate amount =>
          have known := Vector.ensure_elements ran
          refine ⟨fun _ => trivial, fun _ => promise_of_cases agrees ?_ known.2 rfl ?_⟩
          · intro _
            exact known.1.trans agrees
          · intro _ _ wrong
            cases wrong
      | append allocate value =>
          have known := Vector.append_elements ran
          refine ⟨fun _ => trivial, fun _ => promise_of_cases agrees ?_ known.2 rfl ?_⟩
          · intro success
            rw [known.1 success, agrees, VectorCall.onList, if_pos rfl, List.map_append,
              List.map_singleton]
          · intro _ _ wrong
            cases wrong
      | remove allocate index =>
          rcases Vector.remove_elements ran with
            ⟨beyond, failed, same⟩ | ⟨inside, can, success, elements⟩ | ⟨further, cannot, failed, count, _⟩
          · constructor
            · intro _ further
              exact absurd further (by omega)
            · intro _
              refine promise_of_cases agrees ?_ (fun _ => same) rfl ?_
              · intro success
                exact absurd (failed.symm.trans success) (by decide)
              · intro _ _ _ success
                exact absurd (failed.symm.trans success) (by decide)
          · refine ⟨fun _ => can, fun _ => promise_of_cases agrees ?_ ?_ rfl ?_⟩
            · intro _
              rw [elements, agrees, VectorCall.onList, if_pos rfl, List.eraseIdx_map]
            · intro failed
              exact absurd (success.symm.trans failed) (by decide)
            · intro _ _ same _
              cases same
              rw [agrees.length]
              exact inside
          · constructor
            · intro promise
              have kept := (promise.unchanged failed).1
              dsimp only at kept
              omega
            · intro can
              exact absurd can cannot

/-- A vector is the list that its calls describe, and a call that returns false
changes nothing, in exactly the runs in which no element but the last is removed
while the allocator refuses; and every call returns. -/
theorem vector_is_list_iff {target : Target} {element : ElementSize} {listed : Listed Value}
    {calls : List (VectorCall Value)} :
    (Reaches (keeping (Step target element) Promise) (empty Value) calls listed <->
      Reaches (guarded (Step target element) fun before call =>
        call.Shrinks target element before.vector) (empty Value) calls listed) ∧
    forall call : VectorCall Value, Exists fun after => Step target element listed call after := by
  constructor
  · exact Reaches.keeping_iff_guarded Agrees agrees_empty
      (fun _ _ _ agrees stepped => agrees.promise_iff stepped)
      (fun _ _ _ _ _ promise => promise.agrees)
  · intro call
    have returns : Exists fun outcome => call.run target element listed.vector = some outcome := by
      cases call with
      | ensure allocate amount => exact listed.vector.ensure_total target element allocate amount
      | append allocate value => exact listed.vector.append_total target element allocate value
      | remove allocate index => exact listed.vector.remove_total target element allocate index
    rcases returns with ⟨outcome, ran⟩
    exact ⟨_, .call listed call outcome ran⟩

/-- Two characters are appended and the first is removed, but no block is left to
move the other to.  The call returns false, and one element is gone. -/
theorem refused_removal_shortens : Exists fun before : Listed Char => Exists fun after =>
    Reaches (Step .aarch64 ⟨1, by decide⟩) (empty Char)
      [.append VectorUse.fixedBlock 'b', .append VectorUse.fixedBlock 'a'] before ∧
    Step .aarch64 ⟨1, by decide⟩ before (.remove (fun _ => {}) 0) after ∧
    before.vector.elements = [some 'a', some 'b'] ∧ after.result = false ∧
      after.vector.count = 1 ∧ after.vector.elements = [none] ∧
      ¬ Promise before (.remove (fun _ => {}) 0) after := by
  have first : Reaches (Step .aarch64 ⟨1, by decide⟩) (empty Char) [.append VectorUse.fixedBlock 'a'] _ :=
    .tail .refl (.call _ _ _ rfl)
  have second : Reaches (Step .aarch64 ⟨1, by decide⟩) (empty Char)
      [.append VectorUse.fixedBlock 'b', .append VectorUse.fixedBlock 'a'] _ :=
    .tail first (.call _ _ _ rfl)
  refine ⟨_, _, second, .call _ _ _ rfl, rfl, rfl, rfl, rfl, ?_⟩
  intro promise
  exact absurd (promise.unchanged rfl).1 (by decide)

end Listed

end Pine
end Pinyon
