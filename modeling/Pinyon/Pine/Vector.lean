import Pinyon.Pine.FreeList

namespace Pinyon
namespace Pine

/-!
# The vector

`Vector<Value, Allocator>` counts its capacity in elements, asks its allocator
for bytes, and then takes over as its capacity what the allocator reports,
which is bytes again.  An allocator is modelled by how it answers a request at
the time of the call.
-/

/-- The fields of `Vector`, with the objects that its buffer holds. -/
structure Vector (Value : Type) where
  count : Nat
  capacity : Nat
  contents : Nat
  slots : Nat -> Option Value

/-- What a call returns, the block it obtained, and what it gave back. -/
structure VectorOutcome (Value : Type) where
  result : Bool
  vector : Vector Value
  obtained : Option Allocation := none
  freed : List Allocation := []

/-- A value type: its size and nothing else matters to the vector. -/
structure ElementSize where
  bytes : Nat
  positive : 0 < bytes

namespace Vector

variable {Value : Type}

def empty (Value : Type) : Vector Value where
  count := 0
  capacity := 0
  contents := 0
  slots := fun _ => none

/-- `align_capacity`.  The power of two is only taken of amounts up to a page. -/
def alignCapacity (target : Target) (newCapacity : Nat) : Option Nat :=
  if pageSize < newCapacity then some (alignUpTwo target.wordWidth newCapacity pageSize)
  else (alignUpToPower target.wordWidth newCapacity).map fun aligned => max aligned 8

/-- The bytes that are asked for to hold an amount of elements. -/
def requestedBytes (target : Target) (element : ElementSize) (amount : Nat) : Option Nat :=
  (alignCapacity target amount).map fun newCapacity =>
    newCapacity * element.bytes % target.wordLimit

/-- The old buffer goes back, under its capacity as its size. -/
def release (vector : Vector Value) : List Allocation :=
  if vector.contents ≠ 0 then [⟨vector.contents, vector.capacity⟩] else []

/-- The elements move to a new block, whose size in bytes becomes the capacity. -/
def adopt (vector : Vector Value) (reply : Allocation) (slots : Nat -> Option Value) :
    VectorOutcome Value where
  result := true
  obtained := some reply
  vector := { vector with capacity := reply.size, contents := reply.ptr, slots := slots }
  freed := vector.release

def resize (target : Target) (element : ElementSize) (allocate : Nat -> Allocation)
    (vector : Vector Value) (amount : Nat) : Option (VectorOutcome Value) := do
  let requested <- requestedBytes target element amount
  let reply := allocate requested
  if reply.ptr = 0 then return ⟨false, vector, none, []⟩
  return vector.adopt reply fun index => if index < vector.count then vector.slots index else none

def ensure (target : Target) (element : ElementSize) (allocate : Nat -> Allocation)
    (vector : Vector Value) (amount : Nat) : Option (VectorOutcome Value) :=
  if amount ≤ vector.capacity then some ⟨true, vector, none, []⟩
  else vector.resize target element allocate amount

/-- The slot may lie behind the end of the block.  What a store does there to others who own
the memory is not described. -/
def emplaceUnensured (vector : Vector Value) (value : Value) : Vector Value :=
  { vector with
    count := vector.count + 1
    slots := Function.update vector.slots vector.count (some value) }

def append (target : Target) (element : ElementSize) (allocate : Nat -> Allocation)
    (vector : Vector Value) (value : Value) : Option (VectorOutcome Value) := do
  let ensured <- vector.ensure target element allocate ((vector.count + 1) % target.wordLimit)
  if ensured.result then return { ensured with vector := ensured.vector.emplaceUnensured value }
  return ensured

/-- The loop of `remove` that skips the removed element; `count` is the number of
elements that stay and the first argument bounds the turns. -/
def moveWithout (old : Nat -> Option Value) (count index : Nat) :
    Nat -> Nat -> Nat -> (Nat -> Option Value) -> Nat -> Option Value
  | 0, _, _, moved => moved
  | turns + 1, source, destination, moved =>
      if destination < count then
        if source = index then moveWithout old count index turns (source + 1) destination moved
        else
          moveWithout old count index turns (source + 1) (destination + 1)
            (Function.update moved destination (old source))
      else moved

/-- The element is destroyed before it is known whether the others can move. -/
def remove (target : Target) (element : ElementSize) (allocate : Nat -> Allocation)
    (vector : Vector Value) (index : Nat) : Option (VectorOutcome Value) := do
  if vector.count ≤ index then return ⟨false, vector, none, []⟩
  let shorter : Vector Value :=
    { vector with
      count := vector.count - 1
      slots := Function.update vector.slots index none }
  if index = shorter.count then return ⟨true, shorter, none, []⟩
  let requested <- requestedBytes target element shorter.count
  let reply := allocate requested
  if reply.ptr = 0 then return ⟨false, shorter, none, []⟩
  return shorter.adopt reply
    (moveWithout shorter.slots shorter.count index (shorter.count + 1) 0 0 fun _ => none)

/-! ## What a call does to the buffer -/

/-- No block was obtained, which happens when none is needed and when the
allocator refuses. -/
structure Stays (target : Target) (element : ElementSize) (allocate : Nat -> Allocation)
    (needs : Prop) (amount : Nat) (vector : Vector Value) (outcome : VectorOutcome Value) :
    Prop where
  obtained : outcome.obtained = none
  capacity : outcome.vector.capacity = vector.capacity
  contents : outcome.vector.contents = vector.contents
  refused : needs -> Exists fun bytes => requestedBytes target element amount = some bytes ∧
    (allocate bytes).ptr = 0

/-- The allocator answered the request for an amount of elements with a block. -/
structure Moves (target : Target) (element : ElementSize) (allocate : Nat -> Allocation)
    (amount : Nat) (reply : Allocation) (outcome : VectorOutcome Value) : Prop where
  requested : Exists fun bytes => requestedBytes target element amount = some bytes ∧
    allocate bytes = reply
  served : reply.ptr ≠ 0
  obtained : outcome.obtained = some reply
  capacity : outcome.vector.capacity = reply.size
  contents : outcome.vector.contents = reply.ptr
  result : outcome.result = true

/-- Up to a page the shift of `align_up_to_power` stays far below its width. -/
theorem requestedBytes_total (target : Target) (element : ElementSize) (amount : Nat) :
    Exists fun bytes => requestedBytes target element amount = some bytes := by
  have total : Exists fun newCapacity => alignCapacity target amount = some newCapacity := by
    rw [alignCapacity]
    by_cases large : pageSize < amount
    · exact ⟨_, if_pos large⟩
    · rw [if_neg large]
      by_cases zero : amount = 0
      · exact ⟨_, by rw [alignUpToPower, if_pos zero]; rfl⟩
      · have small : amount < 2 ^ 13 := by
          rw [pageSize] at large
          omega
        have word : amount < 2 ^ target.wordWidth :=
          Nat.lt_of_lt_of_le small (by cases target <;> decide)
        rw [alignUpToPower_eq word zero (Nat.lt_trans small (by decide))]
        exact ⟨_, rfl⟩
  rcases total with ⟨newCapacity, aligned⟩
  exact ⟨_, by rw [requestedBytes, aligned]; rfl⟩

variable {target : Target} {element : ElementSize} {allocate : Nat -> Allocation}
variable {vector : Vector Value} {outcome : VectorOutcome Value} {amount index : Nat} {value : Value}

/-- `resize` is refused, or moves the elements. -/
theorem resize_case (ran : vector.resize target element allocate amount = some outcome) :
    Exists fun bytes => requestedBytes target element amount = some bytes ∧
      ((allocate bytes).ptr = 0 ∧ outcome = ⟨false, vector, none, []⟩ ∨
        (allocate bytes).ptr ≠ 0 ∧ outcome = vector.adopt (allocate bytes) fun index =>
          if index < vector.count then vector.slots index else none) := by
  rcases Option.bind_eq_some_iff.mp ran with ⟨bytes, requested, rest⟩
  refine ⟨bytes, requested, ?_⟩
  by_cases refused : (allocate bytes).ptr = 0
  · simp only [refused, if_true] at rest
    exact .inl ⟨refused, (Option.some.inj rest).symm⟩
  · simp only [refused, if_false] at rest
    exact .inr ⟨refused, (Option.some.inj rest).symm⟩

theorem resize_cases (ran : vector.resize target element allocate amount = some outcome) :
    outcome.vector.count = vector.count ∧
      (Stays target element allocate True amount vector outcome ∧ outcome.result = false ∨
        Exists fun reply => Moves target element allocate amount reply outcome) := by
  rcases resize_case ran with ⟨bytes, requested, ⟨refused, rfl⟩ | ⟨served, rfl⟩⟩
  · exact ⟨rfl, .inl ⟨⟨rfl, rfl, rfl, fun _ => ⟨bytes, requested, refused⟩⟩, rfl⟩⟩
  · exact ⟨rfl, .inr ⟨allocate bytes, ⟨bytes, requested, rfl⟩, served, rfl, rfl, rfl, rfl⟩⟩

theorem ensure_cases (ran : vector.ensure target element allocate amount = some outcome) :
    outcome.vector.count = vector.count ∧
      (Stays target element allocate (vector.capacity < amount) amount vector outcome ∧
          (outcome.result = true <-> amount ≤ vector.capacity) ∨
        vector.capacity < amount ∧
          Exists fun reply => Moves target element allocate amount reply outcome) := by
  unfold ensure at ran
  by_cases enough : amount ≤ vector.capacity
  · rw [if_pos enough] at ran
    cases Option.some.inj ran
    exact ⟨rfl, .inl ⟨⟨rfl, rfl, rfl, fun short => absurd short (Nat.not_lt.mpr enough)⟩,
      fun _ => enough, fun _ => rfl⟩⟩
  · rw [if_neg enough] at ran
    rcases resize_cases ran with ⟨count, ⟨stays, failed⟩ | moves⟩
    · exact ⟨count, .inl ⟨⟨stays.obtained, stays.capacity, stays.contents,
        fun _ => stays.refused trivial⟩, fun wrong => absurd (failed.symm.trans wrong) (by decide),
        fun wrong => absurd wrong enough⟩⟩
    · exact ⟨count, .inr ⟨Nat.lt_of_not_le enough, moves⟩⟩

theorem append_cases (small : vector.count + 1 < target.wordLimit)
    (ran : vector.append target element allocate value = some outcome) :
    Stays target element allocate (vector.capacity < vector.count + 1) (vector.count + 1) vector
        outcome ∧ (outcome.vector.count = vector.count ∧ vector.capacity < vector.count + 1 ∧
            outcome.result = false ∨
          outcome.vector.count = vector.count + 1 ∧ vector.count + 1 ≤ vector.capacity ∧
            outcome.result = true) ∨
      outcome.vector.count = vector.count + 1 ∧ vector.capacity < vector.count + 1 ∧
        Exists fun reply => Moves target element allocate (vector.count + 1) reply outcome := by
  unfold append at ran
  rw [Nat.mod_eq_of_lt small] at ran
  cases ensured : vector.ensure target element allocate (vector.count + 1) with
  | none =>
      rw [ensured] at ran
      exact absurd ran (by simp)
  | some middle =>
      rw [ensured] at ran
      rcases ensure_cases ensured with ⟨count, cases⟩
      cases success : middle.result with
      | true =>
          simp only [Option.bind_eq_bind, Option.bind_some, success, if_true] at ran
          cases Option.some.inj ran
          have counted : (middle.vector.emplaceUnensured value).count = vector.count + 1 :=
            congrArg (· + 1) count
          rcases cases with ⟨stays, enough⟩ | ⟨short, reply, moves⟩
          · exact .inl ⟨⟨stays.obtained, stays.capacity, stays.contents, stays.refused⟩,
              .inr ⟨counted, enough.mp success, rfl⟩⟩
          · exact .inr ⟨counted, short, reply, moves.requested, moves.served, moves.obtained,
              moves.capacity, moves.contents, rfl⟩
      | false =>
          simp only [Option.bind_eq_bind, Option.bind_some, success, Bool.false_eq_true,
            if_false] at ran
          cases Option.some.inj ran
          rcases cases with ⟨stays, enough⟩ | ⟨short, reply, moves⟩
          · refine .inl ⟨stays, .inl ⟨count, Nat.lt_of_not_le ?_, success⟩⟩
            intro within
            exact absurd (success.symm.trans (enough.mpr within)) (by decide)
          · exact absurd (success.symm.trans moves.result) (by decide)

/-- The vector once `remove` has destroyed its element. -/
def shortened (vector : Vector Value) (index : Nat) : Vector Value :=
  { vector with
    count := vector.count - 1
    slots := Function.update vector.slots index none }

/-- The outcomes of `remove`: there is no such element, it was the last, the others
cannot move, or they have moved. -/
inductive RemoveCase (target : Target) (element : ElementSize) (allocate : Nat -> Allocation)
    (vector : Vector Value) (index : Nat) : VectorOutcome Value -> Prop
  | beyond (behind : vector.count ≤ index) :
      RemoveCase target element allocate vector index ⟨false, vector, none, []⟩
  | last (isLast : index + 1 = vector.count) :
      RemoveCase target element allocate vector index ⟨true, vector.shortened index, none, []⟩
  | refused (further : index + 1 < vector.count) (bytes : Nat)
      (requested : requestedBytes target element (vector.count - 1) = some bytes)
      (refused : (allocate bytes).ptr = 0) :
      RemoveCase target element allocate vector index ⟨false, vector.shortened index, none, []⟩
  | moved (further : index + 1 < vector.count) (bytes : Nat)
      (requested : requestedBytes target element (vector.count - 1) = some bytes)
      (served : (allocate bytes).ptr ≠ 0) :
      RemoveCase target element allocate vector index
        ((vector.shortened index).adopt (allocate bytes)
          (moveWithout (vector.shortened index).slots (vector.count - 1) index (vector.count - 1 + 1)
            0 0 fun _ => none))

theorem remove_case (ran : vector.remove target element allocate index = some outcome) :
    RemoveCase target element allocate vector index outcome := by
  unfold remove at ran
  by_cases beyond : vector.count ≤ index
  · rw [if_pos beyond] at ran
    cases Option.some.inj ran
    exact .beyond beyond
  · rw [if_neg beyond] at ran
    by_cases last : index = vector.count - 1
    · have reached : index + 1 = vector.count := by omega
      dsimp only at ran
      rw [if_pos last] at ran
      cases Option.some.inj ran
      exact .last reached
    · have further : index + 1 < vector.count := by omega
      rcases requestedBytes_total target element (vector.count - 1) with ⟨bytes, requested⟩
      simp only [last, if_false, requested, Option.bind_eq_bind, Option.bind_some] at ran
      by_cases refused : (allocate bytes).ptr = 0
      · simp only [refused, if_true] at ran
        cases Option.some.inj ran
        exact .refused further bytes requested refused
      · simp only [refused, if_false] at ran
        cases Option.some.inj ran
        exact .moved further bytes requested refused

theorem remove_cases (ran : vector.remove target element allocate index = some outcome) :
    Stays target element allocate (index < vector.count - 1) (vector.count - 1) vector outcome ∧
        outcome.vector.count ≤ vector.count ∨
      outcome.vector.count = vector.count - 1 ∧ index < vector.count - 1 ∧
        Exists fun reply => Moves target element allocate (vector.count - 1) reply outcome := by
  cases remove_case ran with
  | beyond behind =>
      exact .inl ⟨⟨rfl, rfl, rfl, fun inside => absurd inside (by omega)⟩, Nat.le_refl _⟩
  | last isLast =>
      exact .inl ⟨⟨rfl, rfl, rfl, fun inside => absurd inside (by omega)⟩, Nat.sub_le _ _⟩
  | refused further bytes requested refused =>
      exact .inl ⟨⟨rfl, rfl, rfl, fun _ => ⟨bytes, requested, refused⟩⟩, Nat.sub_le _ _⟩
  | moved further bytes requested served =>
      exact .inr ⟨rfl, by omega, allocate bytes, ⟨bytes, requested, rfl⟩, served, rfl, rfl, rfl, rfl⟩

/-! ## What a call does to the elements -/

/-- The objects in the buffer, in their order. -/
def elements (vector : Vector Value) : List (Option Value) :=
  (List.range vector.count).map vector.slots

@[simp] theorem length_elements (vector : Vector Value) : vector.elements.length = vector.count := by
  rw [elements, List.length_map, List.length_range]

theorem elements_congr {after : Vector Value} (count : after.count = vector.count)
    (slots : forall index, index < vector.count -> after.slots index = vector.slots index) :
    after.elements = vector.elements := by
  rw [elements, elements, count]
  exact List.map_congr_left fun index member => slots index (List.mem_range.mp member)

theorem elements_emplaceUnensured (vector : Vector Value) (value : Value) :
    (vector.emplaceUnensured value).elements = vector.elements ++ [some value] := by
  have front : (List.range vector.count).map (Function.update vector.slots vector.count (some value)) =
      vector.elements := by
    refine List.map_congr_left fun index member => ?_
    exact Function.update_of_ne (Nat.ne_of_lt (List.mem_range.mp member)) _ _
  rw [elements, emplaceUnensured]
  dsimp only
  rw [List.range_succ, List.map_append, front, List.map_singleton, Function.update_self]

theorem resize_elements (ran : vector.resize target element allocate amount = some outcome) :
    outcome.vector.elements = vector.elements ∧ (outcome.result = false -> outcome.vector = vector) := by
  rcases resize_case ran with ⟨bytes, _, ⟨_, rfl⟩ | ⟨_, rfl⟩⟩
  · exact ⟨rfl, fun _ => rfl⟩
  · refine ⟨elements_congr rfl ?_, fun wrong => absurd wrong (by simp [adopt])⟩
    intro index inside
    exact if_pos inside

theorem ensure_elements (ran : vector.ensure target element allocate amount = some outcome) :
    outcome.vector.elements = vector.elements ∧ (outcome.result = false -> outcome.vector = vector) := by
  unfold ensure at ran
  by_cases enough : amount ≤ vector.capacity
  · rw [if_pos enough] at ran
    cases Option.some.inj ran
    exact ⟨rfl, fun _ => rfl⟩
  · rw [if_neg enough] at ran
    exact resize_elements ran

/-- An append that returns true adds the value at the end; one that returns false
leaves the vector as it was. -/
theorem append_elements (ran : vector.append target element allocate value = some outcome) :
    (outcome.result = true -> outcome.vector.elements = vector.elements ++ [some value]) ∧
      (outcome.result = false -> outcome.vector = vector) := by
  unfold append at ran
  cases ensured : vector.ensure target element allocate ((vector.count + 1) % target.wordLimit) with
  | none =>
      rw [ensured] at ran
      exact absurd ran (by simp)
  | some middle =>
      rw [ensured] at ran
      rcases ensure_elements ensured with ⟨same, failed⟩
      cases success : middle.result with
      | true =>
          simp only [Option.bind_eq_bind, Option.bind_some, success, if_true] at ran
          cases Option.some.inj ran
          refine ⟨fun _ => ?_, fun wrong => absurd wrong (by simp)⟩
          rw [elements_emplaceUnensured, same]
      | false =>
          simp only [Option.bind_eq_bind, Option.bind_some, success, Bool.false_eq_true,
            if_false] at ran
          cases Option.some.inj ran
          exact ⟨fun wrong => absurd (success.symm.trans wrong) (by decide), fun _ => failed success⟩

/-- Every call returns. -/
theorem ensure_total (target : Target) (element : ElementSize) (allocate : Nat -> Allocation)
    (vector : Vector Value) (amount : Nat) :
    Exists fun outcome => vector.ensure target element allocate amount = some outcome := by
  rcases requestedBytes_total target element amount with ⟨bytes, requested⟩
  by_cases enough : amount ≤ vector.capacity
  · exact ⟨_, if_pos enough⟩
  · rw [ensure, if_neg enough, resize, requested]
    by_cases refused : (allocate bytes).ptr = 0
    · simp [refused]
    · simp [refused]

theorem append_total (target : Target) (element : ElementSize) (allocate : Nat -> Allocation)
    (vector : Vector Value) (value : Value) :
    Exists fun outcome => vector.append target element allocate value = some outcome := by
  rcases vector.ensure_total target element allocate ((vector.count + 1) % target.wordLimit) with
    ⟨ensured, ran⟩
  rw [append, ran]
  cases success : ensured.result with
  | true => simp [success]
  | false => simp [success]

theorem remove_total (target : Target) (element : ElementSize) (allocate : Nat -> Allocation)
    (vector : Vector Value) (index : Nat) :
    Exists fun outcome => vector.remove target element allocate index = some outcome := by
  rcases requestedBytes_total target element (vector.count - 1) with ⟨bytes, requested⟩
  rw [remove]
  by_cases beyond : vector.count ≤ index
  · exact ⟨_, if_pos beyond⟩
  · rw [if_neg beyond]
    by_cases last : index = vector.count - 1
    · simp [last]
    · by_cases refused : (allocate bytes).ptr = 0
      · simp [last, requested, refused]
      · simp [last, requested, refused]

end Vector

end Pine
end Pinyon
