import Pinyon.Pine.VectorSafety

namespace Pinyon
namespace Pine

/-!
# A vector in its memory

Pointers into a vector are only as good as the buffer behind it.  A `Buffer` is
a vector together with the block it lives in and a generation, which changes
whenever the elements move to another block.  An element that is stored behind
the end of the block overwrites what belongs to someone else; the vector does not
know, and goes on with it.
-/

structure Buffer (Value : Type) where
  vector : Vector Value
  block : Allocation
  generation : Nat

namespace Buffer

variable {Value : Type}

def empty (Value : Type) : Buffer Value where
  vector := Vector.empty Value
  block := {}
  generation := 0

/-- `append`, which returns whether it was done. -/
def append (target : Target) (element : ElementSize) (allocate : Nat -> Allocation)
    (buffer : Buffer Value) (value : Value) : Option (Bool × Buffer Value) := do
  let outcome <- buffer.vector.append target element allocate value
  return (outcome.result,
    { vector := outcome.vector
      block := outcome.obtained.getD buffer.block
      generation := if outcome.obtained.isSome then buffer.generation + 1 else buffer.generation })

/-- An append finds room in the capacity, or the allocator answers with a block. -/
def Accepts (target : Target) (element : ElementSize) (allocate : Nat -> Allocation)
    (buffer : Buffer Value) : Prop :=
  buffer.vector.count + 1 ≤ buffer.vector.capacity ∨ forall bytes,
    Vector.requestedBytes target element (buffer.vector.count + 1) = some bytes ->
      (allocate bytes).ptr ≠ 0

/-- One more element lies inside the block, the present one or the one that the
allocator answers with. -/
def HasRoom (target : Target) (element : ElementSize) (allocate : Nat -> Allocation)
    (buffer : Buffer Value) : Prop :=
  if buffer.vector.count + 1 ≤ buffer.vector.capacity then
    (buffer.vector.count + 1) * element.bytes ≤ buffer.block.size
  else forall bytes,
    Vector.requestedBytes target element (buffer.vector.count + 1) = some bytes ->
      (buffer.vector.count + 1) * element.bytes ≤ (allocate bytes).size

/-- The invariant of a buffer that nothing was stored outside of.  Its capacity
is the size of its block, in bytes and hence too large. -/
structure Sound (target : Target) (element : ElementSize) (buffer : Buffer Value) : Prop where
  capacity : buffer.vector.capacity = buffer.block.size
  inside : buffer.vector.count * element.bytes ≤ buffer.block.size
  bounded : buffer.block.size + 1 < target.wordLimit

theorem sound_empty (target : Target) (element : ElementSize) :
    Sound target element (empty Value) where
  capacity := rfl
  inside := by simp [empty, Vector.empty]
  bounded := by
    change 0 + 1 < target.wordLimit
    cases target <;> decide

variable {target : Target} {element : ElementSize} {allocate : Nat -> Allocation}
variable {buffer after : Buffer Value} {value : Value}

theorem Sound.count_le (sound : Sound target element buffer) :
    buffer.vector.count ≤ buffer.vector.capacity := by
  have grows := Nat.le_mul_of_pos_right buffer.vector.count element.positive
  have inside := sound.inside
  have capacity := sound.capacity
  omega

/-- Elements of more than one byte never move: the block is full long before the
capacity is. -/
theorem Sound.full_of_short (sound : Sound target element buffer) (wide : 1 < element.bytes)
    (short : buffer.vector.capacity < buffer.vector.count + 1) : buffer.vector.count = 0 := by
  have inside := sound.inside
  have capacity := sound.capacity
  have doubled := Nat.mul_le_mul_left buffer.vector.count (Nat.succ_le_of_lt wide)
  omega

theorem Sound.count_small (sound : Sound target element buffer) :
    buffer.vector.count + 1 < target.wordLimit := by
  have counted := sound.count_le
  have capacity := sound.capacity
  have bounded := sound.bounded
  omega

/-- An append that finds no room and gets no block changes nothing. -/
theorem Sound.append_refused (sound : Sound target element buffer)
    (refused : ¬ Accepts target element allocate buffer) :
    buffer.append target element allocate value = some (false, buffer) := by
  rw [Accepts, not_or] at refused
  rcases buffer.vector.append_total target element allocate value with ⟨outcome, ran⟩
  have elements := Vector.append_elements ran
  rcases Vector.append_cases sound.count_small ran with ⟨stays, counts⟩ | ⟨_, short, reply, moves⟩
  · rcases counts with ⟨_, _, failed⟩ | ⟨_, enough, _⟩
    · have same := elements.2 failed
      rw [append, ran]
      simp only [Option.bind_eq_bind, Option.bind_some, failed, stays.obtained, same]
      rfl
    · exact absurd enough refused.1
  · refine absurd ?_ refused.2
    rcases moves.requested with ⟨asked, requested, answer⟩
    intro bytes same
    cases Option.some.inj (requested.symm.trans same)
    rw [answer]
    exact moves.served

/-- An append that finds room or gets a block, and stores nothing outside it, adds
the value.  The elements move only where elements have one byte, or there are none. -/
theorem Sound.append_accepted (sound : Sound target element buffer)
    (serves : Serves target allocate) (accepts : Accepts target element allocate buffer)
    (room : HasRoom target element allocate buffer) : Exists fun after =>
      buffer.append target element allocate value = some (true, after) ∧
      Sound target element after ∧
      after.vector.elements = buffer.vector.elements ++ [some value] ∧
      (1 < element.bytes -> 0 < buffer.vector.count -> after.generation = buffer.generation) := by
  rcases buffer.vector.append_total target element allocate value with ⟨outcome, ran⟩
  have elements := Vector.append_elements ran
  rcases Vector.append_cases sound.count_small ran with ⟨stays, counts⟩ | ⟨count, short, reply, moves⟩
  · rcases counts with ⟨_, short, _⟩ | ⟨count, enough, success⟩
    · rcases stays.refused short with ⟨bytes, requested, refused⟩
      rcases accepts with within | served
      · exact absurd within (Nat.not_le.mpr short)
      · exact absurd refused (served bytes requested)
    · rw [HasRoom, if_pos enough, ← count] at room
      refine ⟨⟨outcome.vector, buffer.block, buffer.generation⟩, ?_, ⟨?_, room, sound.bounded⟩,
        elements.1 success, fun _ _ => rfl⟩
      · rw [append, ran]
        simp only [Option.bind_eq_bind, Option.bind_some, success, stays.obtained, Option.getD_none]
        rfl
      · exact stays.capacity.trans sound.capacity
  · rw [HasRoom, if_neg (Nat.not_le.mpr short)] at room
    rcases moves.requested with ⟨bytes, requested, answer⟩
    have long := room bytes requested
    rw [answer, ← count] at long
    refine ⟨⟨outcome.vector, reply, buffer.generation + 1⟩, ?_, ⟨moves.capacity, long, ?_⟩,
      elements.1 moves.result, ?_⟩
    · rw [append, ran]
      simp only [Option.bind_eq_bind, Option.bind_some, moves.result, moves.obtained,
        Option.getD_some]
      rfl
    · have served := moves.served
      rcases serves bytes with refused | ⟨_, bounded⟩
      · rw [answer] at refused
        exact absurd refused served
      · rw [answer] at bounded
        dsimp only
        omega
    · intro wide some
      have none := sound.full_of_short wide short
      omega

theorem append_total (target : Target) (element : ElementSize) (allocate : Nat -> Allocation)
    (buffer : Buffer Value) (value : Value) :
    Exists fun answer => buffer.append target element allocate value = some answer := by
  rcases buffer.vector.append_total target element allocate value with ⟨outcome, ran⟩
  rw [append, ran]
  exact ⟨_, rfl⟩

/-- The block holds all elements when it had room for the last one. -/
theorem append_inside (small : buffer.vector.count + 1 < target.wordLimit)
    (room : HasRoom target element allocate buffer)
    (ran : buffer.append target element allocate value = some (true, after)) :
    after.vector.count * element.bytes ≤ after.block.size := by
  rcases Option.bind_eq_some_iff.mp ran with ⟨outcome, done, rest⟩
  rcases Prod.mk.inj (Option.some.inj rest) with ⟨success, rfl⟩
  rcases Vector.append_cases small done with ⟨stays, counts⟩ | ⟨count, short, reply, moves⟩
  · rcases counts with ⟨_, _, failed⟩ | ⟨count, enough, _⟩
    · exact absurd (failed.symm.trans success) (by decide)
    · rw [HasRoom, if_pos enough, ← count] at room
      simpa only [stays.obtained, Option.getD_none] using room
  · rcases moves.requested with ⟨bytes, requested, answer⟩
    rw [HasRoom, if_neg (Nat.not_le.mpr short)] at room
    have long := room bytes requested
    rw [answer, ← count] at long
    simpa only [moves.obtained, Option.getD_some] using long

/-! ## When the elements move -/

/-- An append finds the capacity used up and obtains a new block. -/
def Grows (target : Target) (element : ElementSize) (allocate : Nat -> Allocation)
    (buffer : Buffer Value) : Prop :=
  buffer.vector.capacity < (buffer.vector.count + 1) % target.wordLimit ∧ forall bytes,
    Vector.requestedBytes target element ((buffer.vector.count + 1) % target.wordLimit) =
      some bytes -> (allocate bytes).ptr ≠ 0

/-- An append changes nothing, because it is refused, or it adds the value, and
the elements move just when the buffer grows. -/
theorem append_cases {appended : Bool}
    (ran : buffer.append target element allocate value = some (appended, after)) :
    appended = false ∧ after = buffer ∧ ¬ Grows target element allocate buffer ∧
        (buffer.vector.count + 1 < target.wordLimit -> ¬ Accepts target element allocate buffer) ∨
      appended = true ∧ after.vector.elements = buffer.vector.elements ++ [some value] ∧
        (buffer.vector.count + 1 < target.wordLimit -> Accepts target element allocate buffer) ∧
        (¬ Grows target element allocate buffer ∧ after.generation = buffer.generation ∨
          Grows target element allocate buffer ∧ after.generation = buffer.generation + 1) := by
  rcases Option.bind_eq_some_iff.mp ran with ⟨outcome, done, rest⟩
  cases Option.some.inj rest
  have elements := Vector.append_elements done
  rcases Option.bind_eq_some_iff.mp done with ⟨ensured, ran, result⟩
  rw [Vector.ensure] at ran
  by_cases enough : (buffer.vector.count + 1) % target.wordLimit ≤ buffer.vector.capacity
  · rw [if_pos enough] at ran
    cases Option.some.inj ran
    cases Option.some.inj result
    refine .inr ⟨rfl, elements.1 rfl, fun small => .inl ?_,
      .inl ⟨fun grows => absurd enough (Nat.not_le.mpr grows.1), rfl⟩⟩
    rwa [Nat.mod_eq_of_lt small] at enough
  · rw [if_neg enough] at ran
    rcases Option.bind_eq_some_iff.mp ran with ⟨bytes, requested, answered⟩
    by_cases refused : (allocate bytes).ptr = 0
    · simp only [refused, if_true] at answered
      cases Option.some.inj answered
      cases Option.some.inj result
      refine .inl ⟨rfl, rfl, fun grows => grows.2 bytes requested refused, fun small => ?_⟩
      rw [Nat.mod_eq_of_lt small] at enough requested
      rintro (within | served)
      · exact enough within
      · exact served bytes requested refused
    · simp only [refused, if_false] at answered
      cases Option.some.inj answered
      cases Option.some.inj result
      have served : forall other,
          Vector.requestedBytes target element ((buffer.vector.count + 1) % target.wordLimit) =
            some other -> (allocate other).ptr ≠ 0 := by
        intro other same
        cases Option.some.inj (requested.symm.trans same)
        exact refused
      refine .inr ⟨rfl, elements.1 rfl, fun small => .inr ?_,
        .inr ⟨⟨Nat.lt_of_not_le enough, served⟩, rfl⟩⟩
      rwa [Nat.mod_eq_of_lt small] at served

end Buffer

end Pine
end Pinyon
