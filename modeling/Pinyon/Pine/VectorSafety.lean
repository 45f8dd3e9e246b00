import Pinyon.Library.History
import Pinyon.Pine.FreeListLayout
import Pinyon.Pine.Vector

namespace Pinyon
namespace Pine

open Library

/-!
# The buffer of a vector

A call that obtains no block changes neither the capacity nor the buffer.  One
that does takes the size of the block in bytes for a number of elements, so what
the vector believes about its buffer is true just when an element has one byte.
Even then the block may be too short, when rounding the amount up to a page
wraps and less than the amount is asked for.
-/

/-- An allocator that answers with nothing or with a block of at least the
requested size, which it reports. -/
def Serves (target : Target) (allocate : Nat -> Allocation) : Prop :=
  forall requested, (allocate requested).ptr = 0 ∨ requested ≤ (allocate requested).size ∧
    (allocate requested).ptr + (allocate requested).size < target.wordLimit

/-- A vector, the block it last obtained, and the result of the last call. -/
structure VectorUse (Value : Type) where
  vector : Vector Value
  block : Allocation
  result : Bool

/-- A call, with the allocator as it behaves at that moment. -/
inductive VectorCall (Value : Type) where
  | ensure (allocate : Nat -> Allocation) (amount : Nat)
  | append (allocate : Nat -> Allocation) (value : Value)
  | remove (allocate : Nat -> Allocation) (index : Nat)

namespace VectorCall

variable {Value : Type}

def allocate : VectorCall Value -> Nat -> Allocation
  | ensure allocate _ => allocate
  | append allocate _ => allocate
  | remove allocate _ => allocate

/-- What the call computes on a vector. -/
def run (target : Target) (element : ElementSize) (vector : Vector Value) :
    VectorCall Value -> Option (VectorOutcome Value)
  | ensure allocate amount => vector.ensure target element allocate amount
  | append allocate value => vector.append target element allocate value
  | remove allocate index => vector.remove target element allocate index

/-- The number of elements that the buffer is to hold after the call. -/
def amount (vector : Vector Value) : VectorCall Value -> Nat
  | ensure _ amount => amount
  | append _ _ => vector.count + 1
  | remove _ _ => vector.count - 1

/-- The buffer is too small for the call, or an element in the middle goes. -/
def NeedsBlock (vector : Vector Value) : VectorCall Value -> Prop
  | ensure _ amount => vector.capacity < amount
  | append _ _ => vector.capacity < vector.count + 1
  | remove _ index => index < vector.count - 1

end VectorCall

namespace VectorUse

variable {Value : Type}

def empty (Value : Type) : VectorUse Value where
  vector := Vector.empty Value
  block := {}
  result := true

inductive Step (target : Target) (element : ElementSize) :
    VectorUse Value -> VectorCall Value -> VectorUse Value -> Prop
  | call (before : VectorUse Value) (call : VectorCall Value)
      (serves : Serves target call.allocate) (outcome : VectorOutcome Value)
      (ran : call.run target element before.vector = some outcome) :
      Step target element before call
        { vector := outcome.vector
          block := outcome.obtained.getD before.block
          result := outcome.result }

/-- The bytes of an element: where `emplace_unensured` stores it and where it moves to. -/
def slotBytes (element : ElementSize) (vector : Vector Value) (index : Nat) : Set Nat :=
  span (vector.contents + index * element.bytes) element.bytes

/-- The buffer holds the capacity, and every stored element lies inside it. -/
structure Inside (element : ElementSize) (use : VectorUse Value) : Prop where
  capacity : use.vector.capacity * element.bytes ≤ use.block.size
  elements : forall index, index < use.vector.count ->
    slotBytes element use.vector index ⊆ use.block.bytes

/-- What a call promises: the elements, the one it stores included, lie inside
the buffer, and an amount that was ensured has room. -/
def Promise (element : ElementSize) (_ : VectorUse Value) (call : VectorCall Value)
    (after : VectorUse Value) : Prop :=
  Inside element after ∧ forall allocate amount, call = .ensure allocate amount ->
    after.result = true -> amount * element.bytes ≤ after.block.size

/-- A call that obtains a block obtains it for elements of one byte, and it is
not shorter than the amount that was rounded up. -/
def Fitting (target : Target) (element : ElementSize) (use : VectorUse Value)
    (call : VectorCall Value) : Prop :=
  call.NeedsBlock use.vector -> forall bytes,
    Vector.requestedBytes target element (call.amount use.vector) = some bytes ->
    (call.allocate bytes).ptr ≠ 0 ->
      element.bytes = 1 ∧ call.amount use.vector ≤ (call.allocate bytes).size

variable {target : Target} {element : ElementSize} {use before after : VectorUse Value}
variable {call : VectorCall Value}

/-- The invariant of the runs that keep the promise. -/
structure Sound (target : Target) (element : ElementSize) (use : VectorUse Value) : Prop where
  inside : Inside element use
  counted : use.vector.count ≤ use.vector.capacity
  here : use.vector.contents = use.block.ptr
  bounded : use.block.size + 1 < target.wordLimit

theorem sound_empty (target : Target) (element : ElementSize) :
    Sound target element (empty Value) where
  inside := ⟨by simp [empty, Vector.empty], by simp [empty, Vector.empty]⟩
  counted := Nat.le_refl _
  here := rfl
  bounded := by
    change 0 + 1 < target.wordLimit
    cases target <;> decide

/-- Elements lie inside their block when it is long enough for all of them. -/
theorem elements_iff (here : use.vector.contents = use.block.ptr) :
    (forall index, index < use.vector.count ->
      slotBytes element use.vector index ⊆ use.block.bytes) <->
    use.vector.count * element.bytes ≤ use.block.size := by
  have positive := element.positive
  constructor
  · intro elements
    cases counted : use.vector.count with
    | zero => simp
    | succ last =>
        have bounds := (span_subset_iff positive).mp (elements last (by omega))
        rw [here] at bounds
        rw [Nat.succ_mul]
        omega
  · intro long index inside
    have reach := Nat.mul_le_mul_right element.bytes (Nat.succ_le_of_lt inside)
    rw [Nat.succ_mul] at reach
    refine span_subset ?_ ?_
    · rw [here]
      exact Nat.le_add_right _ _
    · rw [here]
      omega

/-- A capacity that was reported in bytes is right for elements of one byte, and
for a block that holds at least one element only for those. -/
theorem one_byte_iff {size amount : Nat} (some : 0 < amount) :
    size * element.bytes ≤ size ∧ amount * element.bytes ≤ size <->
      element.bytes = 1 ∧ amount ≤ size := by
  have positive := element.positive
  constructor
  · rintro ⟨capacity, room⟩
    have long : 0 < size := Nat.lt_of_lt_of_le (Nat.mul_pos some positive) room
    have one : element.bytes ≤ 1 := by
      apply Nat.le_of_mul_le_mul_left _ long
      rw [Nat.mul_one]
      exact capacity
    have exactly : element.bytes = 1 := by omega
    rw [exactly, Nat.mul_one] at room
    exact ⟨exactly, room⟩
  · rintro ⟨one, enough⟩
    rw [one, Nat.mul_one, Nat.mul_one]
    exact ⟨Nat.le_refl _, enough⟩

/-! ## One call -/

/-- What the three calls have in common. -/
theorem run_cases {vector : Vector Value} {outcome : VectorOutcome Value}
    (small : vector.count + 1 < target.wordLimit) (counted : vector.count ≤ vector.capacity)
    (ran : call.run target element vector = some outcome) :
    Vector.Stays target element call.allocate (call.NeedsBlock vector) (call.amount vector) vector
        outcome ∧ outcome.vector.count ≤ vector.capacity ∧
        (forall allocate amount, call = .ensure allocate amount -> outcome.result = true ->
          amount ≤ vector.capacity) ∨
      0 < call.amount vector ∧ outcome.vector.count ≤ call.amount vector ∧
        (outcome.vector.count = call.amount vector ∨
          Exists fun allocate => call = .ensure allocate (call.amount vector)) ∧
        call.NeedsBlock vector ∧ Exists fun reply =>
          Vector.Moves target element call.allocate (call.amount vector) reply outcome := by
  cases call with
  | ensure allocate amount =>
      rcases Vector.ensure_cases ran with ⟨count, ⟨stays, enough⟩ | ⟨short, moves⟩⟩
      · refine .inl ⟨stays, by rw [count]; exact counted, ?_⟩
        intro _ _ same success
        cases same
        exact enough.mp success
      · have fewer : outcome.vector.count ≤ amount := by
          rw [count]
          exact Nat.le_of_lt (Nat.lt_of_le_of_lt counted short)
        exact .inr ⟨Nat.zero_lt_of_lt short, fewer, .inr ⟨allocate, rfl⟩, short, moves⟩
  | append allocate value =>
      rcases Vector.append_cases small ran with ⟨stays, count⟩ | ⟨count, short, moves⟩
      · refine .inl ⟨stays, ?_, fun _ _ wrong => by cases wrong⟩
        rcases count with ⟨same, _, _⟩ | ⟨more, enough, _⟩
        · rw [same]
          exact counted
        · rw [more]
          exact enough
      · exact .inr ⟨Nat.succ_pos _, Nat.le_of_eq count, .inl count, short, moves⟩
  | remove allocate index =>
      rcases Vector.remove_cases ran with ⟨stays, count⟩ | ⟨count, inside, moves⟩
      · exact .inl ⟨stays, Nat.le_trans count counted, fun _ _ wrong => by cases wrong⟩
      · exact .inr ⟨Nat.zero_lt_of_lt inside, Nat.le_of_eq count, .inl count, inside, moves⟩

theorem Sound.count_small (sound : Sound target element use) :
    use.vector.count + 1 < target.wordLimit := by
  have long := (elements_iff sound.here).mp sound.inside.elements
  have grows := Nat.le_mul_of_pos_right use.vector.count element.positive
  have bounded := sound.bounded
  omega

/-- A call keeps its promise just when it meets the condition. -/
theorem Sound.promise_iff (sound : Sound target element before)
    (stepped : Step target element before call after) :
    Promise element before call after <-> Fitting target element before call := by
  cases stepped with
  | call serves outcome ran =>
      rcases run_cases sound.count_small sound.counted ran with
        ⟨stays, count, enough⟩ | ⟨some, count, whole, needs, reply, moves⟩
      · have capacity := sound.inside.capacity
        have room : forall {amount : Nat}, amount ≤ before.vector.capacity ->
            amount * element.bytes ≤ before.block.size := fun within =>
          Nat.le_trans (Nat.mul_le_mul_right _ within) capacity
        constructor
        · intro _ needs bytes requested served
          rcases stays.refused needs with ⟨asked, same, refused⟩
          cases Option.some.inj (same.symm.trans requested)
          exact absurd refused served
        · intro _
          rw [Promise, stays.obtained]
          refine ⟨⟨?_, ?_⟩, fun allocate amount same success => room (enough _ _ same success)⟩
          · dsimp only [Option.getD_none]
            rw [stays.capacity]
            exact capacity
          · apply (elements_iff (stays.contents.trans sound.here)).mpr
            exact room count
      · have fitting : Fitting target element before call <->
            element.bytes = 1 ∧ call.amount before.vector ≤ reply.size := by
          rcases moves.requested with ⟨bytes, requested, answer⟩
          constructor
          · intro condition
            have answered := condition needs bytes requested (answer ▸ moves.served)
            rwa [answer] at answered
          · intro known _ asked same _
            cases Option.some.inj (requested.symm.trans same)
            rw [answer]
            exact known
        rw [fitting, ← one_byte_iff some, Promise, moves.obtained]
        dsimp only [Option.getD_some]
        constructor
        · rintro ⟨inside, ensured⟩
          have capacity := inside.capacity
          rw [moves.capacity] at capacity
          refine ⟨capacity, ?_⟩
          rcases whole with same | ⟨allocate, isEnsure⟩
          · have long := (elements_iff moves.contents).mp inside.elements
            rw [same] at long
            exact long
          · exact ensured allocate _ isEnsure moves.result
        · rintro ⟨capacity, room⟩
          refine ⟨⟨?_, ?_⟩, ?_⟩
          · rw [moves.capacity]
            exact capacity
          · apply (elements_iff moves.contents).mpr
            exact Nat.le_trans (Nat.mul_le_mul_right _ count) room
          · intro allocate amount isEnsure _
            rw [isEnsure] at room
            exact room

theorem Sound.step (sound : Sound target element before)
    (stepped : Step target element before call after) (promise : Promise element before call after) :
    Sound target element after := by
  have inside := promise.1
  cases stepped with
  | call serves outcome ran =>
      rcases run_cases sound.count_small sound.counted ran with
        ⟨stays, count, enough⟩ | ⟨some, count, whole, needs, reply, moves⟩
      · rw [stays.obtained] at inside ⊢
        refine ⟨inside, ?_, stays.contents.trans sound.here, sound.bounded⟩
        dsimp only
        rw [stays.capacity]
        exact count
      · rw [moves.obtained] at inside ⊢
        refine ⟨inside, ?_, moves.contents, ?_⟩
        · have long := (elements_iff moves.contents).mp inside.elements
          have grows := Nat.le_mul_of_pos_right outcome.vector.count element.positive
          dsimp only at long ⊢
          rw [moves.capacity]
          exact Nat.le_trans grows long
        · rcases moves.requested with ⟨bytes, _, answer⟩
          have served := moves.served
          rcases serves bytes with refused | ⟨_, bounded⟩
          · rw [answer] at refused
            exact absurd refused served
          · rw [answer] at bounded
            dsimp only [Option.getD_some]
            omega

/-- `Vector` keeps all its elements inside its buffer, and keeps the promise of
`ensure`, in exactly the runs in which a call obtains a block only for elements
of one byte and never one that is shorter than the amount it was asked for; and
in these runs every call returns. -/
theorem vector_inside_iff {calls : List (VectorCall Value)} :
    (Reaches (keeping (Step target element) (Promise element)) (empty Value) calls use <->
      Reaches (guarded (Step target element) (Fitting target element)) (empty Value) calls use) ∧
    forall call : VectorCall Value, Serves target call.allocate ->
      Exists fun after => Step target element use call after := by
  constructor
  · exact Reaches.keeping_iff_guarded (Sound target element) (sound_empty target element)
      (fun _ _ _ sound stepped => sound.promise_iff stepped)
      (fun _ _ _ sound stepped promise => sound.step stepped promise)
  · intro call serves
    have returns : Exists fun outcome => call.run target element use.vector = some outcome := by
      cases call with
      | ensure allocate amount => exact use.vector.ensure_total target element allocate amount
      | append allocate value => exact use.vector.append_total target element allocate value
      | remove allocate index => exact use.vector.remove_total target element allocate index
    rcases returns with ⟨outcome, ran⟩
    exact ⟨_, .call use call serves outcome ran⟩

/-- An allocator that answers with a block at a fixed place, of the size asked for. -/
def fixedBlock (requested : Nat) : Allocation :=
  if requested ≤ pageSize then ⟨4096, requested⟩ else {}

theorem serves_fixedBlock (target : Target) : Serves target fixedBlock := by
  intro requested
  by_cases small : requested ≤ pageSize
  · rw [fixedBlock, if_pos small]
    refine .inr ⟨Nat.le_refl _, ?_⟩
    rw [pageSize] at small
    cases target <;> simp only [Target.wordLimit, Target.wordWidth] <;> omega
  · rw [fixedBlock, if_neg small]
    exact .inl rfl

/-- A character is appended. -/
theorem vector_inside_iff_character : Exists fun use : VectorUse Char =>
    Reaches (keeping (Step .aarch64 ⟨1, by decide⟩) (Promise ⟨1, by decide⟩)) (empty Char)
      [.append fixedBlock 'a'] use ∧ use.vector.count = 1 := by
  have fitting : Fitting .aarch64 ⟨1, by decide⟩ (empty Char) (.append fixedBlock 'a') := by
    intro _ bytes requested _
    have eight : Vector.requestedBytes .aarch64 ⟨1, by decide⟩ 1 = some 8 := rfl
    cases Option.some.inj (eight.symm.trans requested)
    exact ⟨rfl, by decide⟩
  have run : Reaches (guarded (Step .aarch64 ⟨1, by decide⟩) (Fitting .aarch64 ⟨1, by decide⟩))
      (empty Char) [.append fixedBlock 'a'] _ :=
    .tail .refl ⟨fitting, .call _ _ (serves_fixedBlock _) _ rfl⟩
  exact ⟨_, vector_inside_iff.1.mpr run, rfl⟩

/-- Nine words of eight bytes are appended.  The block holds eight of them, but
the capacity became the sixty-four bytes of the block. -/
theorem vector_outgrows_block : Exists fun use : VectorUse Nat =>
    Reaches (Step .aarch64 ⟨8, by decide⟩) (empty Nat)
      (List.replicate 9 (.append fixedBlock 7)) use ∧
    use.result = true ∧ use.vector.count = 9 ∧ use.vector.capacity = 64 ∧
      use.block = ⟨4096, 64⟩ ∧ slotBytes ⟨8, by decide⟩ use.vector 8 = span 4160 8 ∧
      ¬ Inside ⟨8, by decide⟩ use := by
  have serves := serves_fixedBlock .aarch64
  have run : Reaches (Step .aarch64 ⟨8, by decide⟩) (empty Nat)
      (List.replicate 9 (.append fixedBlock 7)) _ :=
    .tail (.tail (.tail (.tail (.tail (.tail (.tail (.tail (.tail .refl
      (.call _ _ serves _ rfl)) (.call _ _ serves _ rfl)) (.call _ _ serves _ rfl))
      (.call _ _ serves _ rfl)) (.call _ _ serves _ rfl)) (.call _ _ serves _ rfl))
      (.call _ _ serves _ rfl)) (.call _ _ serves _ rfl)) (.call _ _ serves _ rfl)
  refine ⟨_, run, rfl, rfl, rfl, rfl, rfl, ?_⟩
  intro inside
  exact absurd inside.capacity (by decide)

end VectorUse

end Pine
end Pinyon
