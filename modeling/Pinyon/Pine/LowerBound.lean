import Pinyon.Pine.Decimal

namespace Pinyon
namespace Pine

/-!
# Searching with iterators

`lower_bound` is one function for every kind of iterator.  The kinds differ in how
`distance` and `advance` are done: an iterator with random access subtracts and adds
positions, any other one is incremented.
-/

/-- What `advance`, `distance` and `lower_bound` use of an iterator class.  An increment
or an addition is `none` where it has no defined result, and so is what is behind an
iterator where there is nothing. -/
structure IterClass (Iter Value : Type) where
  increment : Iter -> Option Iter
  deref : Iter -> Option Value
  equal : Iter -> Iter -> Bool
  /-- `operator+=` and `operator-`, of a class with random access. -/
  randomAccess : Option ((Iter -> Nat -> Option Iter) × (Iter -> Iter -> Nat))

namespace IterClass

variable {Iter Value : Type}

/-- As many increments. -/
def incrementBy (iters : IterClass Iter Value) : Nat -> Iter -> Option Iter
  | 0, it => some it
  | steps + 1, it => do
      let it <- iters.increment it
      incrementBy iters steps it

/-- `advance`, by a number that is not negative. -/
def advance (iters : IterClass Iter Value) (it : Iter) (steps : Nat) : Option Iter :=
  match iters.randomAccess with
  | some (plus, _) => plus it steps
  | none => iters.incrementBy steps it

/-- `next`. -/
def next (iters : IterClass Iter Value) (it : Iter) : Option Iter :=
  iters.advance it 1

/-- The loop of `distance`, which leaves `dist` alone. -/
def distanceLoop (iters : IterClass Iter Value) (end_ : Iter) (dist : Nat) :
    Nat -> Iter -> Option Nat
  | 0, _ => none
  | turns + 1, begin =>
      if iters.equal begin end_ then some dist
      else do
        let begin <- iters.increment begin
        distanceLoop iters end_ dist turns begin

/-- `distance`.  `none` is a loop that takes more turns. -/
def distance (iters : IterClass Iter Value) (turns : Nat) (begin end_ : Iter) : Option Nat :=
  match iters.randomAccess with
  | some (_, minus) => some (minus end_ begin)
  | none => distanceLoop iters end_ 0 turns begin

/-- The loop of `lower_bound`. -/
def lowerBoundLoop (iters : IterClass Iter Value) (compare : Value -> Bool) (begin : Iter)
    (len : Nat) : Option Iter :=
  if 0 < len then do
    let offset := len / 2
    let it <- iters.advance begin offset
    let element <- iters.deref it
    if compare element then do
      let begin <- iters.next it
      lowerBoundLoop iters compare begin (len - (offset + 1))
    else lowerBoundLoop iters compare begin offset
  else some begin
termination_by len

/-- `lower_bound`. -/
def lowerBound (iters : IterClass Iter Value) (turns : Nat) (begin end_ : Iter)
    (compare : Value -> Bool) : Option Iter := do
  let len <- iters.distance turns begin end_
  iters.lowerBoundLoop compare begin len

end IterClass

/-! ## The iterator classes -/

/-- A container with `length()` and `operator[]`.  The difference of two of its positions
is a `ptrdiff_t`. -/
structure Indexed (target : Target) (Value : Type) where
  values : List Value
  fits : (values.length : Int) ≤ (IntType.ssize target).max target

namespace RandomAccessIter

variable {Value : Type} {target : Target}

/-- `operator+=`, which takes a `ptrdiff_t`.  `none` is an overflow of that type. -/
def plus (target : Target) (pos steps : Nat) : Option Nat := do
  let offset := (IntType.ssize target).convert target steps
  let sum <- (IntType.ssize target).arithmetic target
    ((IntType.ssize target).convert target pos + offset)
  return ((IntType.size target).convert target sum).toNat

/-- `RandomAccessIter`, as `m_pos`. -/
def iterClass (container : Indexed target Value) : IterClass Nat Value where
  increment pos := some ((pos + 1) % target.wordLimit)
  deref pos := container.values[pos]?
  equal pos other := pos == other
  randomAccess := some (plus target, fun pos other =>
    (pos + target.wordLimit - other) % target.wordLimit)

def begin : Nat := 0

def end_ (container : Indexed target Value) : Nat :=
  container.values.length

end RandomAccessIter

/-- `PtrIter` of a linked list, whose nodes go by their places in it. -/
structure PtrIter where
  ptr : Option Nat
  atEnd : Bool
deriving DecidableEq

namespace PtrIter

variable {Value : Type}

/-- `m_head`. -/
def head (values : List Value) : Option Nat :=
  if values.length = 0 then none else some 0

/-- `m_tail`. -/
def tail (values : List Value) : Option Nat :=
  if values.length = 0 then none else some (values.length - 1)

/-- What a pointer to a node is compared by is the contents of the node. -/
def iterClass (values : List Value) : IterClass PtrIter Value where
  increment it := do
    let ptr <- it.ptr
    if ptr < values.length then
      if ptr + 1 < values.length then some { it with ptr := some (ptr + 1) }
      else some { it with atEnd := true }
    else none
  deref it := it.ptr.bind fun ptr => values[ptr]?
  equal it other := it.ptr == other.ptr && it.atEnd == other.atEnd
  randomAccess := none

def begin (values : List Value) : PtrIter :=
  ⟨head values, (tail values).isNone⟩

def end_ (values : List Value) : PtrIter :=
  ⟨tail values, true⟩

end PtrIter

/-! ## Finding the partition point -/

/-- The elements that satisfy `compare` come first. -/
def Partitioned {Value : Type} (compare : Value -> Bool) (values : List Value) : Prop :=
  Exists fun before => Exists fun after => values = before ++ after ∧
    (forall value, value ∈ before -> compare value = true) ∧
      forall value, value ∈ after -> compare value = false

/-- The place of the first element that does not satisfy `compare`, or the length. -/
def partitionPoint {Value : Type} (compare : Value -> Bool) (values : List Value) : Nat :=
  (values.takeWhile compare).length

namespace Partitioned

variable {Value : Type} {compare : Value -> Bool} {values : List Value}

theorem compare_iff (partitioned : Partitioned compare values) {pos : Nat} {value : Value}
    (here : values[pos]? = some value) :
    compare value = true <-> pos < partitionPoint compare values := by
  rcases partitioned with ⟨before, after, rfl, satisfied, refuted⟩
  have point : partitionPoint compare (before ++ after) = before.length := by
    rw [partitionPoint, List.takeWhile_append_of_pos satisfied]
    cases after with
    | nil => rw [List.takeWhile_nil, List.append_nil]
    | cons value after =>
        have first := refuted value List.mem_cons_self
        rw [List.takeWhile_cons_of_neg (by rw [first]; exact Bool.false_ne_true), List.append_nil]
  rw [point]
  by_cases inside : pos < before.length
  · rw [List.getElem?_append_left inside] at here
    exact iff_of_true (satisfied value (List.mem_of_getElem? here)) inside
  · rw [List.getElem?_append_right (Nat.le_of_not_lt inside)] at here
    have fails := refuted value (List.mem_of_getElem? here)
    exact iff_of_false (by rw [fails]; exact Bool.false_ne_true) inside

theorem point_le (compare : Value -> Bool) (values : List Value) :
    partitionPoint compare values ≤ values.length :=
  (List.takeWhile_prefix compare).length_le

end Partitioned

namespace IterClass

variable {Iter Value : Type} {iters : IterClass Iter Value} {values : List Value}
variable {place : Nat -> Iter} {compare : Value -> Bool}

/-- An iterator class goes through a sequence, place by place. -/
structure Walks (iters : IterClass Iter Value) (values : List Value) (place : Nat -> Iter) :
    Prop where
  increment : forall pos, pos < values.length -> iters.increment (place pos) = some (place (pos + 1))
  advance : forall pos steps, pos + steps ≤ values.length ->
    iters.advance (place pos) steps = some (place (pos + steps))
  deref : forall pos, pos < values.length -> iters.deref (place pos) = values[pos]?

/-- So many increments lead so many places on. -/
theorem incrementBy_place
    (increment : forall pos, pos < values.length ->
      iters.increment (place pos) = some (place (pos + 1)))
    (pos steps : Nat) (inside : pos + steps ≤ values.length) :
    iters.incrementBy steps (place pos) = some (place (pos + steps)) := by
  induction steps generalizing pos with
  | zero => rfl
  | succ steps inductionHypothesis =>
      rw [IterClass.incrementBy, increment pos (by omega)]
      simp only [Option.bind_eq_bind, Option.bind_some]
      rw [inductionHypothesis (pos + 1) (by omega), Nat.add_assoc, Nat.add_comm 1]

theorem Walks.incrementBy (walks : Walks iters values place) (pos steps : Nat)
    (inside : pos + steps ≤ values.length) :
    iters.incrementBy steps (place pos) = some (place (pos + steps)) :=
  incrementBy_place walks.increment pos steps inside

/-- A class without random access advances by increments. -/
theorem Walks.of_increment (plain : iters.randomAccess = none)
    (increment : forall pos, pos < values.length ->
      iters.increment (place pos) = some (place (pos + 1)))
    (deref : forall pos, pos < values.length -> iters.deref (place pos) = values[pos]?) :
    Walks iters values place where
  increment := increment
  advance pos steps inside := by
    rw [IterClass.advance, plain]
    exact incrementBy_place increment pos steps inside
  deref := deref

/-- Between two places that have the partition point between them, the loop finds it. -/
theorem Walks.lowerBoundLoop (walks : Walks iters values place)
    (partitioned : Partitioned compare values) (len : Nat) {pos : Nat}
    (low : pos ≤ partitionPoint compare values) (high : partitionPoint compare values ≤ pos + len)
    (inside : pos + len ≤ values.length) :
    iters.lowerBoundLoop compare (place pos) len =
      some (place (partitionPoint compare values)) := by
  induction len using Nat.strongRecOn generalizing pos with
  | ind len inductionHypothesis =>
      rw [IterClass.lowerBoundLoop]
      by_cases positive : 0 < len
      · have middle : pos + len / 2 < values.length := by omega
        have here := List.getElem?_eq_getElem middle
        have side := partitioned.compare_iff here
        rw [if_pos positive]
        simp only [Option.bind_eq_bind, Option.bind_some, walks.deref _ middle, here,
          walks.advance pos (len / 2) (Nat.le_of_lt middle)]
        by_cases left : pos + len / 2 < partitionPoint compare values
        · rw [if_pos (side.mpr left), IterClass.next, walks.advance _ 1 middle]
          exact inductionHypothesis _ (by omega) (by omega) (by omega) (by omega)
        · rw [if_neg fun satisfied => left (side.mp satisfied)]
          exact inductionHypothesis _ (by omega) low (by omega) (by omega)
      · rw [if_neg positive]
        have same : pos = partitionPoint compare values := by omega
        rw [same]

/-- The number of increments that lead from one iterator to another. -/
def Increments (iters : IterClass Iter Value) (begin end_ : Iter) (number : Nat) : Prop :=
  iters.incrementBy number begin = some end_ ∧
    forall fewer, fewer < number -> iters.incrementBy fewer begin ≠ some end_

/-- `distance` returns the number of increments. -/
def CountsIncrements (iters : IterClass Iter Value) (begin end_ : Iter) : Prop :=
  Exists fun turns => Exists fun dist => iters.distance turns begin end_ = some dist ∧
    iters.Increments begin end_ dist

/-- `lower_bound` returns the place of the first element that does not satisfy `compare`. -/
def FindsPoint (iters : IterClass Iter Value) (values : List Value) (begin end_ : Iter)
    (compare : Value -> Bool) : Prop :=
  Exists fun turns => Exists fun it => iters.lowerBound turns begin end_ compare = some it ∧
    iters.incrementBy (partitionPoint compare values) begin = some it

theorem Walks.increments (walks : Walks iters values place)
    (apart : forall pos, pos < values.length -> place pos ≠ place values.length) :
    iters.Increments (place 0) (place values.length) values.length := by
  refine ⟨?_, fun fewer less => ?_⟩
  · rw [walks.incrementBy 0 values.length (Nat.le_of_eq (Nat.zero_add _)), Nat.zero_add]
  · rw [walks.incrementBy 0 fewer (by omega), Nat.zero_add, Ne, Option.some.injEq]
    exact apart fewer less

theorem Increments.unique {begin end_ : Iter} {number number' : Nat}
    (counted : iters.Increments begin end_ number) (counted' : iters.Increments begin end_ number') :
    number = number' := by
  by_contra different
  rcases Nat.lt_or_gt_of_ne different with less | less
  · exact counted'.2 number less counted.1
  · exact counted.2 number' less counted'.1

end IterClass

/-! ## Positions -/

namespace RandomAccessIter

variable {target : Target} {Value : Type} {pos steps : Nat}

theorem plus_eq (fits : ((pos + steps : Nat) : Int) ≤ (IntType.ssize target).max target) :
    plus target pos steps = some (pos + steps) := by
  have holds (number : Nat) (less : number ≤ pos + steps) :
      (IntType.ssize target).Holds target number :=
    ⟨Int.le_trans (IntType.min_nonpos target _) (Int.natCast_nonneg number),
      Int.le_trans (Int.ofNat_le.mpr less) fits⟩
  have unsigned : (IntType.size target).Holds target ((pos + steps : Nat) : Int) := by
    have wider : (IntType.ssize target).max target ≤ (IntType.size target).max target := by
      cases target <;> decide
    exact ⟨Int.le_trans (IntType.min_nonpos target _) (Int.natCast_nonneg _),
      Int.le_trans fits wider⟩
  unfold plus
  dsimp only
  rw [IntType.convert_of_holds (holds pos (by omega)), IntType.convert_of_holds (holds steps (by omega)),
    ← Int.natCast_add, IntType.arithmetic_of_holds (holds _ (Nat.le_refl _))]
  simp only [Option.bind_eq_bind, Option.bind_some, IntType.convert_of_holds unsigned]
  rfl

theorem length_lt (container : Indexed target Value) :
    container.values.length < target.wordLimit := by
  have fits := container.fits
  have less : (IntType.ssize target).max target < target.wordLimit := by
    cases target <;> decide
  omega

theorem walks (container : Indexed target Value) :
    (iterClass container).Walks container.values id where
  increment pos inside := by
    have small := length_lt container
    exact congrArg some (Nat.mod_eq_of_lt (Nat.lt_of_le_of_lt inside small))
  advance pos steps inside := by
    have fits := container.fits
    exact plus_eq (by simp only [id]; omega)
  deref pos inside := rfl

theorem distance_eq (container : Indexed target Value) (turns : Nat) :
    (iterClass container).distance turns begin (end_ container) = some container.values.length := by
  have small := length_lt container
  refine congrArg some ?_
  dsimp only [begin, end_]
  rw [Nat.sub_zero, Nat.add_mod_right, Nat.mod_eq_of_lt small]

theorem finds (container : Indexed target Value) {compare : Value -> Bool}
    (partitioned : Partitioned compare container.values) :
    (iterClass container).FindsPoint container.values begin (end_ container) compare ∧
      (iterClass container).CountsIncrements begin (end_ container) := by
  have less := Partitioned.point_le compare container.values
  constructor
  · refine ⟨0, partitionPoint compare container.values, ?_, ?_⟩
    · unfold IterClass.lowerBound
      rw [distance_eq]
      exact (walks container).lowerBoundLoop partitioned _ (Nat.zero_le _) (by omega) (by omega)
    · have stepped := (walks container).incrementBy 0 (partitionPoint compare container.values)
        (by omega)
      rwa [Nat.zero_add] at stepped
  · exact ⟨0, container.values.length, distance_eq container 0,
      (walks container).increments fun pos inside => Nat.ne_of_lt inside⟩

end RandomAccessIter

/-! ## Nodes -/

namespace PtrIter

variable {Value : Type} {compare : Value -> Bool}

/-- The iterator at a place of a list. -/
def place (values : List Value) (pos : Nat) : PtrIter :=
  if pos < values.length then ⟨some pos, false⟩ else end_ values

theorem place_zero (values : List Value) : place values 0 = begin values := by
  cases values with
  | nil => rfl
  | cons value values => rfl

theorem place_length (values : List Value) : place values values.length = end_ values :=
  if_neg (Nat.lt_irrefl _)

theorem increment_eq (values : List Value) {pos : Nat} (inside : pos < values.length) :
    (iterClass values).increment (place values pos) = some (place values (pos + 1)) := by
  rw [place, if_pos inside, place]
  simp only [iterClass, Option.bind_eq_bind, Option.bind_some, if_pos inside]
  by_cases more : pos + 1 < values.length
  · rw [if_pos more, if_pos more]
  · have last : values.length - 1 = pos := by omega
    rw [if_neg more, if_neg more, end_, tail, if_neg (by omega), last]

theorem walks (values : List Value) : (iterClass values).Walks values (place values) := by
  apply IterClass.Walks.of_increment rfl
  · intro pos inside
    exact increment_eq values inside
  · intro pos inside
    rw [place, if_pos inside]
    rfl

theorem place_ne (values : List Value) {pos : Nat} (inside : pos < values.length) :
    place values pos ≠ place values values.length := by
  rw [place_length, place, if_pos inside]
  exact fun same => Bool.false_ne_true (congrArg PtrIter.atEnd same)

/-- The loop ends, and has counted nothing. -/
theorem distanceLoop_eq (values : List Value) (turns pos : Nat) (inside : pos ≤ values.length)
    (enough : values.length < pos + turns) :
    (iterClass values).distanceLoop (end_ values) 0 turns (place values pos) = some 0 := by
  induction turns generalizing pos with
  | zero => omega
  | succ turns inductionHypothesis =>
      rw [IterClass.distanceLoop]
      split
      · rfl
      · rename_i differs
        have less : pos < values.length := by
          refine Nat.lt_of_le_of_ne inside fun same => differs ?_
          rw [same, place_length]
          simp [iterClass]
        rw [increment_eq values less]
        simp only [Option.bind_eq_bind, Option.bind_some]
        exact inductionHypothesis (pos + 1) less (by omega)

theorem distance_eq (values : List Value) :
    (iterClass values).distance (values.length + 1) (begin values) (end_ values) = some 0 := by
  rw [← place_zero]
  exact distanceLoop_eq values _ 0 (Nat.zero_le _) (by omega)

theorem distanceLoop_eq_some {iters : IterClass PtrIter Value} {turns dist result : Nat}
    {from_ to_ : PtrIter} (returned : iters.distanceLoop to_ dist turns from_ = some result) :
    result = dist := by
  induction turns generalizing from_ with
  | zero => cases returned
  | succ turns inductionHypothesis =>
      rw [IterClass.distanceLoop] at returned
      split at returned
      · exact (Option.some.inj returned).symm
      · rcases Option.bind_eq_some_iff.mp returned with ⟨it, incremented, returned⟩
        exact inductionHypothesis returned

/-- A search of a list ends where it begins. -/
theorem lowerBound_eq (values : List Value) (compare : Value -> Bool) :
    (iterClass values).lowerBound (values.length + 1) (begin values) (end_ values) compare =
      some (begin values) := by
  unfold IterClass.lowerBound
  rw [distance_eq]
  simp only [Option.bind_eq_bind, Option.bind_some]
  rw [IterClass.lowerBoundLoop, if_neg (Nat.lt_irrefl 0)]

theorem lowerBound_eq_some {values : List Value} {turns : Nat} {it : PtrIter}
    (returned : (iterClass values).lowerBound turns (begin values) (end_ values) compare = some it) :
    it = begin values := by
  rcases Option.bind_eq_some_iff.mp returned with ⟨len, measured, returned⟩
  rw [distanceLoop_eq_some measured, IterClass.lowerBoundLoop, if_neg (Nat.lt_irrefl 0)] at returned
  exact (Option.some.inj returned).symm

theorem place_eq_begin_iff (values : List Value) {pos : Nat} (inside : pos ≤ values.length) :
    place values pos = begin values <-> pos = 0 := by
  refine ⟨fun same => ?_, fun zero => by rw [zero, place_zero]⟩
  by_contra nonzero
  have positive : 0 < values.length := by omega
  rw [← place_zero, place, place, if_pos positive] at same
  split at same
  · cases same
    exact nonzero rfl
  · exact Bool.false_ne_true (congrArg PtrIter.atEnd same).symm

/-- The place is right if no element satisfies `compare`. -/
theorem findsPoint_iff (values : List Value) (compare : Value -> Bool) :
    (iterClass values).FindsPoint values (begin values) (end_ values) compare <->
      partitionPoint compare values = 0 := by
  have less := Partitioned.point_le compare values
  have stepped := (walks values).incrementBy 0 (partitionPoint compare values) (by omega)
  rw [Nat.zero_add, place_zero] at stepped
  have same := place_eq_begin_iff values less
  constructor
  · rintro ⟨turns, it, returned, there⟩
    rw [lowerBound_eq_some returned, stepped, Option.some.injEq] at there
    exact same.mp there
  · intro zero
    exact ⟨_, _, lowerBound_eq values compare, stepped.trans (congrArg some (same.mpr zero))⟩

/-- The number of increments is right if there is nothing to count. -/
theorem countsIncrements_iff (values : List Value) :
    (iterClass values).CountsIncrements (begin values) (end_ values) <-> values = [] := by
  have increments := (walks values).increments fun pos inside => place_ne values inside
  rw [place_zero, place_length] at increments
  constructor
  · rintro ⟨turns, dist, measured, counted⟩
    have zero : dist = 0 := distanceLoop_eq_some measured
    exact List.length_eq_zero_iff.mp ((increments.unique counted).trans zero)
  · intro empty
    refine ⟨_, 0, distance_eq values, ?_⟩
    rwa [List.length_eq_zero_iff.mpr empty] at increments

end PtrIter

/-- Positions are found and counted.  Nodes are not: `distance` returns zero for every list,
so that only an empty one has its increments counted and its end found. -/
theorem lowerBound_iff {Element Value : Type} (target : Target)
    (compare : Element -> Value -> Bool) (value : Value) :
    (forall container : Indexed target Element,
      Partitioned (compare · value) container.values ->
        (RandomAccessIter.iterClass container).FindsPoint container.values RandomAccessIter.begin
            (RandomAccessIter.end_ container) (compare · value) ∧
          (RandomAccessIter.iterClass container).CountsIncrements RandomAccessIter.begin
            (RandomAccessIter.end_ container)) ∧
      forall values : List Element, Partitioned (compare · value) values ->
        ((PtrIter.iterClass values).FindsPoint values (PtrIter.begin values) (PtrIter.end_ values)
            (compare · value) ∧
          (PtrIter.iterClass values).CountsIncrements (PtrIter.begin values) (PtrIter.end_ values) <->
            values = []) := by
  refine ⟨fun container partitioned => RandomAccessIter.finds container partitioned,
    fun values _ => ⟨fun both => (PtrIter.countsIncrements_iff values).mp both.2, fun empty => ?_⟩⟩
  refine ⟨(PtrIter.findsPoint_iff values _).mpr ?_, (PtrIter.countsIncrements_iff values).mpr empty⟩
  rw [empty]
  rfl

/-- Two numbers below three and one above it. -/
theorem lowerBound_iff_three :
    (RandomAccessIter.iterClass (⟨[1, 2, 4], by decide⟩ : Indexed .aarch32 Nat)).FindsPoint [1, 2, 4]
        RandomAccessIter.begin 3 (· < 3) ∧
      ¬ ((PtrIter.iterClass [1, 2, 4]).FindsPoint [1, 2, 4] (PtrIter.begin [1, 2, 4])
          (PtrIter.end_ [1, 2, 4]) (· < 3) ∧
        (PtrIter.iterClass [1, 2, 4]).CountsIncrements (PtrIter.begin [1, 2, 4])
          (PtrIter.end_ [1, 2, 4])) := by
  have partitioned : Partitioned (fun number : Nat => decide (number < 3)) [1, 2, 4] :=
    ⟨[1, 2], [4], rfl, by decide, by decide⟩
  have found := lowerBound_iff .aarch32 (fun number bound : Nat => decide (number < bound)) 3
  refine ⟨(found.1 ⟨[1, 2, 4], by decide⟩ partitioned).1, fun both => ?_⟩
  exact List.cons_ne_nil _ _ ((found.2 [1, 2, 4] partitioned).mp both)

/-- In a list, the search for the first number that is not below three returns the first. -/
theorem not_findsPoint_three : Partitioned (fun number : Nat => decide (number < 3)) [1, 2, 4] ∧
    ¬ (PtrIter.iterClass [1, 2, 4]).FindsPoint [1, 2, 4] (PtrIter.begin [1, 2, 4])
      (PtrIter.end_ [1, 2, 4]) (· < 3) := by
  refine ⟨⟨[1, 2], [4], rfl, by decide, by decide⟩, ?_⟩
  rw [PtrIter.findsPoint_iff]
  decide

end Pine
end Pinyon
