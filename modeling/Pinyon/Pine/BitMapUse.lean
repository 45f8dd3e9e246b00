import Mathlib
import Pinyon.Library.History
import Pinyon.Pine.BitMap

namespace Pinyon
namespace Pine

open Library

/-!
# The bitmap as a set of positions

Beside the map stands the value that each bit was last given.  The map agrees with it as
long as no bit is given a value that its operation cannot give it.
-/

/-- An operation on a bitmap. -/
inductive BitOp where
  | set (index : Nat)
  | clear (index : Nat)
  | mark (index : Nat) (value : Bool)
deriving DecidableEq

namespace BitOp

def index : BitOp -> Nat
  | set index | clear index | mark index _ => index

/-- The value that is given to the bit. -/
def given : BitOp -> Bool
  | set _ => true
  | clear _ => false
  | mark _ value => value

/-- The value that the bit has afterwards. -/
def leaves (old : Bool) : BitOp -> Bool
  | set _ => !old
  | clear _ => false
  | mark _ value => value || old

end BitOp

/-- A bitmap, or nothing once a shift was too wide or a word was outside the array, and the
value last given to each bit. -/
structure BitMapUse (target : Target) (numBits : Nat) where
  bitmap : Option (BitMap target numBits)
  lastGiven : Nat -> Bool

def BitMapUse.start (target : Target) (numBits : Nat) : BitMapUse target numBits where
  bitmap := some (BitMap.empty target numBits)
  lastGiven := fun _ => false

namespace BitMap

variable {target : Target} {numBits : Nat} {bitmap : BitMap target numBits}

def perform (bitmap : BitMap target numBits) : BitOp -> Option (BitMap target numBits)
  | .set index => bitmap.setBit index
  | .clear index => bitmap.clearBit index
  | .mark index value => bitmap.markBit index value

theorem words_pos (nonempty : 0 < numBits) (narrow : numBits ≤ target.wordWidth) :
    0 < divideUp target.wordWidth numBits target.wordWidth := by
  rw [divideUp]
  cases target <;> simp only [Target.wordWidth] at * <;> omega

/-- An operation leaves one bit as it does and every other bit alone. -/
theorem perform_spec (narrow : numBits ≤ target.wordWidth) {op : BitOp} (legal : op.index < numBits)
    {old : Bool} (held : bitmap.bit op.index = some old) :
    Exists fun after => bitmap.perform op = some after ∧
      forall other, other < numBits ->
        after.bit other = if other = op.index then some (op.leaves old) else bitmap.bit other := by
  have sized := words_pos (Nat.zero_lt_of_lt legal) narrow
  cases op with
  | set index => exact setBit_flips sized legal held
  | clear index => exact clearBit_spec sized legal (small_of_bit held)
  | mark index value => exact markBit_spec sized legal held value

end BitMap

namespace BitMapUse

variable {target : Target} {numBits : Nat} {before after use : BitMapUse target numBits}
variable {op : BitOp} {ops : List BitOp}

/-- An operation on a bit of the map. -/
def Step (before : BitMapUse target numBits) (op : BitOp) (after : BitMapUse target numBits) : Prop :=
  op.index < numBits ∧ Exists fun bitmap => before.bitmap = some bitmap ∧
    after = ⟨bitmap.perform op, Function.update before.lastGiven op.index op.given⟩

/-- No operation has failed, and every bit is what it was last given. -/
def Represents (use : BitMapUse target numBits) : Prop :=
  Exists fun bitmap => use.bitmap = some bitmap ∧
    forall index, index < numBits -> bitmap.bit index = some (use.lastGiven index)

/-- A bit is not set, and not marked with false, while it is set. -/
def FindsClear (before : BitMapUse target numBits) : BitOp -> Prop
  | .set index | .mark index false => before.lastGiven index = false
  | .clear _ | .mark _ true => True

theorem narrow_of_represents (represents : Represents use) : numBits ≤ target.wordWidth := by
  rcases represents with ⟨bitmap, _, bits⟩
  cases numBits with
  | zero => exact Nat.zero_le _
  | succ last => exact BitMap.small_of_bit (bits last (Nat.lt_succ_self last))

theorem represents_start (narrow : numBits ≤ target.wordWidth) :
    Represents (start target numBits) := by
  refine ⟨_, rfl, fun index legal => ?_⟩
  exact BitMap.bit_empty (BitMap.words_pos (Nat.zero_lt_of_lt legal) narrow) legal
    (Nat.lt_of_lt_of_le legal narrow)

theorem findsClear_iff (before : BitMapUse target numBits) (op : BitOp) :
    FindsClear before op <-> op.leaves (before.lastGiven op.index) = op.given := by
  cases op with
  | set index => simp [FindsClear, BitOp.leaves, BitOp.given, BitOp.index]
  | clear index => exact iff_of_true trivial rfl
  | mark index value =>
      cases value with
      | false => simp [FindsClear, BitOp.leaves, BitOp.given, BitOp.index]
      | true => exact iff_of_true trivial rfl

theorem Represents.step_iff (represents : Represents before) (stepped : Step before op after) :
    Represents after <-> FindsClear before op := by
  have narrow := narrow_of_represents represents
  rcases stepped with ⟨legal, bitmap, same, rfl⟩
  rcases represents with ⟨bitmap', same', bits⟩
  cases Option.some.inj (same.symm.trans same')
  rcases BitMap.perform_spec narrow legal (bits op.index legal) with ⟨after, performed, effect⟩
  rw [findsClear_iff]
  constructor
  · rintro ⟨after', performed', bits'⟩
    cases Option.some.inj (performed.symm.trans performed')
    have here := bits' op.index legal
    rw [effect op.index legal, if_pos rfl] at here
    exact (Option.some.inj here).trans (Function.update_self ..)
  · intro leaves
    refine ⟨after, performed, fun index inside => ?_⟩
    rw [effect index inside]
    dsimp only
    by_cases here : index = op.index
    · rw [if_pos here, here, Function.update_self, leaves]
    · rw [if_neg here, Function.update_of_ne here, bits index inside]

/-- Every bit is what it was last given throughout just those runs that find the bits clear
which they set or mark with false, on a map of no more bits than a word has. -/
theorem represents_iff : Represents (start target numBits) ∧
    Reaches (keeping Step fun _ _ after => Represents after) (start target numBits) ops after <->
      numBits ≤ target.wordWidth ∧
        Reaches (guarded Step FindsClear) (start target numBits) ops after := by
  constructor
  · rintro ⟨initial, run⟩
    refine ⟨narrow_of_represents initial, ?_⟩
    apply (Reaches.keeping_iff_guarded Represents initial _ _).mp run
    · intro before op after represents stepped
      exact represents.step_iff stepped
    · intro before op after _ _ represents
      exact represents
  · rintro ⟨narrow, run⟩
    have initial := represents_start narrow
    refine ⟨initial, ?_⟩
    apply (Reaches.keeping_iff_guarded Represents initial _ _).mpr run
    · intro before op after represents stepped
      exact represents.step_iff stepped
    · intro before op after _ _ represents
      exact represents

/-- A bit that is set twice reads as false.  In a map of 256 bits, some cannot be read. -/
theorem not_represents_twice : (Exists fun after =>
    Reaches Step (start .aarch32 32) [.set 3, .set 3] after ∧ ¬ Represents after) ∧
      ¬ Represents (start .aarch32 256) := by
  constructor
  · have initial : Represents (start .aarch32 32) := represents_start (by decide)
    have first : Step (start .aarch32 32) (.set 3) _ := ⟨by decide, _, rfl, rfl⟩
    have once := (initial.step_iff first).mpr rfl
    rcases once with ⟨bitmap, same, bits⟩
    have second : Step _ (.set 3) _ := ⟨by decide, bitmap, same, rfl⟩
    refine ⟨_, .tail (.tail .refl first) second, fun twice => ?_⟩
    have clear : (true : Bool) = false :=
      (Represents.step_iff ⟨bitmap, same, bits⟩ second).mp twice
    cases clear
  · intro initial
    exact absurd (narrow_of_represents initial) (by decide)

end BitMapUse

end Pine
end Pinyon
