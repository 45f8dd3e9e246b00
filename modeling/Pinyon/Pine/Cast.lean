import Mathlib.Data.Int.ModEq
import Pinyon.Pine.Decimal

namespace Pinyon
namespace Pine

/-!
# Casts

A word of the machine carries a number from one program to another.  The casts that put it
there and take it out again agree on the numbers that `fits_within` lets pass, which are all
that can be put there.
-/

namespace IntType

/-- A number of a type. -/
structure Value (target : Target) (type : IntType) where
  num : Int
  holds : type.Holds target num
deriving DecidableEq

variable {target : Target} {type : IntType}

theorem Value.ext {first second : type.Value target} (same : first.num = second.num) :
    first = second := by
  cases first
  cases second
  cases same
  rfl

/-- `static_cast`, and `bit_cast` of a type that is as wide. -/
def cast (target : Target) (to_ : IntType) (num : Int) : to_.Value target :=
  ⟨to_.convert target num, convert_holds target to_ num⟩

/-- A conversion keeps a number up to multiples of what does not fit. -/
theorem convert_modEq (target : Target) (type : IntType) (num : Int) :
    type.convert target num ≡ num [ZMOD 2 ^ type.width target] := by
  unfold convert
  split
  · have same := @Int.bmod_emod num (2 ^ type.width target)
    push_cast at same
    exact same
  · exact Int.mod_modEq num _

theorem convert_congr {num num' : Int} (same : num ≡ num' [ZMOD 2 ^ type.width target]) :
    type.convert target num = type.convert target num' := by
  unfold convert
  split
  · have left := @Int.emod_bmod num (2 ^ type.width target)
    have right := @Int.emod_bmod num' (2 ^ type.width target)
    push_cast at left right
    rw [← left, ← right, same]
  · exact same

/-- Only the last of two conversions matters if the first is to a type that is as wide. -/
theorem convert_convert {wide : IntType} (narrower : type.width target ≤ wide.width target)
    (num : Int) : type.convert target (wide.convert target num) = type.convert target num := by
  apply convert_congr
  exact (convert_modEq target wide num).of_dvd (pow_dvd_pow 2 narrower)

/-- A type that a word can hold. -/
def Narrow (target : Target) (type : IntType) : Prop :=
  type.width target ≤ target.wordWidth

theorem width_ssize (target : Target) : (ssize target).width target = target.wordWidth := by
  cases target <;> rfl

theorem width_ptrData (target : Target) : (ptrData target).width target = target.wordWidth := by
  cases target <;> rfl

end IntType

/-- `PtrData`. -/
abbrev Word (target : Target) : Type :=
  (IntType.ptrData target).Value target

section

variable {target : Target} {into type : IntType}

/-- `fits_within`. -/
def fitsWithin (into : IntType) (from_ : Word target) : Bool :=
  if into.isSigned then
    let signed := (IntType.ssize target).cast target from_.num
    if ((IntType.ssize target).cast target (into.max target)).num < signed.num then false
    else if signed.num < ((IntType.ssize target).cast target (into.min target)).num then false
    else true
  else
    if ((IntType.ptrData target).cast target (into.max target)).num < from_.num then false
    else if from_.num < ((IntType.ptrData target).cast target (into.min target)).num then false
    else true

/-- `to_signed_cast`. -/
def toSignedCast (to_ : IntType) (from_ : Word target) : to_.Value target :=
  to_.cast target ((IntType.ssize target).cast target from_.num).num

/-- `from_signed_cast`, to a word. -/
def fromSignedCast (from_ : type.Value target) : Word target :=
  (IntType.ptrData target).cast target ((IntType.ssize target).cast target from_.num).num

/-- `static_cast` to a word. -/
def toWord (from_ : type.Value target) : Word target :=
  (IntType.ptrData target).cast target from_.num

/-- `static_cast` of a word. -/
def ofWord (to_ : IntType) (from_ : Word target) : to_.Value target :=
  to_.cast target from_.num

/-- Sign extension and truncation change nothing of what a word holds. -/
theorem fromSignedCast_eq (from_ : type.Value target) : fromSignedCast from_ = toWord from_ := by
  apply IntType.Value.ext
  apply IntType.convert_convert
  rw [IntType.width_ssize, IntType.width_ptrData]

theorem toSignedCast_eq (narrow : into.Narrow target) (from_ : Word target) :
    toSignedCast into from_ = ofWord into from_ := by
  apply IntType.Value.ext
  apply IntType.convert_convert
  rwa [IntType.width_ssize]

theorem ofWord_toWord (narrow : type.Narrow target) (value : type.Value target) :
    ofWord type (toWord value) = value := by
  apply IntType.Value.ext
  have whole : type.convert target ((IntType.ptrData target).convert target value.num) =
      type.convert target value.num := by
    apply IntType.convert_convert
    rwa [IntType.width_ptrData]
  exact whole.trans (IntType.convert_of_holds value.holds)

theorem toSignedCast_fromSignedCast (narrow : type.Narrow target) (value : type.Value target) :
    toSignedCast type (fromSignedCast value) = value := by
  rw [fromSignedCast_eq, toSignedCast_eq narrow, ofWord_toWord narrow]

/-- The bounds of a type that a word can hold are not changed by a cast to a word. -/
theorem limits_hold (narrow : into.Narrow target) {wide : IntType}
    (widths : wide.width target = target.wordWidth) (signs : wide.isSigned = into.isSigned) :
    wide.Holds target (into.min target) ∧ wide.Holds target (into.max target) := by
  unfold IntType.Narrow at narrow
  have powers : (2 : Int) ^ (into.width target - 1) ≤ 2 ^ (target.wordWidth - 1) :=
    pow_le_pow_right₀ (by decide) (by omega)
  have powers' : (2 : Int) ^ into.width target ≤ 2 ^ target.wordWidth :=
    pow_le_pow_right₀ (by decide) narrow
  have positive : (0 : Int) < 2 ^ (into.width target - 1) := Int.pow_pos (by decide)
  have positive' : (0 : Int) < 2 ^ into.width target := Int.pow_pos (by decide)
  unfold IntType.Holds IntType.min IntType.max
  rw [signs, widths]
  split
  · omega
  · omega

theorem fitsWithin_iff_holds (narrow : into.Narrow target) (from_ : Word target) :
    fitsWithin into from_ = true <-> into.Holds target
      (if into.isSigned then (IntType.ssize target).convert target from_.num else from_.num) := by
  have bounds (wide : IntType) (widths : wide.width target = target.wordWidth)
      (signs : wide.isSigned = into.isSigned) (num : Int) :
      (if (wide.cast target (into.max target)).num < num then false
        else if num < (wide.cast target (into.min target)).num then false else true) = true <->
        into.Holds target num := by
    rcases limits_hold narrow widths signs with ⟨low, high⟩
    have lowNum : (wide.cast target (into.min target)).num = into.min target :=
      IntType.convert_of_holds low
    have highNum : (wide.cast target (into.max target)).num = into.max target :=
      IntType.convert_of_holds high
    rw [lowNum, highNum]
    unfold IntType.Holds
    split
    · exact iff_of_false Bool.false_ne_true fun both => by omega
    · split
      · exact iff_of_false Bool.false_ne_true fun both => by omega
      · exact iff_of_true rfl ⟨by omega, by omega⟩
  unfold fitsWithin
  cases sign : into.isSigned with
  | true =>
      rw [if_pos rfl, if_pos rfl]
      refine bounds _ (IntType.width_ssize target) ?_ _
      rw [sign]
      cases target <;> rfl
  | false =>
      rw [if_neg Bool.false_ne_true, if_neg Bool.false_ne_true]
      refine bounds _ (IntType.width_ptrData target) ?_ _
      rw [sign]
      cases target <;> rfl

/-- What fits is what a number of the type is cast to. -/
theorem fitsWithin_iff (narrow : into.Narrow target) (from_ : Word target) :
    fitsWithin into from_ = true <-> Exists fun value : into.Value target => from_ = toWord value := by
  rw [fitsWithin_iff_holds narrow]
  constructor
  · intro holds
    refine ⟨⟨_, holds⟩, IntType.Value.ext ?_⟩
    change from_.num = (IntType.ptrData target).convert target (if into.isSigned then _ else _)
    split
    · rw [IntType.convert_convert, IntType.convert_of_holds from_.holds]
      rw [IntType.width_ssize, IntType.width_ptrData]
    · rw [IntType.convert_of_holds from_.holds]
  · rintro ⟨value, rfl⟩
    change into.Holds target (if into.isSigned then (IntType.ssize target).convert target
      ((IntType.ptrData target).convert target value.num) else
        (IntType.ptrData target).convert target value.num)
    have kept (wide : IntType) (widths : wide.width target = target.wordWidth)
        (signs : wide.isSigned = into.isSigned) : wide.convert target value.num = value.num := by
      rcases limits_hold narrow widths signs with ⟨low, high⟩
      exact IntType.convert_of_holds ⟨low.1.trans value.holds.1, value.holds.2.trans high.2⟩
    split
    next signed =>
      rw [IntType.convert_convert, kept _ (IntType.width_ssize target)]
      · exact value.holds
      · rw [signed]
        cases target <;> rfl
      · rw [IntType.width_ssize, IntType.width_ptrData]
    next unsigned =>
      rw [kept _ (IntType.width_ptrData target)]
      · exact value.holds
      · rw [Bool.eq_false_iff.mpr unsigned]
        cases target <;> rfl

end

end Pine
end Pinyon
