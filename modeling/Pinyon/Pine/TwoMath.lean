import Pinyon.Pine.Target

namespace Pinyon
namespace Pine

/-!
# Masks and powers of two

`twomath.hpp` works on unsigned words.  A word of `width` bits is a natural
number below `2 ^ width` here; sums are reduced explicitly and a complement is
taken within the width.  For an alignment that is a power of two the masks
agree with rounding to a multiple, which is the only form the allocators need.
-/

/-- `~value` on a word of the given width. -/
def complement (width value : Nat) : Nat :=
  2 ^ width - 1 - value

def alignDownTwo (width value alignment : Nat) : Nat :=
  if value = 0 ∨ alignment = 0 then 0
  else value &&& complement width (alignment - 1)

def alignUpTwo (width value alignment : Nat) : Nat :=
  if value = 0 then alignment
  else if alignment = 0 then value
  else (value + (alignment - 1)) % 2 ^ width &&& complement width (alignment - 1)

/-- The loop of `bit_width`: `count` is the position about to be inspected and
`found` the last position that held a one.  A word runs out of ones within its
width, which bounds the number of turns. -/
def bitWidthLoop : Nat -> Nat -> Nat -> Nat -> Nat
  | 0, _, _, found => found
  | turns + 1, value, count, found =>
      if value = 0 then found
      else bitWidthLoop turns (value >>> 1) (count + 1)
        (if value &&& 1 = 1 then count else found)

def bitWidth (width value : Nat) : Nat :=
  bitWidthLoop width value 1 0

/-- The literal that is shifted is `1u`, a 32-bit word, whatever the width of
the operand: the result is undefined when the shift reaches 32. -/
def alignDownToPower (width value : Nat) : Option Nat :=
  if value = 0 then some 0
  else if bitWidth width value - 1 < 32 then some ((1 <<< (bitWidth width value - 1)) % 2 ^ width)
  else none

def alignUpToPower (width value : Nat) : Option Nat :=
  if value = 0 then some 1
  else match alignDownToPower width value with
    | none => none
    | some alignedDown =>
        some (if alignedDown = value then value else (alignedDown <<< 1) % 2 ^ width)

/-- `divide_up` on words of the given width. -/
def divideUp (width divisor dividend : Nat) : Nat :=
  ((divisor + (dividend - 1)) % 2 ^ width) / dividend

/-! ## Masking is rounding -/

private theorem mask_eq {width bits value : Nat} (fits : bits ≤ width) (small : value < 2 ^ width) :
    value &&& complement width (2 ^ bits - 1) = value / 2 ^ bits * 2 ^ bits := by
  have mask : complement width (2 ^ bits - 1) = (2 ^ (width - bits) - 1) * 2 ^ bits := by
    have powers : 2 ^ (width - bits) * 2 ^ bits = 2 ^ width := by
      rw [← Nat.pow_add, Nat.sub_add_cancel fits]
    have positive : 0 < 2 ^ bits := Nat.two_pow_pos bits
    rw [complement, Nat.sub_mul, powers]
    omega
  rw [mask, ← Nat.shiftLeft_eq, ← Nat.shiftLeft_eq, ← Nat.shiftRight_eq_div_pow]
  apply Nat.eq_of_testBit_eq
  intro position
  rw [Nat.testBit_and, Nat.testBit_shiftLeft, Nat.testBit_shiftLeft, Nat.testBit_two_pow_sub_one,
    Nat.testBit_shiftRight]
  by_cases low : bits ≤ position
  · have same : bits + (position - bits) = position := by omega
    by_cases high : position < width
    · have inside : position - bits < width - bits := by omega
      simp [low, inside, same]
    · have beyond : value.testBit position = false :=
        Nat.testBit_lt_two_pow (Nat.lt_of_lt_of_le small (Nat.pow_le_pow_right (by omega) (by omega)))
      simp [same, beyond]
  · simp [low]

theorem alignDownTwo_eq {width bits value : Nat} (fits : bits ≤ width) (small : value < 2 ^ width) :
    alignDownTwo width value (2 ^ bits) = value / 2 ^ bits * 2 ^ bits := by
  have positive : 2 ^ bits ≠ 0 := Nat.ne_of_gt (Nat.two_pow_pos bits)
  by_cases zero : value = 0
  · simp [alignDownTwo, zero]
  · rw [alignDownTwo, if_neg (by simp [zero]), mask_eq fits small]

theorem alignUpTwo_zero (width alignment : Nat) : alignUpTwo width 0 alignment = alignment := by
  simp [alignUpTwo]

/-- The sum that is masked wraps. -/
theorem alignUpTwo_mod {width bits value : Nat} (fits : bits ≤ width) (nonzero : value ≠ 0) :
    alignUpTwo width value (2 ^ bits) =
      (value + (2 ^ bits - 1)) % 2 ^ width / 2 ^ bits * 2 ^ bits := by
  rw [alignUpTwo, if_neg nonzero, if_neg (Nat.ne_of_gt (Nat.two_pow_pos bits)),
    mask_eq fits (Nat.mod_lt _ (Nat.two_pow_pos width))]

/-- Rounding up, as long as the sum stays a word. -/
theorem alignUpTwo_eq {width bits value : Nat} (fits : bits ≤ width) (nonzero : value ≠ 0)
    (small : value + (2 ^ bits - 1) < 2 ^ width) :
    alignUpTwo width value (2 ^ bits) = (value + (2 ^ bits - 1)) / 2 ^ bits * 2 ^ bits := by
  rw [alignUpTwo_mod fits nonzero, Nat.mod_eq_of_lt small]

/-! ## The bit width is the binary length -/

private theorem bitWidthLoop_eq (turns value count found : Nat) (small : value < 2 ^ turns)
    (started : 0 < count) :
    bitWidthLoop turns value count found =
      if value = 0 then found else count + value.log2 := by
  induction turns generalizing value count found with
  | zero =>
      have zero : value = 0 := by simpa using small
      simp [bitWidthLoop, zero]
  | succ turns inductionHypothesis =>
      by_cases zero : value = 0
      · simp [bitWidthLoop, zero]
      · have half : value >>> 1 = value / 2 := Nat.shiftRight_one value
        have halfSmall : value >>> 1 < 2 ^ turns := by
          rw [half]
          rw [Nat.pow_succ] at small
          omega
        rw [bitWidthLoop, if_neg zero, if_neg zero,
          inductionHypothesis _ _ _ halfSmall (Nat.succ_pos count), half, Nat.and_one_is_mod]
        by_cases last : value / 2 = 0
        · have one : value = 1 := by omega
          simp [one, show Nat.log2 1 = 0 from by decide]
        · have two : 2 ≤ value := by omega
          rw [if_neg last, Nat.log2_def value, if_pos two]
          omega

theorem bitWidth_eq {width value : Nat} (small : value < 2 ^ width) (nonzero : value ≠ 0) :
    bitWidth width value = value.log2 + 1 := by
  rw [bitWidth, bitWidthLoop_eq width value 1 0 small Nat.one_pos, if_neg nonzero, Nat.add_comm]

/-! ## Powers below the limit of the literal -/

theorem alignDownToPower_eq {width value : Nat} (small : value < 2 ^ width) (nonzero : value ≠ 0)
    (below : value < 2 ^ 32) : alignDownToPower width value = some (2 ^ value.log2) := by
  have shift : value.log2 < 32 := (Nat.log2_lt nonzero).mpr below
  have isWord : 2 ^ value.log2 < 2 ^ width := Nat.lt_of_le_of_lt (Nat.log2_self_le nonzero) small
  rw [alignDownToPower, if_neg nonzero, bitWidth_eq small nonzero, Nat.add_sub_cancel,
    if_pos shift, Nat.one_shiftLeft, Nat.mod_eq_of_lt isWord]

/-- The next power may be too large for the word. -/
theorem alignUpToPower_eq {width value : Nat} (small : value < 2 ^ width) (nonzero : value ≠ 0)
    (below : value < 2 ^ 32) :
    alignUpToPower width value =
      some (if 2 ^ value.log2 = value then value else 2 ^ (value.log2 + 1) % 2 ^ width) := by
  rw [alignUpToPower, if_neg nonzero, alignDownToPower_eq small nonzero below]
  dsimp only
  rw [Nat.shiftLeft_eq, ← Nat.pow_add]

end Pine
end Pinyon
