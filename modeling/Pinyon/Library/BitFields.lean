import Mathlib

namespace Pinyon
namespace Library

/-!
# Bit fields

A word that is declared as a row of bit fields, the first one in its lowest bits.
A value that is too wide for its field loses its high bits.
-/

structure BitField where
  width : Nat
  value : Nat
deriving DecidableEq, Repr

namespace BitField

/-- The word that a row of fields is laid out as. -/
def pack : List BitField -> Nat
  | [] => 0
  | field :: rest => field.value % 2 ^ field.width + 2 ^ field.width * pack rest

/-- The number of bits in a row of fields. -/
def widths (fields : List BitField) : Nat :=
  (fields.map BitField.width).sum

/-- The field of the given width that starts at bit `start`. -/
def extract (word start width : Nat) : Nat :=
  word / 2 ^ start % 2 ^ width

variable {word start width : Nat}

theorem extract_lt (word start width : Nat) : extract word start width < 2 ^ width :=
  Nat.mod_lt _ (Nat.two_pow_pos width)

theorem extract_zero (start width : Nat) : extract 0 start width = 0 := by
  rw [extract, Nat.zero_div, Nat.zero_mod]

/-- The lowest bits. -/
theorem extract_low (word width : Nat) : extract word 0 width = word % 2 ^ width := by
  rw [extract, Nat.pow_zero, Nat.div_one]

theorem widths_cons (field : BitField) (rest : List BitField) :
    widths (field :: rest) = field.width + widths rest := by
  rw [widths, widths, List.map_cons, List.sum_cons]

/-- The fields behind the first ones are found above their bits. -/
theorem pack_append_div (front back : List BitField) :
    pack (front ++ back) / 2 ^ widths front = pack back := by
  induction front with
  | nil => exact Nat.div_one _
  | cons field rest inductionHypothesis =>
      have low : field.value % 2 ^ field.width < 2 ^ field.width :=
        Nat.mod_lt _ (Nat.two_pow_pos _)
      rw [List.cons_append, pack, widths_cons, Nat.pow_add, ← Nat.div_div_eq_div_mul,
        Nat.add_mul_div_left _ _ (Nat.two_pow_pos _), Nat.div_eq_of_lt low, Nat.zero_add]
      exact inductionHypothesis

/-- A field is read back where the fields in front of it end. -/
theorem extract_pack (front back : List BitField) (field : BitField) :
    extract (pack (front ++ field :: back)) (widths front) field.width =
      field.value % 2 ^ field.width := by
  rw [extract, pack_append_div, pack, Nat.add_mul_mod_self_left, Nat.mod_mod]

/-- The first field is found in the lowest bits. -/
theorem extract_pack_head (field : BitField) (rest : List BitField) :
    extract (pack (field :: rest)) 0 field.width = field.value % 2 ^ field.width :=
  extract_pack [] rest field

/-- What a word of fields holds from a bit on, when one field is all that is there. -/
theorem pack_last_div (front : List BitField) (field : BitField) :
    pack (front ++ [field]) / 2 ^ widths front = field.value % 2 ^ field.width := by
  rw [pack_append_div, pack, pack, Nat.mul_zero, Nat.add_zero]

/-- A shorter field at the same place is what is left of the longer one. -/
theorem extract_extract {shorter : Nat} (fits : shorter ≤ width) :
    extract word start width % 2 ^ shorter = extract word start shorter :=
  Nat.mod_mod_of_dvd _ (Nat.pow_dvd_pow 2 fits)

end BitField

end Library
end Pinyon
