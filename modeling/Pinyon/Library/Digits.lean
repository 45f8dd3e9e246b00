import Mathlib

namespace Pinyon
namespace Library

/-!
# Digits from the left

Mathlib lists the digits of a number from the least significant one.  Programs that
print a number mostly begin at the other end, dividing by smaller and smaller powers
of the base.
-/

namespace Digits

/-- This many digits of a number, the most significant one first. -/
def leading (base : Nat) : Nat -> Nat -> List Nat
  | 0, _ => []
  | width + 1, num => num / base ^ width :: leading base width (num % base ^ width)

/-- The digits of a number without leading zeros; zero has one digit. -/
def canonical (base num : Nat) : List Nat :=
  if num = 0 then [0] else (Nat.digits base num).reverse

/-- The number with these digits. -/
def value (base : Nat) (digits : List Nat) : Nat :=
  digits.foldl (fun high digit => high * base + digit) 0

variable {base width num : Nat}

@[simp] theorem leading_length (base width num : Nat) :
    (leading base width num).length = width := by
  induction width generalizing num with
  | zero => rfl
  | succ width inductionHypothesis => rw [leading, List.length_cons, inductionHypothesis]

theorem leading_lt (positive : 0 < base) (small : num < base ^ width) {digit : Nat}
    (member : digit ∈ leading base width num) : digit < base := by
  induction width generalizing num with
  | zero => cases member
  | succ width inductionHypothesis =>
      rcases List.mem_cons.mp member with same | later
      · rw [same]
        apply Nat.div_lt_of_lt_mul
        rwa [← Nat.pow_succ]
      · exact inductionHypothesis (Nat.mod_lt _ (Nat.pow_pos positive)) later

theorem ofDigits_leading (small : num < base ^ width) :
    Nat.ofDigits base (leading base width num).reverse = num := by
  induction width generalizing num with
  | zero =>
      rw [Nat.pow_zero, Nat.lt_one_iff] at small
      rw [small]
      rfl
  | succ width inductionHypothesis =>
      by_cases none_ : base = 0
      · rw [none_, Nat.zero_pow (Nat.succ_pos width)] at small
        exact absurd small (Nat.not_lt_zero num)
      · have rest := Nat.mod_lt num (Nat.pow_pos (n := width) (Nat.pos_of_ne_zero none_))
        rw [leading, List.reverse_cons, Nat.ofDigits_append, inductionHypothesis rest,
          List.length_reverse, leading_length, Nat.ofDigits_singleton, Nat.mod_add_div]

/-- As many digits as the logarithm asks for are the canonical ones. -/
theorem leading_eq_canonical (large : 1 < base) (num : Nat) :
    leading base (Nat.log base num + 1) num = canonical base num := by
  by_cases zero : num = 0
  · rw [zero, canonical, if_pos rfl, Nat.log_zero_right, leading, leading, Nat.zero_div]
  · have small := Nat.lt_pow_succ_log_self large num
    have positive : 0 < base := Nat.zero_lt_of_lt large
    have first : num / base ^ Nat.log base num ≠ 0 := by
      apply Nat.ne_of_gt
      exact Nat.div_pos (Nat.pow_log_le_self base zero) (Nat.pow_pos positive)
    have digits := Nat.digits_ofDigits base large
      (leading base (Nat.log base num + 1) num).reverse
      (fun digit member => leading_lt positive small (List.mem_reverse.mp member))
      (fun some_ => by
        rw [List.getLast_reverse]
        exact first)
    rw [ofDigits_leading small] at digits
    rw [canonical, if_neg zero, digits, List.reverse_reverse]

theorem canonical_lt (large : 1 < base) {digit : Nat} (member : digit ∈ canonical base num) :
    digit < base := by
  rw [← leading_eq_canonical large] at member
  exact leading_lt (Nat.zero_lt_of_lt large) (Nat.lt_pow_succ_log_self large num) member

theorem canonical_ne_nil (base num : Nat) : canonical base num ≠ [] := by
  rw [canonical]
  split
  · exact List.cons_ne_nil 0 []
  next positive =>
      rw [Ne, List.reverse_eq_nil_iff]
      exact Nat.digits_ne_nil_iff_ne_zero.mpr positive

theorem value_eq_ofDigits (base : Nat) (digits : List Nat) :
    value base digits = Nat.ofDigits base digits.reverse := by
  rw [value, Nat.ofDigits_eq_foldr, List.foldr_reverse]
  congr 1
  funext high digit
  rw [Nat.mul_comm, Nat.add_comm]
  rfl

/-- Reading the canonical digits gives the number back. -/
theorem value_canonical (large : 1 < base) (num : Nat) : value base (canonical base num) = num := by
  rw [value_eq_ofDigits, ← leading_eq_canonical large]
  exact ofDigits_leading (Nat.lt_pow_succ_log_self large num)

end Digits

end Library
end Pinyon
