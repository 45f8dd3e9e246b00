import Mathlib

namespace Pinyon
namespace Library
namespace Aarch32

/-!
# Registers and words on ARMv7

The registers that instructions name, and words that are stored in memory one behind
the other.  Memory is read and written in words.
-/

abbrev Word : Type := BitVec 32

/-- There are general registers, so that their numbers can be written down. -/
instance generalRegisters_neZero : NeZero 13 :=
  ⟨by decide⟩

inductive Register where
  | r (index : Fin 13)
  | sp
  | lr
deriving DecidableEq, Repr

/-- The memory after words were stored one behind the other. -/
def storeWords (start : Word) : List Word -> (Word -> Word) -> Word -> Word
  | [], memory => memory
  | value :: rest, memory => storeWords (start + 4) rest (Function.update memory start value)

variable {start address : Word} {values : List Word} {memory : Word -> Word}

theorem storeWords_append (first second : List Word) :
    storeWords start (first ++ second) memory =
      storeWords (start + BitVec.ofNat 32 (4 * first.length)) second
        (storeWords start first memory) := by
  induction first generalizing start memory with
  | nil =>
      change storeWords start second memory = storeWords (start + 0) second memory
      rw [show start + 0 = start from BitVec.add_zero start]
  | cons value rest inductionHypothesis =>
      have further : start + 4 + BitVec.ofNat 32 (4 * rest.length) =
          start + BitVec.ofNat 32 (4 * (value :: rest).length) := by
        rw [BitVec.add_assoc, List.length_cons, Nat.mul_succ, Nat.add_comm, BitVec.ofNat_add]
        rfl
      rw [List.cons_append, storeWords, inductionHypothesis, further, storeWords]

/-- Nothing else is stored to. -/
theorem storeWords_other
    (apart : forall index, index < values.length -> address ≠ start + BitVec.ofNat 32 (4 * index)) :
    storeWords start values memory address = memory address := by
  induction values generalizing start memory with
  | nil => rfl
  | cons value rest inductionHypothesis =>
      have first : address ≠ start := by
        have notFirst := apart 0 (Nat.succ_pos _)
        rwa [show start + BitVec.ofNat 32 (4 * 0) = start from BitVec.add_zero start] at notFirst
      rw [storeWords, inductionHypothesis fun index below => ?_]
      · exact Function.update_of_ne first _ _
      · have next := apart (index + 1) (Nat.succ_lt_succ below)
        rwa [Nat.mul_succ, Nat.add_comm, BitVec.ofNat_add, ← BitVec.add_assoc] at next

/-- The first word is found at the start. -/
theorem storeWords_head {value : Word} (short : values.length < 2 ^ 29) :
    storeWords start (value :: values) memory start = value := by
  rw [storeWords, storeWords_other fun index below => ?_]
  · exact Function.update_self _ _ _
  · have apart : (4 : Word) + BitVec.ofNat 32 (4 * index) ≠ 0 := by
      rw [ne_eq, ← BitVec.toNat_inj, BitVec.toNat_add, BitVec.toNat_ofNat]
      change ¬ (4 + 4 * index % 2 ^ 32) % 2 ^ 32 = 0
      omega
    rw [BitVec.add_assoc]
    exact fun same => apart (BitVec.self_eq_add_right.mp same)

end Aarch32
end Library
end Pinyon
