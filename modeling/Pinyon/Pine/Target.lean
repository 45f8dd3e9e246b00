import Mathlib

namespace Pinyon
namespace Pine

/-!
# The two machines the kernel is built for

Everything whose size depends on the machine is a function of the target: the
width of `size_t` and of a pointer, and `Alignment`, which is
`alignof(max_align_t)`.  An ARMv7 build has 32-bit words and 8-byte alignment,
an AArch64 build 64-bit words and 16-byte alignment.
-/

inductive Target where
  | aarch32
  | aarch64
deriving DecidableEq, Repr

namespace Target

/-- `sizeof(size_t) * CHAR_BIT`, also the width of `PtrData`. -/
def wordWidth : Target -> Nat
  | aarch32 => 32
  | aarch64 => 64

/-- `sizeof(size_t)`, also the size of a pointer. -/
def wordSize : Target -> Nat
  | aarch32 => 4
  | aarch64 => 8

/-- The exponent of `Alignment`. -/
def alignmentBits : Target -> Nat
  | aarch32 => 3
  | aarch64 => 4

/-- `Alignment`, i.e. `alignof(max_align_t)`. -/
def alignment (target : Target) : Nat :=
  2 ^ target.alignmentBits

/-- One more than the greatest `size_t`. -/
def wordLimit (target : Target) : Nat :=
  2 ^ target.wordWidth

theorem alignment_pos (target : Target) : 0 < target.alignment :=
  Nat.two_pow_pos _

theorem wordSize_pos (target : Target) : 0 < target.wordSize := by
  cases target <;> decide

theorem alignmentBits_le (target : Target) : target.alignmentBits ≤ target.wordWidth := by
  cases target <;> decide

end Target

/-- `PageSize`, 4 KiB. -/
def pageSize : Nat := 4096

/-- `SectionSize`, 1 MiB. -/
def sectionSize : Nat := 1048576

/-- `CHAR_BIT`. -/
def charBit : Nat := 8

end Pine
end Pinyon
