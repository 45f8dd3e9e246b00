import Mathlib

namespace Pinyon
namespace Kernel

/-!
# Where the linker puts the kernel

The sections stand one behind the other above the stack of the kernel.  Both ends of
the variables that start out as zero are multiples of 16.
-/

/-- `. = 0xb000`, also the top of the kernel's stack. -/
def codeStart : Nat := 0xb000

/-- `. = ALIGN(16)`. -/
def align16 (address : Nat) : Nat :=
  (address + 15) / 16 * 16

/-- The sizes of the sections. -/
structure Sections where
  text : Nat
  rodata : Nat
  data : Nat
  bss : Nat

namespace Sections

/-- `__bss_start`. -/
def bssStart (sections : Sections) : Nat :=
  align16 (codeStart + sections.text + sections.rodata + sections.data)

/-- `__bss_end`. -/
def bssEnd (sections : Sections) : Nat :=
  align16 (sections.bssStart + sections.bss)

theorem le_align16 (address : Nat) : address ≤ align16 address := by
  rw [align16]
  omega

theorem bssStart_le_bssEnd (sections : Sections) : sections.bssStart ≤ sections.bssEnd :=
  (Nat.le_add_right _ _).trans (le_align16 _)

theorem dvd_bssSize (sections : Sections) : 16 ∣ sections.bssEnd - sections.bssStart :=
  Nat.dvd_sub (Nat.dvd_mul_left _ _) (Nat.dvd_mul_left _ _)

/-- What is between the two ends, as words of the processor have it. -/
theorem toNat_bssSize (sections : Sections) {width : Nat} (fits : sections.bssEnd < 2 ^ width) :
    (BitVec.ofNat width sections.bssEnd - BitVec.ofNat width sections.bssStart).toNat =
      sections.bssEnd - sections.bssStart := by
  have below := sections.bssStart_le_bssEnd
  rw [BitVec.ofNat_sub_ofNat_of_le _ _ (Nat.lt_of_le_of_lt below fits) below, BitVec.toNat_ofNat]
  exact Nat.mod_eq_of_lt (Nat.lt_of_le_of_lt (Nat.sub_le _ _) fits)

end Sections

end Kernel
end Pinyon
