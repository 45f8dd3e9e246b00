import Pinyon.Library.BitFields
import Pinyon.Pine.Page

namespace Pinyon
namespace Kernel
namespace Mmu

open Library
open BitField (extract extract_lt)

/-!
# Page tables

The tables of an ARMv7 machine: a table of megabytes, whose entries are sections
or point to tables of pages.  An entry is a word of bit fields, written by the
constructors of `Section`, `L2Ptr` and `Page`.

The constructors are as `mmu.hpp` has them.  `translate` is what the machine makes
of the words, which the code's own accessors never ask.
-/

/-! ## Addresses -/

namespace VirtualAddress

/-- `l1_table_index`, which is two bits short of the address. -/
def l1Index (ptr : Nat) : Nat :=
  extract ptr 20 10

def l2Index (ptr : Nat) : Nat :=
  extract ptr 12 8

end VirtualAddress

namespace PhysicalAddress

def l1BaseAddr (ptr : Nat) : Nat :=
  extract ptr 20 12

def l2BaseAddr (ptr : Nat) : Nat :=
  extract ptr 10 22

def fromL2BaseAddr (baseAddr : Nat) : Nat :=
  baseAddr % 2 ^ 22 * 2 ^ 10

end PhysicalAddress

/-! ## Entries -/

inductive L1Type where
  | Fault
  | L2Ptr
  | Section
  | SuperSection
deriving DecidableEq, Repr

/-- The last value of two bits has no name in the source. -/
inductive L2Type where
  | Fault
  | HugePage
  | Page
  | unnamed
deriving DecidableEq, Repr

/-- `type()` of an L1 entry. -/
def L1Type.ofEntry (entry : Nat) : L1Type :=
  match extract entry 0 2 with
  | 0 => .Fault
  | 1 => .L2Ptr
  | 2 => .Section
  | _ => .SuperSection

/-- `type()` of an L2 entry. -/
def L2Type.ofEntry (entry : Nat) : L2Type :=
  match extract entry 0 2 with
  | 0 => .Fault
  | 1 => .HugePage
  | 2 => .Page
  | _ => .unnamed

namespace Page

/-- The fields in front of `base_addr`: `type`, `b`, `c`, `ap`, `sbz`, `apx`, `s`, `nG`. -/
def attributes : List BitField :=
  [⟨2, 2⟩, ⟨1, 0⟩, ⟨1, 0⟩, ⟨2, 3⟩, ⟨3, 0⟩, ⟨1, 0⟩, ⟨1, 0⟩, ⟨1, 0⟩]

/-- `Page(addr)`.  The field is filled with the base address of an L2 table. -/
def entry (addr : Nat) : Nat :=
  BitField.pack (attributes ++ [⟨20, PhysicalAddress.l2BaseAddr addr⟩])

end Page

namespace L2Ptr

/-- `type`, `sbz`, `domain`, `p`. -/
def attributes : List BitField :=
  [⟨2, 1⟩, ⟨3, 0⟩, ⟨4, 0⟩, ⟨1, 0⟩]

def entry (addr : Nat) : Nat :=
  BitField.pack (attributes ++ [⟨22, PhysicalAddress.l2BaseAddr addr⟩])

/-- `l2_table()` of an entry. -/
def l2Table (entry : Nat) : Nat :=
  PhysicalAddress.fromL2BaseAddr (extract entry 10 22)

end L2Ptr

namespace Section

/-- `type`, `b`, `c`, `xn`, `domain`, `p`, `ap`, `tex`, `apx`, `s`, `nG`, `_`, `sbz`. -/
def attributes : List BitField :=
  [⟨2, 2⟩, ⟨1, 0⟩, ⟨1, 0⟩, ⟨1, 0⟩, ⟨4, 0⟩, ⟨1, 0⟩, ⟨2, 3⟩, ⟨3, 0⟩, ⟨1, 0⟩, ⟨1, 0⟩, ⟨1, 0⟩,
    ⟨1, 0⟩, ⟨1, 0⟩]

def entry (addr : Nat) : Nat :=
  BitField.pack (attributes ++ [⟨10, PhysicalAddress.l1BaseAddr addr⟩])

end Section

/-! ## Tables -/

abbrev L1Table := Fin 1024 -> Nat

abbrev L2Table := Fin 256 -> Nat

namespace L1Table

/-- The entry that `retrieve_entry` refers to. -/
def slot (ptr : Nat) : Fin 1024 :=
  ⟨VirtualAddress.l1Index ptr, extract_lt ptr 20 10⟩

/-- A table of faults. -/
def empty : L1Table :=
  fun _ => 0

end L1Table

namespace L2Table

def slot (ptr : Nat) : Fin 256 :=
  ⟨VirtualAddress.l2Index ptr, extract_lt ptr 12 8⟩

def empty : L2Table :=
  fun _ => 0

end L2Table

/-- The L1 table, and the L2 tables by the address at which they are placed. -/
structure PageTables where
  l1Table : L1Table
  l2Tables : Nat -> L2Table

namespace PageTables

def setL1 (tables : PageTables) (slot : Fin 1024) (entry : Nat) : PageTables :=
  { tables with l1Table := Function.update tables.l1Table slot entry }

def setL2 (tables : PageTables) (table : Nat) (slot : Fin 256) (entry : Nat) : PageTables :=
  { tables with
    l2Tables := Function.update tables.l2Tables table
      (Function.update (tables.l2Tables table) slot entry) }

/-- `new (table) L2Table()`. -/
def newL2Table (tables : PageTables) (table : Nat) : PageTables :=
  { tables with l2Tables := Function.update tables.l2Tables table L2Table.empty }

section Entries

variable (tables : PageTables) {slot other : Fin 1024} {page otherPage : Fin 256}
variable {table otherTable : Nat} (entry : Nat)

@[simp]
theorem setL1_self : (tables.setL1 slot entry).l1Table slot = entry :=
  Function.update_self _ _ _

theorem setL1_of_ne (different : other ≠ slot) :
    (tables.setL1 slot entry).l1Table other = tables.l1Table other :=
  Function.update_of_ne different _ _

@[simp]
theorem setL2_self : (tables.setL2 table page entry).l2Tables table page = entry := by
  rw [setL2]
  dsimp only
  rw [Function.update_self, Function.update_self]

theorem setL2_of_ne (different : otherTable ≠ table ∨ otherPage ≠ page) :
    (tables.setL2 table page entry).l2Tables otherTable otherPage =
      tables.l2Tables otherTable otherPage := by
  rw [setL2]
  dsimp only
  by_cases same : otherTable = table
  · subst same
    rw [Function.update_self, Function.update_of_ne (different.resolve_left (absurd rfl))]
  · rw [Function.update_of_ne same]

@[simp]
theorem newL2Table_self : (tables.newL2Table table).l2Tables table = L2Table.empty :=
  Function.update_self _ _ _

theorem newL2Table_of_ne (different : otherTable ≠ table) :
    (tables.newL2Table table).l2Tables otherTable = tables.l2Tables otherTable :=
  Function.update_of_ne different _ _

end Entries

/-- How the machine translates an address.  The table it walks has an entry for
each of 4096 megabytes, of which the code provides the first 1024.  An entry
with the types that the code never writes is not described. -/
def translate (tables : PageTables) (address : Nat) : Option Nat :=
  if provided : extract address 20 12 < 1024 then
    let entry := tables.l1Table ⟨extract address 20 12, provided⟩
    match L1Type.ofEntry entry with
    | .Section => some (extract entry 20 12 * 2 ^ 20 + extract address 0 20)
    | .L2Ptr =>
        let page := tables.l2Tables (extract entry 10 22 * 2 ^ 10)
          ⟨extract address 12 8, extract_lt address 12 8⟩
        match L2Type.ofEntry page with
        | .Page => some (extract page 12 20 * 2 ^ 12 + extract address 0 12)
        | _ => none
    | _ => none
  else none

end PageTables

/-! ## What the entries say -/

@[simp]
theorem ofEntry_page (addr : Nat) : L2Type.ofEntry (Page.entry addr) = .Page := by
  have type : extract (Page.entry addr) 0 2 = 2 := by
    rw [Page.entry, Page.attributes, List.cons_append]
    exact BitField.extract_pack_head ⟨2, 2⟩ _
  rw [L2Type.ofEntry, type]
  rfl

@[simp]
theorem ofEntry_l2Ptr (addr : Nat) : L1Type.ofEntry (L2Ptr.entry addr) = .L2Ptr := by
  have type : extract (L2Ptr.entry addr) 0 2 = 1 := by
    rw [L2Ptr.entry, L2Ptr.attributes, List.cons_append]
    exact BitField.extract_pack_head ⟨2, 1⟩ _
  rw [L1Type.ofEntry, type]
  rfl

@[simp]
theorem ofEntry_section (addr : Nat) : L1Type.ofEntry (Section.entry addr) = .Section := by
  have type : extract (Section.entry addr) 0 2 = 2 := by
    rw [Section.entry, Section.attributes, List.cons_append]
    exact BitField.extract_pack_head ⟨2, 2⟩ _
  rw [L1Type.ofEntry, type]
  rfl

@[simp]
theorem ofEntry_empty_l1 (slot : Fin 1024) : L1Type.ofEntry (L1Table.empty slot) = .Fault := by
  have type : extract (L1Table.empty slot) 0 2 = 0 := BitField.extract_zero 0 2
  rw [L1Type.ofEntry, type]
  rfl

@[simp]
theorem ofEntry_empty_l2 (slot : Fin 256) : L2Type.ofEntry (L2Table.empty slot) = .Fault := by
  have type : extract (L2Table.empty slot) 0 2 = 0 := BitField.extract_zero 0 2
  rw [L2Type.ofEntry, type]
  rfl

/-- The frame of a page lies two bits too high: a page of 4 KiB was given the
address of a table of 1 KiB. -/
theorem frame_page (addr : Nat) : extract (Page.entry addr) 12 20 = extract addr 10 20 := by
  have field : extract (Page.entry addr) 12 20 = PhysicalAddress.l2BaseAddr addr % 2 ^ 20 :=
    BitField.extract_pack Page.attributes [] ⟨20, PhysicalAddress.l2BaseAddr addr⟩
  rw [field, PhysicalAddress.l2BaseAddr, BitField.extract_extract (by decide)]

/-- The frame of a section lacks the two bits that no physical address has. -/
theorem frame_section (addr : Nat) : extract (Section.entry addr) 20 12 = extract addr 20 10 := by
  have rest : Section.entry addr / 2 ^ 20 = PhysicalAddress.l1BaseAddr addr % 2 ^ 10 :=
    BitField.pack_last_div Section.attributes ⟨10, PhysicalAddress.l1BaseAddr addr⟩
  have small := extract_lt addr 20 10
  rw [extract, rest, PhysicalAddress.l1BaseAddr, BitField.extract_extract (by decide)]
  exact Nat.mod_eq_of_lt (Nat.lt_trans small (by decide))

/-- The machine finds the table where the code's accessor finds it. -/
theorem l2Table_eq (entry : Nat) : L2Ptr.l2Table entry = extract entry 10 22 * 2 ^ 10 := by
  rw [L2Ptr.l2Table, PhysicalAddress.fromL2BaseAddr, Nat.mod_eq_of_lt (extract_lt entry 10 22)]

/-- A table that is placed like a cell of its allocator is found again. -/
theorem l2Table_l2Ptr {addr : Nat} (aligned : 2 ^ 10 ∣ addr) (small : addr < 2 ^ 32) :
    L2Ptr.l2Table (L2Ptr.entry addr) = addr := by
  have field : extract (L2Ptr.entry addr) 10 22 = PhysicalAddress.l2BaseAddr addr % 2 ^ 22 :=
    BitField.extract_pack L2Ptr.attributes [] ⟨22, PhysicalAddress.l2BaseAddr addr⟩
  have quotient : addr / 2 ^ 10 < 2 ^ 22 := Nat.div_lt_of_lt_mul small
  rw [l2Table_eq, field, PhysicalAddress.l2BaseAddr, BitField.extract_extract (Nat.le_refl 22),
    extract, Nat.mod_eq_of_lt quotient, Nat.div_mul_cancel aligned]

/-! ## What a change of the tables does to the translation -/

namespace PageTables

variable {before after tables : PageTables} {table address target : Nat}

/-- The kinds of entries that an address is translated by. -/
theorem translate_eq_some : tables.translate address = some target <->
    Exists fun provided : extract address 20 12 < 1024 =>
      let entry := tables.l1Table ⟨extract address 20 12, provided⟩
      let page := tables.l2Tables (L2Ptr.l2Table entry) (L2Table.slot address)
      (L1Type.ofEntry entry = .Section ∧
        target = extract entry 20 12 * 2 ^ 20 + extract address 0 20) ∨
      (L1Type.ofEntry entry = .L2Ptr ∧ L2Type.ofEntry page = .Page ∧
        target = extract page 12 20 * 2 ^ 12 + extract address 0 12) := by
  rw [translate]
  by_cases provided : extract address 20 12 < 1024
  · rw [dif_pos provided]
    simp only [exists_prop_of_true provided, l2Table_eq, L2Table.slot, VirtualAddress.l2Index]
    generalize tables.l1Table ⟨extract address 20 12, provided⟩ = entry
    cases L1Type.ofEntry entry with
    | Section => simp [eq_comm]
    | L2Ptr =>
        dsimp only
        cases L2Type.ofEntry (tables.l2Tables (extract entry 10 22 * 2 ^ 10)
          ⟨extract address 12 8, extract_lt address 12 8⟩) <;> simp [eq_comm]
    | Fault => simp
    | SuperSection => simp
  · rw [dif_neg provided]
    simp [provided]

/-- Every address that has a translation keeps it. -/
def Extends (before after : PageTables) : Prop :=
  forall address target, before.translate address = some target ->
    after.translate address = some target

/-- Only faults are written over, and tables that nothing points to. -/
structure Grows (before after : PageTables) : Prop where
  l1 : forall slot, L1Type.ofEntry (before.l1Table slot) ≠ .Fault ->
    after.l1Table slot = before.l1Table slot
  l2 : forall slot page, L1Type.ofEntry (before.l1Table slot) = .L2Ptr ->
    L2Type.ofEntry (before.l2Tables (L2Ptr.l2Table (before.l1Table slot)) page) ≠ .Fault ->
    after.l2Tables (L2Ptr.l2Table (before.l1Table slot)) page =
      before.l2Tables (L2Ptr.l2Table (before.l1Table slot)) page

theorem Grows.refl (tables : PageTables) : Grows tables tables :=
  ⟨fun _ _ => rfl, fun _ _ _ _ => rfl⟩

theorem Grows.trans {middle : PageTables} (first : Grows before middle)
    (second : Grows middle after) : Grows before after where
  l1 := by
    intro slot taken
    have same := first.l1 slot taken
    exact (second.l1 slot (same ▸ taken)).trans same
  l2 := by
    intro slot page pointed taken
    have sameSlot := first.l1 slot (by rw [pointed]; decide)
    have samePage := first.l2 slot page pointed taken
    have further := second.l2 slot page
    rw [sameSlot, samePage] at further
    exact further pointed taken

theorem Grows.extends (grows : Grows before after) : Extends before after := by
  intro address target found
  rcases translate_eq_some.mp found with ⟨provided, walk⟩
  refine translate_eq_some.mpr ⟨provided, ?_⟩
  dsimp only at walk ⊢
  rcases walk with ⟨isSection, here⟩ | ⟨isPtr, isPage, here⟩
  · rw [grows.l1 _ (by rw [isSection]; decide)]
    exact .inl ⟨isSection, here⟩
  · rw [grows.l1 _ (by rw [isPtr]; decide), grows.l2 _ _ isPtr (by rw [isPage]; decide)]
    exact .inr ⟨isPtr, isPage, here⟩

theorem grows_setL1 {slot : Fin 1024} (fault : L1Type.ofEntry (tables.l1Table slot) = .Fault)
    (entry : Nat) : Grows tables (tables.setL1 slot entry) where
  l1 := by
    intro other taken
    apply setL1_of_ne
    rintro rfl
    exact taken fault
  l2 := fun _ _ _ _ => rfl

theorem grows_setL2 {slot : Fin 256}
    (fault : L2Type.ofEntry (tables.l2Tables table slot) = .Fault) (entry : Nat) :
    Grows tables (tables.setL2 table slot entry) where
  l1 := fun _ _ => rfl
  l2 := by
    intro other page _ taken
    apply setL2_of_ne
    by_contra both
    rw [not_or, not_not, not_not] at both
    rw [both.1, both.2] at taken
    exact taken fault

/-- A table may be cleared as long as nothing points to it. -/
theorem grows_newL2Table
    (unused : forall slot, L1Type.ofEntry (tables.l1Table slot) = .L2Ptr ->
      L2Ptr.l2Table (tables.l1Table slot) ≠ table) :
    Grows tables (tables.newL2Table table) where
  l1 := fun _ _ => rfl
  l2 := by
    intro slot page pointed _
    rw [newL2Table_of_ne tables (unused slot pointed)]

/-! ## Addresses below the first gigabyte, and the others -/

theorem slot_of_lt (below : address < 2 ^ 30) :
    Exists fun provided : extract address 20 12 < 1024 =>
      (⟨extract address 20 12, provided⟩ : Fin 1024) = L1Table.slot address := by
  have small : address / 2 ^ 20 < 2 ^ 10 := Nat.div_lt_of_lt_mul below
  have wide : extract address 20 12 = address / 2 ^ 20 :=
    Nat.mod_eq_of_lt (Nat.lt_trans small (by decide))
  have narrow : extract address 20 10 = address / 2 ^ 20 := Nat.mod_eq_of_lt small
  exact ⟨wide ▸ small, Fin.ext (wide.trans narrow.symm)⟩

/-- Beyond it the machine looks behind the end of the table. -/
theorem translate_of_ge (above : 2 ^ 30 ≤ address) (small : address < 2 ^ 32) :
    tables.translate address = none := by
  have many : 1024 ≤ extract address 20 12 := by
    rw [extract]
    omega
  rw [translate, dif_neg (Nat.not_lt.mpr many)]

theorem translate_section (below : address < 2 ^ 30) {addr : Nat}
    (entry : tables.l1Table (L1Table.slot address) = Section.entry addr) :
    tables.translate address = some (extract addr 20 10 * 2 ^ 20 + address % 2 ^ 20) := by
  rcases slot_of_lt below with ⟨provided, same⟩
  apply translate_eq_some.mpr
  refine ⟨provided, .inl ?_⟩
  rw [same, entry, ofEntry_section, frame_section, BitField.extract_low]
  exact ⟨rfl, rfl⟩

theorem translate_page (below : address < 2 ^ 30) {addr : Nat}
    (pointed : L1Type.ofEntry (tables.l1Table (L1Table.slot address)) = .L2Ptr)
    (here : L2Ptr.l2Table (tables.l1Table (L1Table.slot address)) = table)
    (entry : tables.l2Tables table (L2Table.slot address) = Page.entry addr) :
    tables.translate address = some (extract addr 10 20 * 2 ^ 12 + address % 2 ^ 12) := by
  rcases slot_of_lt below with ⟨provided, same⟩
  apply translate_eq_some.mpr
  refine ⟨provided, .inr ?_⟩
  rw [same, here, entry, ofEntry_page, frame_page, BitField.extract_low]
  exact ⟨pointed, rfl, rfl⟩

end PageTables

end Mmu
end Kernel
end Pinyon
