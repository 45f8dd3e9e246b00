import Pinyon.Library.LeastFree
import Pinyon.Kernel.FileReferences
import Pinyon.Kernel.FilePlaces

namespace Pinyon
namespace Kernel

open Library Pine LeastFree Files

/-!
# A table of descriptors is a map

What a table of descriptors is for is to name descriptions by small numbers.  The
map below says so on its own: a number is given out when it is the least that is
not in use, and nothing but the entry in question changes.

The table keeps the map in slots.  A slot that lies behind the end of the vector's
block is in memory that belongs to someone else, and may change at any time.
-/

/-! ## The map -/

/-- A call on a table, with the file table as it is at that moment and the allocators as
they behave. -/
inductive DescriptorCall where
  | «open» (fileTable : FileTable) (filesAllocate allocate : Nat -> Allocation) (path : String)
      (mode : FileMode) (created : Bool)
  | dup (allocate : Nat -> Allocation) (fd : Int)
  | close (fileTable : FileTable) (fd : Int)

/-- A call with its answer, or a store of the rest of the kernel to its own memory. -/
inductive DescriptorAct where
  | call (call : DescriptorCall) (result : Int)
  | elsewhere

/-- What a map holds at a number, which the code has as an `int`. -/
def heldAt (map : Nat -> Option FilePointer) (fd : Int) : Option FilePointer :=
  if fd < 0 then none else map fd.toNat

/-- What a call may answer, and what it makes of the map.  The answer to a bad
descriptor is `-EBADF`, the answer when no number is to be had is `-1`. -/
inductive MapStep (target : Target) : (Nat -> Option FilePointer) -> DescriptorAct ->
    (Nat -> Option FilePointer) -> Prop
  | openFails {map : Nat -> Option FilePointer} (fileTable : FileTable)
      (filesAllocate allocate : Nat -> Allocation) (path : String) (mode : FileMode)
      (created : Bool) :
      MapStep target map (.call (.open fileTable filesAllocate allocate path mode created) (-1)) map
  | opens {map : Nat -> Option FilePointer} {fileTable files : FileTable}
      {filesAllocate : Nat -> Allocation} {path : String} {mode : FileMode} {created : Bool}
      (description : FilePointer)
      (opened : fileTable.open target filesAllocate path mode created =
        some (some description, files))
      (allocate : Nat -> Allocation) (fd : Nat) (least : IsLeast (free map) fd) :
      MapStep target map (.call (.open fileTable filesAllocate allocate path mode created) fd)
        (Function.update map fd (some description))
  | dupBad {map : Nat -> Option FilePointer} (allocate : Nat -> Allocation) (fd : Int)
      (absent : heldAt map fd = none) :
      MapStep target map (.call (.dup allocate fd) (-Errno.EBADF.toInt)) map
  | dupFails {map : Nat -> Option FilePointer} (allocate : Nat -> Allocation) (fd : Int) :
      MapStep target map (.call (.dup allocate fd) (-1)) map
  | dups {map : Nat -> Option FilePointer} (description : FilePointer)
      (allocate : Nat -> Allocation) (fd : Int) (another : Nat)
      (present : heldAt map fd = some description) (least : IsLeast (free map) another) :
      MapStep target map (.call (.dup allocate fd) another)
        (Function.update map another (some description))
  | closeBad {map : Nat -> Option FilePointer} (fileTable : FileTable) (fd : Int)
      (absent : heldAt map fd = none) :
      MapStep target map (.call (.close fileTable fd) (-Errno.EBADF.toInt)) map
  | closes {map : Nat -> Option FilePointer} (description : FilePointer) (fileTable : FileTable)
      (fd : Int) (present : heldAt map fd = some description) :
      MapStep target map (.call (.close fileTable fd) 0) (Function.update map fd.toNat none)
  | elsewhere {map : Nat -> Option FilePointer} : MapStep target map .elsewhere map

/-! ## The table -/

namespace FileDescriptorTable

variable {target : Target} {allocate : Nat -> Allocation} {table after : FileDescriptorTable}
variable {slots : List (Option FilePointer)} {fd result : Int} {index : Nat}

/-- A call, without what it does to the file table. -/
def performDescriptor (target : Target) (table : FileDescriptorTable) :
    DescriptorCall -> Option (Int × FileDescriptorTable)
  | .open fileTable filesAllocate allocate path mode created =>
      (table.open target filesAllocate allocate fileTable path mode created).map fun answer =>
        (answer.1, answer.2.2)
  | .dup allocate fd => table.dup target allocate fd
  | .close fileTable fd => (table.close fileTable fd).map fun answer => (answer.1, answer.2.2)

/-- The slots behind the end of the block hold what others store there. -/
structure StoredElsewhere (target : Target) (before after : FileDescriptorTable) : Prop where
  count : after.descriptors.vector.count = before.descriptors.vector.count
  capacity : after.descriptors.vector.capacity = before.descriptors.vector.capacity
  contents : after.descriptors.vector.contents = before.descriptors.vector.contents
  block : after.descriptors.block = before.descriptors.block
  generation : after.descriptors.generation = before.descriptors.generation
  inside : forall index, (index + 1) * (pointerSize target).bytes ≤ before.descriptors.block.size ->
    after.descriptors.vector.slots index = before.descriptors.vector.slots index

def DescriptorStep (target : Target) (before : FileDescriptorTable) (act : DescriptorAct)
    (after : FileDescriptorTable) : Prop :=
  match act with
  | .call call result => before.performDescriptor target call = some (result, after)
  | .elsewhere => StoredElsewhere target before after

/-- A description and a descriptor that a call makes are not stored behind the end of a
block. -/
def StoresInside (target : Target) (before : FileDescriptorTable) : DescriptorAct -> Prop
  | .call (.open fileTable filesAllocate allocate path mode created) _ => forall description files,
      fileTable.open target filesAllocate path mode created = some (some description, files) ->
        Buffer.HasRoom target (descriptionSize target) filesAllocate fileTable.files ∧
          before.Room target allocate
  | .call (.dup allocate fd) _ => before.tryGet fd ≠ none -> before.Room target allocate
  | .call (.close _ _) _ => True
  | .elsewhere => True

/-! ## The slots of a table -/

/-- The elements of the vector, all of which are there. -/
def HasSlots (table : FileDescriptorTable) (slots : List (Option FilePointer)) : Prop :=
  table.descriptors.vector.elements = slots.map some

theorem HasSlots.length (has : table.HasSlots slots) : slots.length = table.length := by
  have lengths := congrArg List.length has
  rw [Vector.length_elements, List.length_map] at lengths
  exact lengths.symm

theorem HasSlots.slot (has : table.HasSlots slots) (inside : index < table.length) :
    table.descriptors.vector.slots index = slots[index]? := by
  have here : table.descriptors.vector.elements[index]? = (slots.map some)[index]? := by
    rw [has]
  rw [FileDescriptorTable.length] at inside
  rw [Vector.elements, List.getElem?_map, List.getElem?_range inside, List.getElem?_map] at here
  rcases Option.map_eq_some_iff.mp here.symm with ⟨value, there, same⟩
  rw [there, same]

theorem HasSlots.tryGet (has : table.HasSlots slots) (fd : Int) :
    table.tryGet fd = heldAt (lookup slots) fd := by
  rw [FileDescriptorTable.tryGet, heldAt]
  split
  · rfl
  · split
    · next beyond =>
        rw [lookup_of_le]
        rw [has.length]
        exact beyond
    · next inside => rw [has.slot (Nat.lt_of_not_le inside), lookup]

theorem HasSlots.setSlot (has : table.HasSlots slots) (descriptor : Option FilePointer) :
    (table.setSlot index descriptor).HasSlots (slots.set index descriptor) := by
  rw [HasSlots, setSlot_elements, has, List.map_set]

/-- The first null is the least number that is free. -/
theorem HasSlots.isLeast_firstNull (has : table.HasSlots slots)
    (first : table.firstNull = some index) : IsLeast (free (lookup slots)) index := by
  rcases List.find?_range_eq_some.mp first with ⟨null, member, earlier⟩
  have inside := List.mem_range.mp member
  rw [decide_eq_true_eq, has.slot inside] at null
  apply isLeast_of_first null
  · intro other less
    have taken := earlier other less
    rw [Bool.not_eq_true', decide_eq_false_iff_not, has.slot (Nat.lt_trans less inside)] at taken
    exact taken
  · rw [has.length]
    exact inside

/-- Without a null, it is the next one. -/
theorem HasSlots.isLeast_length (has : table.HasSlots slots) (full : table.firstNull = none) :
    IsLeast (free (lookup slots)) slots.length := by
  apply LeastFree.isLeast_length
  rintro value member rfl
  rcases List.getElem?_of_mem member with ⟨index, here⟩
  have inside : index < table.length := by
    rw [← has.length]
    exact (List.getElem?_eq_some_iff.mp here).1
  have null := List.find?_eq_none.mp full index (List.mem_range.mpr inside)
  rw [has.slot inside, here] at null
  exact null (decide_eq_true rfl)

/-- An insertion stores under the least number that is free, or fails and changes nothing. -/
theorem HasSlots.tryInsert (has : table.HasSlots slots) {description : FilePointer}
    (ran : table.tryInsert target allocate description = some (fd, after)) :
    fd = -1 ∧ after = table ∨
      Exists fun index : Nat => fd = index ∧ IsLeast (free (lookup slots)) index ∧
        Exists fun later => after.HasSlots later ∧
          lookup later = Function.update (lookup slots) index (some description) := by
  rw [FileDescriptorTable.tryInsert] at ran
  split at ran
  · cases ran
    exact .inl ⟨rfl, rfl⟩
  · split at ran
    · next index first =>
        cases ran
        have inside : index < slots.length := by
          rw [has.length]
          exact (firstNull_spec first).1
        exact .inr ⟨index, rfl, has.isLeast_firstNull first, _, has.setSlot _, lookup_set inside _⟩
    · next full =>
        rcases Option.bind_eq_some_iff.mp ran with ⟨⟨appended, descriptors⟩, appends, rest⟩
        rcases Buffer.append_cases appends with ⟨rfl, rfl, _⟩ | ⟨rfl, elements, _⟩
        · cases rest
          exact .inl ⟨rfl, rfl⟩
        · cases rest
          have count : descriptors.vector.count = slots.length + 1 := by
            rw [← Vector.length_elements, elements, List.length_append, Vector.length_elements,
              has.length]
            rfl
          refine .inr ⟨slots.length, ?_, has.isLeast_length full, slots ++ [some description], ?_,
            lookup_append _ _⟩
          · rw [count]
            simp
          · rw [HasSlots, elements, has, List.map_append]
            rfl

/-! ## The end of the block -/

/-- All slots are inside the block. -/
def Inside (target : Target) (table : FileDescriptorTable) : Prop :=
  table.length * (pointerSize target).bytes ≤ table.descriptors.block.size

/-- A new slot is inside the block when there was room for it. -/
theorem Inside.tryInsert (inside : table.Inside target) (room : table.Room target allocate)
    {description : FilePointer}
    (ran : table.tryInsert target allocate description = some (fd, after)) : after.Inside target := by
  rw [FileDescriptorTable.tryInsert] at ran
  split at ran
  · cases ran
    exact inside
  · next few =>
      have small : table.descriptors.vector.count + 1 < target.wordLimit := by
        have below : table.descriptors.vector.count ≤ intMax := Nat.not_lt.mp few
        rw [intMax] at below
        cases target <;> simp only [Target.wordLimit, Target.wordWidth] <;> omega
      split at ran
      · cases ran
        exact inside
      · next full =>
          rcases Option.bind_eq_some_iff.mp ran with ⟨⟨appended, descriptors⟩, appends, rest⟩
          rcases Buffer.append_cases appends with ⟨rfl, rfl, _⟩ | ⟨rfl, _, accepted, _⟩
          · cases rest
            exact inside
          · cases rest
            exact Buffer.append_inside small (room (Nat.not_lt.mp few) full (accepted small)) appends

/-- What others store behind the block is in none of the slots. -/
theorem StoredElsewhere.elements {before : FileDescriptorTable} (inside : before.Inside target)
    (elsewhere : StoredElsewhere target before after) :
    after.descriptors.vector.elements = before.descriptors.vector.elements := by
  rw [Vector.elements, Vector.elements, elsewhere.count]
  refine List.map_congr_left fun index member => elsewhere.inside index ?_
  have below : index + 1 ≤ before.length := List.mem_range.mp member
  exact Nat.le_trans (Nat.mul_le_mul_right _ below) inside

/-! ## Runs -/

variable {before : FileDescriptorTable} {act : DescriptorAct}

/-- Slots that are all inside the block. -/
structure Keeps (target : Target) (table : FileDescriptorTable) (slots : List (Option FilePointer)) :
    Prop where
  has : table.HasSlots slots
  inside : table.Inside target

/-- Each act does to the slots what it may do to the map. -/
theorem Keeps.step (keeps : before.Keeps target slots) (room : before.StoresInside target act)
    (step : before.DescriptorStep target act after) :
    Exists fun later => MapStep target (lookup slots) act (lookup later) ∧ after.Keeps target later := by
  rcases keeps with ⟨has, inside⟩
  cases act with
  | elsewhere =>
      have same := StoredElsewhere.elements inside step
      refine ⟨slots, .elsewhere, same.trans has, ?_⟩
      rw [Inside, FileDescriptorTable.length, step.count, step.block]
      exact inside
  | call call result =>
      cases call with
      | «open» fileTable filesAllocate allocate path mode created =>
          rcases Option.map_eq_some_iff.mp step with ⟨⟨fd, files, later⟩, ran, same⟩
          cases same
          rcases open_cases ran with ⟨_, rfl, rfl⟩ |
            ⟨description, opened, opens, ⟨inserts, rfl, _⟩ | ⟨inserts, valid, _⟩⟩
          · exact ⟨slots, .openFails _ _ _ _ _ _, has, inside⟩
          · rcases has.tryInsert inserts with ⟨_, rfl⟩ | ⟨index, wrong, _⟩
            · exact ⟨slots, .openFails _ _ _ _ _ _, has, inside⟩
            · exact absurd wrong (by omega)
          · rcases has.tryInsert inserts with
              ⟨failed, _⟩ | ⟨index, rfl, least, laterSlots, hasLater, changed⟩
            · exact absurd failed valid
            · have roomy := (room description opened opens).2
              refine ⟨laterSlots, ?_, hasLater, inside.tryInsert roomy inserts⟩
              rw [changed]
              exact .opens description opens allocate index least
      | dup allocate fd =>
          have ran : before.dup target allocate fd = some (result, after) := step
          have got := has.tryGet fd
          rcases dup_cases ran with ⟨held, rfl, rfl⟩ | ⟨description, held, inserts⟩
          · rw [held] at got
            exact ⟨slots, .dupBad _ _ got.symm, has, inside⟩
          · have roomy : before.Room target allocate := room (by rw [held]; simp)
            rw [held] at got
            rcases has.tryInsert inserts with
              ⟨rfl, rfl⟩ | ⟨index, rfl, least, later, hasLater, changed⟩
            · exact ⟨slots, .dupFails _ _, has, inside⟩
            · refine ⟨later, ?_, hasLater, inside.tryInsert roomy inserts⟩
              rw [changed]
              exact .dups _ _ _ _ got.symm least
      | close fileTable fd =>
          rcases Option.map_eq_some_iff.mp step with ⟨⟨code, files, later⟩, ran, same⟩
          cases same
          have got := has.tryGet fd
          rcases close_cases ran with ⟨held, rfl, _, rfl⟩ | ⟨description, held, _, rfl, rfl⟩
          · rw [held] at got
            exact ⟨slots, .closeBad _ _ got.symm, has, inside⟩
          · rw [held] at got
            have below : fd.toNat < slots.length := by
              rw [has.length]
              exact (tryGet_spec held).1
            refine ⟨_, ?_, has.setSlot _, inside⟩
            rw [lookup_set below]
            exact .closes _ _ _ got.symm

/-! ## Answers -/

/-- Why a call answers `-1`. -/
def Unobtainable (target : Target) (table : FileDescriptorTable) : DescriptorCall -> Prop
  | .open fileTable filesAllocate allocate path mode created =>
      (fileTable.open target filesAllocate path mode created).map Prod.fst = some none ∨
        table.Refuses target allocate
  | .dup allocate _ => table.Refuses target allocate
  | .close _ _ => False

/-- What a call closes is a description of the file table. -/
def Led (table : FileDescriptorTable) : DescriptorCall -> Prop
  | .close fileTable fd => forall pointer, table.tryGet fd = some pointer ->
      fileTable.descriptionAt pointer ≠ none
  | _ => True

theorem refuses_of_tryInsert {description : FilePointer}
    (ran : table.tryInsert target allocate description = some (-1, after)) :
    table.Refuses target allocate := by
  rcases tryInsert_cases ran with ⟨_, _, refuses⟩ | ⟨_, index, wrong, _⟩
  · exact refuses
  · exact absurd wrong (by omega)

theorem unobtainable_of_perform {call : DescriptorCall}
    (performed : before.performDescriptor target call = some (-1, after)) :
    before.Unobtainable target call := by
  cases call with
  | «open» fileTable filesAllocate allocate path mode created =>
      rcases Option.map_eq_some_iff.mp performed with ⟨⟨fd, files, later⟩, ran, same⟩
      cases same
      rcases open_cases ran with ⟨opens, _⟩ |
        ⟨description, opened, _, ⟨inserts, _⟩ | ⟨_, valid, _⟩⟩
      · exact .inl (by rw [opens]; rfl)
      · exact .inr (refuses_of_tryInsert inserts)
      · exact absurd rfl valid
  | dup allocate fd =>
      have ran : before.dup target allocate fd = some (-1, after) := performed
      rcases dup_cases ran with ⟨_, wrong, _⟩ | ⟨_, _, inserts⟩
      · cases wrong
      · exact refuses_of_tryInsert inserts
  | close fileTable fd =>
      rcases Option.map_eq_some_iff.mp performed with ⟨⟨code, files, later⟩, ran, same⟩
      cases same
      rcases close_cases ran with ⟨_, wrong, _⟩ | ⟨_, _, _, wrong, _⟩
      · cases wrong
      · cases wrong

theorem tryInsert_total (target : Target) (allocate : Nat -> Allocation) (table : FileDescriptorTable)
    (description : FilePointer) :
    Exists fun answer => table.tryInsert target allocate description = some answer := by
  rw [FileDescriptorTable.tryInsert]
  split
  · exact ⟨_, rfl⟩
  · split
    · exact ⟨_, rfl⟩
    · rcases Buffer.append_total target (pointerSize target) allocate table.descriptors
        (some description) with ⟨⟨appended, descriptors⟩, appends⟩
      rw [appends]
      cases appended with
      | false => exact ⟨_, rfl⟩
      | true => exact ⟨_, rfl⟩

/-- No call goes wrong, as long as what is closed is a description. -/
theorem perform_total (target : Target) (table : FileDescriptorTable) {call : DescriptorCall}
    (led : table.Led call) : Exists fun answer => table.performDescriptor target call = some answer := by
  cases call with
  | «open» fileTable filesAllocate allocate path mode created =>
      have opened : Exists fun answer =>
          table.open target filesAllocate allocate fileTable path mode created = some answer := by
        rw [FileDescriptorTable.open]
        rcases FileTable.open_total target filesAllocate fileTable path mode created with
          ⟨⟨made, files⟩, opens⟩
        rw [opens, Option.bind_eq_bind, Option.bind_some]
        cases made with
        | none => exact ⟨_, rfl⟩
        | some description =>
            rcases tryInsert_total target allocate table description with ⟨⟨fd, later⟩, inserts⟩
            have leads := FileTable.led_of_open opens
            rcases Option.isSome_iff_exists.mp leads with ⟨found, led⟩
            dsimp only
            rw [inserts, Option.bind_eq_bind, Option.bind_some]
            split
            · rw [FileTable.close, led]
              exact ⟨_, rfl⟩
            · exact ⟨_, rfl⟩
      rcases opened with ⟨answer, ran⟩
      exact ⟨_, Option.map_eq_some_iff.mpr ⟨answer, ran, rfl⟩⟩
  | dup allocate fd =>
      rw [performDescriptor, FileDescriptorTable.dup]
      split
      · exact ⟨_, rfl⟩
      · exact tryInsert_total target allocate table _
  | close fileTable fd =>
      rw [performDescriptor, FileDescriptorTable.close]
      cases held : table.tryGet fd with
      | none => exact ⟨_, rfl⟩
      | some pointer =>
          rcases Option.ne_none_iff_exists'.mp (led pointer held) with ⟨description, found⟩
          dsimp only
          rw [FileTable.close, found]
          exact ⟨_, rfl⟩

/-- As long as no description and no descriptor is stored behind the end of a block, whatever
is opened, duplicated and closed, and whatever others do in between, the calls and their
answers are a run of the map, which the table holds; and every call answers, with `-1`
only when no number is to be had. -/
theorem refines_map {acts : List DescriptorAct}
    (reached : Reaches (guarded (DescriptorStep target) (StoresInside target)) empty acts table) :
    (Exists fun map => Reaches (MapStep target) (fun _ => none) acts map ∧ (free map)ᶜ.Finite ∧
      forall fd, table.tryGet fd = heldAt map fd) ∧
    forall call, table.Led call -> Exists fun result => Exists fun after =>
      table.DescriptorStep target (.call call result) after ∧
        (result = -1 -> table.Unobtainable target call) := by
  constructor
  · have start : empty.Keeps target [] := ⟨rfl, Nat.le_of_eq (Nat.zero_mul _)⟩
    have related := reached.simulated (fun table map => Exists fun slots =>
      table.Keeps target slots ∧ map = lookup slots) ⟨[], start, rfl⟩
      fun before act after map holds step => by
        rcases holds with ⟨slots, keeps, rfl⟩
        rcases keeps.step step.1 step.2 with ⟨later, stepped, keepsLater⟩
        exact ⟨lookup later, stepped, later, keepsLater, rfl⟩
    rcases related with ⟨map, run, slots, keeps, rfl⟩
    exact ⟨lookup slots, run, finite_taken slots, keeps.has.tryGet⟩
  · intro call led
    rcases perform_total target table led with ⟨⟨result, after⟩, ran⟩
    refine ⟨result, after, ran, ?_⟩
    rintro rfl
    exact unobtainable_of_perform ran

/-- A file table with one description. -/
def oneFile : FileTable where
  files :=
    { vector :=
        { count := 1, capacity := 192, contents := 65536
          slots := fun index =>
            if index = 0 then some { file := .DevNullFile, mode := .Read } else none }
      block := ⟨65536, 192⟩
      generation := 1 }

/-- The calls of a task that opens two files, closes the first and opens another. -/
def openNew : DescriptorCall :=
  .open FileTable.empty (blockAt 65536) (blockAt 131072) "/dev/null" .Read true

def openNext : DescriptorCall :=
  .open oneFile (blockAt 65536) (blockAt 131072) "/dev/zero" .Read true

/-- Two files are opened and the first is closed, while others store what they like; the next
file gets its number. -/
theorem refines_map_reused : Exists fun table => Exists fun map =>
    Reaches (guarded (DescriptorStep .aarch64) (StoresInside .aarch64)) empty
      [.call openNext 0, .call (.close oneFile 0) 0, .elsewhere, .call openNext 1, .call openNew 0]
      table ∧
    Reaches (MapStep .aarch64) (fun _ => none)
      [.call openNext 0, .call (.close oneFile 0) 0, .elsewhere, .call openNext 1, .call openNew 0]
      map ∧
    forall fd, table.tryGet fd = heldAt map fd := by
  have opensFirst : StoresInside .aarch64 empty (.call openNew 0) := by
    intro _ _ _
    constructor
    · rw [Buffer.HasRoom, if_neg (by decide)]
      intro bytes requested
      cases Option.some.inj requested
      decide
    · intro _ _ _
      rw [Buffer.HasRoom, if_neg (by decide)]
      intro bytes requested
      cases Option.some.inj requested
      decide
  have filesRoom : Buffer.HasRoom .aarch64 (descriptionSize .aarch64) (blockAt 65536) oneFile.files := by
    rw [Buffer.HasRoom, if_pos (by decide)]
    decide
  have first : Reaches (guarded (DescriptorStep .aarch64) (StoresInside .aarch64)) empty
      [.call openNew 0] _ := .tail .refl ⟨opensFirst, rfl⟩
  have second : Reaches (guarded (DescriptorStep .aarch64) (StoresInside .aarch64)) empty
      [.call openNext 1, .call openNew 0] _ :=
    .tail first ⟨fun _ _ _ => ⟨filesRoom, fun _ _ _ => by
      rw [Buffer.HasRoom, if_pos (by decide)]
      decide⟩, rfl⟩
  have third : Reaches (guarded (DescriptorStep .aarch64) (StoresInside .aarch64)) empty
      [.elsewhere, .call openNext 1, .call openNew 0] _ :=
    .tail second ⟨trivial, ⟨rfl, rfl, rfl, rfl, rfl, fun _ _ => rfl⟩⟩
  have fourth : Reaches (guarded (DescriptorStep .aarch64) (StoresInside .aarch64)) empty
      [.call (.close oneFile 0) 0, .elsewhere, .call openNext 1, .call openNew 0] _ :=
    .tail third ⟨trivial, rfl⟩
  have fifth : Reaches (guarded (DescriptorStep .aarch64) (StoresInside .aarch64)) empty
      [.call openNext 0, .call (.close oneFile 0) 0, .elsewhere, .call openNext 1, .call openNew 0] _ :=
    .tail fourth ⟨fun _ _ _ => ⟨filesRoom, fun _ full => by cases full⟩, rfl⟩
  rcases (refines_map fifth).1 with ⟨map, run, _, same⟩
  exact ⟨_, map, fifth, run, same⟩

/-! ## The descriptor that is one too many -/

/-- A heap of one page. -/
def pageHeap : IntrusiveFreeList :=
  IntrusiveFreeList.empty.add .aarch64 65536 pageSize

/-- Its allocator, for one call. -/
def pageAllocate (requested : Nat) : Allocation :=
  (pageHeap.allocate .aarch64 requested).1

/-- A file is opened and its descriptor duplicated, a number of times. -/
def duplicates : Nat -> List DescriptorAct
  | 0 => [.call (.open FileTable.empty (blockAt 131072) pageAllocate "/dev/null" .Read true) 0]
  | more + 1 => .call (.dup pageAllocate 0) (more + 1 : Nat) :: duplicates more

/-- The first descriptors hold one description, in a vector that takes its 64 bytes for 64
descriptors. -/
structure Duplicated (number : Nat) (table : FileDescriptorTable) : Prop where
  count : table.descriptors.vector.count = number
  capacity : table.descriptors.vector.capacity = 64
  block : table.descriptors.block = ⟨65568, 64⟩
  slots : forall index, index < number -> table.descriptors.vector.slots index = some (some ⟨1, 0⟩)

theorem Duplicated.next {number : Nat} (duplicated : Duplicated number table) (some_ : 0 < number)
    (small : number < 64) : Exists fun after =>
      table.dup .aarch64 pageAllocate 0 = some ((number : Int), after) ∧
        Duplicated (number + 1) after := by
  have got : table.tryGet 0 = some ⟨1, 0⟩ := by
    have inside : ¬ table.length ≤ 0 := by
      rw [FileDescriptorTable.length, duplicated.count]
      exact Nat.not_le.mpr some_
    rw [FileDescriptorTable.tryGet, if_neg (by decide)]
    change (if table.length ≤ 0 then none else (table.descriptors.vector.slots 0).join) = _
    rw [if_neg inside, duplicated.slots 0 some_]
    rfl
  have full : table.firstNull = none := by
    apply List.find?_eq_none.mpr
    intro index member
    have below : index < table.descriptors.vector.count := List.mem_range.mp member
    rw [duplicated.count] at below
    rw [duplicated.slots index below]
    decide
  have few : ¬ intMax < table.length := by
    rw [FileDescriptorTable.length, duplicated.count, intMax]
    omega
  have room : (table.descriptors.vector.count + 1) % Target.aarch64.wordLimit ≤
      table.descriptors.vector.capacity := by
    rw [duplicated.count, duplicated.capacity]
    exact Nat.le_trans (Nat.mod_le _ _) small
  let vector := table.descriptors.vector.emplaceUnensured (some ⟨1, 0⟩)
  refine ⟨⟨{ table.descriptors with vector := vector }⟩, ?_, ?_, duplicated.capacity,
    duplicated.block, ?_⟩
  · have appends : table.descriptors.append .aarch64 (pointerSize .aarch64) pageAllocate
        (some ⟨1, 0⟩) = some (true, { table.descriptors with vector := vector }) := by
      simp [Buffer.append, Pine.Vector.append, Pine.Vector.ensure, room, vector,
        Pine.Vector.emplaceUnensured]
    rw [FileDescriptorTable.dup, got]
    dsimp only
    rw [FileDescriptorTable.tryInsert, if_neg few, full]
    simp [appends, vector, Pine.Vector.emplaceUnensured, duplicated.count]
  · exact congrArg (· + 1) duplicated.count
  · intro index below
    change Function.update table.descriptors.vector.slots table.descriptors.vector.count _ index = _
    rw [duplicated.count]
    rcases Nat.lt_succ_iff_lt_or_eq.mp below with old | rfl
    · rw [Function.update_of_ne (Nat.ne_of_lt old), duplicated.slots index old]
    · rw [Function.update_self]

theorem reaches_duplicates (more : Nat) (small : more < 64) : Exists fun table =>
    Reaches (DescriptorStep .aarch64) empty (duplicates more) table ∧ Duplicated (more + 1) table := by
  induction more with
  | zero =>
      have opened : Reaches (DescriptorStep .aarch64) empty (duplicates 0) _ := .tail .refl rfl
      refine ⟨_, opened, rfl, rfl, rfl, fun index below => ?_⟩
      rw [Nat.lt_one_iff.mp below]
      rfl
  | succ more inductionHypothesis =>
      rcases inductionHypothesis (Nat.lt_of_succ_lt small) with ⟨table, reached, duplicated⟩
      rcases duplicated.next (Nat.succ_pos more) small with ⟨after, ran, duplicatedAfter⟩
      exact ⟨after, .tail reached ran, duplicatedAfter⟩

/-- A number that was given out is in use. -/
theorem heldAt_of_dup {map later : Nat -> Option FilePointer} {source number : Int}
    (step : MapStep target map (.call (.dup allocate source) number) later) (valid : 0 < number) :
    heldAt later number ≠ none := by
  cases step with
  | dupBad _ _ absent => exact absurd valid (by decide)
  | dupFails => exact absurd valid (by decide)
  | dups description _ _ another =>
      rw [heldAt, if_neg (by omega), Int.toNat_natCast, Function.update_self]
      exact Option.some_ne_none description

/-- The ninth descriptor is stored behind the 64 bytes of the block, where the heap has the
header of its next free block.  When that is written, the descriptor is lost. -/
theorem descriptor_overwritten : Exists fun table =>
    Reaches (DescriptorStep .aarch64) empty (.elsewhere :: duplicates 8) table ∧
    table.descriptors.block = pageAllocate 64 ∧
    table.descriptors.block.ptr + 8 * (pointerSize .aarch64).bytes ∈
      (pageHeap.allocate .aarch64 64).2.freeList ∧
    table.tryGet 8 = none ∧
    ¬ Exists fun map => Reaches (MapStep .aarch64) (fun _ => none) (.elsewhere :: duplicates 8) map ∧
      forall fd, table.tryGet fd = heldAt map fd := by
  rcases reaches_duplicates 8 (by decide) with ⟨table, reached, duplicated⟩
  let vector := { table.descriptors.vector with
    slots := Function.update table.descriptors.vector.slots 8 (some none) }
  let overwritten : FileDescriptorTable := ⟨{ table.descriptors with vector := vector }⟩
  have elsewhere : StoredElsewhere .aarch64 table overwritten := by
    refine ⟨rfl, rfl, rfl, rfl, rfl, fun index inside => Function.update_of_ne ?_ _ _⟩
    rw [duplicated.block] at inside
    have width : (pointerSize .aarch64).bytes = 8 := rfl
    have size : (⟨65568, 64⟩ : Allocation).size = 64 := rfl
    rw [width, size] at inside
    omega
  have lost : overwritten.tryGet 8 = none := by
    have slot : overwritten.descriptors.vector.slots 8 = some none := by
      change Function.update table.descriptors.vector.slots 8 (some none) 8 = some none
      rw [Function.update_self]
    rw [FileDescriptorTable.tryGet, if_neg (by decide)]
    split
    · rfl
    · change (overwritten.descriptors.vector.slots 8).join = none
      rw [slot]
      rfl
  refine ⟨overwritten, .tail reached elsewhere, duplicated.block, ?_, lost, ?_⟩
  · rw [show overwritten.descriptors.block = ⟨65568, 64⟩ from duplicated.block]
    decide
  · rintro ⟨map, run, same⟩
    cases run with
    | tail earlier last =>
        cases last
        cases earlier with
        | tail _ duplicating =>
            exact heldAt_of_dup duplicating (by decide) ((same 8).symm.trans lost)

end FileDescriptorTable

end Kernel
end Pinyon
