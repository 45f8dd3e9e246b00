import Pinyon.Kernel.FileReferences

namespace Pinyon
namespace Kernel

open Library Pine

/-!
# Where descriptors point to

A descriptor is a pointer into the vector of all descriptions.  When that vector
grows its elements move, and every descriptor there is points to what the vector
has given back.  Its capacity lets it grow only after descriptions were stored behind
the end of its block, so that in the runs in which nothing is stored there the
descriptions stay where they are.
-/

namespace FileTable

variable {target : Target} {allocate : Nat -> Allocation} {table after : FileTable}
variable {pointer : FilePointer} {path : String} {mode : FileMode} {created : Bool}

/-- An open makes a description, and the others move to make room for it. -/
def Grows (target : Target) (allocate : Nat -> Allocation) (table : FileTable) (path : String)
    (created : Bool) : Prop :=
  (File.ofPath path).isSome = true ∧ created = true ∧
    Buffer.Grows target (descriptionSize target) allocate table.files

/-- How many descriptions have been made. -/
def count (table : FileTable) : Nat :=
  table.files.vector.count

theorem open_cases {made : Option FilePointer}
    (ran : table.open target allocate path mode created = some (made, after)) :
    made = none ∧ after = table ∧ ¬ table.Grows target allocate path created ∨
      made = some ⟨after.files.generation, table.count⟩ ∧ after.count = table.count + 1 ∧
        (¬ table.Grows target allocate path created ∧
            after.files.generation = table.files.generation ∨
          table.Grows target allocate path created ∧
            after.files.generation = table.files.generation + 1) := by
  rw [FileTable.open] at ran
  split at ran
  next unnamed =>
      cases Option.some.inj ran
      exact .inl ⟨rfl, rfl, fun grows => absurd grows.1 (by simp [unnamed])⟩
  next file named =>
      split at ran
      next missing =>
          cases Option.some.inj ran
          exact .inl ⟨rfl, rfl, fun grows => absurd (missing.symm.trans grows.2.1) (by decide)⟩
      next memory =>
          rcases Option.bind_eq_some_iff.mp ran with ⟨⟨appended, files⟩, appends, rest⟩
          rcases Buffer.append_cases appends with ⟨rfl, rfl, stays, _⟩ | ⟨rfl, elements, _, moves⟩
          · simp only [Bool.false_eq_true, if_false] at rest
            cases Option.some.inj rest
            exact .inl ⟨rfl, rfl, fun grows => stays grows.2.2⟩
          · simp only [if_true] at rest
            cases Option.some.inj rest
            have counted : files.vector.count = table.files.vector.count + 1 := by
              rw [← Vector.length_elements, elements, List.length_append, Vector.length_elements]
              rfl
            refine .inr ⟨by rw [counted]; rfl, counted, ?_⟩
            rcases moves with ⟨stays, same⟩ | ⟨grows, more⟩
            · exact .inl ⟨fun all => stays all.2.2, same⟩
            · exact .inr ⟨⟨by rw [named]; rfl, by simpa using memory, grows⟩, more⟩

theorem open_total (target : Target) (allocate : Nat -> Allocation) (table : FileTable)
    (path : String) (mode : FileMode) (created : Bool) :
    Exists fun answer => table.open target allocate path mode created = some answer := by
  rw [FileTable.open]
  split
  · exact ⟨_, rfl⟩
  · split
    · exact ⟨_, rfl⟩
    · rcases table.files.append_total target (descriptionSize target) allocate _ with
        ⟨⟨appended, files⟩, appends⟩
      rw [appends]
      cases appended with
      | false => exact ⟨_, rfl⟩
      | true => exact ⟨_, rfl⟩

/-- What an open returns leads to a description. -/
theorem led_of_open (ran : table.open target allocate path mode created = some (some pointer, after)) :
    (after.descriptionAt pointer).isSome = true := by
  rw [FileTable.open] at ran
  split at ran
  next => cases ran
  next file named =>
      split at ran
      next => cases ran
      next =>
          rcases Option.bind_eq_some_iff.mp ran with ⟨⟨appended, files⟩, appends, rest⟩
          rcases Buffer.append_cases appends with ⟨rfl, _⟩ | ⟨rfl, elements, _⟩
          · cases rest
          · cases rest
            have counted : files.vector.count = table.files.vector.count + 1 := by
              rw [← Vector.length_elements, elements, List.length_append, Vector.length_elements]
              rfl
            have last : files.vector.elements[files.vector.count - 1]? =
                some (some { file := file, mode := mode }) := by
              rw [elements, counted, Nat.add_sub_cancel, ← Vector.length_elements,
                List.getElem?_concat_length]
            exact Option.isSome_iff_exists.mpr ⟨_, descriptionAt_eq_some.mpr ⟨rfl, last⟩⟩

/-- Descriptions that are all inside their block do not move to another. -/
theorem count_of_grows (sound : Buffer.Sound target (descriptionSize target) table.files)
    (grows : table.Grows target allocate path created) : table.count = 0 := by
  have short := grows.2.2.1
  rw [Nat.mod_eq_of_lt sound.count_small] at short
  exact sound.full_of_short (descriptionSize_wide target) short

/-- Pointers to the descriptions that were made lead to them. -/
def Complete (table : FileTable) : Prop :=
  forall number, number < table.count ->
    (table.descriptionAt ⟨table.files.generation, number⟩).isSome = true

theorem Leads.isSome {description : FileDescription} (leads : Leads table after pointer description)
    {other : FilePointer} (led : (table.descriptionAt other).isSome = true) :
    (after.descriptionAt other).isSome = true := by
  rw [leads other]
  split
  · rfl
  · exact led

/-- An open that stores nothing outside of the block returns. -/
theorem open_returns (sound : Buffer.Sound target (descriptionSize target) table.files)
    (complete : table.Complete) (serves : Serves target allocate) (path : String) (mode : FileMode)
    (created : Bool) (room : table.Makes target allocate path created ->
      Buffer.HasRoom target (descriptionSize target) allocate table.files) :
    Exists fun made => Exists fun after =>
      table.open target allocate path mode created = some (made, after) ∧
      Buffer.Sound target (descriptionSize target) after.files ∧ after.Complete ∧
      forall pointer, made = some pointer -> table.Makes target allocate path created ∧
        (after.descriptionAt pointer).isSome = true := by
  rcases open_spec sound serves path mode created room with
    failed | ⟨pointer, after, description, opened, makes, _, leads, _, _, later⟩
  · exact ⟨none, table, failed, sound, complete, fun _ wrong => by cases wrong⟩
  · have here := led_of_open opened
    rcases open_cases opened with ⟨wrong, _⟩ | ⟨place, counted, moves⟩
    · cases wrong
    · cases Option.some.inj place
      refine ⟨_, after, opened, later, fun number inside => ?_, fun other same => ?_⟩
      · rcases Nat.lt_succ_iff_lt_or_eq.mp (counted ▸ inside) with old | new
        · have stays : after.files.generation = table.files.generation := by
            rcases moves with ⟨_, same⟩ | ⟨grows, _⟩
            · exact same
            · have none := count_of_grows sound grows
              omega
          rw [stays]
          exact leads.isSome (complete number old)
        · rwa [new]
      · cases Option.some.inj same
        exact ⟨makes, here⟩

theorem close_returns (sound : Buffer.Sound target (descriptionSize target) table.files)
    (complete : table.Complete) (led : (table.descriptionAt pointer).isSome = true) :
    Exists fun after => table.close pointer = some after ∧
      Buffer.Sound target (descriptionSize target) after.files ∧ after.Complete := by
  rcases Option.isSome_iff_exists.mp led with ⟨description, found⟩
  have closes : Exists fun written => table.close pointer = some (table.write pointer written) := by
    rw [FileTable.close, found]
    exact ⟨_, rfl⟩
  rcases closes with ⟨written, closed⟩
  exact ⟨table.write pointer written, closed, ⟨sound.capacity, sound.inside, sound.bounded⟩,
    fun number inside => (leads_write found).isSome (complete number inside)⟩

/-- A close stays where it is. -/
theorem close_stays (ran : table.close pointer = some after) :
    after.files.generation = table.files.generation ∧ after.count = table.count := by
  rcases Option.bind_eq_some_iff.mp ran with ⟨description, _, rest⟩
  cases Option.some.inj rest
  exact ⟨rfl, rfl⟩

end FileTable

namespace FileDescriptorTable

variable {target : Target} {allocate : Nat -> Allocation} {table after : FileDescriptorTable}
variable {pointer held : FilePointer} {fd : Int} {index other : Nat}

/-- The descriptor holds the pointer. -/
def Holds (table : FileDescriptorTable) (index : Nat) (pointer : FilePointer) : Prop :=
  table.descriptors.vector.elements[index]? = some (some (some pointer))

/-- A descriptor that was null or not there holds the pointer, and the others hold
what they held. -/
structure Inserts (table after : FileDescriptorTable) (index : Nat) (pointer : FilePointer) :
    Prop where
  null : forall held, ¬ table.Holds index held
  holds : after.Holds index pointer
  others : forall other held, other ≠ index -> (after.Holds other held <-> table.Holds other held)

theorem holds_iff : table.Holds index pointer <->
    index < table.length ∧ table.descriptors.vector.slots index = some (some pointer) := by
  rw [Holds, Vector.elements, List.getElem?_map]
  by_cases inside : index < table.descriptors.vector.count
  · rw [List.getElem?_range inside]
    simp [length, inside]
  · rw [List.getElem?_eq_none (by simpa using inside)]
    simp [length, inside]

theorem tryGet_holds (got : table.tryGet fd = some pointer) : table.Holds fd.toNat pointer :=
  holds_iff.mpr (tryGet_spec got)

theorem holds_setSlot_self (inside : index < table.length) (descriptor : Option FilePointer) :
    (table.setSlot index descriptor).Holds index pointer <-> descriptor = some pointer := by
  rw [holds_iff, setSlot]
  simp [length] at inside ⊢
  exact fun _ => inside

theorem holds_setSlot_of_ne (different : other ≠ index) (descriptor : Option FilePointer) :
    (table.setSlot index descriptor).Holds other held <-> table.Holds other held := by
  rw [Holds, setSlot_elements, List.getElem?_set_ne different.symm, Holds]

/-- An insertion changes nothing, because the table refuses, or it makes a
descriptor. -/
theorem tryInsert_cases (ran : table.tryInsert target allocate pointer = some (fd, after)) :
    fd = -1 ∧ after = table ∧ table.Refuses target allocate ∨
      ¬ table.Refuses target allocate ∧
        Exists fun index : Nat => fd = index ∧ table.Inserts after index pointer := by
  rw [tryInsert] at ran
  split at ran
  next many =>
      cases Option.some.inj ran
      exact .inl ⟨rfl, rfl, .inl many⟩
  next few =>
      have small : table.descriptors.vector.count + 1 < target.wordLimit := by
        have below : table.descriptors.vector.count ≤ intMax := Nat.not_lt.mp few
        rw [intMax] at below
        cases target <;> simp only [Target.wordLimit, Target.wordWidth] <;> omega
      split at ran
      next index first =>
          rcases firstNull_spec first with ⟨inside, null⟩
          cases Option.some.inj ran
          refine .inr ⟨?_, index, rfl, fun held holds => ?_, ?_, fun other held different => ?_⟩
          · rintro (many | ⟨full, _⟩)
            · exact few many
            · cases full.symm.trans first
          · cases null.symm.trans (holds_iff.mp holds).2
          · exact (holds_setSlot_self inside _).mpr rfl
          · exact holds_setSlot_of_ne different _
      next full =>
          rcases Option.bind_eq_some_iff.mp ran with ⟨⟨appended, descriptors⟩, appends, rest⟩
          rcases Buffer.append_cases appends with ⟨rfl, rfl, _, refused⟩ | ⟨rfl, elements, accepted, _⟩
          · simp only [Bool.false_eq_true, if_false] at rest
            cases Option.some.inj rest
            exact .inl ⟨rfl, rfl, .inr ⟨full, refused small⟩⟩
          · simp only [if_true] at rest
            cases Option.some.inj rest
            have length := table.descriptors.vector.length_elements
            have counted : descriptors.vector.count = table.descriptors.vector.count + 1 := by
              rw [← Vector.length_elements, elements, List.length_append, length]
              rfl
            refine .inr ⟨?_, table.descriptors.vector.count, by rw [counted]; simp,
              fun held holds => ?_, ?_, fun other held different => ?_⟩
            · rintro (many | ⟨_, refused⟩)
              · exact few many
              · exact refused (accepted small)
            · rw [Holds, List.getElem?_eq_none (Nat.le_of_eq length)] at holds
              cases holds
            · rw [Holds]
              simp only [elements]
              rw [List.getElem?_append_right (Nat.le_of_eq length), length, Nat.sub_self]
              rfl
            · rw [Holds, Holds]
              simp only [elements]
              rcases Nat.lt_or_gt_of_ne different with less | greater
              · rw [List.getElem?_append_left (by omega)]
              · rw [List.getElem?_eq_none (by simp; omega), List.getElem?_eq_none (by omega)]

/-- An insertion that stores nothing outside of the block returns. -/
theorem tryInsert_returns (sound : Buffer.Sound target (pointerSize target) table.descriptors)
    (serves : Serves target allocate) (room : table.Room target allocate) (pointer : FilePointer) :
    Exists fun fd => Exists fun after => table.tryInsert target allocate pointer = some (fd, after) ∧
      Buffer.Sound target (pointerSize target) after.descriptors := by
  by_cases refuses : table.Refuses target allocate
  · exact ⟨-1, table, tryInsert_refused sound refuses, sound⟩
  · rcases tryInsert_accepted sound serves refuses room pointer with
      ⟨fd, after, inserted, _, _, later⟩
    exact ⟨fd, after, inserted, later⟩

end FileDescriptorTable

/-! ## Calls on the table of files and on the tables of descriptors -/

/-- The tables, and for each descriptor of a task the number of the description
that it was opened for or duplicated from. -/
structure Descriptors where
  files : Files
  meant : Nat -> Nat -> Option Nat := fun _ _ => none

inductive PlaceCall where
  | openFile (allocate : Nat -> Allocation) (path : String) (mode : FileMode) (created : Bool)
  | closeFile (pointer : FilePointer)
  | table (call : FileCall)

/-- The allocators keep their promise. -/
def PlaceCall.Serving (target : Target) : PlaceCall -> Prop
  | openFile allocate _ _ _ => Serves target allocate
  | closeFile _ => True
  | table call => call.Serving target

namespace Descriptors

variable {target : Target} {before after : Descriptors} {call : PlaceCall}

def start (tasks : Nat) : Descriptors where
  files := Files.start tasks

def mean (before : Descriptors) (task : Nat) (fd : Int) (number : Option Nat) :
    Nat -> Nat -> Option Nat :=
  if 0 ≤ fd then
    Function.update before.meant task (Function.update (before.meant task) fd.toNat number)
  else before.meant

/-- What descriptors are meant for after a call that returned the given number. -/
def meantAfter (before : Descriptors) (result : Int) : FileCall -> Nat -> Nat -> Option Nat
  | .open task _ _ _ _ _ => before.mean task result (some before.files.fileTable.count)
  | .dup task _ fd =>
      match (before.files.tables[task]?).bind fun table => table.tryGet fd with
      | none => before.meant
      | some _ => before.mean task result (before.meant task fd.toNat)
  | .close _ _ => before.meant

def perform (target : Target) (before : Descriptors) : PlaceCall -> Option Descriptors
  | .openFile allocate path mode created => do
      let (_, fileTable) <- before.files.fileTable.open target allocate path mode created
      return { before with files := { before.files with fileTable := fileTable } }
  | .closeFile pointer => do
      let fileTable <- before.files.fileTable.close pointer
      return { before with files := { before.files with fileTable := fileTable } }
  | .table call => do
      let (result, files) <- before.files.perform target call
      return { files := files, meant := before.meantAfter result call }

def Step (target : Target) (before : Descriptors) (call : PlaceCall) (after : Descriptors) : Prop :=
  call.Serving target ∧ before.perform target call = some after

/-- The call is one of an existing task, or of a description that there is. -/
def Valid (before : Descriptors) : PlaceCall -> Prop
  | .openFile _ _ _ _ => True
  | .closeFile pointer => (before.files.fileTable.descriptionAt pointer).isSome = true
  | .table call => call.task < before.files.tables.length

/-- The descriptor of a task holds the pointer. -/
def Holds (descriptors : Descriptors) (task fd : Nat) (pointer : FilePointer) : Prop :=
  Exists fun table => descriptors.files.tables[task]? = some table ∧ table.Holds fd pointer

/-- Every descriptor that is not null points to where the description it is meant
for is stored at present. -/
def Designates (descriptors : Descriptors) : Prop :=
  forall task fd pointer, descriptors.Holds task fd pointer ->
    Exists fun number => descriptors.meant task fd = some number ∧
      number < descriptors.files.fileTable.count ∧
      pointer = ⟨descriptors.files.fileTable.files.generation, number⟩

/-- A description and a descriptor that a call makes are not stored behind the end of a
block. -/
def StoresInside (target : Target) (before : Descriptors) : PlaceCall -> Prop
  | .openFile allocate path _ created =>
      before.files.fileTable.Makes target allocate path created ->
        Buffer.HasRoom target (descriptionSize target) allocate before.files.fileTable.files
  | .closeFile _ => True
  | .table (.open task filesAllocate descriptorsAllocate path _ created) =>
      before.files.fileTable.Makes target filesAllocate path created ->
        Buffer.HasRoom target (descriptionSize target) filesAllocate before.files.fileTable.files ∧
          forall table, before.files.tables[task]? = some table ->
            table.Room target descriptorsAllocate
  | .table (.dup task allocate fd) => forall table pointer, before.files.tables[task]? = some table ->
      table.tryGet fd = some pointer -> table.Room target allocate
  | .table (.close _ _) => True

/-- An open moves the descriptions only when no descriptor is in use. -/
def MovesUnused (target : Target) (before : Descriptors) : PlaceCall -> Prop
  | .openFile allocate path _ created | .table (.open _ allocate _ path _ created) =>
      before.files.fileTable.Grows target allocate path created ->
        forall task fd pointer, ¬ before.Holds task fd pointer
  | _ => True

/-! ## One call -/

/-- A descriptor that holds a pointer held it before, or designates what it was
just made for. -/
def Follows (before after : Descriptors) : Prop :=
  forall task fd pointer, after.Holds task fd pointer ->
    before.Holds task fd pointer ∧ after.meant task fd = before.meant task fd ∨
      Exists fun number => after.meant task fd = some number ∧
        number < after.files.fileTable.count ∧
        pointer = ⟨after.files.fileTable.files.generation, number⟩

/-- A call that leaves the descriptions where they are. -/
theorem Designates.of_stays (designates : before.Designates) (follows : before.Follows after)
    (count : before.files.fileTable.count ≤ after.files.fileTable.count)
    (stays : after.files.fileTable.files.generation = before.files.fileTable.files.generation) :
    after.Designates := by
  intro task fd pointer holds
  rcases follows task fd pointer holds with ⟨held, same⟩ | fresh
  · rcases designates task fd pointer held with ⟨number, meant, inside, place⟩
    refine ⟨number, same.trans meant, Nat.lt_of_lt_of_le inside count, ?_⟩
    rw [stays]
    exact place
  · exact fresh

/-- A call that moves them. -/
theorem Designates.iff_of_grows (designates : before.Designates) (follows : before.Follows after)
    (keeps : forall task fd pointer, before.Holds task fd pointer -> after.Holds task fd pointer)
    (moves : after.files.fileTable.files.generation =
      before.files.fileTable.files.generation + 1) :
    after.Designates <-> forall task fd pointer, ¬ before.Holds task fd pointer := by
  constructor
  · intro still task fd pointer held
    rcases designates task fd pointer held with ⟨number, _, _, place⟩
    rcases still task fd pointer (keeps task fd pointer held) with ⟨other, _, _, moved⟩
    have generations := congrArg FilePointer.generation (place.symm.trans moved)
    simp only [moves] at generations
    omega
  · intro unused task fd pointer holds
    rcases follows task fd pointer holds with ⟨held, _⟩ | fresh
    · exact absurd held (unused task fd pointer)
    · exact fresh

/-- An open of the file table, together with what is done to the descriptors. -/
theorem Designates.iff_of_opens (designates : before.Designates) (follows : before.Follows after)
    (keeps : forall task fd pointer, before.Holds task fd pointer -> after.Holds task fd pointer)
    {grows : Prop}
    (moves : ¬ grows ∧ after.files.fileTable.files.generation =
          before.files.fileTable.files.generation ∨
      grows ∧ after.files.fileTable.files.generation =
          before.files.fileTable.files.generation + 1)
    (count : before.files.fileTable.count ≤ after.files.fileTable.count) :
    after.Designates <-> (grows -> forall task fd pointer, ¬ before.Holds task fd pointer) := by
  rcases moves with ⟨stays, same⟩ | ⟨grows, more⟩
  · exact ⟨fun _ wrong => absurd wrong stays, fun _ => designates.of_stays follows count same⟩
  · rw [designates.iff_of_grows follows keeps more]
    exact ⟨fun unused _ => unused, fun unused => unused grows⟩

theorem holds_update {task : Nat} {table later : FileDescriptorTable}
    (own : before.files.tables[task]? = some table) (fileTable : FileTable)
    (meant : Nat -> Nat -> Option Nat) (other fd : Nat) (pointer : FilePointer) :
    Holds { files := before.files.update task fileTable later, meant := meant } other fd pointer <->
      if other = task then later.Holds fd pointer else before.Holds other fd pointer := by
  rw [Holds]
  simp only [Files.update, List.getElem?_set]
  rcases List.getElem?_eq_some_iff.mp own with ⟨inside, _⟩
  by_cases same : other = task
  · subst same
    simp [inside]
  · simp [Ne.symm same, same, Holds]

/-- The descriptors are as they were. -/
theorem follows_of_same {files : Files} {meant : Nat -> Nat -> Option Nat}
    (same : forall task fd pointer, Holds { files := files, meant := meant } task fd pointer ->
      before.Holds task fd pointer)
    (sameMeant : meant = before.meant) : before.Follows { files := files, meant := meant } :=
  fun task fd pointer holds => .inl ⟨same task fd pointer holds, by rw [sameMeant]⟩

/-- One descriptor of a task was made for the description of the given number. -/
theorem follows_of_inserts {task index number : Nat} {table later : FileDescriptorTable}
    {fileTable : FileTable} (own : before.files.tables[task]? = some table)
    (inserts : table.Inserts later index ⟨fileTable.files.generation, number⟩)
    (inside : number < fileTable.count) :
    before.Follows { files := before.files.update task fileTable later
                     meant := before.mean task index (some number) } := by
  intro other fd pointer holds
  rw [holds_update own] at holds
  rw [mean, if_pos (Int.natCast_nonneg index), Int.toNat_natCast]
  simp only
  split at holds
  next same =>
      subst same
      rw [Function.update_self]
      by_cases here : fd = index
      · subst here
        have pointers := Option.some.inj (Option.some.inj (Option.some.inj
          (holds.symm.trans inserts.holds)))
        exact .inr ⟨number, Function.update_self .., inside, pointers⟩
      · have held := (inserts.others fd pointer here).mp holds
        exact .inl ⟨⟨table, own, held⟩, Function.update_of_ne here ..⟩
  next different =>
      rw [Function.update_of_ne different]
      exact .inl ⟨holds, rfl⟩

theorem keeps_of_inserts {task index : Nat} {table later : FileDescriptorTable}
    {pointer : FilePointer} (own : before.files.tables[task]? = some table)
    (inserts : table.Inserts later index pointer) (fileTable : FileTable)
    (meant : Nat -> Nat -> Option Nat) (other fd : Nat) (held : FilePointer)
    (holds : before.Holds other fd held) :
    Holds { files := before.files.update task fileTable later, meant := meant } other fd held := by
  rw [holds_update own]
  split
  next same =>
      subst same
      rcases holds with ⟨table', own', inner⟩
      cases Option.some.inj (own.symm.trans own')
      by_cases here : fd = index
      · subst here
        exact absurd inner (inserts.null held)
      · exact (inserts.others fd held here).mpr inner
  next => exact holds

theorem holds_update_same {task : Nat} {table : FileDescriptorTable}
    (own : before.files.tables[task]? = some table) (fileTable : FileTable)
    (meant : Nat -> Nat -> Option Nat) (other fd : Nat) (pointer : FilePointer) :
    Holds { files := before.files.update task fileTable table, meant := meant } other fd pointer <->
      before.Holds other fd pointer := by
  rw [holds_update own]
  split
  next same =>
      subst same
      constructor
      · exact fun holds => ⟨table, own, holds⟩
      · rintro ⟨other, own', holds⟩
        cases Option.some.inj (own.symm.trans own')
        exact holds
  next => rfl

/-- The table of one task has lost descriptors at most. -/
theorem follows_of_fewer {task : Nat} {table later : FileDescriptorTable}
    (own : before.files.tables[task]? = some table)
    (fewer : forall fd pointer, later.Holds fd pointer -> table.Holds fd pointer)
    (fileTable : FileTable) :
    before.Follows { files := before.files.update task fileTable later
                     meant := before.meant } := by
  refine follows_of_same (fun other fd pointer holds => ?_) rfl
  rw [holds_update own] at holds
  split at holds
  next same =>
      subst same
      exact ⟨table, own, fewer fd pointer holds⟩
  next => exact holds

theorem mean_refused (before : Descriptors) (task : Nat) (number : Option Nat) :
    before.mean task (-1) number = before.meant :=
  if_neg (by decide)

/-- A call keeps descriptors pointing to their descriptions just when it does not
move these while a descriptor is in use. -/
theorem Designates.perform_iff (designates : before.Designates)
    (step : before.perform target call = some after) :
    after.Designates <-> before.MovesUnused target call := by
  cases call with
  | openFile allocate path mode created =>
      rcases Option.bind_eq_some_iff.mp step with ⟨⟨made, fileTable⟩, opened, rest⟩
      cases Option.some.inj rest
      have follows : before.Follows { before with
          files := { before.files with fileTable := fileTable } } :=
        follows_of_same (fun _ _ _ holds => holds) rfl
      rcases FileTable.open_cases opened with ⟨_, rfl, stays⟩ | ⟨_, count, moves⟩
      · exact designates.iff_of_opens follows (fun _ _ _ holds => holds) (.inl ⟨stays, rfl⟩)
          (Nat.le_refl _)
      · exact designates.iff_of_opens follows (fun _ _ _ holds => holds) moves
          (by simp only [count]; exact Nat.le_succ _)
  | closeFile pointer =>
      rcases Option.bind_eq_some_iff.mp step with ⟨fileTable, closed, rest⟩
      cases Option.some.inj rest
      rcases FileTable.close_stays closed with ⟨generation, count⟩
      exact ⟨fun _ => trivial, fun _ => designates.of_stays
        (follows_of_same (fun _ _ _ holds => holds) rfl) (Nat.le_of_eq count.symm) generation⟩
  | table call =>
      rcases Option.bind_eq_some_iff.mp step with ⟨⟨result, files⟩, performed, rest⟩
      cases Option.some.inj rest
      cases call with
      | «open» task filesAllocate descriptorsAllocate path mode created =>
          rcases Option.bind_eq_some_iff.mp performed with ⟨table, own, inner⟩
          rcases Option.bind_eq_some_iff.mp inner with ⟨⟨fd, fileTable, later⟩, ran, done⟩
          cases Option.some.inj done
          rcases FileDescriptorTable.open_cases ran with
            ⟨opens, rfl, rfl⟩ | ⟨description, opened, opens, outcome⟩
          · rcases FileTable.open_cases opens with ⟨_, rfl, stays⟩ | ⟨wrong, _⟩
            · have same := holds_update_same own before.files.fileTable before.meant
              simp only [meantAfter, mean_refused]
              exact designates.iff_of_opens (follows_of_fewer own (fun _ _ holds => holds) _)
                (fun task fd pointer => (same task fd pointer).mpr) (.inl ⟨stays, rfl⟩) (Nat.le_refl _)
            · cases wrong
          · rcases FileTable.open_cases opens with ⟨wrong, _⟩ | ⟨made, count, moves⟩
            · cases wrong
            cases made
            rcases outcome with ⟨inserting, rfl, closed⟩ | ⟨inserting, valid, rfl⟩
            · rcases FileDescriptorTable.tryInsert_cases inserting with
                ⟨_, rfl, _⟩ | ⟨_, index, wrong, _⟩
              · rcases FileTable.close_stays closed with ⟨generation, sameCount⟩
                have same := holds_update_same own fileTable before.meant
                simp only [meantAfter, mean_refused]
                refine designates.iff_of_opens (follows_of_fewer own (fun _ _ holds => holds) _)
                  (fun task fd pointer => (same task fd pointer).mpr) ?_ ?_
                · simp only [Files.update, generation]
                  exact moves
                · simp only [Files.update, sameCount, count]
                  exact Nat.le_succ _
              · exact absurd wrong (by omega)
            · rcases FileDescriptorTable.tryInsert_cases inserting with
                ⟨rfl, _⟩ | ⟨_, index, rfl, inserts⟩
              · exact absurd rfl valid
              · simp only [meantAfter]
                refine designates.iff_of_opens (follows_of_inserts own inserts ?_)
                  (keeps_of_inserts own inserts _ _) moves ?_
                · rw [count]
                  exact Nat.lt_succ_self _
                · simp only [Files.update, count]
                  exact Nat.le_succ _
      | dup task allocate fd =>
          rcases Option.bind_eq_some_iff.mp performed with ⟨table, own, inner⟩
          rcases Option.bind_eq_some_iff.mp inner with ⟨⟨newFd, later⟩, ran, done⟩
          cases Option.some.inj done
          refine ⟨fun _ => trivial, fun _ => designates.of_stays ?_ (Nat.le_refl _) rfl⟩
          rcases FileDescriptorTable.dup_cases ran with ⟨got, rfl, rfl⟩ | ⟨pointer, got, inserting⟩
          · simp only [meantAfter, own, Option.bind_some, got]
            exact follows_of_fewer own (fun _ _ holds => holds) _
          · simp only [meantAfter, own, Option.bind_some, got]
            rcases FileDescriptorTable.tryInsert_cases inserting with
              ⟨rfl, rfl, _⟩ | ⟨_, index, rfl, inserts⟩
            · rw [mean_refused]
              exact follows_of_fewer own (fun _ _ holds => holds) _
            · have held : before.Holds task fd.toNat pointer :=
                ⟨table, own, FileDescriptorTable.tryGet_holds got⟩
              rcases designates task fd.toNat pointer held with ⟨number, meant, inside, rfl⟩
              rw [meant]
              exact follows_of_inserts own inserts inside
      | close task fd =>
          rcases Option.bind_eq_some_iff.mp performed with ⟨table, own, inner⟩
          rcases Option.bind_eq_some_iff.mp inner with ⟨⟨code, fileTable, later⟩, ran, done⟩
          cases Option.some.inj done
          refine ⟨fun _ => trivial, fun _ => ?_⟩
          rcases FileDescriptorTable.close_cases ran with
            ⟨_, rfl, rfl, rfl⟩ | ⟨pointer, got, closed, rfl, rfl⟩
          · exact designates.of_stays (follows_of_fewer own (fun _ _ holds => holds) _)
              (Nat.le_refl _) rfl
          · rcases FileTable.close_stays closed with ⟨generation, count⟩
            have inside := (FileDescriptorTable.tryGet_spec got).1
            refine designates.of_stays (follows_of_fewer own (fun index held holds => ?_) _)
              (Nat.le_of_eq count.symm) generation
            by_cases here : index = fd.toNat
            · subst here
              cases (FileDescriptorTable.holds_setSlot_self inside _).mp holds
            · exact (FileDescriptorTable.holds_setSlot_of_ne here _).mp holds

theorem designates_start (tasks : Nat) : (start tasks).Designates := by
  rintro task fd pointer ⟨table, own, holds⟩
  have empty : table = FileDescriptorTable.empty :=
    List.eq_of_mem_replicate (List.mem_of_getElem? own)
  subst empty
  cases holds

/-! ## Calls that store nothing behind the end of a block -/

/-- Nothing was stored behind the end of a block. -/
structure Stored (target : Target) (descriptors : Descriptors) : Prop where
  fileTable : Buffer.Sound target (descriptionSize target) descriptors.files.fileTable.files
  tables : forall table, table ∈ descriptors.files.tables ->
    Buffer.Sound target (pointerSize target) table.descriptors
  complete : descriptors.files.fileTable.Complete

/-- The invariant. -/
structure Sound (target : Target) (descriptors : Descriptors) : Prop
    extends Stored target descriptors where
  designates : descriptors.Designates

theorem Stored.movesUnused (stored : before.Stored target) (designates : before.Designates)
    (call : PlaceCall) : before.MovesUnused target call := by
  have unused {allocate : Nat -> Allocation} {path : String} {created : Bool}
      (grows : before.files.fileTable.Grows target allocate path created) (task fd : Nat)
      (pointer : FilePointer) : ¬ before.Holds task fd pointer := by
    intro holds
    rcases designates task fd pointer holds with ⟨number, _, inside, _⟩
    rw [FileTable.count_of_grows stored.fileTable grows] at inside
    exact Nat.not_lt_zero _ inside
  cases call with
  | openFile allocate path mode created => exact unused
  | closeFile pointer => trivial
  | table call =>
      cases call with
      | «open» task filesAllocate descriptorsAllocate path mode created => exact unused
      | dup task allocate fd => trivial
      | close task fd => trivial

theorem Stored.update (stored : before.Stored target) {task : Nat} {fileTable : FileTable}
    {later : FileDescriptorTable} {meant : Nat -> Nat -> Option Nat}
    (fileSound : Buffer.Sound target (descriptionSize target) fileTable.files)
    (complete : fileTable.Complete)
    (tableSound : Buffer.Sound target (pointerSize target) later.descriptors) :
    Stored target { files := before.files.update task fileTable later, meant := meant } where
  fileTable := fileSound
  complete := complete
  tables := fun table member => by
    rcases List.mem_or_eq_of_mem_set member with old | same
    · exact stored.tables table old
    · rw [same]
      exact tableSound

/-- A pointer that a descriptor holds leads to a description. -/
theorem Sound.led (sound : before.Sound target) {task fd : Nat} {pointer : FilePointer}
    (holds : before.Holds task fd pointer) :
    (before.files.fileTable.descriptionAt pointer).isSome = true := by
  rcases sound.designates task fd pointer holds with ⟨number, _, inside, rfl⟩
  exact sound.complete number inside

/-- The call returns, and has stored nothing behind the end of a block. -/
def Returns (target : Target) (before : Descriptors) (call : PlaceCall) : Prop :=
  Exists fun after => before.perform target call = some after ∧ Stored target after ∧
    after.files.tables.length = before.files.tables.length

section Returns

variable {task : Nat} {table : FileDescriptorTable} {allocate : Nat -> Allocation} {fd : Int}

/-- What a call of the table does is what comes of it. -/
theorem returns_of_table {call : FileCall} (result : Int) (files : Files)
    (performed : before.files.perform target call = some (result, files))
    (stored : forall meant, Stored target { files := files, meant := meant })
    (length : files.tables.length = before.files.tables.length) :
    before.Returns target (.table call) := by
  refine ⟨{ files := files, meant := before.meantAfter result call }, ?_, stored _, length⟩
  rw [perform, performed]
  rfl

theorem Sound.open_returns (sound : before.Sound target) {path : String} {mode : FileMode}
    {filesAllocate : Nat -> Allocation} {created : Bool}
    (own : before.files.tables[task]? = some table) (serves : Serves target filesAllocate)
    (servesTable : Serves target allocate)
    (inside : before.StoresInside target (.table (.open task filesAllocate allocate path mode created))) :
    before.Returns target (.table (.open task filesAllocate allocate path mode created)) := by
  have tableSound := sound.tables table (List.mem_of_getElem? own)
  rcases FileTable.open_returns sound.fileTable sound.complete serves path mode created
      (fun makes => (inside makes).1) with ⟨made, opened, opens, fileSound, complete, led⟩
  cases made with
  | none =>
      refine returns_of_table (-1) (before.files.update task opened table) ?_
        (fun _ => sound.toStored.update fileSound complete tableSound) List.length_set
      simp only [Files.perform, own, FileDescriptorTable.open, opens, Option.bind_eq_bind,
        Option.bind_some]
      rfl
  | some pointer =>
      rcases led pointer rfl with ⟨makes, leads⟩
      rcases FileDescriptorTable.tryInsert_returns tableSound servesTable ((inside makes).2 table own)
        pointer with ⟨newFd, later, inserted, laterSound⟩
      by_cases failed : newFd = -1
      · rcases FileTable.close_returns fileSound complete leads with
          ⟨closed, closes, closedSound, closedComplete⟩
        refine returns_of_table (-1) (before.files.update task closed later) ?_
          (fun _ => sound.toStored.update closedSound closedComplete laterSound) List.length_set
        simp only [Files.perform, own, FileDescriptorTable.open, opens, inserted, failed, closes,
          if_true, Option.bind_eq_bind, Option.bind_some]
        rfl
      · refine returns_of_table newFd (before.files.update task opened later) ?_
          (fun _ => sound.toStored.update fileSound complete laterSound) List.length_set
        simp only [Files.perform, own, FileDescriptorTable.open, opens, inserted, failed, if_false,
          Option.bind_eq_bind, Option.bind_some]
        rfl

theorem Sound.dup_returns (sound : before.Sound target)
    (own : before.files.tables[task]? = some table) (serves : Serves target allocate)
    (inside : before.StoresInside target (.table (.dup task allocate fd))) :
    before.Returns target (.table (.dup task allocate fd)) := by
  have tableSound := sound.tables table (List.mem_of_getElem? own)
  cases got : table.tryGet fd with
  | none =>
      refine returns_of_table (-Errno.EBADF.toInt)
        (before.files.update task before.files.fileTable table) ?_
        (fun _ => sound.toStored.update sound.fileTable sound.complete tableSound) List.length_set
      simp only [Files.perform, own, FileDescriptorTable.dup, got, Option.bind_eq_bind,
        Option.bind_some]
      rfl
  | some pointer =>
      rcases FileDescriptorTable.tryInsert_returns tableSound serves (inside table pointer own got)
        pointer with ⟨newFd, later, inserted, laterSound⟩
      refine returns_of_table newFd (before.files.update task before.files.fileTable later) ?_
        (fun _ => sound.toStored.update sound.fileTable sound.complete laterSound) List.length_set
      simp only [Files.perform, own, FileDescriptorTable.dup, got, inserted, Option.bind_eq_bind,
        Option.bind_some]
      rfl

theorem Sound.close_returns (sound : before.Sound target)
    (own : before.files.tables[task]? = some table) :
    before.Returns target (.table (.close task fd)) := by
  have tableSound := sound.tables table (List.mem_of_getElem? own)
  cases got : table.tryGet fd with
  | none =>
      refine returns_of_table (-Errno.EBADF.toInt)
        (before.files.update task before.files.fileTable table) ?_
        (fun _ => sound.toStored.update sound.fileTable sound.complete tableSound) List.length_set
      simp only [Files.perform, own, FileDescriptorTable.close, got, Option.bind_eq_bind,
        Option.bind_some]
      rfl
  | some pointer =>
      have leads := sound.led ⟨table, own, FileDescriptorTable.tryGet_holds got⟩
      rcases FileTable.close_returns sound.fileTable sound.complete leads with
        ⟨closed, closes, closedSound, complete⟩
      refine returns_of_table 0 (before.files.update task closed (table.setSlot fd.toNat none)) ?_
        (fun _ => sound.toStored.update closedSound complete
          (FileDescriptorTable.sound_setSlot tableSound none)) List.length_set
      simp only [Files.perform, own, FileDescriptorTable.close, got, closes, Option.bind_eq_bind,
        Option.bind_some]
      rfl

theorem Sound.returns (sound : before.Sound target) (valid : before.Valid call)
    (serving : call.Serving target) (inside : before.StoresInside target call) :
    before.Returns target call := by
  cases call with
  | openFile allocate path mode created =>
      rcases FileTable.open_returns sound.fileTable sound.complete serving path mode created inside with
        ⟨made, opened, opens, fileSound, complete, _⟩
      refine ⟨{ before with files := { before.files with fileTable := opened } }, ?_,
        ⟨fileSound, sound.tables, complete⟩, rfl⟩
      rw [perform, opens]
      rfl
  | closeFile pointer =>
      rcases FileTable.close_returns sound.fileTable sound.complete valid with
        ⟨closed, closes, fileSound, complete⟩
      refine ⟨{ before with files := { before.files with fileTable := closed } }, ?_,
        ⟨fileSound, sound.tables, complete⟩, rfl⟩
      rw [perform, closes]
      rfl
  | table call =>
      have own := List.getElem?_eq_getElem valid
      cases call with
      | «open» task filesAllocate descriptorsAllocate path mode created =>
          exact sound.open_returns own serving.1 serving.2 inside
      | dup task allocate fd => exact sound.dup_returns own serving inside
      | close task fd => exact sound.close_returns own

end Returns

/-- A call that has come back was a valid one. -/
theorem valid_of_perform (performed : before.perform target call = some after) : before.Valid call := by
  cases call with
  | openFile allocate path mode created => trivial
  | closeFile pointer =>
      rcases Option.bind_eq_some_iff.mp performed with ⟨_, closed, _⟩
      rcases Option.bind_eq_some_iff.mp closed with ⟨description, led, _⟩
      exact Option.isSome_iff_exists.mpr ⟨description, led⟩
  | table call =>
      rcases Option.bind_eq_some_iff.mp performed with ⟨_, ran, _⟩
      have owned : Exists fun table => before.files.tables[call.task]? = some table := by
        cases call with
        | «open» => exact (Option.bind_eq_some_iff.mp ran).imp fun _ both => both.1
        | dup => exact (Option.bind_eq_some_iff.mp ran).imp fun _ both => both.1
        | close => exact (Option.bind_eq_some_iff.mp ran).imp fun _ both => both.1
      rcases owned with ⟨table, own⟩
      exact (List.getElem?_eq_some_iff.mp own).1

theorem Sound.step (sound : before.Sound target) (inside : before.StoresInside target call)
    (step : before.Step target call after) : after.Sound target := by
  rcases step with ⟨serving, performed⟩
  rcases sound.returns (valid_of_perform performed) serving inside with ⟨other, returned, stored, _⟩
  cases Option.some.inj (returned.symm.trans performed)
  exact ⟨stored, (sound.designates.perform_iff performed).mpr
    (sound.toStored.movesUnused sound.designates call)⟩

theorem sound_start (target : Target) (tasks : Nat) : (start tasks).Sound target where
  fileTable := Buffer.sound_empty _ _
  complete := fun _ inside => absurd inside (Nat.not_lt_zero _)
  tables := fun table member => by
    rw [List.eq_of_mem_replicate member]
    exact Buffer.sound_empty _ _
  designates := designates_start tasks

/-- As long as no description and no descriptor is stored behind the end of a block, every
descriptor that is not null points to where the description it is meant for is stored at
present.  A call that goes on like this returns. -/
theorem designates_of_storesInside {tasks : Nat} {calls : List PlaceCall} {final : Descriptors}
    (reached : Reaches (guarded (Step target) (StoresInside target)) (start tasks) calls final) :
    final.Designates ∧ forall call, final.Valid call -> call.Serving target ->
      final.StoresInside target call -> Exists fun after => Step target final call after := by
  have sound := reached.guarded_invariant (Sound target) (sound_start target tasks)
    fun _ _ _ sound inside step => sound.step inside step
  refine ⟨sound.designates, fun call valid serving inside => ?_⟩
  rcases sound.returns valid serving inside with ⟨after, performed, _⟩
  exact ⟨after, serving, performed⟩

/-- A task opens a file, duplicates its descriptor and closes the first one. -/
theorem designates_of_storesInside_duplicated : Exists fun final =>
    Reaches (guarded (Step .aarch64) (StoresInside .aarch64)) (start 1)
      [.table (.close 0 0), .table (.dup 0 (Files.blockAt 196608) 0),
        .table (Files.openNull 0)] final ∧
    final.Holds 0 1 ⟨1, 0⟩ ∧ final.Designates := by
  have opensInside : (start 1).StoresInside .aarch64 (.table (Files.openNull 0)) := by
    intro _
    constructor
    · rw [Buffer.HasRoom, if_neg (by decide)]
      intro bytes requested
      cases Option.some.inj requested
      decide
    · intro table own _ _ _
      cases (Option.some.inj own : FileDescriptorTable.empty = table)
      rw [Buffer.HasRoom, if_neg (by decide)]
      intro bytes requested
      cases Option.some.inj requested
      decide
  have serves : Serves .aarch64 (Files.blockAt 196608) := Files.serves_blockAt _ (by decide)
  have opened : Reaches (guarded (Step .aarch64) (StoresInside .aarch64)) (start 1)
      [.table (Files.openNull 0)] _ :=
    .tail .refl ⟨opensInside, Files.serving_openNull 0, rfl⟩
  have duplicated : Reaches (guarded (Step .aarch64) (StoresInside .aarch64)) (start 1)
      [.table (.dup 0 (Files.blockAt 196608) 0), .table (Files.openNull 0)] _ :=
    .tail opened ⟨fun table pointer own _ => by
      cases Option.some.inj own
      intro _ _ _
      rw [Buffer.HasRoom, if_pos (by decide)]
      decide, serves, rfl⟩
  have run : Reaches (guarded (Step .aarch64) (StoresInside .aarch64)) (start 1)
      [.table (.close 0 0), .table (.dup 0 (Files.blockAt 196608) 0), .table (Files.openNull 0)] _ :=
    .tail duplicated ⟨trivial, trivial, rfl⟩
  exact ⟨_, run, ⟨_, rfl, rfl⟩, (designates_of_storesInside run).1⟩

/-! ## The file that is one too many -/

/-- An allocator with a megabyte of memory from the given place on. -/
def megabyteAt (place : Nat) (requested : Nat) : Allocation :=
  if requested ≤ 1048576 then ⟨place, requested⟩ else {}

theorem serves_megabyteAt {place : Nat} (small : place ≤ 1048576) :
    Serves .aarch64 (megabyteAt place) := by
  intro requested
  by_cases fits : requested ≤ 1048576
  · rw [megabyteAt, if_pos fits]
    refine .inr ⟨Nat.le_refl _, ?_⟩
    simp only [Target.wordLimit, Target.wordWidth]
    omega
  · rw [megabyteAt, if_neg fits]
    exact .inl rfl

/-- Another file is opened, without a descriptor. -/
def openAnother : PlaceCall :=
  .openFile (megabyteAt 1048576) "/dev/null" .Read true

/-- The first descriptor of the first task points to the first of a number of
descriptions, in a vector that takes its 192 bytes for 192 elements. -/
structure Opened (descriptors : Descriptors) (number : Nat) : Prop where
  holds : descriptors.Holds 0 0 ⟨1, 0⟩
  generation : descriptors.files.fileTable.files.generation = 1
  count : descriptors.files.fileTable.count = number
  capacity : descriptors.files.fileTable.files.vector.capacity = 192

theorem opened_first : Exists fun after =>
    Reaches (Step .aarch64) (start 1) [.table (Files.openNull 0)] after ∧ after.Opened 1 := by
  have reached : Reaches (Step .aarch64) (start 1) [.table (Files.openNull 0)] _ :=
    .tail .refl ⟨Files.serving_openNull 0, rfl⟩
  exact ⟨_, reached, ⟨_, rfl, rfl⟩, rfl, rfl, rfl⟩

/-- Within the capacity another description is stored behind the others. -/
theorem Opened.next {number : Nat} (opened : before.Opened number) (small : number < 192) :
    Exists fun after => Step .aarch64 before openAnother after ∧ after.Opened (number + 1) := by
  have room : (before.files.fileTable.files.vector.count + 1) % Target.aarch64.wordLimit ≤
      before.files.fileTable.files.vector.capacity := by
    have count : before.files.fileTable.files.vector.count = number := opened.count
    have wide : number + 1 < Target.aarch64.wordLimit := Nat.lt_trans (by omega : number + 1 < 193)
      (by decide)
    rw [count, Nat.mod_eq_of_lt wide, opened.capacity]
    exact small
  have fits : before.files.fileTable.open .aarch64 (megabyteAt 1048576) "/dev/null" .Read true =
      some (some ⟨before.files.fileTable.files.generation,
          before.files.fileTable.files.vector.count + 1 - 1⟩,
        { files := { before.files.fileTable.files with
            vector := before.files.fileTable.files.vector.emplaceUnensured
              { file := .DevNullFile, mode := .Read } } }) := by
    simp [FileTable.open, File.ofPath, Buffer.append, Pine.Vector.append, Pine.Vector.ensure, room,
      Pine.Vector.emplaceUnensured]
  refine ⟨{ before with files := { before.files with fileTable := { files :=
    { before.files.fileTable.files with
      vector := before.files.fileTable.files.vector.emplaceUnensured
        { file := .DevNullFile, mode := .Read } } } } }, ?_, ?_⟩
  · refine ⟨serves_megabyteAt (Nat.le_refl _), ?_⟩
    rw [openAnother, perform, fits]
    rfl
  · exact ⟨opened.holds, opened.generation, congrArg (· + 1) opened.count, opened.capacity⟩

theorem opened_many (more : Nat) (small : more < 192) : Exists fun after =>
    Reaches (Step .aarch64) (start 1)
      (List.replicate more openAnother ++ [.table (Files.openNull 0)]) after ∧
    after.Opened (more + 1) := by
  induction more with
  | zero => exact opened_first
  | succ more inductionHypothesis =>
      rcases inductionHypothesis (Nat.lt_of_succ_lt small) with ⟨middle, reached, opened⟩
      rcases opened.next small with ⟨after, step, openedMore⟩
      exact ⟨after, .tail reached step, openedMore⟩

/-- The 193rd description is too many for the vector, which moves and leaves the
first descriptor pointing to the block that it has given back. -/
theorem descriptor_left_behind : Exists fun after =>
    Reaches (Step .aarch64) (start 1)
      (List.replicate 192 openAnother ++ [.table (Files.openNull 0)]) after ∧
    after.Holds 0 0 ⟨1, 0⟩ ∧ after.files.fileTable.files.generation = 2 ∧ ¬ after.Designates := by
  rcases opened_many 191 (by decide) with ⟨before, reached, opened⟩
  have full : before.files.fileTable.files.vector.count = 192 := opened.count
  have ran : Exists fun made => Exists fun fileTable =>
      before.files.fileTable.open .aarch64 (megabyteAt 1048576) "/dev/null" .Read true =
        some (made, fileTable) := by
    have total := before.files.fileTable.files.vector.append_total .aarch64
      (descriptionSize .aarch64) (megabyteAt 1048576) { file := .DevNullFile, mode := .Read }
    rcases total with ⟨outcome, done⟩
    cases result : outcome.result with
    | false => simp [FileTable.open, File.ofPath, Buffer.append, done, result]
    | true => simp [FileTable.open, File.ofPath, Buffer.append, done, result]
  have grows : before.files.fileTable.Grows .aarch64 (megabyteAt 1048576) "/dev/null" true := by
    refine ⟨rfl, rfl, ?_, fun bytes requested => ?_⟩
    · rw [full, opened.capacity]
      decide
    · rw [full] at requested
      cases Option.some.inj requested
      decide
  rcases ran with ⟨made, fileTable, ran⟩
  have step : Step .aarch64 before openAnother
      { before with files := { before.files with fileTable := fileTable } } := by
    refine ⟨serves_megabyteAt (Nat.le_refl _), ?_⟩
    rw [openAnother, perform, ran]
    rfl
  have moved : fileTable.files.generation = 2 := by
    rcases FileTable.open_cases ran with ⟨_, _, stays⟩ | ⟨_, _, ⟨stays, _⟩ | ⟨_, more⟩⟩
    · exact absurd grows stays
    · exact absurd grows stays
    · rw [more, opened.generation]
  refine ⟨_, .tail reached step, opened.holds, moved, fun designates => ?_⟩
  rcases designates 0 0 ⟨1, 0⟩ opened.holds with ⟨number, _, _, place⟩
  have generations := congrArg FilePointer.generation place
  simp only [moved] at generations
  exact absurd generations (by decide)

end Descriptors

end Kernel
end Pinyon
