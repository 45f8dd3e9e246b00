import Pinyon.Library.History
import Pinyon.Kernel.File

namespace Pinyon
namespace Kernel

open Library Pine

/-!
# Who refers to a file description

The count of a description should be the number of descriptors that point to it,
over all tables.  Opening a file and closing a descriptor keep it so, and `dup`
does not: it makes a descriptor without counting it.

The file table is described by what its pointers lead to and a descriptor table
by how often it holds a pointer.  The operations are first proved to change
these two views at one pointer only.
-/

namespace FileTable

variable {target : Target} {allocate : Nat -> Allocation} {table after : FileTable}
variable {pointer : FilePointer} {description : FileDescription}

/-- One pointer has come to lead to the given description. -/
def Leads (table after : FileTable) (pointer : FilePointer) (description : FileDescription) : Prop :=
  forall other, after.descriptionAt other =
    if other = pointer then some description else table.descriptionAt other

theorem Leads.trans {middle : FileTable} {changed : FileDescription}
    (first : Leads table middle pointer description) (second : Leads middle after pointer changed) :
    Leads table after pointer changed := by
  intro other
  rw [second other, first other]
  by_cases same : other = pointer
  · rw [if_pos same, if_pos same]
  · rw [if_neg same, if_neg same, if_neg same]

theorem descriptionAt_eq_some : table.descriptionAt pointer = some description <->
    pointer.generation = table.files.generation ∧
      table.files.vector.elements[pointer.index]? = some (some description) := by
  rw [descriptionAt, Vector.elements, List.getElem?_map]
  by_cases inside : pointer.index < table.files.vector.count
  · rw [List.getElem?_range inside]
    by_cases same : pointer.generation = table.files.generation
    · simp [same, inside]
    · simp [same]
  · rw [List.getElem?_eq_none (by simpa using inside)]
    simp [inside]

theorem descriptionSize_wide (target : Target) : 1 < (descriptionSize target).bytes := by
  cases target <;> decide

/-- A description is added behind the others, which stay where they are unless
there are none. -/
theorem leads_append {files : Buffer FileDescription}
    (elements : files.vector.elements = table.files.vector.elements ++ [some description])
    (stays : 0 < table.files.vector.count -> files.generation = table.files.generation) :
    Leads table ⟨files⟩ ⟨files.generation, table.files.vector.count⟩ description := by
  intro other
  apply Option.ext
  intro found
  rw [descriptionAt_eq_some]
  dsimp only
  rw [elements]
  by_cases same : other = ⟨files.generation, table.files.vector.count⟩
  · rw [if_pos same, same]
    simp
  · rw [if_neg same, descriptionAt_eq_some]
    rcases Nat.lt_trichotomy other.index table.files.vector.count with before | behind | beyond
    · rw [List.getElem?_append_left (by simpa using before), stays (Nat.zero_lt_of_lt before)]
    · have elsewhere : other.generation ≠ files.generation := by
        intro generation
        exact same (by rw [← generation, ← behind])
      constructor
      · exact fun both => absurd both.1 elsewhere
      · intro both
        rw [List.getElem?_eq_none (by simp [behind])] at both
        exact absurd both.2 (by simp)
    · rw [List.getElem?_eq_none (by simpa using beyond),
        List.getElem?_eq_none (by simpa using Nat.le_of_lt beyond)]
      simp

theorem leads_write {written : FileDescription}
    (led : table.descriptionAt pointer = some description) :
    Leads table (table.write pointer written) pointer written := by
  intro other
  have inside : pointer.generation = table.files.generation ∧
      pointer.index < table.files.vector.count := by
    by_contra outside
    rw [descriptionAt, if_neg outside] at led
    exact absurd led (by simp)
  rw [descriptionAt, descriptionAt, write]
  by_cases same : other = pointer
  · rw [if_pos same, same]
    simp [inside]
  · rw [if_neg same]
    by_cases valid : other.generation = table.files.generation ∧ other.index < table.files.vector.count
    · have elsewhere : other.index ≠ pointer.index := by
        intro index
        apply same
        cases other
        cases pointer
        simp_all
      dsimp only
      rw [if_pos valid, if_pos valid, Function.update_of_ne elsewhere]
    · dsimp only
      rw [if_neg valid, if_neg valid]

/-- The path names a file, and there is memory for it and its description. -/
def Makes (target : Target) (allocate : Nat -> Allocation) (table : FileTable) (path : String)
    (created : Bool) : Prop :=
  (File.ofPath path).isSome = true ∧ created = true ∧
    Buffer.Accepts target (descriptionSize target) allocate table.files

/-- An open either changes nothing or makes a description that is counted once. -/
theorem open_spec (sound : Buffer.Sound target (descriptionSize target) table.files)
    (serves : Serves target allocate) (path : String) (mode : FileMode) (created : Bool)
    (room : table.Makes target allocate path created ->
      Buffer.HasRoom target (descriptionSize target) allocate table.files) :
    table.open target allocate path mode created = some (none, table) ∨
      Exists fun pointer => Exists fun after => Exists fun description =>
        table.open target allocate path mode created = some (some pointer, after) ∧
        table.Makes target allocate path created ∧
        table.descriptionAt pointer = none ∧ Leads table after pointer description ∧
        description.refCount = 1 ∧ description.destroyed = 0 ∧
        Buffer.Sound target (descriptionSize target) after.files := by
  cases named : File.ofPath path with
  | none => exact .inl (by simp [FileTable.open, named])
  | some file =>
      cases created with
      | false => exact .inl (by simp [FileTable.open, named])
      | true =>
          let made : FileDescription := { file := file, mode := mode }
          by_cases accepts : Buffer.Accepts target (descriptionSize target) allocate table.files
          · have makes : table.Makes target allocate path true :=
              ⟨by rw [named]; rfl, rfl, accepts⟩
            have accepted : Exists fun after =>
                table.files.append target (descriptionSize target) allocate made = some (true, after) ∧ _ :=
              sound.append_accepted serves accepts (room makes)
            rcases accepted with ⟨files, appended, later, elements, stays⟩
            have count : files.vector.count = table.files.vector.count + 1 := by
              rw [← Vector.length_elements, elements, List.length_append, Vector.length_elements]
              rfl
            have opened : table.open target allocate path mode true =
                some (some ⟨files.generation, table.files.vector.count⟩, ⟨files⟩) := by
              rw [FileTable.open, named]
              simp only [Bool.true_eq_false, if_false, made] at appended ⊢
              rw [appended]
              simp [count]
            refine .inr ⟨_, _, made, opened, makes, ?_, leads_append elements ?_, rfl, rfl, later⟩
            · rw [descriptionAt]
              exact if_neg fun inside => Nat.lt_irrefl _ inside.2
            · exact stays (descriptionSize_wide target)
          · have refused : table.files.append target (descriptionSize target) allocate made =
                some (false, table.files) := sound.append_refused accepts
            refine .inl ?_
            rw [FileTable.open, named]
            simp only [Bool.true_eq_false, if_false, made] at refused ⊢
            rw [refused]
            rfl

/-- A close takes one off the count, and destroys a description at zero. -/
theorem close_spec (sound : Buffer.Sound target (descriptionSize target) table.files)
    (led : table.descriptionAt pointer = some description) (counted : description.refCount = 1) :
    Exists fun after =>
      table.close pointer = some after ∧
      Leads table after pointer
        { description with refCount := 0, destroyed := description.destroyed + 1 } ∧
      Buffer.Sound target (descriptionSize target) after.files := by
  have spent : (description.refCount + (2 ^ 32 - 1)) % 2 ^ 32 = 0 := by
    rw [counted]
    rfl
  refine ⟨table.write pointer
    { description with refCount := 0, destroyed := description.destroyed + 1 }, ?_, ?_, ?_⟩
  · rw [FileTable.close, led]
    simp only [Option.bind_eq_bind, Option.bind_some, spent, if_true]
    rfl
  · exact leads_write led
  · exact ⟨sound.capacity, sound.inside, sound.bounded⟩

end FileTable

namespace FileDescriptorTable

variable {target : Target} {allocate : Nat -> Allocation} {table after : FileDescriptorTable}
variable {pointer : FilePointer} {fd : Int} {index : Nat}

/-- How many descriptors of the table point to a description. -/
def references (table : FileDescriptorTable) (pointer : FilePointer) : Nat :=
  table.descriptors.vector.elements.count (some (some pointer))

/-- The table has one descriptor more, which holds the pointer. -/
def Adds (table after : FileDescriptorTable) (pointer : FilePointer) : Prop :=
  forall other, after.references other =
    table.references other + if other = pointer then 1 else 0

/-- There is no descriptor to be had: too many are in use, or there is no memory
for another. -/
def Refuses (target : Target) (allocate : Nat -> Allocation) (table : FileDescriptorTable) : Prop :=
  intMax < table.length ∨ table.firstNull = none ∧
    ¬ Buffer.Accepts target (pointerSize target) allocate table.descriptors

/-- A new descriptor is not stored behind the end of the block. -/
def Room (target : Target) (allocate : Nat -> Allocation) (table : FileDescriptorTable) : Prop :=
  table.length ≤ intMax -> table.firstNull = none ->
    Buffer.Accepts target (pointerSize target) allocate table.descriptors ->
      Buffer.HasRoom target (pointerSize target) allocate table.descriptors

theorem setSlot_elements (table : FileDescriptorTable) (index : Nat) (descriptor : Option FilePointer) :
    (table.setSlot index descriptor).descriptors.vector.elements =
      table.descriptors.vector.elements.set index (some descriptor) := by
  apply List.ext_getElem
  · simp [setSlot]
  · intro position _ _
    by_cases same : position = index
    · subst same
      simp [Vector.elements, setSlot]
    · simp [Vector.elements, setSlot, same, Ne.symm same]

theorem sound_setSlot (sound : Buffer.Sound target (pointerSize target) table.descriptors)
    (descriptor : Option FilePointer) :
    Buffer.Sound target (pointerSize target) (table.setSlot index descriptor).descriptors :=
  ⟨sound.capacity, sound.inside, sound.bounded⟩

/-- Overwriting a descriptor trades what it held for what it holds now. -/
theorem references_setSlot {held : Option FilePointer} (inside : index < table.length)
    (holds : table.descriptors.vector.slots index = some held) (descriptor : Option FilePointer)
    (other : FilePointer) :
    (table.setSlot index descriptor).references other + (if held = some other then 1 else 0) =
      table.references other + if descriptor = some other then 1 else 0 := by
  have long : index < table.descriptors.vector.elements.length := by
    rw [Vector.length_elements]
    exact inside
  have here : table.descriptors.vector.elements[index] = some held := by
    simp [Vector.elements, holds]
  have present : held = some other -> 0 < table.references other := by
    intro same
    rw [references, List.count_pos_iff, ← same, ← here]
    exact List.getElem_mem long
  rw [references, setSlot_elements, List.count_set long, here, ← references]
  simp only [beq_iff_eq, Option.some.injEq]
  by_cases same : held = some other
  · have positive := present same
    rw [if_pos same]
    omega
  · rw [if_neg same]
    omega

theorem firstNull_spec (first : table.firstNull = some index) :
    index < table.length ∧ table.descriptors.vector.slots index = some none := by
  have inside := List.mem_of_find?_eq_some first
  have null := List.find?_some first
  exact ⟨List.mem_range.mp inside, of_decide_eq_true null⟩

theorem tryGet_spec (got : table.tryGet fd = some pointer) :
    fd.toNat < table.length ∧ table.descriptors.vector.slots fd.toNat = some (some pointer) := by
  unfold tryGet at got
  split at got
  · exact absurd got (by simp)
  · split at got
    · exact absurd got (by simp)
    · refine ⟨by omega, ?_⟩
      exact Option.join_eq_some_iff.mp got

/-- An insertion fails just when the table refuses, and adds a descriptor otherwise. -/
theorem tryInsert_refused (sound : Buffer.Sound target (pointerSize target) table.descriptors)
    (refuses : table.Refuses target allocate) :
    table.tryInsert target allocate pointer = some (-1, table) := by
  rcases refuses with many | ⟨full, refused⟩
  · exact if_pos many
  · have same : table.descriptors.append target (pointerSize target) allocate (some pointer) =
        some (false, table.descriptors) := sound.append_refused refused
    rw [tryInsert, full]
    simp only [same]
    split <;> rfl

theorem tryInsert_accepted (sound : Buffer.Sound target (pointerSize target) table.descriptors)
    (serves : Serves target allocate) (accepts : ¬ table.Refuses target allocate)
    (room : table.Room target allocate) (pointer : FilePointer) :
    Exists fun fd => Exists fun after =>
      table.tryInsert target allocate pointer = some (fd, after) ∧ fd ≠ -1 ∧
      Adds table after pointer ∧ Buffer.Sound target (pointerSize target) after.descriptors := by
  rw [Refuses, not_or, not_and, not_not] at accepts
  rcases accepts with ⟨few, finds⟩
  cases first : table.firstNull with
  | some index =>
      rcases firstNull_spec first with ⟨inside, null⟩
      refine ⟨index, table.setSlot index (some pointer), ?_, by omega, ?_, sound_setSlot sound _⟩
      · rw [tryInsert, if_neg few, first]
      · intro other
        have trade := references_setSlot inside null (some pointer) other
        simp only [reduceCtorEq, if_false, Nat.add_zero, Option.some.injEq] at trade
        rw [trade]
        simp only [eq_comm]
  | none =>
      have roomy := room (Nat.not_lt.mp few) first (finds first)
      have accepted : Exists fun after =>
          table.descriptors.append target (pointerSize target) allocate (some pointer) =
            some (true, after) ∧ _ := sound.append_accepted serves (finds first) roomy
      rcases accepted with ⟨descriptors, appended, later, elements, _⟩
      have count : descriptors.vector.count = table.descriptors.vector.count + 1 := by
        rw [← Vector.length_elements, elements, List.length_append, Vector.length_elements]
        rfl
      refine ⟨table.descriptors.vector.count, ⟨descriptors⟩, ?_, by omega, ?_, later⟩
      · rw [tryInsert, if_neg few, first]
        simp only [appended]
        simp [count]
      · intro other
        rw [references, references]
        dsimp only
        rw [elements, List.count_append, List.count_singleton]
        by_cases same : other = pointer
        · simp [same]
        · simp [same, Ne.symm same]

end FileDescriptorTable

/-! ## The file table and the tables of all tasks -/

structure Files where
  fileTable : FileTable
  tables : List FileDescriptorTable

/-- A call on the table of a task, with the allocators as they behave at that
moment.  `created` says whether there is memory for a new file. -/
inductive FileCall where
  | «open» (task : Nat) (filesAllocate descriptorsAllocate : Nat -> Allocation) (path : String)
      (mode : FileMode) (created : Bool)
  | dup (task : Nat) (allocate : Nat -> Allocation) (fd : Int)
  | close (task : Nat) (fd : Int)

namespace FileCall

def task : FileCall -> Nat
  | «open» task _ _ _ _ _ => task
  | dup task _ _ => task
  | close task _ => task

def Serving (target : Target) : FileCall -> Prop
  | «open» _ filesAllocate descriptorsAllocate _ _ _ =>
      Serves target filesAllocate ∧ Serves target descriptorsAllocate
  | dup _ allocate _ => Serves target allocate
  | close _ _ => True

end FileCall

namespace Files

variable {target : Target} {files after final : Files} {call : FileCall} {calls : List FileCall}
variable {fileTable : FileTable} {table : FileDescriptorTable} {pointer : FilePointer}
variable {description : FileDescription}

def start (tasks : Nat) : Files where
  fileTable := FileTable.empty
  tables := List.replicate tasks FileDescriptorTable.empty

/-- How many descriptors of all tables point to a description. -/
def references (files : Files) (pointer : FilePointer) : Nat :=
  (files.tables.map fun table => table.references pointer).sum

/-- The file table and the table of one task have changed. -/
def update (files : Files) (task : Nat) (fileTable : FileTable) (table : FileDescriptorTable) :
    Files where
  fileTable := fileTable
  tables := files.tables.set task table

def perform (target : Target) (files : Files) : FileCall -> Option (Int × Files)
  | .open task filesAllocate descriptorsAllocate path mode created => do
      let table <- files.tables[task]?
      let (fd, fileTable, table) <- table.open target filesAllocate descriptorsAllocate
        files.fileTable path mode created
      return (fd, files.update task fileTable table)
  | .dup task allocate fd => do
      let table <- files.tables[task]?
      let (fd, table) <- table.dup target allocate fd
      return (fd, files.update task files.fileTable table)
  | .close task fd => do
      let table <- files.tables[task]?
      let (result, fileTable, table) <- table.close files.fileTable fd
      return (result, files.update task fileTable table)

def Step (target : Target) (before : Files) (call : FileCall) (after : Files) : Prop :=
  call.Serving target ∧ Exists fun result => before.perform target call = some (result, after)

/-- Every description is counted as often as descriptors refer to it, is alive
while one does, and has been destroyed once when none does any more. -/
structure Referenced (files : Files) : Prop where
  counted : forall pointer description, files.fileTable.descriptionAt pointer = some description ->
    description.refCount = files.references pointer
  alive : forall pointer, files.references pointer ≠ 0 -> Exists fun description =>
    files.fileTable.descriptionAt pointer = some description ∧ description.destroyed = 0
  destroyedOnce : forall pointer description,
    files.fileTable.descriptionAt pointer = some description ->
      files.references pointer = 0 -> description.destroyed = 1

/-- No descriptor is duplicated, and an open that makes a description stores
neither it nor its descriptor behind the end of a block. -/
def Orderly (target : Target) (files : Files) : FileCall -> Prop
  | .open task filesAllocate descriptorsAllocate path _ created =>
      forall table, files.tables[task]? = some table ->
        files.fileTable.Makes target filesAllocate path created ->
          Buffer.HasRoom target (descriptionSize target) filesAllocate files.fileTable.files ∧
            table.Room target descriptorsAllocate
  | .dup task allocate fd =>
      forall table pointer, files.tables[task]? = some table -> table.tryGet fd = some pointer ->
        table.Refuses target allocate
  | .close _ _ => True

/-- The invariant of the orderly runs, in which no description is referred to twice. -/
structure Sound (target : Target) (files : Files) : Prop where
  referenced : Referenced files
  single : forall pointer, files.references pointer ≤ 1
  fileTable : Buffer.Sound target (descriptionSize target) files.fileTable.files
  tables : forall table, table ∈ files.tables ->
    Buffer.Sound target (pointerSize target) table.descriptors

theorem references_update {task : Nat} (own : files.tables[task]? = some table)
    (fileTable : FileTable) (later : FileDescriptorTable) (pointer : FilePointer) :
    (files.update task fileTable later).references pointer + table.references pointer =
      files.references pointer + later.references pointer := by
  simp only [references, update]
  generalize files.tables = tables at own ⊢
  induction tables generalizing task with
  | nil => exact absurd own (by simp)
  | cons first rest inductionHypothesis =>
      cases task with
      | zero =>
          rw [List.getElem?_cons_zero] at own
          cases Option.some.inj own
          simp only [List.set_cons_zero, List.map_cons, List.sum_cons]
          omega
      | succ task =>
          rw [List.getElem?_cons_succ] at own
          have tail := inductionHypothesis own
          simp only [List.set_cons_succ, List.map_cons, List.sum_cons]
          omega

theorem update_same {task : Nat} (own : files.tables[task]? = some table) :
    files.update task files.fileTable table = files := by
  rcases List.getElem?_eq_some_iff.mp own with ⟨inside, same⟩
  rw [update, ← same, List.set_getElem_self]

/-- One description has changed together with the number of its references. -/
theorem Sound.update (sound : Sound target files) {task : Nat} {later : FileDescriptorTable}
    (own : files.tables[task]? = some table)
    (leads : FileTable.Leads files.fileTable fileTable pointer description)
    (others : forall other, other ≠ pointer -> later.references other = table.references other)
    (counted : files.references pointer + later.references pointer =
      description.refCount + table.references pointer)
    (single : description.refCount ≤ 1)
    (destroyed : description.destroyed = 1 - description.refCount)
    (bufferSound : Buffer.Sound target (descriptionSize target) fileTable.files)
    (tableSound : Buffer.Sound target (pointerSize target) later.descriptors) :
    Sound target (files.update task fileTable later) := by
  have here : (files.update task fileTable later).references pointer = description.refCount := by
    have trade := references_update own fileTable later pointer
    omega
  have elsewhere : forall other, other ≠ pointer ->
      (files.update task fileTable later).references other = files.references other := by
    intro other apart
    have trade := references_update own fileTable later other
    have same := others other apart
    omega
  refine ⟨⟨?_, ?_, ?_⟩, ?_, bufferSound, ?_⟩
  · intro other found led
    have view := (leads other).symm.trans led
    by_cases same : other = pointer
    · rw [if_pos same] at view
      cases Option.some.inj view
      rw [same, here]
    · rw [if_neg same] at view
      rw [elsewhere other same]
      exact sound.referenced.counted other found view
  · intro other referred
    have view := leads other
    by_cases same : other = pointer
    · rw [if_pos same] at view
      rw [same, here] at referred
      exact ⟨description, view, by omega⟩
    · rw [if_neg same] at view
      rw [elsewhere other same] at referred
      rcases sound.referenced.alive other referred with ⟨found, led, alive⟩
      exact ⟨found, view.trans led, alive⟩
  · intro other found led gone
    have view := (leads other).symm.trans led
    by_cases same : other = pointer
    · rw [if_pos same] at view
      cases Option.some.inj view
      rw [same, here] at gone
      omega
    · rw [if_neg same] at view
      rw [elsewhere other same] at gone
      exact sound.referenced.destroyedOnce other found view gone
  · intro other
    by_cases same : other = pointer
    · rw [same, here]
      exact single
    · rw [elsewhere other same]
      exact sound.single other
  · intro other member
    rcases List.mem_or_eq_of_mem_set member with old | same
    · exact sound.tables other old
    · rw [same]
      exact tableSound

/-- What every orderly call does: it returns, and in a sound state. -/
def Returns (target : Target) (files : Files) (call : FileCall) : Prop :=
  Exists fun result => Exists fun after =>
    files.perform target call = some (result, after) ∧ Sound target after ∧
      after.tables.length = files.tables.length

theorem Sound.open (sound : Sound target files) {task : Nat}
    {filesAllocate descriptorsAllocate : Nat -> Allocation} {path : String} {mode : FileMode}
    {created : Bool} (own : files.tables[task]? = some table)
    (serves : Serves target filesAllocate) (servesTable : Serves target descriptorsAllocate)
    (orderly : Orderly target files
      (.open task filesAllocate descriptorsAllocate path mode created)) :
    Returns target files (.open task filesAllocate descriptorsAllocate path mode created) := by
  have tableSound := sound.tables table (List.mem_of_getElem? own)
  have room := orderly table own
  rcases FileTable.open_spec sound.fileTable serves path mode created fun makes => (room makes).1 with
    failed | ⟨pointer, fileTable, description, opened, makes, fresh, leads, one, alive, fileSound⟩
  · refine ⟨-1, files, ?_, sound, rfl⟩
    simp only [perform, own, FileDescriptorTable.open, failed, Option.bind_eq_bind, Option.bind_some]
    exact congrArg (fun files => some (-1, files)) (update_same own)
  · have unreferred : files.references pointer = 0 := by
      by_contra referred
      rcases sound.referenced.alive pointer referred with ⟨found, led, _⟩
      exact absurd (fresh.symm.trans led) (by simp)
    by_cases refuses : table.Refuses target descriptorsAllocate
    · have inserted : table.tryInsert target descriptorsAllocate pointer = some (-1, table) :=
        FileDescriptorTable.tryInsert_refused tableSound refuses
      have led : fileTable.descriptionAt pointer = some description :=
        (leads pointer).trans (if_pos rfl)
      rcases FileTable.close_spec fileSound led one with ⟨closedTable, closed, unleads, closedSound⟩
      refine ⟨-1, files.update task closedTable table, ?_,
        sound.update own (leads.trans unleads) (fun _ _ => rfl) ?_ (Nat.zero_le _) ?_ closedSound
          tableSound, List.length_set⟩
      · simp only [perform, own, FileDescriptorTable.open, opened, inserted, closed,
          Option.bind_eq_bind, Option.bind_some]
        rfl
      · dsimp only
        omega
      · dsimp only
        omega
    · rcases FileDescriptorTable.tryInsert_accepted tableSound servesTable refuses
        (room makes).2 pointer with ⟨fd, later, inserted, valid, adds, laterSound⟩
      refine ⟨fd, files.update task fileTable later, ?_,
        sound.update own leads (fun other apart => ?_) ?_ (Nat.le_of_eq one) ?_ fileSound laterSound,
        List.length_set⟩
      · simp only [perform, own, FileDescriptorTable.open, opened, inserted, valid, if_false,
          Option.bind_eq_bind, Option.bind_some]
        rfl
      · exact (adds other).trans (by rw [if_neg apart, Nat.add_zero])
      · have more := adds pointer
        rw [if_pos rfl] at more
        omega
      · omega

theorem Sound.dup (sound : Sound target files) {task : Nat} {allocate : Nat -> Allocation} {fd : Int}
    (own : files.tables[task]? = some table) (orderly : Orderly target files (.dup task allocate fd)) :
    Returns target files (.dup task allocate fd) := by
  have same := update_same own
  cases got : table.tryGet fd with
  | none =>
      refine ⟨-Errno.EBADF.toInt, files, ?_, sound, rfl⟩
      simp only [perform, own, FileDescriptorTable.dup, got, Option.bind_eq_bind, Option.bind_some, same]
      rfl
  | some pointer =>
      have tableSound := sound.tables table (List.mem_of_getElem? own)
      have refused : table.tryInsert target allocate pointer = some (-1, table) :=
        FileDescriptorTable.tryInsert_refused tableSound (orderly table pointer own got)
      refine ⟨-1, files, ?_, sound, rfl⟩
      simp only [perform, own, FileDescriptorTable.dup, got, refused, Option.bind_eq_bind,
        Option.bind_some, same]
      rfl

theorem Sound.close (sound : Sound target files) {task : Nat} {fd : Int}
    (own : files.tables[task]? = some table) : Returns target files (.close task fd) := by
  cases got : table.tryGet fd with
  | none =>
      refine ⟨-Errno.EBADF.toInt, files, ?_, sound, rfl⟩
      simp only [perform, own, FileDescriptorTable.close, got, Option.bind_eq_bind, Option.bind_some]
      exact congrArg (fun files => some (-Errno.EBADF.toInt, files)) (update_same own)
  | some pointer =>
      have tableSound := sound.tables table (List.mem_of_getElem? own)
      rcases FileDescriptorTable.tryGet_spec got with ⟨inside, holds⟩
      have trade := FileDescriptorTable.references_setSlot inside holds none
      have total := references_update own files.fileTable (table.setSlot fd.toNat none) pointer
      have most := sound.single pointer
      have less := trade pointer
      rw [if_pos rfl, if_neg (by simp)] at less
      have referred : files.references pointer = 1 := by omega
      rcases sound.referenced.alive pointer (by omega) with ⟨description, led, alive⟩
      have counted := sound.referenced.counted pointer description led
      rw [referred] at counted
      rcases FileTable.close_spec sound.fileTable led counted with ⟨fileTable, closed, leads, fileSound⟩
      refine ⟨0, files.update task fileTable (table.setSlot fd.toNat none), ?_,
        sound.update own leads (fun other apart => ?_) ?_ (Nat.zero_le _) ?_ fileSound
          (FileDescriptorTable.sound_setSlot tableSound none), List.length_set⟩
      · simp only [perform, own, FileDescriptorTable.close, got, closed, Option.bind_eq_bind,
          Option.bind_some]
        rfl
      · have same := trade other
        rw [if_neg (by simpa using Ne.symm apart), if_neg (by simp)] at same
        exact same
      · dsimp only
        omega
      · dsimp only
        omega

/-- An orderly call of an existing task returns. -/
theorem Sound.returns (sound : Sound target files) (exist : call.task < files.tables.length)
    (serving : call.Serving target) (orderly : Orderly target files call) :
    Returns target files call := by
  have own := List.getElem?_eq_getElem exist
  cases call with
  | «open» task filesAllocate descriptorsAllocate path mode created =>
      exact sound.open own serving.1 serving.2 orderly
  | dup task allocate fd => exact sound.dup own orderly
  | close task fd => exact sound.close own

theorem sound_start (target : Target) (tasks : Nat) : Sound target (start tasks) := by
  have nowhere : forall pointer, (start tasks).fileTable.descriptionAt pointer = none :=
    fun pointer => if_neg fun inside => Nat.not_lt_zero _ inside.2
  have unreferred : forall pointer, (start tasks).references pointer = 0 := by
    intro pointer
    rw [references, start, List.map_replicate, List.sum_replicate]
    exact Nat.mul_zero _
  refine ⟨⟨?_, ?_, ?_⟩, fun pointer => ?_, Buffer.sound_empty _ _, ?_⟩
  · exact fun pointer description led => absurd ((nowhere pointer).symm.trans led) (by simp)
  · exact fun pointer referred => absurd (unreferred pointer) referred
  · exact fun pointer description led => absurd ((nowhere pointer).symm.trans led) (by simp)
  · rw [unreferred]
    exact Nat.zero_le 1
  · intro table member
    rw [List.eq_of_mem_replicate member]
    exact Buffer.sound_empty _ _

theorem Sound.step (sound : Sound target files) (orderly : Orderly target files call)
    (stepped : Step target files call after) :
    Sound target after ∧ after.tables.length = files.tables.length := by
  rcases stepped with ⟨serving, result, performed⟩
  have exist : call.task < files.tables.length := by
    by_contra missing
    have none := List.getElem?_eq_none (Nat.not_lt.mp missing)
    cases call <;> simp [perform, FileCall.task] at performed none <;> simp [none] at performed
  rcases sound.returns exist serving orderly with ⟨result', after', performed', later, length⟩
  cases Option.some.inj (performed'.symm.trans performed)
  exact ⟨later, length⟩

/-- As long as no descriptor is duplicated, every file description is counted as
often as descriptors of all tables refer to it, is alive while one does, and is
destroyed once.  A call that goes on like this follows no pointer to a
description that is gone. -/
theorem referenced_of_orderly {tasks : Nat}
    (reached : Reaches (guarded (Step target) (Orderly target)) (start tasks) calls files) :
    Referenced files ∧ forall call : FileCall, call.task < tasks -> call.Serving target ->
      Orderly target files call -> Exists fun after => Step target files call after := by
  have sound : Sound target files ∧ files.tables.length = tasks := by
    refine reached.guarded_invariant (fun files => Sound target files ∧ files.tables.length = tasks)
      ⟨sound_start target tasks, List.length_replicate⟩ ?_
    intro before call after holds orderly stepped
    have step := holds.1.step orderly stepped
    exact ⟨step.1, step.2.trans holds.2⟩
  refine ⟨sound.1.referenced, fun call exist serving orderly => ?_⟩
  rcases sound.1.returns (by rw [sound.2]; exact exist) serving orderly with
    ⟨result, after, performed, _, _⟩
  exact ⟨after, serving, result, performed⟩

/-- An allocator that answers with a block at the given place, of the size asked for. -/
def blockAt (place : Nat) (requested : Nat) : Allocation :=
  if requested ≤ pageSize then ⟨place, requested⟩ else {}

theorem serves_blockAt (target : Target) {place : Nat} (small : place ≤ 1048576) :
    Serves target (blockAt place) := by
  intro requested
  by_cases fits : requested ≤ pageSize
  · rw [blockAt, if_pos fits]
    refine .inr ⟨Nat.le_refl _, ?_⟩
    rw [pageSize] at fits
    cases target <;> simp only [Target.wordLimit, Target.wordWidth] <;> omega
  · rw [blockAt, if_neg fits]
    exact .inl rfl

/-- A file is opened, with the descriptions at 64 KiB and the descriptors at 128 KiB. -/
def openNull (task : Nat) : FileCall :=
  .open task (blockAt 65536) (blockAt 131072) "/dev/null" .Read true

theorem serving_openNull (task : Nat) : (openNull task).Serving .aarch64 :=
  ⟨serves_blockAt _ (by decide), serves_blockAt _ (by decide)⟩

/-- A task opens a file and closes it again, while the other looks on. -/
theorem referenced_of_orderly_closed : Exists fun files =>
    Reaches (guarded (Step .aarch64) (Orderly .aarch64)) (start 2) [.close 0 0, openNull 0] files ∧
    Referenced files := by
  have orderly : Orderly .aarch64 (start 2) (openNull 0) := by
    intro table own _
    cases (Option.some.inj own : FileDescriptorTable.empty = table)
    constructor
    · rw [Buffer.HasRoom, if_neg (by decide)]
      intro bytes requested
      cases Option.some.inj requested
      decide
    · intro _ _ _
      rw [Buffer.HasRoom, if_neg (by decide)]
      intro bytes requested
      cases Option.some.inj requested
      decide
  have run : Reaches (guarded (Step .aarch64) (Orderly .aarch64)) (start 2)
      [.close 0 0, openNull 0] _ :=
    .tail (.tail .refl ⟨orderly, serving_openNull 0, _, rfl⟩) ⟨trivial, trivial, _, rfl⟩
  exact ⟨_, run, (referenced_of_orderly run).1⟩

/-- A descriptor is duplicated and the original closed. -/
theorem duplicate_refers_to_destroyed : Exists fun files =>
    Reaches (Step .aarch64) (start 1) [.close 0 0, .dup 0 (blockAt 196608) 0, openNull 0] files ∧
    files.references ⟨1, 0⟩ = 1 ∧
      (Exists fun description => files.fileTable.descriptionAt ⟨1, 0⟩ = some description ∧
        description.refCount = 0 ∧ description.destroyed = 1) ∧
      ¬ Referenced files := by
  have serves : Serves .aarch64 (blockAt 196608) := serves_blockAt _ (by decide)
  have run : Reaches (Step .aarch64) (start 1)
      [.close 0 0, .dup 0 (blockAt 196608) 0, openNull 0] _ :=
    .tail (.tail (.tail .refl ⟨serving_openNull 0, _, rfl⟩) ⟨serves, _, rfl⟩) ⟨trivial, _, rfl⟩
  refine ⟨_, run, rfl, ⟨_, rfl, rfl, rfl⟩, fun referenced => ?_⟩
  rcases referenced.alive ⟨1, 0⟩ (by decide) with ⟨description, led, alive⟩
  cases Option.some.inj led
  exact absurd alive (by decide)

end Files

end Kernel
end Pinyon
