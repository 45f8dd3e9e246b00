import Pinyon.Pine.BufferPrint
import Pinyon.Pine.Cast
import Pinyon.Kernel.FileCalls

namespace Pinyon
namespace Kernel

open Pine

/-!
# Reading into a buffer

What is read through a descriptor is stored by the device of its file.  The device says how
many characters it has stored, and the kernel hands that on as it is.
-/

variable {target : Target}

/-- Stores of characters, one behind the other. -/
def storeChars (start : Nat) : List UInt8 -> List UInt8 -> Option (List UInt8)
  | [], buf => some buf
  | char :: chars, buf => do
      let buf <- storeChar buf start char
      storeChars (start + 1) chars buf

/-- `bzero` of the first bytes of a buffer. -/
def bzero (buf : List UInt8) (size : Nat) : Option (List UInt8) :=
  storeChars 0 (List.replicate size 0) buf

/-- What is to be read from the devices.  The display has the string at `m_string`, and
`m_length`.  The UART receives characters, and the request that it has when the call goes on
says how many they were. -/
structure Devices (target : Target) where
  displayed : CString
  displayedLength : Nat
  received : List UInt8
  requestSize : Word target

/-- `ssize_t`. -/
abbrev Ssize (target : Target) : Type :=
  (IntType.ssize target).Value target

def toSsize (target : Target) (num : Int) : Ssize target :=
  (IntType.ssize target).cast target num

/-- The `read` of each class of files.  `try_read` stores no more than it has room for. -/
def File.readInto (devices : Devices target) (buf : List UInt8) (atMostBytes : Nat) :
    File -> Option (Ssize target × List UInt8)
  | .DevZeroFile => do
      let buf <- bzero buf atMostBytes
      return (toSsize target atMostBytes, buf)
  | .DevNullFile => some (toSsize target 0, buf)
  | .UARTFile => do
      let buf <- storeChars 0 (devices.received.take atMostBytes) buf
      return (toSsize target devices.requestSize.num, buf)
  | .DisplayFile =>
      if devices.displayedLength = 0 then some (toSsize target 0, buf)
      else do
        let (buf, copied) <- strbufcopy buf 0 atMostBytes devices.displayed
        return (toSsize target copied, buf)

/-- `FileDescription::read`.  The file is gone with the description. -/
def FileDescription.readInto (devices : Devices target) (description : FileDescription)
    (buf : List UInt8) (atMostBytes : Nat) : Option (Ssize target × List UInt8) :=
  if description.mode = .Write then some (toSsize target (-Errno.EINVAL.toInt), buf)
  else if ssizeMax target < atMostBytes then some (toSsize target (-Errno.EINVAL.toInt), buf)
  else if description.destroyed ≠ 0 then none
  else description.file.readInto devices buf atMostBytes

namespace TaskFiles

/-- `Task::read`. -/
def readInto (devices : Devices target) (files : TaskFiles) (fd : Int) (buf : List UInt8)
    (atMostBytes : Nat) : Option (Ssize target × List UInt8) :=
  if userspaceBufferIsValid target atMostBytes < 0 then
    some (toSsize target (userspaceBufferIsValid target atMostBytes), buf)
  else
    match files.fdTable.tryGet fd with
    | none => some (toSsize target (-Errno.EBADF.toInt), buf)
    | some pointer => do
        let description <- files.fileTable.descriptionAt pointer
        description.readInto devices buf atMostBytes

end TaskFiles

/-! ## What is stored -/

theorem storeChar_length {buf after : List UInt8} {pos : Nat} {char : UInt8}
    (stored : storeChar buf pos char = some after) : after.length = buf.length := by
  unfold storeChar at stored
  split at stored
  · cases Option.some.inj stored
    exact List.length_set
  · cases stored

theorem storeChars_length {start : Nat} {chars buf after : List UInt8}
    (stored : storeChars start chars buf = some after) : after.length = buf.length := by
  induction chars generalizing start buf with
  | nil =>
      cases Option.some.inj stored
      rfl
  | cons char chars inductionHypothesis =>
      rcases Option.bind_eq_some_iff.mp stored with ⟨first, storedFirst, rest⟩
      exact (inductionHypothesis rest).trans (storeChar_length storedFirst)

/-- Stores that there is room for. -/
theorem storeChars_inside {start : Nat} {chars buf : List UInt8}
    (inside : start + chars.length ≤ buf.length) :
    Exists fun after => storeChars start chars buf = some after := by
  induction chars generalizing start buf with
  | nil => exact ⟨buf, rfl⟩
  | cons char chars inductionHypothesis =>
      rw [List.length_cons] at inside
      have there : start < buf.length := by omega
      have behind : start + 1 + chars.length ≤ (buf.set start char).length := by
        rw [List.length_set]
        omega
      rw [storeChars, storeChar_of_lt there]
      exact inductionHypothesis behind

theorem bzero_inside {buf : List UInt8} {size : Nat} (inside : size ≤ buf.length) :
    Exists fun after => bzero buf size = some after := by
  apply storeChars_inside
  rwa [List.length_replicate, Nat.zero_add]

theorem strbufcopyFrom_length {start bufsize copied total : Nat} {from_ buf after : List UInt8}
    (stored : strbufcopyFrom start bufsize from_ copied buf = some (after, total)) :
    after.length = buf.length := by
  induction from_ generalizing copied buf with
  | nil =>
      rcases Option.bind_eq_some_iff.mp stored with ⟨last, storedLast, rest⟩
      cases Option.some.inj rest
      exact storeChar_length storedLast
  | cons ch from_ inductionHypothesis =>
      rw [strbufcopyFrom] at stored
      split at stored
      · rcases Option.bind_eq_some_iff.mp stored with ⟨first, storedFirst, rest⟩
        exact (inductionHypothesis rest).trans (storeChar_length storedFirst)
      · rcases Option.bind_eq_some_iff.mp stored with ⟨last, storedLast, rest⟩
        cases Option.some.inj rest
        exact storeChar_length storedLast

/-- The display leaves room for its NUL, if there is any room. -/
theorem strbufcopy_inside {buf : List UInt8} {bufsize : Nat} (from_ : CString)
    (inside : bufsize ≤ buf.length) :
    Exists fun copied => Exists fun after => strbufcopy buf 0 bufsize from_ = some (after, copied) ∧
      copied ≤ bufsize := by
  unfold strbufcopy
  split
  · exact ⟨0, buf, rfl, Nat.zero_le _⟩
  next more =>
    have room : 0 < bufsize := Nat.pos_of_ne_zero more
    have start : 0 + bufsize ≤ buf.length := (Nat.zero_add bufsize).trans_le inside
    rw [strbufcopyFrom_eq from_.chars room start]
    refine ⟨_, _, rfl, ?_⟩
    rw [List.length_take]
    omega

theorem File.readInto_length {devices : Devices target} {file : File} {atMostBytes : Nat}
    {buf after : List UInt8} {ret : Ssize target}
    (reads : file.readInto devices buf atMostBytes = some (ret, after)) :
    after.length = buf.length := by
  cases file with
  | DevNullFile =>
      cases Option.some.inj reads
      rfl
  | DevZeroFile =>
      rcases Option.bind_eq_some_iff.mp reads with ⟨zeroed, stored, returned⟩
      cases Option.some.inj returned
      exact storeChars_length stored
  | UARTFile =>
      rcases Option.bind_eq_some_iff.mp reads with ⟨filled, stored, returned⟩
      cases Option.some.inj returned
      exact storeChars_length stored
  | DisplayFile =>
      rw [readInto, strbufcopy] at reads
      split at reads
      · cases Option.some.inj reads
        rfl
      · rcases Option.bind_eq_some_iff.mp reads with ⟨⟨copy, copied⟩, stored, returned⟩
        cases Option.some.inj returned
        split at stored
        · cases Option.some.inj stored
          rfl
        · exact strbufcopyFrom_length stored

/-- A buffer stays as long as it is. -/
theorem TaskFiles.readInto_length {devices : Devices target} {files : TaskFiles} {fd : Int}
    {atMostBytes : Nat} {buf after : List UInt8} {ret : Ssize target}
    (reads : files.readInto devices fd buf atMostBytes = some (ret, after)) :
    after.length = buf.length := by
  unfold readInto at reads
  split at reads
  · cases Option.some.inj reads
    rfl
  · split at reads
    · cases Option.some.inj reads
      rfl
    · rcases Option.bind_eq_some_iff.mp reads with ⟨description, _, answered⟩
      unfold FileDescription.readInto at answered
      split at answered
      · cases Option.some.inj answered
        rfl
      · split at answered
        · cases Option.some.inj answered
          rfl
        · split at answered
          · cases answered
          · exact File.readInto_length answered

/-! ## What is returned -/

section

variable {devices : Devices target} {buf : List UInt8} {atMostBytes : Nat}

/-- A number of bytes is returned, and no more than were asked for. -/
def ReadWithin (atMostBytes : Nat) (read : Option (Ssize target × List UInt8)) : Prop :=
  Exists fun ret => Exists fun after => read = some (ret, after) ∧
    0 ≤ ret.num ∧ ret.num ≤ atMostBytes

/-- The condition under which the answer of a device fits. -/
def Devices.Fit (devices : Devices target) (atMostBytes : Nat) (file : File) : Prop :=
  file = .UARTFile -> devices.requestSize.num ≤ atMostBytes

theorem ssizeMax_eq (target : Target) : (ssizeMax target : Int) = (IntType.ssize target).max target := by
  cases target <;> rfl

theorem toSsize_num {num : Nat} (small : num ≤ ssizeMax target) : (toSsize target num).num = num := by
  apply IntType.convert_of_holds
  have negative : (IntType.ssize target).min target ≤ 0 := by
    cases target <;> decide
  have bound := ssizeMax_eq target
  constructor <;> omega

/-- A word that is taken for no negative number is taken for itself. -/
theorem toSsize_of_nonneg {size : Word target} (nonneg : 0 ≤ (toSsize target size.num).num) :
    (toSsize target size.num).num = size.num := by
  have back : (IntType.ptrData target).convert target (toSsize target size.num).num = size.num := by
    refine (IntType.convert_convert ?_ size.num).trans (IntType.convert_of_holds size.holds)
    rw [IntType.width_ssize, IntType.width_ptrData]
  have holds : (IntType.ptrData target).Holds target (toSsize target size.num).num := by
    have zero : (IntType.ptrData target).min target = 0 := by
      cases target <;> rfl
    have wider : (IntType.ssize target).max target ≤ (IntType.ptrData target).max target := by
      cases target <;> decide
    exact ⟨zero.trans_le nonneg, (toSsize target size.num).holds.2.trans wider⟩
  exact (IntType.convert_of_holds holds).symm.trans back

theorem word_nonneg (size : Word target) : 0 ≤ size.num := by
  have zero : (IntType.ptrData target).min target = 0 := by
    cases target <;> rfl
  exact zero.symm.trans_le size.holds.1

/-- A number of bytes that fits. -/
theorem readWithin_of_le {copied : Nat} {after : List UInt8} (small : atMostBytes ≤ ssizeMax target)
    (fits : copied ≤ atMostBytes) :
    ReadWithin atMostBytes (some (toSsize target copied, after)) := by
  have same : (toSsize target copied).num = copied := toSsize_num (fits.trans small)
  refine ⟨toSsize target copied, after, rfl, ?_, ?_⟩
  · rw [same]
    exact Int.natCast_nonneg copied
  · rw [same]
    exact Int.ofNat_le.mpr fits

/-- What is returned instead of a number of bytes is negative. -/
theorem not_readWithin {error : Ssize target} (negative : error.num < 0) :
    ¬ ReadWithin atMostBytes (some (error, buf)) := by
  rintro ⟨ret, after, same, nonneg, _⟩
  cases Option.some.inj same
  exact Int.not_lt.mpr nonneg negative

/-- What a device returns fits, unless it is what the UART says about another request. -/
theorem readWithin_file_iff (small : atMostBytes ≤ ssizeMax target)
    (inside : atMostBytes ≤ buf.length) (file : File) :
    ReadWithin atMostBytes (file.readInto devices buf atMostBytes) <->
      devices.Fit atMostBytes file := by
  have nothing : ReadWithin atMostBytes (some (toSsize target 0, buf)) :=
    readWithin_of_le small (Nat.zero_le atMostBytes)
  cases file with
  | DevNullFile =>
      constructor
      · rintro _ ⟨⟩
      · exact fun _ => nothing
  | DevZeroFile =>
      constructor
      · rintro _ ⟨⟩
      · intro _
        rcases bzero_inside inside with ⟨after, stored⟩
        rw [File.readInto, stored]
        exact readWithin_of_le small (le_refl atMostBytes)
  | DisplayFile =>
      constructor
      · rintro _ ⟨⟩
      · intro _
        rw [File.readInto]
        split
        · exact nothing
        · rcases strbufcopy_inside devices.displayed inside with ⟨copied, after, stored, fits⟩
          rw [stored]
          exact readWithin_of_le small fits
  | UARTFile =>
      have room : 0 + (devices.received.take atMostBytes).length ≤ buf.length := by
        rw [Nat.zero_add]
        exact (List.length_take_le _ _).trans inside
      rcases storeChars_inside room with ⟨after, stored⟩
      rw [File.readInto, stored]
      constructor
      · rintro ⟨ret, after', same, nonneg, fits⟩ _
        cases Option.some.inj same
        rwa [← toSsize_of_nonneg nonneg]
      · intro fit
        rcases Int.eq_ofNat_of_zero_le (word_nonneg devices.requestSize) with ⟨size, same⟩
        rw [same]
        exact readWithin_of_le small (Int.ofNat_le.mp (same ▸ fit rfl))

theorem readWithin_description_iff (small : atMostBytes ≤ ssizeMax target)
    (inside : atMostBytes ≤ buf.length) (description : FileDescription) :
    ReadWithin atMostBytes (description.readInto devices buf atMostBytes) <->
      description.mode ≠ .Write ∧ description.destroyed = 0 ∧
        devices.Fit atMostBytes description.file := by
  unfold FileDescription.readInto
  rw [if_neg (Nat.not_lt.mpr small)]
  split
  next write =>
    have negative : (toSsize target (-Errno.EINVAL.toInt)).num < 0 := by
      cases target <;> decide
    exact ⟨fun within_ => absurd within_ (not_readWithin negative), fun all => absurd write all.1⟩
  next mode =>
    split
    next gone =>
      constructor
      · rintro ⟨_, _, same, _⟩
        cases same
      · exact fun all => absurd all.2.1 gone
    next alive =>
      rw [readWithin_file_iff small inside]
      exact ⟨fun fit => ⟨mode, not_not.mp alive, fit⟩, fun all => all.2.2⟩

namespace TaskFiles

variable {files : TaskFiles} {fd : Int}

/-- A descriptor that can be read from, of a file that has an answer that fits. -/
def Readable (files : TaskFiles) (devices : Devices target) (fd : Int) (atMostBytes : Nat) : Prop :=
  Exists fun pointer => Exists fun description => files.fdTable.tryGet fd = some pointer ∧
    files.fileTable.descriptionAt pointer = some description ∧ description.mode ≠ .Write ∧
      description.destroyed = 0 ∧ devices.Fit atMostBytes description.file

/-- The number of a bad descriptor is zero, so that nothing is read from it. -/
theorem readWithin_iff (inside : atMostBytes ≤ buf.length) :
    ReadWithin atMostBytes (files.readInto devices fd buf atMostBytes) <->
      atMostBytes ≤ ssizeMax target ∧ (files.NotOpen fd ∨ files.Readable devices fd atMostBytes) := by
  unfold readInto userspaceBufferIsValid
  by_cases large : ssizeMax target < atMostBytes
  · have negative : (toSsize target (-Errno.EFBIG.toInt)).num < 0 := by
      cases target <;> decide
    rw [if_pos large, if_pos (by decide)]
    exact ⟨fun within_ => absurd within_ (not_readWithin negative),
      fun all => absurd large (Nat.not_lt.mpr all.1)⟩
  · have small : atMostBytes ≤ ssizeMax target := Nat.not_lt.mp large
    rw [if_neg large, if_neg (lt_irrefl 0)]
    unfold NotOpen Readable
    cases got : files.fdTable.tryGet fd with
    | none =>
        exact ⟨fun _ => ⟨small, .inl rfl⟩, fun _ => readWithin_of_le small (Nat.zero_le _)⟩
    | some pointer =>
        dsimp only
        cases led : files.fileTable.descriptionAt pointer with
        | none =>
            constructor
            · rintro ⟨_, _, same, _⟩
              cases same
            · rintro ⟨_, closed | ⟨other, description, same, led', _⟩⟩
              · cases closed
              · cases Option.some.inj same
                cases led.symm.trans led'
        | some description =>
            rw [Option.bind_eq_bind, Option.bind_some, readWithin_description_iff small inside]
            constructor
            · exact fun all => ⟨small, .inr ⟨pointer, description, rfl, led, all⟩⟩
            · rintro ⟨_, closed | ⟨other, description', same, led', all⟩⟩
              · cases closed
              · cases Option.some.inj same
                cases Option.some.inj (led.symm.trans led')
                exact all

end TaskFiles

end

end Kernel
end Pinyon
