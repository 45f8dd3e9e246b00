import Pinyon.Pine.CString

namespace Pinyon
namespace Pine

/-!
# Copying a string to the heap

`String::try_create` asks the allocator for as many bytes as the string is said to have.
How much is copied to them depends on the first NUL of the source instead.
-/

/-- What `strcopy` has done: the bytes at `to`, and the places of `from` it has read. -/
structure StringCopy where
  dest : List UInt8
  copied : Nat := 0
  reads : List Nat := []

/-- `strcopy`, from the bytes at and behind `from`.  `none` is a read or a store where
there is nothing. -/
def strcopy : List UInt8 -> StringCopy -> Option StringCopy
  | [], _ => none
  | ch :: from_, copy =>
      let copy := { copy with reads := copy.reads ++ [copy.copied] }
      if ch ≠ 0 then do
        let dest <- storeChar copy.dest copy.copied ch
        strcopy from_ { copy with dest, copied := copy.copied + 1 }
      else do
        let dest <- storeChar copy.dest copy.copied 0
        return { copy with dest }

/-- `String`: the block at `m_string`, and `m_length`. -/
structure AllocatedString where
  string : List UInt8
  length : Nat

namespace AllocatedString

/-- The characters from `begin()` to `end()`. -/
def chars (string : AllocatedString) : List UInt8 :=
  string.string.take string.length

/-- What comes of `try_create`, with the places of the source that were read. -/
structure Created where
  string : Option AllocatedString
  reads : List Nat

/-- `try_create` with a length.  The allocator gives a block or `nullptr`. -/
def tryCreate (allocate : Nat -> Option (List UInt8)) (from_ : List UInt8) (length : Nat) :
    Option Created :=
  match allocate length with
  | none => some ⟨none, []⟩
  | some dest => do
      let copy <- strcopy from_ { dest := dest }
      return ⟨some ⟨copy.dest, length⟩, copy.reads⟩

/-- `try_create` without a length, for a string and whatever is behind its NUL. -/
def tryCreateTerminated (allocate : Nat -> Option (List UInt8)) (from_ : CString)
    (behind : List UInt8) : Option Created :=
  tryCreate allocate (from_.chars ++ 0 :: behind) from_.strlen

end AllocatedString

/-! ## How far a copy goes -/

/-- The place of the first NUL. -/
structure FirstNul (from_ : List UInt8) (nul : Nat) : Prop where
  found : from_[nul]? = some 0
  first : (0 : UInt8) ∉ from_.take nul

namespace FirstNul

theorem cons {from_ : List UInt8} {nul : Nat} {ch : UInt8} (here : FirstNul from_ nul)
    (other : ch ≠ 0) : FirstNul (ch :: from_) (nul + 1) := by
  refine ⟨here.found, ?_⟩
  rw [List.take_succ_cons, List.mem_cons, not_or]
  exact ⟨other.symm, here.first⟩

theorem tail {from_ : List UInt8} {nul : Nat} {ch : UInt8} (there : FirstNul (ch :: from_) nul)
    (other : ch ≠ 0) : Exists fun before => nul = before + 1 ∧ FirstNul from_ before := by
  cases nul with
  | zero => exact absurd (Option.some.inj there.found) other
  | succ before =>
      have apart := there.first
      rw [List.take_succ_cons, List.mem_cons, not_or] at apart
      exact ⟨before, rfl, there.found, apart.2⟩

theorem unique {from_ : List UInt8} {nul nul' : Nat} (here : FirstNul from_ nul)
    (there : FirstNul from_ nul') : nul = nul' := by
  by_contra different
  rcases Nat.lt_or_gt_of_ne different with less | less
  · exact there.first (List.mem_of_getElem? ((List.getElem?_take_of_lt less).trans here.found))
  · exact here.first (List.mem_of_getElem? ((List.getElem?_take_of_lt less).trans there.found))

end FirstNul

theorem CString.firstNul (string : CString) (behind : List UInt8) :
    FirstNul (string.chars ++ 0 :: behind) string.strlen := by
  refine ⟨?_, ?_⟩
  · rw [strlen, List.getElem?_append_right (Nat.le_refl _), Nat.sub_self]
    rfl
  · rw [strlen, List.take_left']
    · exact string.terminated
    · rfl

theorem strcopy_cons {ch : UInt8} {from_ : List UInt8} {copy : StringCopy} (other : ch ≠ 0)
    (room : copy.copied < copy.dest.length) : strcopy (ch :: from_) copy =
      strcopy from_ ⟨copy.dest.set copy.copied ch, copy.copied + 1, copy.reads ++ [copy.copied]⟩ := by
  rw [strcopy]
  simp only [if_pos other, storeChar_of_lt room, Option.bind_eq_bind, Option.bind_some]

/-- A copy reads and writes everything up to the first NUL and the NUL itself. -/
theorem strcopy_eq {from_ : List UInt8} {nul : Nat} {copy : StringCopy} (here : FirstNul from_ nul)
    (room : copy.copied + nul < copy.dest.length) : strcopy from_ copy =
      some
        { dest := copy.dest.take copy.copied ++ from_.take (nul + 1) ++
            copy.dest.drop (copy.copied + nul + 1)
          copied := copy.copied + nul
          reads := copy.reads ++ List.range' copy.copied (nul + 1) } := by
  induction from_ generalizing nul copy with
  | nil => cases here.found
  | cons ch from_ inductionHypothesis =>
      by_cases zero : ch = 0
      · subst zero
        have first : FirstNul (0 :: from_) 0 := ⟨rfl, List.not_mem_nil⟩
        cases here.unique first
        have there : copy.copied < copy.dest.length := room
        rw [strcopy, if_neg (fun other => other rfl), storeChar_of_lt there, set_eq there,
          List.take_succ_cons, List.take_zero, List.append_assoc]
        rfl
      · rcases here.tail zero with ⟨before, rfl, later⟩
        have there : copy.copied < copy.dest.length := by omega
        have behind : copy.copied < copy.copied + (before + 1) + 1 := by omega
        have count : copy.copied + 1 + before = copy.copied + (before + 1) := by omega
        have fits : copy.copied + 1 + before < (copy.dest.set copy.copied ch).length := by
          rw [List.length_set]
          omega
        rw [strcopy_cons zero there, inductionHypothesis later fits]
        simp only [take_succ_set there, count, List.drop_set_of_lt behind, List.take_succ_cons,
          List.range'_succ, List.append_assoc, List.cons_append, List.nil_append]

/-- It comes to an end only if there is a NUL, and room for it. -/
theorem strcopy_some {from_ : List UInt8} {copy after : StringCopy}
    (ran : strcopy from_ copy = some after) :
    Exists fun nul => FirstNul from_ nul ∧ copy.copied + nul < copy.dest.length := by
  induction from_ generalizing copy with
  | nil => cases ran
  | cons ch from_ inductionHypothesis =>
      have there : copy.copied < copy.dest.length := by
        by_contra outside
        have lost (char : UInt8) : storeChar copy.dest copy.copied char = none := if_neg outside
        rw [strcopy] at ran
        simp only [lost, Option.bind_eq_bind, Option.bind_none, ite_self] at ran
        cases ran
      by_cases zero : ch = 0
      · exact ⟨0, ⟨congrArg some zero, List.not_mem_nil⟩, there⟩
      · rw [strcopy_cons zero there] at ran
        rcases inductionHypothesis ran with ⟨before, later, room⟩
        have fits : copy.copied + 1 + before < copy.dest.length := by
          rwa [List.length_set] at room
        exact ⟨before + 1, later.cons zero, by omega⟩

/-! ## What is created -/

namespace AllocatedString

variable {allocate : Nat -> Option (List UInt8)} {from_ : List UInt8} {length : Nat}

/-- `try_create` gives `nullptr`, or reads and stores nothing outside of what it was given
and what it has allocated, and has the characters it was given. -/
def CreatesExactly (allocate : Nat -> Option (List UInt8)) (from_ : List UInt8) (length : Nat) :
    Prop :=
  Exists fun created => tryCreate allocate from_ length = some created ∧
    forall string, created.string = some string ->
      (forall place, place ∈ created.reads -> place < length) ∧
        string.length = length ∧ string.chars = from_.take length

/-- The first NUL is within the length, and what is behind it is in the block already. -/
structure EndsWithin (from_ : List UInt8) (length : Nat) (block : List UInt8) (nul : Nat) : Prop where
  here : FirstNul from_ nul
  within_ : nul < length
  behind : (block.take length).drop (nul + 1) = (from_.take length).drop (nul + 1)

/-- Just as much is copied as the source has characters, and a NUL. -/
theorem tryCreate_eq {block : List UInt8} {nul : Nat} (obtained : allocate length = some block)
    (here : FirstNul from_ nul) (room : nul < block.length) :
    tryCreate allocate from_ length =
      some ⟨some ⟨from_.take (nul + 1) ++ block.drop (nul + 1), length⟩, List.range (nul + 1)⟩ := by
  have copied := @strcopy_eq from_ nul { dest := block } here ((Nat.zero_add nul).symm ▸ room)
  rw [tryCreate, obtained]
  simp only [copied, Option.bind_eq_bind, Option.bind_some]
  rw [List.range_eq_range', Nat.zero_add]
  rfl

/-- The characters are right just when those behind the NUL are there already. -/
theorem chars_iff {block : List UInt8} {nul : Nat} (within_ : nul < length)
    (given : length ≤ from_.length) :
    (from_.take (nul + 1) ++ block.drop (nul + 1)).take length = from_.take length <->
      (block.take length).drop (nul + 1) = (from_.take length).drop (nul + 1) := by
  have count : (from_.take (nul + 1)).length = nul + 1 := by
    rw [List.length_take]
    omega
  have first : (from_.take (nul + 1)).take length = from_.take (nul + 1) :=
    List.take_of_length_le (by omega)
  have split_ : from_.take length =
      from_.take (nul + 1) ++ (from_.drop (nul + 1)).take (length - (nul + 1)) := by
    rw [← List.take_add]
    congr 1
    omega
  rw [List.take_append, first, count, split_, List.append_cancel_left_eq, ← split_, List.drop_take,
    List.drop_take]

/-- The claim of `try_create` is kept just when the allocator gives nothing, or the
first NUL is within the length and what the source has behind it is in the block
already. -/
theorem copies_exactly_iff (allocate : Nat -> Option (List UInt8)) (from_ : List UInt8) (length : Nat)
    (granted : forall block, allocate length = some block -> length ≤ block.length)
    (given : length ≤ from_.length) :
    CreatesExactly allocate from_ length <->
      forall block, allocate length = some block ->
        Exists fun nul => EndsWithin from_ length block nul := by
  constructor
  · rintro ⟨created, ran, exact_⟩ block obtained
    have copied : Exists fun copy => strcopy from_ { dest := block } = some copy := by
      rw [tryCreate, obtained] at ran
      rcases Option.bind_eq_some_iff.mp ran with ⟨copy, copied, _⟩
      exact ⟨copy, copied⟩
    rcases copied with ⟨copy, copied⟩
    rcases strcopy_some copied with ⟨nul, here, room⟩
    rw [Nat.zero_add] at room
    cases ran.symm.trans (tryCreate_eq obtained here room)
    rcases exact_ _ rfl with ⟨reads, _, chars⟩
    have within_ : nul < length := reads nul (List.mem_range.mpr (Nat.lt_succ_self nul))
    exact ⟨nul, here, within_, (chars_iff within_ given).mp chars⟩
  · intro ends
    cases obtained : allocate length with
    | none =>
        refine ⟨⟨none, []⟩, ?_, fun string impossible => by cases impossible⟩
        rw [tryCreate, obtained]
    | some block =>
        rcases ends block obtained with ⟨nul, here, within_, behind⟩
        have room : nul < block.length := within_.trans_le (granted block obtained)
        refine ⟨_, tryCreate_eq obtained here room, ?_⟩
        rintro string equal
        cases equal
        refine ⟨fun place member => ?_, rfl, (chars_iff within_ given).mpr behind⟩
        exact (Nat.lt_succ_iff.mp (List.mem_range.mp member)).trans_lt within_

/-- An allocator that gives eight bytes more than it is asked for, all of them one. -/
def eightMore (length : Nat) : Option (List UInt8) :=
  some (List.replicate (length + 8) 1)

theorem eightMore_granted (length : Nat) (block : List UInt8)
    (obtained : eightMore length = some block) : length ≤ block.length := by
  cases obtained
  rw [List.length_replicate]
  exact Nat.le_add_right length 8

theorem copies_exactly_iff_last : CreatesExactly eightMore [97, 98, 0] 3 <->
    forall block, eightMore 3 = some block ->
      Exists fun nul => EndsWithin [97, 98, 0] 3 block nul :=
  copies_exactly_iff eightMore [97, 98, 0] 3 (eightMore_granted 3) (by decide)

/-- Three characters without a NUL among them: the one that is read behind them ends the
copy. -/
theorem reads_behind : (forall length block, eightMore length = some block ->
      length ≤ block.length) ∧
    ¬ CreatesExactly eightMore [97, 98, 99, 0] 3 := by
  refine ⟨eightMore_granted, ?_⟩
  rintro ⟨created, ran, exact_⟩
  cases ran
  exact absurd ((exact_ _ rfl).1 3 (by decide)) (by decide)

/-! ## A string without a length -/

/-- Without a length, `try_create` has room for the NUL only if the allocator gives more
than it is asked for. -/
theorem tryCreateTerminated_iff (allocate : Nat -> Option (List UInt8)) (from_ : CString)
    (behind : List UInt8) :
    (Exists fun created => tryCreateTerminated allocate from_ behind = some created) <->
      forall block, allocate from_.strlen = some block -> from_.strlen < block.length := by
  constructor
  · rintro ⟨created, ran⟩ block obtained
    rw [tryCreateTerminated, tryCreate, obtained] at ran
    rcases Option.bind_eq_some_iff.mp ran with ⟨copy, copied, _⟩
    rcases strcopy_some copied with ⟨nul, here, room⟩
    rw [Nat.zero_add, here.unique (from_.firstNul behind)] at room
    exact room
  · intro room
    cases obtained : allocate from_.strlen with
    | none =>
        refine ⟨⟨none, []⟩, ?_⟩
        rw [tryCreateTerminated, tryCreate, obtained]
    | some block => exact ⟨_, tryCreate_eq obtained (from_.firstNul behind) (room block obtained)⟩

end AllocatedString

end Pine
end Pinyon
