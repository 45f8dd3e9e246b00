import Pinyon.Pine.TwoMath

namespace Pinyon
namespace Pine

/-!
# The bitmap

`BitMap<NumBits>` packs bits into an array of words.  The accessor `word`
divides the index by the number of bits of the whole map where it should divide
by the width of a word, so every legal index selects the first word, and the
mask is shifted by the index itself.  A shift by the width of the word or more
is an error, which is what `none` stands for.
-/

/-- `Array<size_t, divide_up(NumBits, c_word_size)>`. -/
structure BitMap (target : Target) (numBits : Nat) where
  words : Fin (divideUp target.wordWidth numBits target.wordWidth) -> BitVec target.wordWidth

namespace BitMap

variable {target : Target} {numBits : Nat}

def empty (target : Target) (numBits : Nat) : BitMap target numBits where
  words := fun _ => 0

/-- The position of a word, when the array has it. -/
def wordAt (target : Target) (numBits index : Nat) :
    Option (Fin (divideUp target.wordWidth numBits target.wordWidth)) :=
  if inside : index / numBits < divideUp target.wordWidth numBits target.wordWidth then
    some ⟨index / numBits, inside⟩
  else none

/-- `(size_t)1 << index`. -/
def mask (target : Target) (index : Nat) : Option (BitVec target.wordWidth) :=
  if index < target.wordWidth then some (BitVec.ofNat target.wordWidth 1 <<< index) else none

def bit (bitmap : BitMap target numBits) (index : Nat) : Option Bool := do
  let position <- wordAt target numBits index
  let single <- mask target index
  return (bitmap.words position &&& single) != 0

/-- `word(index) = change(word(index), 1 << index)`. -/
def update (bitmap : BitMap target numBits) (index : Nat)
    (change : BitVec target.wordWidth -> BitVec target.wordWidth -> BitVec target.wordWidth) :
    Option (BitMap target numBits) := do
  let position <- wordAt target numBits index
  let single <- mask target index
  return ⟨Function.update bitmap.words position (change (bitmap.words position) single)⟩

/-- The bit is flipped, whatever it was. -/
def setBit (bitmap : BitMap target numBits) (index : Nat) : Option (BitMap target numBits) :=
  bitmap.update index fun word single => word ^^^ single

def clearBit (bitmap : BitMap target numBits) (index : Nat) : Option (BitMap target numBits) :=
  bitmap.update index fun word single => word &&& ~~~single

/-- What a value of `false` takes away from the word is nothing. -/
def markBit (bitmap : BitMap target numBits) (index : Nat) (value : Bool) :
    Option (BitMap target numBits) :=
  bitmap.update index fun word single =>
    let marked := if value then single else 0
    word &&& ~~~marked ||| marked

/-! ## Bits below the width of a word

For these the map behaves as a map of bits, all of them in the first word. -/

variable {bitmap : BitMap target numBits} {index other : Nat}

theorem wordAt_eq (sized : 0 < divideUp target.wordWidth numBits target.wordWidth)
    (legal : index < numBits) : wordAt target numBits index = some ⟨0, sized⟩ := by
  have first : index / numBits = 0 := Nat.div_eq_of_lt legal
  simp only [wordAt, first, sized, dif_pos]

private theorem and_mask_ne_zero {width : Nat} (word : BitVec width) (small : index < width) :
    ((word &&& BitVec.ofNat width 1 <<< index) != 0) = word.getLsbD index := by
  rw [← BitVec.twoPow_eq, BitVec.and_twoPow]
  cases held : word.getLsbD index with
  | true =>
      have nonzero : BitVec.twoPow width index ≠ 0 := by
        intro zero
        have bits := congrArg (fun word => BitVec.getLsbD word index) zero
        simp [small] at bits
      simpa using nonzero
  | false => simp

theorem bit_eq (sized : 0 < divideUp target.wordWidth numBits target.wordWidth)
    (legal : index < numBits) (small : index < target.wordWidth) :
    bitmap.bit index = some ((bitmap.words ⟨0, sized⟩).getLsbD index) := by
  simp only [bit, wordAt_eq sized legal, mask, small, if_true]
  exact congrArg some (and_mask_ne_zero _ small)

/-- From the width of a word on, no bit can be read. -/
theorem bit_eq_none (large : target.wordWidth ≤ index) : bitmap.bit index = none := by
  cases found : wordAt target numBits index with
  | none => simp [bit, found]
  | some position => simp [bit, found, mask, Nat.not_lt.mpr large]

theorem small_of_bit {value : Bool} (read : bitmap.bit index = some value) :
    index < target.wordWidth := by
  apply Nat.lt_of_not_le
  intro large
  rw [bit_eq_none large] at read
  exact absurd read (Option.some_ne_none value).symm

theorem bit_empty (sized : 0 < divideUp target.wordWidth numBits target.wordWidth)
    (legal : index < numBits) (small : index < target.wordWidth) :
    (empty target numBits).bit index = some false := by
  rw [bit_eq sized legal small]
  simp [empty]

/-- A write that turns the first word into one that differs in a single bit. -/
private theorem update_spec (sized : 0 < divideUp target.wordWidth numBits target.wordWidth)
    (legal : index < numBits) (small : index < target.wordWidth) {value : Bool}
    {change : BitVec target.wordWidth -> BitVec target.wordWidth -> BitVec target.wordWidth}
    (changed : forall other, other < target.wordWidth ->
      (change (bitmap.words ⟨0, sized⟩) (BitVec.ofNat target.wordWidth 1 <<< index)).getLsbD other =
        if other = index then value else (bitmap.words ⟨0, sized⟩).getLsbD other) :
    Exists fun after => bitmap.update index change = some after ∧
      forall other, other < numBits ->
        after.bit other = if other = index then some value else bitmap.bit other := by
  refine ⟨⟨Function.update bitmap.words ⟨0, sized⟩
    (change (bitmap.words ⟨0, sized⟩) (BitVec.ofNat target.wordWidth 1 <<< index))⟩, ?_, ?_⟩
  · simp [update, wordAt_eq sized legal, mask, small]
  · intro other otherLegal
    by_cases otherSmall : other < target.wordWidth
    · rw [bit_eq sized otherLegal otherSmall, bit_eq sized otherLegal otherSmall]
      dsimp only
      rw [Function.update_self, changed other otherSmall]
      exact apply_ite some _ _ _
    · have different : other ≠ index := fun same => otherSmall (same ▸ small)
      rw [if_neg different, bit_eq_none (Nat.le_of_not_lt otherSmall),
        bit_eq_none (Nat.le_of_not_lt otherSmall)]

/-- A bit is flipped, and no other bit changes. -/
theorem setBit_flips (sized : 0 < divideUp target.wordWidth numBits target.wordWidth)
    (legal : index < numBits) {value : Bool} (held : bitmap.bit index = some value) :
    Exists fun after => bitmap.setBit index = some after ∧
      forall other, other < numBits ->
        after.bit other = if other = index then some (!value) else bitmap.bit other := by
  have small := small_of_bit held
  rw [bit_eq sized legal small] at held
  have word := Option.some.inj held
  apply update_spec sized legal small
  intro other _
  rw [BitVec.getLsbD_xor, ← BitVec.twoPow_eq, BitVec.getLsbD_twoPow]
  by_cases same : other = index
  · subst same
    rw [word]
    simp [small]
  · simp [same, Ne.symm same]

/-- A clear bit is set, and no other bit changes. -/
theorem setBit_spec (sized : 0 < divideUp target.wordWidth numBits target.wordWidth)
    (legal : index < numBits) (clear : bitmap.bit index = some false) :
    Exists fun after => bitmap.setBit index = some after ∧
      forall other, other < numBits ->
        after.bit other = if other = index then some true else bitmap.bit other :=
  setBit_flips sized legal clear

/-- A bit is marked with true or stays as it is, and no other bit changes. -/
theorem markBit_spec (sized : 0 < divideUp target.wordWidth numBits target.wordWidth)
    (legal : index < numBits) {old : Bool} (held : bitmap.bit index = some old) (value : Bool) :
    Exists fun after => bitmap.markBit index value = some after ∧
      forall other, other < numBits ->
        after.bit other = if other = index then some (value || old) else bitmap.bit other := by
  have small := small_of_bit held
  rw [bit_eq sized legal small] at held
  have word := Option.some.inj held
  apply update_spec sized legal small
  intro other otherSmall
  cases value with
  | false =>
      by_cases same : other = index
      · simp [same, ← word, small]
      · simp [same, otherSmall]
  | true =>
      rw [if_pos rfl, BitVec.getLsbD_or, BitVec.getLsbD_and, BitVec.getLsbD_not,
        ← BitVec.twoPow_eq, BitVec.getLsbD_twoPow]
      by_cases same : other = index
      · simp [same, small]
      · simp [same, Ne.symm same, otherSmall]

/-- A bit is cleared, and no other bit changes. -/
theorem clearBit_spec (sized : 0 < divideUp target.wordWidth numBits target.wordWidth)
    (legal : index < numBits) (small : index < target.wordWidth) :
    Exists fun after => bitmap.clearBit index = some after ∧
      forall other, other < numBits ->
        after.bit other = if other = index then some false else bitmap.bit other := by
  apply update_spec sized legal small
  intro other otherSmall
  rw [BitVec.getLsbD_and, BitVec.getLsbD_not, ← BitVec.twoPow_eq, BitVec.getLsbD_twoPow]
  by_cases same : other = index
  · simp [same, small]
  · simp [same, Ne.symm same, otherSmall]

end BitMap

end Pine
end Pinyon
