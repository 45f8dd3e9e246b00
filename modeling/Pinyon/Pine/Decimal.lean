import Pinyon.Library.Digits
import Pinyon.Pine.CString

namespace Pinyon
namespace Pine

open Library

/-!
# Numbers in decimal

`to_strbuf` writes the digits from the left, dividing by powers of ten that are
computed in the type of the number.  All of this stays within the type, but for
the least number of a signed type: its absolute value is not one of the type.
-/

/-! ## The text of a number -/

def digitChar (digit : Nat) : UInt8 :=
  UInt8.ofNat (48 + digit)

/-- The canonical decimal representation. -/
def decimalText (num : Int) : List UInt8 :=
  (if num < 0 then ['-'.toUInt8] else []) ++ (Digits.canonical 10 num.natAbs).map digitChar

/-- The number that a sequence of digits stands for. -/
def parseDigits (chars : List UInt8) : Option Nat :=
  if chars = [] ∨ chars.any (fun char => char < 48 ∨ 57 < char) then none
  else some (Digits.value 10 (chars.map fun char => char.toNat - 48))

/-- The number that a text stands for. -/
def parseDecimal : List UInt8 -> Option Int
  | [] => none
  | first :: chars =>
      if first = '-'.toUInt8 then (parseDigits chars).map fun num : Nat => -Int.ofNat num
      else (parseDigits (first :: chars)).map Int.ofNat

theorem digitChar_toNat {digit : Nat} (small : digit < 10) : (digitChar digit).toNat = 48 + digit := by
  rw [digitChar, UInt8.toNat_ofNat']
  omega

/-- What a digit is when it is read. -/
theorem digitChar_read {digit : Nat} (small : digit < 10) :
    (digitChar digit).toNat - 48 = digit ∧ ¬(digitChar digit < 48 ∨ 57 < digitChar digit) := by
  have bounds : (48 : UInt8).toNat = 48 ∧ (57 : UInt8).toNat = 57 := ⟨rfl, rfl⟩
  rw [UInt8.lt_iff_toNat_lt, UInt8.lt_iff_toNat_lt, digitChar_toNat small]
  omega

theorem parseDigits_canonical (num : Nat) :
    parseDigits ((Digits.canonical 10 num).map digitChar) = some num := by
  have small : forall digit, digit ∈ Digits.canonical 10 num -> digit < 10 :=
    fun _ member => Digits.canonical_lt (by decide) member
  have back : ((Digits.canonical 10 num).map digitChar).map (fun char => char.toNat - 48) =
      Digits.canonical 10 num := by
    rw [List.map_map]
    calc
      (Digits.canonical 10 num).map ((fun char => char.toNat - 48) ∘ digitChar) =
          (Digits.canonical 10 num).map id := by
        apply List.map_congr_left
        intro digit member
        exact (digitChar_read (small digit member)).1
      _ = Digits.canonical 10 num := List.map_id _
  rw [parseDigits, if_neg, back, Digits.value_canonical (by decide)]
  rintro (empty | wrong)
  · exact Digits.canonical_ne_nil 10 num (List.map_eq_nil_iff.mp empty)
  · rcases List.any_eq_true.mp wrong with ⟨char, member, strange⟩
    rcases List.mem_map.mp member with ⟨digit, there, rfl⟩
    exact (digitChar_read (small digit there)).2 (of_decide_eq_true strange)

theorem not_mem_digits {char : UInt8} (other : char < 48) (num : Nat) :
    char ∉ (Digits.canonical 10 num).map digitChar := by
  intro member
  rcases List.mem_map.mp member with ⟨digit, there, rfl⟩
  have small := Digits.canonical_lt (by decide) there
  exact (digitChar_read small).2 (.inl other)

/-- Reading the text of a number gives the number back. -/
theorem parseDecimal_decimalText (num : Int) : parseDecimal (decimalText num) = some num := by
  rw [decimalText]
  by_cases negative : num < 0
  · rw [if_pos negative, List.singleton_append, parseDecimal, if_pos rfl, parseDigits_canonical,
      Option.map_some]
    have magnitude : Int.ofNat num.natAbs = -num :=
      Int.ofNat_natAbs_of_nonpos (Int.le_of_lt negative)
    rw [magnitude, Int.neg_neg]
  · rw [if_neg negative, List.nil_append]
    have digits := parseDigits_canonical num.natAbs
    have noSign := @not_mem_digits '-'.toUInt8 (by decide) num.natAbs
    cases shown : (Digits.canonical 10 num.natAbs).map digitChar with
    | nil => exact absurd (List.map_eq_nil_iff.mp shown) (Digits.canonical_ne_nil 10 _)
    | cons first chars =>
        rw [shown] at digits noSign
        have unsigned : first ≠ '-'.toUInt8 := fun same => noSign (same ▸ List.mem_cons_self)
        rw [parseDecimal, if_neg unsigned, digits, Option.map_some]
        exact congrArg some (Int.natAbs_of_nonneg (Int.not_lt.mp negative))

theorem decimalText_terminated (num : Int) : (0 : UInt8) ∉ decimalText num := by
  rw [decimalText, List.mem_append]
  rintro (sign | digit)
  · split at sign
    · exact absurd (List.mem_singleton.mp sign) (by decide)
    · cases sign
  · exact not_mem_digits (by decide) _ digit

/-- The text as a string. -/
def decimalString (num : Int) : CString where
  chars := decimalText num
  terminated := decimalText_terminated num

/-- A buffer with a string at its start. -/
theorem CString.ofBuffer_append (string : CString) (rest : List UInt8) :
    CString.ofBuffer (string.chars ++ 0 :: rest) = some string := by
  have terminated : (0 : UInt8) ∈ string.chars ++ 0 :: rest :=
    List.mem_append_right _ List.mem_cons_self
  rw [CString.ofBuffer, if_pos terminated]
  congr 1
  rw [CString.mk.injEq, List.takeWhile_append_of_pos]
  · simp
  · intro char member
    exact bne_iff_ne.mpr fun zero => string.terminated (zero ▸ member)

/-! ## Arithmetic in a type -/

namespace IntType

variable {target : Target} {type : IntType} {num : Int}

/-- The values of a type. -/
def Holds (target : Target) (type : IntType) (num : Int) : Prop :=
  type.min target ≤ num ∧ num ≤ type.max target

instance (target : Target) (type : IntType) (num : Int) : Decidable (type.Holds target num) :=
  inferInstanceAs (Decidable (_ ∧ _))

theorem width_pos (target : Target) (type : IntType) : 0 < type.width target := by
  cases type <;> cases target <;> decide

/-- No type is computed in a narrower one. -/
theorem promoted_holds (holds : type.Holds target num) :
    (type.promoted target).Holds target num := by
  have wider : (type.promoted target).min target ≤ type.min target ∧
      type.max target ≤ (type.promoted target).max target := by
    cases type <;> cases target <;> decide
  exact ⟨wider.1.trans holds.1, holds.2.trans wider.2⟩

theorem convert_of_holds (holds : type.Holds target num) : type.convert target num = num := by
  rcases holds with ⟨low, high⟩
  rw [min] at low
  rw [max] at high
  rw [convert]
  have twice : 2 * 2 ^ (type.width target - 1) = 2 ^ type.width target := by
    rw [← Nat.pow_succ', Nat.succ_eq_add_one, Nat.sub_add_cancel (width_pos target type)]
  split
  next signed =>
      rw [if_pos signed] at low high
      apply Int.bmod_eq_of_le_mul_two
      · rw [← twice]
        push_cast
        linarith
      · rw [← twice]
        push_cast
        linarith
  next unsigned =>
      rw [if_neg unsigned] at low high
      exact Int.emod_eq_of_lt low (by linarith)

/-- A conversion gives a value of the type. -/
theorem convert_holds (target : Target) (type : IntType) (num : Int) :
    type.Holds target (type.convert target num) := by
  have positive := width_pos target type
  have twice : (2 : Int) * 2 ^ (type.width target - 1) = 2 ^ type.width target := by
    rw [← Int.pow_succ', Nat.sub_add_cancel positive]
  have some_ : 0 < 2 ^ type.width target := Nat.two_pow_pos _
  have cast : ((2 ^ type.width target : Nat) : Int) = 2 ^ type.width target := by
    rw [Int.natCast_pow]
    rfl
  rw [Holds, convert, min, max]
  split
  next signed =>
      have low := @Int.le_bmod num _ some_
      have high := @Int.bmod_lt num _ some_
      rw [cast] at low high
      omega
  next unsigned =>
      have range : (0 : Int) < 2 ^ type.width target := by positivity
      have low := Int.emod_nonneg num (Int.ne_of_gt range)
      have high := Int.emod_lt_of_pos num range
      omega

/-- A result that is a value of the type is kept. -/
theorem arithmetic_of_holds (holds : type.Holds target num) :
    type.arithmetic target num = some num := by
  have wide := promoted_holds holds
  rw [arithmetic, if_neg, convert_of_holds holds]
  rintro ⟨_, below | above⟩
  · exact absurd wide.1 (Int.not_le.mpr below)
  · exact absurd wide.2 (Int.not_le.mpr above)

theorem min_nonpos (target : Target) (type : IntType) : type.min target ≤ 0 := by
  cases type <;> cases target <;> decide

theorem holds_of_le {smaller : Nat} (holds : type.Holds target num) (less : smaller ≤ num) :
    type.Holds target smaller :=
  ⟨(min_nonpos target type).trans (Int.natCast_nonneg _), less.trans holds.2⟩

theorem pow_of_holds {power : Nat} (holds : type.Holds target (10 ^ power : Nat)) :
    type.pow target 10 power = some ((10 ^ power : Nat) : Int) := by
  induction power with
  | zero => rfl
  | succ power inductionHypothesis =>
      cases power with
      | zero => rfl
      | succ power =>
          have smaller : ((10 ^ (power + 1) : Nat) : Int) ≤ (10 ^ (power + 2) : Nat) :=
            Int.ofNat_le.mpr (Nat.pow_le_pow_right (by decide) (Nat.le_succ _))
          rw [pow, inductionHypothesis (holds_of_le holds smaller)]
          have product : ((10 ^ (power + 1) : Nat) : Int) * 10 = (10 ^ (power + 2) : Nat) := by
            rw [Nat.pow_succ 10 (power + 1), Int.natCast_mul]
            rfl
          rw [Option.bind_eq_bind, Option.bind_some, product, arithmetic_of_holds holds]

/-- As many digits as the greatest value of a type has are enough for any other. -/
theorem log_le_digits10 {magnitude : Nat} (small : (magnitude : Int) ≤ type.max target) :
    Nat.log 10 magnitude + 1 ≤ type.digits10 target := by
  have within : magnitude ≤ (type.max target).toNat := by omega
  have logs := Nat.log_mono_right (b := 10) within
  have digits : Nat.log 10 (type.max target).toNat + 1 ≤ type.digits10 target := by
    cases type <;> simp only [digits10, log] <;> omega
  omega

/-- All signed types are symmetric but for their least value. -/
theorem neg_holds (signed : type.isSigned = true) (holds : type.Holds target num)
    (greater : num ≠ type.min target) : type.Holds target (-num) := by
  rcases holds with ⟨low, high⟩
  have above : type.min target < num := lt_of_le_of_ne low greater.symm
  rw [Holds, min, max, if_pos signed, if_pos signed]
  rw [min, if_pos signed] at above
  rw [max, if_pos signed] at high
  constructor <;> linarith

/-- The absolute value of a number that is not the least is one of the type. -/
theorem natAbs_holds (holds : type.Holds target num)
    (greater : ¬(type.isSigned = true ∧ num = type.min target)) (negative : num < 0) :
    type.isSigned = true ∧ -num = num.natAbs ∧ type.Holds target num.natAbs := by
  have signed : type.isSigned = true := by
    by_contra unsigned
    rcases holds with ⟨low, _⟩
    rw [IntType.min, if_neg unsigned] at low
    exact absurd negative (Int.not_lt.mpr low)
  have magnitude : -num = (num.natAbs : Int) :=
    (Int.ofNat_natAbs_of_nonpos (Int.le_of_lt negative)).symm
  have mirrored := neg_holds signed holds fun least => greater ⟨signed, least⟩
  exact ⟨signed, magnitude, magnitude ▸ mirrored⟩

end IntType

/-! ## Writing the digits -/

variable {target : Target} {type : IntType} {buf : List UInt8} {start bufsize len remaining : Nat}

theorem ofInt_digit (digit : Nat) : UInt8.ofInt (48 + (digit : Nat)) = digitChar digit := by
  have wrapped : ((48 + (digit : Int)) % 2 ^ 8).toNat = (48 + digit) % 2 ^ 8 := by omega
  rw [UInt8.ofInt, wrapped, digitChar]
  exact UInt8.ofNat_mod_size

/-- The loop writes the digits that are still to come, and nothing else. -/
theorem writeDigits_eq {magnitude : Nat} (powers : forall power, power < remaining ->
      type.Holds target (10 ^ power : Nat))
    (holds : type.Holds target magnitude) (fewer : remaining ≤ len) (room : len ≤ bufsize)
    (inside : start + len ≤ buf.length) :
    writeDigits target type start bufsize len remaining buf magnitude =
      some (buf.take (start + (len - remaining)) ++
        (Digits.leading 10 remaining magnitude).map digitChar ++ buf.drop (start + len)) := by
  induction remaining generalizing buf magnitude with
  | zero =>
      rw [writeDigits, Nat.sub_zero, Digits.leading, List.map_nil, List.append_nil,
        List.take_append_drop]
  | succ remaining inductionHypothesis =>
      have power := powers remaining (Nat.lt_succ_self remaining)
      have divided : ((magnitude : Int).tdiv (10 ^ remaining : Nat)) =
          (magnitude / 10 ^ remaining : Nat) := rfl
      have quotient := IntType.holds_of_le holds
        (Int.ofNat_le.mpr (Nat.div_le_self magnitude (10 ^ remaining)))
      have multiplied : ((magnitude / 10 ^ remaining : Nat) : Int) * (10 ^ remaining : Nat) =
          (magnitude / 10 ^ remaining * 10 ^ remaining : Nat) := (Int.natCast_mul _ _).symm
      have product := IntType.holds_of_le holds
        (Int.ofNat_le.mpr (Nat.div_mul_le_self magnitude (10 ^ remaining)))
      have subtracted : (magnitude : Int) - (magnitude / 10 ^ remaining * 10 ^ remaining : Nat) =
          (magnitude % 10 ^ remaining : Nat) := by
        rw [Nat.mod_eq_sub_div_mul, Int.ofNat_sub (Nat.div_mul_le_self _ _)]
      have rest := IntType.holds_of_le holds
        (Int.ofNat_le.mpr (Nat.mod_le magnitude (10 ^ remaining)))
      have before : len - (remaining + 1) < bufsize := by omega
      have there : start + (len - (remaining + 1)) < buf.length := by omega
      have next : start + (len - remaining) = start + (len - (remaining + 1)) + 1 := by omega
      have behind : start + (len - (remaining + 1)) < start + len := by omega
      rw [writeDigits, if_pos before, IntType.pow_of_holds power]
      simp only [Option.bind_eq_bind, Option.bind_some, divided,
        IntType.arithmetic_of_holds quotient, multiplied, IntType.arithmetic_of_holds product,
        subtracted, IntType.arithmetic_of_holds rest, storeChar_of_lt there, ofInt_digit]
      rw [inductionHypothesis (fun power less => powers power (Nat.lt_succ_of_lt less)) rest
        (Nat.le_of_succ_le fewer) (by rwa [List.length_set]), next, take_succ_set there,
        List.drop_set_of_lt behind, Digits.leading, List.map_cons, List.append_assoc,
        List.append_assoc, List.append_assoc]
      rfl

theorem powers_hold {magnitude power : Nat} (holds : type.Holds target magnitude)
    (fewer : power < Nat.log 10 magnitude + 1) : type.Holds target (10 ^ power : Nat) := by
  by_cases zero : magnitude = 0
  · rw [zero, Nat.log_zero_right] at fewer
    rw [Nat.lt_one_iff.mp fewer]
    cases type <;> cases target <;> decide
  · apply IntType.holds_of_le holds
    apply Int.ofNat_le.mpr
    exact Nat.pow_le_of_le_log zero (Nat.le_of_lt_succ fewer)

theorem canonical_length (magnitude : Nat) :
    ((Digits.canonical 10 magnitude).map digitChar).length = Nat.log 10 magnitude + 1 := by
  rw [List.length_map, ← Digits.leading_eq_canonical (by decide), Digits.leading_length]

/-- The digits of a number and the NUL behind them. -/
theorem writeDigits_terminated {magnitude : Nat} (holds : type.Holds target magnitude)
    (room : Nat.log 10 magnitude + 1 ≤ bufsize)
    (inside : start + (Nat.log 10 magnitude + 1) < buf.length) :
    (writeDigits target type start bufsize (Nat.log 10 magnitude + 1) (Nat.log 10 magnitude + 1) buf
      magnitude).bind (fun buf => storeChar buf (start + (Nat.log 10 magnitude + 1)) 0) =
        some (buf.take start ++ (Digits.canonical 10 magnitude).map digitChar ++
          0 :: buf.drop (start + (Nat.log 10 magnitude + 1) + 1)) := by
  have digits : writeDigits target type start bufsize (Nat.log 10 magnitude + 1)
      (Nat.log 10 magnitude + 1) buf magnitude =
        some (buf.take start ++ (Digits.canonical 10 magnitude).map digitChar ++
          buf.drop (start + (Nat.log 10 magnitude + 1))) := by
    rw [writeDigits_eq (fun power fewer => powers_hold holds fewer) holds (Nat.le_refl _) room
      (Nat.le_of_lt inside), Nat.sub_self, Digits.leading_eq_canonical (by decide)]
    rfl
  have written : (buf.take start ++ (Digits.canonical 10 magnitude).map digitChar).length =
      start + (Nat.log 10 magnitude + 1) := by
    rw [List.length_append, List.length_take, canonical_length]
    omega
  have stored : (buf.take start ++ (Digits.canonical 10 magnitude).map digitChar ++
      buf.drop (start + (Nat.log 10 magnitude + 1))).set (start + (Nat.log 10 magnitude + 1)) 0 =
        buf.take start ++ (Digits.canonical 10 magnitude).map digitChar ++
          0 :: buf.drop (start + (Nat.log 10 magnitude + 1) + 1) := by
    rw [List.set_append_right _ _ (Nat.le_of_eq written), written, Nat.sub_self,
      List.drop_eq_getElem_cons inside, List.set_cons_zero]
  rw [digits, Option.bind_some, storeChar_of_lt, stored]
  rw [List.length_append, List.length_drop, written]
  omega

theorem decimalText_natCast (magnitude : Nat) :
    decimalText magnitude = (Digits.canonical 10 magnitude).map digitChar := by
  rw [decimalText, if_neg (Int.not_lt.mpr (Int.natCast_nonneg magnitude)), Int.natAbs_natCast]
  rfl

theorem decimalText_neg {num : Int} (negative : num < 0) :
    decimalText num = '-'.toUInt8 :: (Digits.canonical 10 num.natAbs).map digitChar := by
  rw [decimalText, if_pos negative]
  rfl

theorem toStrbuf_natCast {magnitude : Nat} (holds : type.Holds target magnitude)
    (room : type.characters10 target + 1 ≤ bufsize) (inside : bufsize ≤ buf.length) :
    toStrbuf target type buf 0 bufsize magnitude =
      some (decimalText magnitude ++ 0 :: buf.drop ((decimalText magnitude).length + 1)) := by
  have digits := IntType.log_le_digits10 holds.2
  have characters : type.digits10 target ≤ type.characters10 target := Nat.le_add_right _ _
  have log : IntType.log magnitude = Nat.log 10 magnitude := rfl
  have written := @writeDigits_terminated target type buf 0 bufsize magnitude holds
    (by omega) (by omega)
  rw [Nat.zero_add, List.take_zero, List.nil_append, ← canonical_length] at written
  rw [toStrbuf, if_neg (Nat.not_lt.mpr room),
    if_neg fun both => absurd both.2 (Int.not_lt.mpr (Int.natCast_nonneg magnitude)),
    decimalText_natCast, log, ← canonical_length]
  simp only [Nat.zero_add]
  exact written

/-- Every value but the least of a signed type is written as its text. -/
theorem toStrbuf_eq {num : Int} (holds : type.Holds target num)
    (greater : ¬(type.isSigned = true ∧ num = type.min target))
    (room : type.characters10 target + 1 ≤ bufsize) (inside : bufsize ≤ buf.length) :
    toStrbuf target type buf 0 bufsize num =
      some (decimalText num ++ 0 :: buf.drop ((decimalText num).length + 1)) := by
  by_cases negative : num < 0
  · rcases IntType.natAbs_holds holds greater negative with ⟨signed, magnitude, mirrored⟩
    have digits := IntType.log_le_digits10 mirrored.2
    have characters : type.characters10 target = type.digits10 target + 1 := by
      rw [IntType.characters10, if_pos signed]
    have some_ : 0 < buf.length := by omega
    have absolute : type.abs target num = some (num.natAbs : Int) := by
      rw [IntType.abs, if_neg (Int.not_le.mpr negative), magnitude,
        IntType.arithmetic_of_holds mirrored]
    have written := @writeDigits_terminated target type (buf.set 0 '-'.toUInt8) (0 + 1)
      (bufsize - 1) num.natAbs mirrored (by omega) (by rw [List.length_set]; omega)
    rw [take_succ_set some_, List.take_zero, List.nil_append, List.drop_set_of_lt (by omega),
      ← canonical_length] at written
    have log : IntType.log (num.natAbs : Int) = Nat.log 10 num.natAbs := rfl
    rw [toStrbuf, if_neg (Nat.not_lt.mpr room), if_pos ⟨signed, negative⟩, absolute,
      decimalText_neg negative]
    simp only [Option.bind_eq_bind, Option.bind_some, storeChar_of_lt some_, log,
      ← canonical_length]
    have behind : 0 + 1 + ((Digits.canonical 10 num.natAbs).map digitChar).length =
        ((Digits.canonical 10 num.natAbs).map digitChar).length + 1 := by omega
    rw [written, List.length_cons, behind]
    rfl
  · rcases Int.eq_ofNat_of_zero_le (Int.not_lt.mp negative) with ⟨magnitude, rfl⟩
    exact toStrbuf_natCast holds room inside

/-! ## All values of all types -/

/-- Without an overflow or a store behind the end, a buffer for the longest text of the
type is left with the text of the number, from which the number can be read back. -/
def FormatsRight (target : Target) (type : IntType) (num : Int) : Prop :=
  forall buf : List UInt8, buf.length = type.characters10 target + 1 ->
    Exists fun after => Exists fun string =>
      toStrbuf target type buf 0 (type.characters10 target + 1) num = some after ∧
        after.length = buf.length ∧ CString.ofBuffer after = some string ∧
        string.chars = decimalText num ∧ parseDecimal string.chars = some num

theorem decimalText_length_le {num : Int} (holds : type.Holds target num)
    (greater : ¬(type.isSigned = true ∧ num = type.min target)) :
    (decimalText num).length ≤ type.characters10 target := by
  rw [IntType.characters10]
  by_cases negative : num < 0
  · rcases IntType.natAbs_holds holds greater negative with ⟨signed, _, mirrored⟩
    rw [decimalText_neg negative, List.length_cons, canonical_length, if_pos signed]
    exact Nat.succ_le_succ (IntType.log_le_digits10 mirrored.2)
  · rcases Int.eq_ofNat_of_zero_le (Int.not_lt.mp negative) with ⟨magnitude, rfl⟩
    rw [decimalText_natCast, canonical_length]
    exact Nat.le_add_right_of_le (IntType.log_le_digits10 holds.2)

/-- The least value of a signed type overflows, or is written as something else. -/
theorem least_misprinted (target : Target) (type : IntType) (signed : type.isSigned = true) :
    ((toStrbuf target type (List.replicate (type.characters10 target + 1) 0) 0
      (type.characters10 target + 1) (type.min target)).bind CString.ofBuffer).bind
        (fun string => parseDecimal string.chars) ≠ some (type.min target) := by
  revert signed
  cases type <;> cases target <;> decide

/-- Numbers are written right but for the least of each signed type. -/
theorem formats_right_iff {num : Int} (holds : type.Holds target num) :
    FormatsRight target type num <-> ¬(type.isSigned = true ∧ num = type.min target) := by
  constructor
  · rintro right ⟨signed, least⟩
    subst least
    rcases right (List.replicate (type.characters10 target + 1) 0) List.length_replicate with
      ⟨after, string, written, _, found, _, read⟩
    apply least_misprinted target type signed
    rw [written, Option.bind_some, found, Option.bind_some, read]
  · intro greater buf length
    have written := @toStrbuf_eq target type buf _ num holds greater (Nat.le_refl _)
      (Nat.le_of_eq length.symm)
    refine ⟨_, decimalString num, written, ?_, CString.ofBuffer_append (decimalString num) _, rfl,
      parseDecimal_decimalText num⟩
    have short := decimalText_length_le holds greater
    rw [List.length_append, List.length_cons, List.length_drop]
    omega

/-- The number next to the least `int`. -/
theorem formats_right_iff_int : FormatsRight .aarch64 .int (-2147483647) :=
  (formats_right_iff (by decide)).mpr (by decide)

/-- The least `int` has no absolute value. -/
theorem least_int_overflows : ¬ forall (target : Target) (type : IntType) (num : Int),
    type.Holds target num -> FormatsRight target type num := by
  intro always
  rcases always .aarch64 .int (-2147483648) (by decide) (List.replicate 12 0) rfl with
    ⟨after, _, written, _⟩
  have overflows : toStrbuf .aarch64 .int (List.replicate 12 0) 0 12 (-2147483648) = none := by
    decide
  cases overflows.symm.trans written

end Pine
end Pinyon
