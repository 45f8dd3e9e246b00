import Pinyon.Pine.Decimal
import Pinyon.Pine.Print

namespace Pinyon
namespace Pine

/-!
# The text of a directive

What a format and its arguments stand for, whether or not the code can compute it:
the least number of a signed type has a decimal text, but `to_strbuf` overflows on it.
For all other numbers, and for all other directives, the piece that the code hands
over is this text.
-/

variable {target : Target}

/-! ## The text of a directive -/

/-- The type of number that a specifier takes. -/
def Specifier.numberType (target : Target) (spec : Specifier) : Option IntType :=
  if spec.type = 'c'.toUInt8 then some .int
  else if spec.type = 'u'.toUInt8 then some (spec.mod.unsignedType target)
  else if spec.type = 'd'.toUInt8 then some (spec.mod.signedType target)
  else if spec.type = 'x'.toUInt8 then some (spec.mod.unsignedType target)
  else if spec.type = 'p'.toUInt8 then some (.ptrData target)
  else none

/-- A specifier that `vfnprintf` knows. -/
def Specifier.known (target : Target) (spec : Specifier) : Bool :=
  spec.type = 's'.toUInt8 ∨ spec.type = '%'.toUInt8 ∨ (spec.numberType target).isSome

/-- The arguments behind the one that a specifier takes, if that is there and of its
type. -/
def Specifier.takes (target : Target) (spec : Specifier) (rest : List Argument) :
    Option (List Argument) :=
  if spec.type = 's'.toUInt8 then
    match rest with
    | .string _ :: rest => some rest
    | _ => none
  else
    match spec.numberType target with
    | none => some rest
    | some type => (vaArg target type rest).map Prod.snd

namespace Directive

/-- The arguments match the directives up to the first that is not known. -/
def Matches (target : Target) : List Directive -> List Argument -> Prop
  | [], _ => True
  | .literal _ :: directives, rest => Matches target directives rest
  | .specifier spec :: directives, rest =>
      Exists fun behind => spec.takes target rest = some behind ∧
        (spec.known target = true -> Matches target directives behind)

/-- The text that a directive stands for, and the arguments behind it.  A specifier
that is not known has no text. -/
def text (target : Target) : Directive -> List Argument ->
    Option (Option (List UInt8) × List Argument)
  | .literal ch, rest => do
      let chstr <- literalPiece ch
      return (some chstr.chars, rest)
  | .specifier spec, rest =>
      if spec.type = 'd'.toUInt8 then do
        let (value, rest) <- vaArg target (spec.mod.signedType target) rest
        return (some (decimalText value), rest)
      else do
        let (piece, rest) <- spec.piece target rest
        return (piece.map CString.chars, rest)

/-- The texts of the directives up to the first that is not known. -/
def texts (target : Target) : List Directive -> List Argument -> Option (List (List UInt8))
  | [], _ => some []
  | directive :: directives, rest => do
      let (text, rest) <- directive.text target rest
      match text with
      | none => some []
      | some text =>
          let others <- texts target directives rest
          return text :: others

/-- A number to be printed in decimal that is the least of its type. -/
def Least (target : Target) : Directive -> List Argument -> Prop
  | .literal _, _ => False
  | .specifier spec, rest =>
      spec.type = 'd'.toUInt8 ∧ Exists fun behind =>
        vaArg target (spec.mod.signedType target) rest =
          some ((spec.mod.signedType target).min target, behind)

end Directive

/-! ## Hexadecimal digits -/

theorem writeZeros_some {buf : List UInt8} {start : Nat} (length : Nat)
    (inside : start + length ≤ buf.length) :
    Exists fun after => writeZeros start length buf = some after ∧ after.length = buf.length := by
  induction length with
  | zero => exact ⟨buf, rfl, rfl⟩
  | succ length inductionHypothesis =>
      rcases inductionHypothesis (Nat.le_of_succ_le inside) with ⟨after, written, same⟩
      refine ⟨after.set (start + length) '0'.toUInt8, ?_, by rw [List.length_set, same]⟩
      rw [writeZeros, written]
      exact storeChar_of_lt (by omega) _

/-- The digits leave the NUL behind them where it is. -/
theorem writeHexDigits_some {flag : ToAFlag} {start place : Nat} (pos : Nat) {buf : List UInt8}
    {num : Nat} (inside : start + pos ≤ place) (ended : buf[place]? = some 0) :
    Exists fun after => writeHexDigits flag start pos buf num = some after ∧
      after[place]? = some 0 := by
  induction pos generalizing buf num with
  | zero => exact ⟨buf, rfl, ended⟩
  | succ pos inductionHypothesis =>
      rw [writeHexDigits]
      split
      · have short := (List.getElem?_eq_some_iff.mp ended).1
        rw [storeChar_of_lt (by omega)]
        apply inductionHypothesis (by omega)
        rwa [List.getElem?_set_ne (by omega)]
      · exact ⟨buf, rfl, ended⟩

theorem toStrbufHex_some {type : IntType} {buf : List UInt8} {start bufsize num : Nat}
    {flag : ToAFlag} (room : type.digits16 target + 1 ≤ bufsize)
    (inside : start + bufsize ≤ buf.length) :
    Exists fun after => toStrbufHex target type buf start bufsize num flag = some after ∧
      (0 : UInt8) ∈ after := by
  have zeroed : start + type.digits16 target ≤ buf.length := by omega
  rcases writeZeros_some (type.digits16 target) zeroed with ⟨zeros, written, same⟩
  have there : start + type.digits16 target < zeros.length := by omega
  have ended : (zeros.set (start + type.digits16 target) 0)[start + type.digits16 target]? =
      some 0 := by
    rw [List.getElem?_set_self there]
  rcases @writeHexDigits_some flag start _ _ _ num (Nat.le_refl _) ended with
    ⟨after, digits, zero⟩
  refine ⟨after, ?_, List.mem_of_getElem? zero⟩
  rw [toStrbufHex, if_neg (Nat.not_lt.mpr room), written]
  simp only [Option.bind_eq_bind, Option.bind_some, storeChar_of_lt there, digits]

theorem digits16_le (target : Target) (mod : ArgModifiers) :
    (mod.unsignedType target).digits16 target ≤ (IntType.size target).digits16 target := by
  cases mod <;> cases target <;> decide

theorem hexadecimal_some {longest type : IntType} (alternativeForm : Bool) (num : Int)
    (wide : type.digits16 target ≤ longest.digits16 target) :
    Exists fun hex => hexadecimal target longest type alternativeForm num = some hex := by
  have length : (zeroed (longest.digits16 target + 3)).length = longest.digits16 target + 3 :=
    List.length_replicate
  have found : forall after : List UInt8, (0 : UInt8) ∈ after ->
      Exists fun hex => CString.ofBuffer after = some hex := by
    intro after zero
    rw [CString.ofBuffer, if_pos zero]
    exact ⟨_, rfl⟩
  cases alternativeForm with
  | false =>
      rcases @toStrbufHex_some target type (zeroed (longest.digits16 target + 3)) 0
        (longest.digits16 target + 3) num.toNat .lower (by omega) (by omega) with ⟨after, written, zero⟩
      rcases found after zero with ⟨hex, string⟩
      refine ⟨hex, ?_⟩
      rw [hexadecimal]
      simp only [Bool.false_eq_true, if_false, written, Option.bind_eq_bind, Option.bind_some, string]
  | true =>
      have first : 0 < (zeroed (longest.digits16 target + 3)).length := by omega
      have second : 1 < ((zeroed (longest.digits16 target + 3)).set 0 '0'.toUInt8).length := by
        rw [List.length_set]
        omega
      rcases @toStrbufHex_some target type
        (((zeroed (longest.digits16 target + 3)).set 0 '0'.toUInt8).set 1 'x'.toUInt8) 2
        (longest.digits16 target + 3 - 2) num.toNat .lower (by omega)
        (by rw [List.length_set, List.length_set]; omega) with ⟨after, written, zero⟩
      rcases found after zero with ⟨hex, string⟩
      refine ⟨hex, ?_⟩
      rw [hexadecimal]
      simp only [if_true, storeChar_of_lt first, storeChar_of_lt second, written,
        Option.bind_eq_bind, Option.bind_some, string]

/-! ## Decimal digits -/

theorem decimal_eq {longest type : IntType} {num : Int} (holds : type.Holds target num)
    (greater : ¬(type.isSigned = true ∧ num = type.min target))
    (wide : type.characters10 target ≤ longest.characters10 target) :
    decimal target longest type num = some (decimalString num) := by
  have written := @toStrbuf_eq target type (zeroed (longest.characters10 target + 1))
    (longest.characters10 target + 1) num holds greater (Nat.succ_le_succ wide)
    (Nat.le_of_eq List.length_replicate.symm)
  rw [decimal]
  simp only [written, Option.bind_eq_bind, Option.bind_some]
  exact CString.ofBuffer_append (decimalString num) _

theorem decimal_unsigned (mod : ArgModifiers) {num : Int}
    (holds : (mod.unsignedType target).Holds target num) :
    decimal target (.size target) (mod.unsignedType target) num = some (decimalString num) := by
  apply decimal_eq holds
  · rintro ⟨signed, _⟩
    revert signed
    cases mod <;> cases target <;> decide
  · cases mod <;> cases target <;> decide

/-- No least number of these types has a decimal text that the code computes. -/
theorem decimal_least (mod : ArgModifiers) :
    decimal target (.ssize target) (mod.signedType target) ((mod.signedType target).min target) =
      none := by
  cases mod <;> cases target <;> decide

theorem decimal_signed (mod : ArgModifiers) {num : Int}
    (holds : (mod.signedType target).Holds target num)
    (greater : num ≠ (mod.signedType target).min target) :
    decimal target (.ssize target) (mod.signedType target) num = some (decimalString num) := by
  apply decimal_eq holds
  · exact fun both => greater both.2
  · cases mod <;> cases target <;> decide

/-! ## Pieces -/

theorem vaArg_holds {type : IntType} {rest behind : List Argument} {value : Int}
    (taken : vaArg target type rest = some (value, behind)) : type.Holds target value := by
  unfold vaArg at taken
  split at taken
  · split at taken
    · cases taken
      exact IntType.convert_holds target type _
    · cases taken
  · cases taken

namespace Specifier

variable {spec : Specifier} {rest behind : List Argument}

theorem takes_number {type : IntType} (number : spec.numberType target = some type)
    (other : spec.type ≠ 's'.toUInt8) (takes : spec.takes target rest = some behind) :
    Exists fun value => vaArg target type rest = some (value, behind) := by
  unfold Specifier.takes at takes
  rw [if_neg other, number] at takes
  rcases Option.map_eq_some_iff.mp takes with ⟨⟨value, others⟩, taken, same⟩
  exact ⟨value, same ▸ taken⟩

theorem charPiece_some (value : Int) :
    Exists fun str => CString.ofBuffer [UInt8.ofInt value, 0] = some str := by
  rw [CString.ofBuffer, if_pos (List.mem_cons_of_mem _ List.mem_cons_self)]
  exact ⟨_, rfl⟩

/-- Every specifier but that for signed numbers has its piece when its argument is
there. -/
theorem piece_some (other : spec.type ≠ 'd'.toUInt8) (takes : spec.takes target rest = some behind) :
    Exists fun piece => spec.piece target rest = some (piece, behind) ∧
      piece.isSome = spec.known target := by
  rcases spec with ⟨flag, mod, type⟩
  by_cases string : type = 's'.toUInt8
  · subst string
    cases rest with
    | nil => cases takes
    | cons argument rest =>
        cases argument with
        | number given value => cases takes
        | string str =>
            cases takes
            exact ⟨some str, rfl, by simp [known]⟩
  by_cases percent : type = '%'.toUInt8
  · subst percent
    cases takes
    exact ⟨_, rfl, by simp [known]⟩
  by_cases char : type = 'c'.toUInt8
  · subst char
    rcases takes_number rfl string takes with ⟨value, taken⟩
    rcases charPiece_some value with ⟨str, shown⟩
    refine ⟨some str, ?_, by simp +decide [known, numberType]⟩
    simp +decide only [piece, taken, shown, if_true, if_false, Option.bind_eq_bind, Option.bind_some]
  by_cases unsigned : type = 'u'.toUInt8
  · subst unsigned
    rcases takes_number rfl string takes with ⟨value, taken⟩
    refine ⟨some (decimalString value), ?_, by simp +decide [known, numberType]⟩
    simp +decide only [piece, taken, decimal_unsigned mod (vaArg_holds taken), if_true, if_false,
      Option.bind_eq_bind, Option.bind_some]
  by_cases hex : type = 'x'.toUInt8
  · subst hex
    rcases takes_number rfl string takes with ⟨value, taken⟩
    rcases hexadecimal_some (flag = .alternativeForm) value (digits16_le target mod) with ⟨digits, shown⟩
    refine ⟨some digits, ?_, by simp +decide [known, numberType]⟩
    simp +decide only [piece, taken, shown, if_true, if_false, Option.bind_eq_bind,
      Option.bind_some]
  by_cases pointer : type = 'p'.toUInt8
  · subst pointer
    rcases takes_number rfl string takes with ⟨value, taken⟩
    rcases hexadecimal_some true value (Nat.le_refl ((IntType.ptrData target).digits16 target)) with
      ⟨digits, shown⟩
    refine ⟨some digits, ?_, by simp +decide [known, numberType]⟩
    simp +decide only [piece, taken, shown, if_true, if_false, Option.bind_eq_bind,
      Option.bind_some]
  have number : numberType target ⟨flag, mod, type⟩ = none := by
    simp [numberType, char, unsigned, hex, pointer, other]
  have same : rest = behind := by
    unfold Specifier.takes at takes
    rw [if_neg string, number] at takes
    exact Option.some.inj takes
  subst same
  refine ⟨none, ?_, ?_⟩
  · simp only [piece, string, percent, char, unsigned, hex, pointer, other, if_false]
  · simp [known, string, percent, number]

/-- A specifier whose argument is there has its text, and the piece is that text unless
it overflows. -/
theorem piece_cases (takes : spec.takes target rest = some behind) :
    Exists fun text => (Directive.specifier spec).text target rest = some (text, behind) ∧
      text.isSome = spec.known target ∧
      ((Directive.specifier spec).Least target rest ∧ spec.piece target rest = none ∨
        ¬(Directive.specifier spec).Least target rest ∧
          Exists fun piece => spec.piece target rest = some (piece, behind) ∧
            piece.map CString.chars = text) := by
  by_cases signed : spec.type = 'd'.toUInt8
  · have number : spec.numberType target = some (spec.mod.signedType target) := by
      simp +decide [numberType, signed]
    have string : spec.type ≠ 's'.toUInt8 := by
      rw [signed]
      decide
    rcases takes_number number string takes with ⟨value, taken⟩
    refine ⟨some (decimalText value), ?_, ?_, ?_⟩
    · rw [Directive.text, if_pos signed, taken]
      rfl
    · simp [known, number]
    · by_cases least : value = (spec.mod.signedType target).min target
      · refine .inl ⟨⟨signed, behind, least ▸ taken⟩, ?_⟩
        simp +decide only [piece, signed, taken, least, decimal_least, if_true, if_false,
          Option.bind_eq_bind, Option.bind_some, Option.bind_none]
      · refine .inr ⟨?_, some (decimalString value), ?_, rfl⟩
        · rintro ⟨_, others, first⟩
          rw [taken] at first
          cases first
          exact least rfl
        · simp +decide only [piece, signed, taken, decimal_signed spec.mod (vaArg_holds taken) least,
            if_true, if_false, Option.bind_eq_bind, Option.bind_some]
  · rcases piece_some signed takes with ⟨piece, shown, known⟩
    refine ⟨piece.map CString.chars, ?_, ?_, .inr ⟨fun least => signed least.1, piece, shown, rfl⟩⟩
    · rw [Directive.text, if_neg signed, shown]
      rfl
    · rw [Option.isSome_map, known]

end Specifier

theorem literalPiece_some (ch : UInt8) : Exists fun chstr => literalPiece ch = some chstr := by
  rw [literalPiece, CString.ofBuffer, if_pos (List.mem_cons_of_mem _ List.mem_cons_self)]
  exact ⟨_, rfl⟩

section Texts

variable {directive : Directive} {directives : List Directive} {rest behind : List Argument}

theorem Directive.texts_cons {own : List UInt8} {all : List (List UInt8)}
    (itsText : directive.text target rest = some (some own, behind))
    (others : texts target directives behind = some all) :
    texts target (directive :: directives) rest = some (own :: all) := by
  simp only [texts, itsText, others, Option.bind_eq_bind, Option.bind_some, pure]

theorem Directive.texts_unknown (itsText : directive.text target rest = some (none, behind)) :
    texts target (directive :: directives) rest = some [] := by
  simp only [texts, itsText, Option.bind_eq_bind, Option.bind_some]

theorem Directive.literal_text {ch : UInt8} {chstr : CString} (shown : literalPiece ch = some chstr) :
    (literal ch).text target rest = some (some chstr.chars, rest) := by
  rw [text, shown]
  rfl

end Texts

/-- The texts of directives with matching arguments. -/
theorem Directive.exists_texts {directives : List Directive} {rest : List Argument}
    (matched : Matches target directives rest) :
    Exists fun all => texts target directives rest = some all := by
  induction directives generalizing rest with
  | nil => exact ⟨[], rfl⟩
  | cons directive directives inductionHypothesis =>
      cases directive with
      | literal ch =>
          rcases literalPiece_some ch with ⟨chstr, shown⟩
          rcases inductionHypothesis matched with ⟨others, known⟩
          exact ⟨chstr.chars :: others, texts_cons (literal_text shown) known⟩
      | specifier spec =>
          rcases matched with ⟨behind, takes, further⟩
          rcases Specifier.piece_cases takes with ⟨text, shown, isKnown, _⟩
          cases text with
          | none => exact ⟨[], texts_unknown shown⟩
          | some text =>
              rcases inductionHypothesis (further isKnown.symm) with ⟨others, known⟩
              exact ⟨text :: others, texts_cons shown known⟩

end Pine
end Pinyon
