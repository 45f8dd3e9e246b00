import Pinyon.Pine.PrintPieces

namespace Pinyon
namespace Pine

/-!
# Printing into a buffer

`vsbufprintf` copies the pieces of a text into a buffer, as far as there is room for
them and a NUL.  The NUL comes with each piece, so a text without any piece leaves the
buffer as it was.
-/

/-- The loop of `strbufcopy`, into the part of a buffer from `start` on. -/
def strbufcopyFrom (start bufsize : Nat) :
    List UInt8 -> Nat -> List UInt8 -> Option (List UInt8 × Nat)
  | [], copied, buf => do
      let buf <- storeChar buf (start + copied) 0
      return (buf, copied)
  | ch :: from_, copied, buf =>
      if copied + 1 < bufsize then do
        let buf <- storeChar buf (start + copied) ch
        strbufcopyFrom start bufsize from_ (copied + 1) buf
      else do
        let buf <- storeChar buf (start + copied) 0
        return (buf, copied)

/-- `strbufcopy`. -/
def strbufcopy (buf : List UInt8) (start bufsize : Nat) (from_ : CString) :
    Option (List UInt8 × Nat) :=
  if bufsize = 0 then some (buf, 0) else strbufcopyFrom start bufsize from_.chars 0 buf

/-- The buffer of `vsbufprintf` and `buf_pos`. -/
structure BufferPrinting where
  buf : List UInt8
  bufPos : Nat

namespace BufferPrinting

/-- `try_add_wrapper`; the state is lost with a store outside the buffer. -/
def tryAddWrapper (bufsize : Nat) (state : Option BufferPrinting) (message : CString) :
    Bool × Option BufferPrinting :=
  match state with
  | none => (false, none)
  | some printing =>
      let messageSize := message.strlen
      match strbufcopy printing.buf printing.bufPos (bufsize - printing.bufPos) message with
      | none => (false, none)
      | some (buf, copied) =>
          (copied = messageSize, some { buf, bufPos := printing.bufPos + copied })

end BufferPrinting

/-- `vsbufprintf`. -/
def vsbufprintf (target : Target) (buf : List UInt8) (bufsize : Nat) (fmt : CString)
    (args : List Argument) : Option (List UInt8 × Nat) :=
  if bufsize = 0 then some (buf, 0)
  else do
    let (_, state) <- vfnprintf target (BufferPrinting.tryAddWrapper bufsize)
      (Directive.ofFormat fmt) args (some { buf, bufPos := 0 })
    let printing <- state
    return (printing.buf, printing.bufPos)

/-! ## Copying -/

/-- As much of the string as there is room for, and a NUL. -/
theorem strbufcopyFrom_eq {start bufsize copied : Nat} {buf : List UInt8} (from_ : List UInt8)
    (room : copied < bufsize) (inside : start + bufsize ≤ buf.length) :
    strbufcopyFrom start bufsize from_ copied buf =
      some (buf.take (start + copied) ++ from_.take (bufsize - 1 - copied) ++
          0 :: buf.drop (start + copied + (from_.take (bufsize - 1 - copied)).length + 1),
        copied + (from_.take (bufsize - 1 - copied)).length) := by
  induction from_ generalizing copied buf with
  | nil =>
      have there : start + copied < buf.length := by omega
      rw [strbufcopyFrom, storeChar_of_lt there, set_eq there, List.take_nil, List.append_nil]
      rfl
  | cons ch from_ inductionHypothesis =>
      have there : start + copied < buf.length := by omega
      rw [strbufcopyFrom]
      split
      next more =>
          have left_ : bufsize - 1 - copied = bufsize - 1 - (copied + 1) + 1 := by omega
          have behind : start + copied <
              start + copied + 1 + (from_.take (bufsize - 1 - (copied + 1))).length + 1 := by omega
          have count : start + copied + 1 + (from_.take (bufsize - 1 - (copied + 1))).length =
              start + copied + ((from_.take (bufsize - 1 - (copied + 1))).length + 1) := by omega
          have sum : copied + 1 + (from_.take (bufsize - 1 - (copied + 1))).length =
              copied + ((from_.take (bufsize - 1 - (copied + 1))).length + 1) := by omega
          rw [storeChar_of_lt there, Option.bind_eq_bind, Option.bind_some,
            inductionHypothesis more (by rwa [List.length_set]), ← Nat.add_assoc,
            take_succ_set there, List.drop_set_of_lt behind, left_, List.take_succ_cons,
            List.length_cons, count, sum, List.append_assoc, List.append_assoc, List.append_assoc]
          rfl
      next full =>
          have none_left : bufsize - 1 - copied = 0 := by omega
          rw [storeChar_of_lt there, set_eq there, none_left, List.take_zero, List.append_nil]
          rfl

namespace BufferPrinting

/-- What is in the buffer when a text has been printed; if it has pieces there is a NUL
behind it. -/
structure Holds (bufsize : Nat) (text : List UInt8) (ended : Prop) (printing : BufferPrinting) :
    Prop where
  size : printing.buf.length = bufsize
  pos : printing.bufPos = (text.take (bufsize - 1)).length
  chars : printing.buf.take printing.bufPos = text.take (bufsize - 1)
  nul : ended -> printing.buf[printing.bufPos]? = some 0

variable {bufsize : Nat} {text more : List UInt8} {ended : Prop} {printing : BufferPrinting}

/-- Behind a text that fills the buffer more text makes no difference. -/
theorem Holds.extend (holds : Holds bufsize text ended printing) (full : bufsize - 1 ≤ text.length)
    (more : List UInt8) : Holds bufsize (text ++ more) ended printing := by
  have same : (text ++ more).take (bufsize - 1) = text.take (bufsize - 1) :=
    List.take_append_of_le_length full
  exact ⟨holds.size, same ▸ holds.pos, same ▸ holds.chars, holds.nul⟩

/-- A piece is added as far as there is room, and is refused if there is too little. -/
theorem Holds.add (holds : Holds bufsize text ended printing) (some_ : 0 < bufsize)
    (message : CString) :
    Exists fun after => tryAddWrapper bufsize (some printing) message =
        (decide (message.chars.length ≤ bufsize - 1 - text.length), some after) ∧
      Holds bufsize (text ++ message.chars) True after := by
  let fitting := message.chars.take (bufsize - 1 - text.length)
  have position : printing.bufPos = min (bufsize - 1) text.length := by
    rw [holds.pos, List.length_take]
  have room : bufsize - printing.bufPos - 1 - 0 = bufsize - 1 - text.length := by omega
  have more : 0 < bufsize - printing.bufPos := by omega
  have inside : printing.bufPos + (bufsize - printing.bufPos) ≤ printing.buf.length := by
    rw [holds.size]
    omega
  have taken : fitting.length = min (bufsize - 1 - text.length) message.chars.length :=
    List.length_take
  have copied : strbufcopy printing.buf printing.bufPos (bufsize - printing.bufPos) message =
      some (printing.buf.take printing.bufPos ++ fitting ++
          0 :: printing.buf.drop (printing.bufPos + fitting.length + 1), fitting.length) := by
    rw [strbufcopy, if_neg (Nat.ne_of_gt more), strbufcopyFrom_eq message.chars more inside, room,
      Nat.zero_add, Nat.add_zero]
  have complete : decide (fitting.length = message.strlen) =
      decide (message.chars.length ≤ bufsize - 1 - text.length) := by
    rw [taken, CString.strlen, decide_eq_decide]
    exact min_eq_right_iff
  have whole : (text ++ message.chars).take (bufsize - 1) = text.take (bufsize - 1) ++ fitting :=
    List.take_append
  have before : (printing.buf.take printing.bufPos ++ fitting).length =
      printing.bufPos + fitting.length := by
    rw [List.length_append, List.length_take, holds.size, Nat.min_eq_left (by omega)]
  have result : tryAddWrapper bufsize (some printing) message =
      (decide (message.chars.length ≤ bufsize - 1 - text.length),
        some
          { buf := printing.buf.take printing.bufPos ++ fitting ++
              0 :: printing.buf.drop (printing.bufPos + fitting.length + 1)
            bufPos := printing.bufPos + fitting.length }) := by
    rw [tryAddWrapper, copied, ← complete]
  refine ⟨_, result, { size := ?_, pos := ?_, chars := ?_, nul := fun _ => ?_ }⟩
  · rw [List.length_append, before, List.length_cons, List.length_drop, holds.size]
    omega
  · rw [whole, List.length_append, holds.pos]
  · rw [whole, ← holds.chars]
    exact List.take_left' before
  · rw [List.getElem?_append_right (Nat.le_of_eq before), before, Nat.sub_self]
    rfl

theorem Holds.imp {ended' : Prop} (holds : Holds bufsize text ended printing)
    (later : ended' -> ended) : Holds bufsize text ended' printing :=
  ⟨holds.size, holds.pos, holds.chars, fun ended => holds.nul (later ended)⟩

end BufferPrinting

/-! ## The whole text -/

namespace Directive

/-- Whether `vfnprintf` goes on behind a directive.  It does not behind a specifier whose
text is refused. -/
def goesOn (room : Nat) (text : List UInt8) : Directive -> Prop
  | .literal _ => True
  | .specifier _ => text.length ≤ room

/-- Behind `length` characters, `vfnprintf` gets to a number in decimal that is the least
of its type. -/
def MeetsLeast (target : Target) (bufsize : Nat) :
    List Directive -> List Argument -> Nat -> Prop
  | [], _, _ => False
  | directive :: directives, rest, length =>
      directive.Least target rest ∨
        Exists fun text => Exists fun behind =>
          directive.text target rest = some (some text, behind) ∧
            directive.goesOn (bufsize - 1 - length) text ∧
            MeetsLeast target bufsize directives behind (length + text.length)

/-- A directive that has a text. -/
def known (target : Target) : Directive -> Bool
  | .literal _ => true
  | .specifier spec => spec.known target

end Directive

section Run

open BufferPrinting Directive

variable {target : Target} {bufsize : Nat} {text : List UInt8} {ended : Prop}
variable {printing : BufferPrinting} {directives : List Directive} {rest : List Argument}

/-- Where there is a text, the directives behind it decide. -/
theorem meetsLeast_cons {directive : Directive} {behind : List Argument} {own : List UInt8}
    {length : Nat} (greater : ¬ directive.Least target rest)
    (itsText : directive.text target rest = some (some own, behind)) :
    MeetsLeast target bufsize (directive :: directives) rest length <->
      directive.goesOn (bufsize - 1 - length) own ∧
        MeetsLeast target bufsize directives behind (length + own.length) := by
  rw [MeetsLeast, or_iff_right greater]
  constructor
  · rintro ⟨other, _, same, goesOn, least⟩
    cases itsText.symm.trans same
    exact ⟨goesOn, least⟩
  · rintro ⟨goesOn, least⟩
    exact ⟨own, behind, itsText, goesOn, least⟩

/-- `vfnprintf` loses everything when it gets to a least number, and leaves the text in the
buffer otherwise. -/
theorem vfnprintf_cases (some_ : 0 < bufsize) (matched : Matches target directives rest)
    (holds : Holds bufsize text ended printing) :
    MeetsLeast target bufsize directives rest text.length ∧
        vfnprintf target (tryAddWrapper bufsize) directives rest (some printing) = none ∨
      ¬ MeetsLeast target bufsize directives rest text.length ∧
        Exists fun all => texts target directives rest = some all ∧
          Exists fun complete => Exists fun after =>
            vfnprintf target (tryAddWrapper bufsize) directives rest (some printing) =
              some (complete, some after) ∧
            Holds bufsize (text ++ all.flatten) (ended ∨ all ≠ []) after := by
  induction directives generalizing rest text ended printing with
  | nil =>
      refine .inr ⟨id, [], rfl, true, printing, rfl, ?_⟩
      rw [List.flatten_nil, List.append_nil]
      exact holds.imp fun ended => ended.resolve_right (fun nonempty => nonempty rfl)
  | cons directive directives inductionHypothesis =>
      cases directive with
      | literal ch =>
          rcases literalPiece_some ch with ⟨chstr, shown⟩
          rcases holds.add some_ chstr with ⟨after, added, held⟩
          have itsText := @literal_text target rest ch chstr shown
          have onward : vfnprintf target (tryAddWrapper bufsize) (.literal ch :: directives) rest
                (some printing) =
              vfnprintf target (tryAddWrapper bufsize) directives rest (some after) := by
            rw [vfnprintf, shown, Option.bind_eq_bind, Option.bind_some, added]
          rw [meetsLeast_cons id itsText, onward, ← List.length_append]
          rcases inductionHypothesis matched held with
            ⟨least, lost⟩ | ⟨greater, all, known, complete, last, ran, ends⟩
          · exact .inl ⟨⟨trivial, least⟩, lost⟩
          · refine .inr ⟨fun both => greater both.2, chstr.chars :: all, texts_cons itsText known,
              complete, last, ran, ?_⟩
            rw [List.flatten_cons, ← List.append_assoc]
            exact ends.imp fun _ => .inl trivial
      | specifier spec =>
          rcases matched with ⟨behind, takes, others⟩
          rcases Specifier.piece_cases takes with ⟨shown, itsText, isKnown, both⟩
          rcases both with ⟨least, overflows⟩ | ⟨greater, piece, produced, same⟩
          · refine .inl ⟨.inl least, ?_⟩
            rw [vfnprintf, overflows]
            rfl
          subst same
          cases piece with
          | none =>
              refine .inr ⟨?_, [], texts_unknown itsText, false, printing, ?_, ?_⟩
              · rw [MeetsLeast, or_iff_right greater]
                rintro ⟨_, _, same, _⟩
                cases itsText.symm.trans same
              · rw [vfnprintf, produced]
                rfl
              · rw [List.flatten_nil, List.append_nil]
                exact holds.imp fun ended => ended.resolve_right (fun nonempty => nonempty rfl)
          | some piece =>
              rcases holds.add some_ piece with ⟨after, added, held⟩
              have taken : vfnprintf target (tryAddWrapper bufsize) (.specifier spec :: directives) rest
                    (some printing) =
                  if piece.chars.length ≤ bufsize - 1 - text.length then
                    vfnprintf target (tryAddWrapper bufsize) directives behind (some after)
                  else some (false, some after) := by
                rw [vfnprintf, produced, Option.bind_eq_bind, Option.bind_some]
                simp only [added, decide_eq_true_eq]
              rw [meetsLeast_cons greater itsText, taken, ← List.length_append]
              by_cases fits : piece.chars.length ≤ bufsize - 1 - text.length
              · rw [if_pos fits]
                rcases inductionHypothesis (others isKnown.symm) held with
                  ⟨least, lost⟩ | ⟨greater, all, known, complete, last, ran, ends⟩
                · exact .inl ⟨⟨fits, least⟩, lost⟩
                · refine .inr ⟨fun both => greater both.2, piece.chars :: all,
                    texts_cons itsText known, complete, last, ran, ?_⟩
                  rw [List.flatten_cons, ← List.append_assoc]
                  exact ends.imp fun _ => .inl trivial
              · rw [if_neg fits]
                rcases exists_texts (others isKnown.symm) with ⟨all, known⟩
                refine .inr ⟨fun both => fits both.1, piece.chars :: all, texts_cons itsText known,
                  false, after, rfl, ?_⟩
                -- the piece has filled the buffer, so what would have followed changes nothing
                have full : bufsize - 1 ≤ (text ++ piece.chars).length := by
                  rw [List.length_append]
                  omega
                rw [List.flatten_cons, ← List.append_assoc]
                exact (held.extend full all.flatten).imp fun _ => trivial

/-- A text that begins with what is not known leaves everything as it was. -/
theorem vfnprintf_unknown {state : Option BufferPrinting} (matched : Matches target directives rest)
    (unknown : forall first, first ∈ directives.head? -> first.known target = false) :
    texts target directives rest = some [] ∧
      Exists fun complete =>
        vfnprintf target (tryAddWrapper bufsize) directives rest state = some (complete, state) := by
  cases directives with
  | nil => exact ⟨rfl, true, rfl⟩
  | cons directive directives =>
      have first := unknown directive rfl
      cases directive with
      | literal ch => cases first
      | specifier spec =>
          rcases matched with ⟨behind, takes, _⟩
          have other : spec.type ≠ 'd'.toUInt8 := by
            intro signed
            simp +decide [Directive.known, Specifier.known, Specifier.numberType, signed] at first
          rcases Specifier.piece_some other takes with ⟨piece, produced, isKnown⟩
          cases Option.isNone_iff_eq_none.mp (Option.isSome_eq_false_iff.mp (isKnown.trans first))
          refine ⟨?_, false, ?_⟩
          · rw [texts, Directive.text, if_neg other, produced]
            rfl
          · rw [vfnprintf, produced]
            rfl

theorem texts_known {all : List (List UInt8)} {first : Directive}
    (matched : Matches target directives rest) (member : first ∈ directives.head?)
    (known : first.known target = true) (formed : texts target directives rest = some all) :
    all ≠ [] := by
  rcases List.head?_eq_some_iff.mp (Option.mem_def.mp member) with ⟨others, rfl⟩
  intro empty
  subst empty
  rcases Option.bind_eq_some_iff.mp formed with ⟨⟨text, behind⟩, itsText, formed⟩
  cases text with
  | some text =>
      rcases Option.bind_eq_some_iff.mp formed with ⟨_, _, equal⟩
      cases equal
  | none =>
      cases first with
      | literal ch =>
          rcases Option.bind_eq_some_iff.mp itsText with ⟨_, _, equal⟩
          cases equal
      | specifier spec =>
          rcases matched with ⟨_, takes, _⟩
          rcases Specifier.piece_cases takes with ⟨shown, same, isKnown, _⟩
          rw [itsText] at same
          cases same
          cases isKnown.trans known

end Run

/-! ## The buffer at the end -/

/-- The buffer has as much of a text as there is room for, and a NUL behind it. -/
structure Printed (buf text after : List UInt8) (ret : Nat) : Prop where
  count : ret = min text.length (buf.length - 1)
  size : after.length = buf.length
  chars : after.take ret = text.take ret
  nul : after[ret]? = some 0

/-- `vsbufprintf` stays in the buffer and prints the text of the format. -/
def PrintsWell (target : Target) (buf : List UInt8) (fmt : CString) (args : List Argument) : Prop :=
  Exists fun all => Directive.texts target (Directive.ofFormat fmt) args = some all ∧
    Exists fun after => Exists fun ret =>
      vsbufprintf target buf buf.length fmt args = some (after, ret) ∧
        Printed buf all.flatten after ret

open Directive BufferPrinting

/-- A text is printed well just when no least number is met in decimal, and the format
begins with something that is known or there is a NUL at the start of the buffer. -/
theorem prints_well_iff (target : Target) (buf : List UInt8) (fmt : CString) (args : List Argument)
    (some_ : 0 < buf.length) (matched : Matches target (ofFormat fmt) args) :
    PrintsWell target buf fmt args <->
      ¬ MeetsLeast target buf.length (ofFormat fmt) args 0 ∧
        ((Exists fun first => first ∈ (ofFormat fmt).head? ∧ first.known target = true) ∨
          buf[0]? = some 0) := by
  have begun : Holds buf.length [] (buf[0]? = some 0) { buf, bufPos := 0 } :=
    { size := rfl, pos := by rw [List.take_nil]; rfl, chars := List.take_nil.symm
      nul := fun ended => ended }
  have nonzero : buf.length ≠ 0 := Nat.ne_of_gt some_
  constructor
  · rintro ⟨all, formed, after, ret, ran, printed⟩
    refine ⟨?_, ?_⟩
    · rcases vfnprintf_cases some_ matched begun with ⟨_, lost⟩ | ⟨greater, _⟩
      · rw [vsbufprintf, if_neg nonzero, lost] at ran
        cases ran
      · exact greater
    · by_contra neither
      rw [not_or] at neither
      have unknown : forall first, first ∈ (ofFormat fmt).head? -> first.known target = false := by
        intro first member
        exact Bool.eq_false_iff.mpr fun known => neither.1 ⟨first, member, known⟩
      rcases @vfnprintf_unknown target buf.length _ _ (some { buf, bufPos := 0 }) matched unknown with
        ⟨_, complete, kept⟩
      rw [vsbufprintf, if_neg nonzero, kept] at ran
      cases ran
      exact neither.2 printed.nul
  · rintro ⟨greater, ends⟩
    rcases (vfnprintf_cases some_ matched begun).resolve_left fun least => greater least.1 with
      ⟨_, all, formed, complete, after, ran, holds⟩
    rw [List.nil_append] at holds
    have ended : buf[0]? = some 0 ∨ all ≠ [] := by
      rcases ends with ⟨first, member, known⟩ | ended
      · exact .inr (texts_known matched member known formed)
      · exact .inl ended
    have count : after.bufPos = min all.flatten.length (buf.length - 1) := by
      rw [holds.pos, List.length_take, Nat.min_comm]
    refine ⟨all, formed, after.buf, after.bufPos, ?_, count, holds.size, ?_, holds.nul ended⟩
    · rw [vsbufprintf, if_neg nonzero, ran]
      rfl
    · rw [holds.chars, count, Nat.min_comm, ← List.take_eq_take_min]

/-- `"=%s"`. -/
def equalString : CString where
  chars := ['='.toUInt8, '%'.toUInt8, 's'.toUInt8]
  terminated := by decide

/-- `"abc"`. -/
def threeChars : CString where
  chars := ['a'.toUInt8, 'b'.toUInt8, 'c'.toUInt8]
  terminated := by decide

theorem prints_well_iff_string : PrintsWell .aarch64 [65, 65, 65] equalString [.string threeChars] <->
    ¬ MeetsLeast .aarch64 3 (ofFormat equalString) [.string threeChars] 0 ∧
      ((Exists fun first => first ∈ (ofFormat equalString).head? ∧ first.known .aarch64 = true) ∨
        [(65 : UInt8), 65, 65][0]? = some 0) :=
  prints_well_iff .aarch64 [65, 65, 65] equalString [.string threeChars] (by decide)
    ⟨[], rfl, fun _ => trivial⟩

/-- Nothing is printed for the empty format, and no NUL either. -/
theorem empty_format_unterminated : Matches .aarch64 (ofFormat .empty) [] ∧
    vsbufprintf .aarch64 [65, 65] 2 .empty [] = some ([65, 65], 0) ∧
    ¬ PrintsWell .aarch64 [65, 65] .empty [] := by
  refine ⟨trivial, rfl, ?_⟩
  rintro ⟨all, _, after, ret, ran, printed⟩
  cases ran
  exact absurd printed.nul (by decide)

end Pine
end Pinyon
