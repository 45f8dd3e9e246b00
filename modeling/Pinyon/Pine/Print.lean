import Pinyon.Pine.CString

namespace Pinyon
namespace Pine

/-!
# Formatted text

`vfnprintf` hands the text of a format string to `try_add_string`, piece by
piece.  The format is read from left to right whatever the arguments are, so
reading it comes first here: `Directive.scan` gives the literal characters and
the specifiers, and `vfnprintf` goes through them.  `none` is an argument that is
not there, or not of the type that a specifier asks for.
-/

inductive FlagModifiers where
  | none
  | alternativeForm
deriving DecidableEq, Repr

inductive ArgModifiers where
  | none
  | long
  | sizeT
deriving DecidableEq, Repr

/-- What stands behind a `'%'`. -/
structure Specifier where
  flag : FlagModifiers
  mod : ArgModifiers
  type : UInt8
deriving DecidableEq, Repr

inductive Directive where
  | literal (ch : UInt8)
  | specifier (spec : Specifier)
deriving DecidableEq, Repr

namespace Directive

/-- How far a directive has been read. -/
inductive Stage where
  | start
  | percent
  | flagged (flag : FlagModifiers)
  | modified (flag : FlagModifiers) (mod : ArgModifiers)

/-- The next character, where a modifier or the type may stand. -/
def readMod (flag : FlagModifiers) (ch : UInt8) : Option Directive × Stage :=
  if ch = 'l'.toUInt8 then (none, .modified flag .long)
  else if ch = 'z'.toUInt8 then (none, .modified flag .sizeT)
  else (some (.specifier ⟨flag, .none, ch⟩), .start)

def Stage.read (ch : UInt8) : Stage -> Option Directive × Stage
  | start => if ch = '%'.toUInt8 then (none, percent) else (some (.literal ch), start)
  | percent =>
      if ch = '#'.toUInt8 then (none, flagged .alternativeForm) else readMod .none ch
  | flagged flag => readMod flag ch
  | modified flag mod => (some (.specifier ⟨flag, mod, ch⟩), start)

/-- Behind the last character of the format the iterator gives a NUL. -/
def Stage.finish : Stage -> List Directive
  | start => []
  | percent => [.specifier ⟨.none, .none, 0⟩]
  | flagged flag => [.specifier ⟨flag, .none, 0⟩]
  | modified flag mod => [.specifier ⟨flag, mod, 0⟩]

def scan (stage : Stage) : List UInt8 -> List Directive
  | [] => stage.finish
  | ch :: rest =>
      let read := stage.read ch
      read.1.toList ++ scan read.2 rest

/-- The directives of a format string. -/
def ofFormat (fmt : CString) : List Directive :=
  scan .start fmt.chars

end Directive

/-- What `va_arg` may find. -/
inductive Argument where
  | string (str : CString)
  | number (type : IntType) (value : Int)
deriving DecidableEq

/-- `va_arg` of an integer type, which does not tell signed from unsigned. -/
def vaArg (target : Target) (type : IntType) : List Argument -> Option (Int × List Argument)
  | .number given value :: rest =>
      if given.width target = type.width target then some (type.convert target value, rest) else none
  | _ => none

/-- The unsigned type that a modifier stands for. -/
def ArgModifiers.unsignedType (target : Target) : ArgModifiers -> IntType
  | none => .unsignedInt
  | long => .unsignedLong
  | sizeT => .size target

def ArgModifiers.signedType (target : Target) : ArgModifiers -> IntType
  | none => .int
  | long => .long
  | sizeT => .ssize target

/-- `bzero` of a buffer. -/
def zeroed (bufsize : Nat) : List UInt8 :=
  List.replicate bufsize 0

/-- The digits of a number, in a buffer for the longest. -/
def decimal (target : Target) (longest type : IntType) (num : Int) : Option CString := do
  let bufsize := longest.characters10 target + 1
  let digits <- toStrbuf target type (zeroed bufsize) 0 bufsize num
  CString.ofBuffer digits

/-- The hexadecimal digits of a number, with `0x` in front of them if asked for. -/
def hexadecimal (target : Target) (longest type : IntType) (alternativeForm : Bool) (num : Int) :
    Option CString := do
  let bufsize := longest.digits16 target + 3
  let hex := zeroed bufsize
  if alternativeForm then
    let hex <- storeChar hex 0 '0'.toUInt8
    let hex <- storeChar hex 1 'x'.toUInt8
    let hex <- toStrbufHex target type hex 2 (bufsize - 2) num.toNat .lower
    CString.ofBuffer hex
  else
    let hex <- toStrbufHex target type hex 0 bufsize num.toNat .lower
    CString.ofBuffer hex

/-- The piece of text that a specifier stands for and the arguments behind it.  A
type that is not known has no piece. -/
def Specifier.piece (target : Target) (spec : Specifier) (rest : List Argument) :
    Option (Option CString × List Argument) := do
  if spec.type = 's'.toUInt8 then
    match rest with
    | .string str :: rest => some (some str, rest)
    | _ => none
  else if spec.type = '%'.toUInt8 then
    let chstr <- CString.ofBuffer ['%'.toUInt8, 0]
    some (some chstr, rest)
  else if spec.type = 'c'.toUInt8 then
    let (value, rest) <- vaArg target .int rest
    let str <- CString.ofBuffer [UInt8.ofInt value, 0]
    some (some str, rest)
  else if spec.type = 'u'.toUInt8 then
    let type := spec.mod.unsignedType target
    let (value, rest) <- vaArg target type rest
    let digits <- decimal target (.size target) type value
    some (some digits, rest)
  else if spec.type = 'd'.toUInt8 then
    let type := spec.mod.signedType target
    let (value, rest) <- vaArg target type rest
    let digits <- decimal target (.ssize target) type value
    some (some digits, rest)
  else if spec.type = 'x'.toUInt8 then
    let type := spec.mod.unsignedType target
    let (value, rest) <- vaArg target type rest
    let hex <- hexadecimal target (.size target) type (spec.flag = .alternativeForm) value
    some (some hex, rest)
  else if spec.type = 'p'.toUInt8 then
    let (value, rest) <- vaArg target (.ptrData target) rest
    let hex <- hexadecimal target (.ptrData target) (.ptrData target) true value
    some (some hex, rest)
  else some (none, rest)

/-- The piece of a literal character, `chstr`. -/
def literalPiece (ch : UInt8) : Option CString :=
  CString.ofBuffer [ch, 0]

variable {State : Type}

/-- The loop of `vfnprintf`.  What `try_add_string` returns for a literal is not
looked at. -/
def vfnprintf (target : Target) (tryAddString : State -> CString -> Bool × State) :
    List Directive -> List Argument -> State -> Option (Bool × State)
  | [], _, state => some (true, state)
  | .literal ch :: directives, rest, state => do
      let chstr <- literalPiece ch
      vfnprintf target tryAddString directives rest (tryAddString state chstr).2
  | .specifier spec :: directives, rest, state => do
      let (piece, rest) <- spec.piece target rest
      match piece with
      | none => some (false, state)
      | some piece =>
          let added := tryAddString state piece
          if added.1 then vfnprintf target tryAddString directives rest added.2
          else some (false, added.2)

/-- Keeps every piece. -/
def collect (pieces : List CString) (piece : CString) : Bool × List CString :=
  (true, pieces ++ [piece])

/-- The pieces that `vfnprintf` produces for a format and its arguments. -/
def piecesOf (target : Target) (fmt : CString) (args : List Argument) : Option (List CString) := do
  let (_, pieces) <- vfnprintf target collect (Directive.ofFormat fmt) args []
  return pieces

/-- Their concatenation. -/
def textOf (pieces : List CString) : List UInt8 :=
  (pieces.map CString.chars).flatten

@[simp] theorem textOf_append (first second : List CString) :
    textOf (first ++ second) = textOf first ++ textOf second := by
  simp [textOf]

@[simp] theorem textOf_singleton (piece : CString) : textOf [piece] = piece.chars := by
  simp [textOf]

/-! ## What a wrapper keeps -/

variable {target : Target} {directives : List Directive} {rest : List Argument}

/-- Pieces are only ever added. -/
theorem collect_extends {pieces all : List CString} {complete : Bool}
    (ran : vfnprintf target collect directives rest pieces = some (complete, all)) :
    pieces <+: all := by
  induction directives generalizing rest pieces with
  | nil =>
      cases Option.some.inj ran
      exact List.prefix_rfl
  | cons directive directives inductionHypothesis =>
      cases directive with
      | literal ch =>
          rcases Option.bind_eq_some_iff.mp ran with ⟨chstr, _, ran⟩
          exact (List.prefix_append _ _).trans (inductionHypothesis ran)
      | specifier spec =>
          rcases Option.bind_eq_some_iff.mp ran with ⟨⟨piece, rest⟩, _, ran⟩
          cases piece with
          | none =>
              cases Option.some.inj ran
              exact List.prefix_rfl
          | some piece => exact (List.prefix_append _ _).trans (inductionHypothesis ran)

/-- A wrapper that keeps an invariant, and refuses no piece of a text that fits,
is given exactly the pieces of the text. -/
theorem vfnprintf_keeps (tryAddString : State -> CString -> Bool × State)
    (invariant : State -> List CString -> Prop) (fits : List CString -> Prop)
    (shorter : forall first second, first <+: second -> fits second -> fits first)
    (adds : forall state pieces piece, invariant state pieces -> fits (pieces ++ [piece]) ->
      (tryAddString state piece).1 = true ∧
        invariant (tryAddString state piece).2 (pieces ++ [piece]))
    {state : State} {pieces all : List CString} {complete : Bool}
    (holds : invariant state pieces) (fit : fits all)
    (ran : vfnprintf target collect directives rest pieces = some (complete, all)) :
    Exists fun after =>
      vfnprintf target tryAddString directives rest state = some (complete, after) ∧
        invariant after all := by
  induction directives generalizing rest pieces state with
  | nil =>
      cases Option.some.inj ran
      exact ⟨state, rfl, holds⟩
  | cons directive directives inductionHypothesis =>
      cases directive with
      | literal ch =>
          rcases Option.bind_eq_some_iff.mp ran with ⟨chstr, literal, ran⟩
          have kept := adds state pieces chstr holds (shorter _ _ (collect_extends ran) fit)
          rcases inductionHypothesis kept.2 ran with ⟨after, taken, invariantAfter⟩
          refine ⟨after, ?_, invariantAfter⟩
          rw [vfnprintf, literal]
          exact taken
      | specifier spec =>
          rcases Option.bind_eq_some_iff.mp ran with ⟨⟨piece, rest⟩, produced, ran⟩
          cases piece with
          | none =>
              cases Option.some.inj ran
              refine ⟨state, ?_, holds⟩
              rw [vfnprintf, produced]
              rfl
          | some piece =>
              have kept := adds state pieces piece holds (shorter _ _ (collect_extends ran) fit)
              rcases inductionHypothesis kept.2 ran with ⟨after, taken, invariantAfter⟩
              refine ⟨after, ?_, invariantAfter⟩
              rw [vfnprintf, produced]
              simp only [Option.bind_eq_bind, Option.bind_some, kept.1, if_true]
              exact taken

/-- Whatever the wrapper does, `vfnprintf` comes to its end, and what every piece
preserves holds there. -/
theorem vfnprintf_total (tryAddString : State -> CString -> Bool × State) (property : State -> Prop)
    (preserved : forall state piece, property state -> property (tryAddString state piece).2)
    {state : State} {pieces all : List CString} {complete : Bool}
    (ran : vfnprintf target collect directives rest pieces = some (complete, all)) :
    Exists fun outcome => vfnprintf target tryAddString directives rest state = some outcome ∧
      (property state -> property outcome.2) := by
  induction directives generalizing rest pieces state with
  | nil => exact ⟨(true, state), rfl, id⟩
  | cons directive directives inductionHypothesis =>
      cases directive with
      | literal ch =>
          rcases Option.bind_eq_some_iff.mp ran with ⟨chstr, literal, ran⟩
          rcases @inductionHypothesis rest (tryAddString state chstr).2 _ ran with
            ⟨outcome, taken, holds⟩
          refine ⟨outcome, ?_, fun before => holds (preserved state chstr before)⟩
          rw [vfnprintf, literal]
          exact taken
      | specifier spec =>
          rcases Option.bind_eq_some_iff.mp ran with ⟨⟨piece, rest⟩, produced, ran⟩
          rw [vfnprintf, produced]
          cases piece with
          | none => exact ⟨(false, state), rfl, id⟩
          | some piece =>
              simp only [Option.bind_eq_bind, Option.bind_some]
              cases (tryAddString state piece).1 with
              | false =>
                  exact ⟨(false, (tryAddString state piece).2), rfl, preserved state piece⟩
              | true =>
                  rcases @inductionHypothesis rest (tryAddString state piece).2 _ ran with
                    ⟨outcome, taken, holds⟩
                  exact ⟨outcome, taken, fun before => holds (preserved state piece before)⟩

end Pine
end Pinyon
