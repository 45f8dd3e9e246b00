import Pinyon.Userspace.Printf

namespace Pinyon
namespace Userspace

open Pine

/-!
# The text that is delivered

The buffer that `printf` begins with holds twice the characters of the format.  As
long as the text is shorter than that, it stays the buffer.  The first piece that
is too long for it is copied behind what may be gone: a heap on which each `malloc`
succeeds may have put the first block at the very end of memory.
-/

variable {State : Type} {target : Target} {heap : Heap State} {printing : Printing State}
variable {fmt : CString} {args : List Argument} {pieces : List CString}

namespace Printing

variable {message : CString}

/-- The three ways a piece is dealt with. -/
theorem tryAddWrapper_cases :
    printing.grows target message.strlen = false ∧
        printing.tryAddWrapper target heap message = (true, printing.copyMessage target message) ∨
      printing.grows target message.strlen = true ∧
        (printing.grow target heap message.strlen).printAlloc.succeeded = true ∧
        printing.tryAddWrapper target heap message =
          (true, (printing.grow target heap message.strlen).copyMessage target message) ∨
      printing.grows target message.strlen = true ∧
        (printing.grow target heap message.strlen).printAlloc.succeeded = false ∧
        printing.tryAddWrapper target heap message =
          (false, printing.grow target heap message.strlen) := by
  rw [tryAddWrapper]
  cases grows : printing.grows target message.strlen with
  | false => exact .inl ⟨rfl, rfl⟩
  | true =>
      cases answered : (printing.grow target heap message.strlen).printAlloc.succeeded with
      | false => exact .inr (.inr ⟨rfl, rfl, by simp [answered]⟩)
      | true => exact .inr (.inl ⟨rfl, rfl, by simp [answered]⟩)

/-- A `malloc` that failed stays recorded. -/
theorem tryAddWrapper_unserved (failed : printing.served = false) :
    (printing.tryAddWrapper target heap message).2.served = false := by
  have copied (before : Printing State) :
      (before.copyMessage target message).served = before.served :=
    (strcopy_frame message.chars).2.2.2.2.2
  have grown : (printing.grow target heap message.strlen).served = false := by
    simp [grow, malloc, free, failed]
  rcases @tryAddWrapper_cases _ target heap printing message with
    ⟨_, same⟩ | ⟨_, _, same⟩ | ⟨_, _, same⟩
  · rw [same, copied, failed]
  · rw [same, copied, grown]
  · rw [same, grown]

/-- When `printf` has got its buffer, it comes to its end. -/
theorem printf_eq {state : State} {memory : Memory} {complete : Bool} {after : Printing State}
    (obtained : ((start target state memory fmt).init target heap).printAlloc.succeeded = true)
    (ran : vfnprintf target (tryAddWrapper target heap) (Directive.ofFormat fmt) args
      ((start target state memory fmt).init target heap) = some (complete, after)) :
    printf target heap state memory fmt args =
      some { written := some after.text, final := after.free heap } := by
  rw [printf]
  simp only [obtained, if_true, ran]
  rfl

/-! ## Short texts -/

/-- The text so far, in the buffer that `printf` began with. -/
structure Gathers (bufsize : Nat) (printing : Printing State) (pieces : List CString) : Prop where
  buffer : printing.printBuf = printing.printAlloc.ptr
  size : printing.bufsize = bufsize
  block : bufsize ≤ printing.printAlloc.size
  pos : printing.printBufPos = (textOf pieces).length
  inside : printing.strayed = false
  text : printing.text = (textOf pieces).map some

/-- A piece that fits with its NUL is added to the text. -/
theorem Gathers.add {bufsize : Nat} (gathers : Gathers bufsize printing pieces)
    (small : bufsize < target.wordLimit) (piece : CString)
    (fits : (textOf (pieces ++ [piece])).length < bufsize) :
    (printing.tryAddWrapper target heap piece).1 = true ∧
      Gathers bufsize (printing.tryAddWrapper target heap piece).2 (pieces ++ [piece]) := by
  rw [textOf_append, textOf_singleton, List.length_append, ← gathers.pos] at fits
  have wraps : (printing.printBufPos + piece.strlen) % target.wordLimit =
      printing.printBufPos + piece.strlen := Nat.mod_eq_of_lt (fits.trans small)
  have stays : printing.grows target piece.strlen = false := by
    rw [grows, wraps, gathers.size]
    exact decide_eq_false (Nat.not_le.mpr fits)
  have copied : printing.tryAddWrapper target heap piece =
      (true, printing.copyMessage target piece) := by
    rw [tryAddWrapper, stays]
    rfl
  rw [copied]
  refine ⟨rfl, ?_⟩
  rcases @strcopy_frame _ printing (printing.printBuf + printing.printBufPos) piece.chars with
    ⟨_, alloc, buf, _, size, _⟩
  have block := gathers.block
  refine
    { buffer := ?_, size := size.trans gathers.size, block := ?_, pos := ?_, inside := ?_
      text := ?_ }
  · change (printing.strcopy _ _).printBuf = (printing.strcopy _ _).printAlloc.ptr
    rw [buf, alloc, gathers.buffer]
  · change bufsize ≤ (printing.strcopy _ _).printAlloc.size
    rw [alloc]
    exact block
  · change (printing.printBufPos + piece.strlen) % target.wordLimit = _
    rw [wraps, gathers.pos, textOf_append, textOf_singleton, List.length_append]
    rfl
  · refine (strcopy_strayed piece.chars).mpr ⟨gathers.inside, fun offset last => ?_⟩
    rw [owns_iff, gathers.buffer]
    omega
  · change (List.range ((printing.printBufPos + piece.strlen) % target.wordLimit)).map _ = _
    rw [wraps, List.range_add, List.map_append, List.map_map, textOf_append, textOf_singleton,
      List.map_append, ← gathers.text, Printing.text]
    congr 1
    · apply List.map_congr_left
      intro offset member
      change (printing.strcopy _ _).memory ((printing.strcopy _ _).printBuf + offset) = _
      rw [buf]
      exact strcopy_before _ (Nat.add_lt_add_left (List.mem_range.mp member) _)
    · rw [← strcopy_chars piece.chars]
      apply List.map_congr_left
      intro offset _
      change (printing.strcopy _ _).memory ((printing.strcopy _ _).printBuf + (_ + offset)) = _
      rw [buf, Nat.add_assoc]

end Printing

open Printing

/-- A text shorter than twice the format is delivered whatever the heap is like. -/
theorem alwaysDelivers_of_short (formed : piecesOf target fmt args = some pieces)
    (short : pieces = [] ∨ (textOf pieces).length < fmt.strlen * 2 % target.wordLimit) :
    AlwaysDelivers target fmt args pieces := by
  intro State heap state memory
  rcases Option.bind_eq_some_iff.mp formed with ⟨⟨complete, all⟩, ran, same⟩
  cases Option.some.inj same
  have small : fmt.strlen * 2 % target.wordLimit < target.wordLimit :=
    Nat.mod_lt _ (Nat.two_pow_pos _)
  by_cases served : Succeeds target (fmt.strlen * 2 % target.wordLimit)
    (heap.malloc state (fmt.strlen * 2 % target.wordLimit)).1
  · have begun : Gathers (fmt.strlen * 2 % target.wordLimit)
        ((Printing.start target state memory fmt).init target heap) [] :=
      { buffer := rfl, size := rfl, block := served.2.1, pos := rfl, inside := rfl, text := rfl }
    have run := vfnprintf_keeps (tryAddWrapper target heap)
      (fun printing pieces => Gathers (fmt.strlen * 2 % target.wordLimit) printing pieces)
      (fun some => some = [] ∨ (textOf some).length < fmt.strlen * 2 % target.wordLimit)
      (fun first second before fits => by
        rcases before with ⟨rest, rfl⟩
        rcases fits with none | fits
        · exact .inl (List.append_eq_nil_iff.mp none).1
        · rw [textOf_append, List.length_append] at fits
          exact .inr (by omega))
      (fun printing some piece gathers fits =>
        gathers.add small piece (fits.resolve_left (by simp)))
      begun short ran
    rcases run with ⟨after, taken, gathered⟩
    refine ⟨_, printf_eq served.1 taken, fun _ => ⟨gathered.inside, ?_⟩⟩
    exact congrArg some gathered.text
  · have unserved : ((Printing.start target state memory fmt).init target heap).served = false := by
      change (true && decide (Succeeds _ _ _)) = false
      rw [Bool.true_and]
      exact decide_eq_false served
    cases obtained : ((Printing.start target state memory fmt).init target heap).printAlloc.succeeded with
    | false =>
        refine ⟨⟨none, (Printing.start target state memory fmt).init target heap⟩, ?_, ?_⟩
        · rw [printf]
          simp [obtained]
        · intro served
          exact absurd served (by simp [unserved])
    | true =>
        rcases vfnprintf_total (tryAddWrapper target heap)
          (fun printing : Printing State => printing.served = false)
          (fun printing piece => @tryAddWrapper_unserved _ target heap printing piece) ran with
          ⟨⟨complete, after⟩, taken, failed⟩
        refine ⟨_, printf_eq obtained taken, fun served => ?_⟩
        have kept : after.served = true := served
        exact absurd (failed unserved) (by simp [kept])

/-! ## Long texts -/

/-- A heap that puts its first block at the end of memory and the others at the
beginning.  It remembers whether there was a first one. -/
def farHeap (target : Target) : Heap Bool where
  malloc := fun started bytes =>
    (if started then ⟨1, max 1 bytes⟩ else ⟨target.wordLimit - max 1 bytes, max 1 bytes⟩, true)
  mallocWrites := fun _ _ _ => false
  free := fun started _ => started
  freeWrites := fun _ _ _ => false

theorem farHeap_succeeds (started : Bool) {bytes : Nat} (small : bytes < target.wordLimit) :
    Succeeds target bytes ((farHeap target).malloc started bytes).1 := by
  have room : 1 < target.wordLimit := by
    cases target <;> decide
  cases started with
  | true =>
      refine ⟨?_, Nat.le_max_right 1 bytes, Nat.one_ne_zero, ?_⟩
      · show (max 1 bytes != 0) = true
        exact bne_iff_ne.mpr (by omega)
      · show 1 + max 1 bytes ≤ target.wordLimit
        omega
  | false =>
      refine ⟨?_, Nat.le_max_right 1 bytes, ?_, ?_⟩
      · show (max 1 bytes != 0) = true
        exact bne_iff_ne.mpr (by omega)
      · show target.wordLimit - max 1 bytes ≠ 0
        omega
      · show target.wordLimit - max 1 bytes + max 1 bytes ≤ target.wordLimit
        omega

namespace Printing

/-- What every state of `printf` on that heap has in common. -/
structure Far (target : Target) (bufsize : Nat) (printing : Printing Bool) : Prop where
  started : printing.heap = true
  served : printing.served = true
  small : printing.bufsize < target.wordLimit
  buffer : printing.printBuf = target.wordLimit - max 1 bufsize
  block : printing.printAlloc.ptr + printing.printAlloc.size ≤ target.wordLimit

/-- Nothing has strayed because the text is still short. -/
structure Short (bufsize : Nat) (printing : Printing Bool) (pieces : List CString) : Prop where
  size : printing.bufsize = bufsize
  pos : printing.printBufPos = (textOf pieces).length
  short : pieces = [] ∨ (textOf pieces).length < bufsize

variable {bufsize : Nat} {piece : CString} {far : Printing Bool}

theorem Far.copy (holds : Far target bufsize far) :
    Far target bufsize (far.copyMessage target piece) := by
  rcases @strcopy_frame _ far (far.printBuf + far.printBufPos) piece.chars with
    ⟨heap, alloc, buf, _, size, served⟩
  refine
    { started := heap.trans holds.started, served := served.trans holds.served
      small := ?_, buffer := buf.trans holds.buffer, block := ?_ }
  · change (far.strcopy _ _).bufsize < target.wordLimit
    rw [size]
    exact holds.small
  · change (far.strcopy _ _).printAlloc.ptr + (far.strcopy _ _).printAlloc.size ≤ _
    rw [alloc]
    exact holds.block

theorem Far.grow (holds : Far target bufsize far) (messageSize : Nat) :
    Far target bufsize (far.grow target (farHeap target) messageSize) ∧
      (far.grow target (farHeap target) messageSize).printAlloc =
        ⟨1, max 1 ((far.bufsize + messageSize + 64) % target.wordLimit)⟩ := by
  have small : (far.bufsize + messageSize + 64) % target.wordLimit < target.wordLimit :=
    Nat.mod_lt _ (Nat.two_pow_pos _)
  have answered : (far.grow target (farHeap target) messageSize).printAlloc =
      ((farHeap target).malloc true ((far.bufsize + messageSize + 64) % target.wordLimit)).1 := by
    rw [← holds.started]
    rfl
  have succeeds := @farHeap_succeeds target true _ small
  refine ⟨{ started := rfl, served := ?_, small := small, buffer := holds.buffer, block := ?_ },
    answered⟩
  · change (far.served && decide (Succeeds target _ ((farHeap target).malloc far.heap _).1)) = true
    rw [holds.started, holds.served]
    exact decide_eq_true succeeds
  · rw [answered]
    exact succeeds.2.2.2

/-- A copy that does not stray ends inside memory, so the text is as short as the
first block. -/
theorem Far.pos_lt (holds : Far target bufsize far) {size : Nat}
    (inside : far.owns (far.printBuf + far.printBufPos + size) = true) :
    far.printBufPos + size < max 1 bufsize := by
  have owned := (owns_iff.mp inside).2
  have block := holds.block
  rw [holds.buffer] at owned
  omega

/-- A piece is never refused, and strays unless the text stays short. -/
theorem Far.add (holds : Far target bufsize far) (small : bufsize < target.wordLimit)
    (short : far.strayed = false -> Short bufsize far pieces) (piece : CString) :
    (far.tryAddWrapper target (farHeap target) piece).1 = true ∧
      Far target bufsize (far.tryAddWrapper target (farHeap target) piece).2 ∧
      ((far.tryAddWrapper target (farHeap target) piece).2.strayed = false ->
        Short bufsize (far.tryAddWrapper target (farHeap target) piece).2 (pieces ++ [piece])) := by
  have room : 66 < target.wordLimit := by
    cases target <;> decide
  rcases @tryAddWrapper_cases _ target (farHeap target) far piece with
    ⟨stays, same⟩ | ⟨grows, _, same⟩ | ⟨_, refused, _⟩
  · rw [same]
    refine ⟨rfl, holds.copy, fun stayed => ?_⟩
    have inside := (strcopy_strayed piece.chars).mp stayed
    have before := short inside.1
    have bound := holds.pos_lt (inside.2 piece.strlen (Nat.le_refl _))
    have wraps : (far.printBufPos + piece.strlen) % target.wordLimit =
        far.printBufPos + piece.strlen := Nat.mod_eq_of_lt (by omega)
    have fits : far.printBufPos + piece.strlen < bufsize := by
      have less := of_decide_eq_false stays
      rw [wraps, before.size] at less
      exact Nat.lt_of_not_le less
    have longer : (textOf (pieces ++ [piece])).length = far.printBufPos + piece.strlen := by
      rw [textOf_append, textOf_singleton, List.length_append, before.pos]
      rfl
    have size : (far.strcopy (far.printBuf + far.printBufPos) piece.chars).bufsize = far.bufsize :=
      (strcopy_frame piece.chars).2.2.2.2.1
    exact
      { size := size.trans before.size
        pos := wraps.trans longer.symm
        short := .inr (by rwa [longer]) }
  · rw [same]
    rcases holds.grow piece.strlen with ⟨grown, answered⟩
    refine ⟨rfl, grown.copy, fun stayed => ?_⟩
    have inside := (strcopy_strayed piece.chars).mp stayed
    have before := short inside.1
    have last := inside.2 piece.strlen (Nat.le_refl _)
    have bound : far.printBufPos + piece.strlen < max 1 bufsize := grown.pos_lt last
    have long : bufsize ≤ far.printBufPos + piece.strlen := by
      have reached := of_decide_eq_true grows
      rw [before.size] at reached
      exact reached.trans (Nat.mod_le _ _)
    -- only an empty piece for an empty buffer is left, and the new block is not there
    have empty : bufsize = 0 ∧ far.printBufPos = 0 ∧ piece.strlen = 0 := by omega
    have owned := (owns_iff.mp last).2
    have buffer : (far.grow target (farHeap target) piece.strlen).printBuf = target.wordLimit - 1 := by
      rw [grown.buffer, empty.1]
      rfl
    rw [answered, buffer, before.size, empty.1, empty.2.2, Nat.mod_eq_of_lt (by omega)] at owned
    exact absurd owned (by
      change ¬ target.wordLimit - 1 + far.printBufPos + 0 < 1 + 64
      omega)
  · rcases holds.grow piece.strlen with ⟨_, answered⟩
    rw [answered] at refused
    have nonzero : max 1 ((far.bufsize + piece.strlen + 64) % target.wordLimit) ≠ 0 := by omega
    have served : Allocation.succeeded
        ⟨1, max 1 ((far.bufsize + piece.strlen + 64) % target.wordLimit)⟩ = true :=
      bne_iff_ne.mpr nonzero
    exact absurd (served.symm.trans refused) (by decide)

end Printing

/-- A heap on which each `malloc` succeeds, and the text is not delivered. -/
theorem not_alwaysDelivers_of_long (formed : piecesOf target fmt args = some pieces)
    (nonempty : pieces ≠ []) (long : fmt.strlen * 2 % target.wordLimit ≤ (textOf pieces).length) :
    ¬ AlwaysDelivers target fmt args pieces := by
  intro always
  rcases Option.bind_eq_some_iff.mp formed with ⟨⟨complete, all⟩, ran, same⟩
  cases Option.some.inj same
  have small : fmt.strlen * 2 % target.wordLimit < target.wordLimit :=
    Nat.mod_lt _ (Nat.two_pow_pos _)
  have succeeds := @farHeap_succeeds target false _ small
  let begun := (Printing.start target false (fun _ => none) fmt).init target (farHeap target)
  have far : Far target (fmt.strlen * 2 % target.wordLimit) begun :=
    { started := rfl
      served := decide_eq_true succeeds
      small := small
      buffer := rfl
      block := succeeds.2.2.2 }
  have short : Short (fmt.strlen * 2 % target.wordLimit) begun [] :=
    { size := rfl, pos := rfl, short := .inl rfl }
  rcases vfnprintf_keeps (tryAddWrapper target (farHeap target))
    (fun printing pieces => Far target (fmt.strlen * 2 % target.wordLimit) printing ∧
      (printing.strayed = false -> Short (fmt.strlen * 2 % target.wordLimit) printing pieces))
    (fun _ => True) (fun _ _ _ _ => trivial)
    (fun printing some piece holds _ => holds.1.add small holds.2 piece)
    ⟨far, fun _ => short⟩ trivial ran with ⟨after, taken, holds, stayed⟩
  rcases always Bool (farHeap target) false (fun _ => none) with ⟨printed, outcome, delivers⟩
  have ended : printf target (farHeap target) false (fun _ => none) fmt args =
      some { written := some after.text, final := after.free (farHeap target) } :=
    printf_eq succeeds.1 taken
  cases Option.some.inj (ended.symm.trans outcome)
  have inside : after.strayed = false := (delivers holds.served).inside
  rcases (stayed inside).short with none | less
  · exact nonempty none
  · exact Nat.not_le.mpr less long

/-- A text is delivered whatever the heap is like just when it is shorter than twice
the format, or there is none. -/
theorem printf_delivers_iff (target : Target) (fmt : CString) (args : List Argument)
    (pieces : List CString) (formed : piecesOf target fmt args = some pieces) :
    AlwaysDelivers target fmt args pieces <->
      pieces = [] ∨ (textOf pieces).length < fmt.strlen * 2 % target.wordLimit := by
  constructor
  · intro always
    by_contra neither
    rw [not_or, Nat.not_lt] at neither
    exact not_alwaysDelivers_of_long formed neither.1 neither.2 always
  · exact alwaysDelivers_of_short formed

/-- `"%s"`. -/
def stringFormat : CString where
  chars := ['%'.toUInt8, 's'.toUInt8]
  terminated := by decide

/-- `"abcdefgh"`. -/
def eightChars : CString where
  chars := [97, 98, 99, 100, 101, 102, 103, 104]
  terminated := by decide

theorem printf_delivers_iff_eightChars :
    AlwaysDelivers .aarch64 stringFormat [.string eightChars] [eightChars] <->
      [eightChars] = [] ∨
        (textOf [eightChars]).length < stringFormat.strlen * 2 % Target.aarch64.wordLimit :=
  printf_delivers_iff .aarch64 stringFormat [.string eightChars] [eightChars] (by decide)

/-- A free list with a short block in front of a long one. -/
def twoBlocks : IntrusiveFreeList where
  sizeAt := fun node => if node = 4096 then 16 else 4064
  freeList := [4096, 8192]

/-- The string is copied to the short block, which was given back for the long one. -/
theorem printf_strays : piecesOf .aarch64 stringFormat [.string eightChars] = some [eightChars] ∧
    Exists fun printed =>
      printf .aarch64 (taskHeap .aarch64 fun _ => 0) twoBlocks (fun _ => none) stringFormat
        [.string eightChars] = some printed ∧
      printed.final.served = true ∧ ¬ Delivers printed [eightChars] := by
  refine ⟨by decide, _, rfl, by decide, ?_⟩
  intro delivers
  exact absurd delivers.inside (by decide)

end Userspace
end Pinyon
