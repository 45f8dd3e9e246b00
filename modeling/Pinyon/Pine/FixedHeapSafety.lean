import Pinyon.Library.History
import Pinyon.Library.Span
import Pinyon.Pine.FixedHeap

namespace Pinyon
namespace Pine

open Library

/-!
# A heap of fixed size

`FixedHeapAllocator` hands out the region of its `FixedAllocation` from left to
right.  A request is rounded up to the alignment and added to the watermark, and
both of it is done in words.  So long as neither wraps, what is handed out lies in
the region; when one does, the end of the region is not in the way any more.
-/

/-- `FixedHeapAllocator`, with what it has for a fallback allocator. -/
structure FixedHeapAllocator where
  fixed : FixedAllocation
  allocator : HighWatermarkAllocator := {}
deriving DecidableEq, Repr

namespace FixedHeapAllocator

def parts (target : Target) : BinderParts FixedHeapAllocator where
  preferredSize := HighWatermarkAllocator.preferredSize
  allocate := fun requestedSize heap =>
    let outcome := heap.allocator.allocate target requestedSize
    some (outcome.1, { heap with allocator := outcome.2 })
  add := fun ptr size heap => some { heap with allocator := heap.allocator.add target ptr size }
  fallbackAllocate := fun amount heap =>
    let outcome := heap.fixed.allocate amount
    some (outcome.1, { heap with fixed := outcome.2 })

def allocate (target : Target) (heap : FixedHeapAllocator) (requestedSize : Nat) :
    Option (Allocation × FixedHeapAllocator) :=
  (parts target).bind requestedSize heap

end FixedHeapAllocator

/-- A region that does not wrap. -/
structure HeapRegion (target : Target) where
  start : Nat
  size : Nat
  isWord : start < target.wordLimit
  inside : start + size ≤ target.wordLimit

/-- A heap and what it has answered, the latest answer first. -/
structure HeapRun where
  heap : FixedHeapAllocator
  answers : List Allocation

namespace HeapRun

variable {target : Target} {region : HeapRegion target} {before after : HeapRun} {request : Nat}

def start (region : HeapRegion target) : HeapRun where
  heap := { fixed := { start := region.start, size := region.size } }
  answers := []

/-- A request, which is a `size_t`, and the answer to it. -/
def Step (target : Target) (before : HeapRun) (request : Nat) (after : HeapRun) : Prop :=
  request < target.wordLimit ∧ Exists fun answer =>
    before.heap.allocate target request = some (answer, after.heap) ∧
    after.answers = answer :: before.answers

/-- How much has been handed out. -/
def used (run : HeapRun) : Nat :=
  (run.answers.map Allocation.size).sum

/-- Where the next block begins, which is the start of the region before the heap has
been given it. -/
def watermark (run : HeapRun) : Nat :=
  if run.heap.allocator.watermark = 0 ∧ run.heap.fixed.hasMemory = true then run.heap.fixed.start
  else run.heap.allocator.watermark

end HeapRun

/-- A request rounded up, as a number. -/
def roundedUp (target : Target) (request : Nat) : Nat :=
  if request = 0 then target.alignment
  else (request + (target.alignment - 1)) / target.alignment * target.alignment

namespace HeapRun

variable {target : Target} {before after : HeapRun} {request : Nat}

/-- There is room for a request behind what has been handed out. -/
def Fits (region : HeapRegion target) (run : HeapRun) (request : Nat) : Prop :=
  run.used + roundedUp target request ≤ region.size

/-- What an answer may be. -/
structure Answers (region : HeapRegion target) (before : HeapRun) (request : Nat)
    (answer : Allocation) (after : HeapRun) : Prop where
  long : answer.ptr ≠ 0 -> request ≤ answer.size
  inside : answer.ptr ≠ 0 -> span answer.ptr answer.size ⊆ span region.start region.size
  apart : answer.ptr ≠ 0 -> forall earlier, earlier ∈ before.answers -> earlier.ptr ≠ 0 ->
    Disjoint (span answer.ptr answer.size) (span earlier.ptr earlier.size)
  refused : ¬ before.Fits region request -> answer.ptr = 0 ∧ after.watermark = before.watermark

def Safe (region : HeapRegion target) (before : HeapRun) (request : Nat) (after : HeapRun) : Prop :=
  Exists fun answer => after.answers = answer :: before.answers ∧
    before.Answers region request answer after

/-- The sum of the watermark and the rounded request is a word, if it comes to that:
the region has an end that is one, and there is memory to hand out. -/
def Unwrapped (region : HeapRegion target) (run : HeapRun) (request : Nat) : Prop :=
  region.start = 0 ∨ region.start + region.size = target.wordLimit ∨
    run.heap.fixed.hasMemory = true ∧ region.size < request ∨
      region.start + run.used + roundedUp target request < target.wordLimit

end HeapRun

/-! ## Rounding -/

section Rounding

variable {target : Target} {request : Nat}

theorem le_roundedUp (target : Target) (request : Nat) : request ≤ roundedUp target request := by
  rw [roundedUp]
  split
  · omega
  · cases target <;> simp only [Target.alignment, Target.alignmentBits] <;> omega

theorem roundedUp_pos (target : Target) (request : Nat) : 0 < roundedUp target request := by
  rw [roundedUp]
  split
  · exact target.alignment_pos
  · cases target <;> simp only [Target.alignment, Target.alignmentBits] <;> omega

theorem roundedUp_le (isWord : request < target.wordLimit) :
    roundedUp target request ≤ target.wordLimit := by
  rw [roundedUp]
  split
  · cases target <;> decide
  · cases target <;>
      simp only [Target.wordLimit, Target.wordWidth, Target.alignment, Target.alignmentBits]
        at isWord ⊢ <;> omega

/-- Rounded up in words, a request near the greatest word becomes zero. -/
theorem alignUpTwo_roundedUp (target : Target) (request : Nat) :
    alignUpTwo target.wordWidth request target.alignment =
      roundedUp target request % target.wordLimit := by
  by_cases zero : request = 0
  · rw [zero, alignUpTwo_zero, roundedUp, if_pos rfl]
    cases target <;> rfl
  · rw [roundedUp, if_neg zero, Target.alignment, alignUpTwo_mod target.alignmentBits_le zero]
    cases target <;>
      simp only [Target.wordLimit, Target.wordWidth, Target.alignmentBits] <;> omega

end Rounding

/-! ## The watermark -/

namespace HighWatermarkAllocator

variable {target : Target} {start size used request : Nat}

/-- The allocator behind a number of bytes that were handed out. -/
def behind (target : Target) (start size used : Nat) : HighWatermarkAllocator where
  start := start
  watermark := (start + used) % target.wordLimit
  endPtr := (start + size) % target.wordLimit

theorem allocate_behind :
    (behind target start size used).allocate target request =
      if (start + used) % target.wordLimit = 0 ∨ (start + size) % target.wordLimit <
          ((start + used) % target.wordLimit + roundedUp target request % target.wordLimit) %
            target.wordLimit then
        ({}, behind target start size used)
      else
        (⟨(start + used) % target.wordLimit, roundedUp target request % target.wordLimit⟩,
          behind target start size (used + roundedUp target request)) := by
  rw [allocate, alignUpTwo_roundedUp, behind, behind, ← Nat.add_mod, ← Nat.add_assoc start]

/-- As long as nothing wraps, the next bytes are handed out or nothing changes. -/
theorem allocate_unwrapped (within : start + size ≤ target.wordLimit) (enough : used ≤ size)
    (unwrapped : start + size = target.wordLimit ∨
      start + used + roundedUp target request < target.wordLimit)
    (isWord : request < target.wordLimit) :
    (behind target start size used).allocate target request = ({}, behind target start size used) ∨
      used + roundedUp target request ≤ size ∧
        (behind target start size used).allocate target request =
          (⟨start + used, roundedUp target request⟩,
            behind target start size (used + roundedUp target request)) := by
  rw [allocate_behind]
  have positive := roundedUp_pos target request
  have small := roundedUp_le isWord
  generalize roundedUp target request = amount at unwrapped positive small ⊢
  split
  · exact .inl rfl
  · next passed =>
      rw [not_or, Nat.not_lt] at passed
      rcases passed with ⟨given, passed⟩
      rcases unwrapped with top | unwrapped
      · -- only a request that takes all of the rest makes the sum zero
        have below : start + used < target.wordLimit := by
          apply Nat.lt_of_le_of_ne (by omega)
          intro full
          rw [full, Nat.mod_self] at given
          exact given rfl
        rw [Nat.mod_eq_of_lt below] at given passed ⊢
        rw [top, Nat.mod_self, Nat.le_zero] at passed
        have word : amount < target.wordLimit := by
          apply Nat.lt_of_le_of_ne small
          rintro rfl
          rw [Nat.mod_self, Nat.add_zero, Nat.mod_eq_of_lt below] at passed
          exact given passed
        rw [Nat.mod_eq_of_lt word] at passed ⊢
        have all : start + used + amount = target.wordLimit := by
          rcases Nat.dvd_of_mod_eq_zero passed with ⟨times, same⟩
          have one : times = 1 := by
            apply Nat.le_antisymm
            · by_contra many
              have doubled := Nat.mul_le_mul_left target.wordLimit (Nat.lt_of_not_le many)
              omega
            · apply Nat.pos_of_ne_zero
              rintro rfl
              omega
          rw [same, one, Nat.mul_one]
        exact .inr ⟨by omega, rfl⟩
      · have below : start + used < target.wordLimit := by omega
        have word : amount < target.wordLimit := by omega
        rw [Nat.mod_eq_of_lt below, Nat.mod_eq_of_lt word] at passed ⊢
        rw [Nat.mod_eq_of_lt unwrapped] at passed
        have fits := Nat.le_trans passed (Nat.mod_le _ _)
        exact .inr ⟨by omega, rfl⟩

/-- A sum that wraps passes the test. -/
theorem allocate_wrapped (positive : start ≠ 0) (within : start + size < target.wordLimit)
    (enough : used ≤ size) (wraps : target.wordLimit ≤ start + used + roundedUp target request)
    (isWord : request < target.wordLimit) :
    ((behind target start size used).allocate target request).1.ptr ≠ 0 := by
  rw [allocate_behind]
  have small := roundedUp_le isWord
  generalize roundedUp target request = amount at wraps small ⊢
  have below : start + used < target.wordLimit := by omega
  have passed : (start + used + amount % target.wordLimit) % target.wordLimit ≤ start + used := by
    rw [Nat.add_mod_mod, ← Nat.sub_add_cancel wraps, Nat.add_mod_right]
    apply Nat.le_trans (Nat.mod_le _ _)
    omega
  rw [Nat.mod_eq_of_lt below, Nat.mod_eq_of_lt within, if_neg]
  · change start + used ≠ 0
    omega
  · rintro (null | beyond)
    · omega
    · omega

end HighWatermarkAllocator

/-! ## The heap -/

namespace HeapRun

variable {target : Target} {region : HeapRegion target} {before after : HeapRun} {request : Nat}

/-- The invariant of safe runs: the heap has not been given its memory, or it has been
and the watermark is behind what was handed out, or it never will be. -/
structure Sound (region : HeapRegion target) (run : HeapRun) : Prop where
  same : run.heap.fixed.start = region.start ∧ run.heap.fixed.size = region.size
  enough : run.used ≤ region.size
  placed : forall answer, answer ∈ run.answers -> answer.ptr ≠ 0 ->
    span answer.ptr answer.size ⊆ span region.start run.used
  memory : run.heap.fixed.hasMemory = true ∧ run.heap.allocator.watermark = 0 ∧ run.used = 0 ∨
    run.heap.fixed.hasMemory = false ∧ region.start ≠ 0 ∧
      run.heap.allocator = .behind target region.start region.size run.used ∨
    run.heap.fixed.hasMemory = false ∧ region.start = 0 ∧ run.heap.allocator.watermark = 0 ∧
      run.used = 0

theorem sound_start (region : HeapRegion target) : (start region).Sound region where
  same := ⟨rfl, rfl⟩
  enough := Nat.zero_le _
  placed := by
    intro answer member
    cases member
  memory := .inl ⟨rfl, rfl, rfl⟩

/-- Nothing is handed out, and nothing that matters changes. -/
structure Refuses (region : HeapRegion target) (before : HeapRun) (request : Nat)
    (after : HeapRun) : Prop where
  idle : region.start = 0 ∨ before.heap.fixed.hasMemory = true ∧ region.size < request
  answers : after.answers = {} :: before.answers
  watermark : after.watermark = before.watermark
  sound : after.Sound region

/-- The answer is the one of the watermark, which has memory. -/
structure Serves (region : HeapRegion target) (before : HeapRun) (request : Nat)
    (answer : Allocation) (after : HeapRun) : Prop where
  positive : region.start ≠ 0
  asked : ¬ (before.heap.fixed.hasMemory = true ∧ region.size < request)
  answers : after.answers = answer :: before.answers
  same : after.heap.fixed = ⟨region.start, region.size, false⟩
  watermark : before.watermark = (region.start + before.used) % target.wordLimit
  allocator : after.heap.allocator = ((HighWatermarkAllocator.behind target region.start region.size
    before.used).allocate target request).2
  answer : answer = ((HighWatermarkAllocator.behind target region.start region.size
      before.used).allocate target request).1 ∨
    ((HighWatermarkAllocator.behind target region.start region.size
      before.used).allocate target request).1.ptr = 0 ∧ answer = {}

/-- Without memory in the fallback allocator, the watermark answers alone. -/
theorem allocate_given {heap : FixedHeapAllocator} (gone : heap.fixed.hasMemory = false)
    (request : Nat) :
    heap.allocate target request = some
      (if (heap.allocator.allocate target request).1.ptr = 0 then {}
        else (heap.allocator.allocate target request).1,
      { heap with allocator := (heap.allocator.allocate target request).2 }) := by
  simp only [FixedHeapAllocator.allocate, FixedHeapAllocator.parts, BinderParts.bind,
    FixedAllocation.allocate, gone, true_or, if_true, Option.bind_eq_bind, Option.bind_some]
  split <;> rfl

/-- Before that, it has to be given the region first. -/
theorem allocate_fresh {heap : FixedHeapAllocator} (there : heap.fixed.hasMemory = true)
    (empty : heap.allocator.watermark = 0) (request : Nat) :
    heap.allocate target request = some
      (if heap.fixed.size < request then ({}, heap)
      else if heap.fixed.start = 0 then ({}, { heap with fixed := { heap.fixed with hasMemory := false } })
      else
        (((heap.allocator.add target heap.fixed.start heap.fixed.size).allocate target request).1,
          ⟨{ heap.fixed with hasMemory := false },
            ((heap.allocator.add target heap.fixed.start heap.fixed.size).allocate target request).2⟩)) := by
  have null : heap.allocator.allocate target request = ({}, heap.allocator) := by
    rw [HighWatermarkAllocator.allocate]
    exact if_pos (.inl empty)
  simp only [FixedHeapAllocator.allocate, FixedHeapAllocator.parts, BinderParts.bind, null,
    HighWatermarkAllocator.preferredSize, FixedAllocation.allocate, there, Bool.true_eq_false,
    false_or, if_true, Option.bind_eq_bind, Option.bind_some]
  split
  · rfl
  · split <;> rfl

@[simp]
theorem used_cons (heap heap' : FixedHeapAllocator) (answer : Allocation) (answers : List Allocation) :
    (⟨heap', answer :: answers⟩ : HeapRun).used = answer.size + (⟨heap, answers⟩ : HeapRun).used := by
  rw [used, List.map_cons, List.sum_cons, used]

theorem Sound.placed_null {heap : FixedHeapAllocator} (sound : before.Sound region) :
    forall answer, answer ∈ ({} : Allocation) :: before.answers -> answer.ptr ≠ 0 ->
      span answer.ptr answer.size ⊆
        span region.start (⟨heap, {} :: before.answers⟩ : HeapRun).used := by
  intro answer member given
  rw [used_cons before.heap, Nat.zero_add]
  rcases List.mem_cons.mp member with rfl | member
  · exact absurd rfl given
  · exact sound.placed answer member given

theorem Sound.step_cases (sound : before.Sound region) (step : Step target before request after) :
    before.Refuses region request after ∨
      Exists fun answer => before.Serves region request answer after := by
  rcases after with ⟨heap, answers⟩
  rcases step with ⟨isWord, answer, allocated, rfl⟩
  dsimp only at allocated
  have unused : forall heap, (⟨heap, {} :: before.answers⟩ : HeapRun).used = before.used := by
    intro heap
    rw [used_cons before.heap, Nat.zero_add]
  rcases sound.memory with ⟨there, empty, none⟩ | ⟨gone, positive, behind⟩ | ⟨gone, zero, empty, none⟩
  · rw [allocate_fresh there empty, sound.same.1, sound.same.2] at allocated
    split at allocated
    · next large =>
        cases allocated
        refine .inl ⟨.inr ⟨there, large⟩, rfl, rfl, sound.same, ?_, sound.placed_null, ?_⟩
        · rw [unused]
          exact sound.enough
        · exact .inl ⟨there, empty, (unused _).trans none⟩
    · next small =>
        split at allocated
        · next zero =>
            cases allocated
            refine .inl ⟨.inl zero, rfl, ?_, ⟨sound.same.1, sound.same.2⟩, ?_, sound.placed_null, ?_⟩
            · simp [watermark, there, empty, sound.same.1, zero]
            · rw [unused]
              exact sound.enough
            · exact .inr (.inr ⟨rfl, zero, empty, (unused _).trans none⟩)
        · next positive =>
            cases allocated
            have word : (region.start + 0) % target.wordLimit = region.start :=
              Nat.mod_eq_of_lt region.isWord
            have added : before.heap.allocator.add target region.start region.size =
                .behind target region.start region.size before.used := by
              rw [HighWatermarkAllocator.add, HighWatermarkAllocator.behind, none, word]
            rw [added]
            refine .inr ⟨_, positive, fun both => small both.2, rfl, ?_, ?_, rfl, .inl rfl⟩
            · rw [← sound.same.1, ← sound.same.2]
            · rw [watermark, if_pos ⟨empty, there⟩, none, sound.same.1, word]
  · rw [allocate_given gone, behind] at allocated
    cases allocated
    refine .inr ⟨_, positive, fun both => by simp [gone] at both, rfl, ?_, ?_, rfl, ?_⟩
    · rw [← sound.same.1, ← sound.same.2, ← gone]
    · rw [watermark, if_neg (by simp [gone]), behind]
      rfl
    · split
      · next null => exact .inr ⟨null, rfl⟩
      · exact .inl rfl
  · have null : before.heap.allocator.allocate target request = ({}, before.heap.allocator) := by
      rw [HighWatermarkAllocator.allocate]
      exact if_pos (.inl empty)
    rw [allocate_given gone, null] at allocated
    dsimp only at allocated
    rw [if_pos rfl] at allocated
    cases allocated
    refine .inl ⟨.inl zero, rfl, rfl, sound.same, ?_, sound.placed_null, ?_⟩
    · rw [unused]
      exact sound.enough
    · exact .inr (.inr ⟨gone, zero, empty, (unused _).trans none⟩)

/-! ## Runs -/

/-- What is handed out next is behind everything else. -/
theorem Sound.answers (sound : before.Sound region) {answer : Allocation}
    (serves : before.Serves region request answer after) (isWord : request < target.wordLimit)
    (unwrapped : before.Unwrapped region request) :
    before.Answers region request answer after ∧ after.Sound region := by
  have sum : region.start + region.size = target.wordLimit ∨
      region.start + before.used + roundedUp target request < target.wordLimit := by
    rcases unwrapped with zero | top | idle | sum
    · exact absurd zero serves.positive
    · exact .inl top
    · exact absurd idle serves.asked
    · exact .inr sum
  have watermark : after.watermark = after.heap.allocator.watermark := by
    rw [HeapRun.watermark, serves.same, if_neg]
    rintro ⟨_, wrong⟩
    cases wrong
  have later : after.used = answer.size + before.used := by
    rw [used, serves.answers, List.map_cons, List.sum_cons, used]
  have fixedSame : after.heap.fixed.start = region.start ∧ after.heap.fixed.size = region.size ∧
      after.heap.fixed.hasMemory = false := by
    rw [serves.same]
    exact ⟨rfl, rfl, rfl⟩
  have allocator := serves.allocator
  have answered := serves.answer
  rcases HighWatermarkAllocator.allocate_unwrapped region.inside sound.enough sum isWord with
    refused | ⟨fits, handed⟩
  · rw [refused] at allocator answered
    have null : answer = {} := by
      rcases answered with null | ⟨_, null⟩
      · exact null
      · exact null
    subst null
    rw [Nat.zero_add] at later
    refine ⟨⟨fun given => absurd rfl given, fun given => absurd rfl given,
      fun given => absurd rfl given, fun _ => ⟨rfl, ?_⟩⟩,
      ⟨⟨fixedSame.1, fixedSame.2.1⟩, ?_, ?_, .inr (.inl ⟨fixedSame.2.2, serves.positive, ?_⟩)⟩⟩
    · rw [watermark, allocator, serves.watermark]
      rfl
    · rw [later]
      exact sound.enough
    · intro other member given
      rw [serves.answers] at member
      rw [later]
      rcases List.mem_cons.mp member with rfl | member
      · exact absurd rfl given
      · exact sound.placed other member given
    · rw [allocator, later]
  · rw [handed] at allocator answered
    have given : answer = ⟨region.start + before.used, roundedUp target request⟩ := by
      rcases answered with given | ⟨wrong, _⟩
      · exact given
      · exact absurd wrong (Nat.ne_of_gt (Nat.add_pos_left (Nat.pos_of_ne_zero serves.positive) _))
    subst given
    dsimp only at later
    refine ⟨⟨fun _ => le_roundedUp target request, fun _ => ?_, fun _ earlier member given => ?_,
      fun large => absurd fits large⟩,
      ⟨⟨fixedSame.1, fixedSame.2.1⟩, ?_, ?_, .inr (.inl ⟨fixedSame.2.2, serves.positive, ?_⟩)⟩⟩
    · exact span_subset (Nat.le_add_right _ _) (by dsimp only; omega)
    · have behind : Disjoint (span region.start before.used)
          (span (region.start + before.used) (roundedUp target request)) :=
        disjoint_span_of_le (Nat.le_refl _)
      exact (behind.mono_left (sound.placed earlier member given)).symm
    · rw [later]
      omega
    · intro other member isGiven
      rw [serves.answers] at member
      rw [later]
      rcases List.mem_cons.mp member with rfl | member
      · exact span_subset (Nat.le_add_right _ _) (by dsimp only; omega)
      · apply (sound.placed other member isGiven).trans
        exact span_subset (Nat.le_refl _) (by omega)
    · rw [allocator, later, Nat.add_comm (roundedUp target request)]

/-- A request that wraps is answered with what is not there. -/
theorem not_answers (serves : before.Serves region request answer after)
    (sound : before.Sound region) (isWord : request < target.wordLimit)
    (wraps : ¬ before.Unwrapped region request) :
    ¬ before.Answers region request answer after := by
  intro answers
  rw [Unwrapped, not_or, not_or, not_or, Nat.not_lt] at wraps
  rcases wraps with ⟨_, notTop, _, wraps⟩
  have within : region.start + region.size < target.wordLimit :=
    Nat.lt_of_le_of_ne region.inside notTop
  have handed := HighWatermarkAllocator.allocate_wrapped serves.positive within sound.enough wraps
    isWord
  have large : ¬ before.Fits region request := by
    rw [Fits]
    omega
  have null := (answers.refused large).1
  rcases serves.answer with rfl | ⟨wrong, _⟩
  · exact handed null
  · exact handed wrong

theorem Sound.safe_iff (sound : before.Sound region) (step : Step target before request after) :
    before.Safe region request after <-> before.Unwrapped region request := by
  rcases sound.step_cases step with refuses | ⟨answer, serves⟩
  · constructor
    · intro _
      rcases refuses.idle with zero | idle
      · exact .inl zero
      · exact .inr (.inr (.inl idle))
    · intro _
      refine ⟨{}, refuses.answers, ?_, ?_, ?_, fun _ => ⟨rfl, refuses.watermark⟩⟩
      · exact fun given => absurd rfl given
      · exact fun given => absurd rfl given
      · exact fun given => absurd rfl given
  · constructor
    · rintro ⟨other, same, answers⟩
      cases serves.answers.symm.trans same
      by_contra wraps
      exact not_answers serves sound step.1 wraps answers
    · intro unwrapped
      exact ⟨answer, serves.answers, (sound.answers serves step.1 unwrapped).1⟩

theorem Sound.step (sound : before.Sound region) (step : Step target before request after)
    (unwrapped : before.Unwrapped region request) : after.Sound region := by
  rcases sound.step_cases step with refuses | ⟨answer, serves⟩
  · exact refuses.sound
  · exact (sound.answers serves step.1 unwrapped).2

/-- In every run, of requests of any size, all answers are safe just when no request
wraps the sum that it is added to. -/
theorem safe_iff_unwrapped (region : HeapRegion target) (requests : List Nat) (final : HeapRun) :
    Reaches (keeping (Step target) (Safe region)) (start region) requests final <->
      Reaches (guarded (Step target) (Unwrapped region)) (start region) requests final := by
  apply Reaches.keeping_iff_guarded (Sound region) (sound_start region)
  · exact fun before request after sound step => sound.safe_iff step
  · exact fun before request after sound step safe => sound.step step ((sound.safe_iff step).mp safe)

/-- 4 MiB at 64 MiB. -/
def exampleRegion : HeapRegion .aarch64 where
  start := 67108864
  size := 4194304
  isWord := by decide
  inside := by decide

/-- After 16 bytes the greatest word is asked for: it is rounded up to nothing, and no
bytes at all are handed out for it. -/
theorem greatest_request_answered : Exists fun before => Exists fun after =>
    Reaches (Step .aarch64) (start exampleRegion) [16] before ∧
    Step .aarch64 before (2 ^ 64 - 1) after ∧
    after.answers = [⟨67108880, 0⟩, ⟨67108864, 16⟩] ∧
    ¬ before.Safe exampleRegion (2 ^ 64 - 1) after := by
  have first : Reaches (Step .aarch64) (start exampleRegion) [16]
      ⟨⟨⟨67108864, 4194304, false⟩, ⟨67108864, 67108880, 71303168⟩⟩, [⟨67108864, 16⟩]⟩ :=
    .tail .refl ⟨by decide, _, by decide, rfl⟩
  have second : Step .aarch64
      ⟨⟨⟨67108864, 4194304, false⟩, ⟨67108864, 67108880, 71303168⟩⟩, [⟨67108864, 16⟩]⟩ (2 ^ 64 - 1)
      ⟨⟨⟨67108864, 4194304, false⟩, ⟨67108864, 67108880, 71303168⟩⟩,
        [⟨67108880, 0⟩, ⟨67108864, 16⟩]⟩ :=
    ⟨by decide, _, by decide, rfl⟩
  refine ⟨_, _, first, second, rfl, ?_⟩
  rintro ⟨answer, same, answers⟩
  cases same
  exact absurd (answers.long (by decide)) (by decide)

end HeapRun

end Pine
end Pinyon
