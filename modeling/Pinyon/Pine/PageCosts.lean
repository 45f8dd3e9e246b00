import Mathlib
import Pinyon.Library.History
import Pinyon.Pine.PageBroker
import Pinyon.Pine.PageOwnership

namespace Pinyon
namespace Pine

open Library

/-!
# What a request costs

A request reports the storage that its nodes took, and the broker takes this off
the runway.  The loops count the halvings that they begin, also the one that gets no
node; the count is multiplied by the overhead of an allocation and then by the size
of a node, which is the same number of bytes once more.  For a region that is
reserved it is the depths that were not reached that are counted, with their sign
reversed.

Nodes are counted by the node allocator, as it gives storage for them.
-/

/-! ## Counting nodes -/

variable {State : Type}

/-- A node allocator that counts the nodes it gave storage for. -/
def NodeAllocator.counting (nodes : NodeAllocator State) : NodeAllocator (State × Nat) where
  add state ptr size := (nodes.add state.1 ptr size).map fun after => (after, state.2)
  allocate state := (nodes.allocate state.1).map fun reply =>
    (reply.1, reply.2, if reply.1.ptr = 0 then state.2 else state.2 + 1)
  free state allocation := (nodes.free state.1 allocation).map fun after => (after, state.2)

theorem bitWidthLoop_le (turns value count found : Nat) :
    bitWidthLoop turns value count found ≤ max found (count + turns - 1) := by
  induction turns generalizing value count found with
  | zero => exact Nat.le_max_left _ _
  | succ turns inductionHypothesis =>
      rw [bitWidthLoop]
      by_cases zero : value = 0
      · rw [if_pos zero]
        exact Nat.le_max_left _ _
      · rw [if_neg zero]
        refine Nat.le_trans (inductionHypothesis _ _ _) ?_
        split <;> omega

/-- No depth is greater than the position of a bit. -/
theorem depthFromPageLength_lt (target : Target) (numPages : Nat) :
    depthFromPageLength target numPages < 64 := by
  have width : target.wordWidth ≤ 64 := by cases target <;> decide
  rw [depthFromPageLength]
  by_cases zero : numPages = 0
  · rw [if_pos zero]
    decide
  · have bound := bitWidthLoop_le target.wordWidth numPages 1 0
    rw [if_neg zero, bitWidth]
    omega

namespace PageAllocatorBackend

variable {target : Target} {nodes : NodeAllocator State} {numPages depth endDepth finalDepth : Nat}
variable {pageAlignment : PageAlignmentLevel} {region final : PageRegion} {node : RegionNode}
variable {backend after : PageAllocatorBackend (State × Nat)} {brokered : BrokeredAllocation}

/-- The nodes that were created so far. -/
def created (backend : PageAllocatorBackend (State × Nat)) : Nat :=
  backend.nodeAllocator.2

theorem createNode_counts {answer : Nat × Option RegionNode}
    (ran : backend.createNode target nodes.counting region = some (answer, after)) :
    after.created = backend.created + answer.2.toList.length := by
  rcases Option.bind_eq_some_iff.mp ran with ⟨⟨allocation, state⟩, allocated, rest⟩
  rcases Option.map_eq_some_iff.mp allocated with ⟨reply, _, same⟩
  cases same
  by_cases nothing : reply.1.ptr = 0
  · simp only [nothing, if_true] at rest
    cases Option.some.inj rest
    rfl
  · simp only [nothing, if_false] at rest
    split at rest
    · cases rest
    · cases Option.some.inj rest
      rfl

theorem insertNode_counts (ran : backend.insertNode depth node = some after) :
    after.created = backend.created := by
  rcases Option.bind_eq_some_iff.mp ran with ⟨list, _, rest⟩
  cases Option.some.inj rest
  rfl

theorem removeNode_counts (ran : backend.removeNode target nodes.counting depth node = some after) :
    after.created = backend.created := by
  rcases Option.bind_eq_some_iff.mp ran with ⟨list, _, rest⟩
  split at rest
  · rcases Option.bind_eq_some_iff.mp rest with ⟨state, freed, last⟩
    rcases Option.map_eq_some_iff.mp freed with ⟨inner, _, same⟩
    cases same
    cases Option.some.inj last
    rfl
  · cases rest

/-- The loop began a number of halvings, each of which got a node, except perhaps the
last. -/
structure Halvings (keep : PageRegion -> Option (PageRegion × PageRegion))
    (endDepth depth : Nat) (region : PageRegion) (finalDepth new begun : Nat) : Prop where
  made : new ≤ begun
  refused : begun ≤ new + 1
  bounded : begun ≤ depth + 1
  final : finalDepth = (depth + 2 ^ 32 - begun) % 2 ^ 32
  above : endDepth ≤ depth -> begun + endDepth ≤ depth
  idle : begun = 0 <-> endDepth = depth ∨ keep region = none

theorem trimLoop_counts {keep : PageRegion -> Option (PageRegion × PageRegion)}
    (small : depth < 2 ^ 32)
    (trimmed : trimLoop target nodes.counting keep endDepth depth backend region =
      some (final, finalDepth, after)) :
    Exists fun new => Exists fun begun => after.created = backend.created + new ∧
      Halvings keep endDepth depth region finalDepth new begun := by
  induction depth generalizing backend region with
  | zero =>
      rcases trimLoop_zero_cases trimmed with ⟨stops, rfl, rfl, rfl⟩ |
        ⟨kept, other, _, done, kept_eq, created, rfl, rfl⟩
      · exact ⟨0, 0, rfl, by omega, by omega, by omega, rfl, by omega, iff_of_true rfl stops⟩
      · exact ⟨0, 1, createNode_counts created, by omega, by omega, by omega, rfl, by omega,
          by simp [done, kept_eq]⟩
  | succ depth inductionHypothesis =>
      rcases trimLoop_succ_cases trimmed with ⟨stops, rfl, rfl, rfl⟩ |
        ⟨kept, other, done, kept_eq, ⟨_, created, rfl, rfl⟩ |
          ⟨_, node, middle, inserted, created, placed, later⟩⟩
      · exact ⟨0, 0, rfl, by omega, by omega, by omega, by omega, by omega, iff_of_true rfl stops⟩
      · exact ⟨0, 1, createNode_counts created, by omega, by omega, by omega, by omega, by omega,
          by simp [done, kept_eq]⟩
      · have counted := createNode_counts created
        rcases inductionHypothesis (by omega) later with ⟨new, begun, more, halvings⟩
        have same := insertNode_counts placed
        have bounded := halvings.bounded
        have made := halvings.made
        have refused := halvings.refused
        have reached := halvings.final
        have above := halvings.above
        refine ⟨new + 1, begun + 1, ?_, by omega, by omega, by omega, by omega, by omega,
          by simp [done, kept_eq]⟩
        rw [more, same, counted]
        simp only [Option.toList_some, List.length_singleton]
        omega

/-! ## The overhead that is reported -/

/-- What a call reports is the size of the nodes that it created. -/
def Exact (target : Target) (backend : PageAllocatorBackend (State × Nat))
    (brokered : BrokeredAllocation) (after : PageAllocatorBackend (State × Nat)) : Prop :=
  brokered.overheadUsed = regionNodeSize target * (after.created - backend.created)

/-- The region that a search for pages finds has the depth that is wanted. -/
def WholePages (target : Target) (backend : PageAllocatorBackend (State × Nat)) (numPages : Nat)
    (pageAlignment : PageAlignmentLevel) : Prop :=
  forall node aligned, backend.findFreePages target numPages pageAlignment = some (some node) ->
    alignUpToPower target.wordWidth numPages = some aligned ->
    depthFromPageLength target node.contents.length = depthFromPageLength target aligned

/-- The region that contains another has its depth; or it is one deeper, and there is
no node for the first half. -/
def WholeRegion (target : Target) (nodes : NodeAllocator State)
    (backend : PageAllocatorBackend (State × Nat)) (region : PageRegion) : Prop :=
  forall node, backend.findFreeRegion target region = some (some node) ->
    depthFromPageLength target node.contents.length = depthFromPageLength target region.length ∨
    depthFromPageLength target node.contents.length =
        depthFromPageLength target region.length + 1 ∧
      forall middle, backend.removeNode target nodes.counting
          (depthFromPageLength target node.contents.length) node = some middle ->
        Exists fun kept => Exists fun other => Exists fun number => Exists fun last =>
          keepContaining target region node.contents = some (kept, other) ∧
          middle.createNode target nodes.counting other = some ((number, none), last)

/-- The count of the halvings, multiplied twice. -/
theorem overhead_of_halvings {keep : PageRegion -> Option (PageRegion × PageRegion)} {new begun : Nat}
    (small : depth < 64) (halvings : Halvings keep endDepth depth region finalDepth new begun) :
    (broker target final (allocationCost target depth finalDepth)).overheadUsed =
      begun * headerNodeSize target * regionNodeSize target := by
  have count : (depth + 2 ^ 32 - finalDepth) % 2 ^ 32 = begun := by
    have bounded := halvings.bounded
    have reached := halvings.final
    omega
  have few : begun ≤ 64 := Nat.le_trans halvings.bounded small
  rw [broker, allocationCost, count]
  cases target with
  | aarch32 =>
      simp only [headerNodeSize, regionNodeSize, Target.wordSize, Target.wordLimit, Target.wordWidth]
      omega
  | aarch64 =>
      simp only [headerNodeSize, regionNodeSize, Target.wordSize, Target.wordLimit, Target.wordWidth]
      omega

/-- What is reported for pages is right just when nothing is halved for them, and then
it is nothing. -/
theorem allocate_exact_iff
    (allocated : backend.allocate target nodes.counting numPages pageAlignment =
      some (brokered, after)) :
    (Exact target backend brokered after <-> WholePages target backend numPages pageAlignment) ∧
      (WholePages target backend numPages pageAlignment -> brokered.overheadUsed = 0) := by
  rcases allocate_cases allocated with
    ⟨search, rfl, rfl⟩ | ⟨node, aligned, final, finalDepth, search, power, ⟨middle, removed, trimmed⟩, rfl⟩
  · have whole : WholePages target after numPages pageAlignment := by
      intro node aligned found
      cases search.symm.trans found
    refine ⟨⟨fun _ => whole, fun _ => ?_⟩, fun _ => rfl⟩
    rw [Exact, Nat.sub_self]
    rfl
  · have small := depthFromPageLength_lt target node.contents.length
    rcases trimLoop_counts (Nat.lt_trans small (by decide)) trimmed with
      ⟨new, begun, counted, halvings⟩
    have whole : WholePages target backend numPages pageAlignment <-> begun = 0 := by
      rw [halvings.idle]
      constructor
      · intro whole
        exact .inl (whole node aligned search power).symm
      · rintro (same | wrong)
        · intro other asked found same'
          cases search.symm.trans found
          cases power.symm.trans same'
          exact same.symm
        · cases wrong
    have grown : after.created - backend.created = new := by
      rw [counted, removeNode_counts removed]
      exact Nat.add_sub_cancel_left _ _
    rw [Exact, overhead_of_halvings small halvings, grown, whole]
    have made := halvings.made
    refine ⟨⟨fun same => ?_, fun none => ?_⟩, fun none => by rw [none, Nat.zero_mul, Nat.zero_mul]⟩
    · cases target with
      | aarch32 =>
          simp only [headerNodeSize, regionNodeSize, Target.wordSize] at same
          omega
      | aarch64 =>
          simp only [headerNodeSize, regionNodeSize, Target.wordSize] at same
          omega
    · have nothing : new = 0 := by omega
      rw [none, nothing, Nat.zero_mul, Nat.zero_mul, Nat.mul_zero]

/-- The depths that were not reached, multiplied twice, are the size of the new nodes
just when there are neither. -/
theorem reversed_exact_iff {keep : PageRegion -> Option (PageRegion × PageRegion)} {new begun : Nat}
    (small : depth < 64) (sized : endDepth < 64)
    (halvings : Halvings keep endDepth depth region finalDepth new begun) :
    (broker target final (allocationCost target endDepth finalDepth)).overheadUsed =
        regionNodeSize target * new <->
      new = 0 ∧ finalDepth = endDepth := by
  have made := halvings.made
  have refused := halvings.refused
  have bounded := halvings.bounded
  have reached := halvings.final
  have above := halvings.above
  -- the difference is negative where the loop started above its end, and otherwise too large
  have difference : (endDepth + 2 ^ 32 - finalDepth) % 2 ^ 32 = 0 ∧ finalDepth = endDepth ∨
      (Exists fun missing => 0 < missing ∧ missing < 64 ∧
        (endDepth + 2 ^ 32 - finalDepth) % 2 ^ 32 = 2 ^ 32 - missing ∧ finalDepth ≠ endDepth) ∨
      new < (endDepth + 2 ^ 32 - finalDepth) % 2 ^ 32 ∧
        (endDepth + 2 ^ 32 - finalDepth) % 2 ^ 32 < 256 ∧ finalDepth ≠ endDepth := by
    by_cases under : endDepth ≤ depth
    · have reach := above under
      by_cases done : finalDepth = endDepth
      · exact .inl ⟨by omega, done⟩
      · exact .inr (.inl ⟨finalDepth - endDepth, by omega, by omega, by omega, done⟩)
    · exact .inr (.inr ⟨by omega, by omega, by omega⟩)
  rw [broker, allocationCost]
  generalize (endDepth + 2 ^ 32 - finalDepth) % 2 ^ 32 = count at difference
  cases target with
  | aarch32 =>
      simp only [headerNodeSize, regionNodeSize, Target.wordSize, Target.wordLimit, Target.wordWidth]
      rcases difference with ⟨zero, done⟩ | ⟨missing, some, few, reversed, short⟩ | ⟨more, few, short⟩
      · omega
      · omega
      · omega
  | aarch64 =>
      simp only [headerNodeSize, regionNodeSize, Target.wordSize, Target.wordLimit, Target.wordWidth]
      rcases difference with ⟨zero, done⟩ | ⟨missing, some, few, reversed, short⟩ | ⟨more, few, short⟩
      · omega
      · omega
      · omega

/-- One halving is to be made, and there is no node for it. -/
theorem trimLoop_refused_iff {keep : PageRegion -> Option (PageRegion × PageRegion)}
    (small : endDepth < 64)
    (trimmed : trimLoop target nodes.counting keep endDepth (endDepth + 1) backend region =
      some (final, finalDepth, after)) :
    after.created = backend.created ∧ finalDepth = endDepth <->
      Exists fun kept => Exists fun other => Exists fun number => Exists fun last =>
        keep region = some (kept, other) ∧
        backend.createNode target nodes.counting other = some ((number, none), last) := by
  rcases trimLoop_succ_cases trimmed with ⟨stops, rfl, rfl, rfl⟩ |
    ⟨kept, other, _, kept_eq, ⟨number, created, rfl, rfl⟩ |
      ⟨number, node, middle, inserted, created, placed, later⟩⟩
  · have nothing := stops.resolve_left (Nat.ne_of_lt (Nat.lt_succ_self _))
    constructor
    · rintro ⟨_, wrong⟩
      exact absurd wrong (Nat.succ_ne_self _)
    · rintro ⟨_, _, _, _, wrong, _⟩
      cases nothing.symm.trans wrong
  · exact ⟨fun _ => ⟨kept, other, number, _, kept_eq, created⟩,
      fun _ => ⟨createNode_counts created, rfl⟩⟩
  · rcases trimLoop_counts (Nat.lt_trans small (by decide)) later with ⟨new, _, more, _⟩
    have same := insertNode_counts placed
    have one : middle.created = backend.created + 1 := createNode_counts created
    have later : after.created = middle.created + new := more.trans (congrArg (· + new) same)
    constructor
    · rintro ⟨unchanged, _⟩
      omega
    · rintro ⟨_, _, _, _, isKept, wrong⟩
      cases kept_eq.symm.trans isKept
      cases created.symm.trans wrong

/-- What is reported for a region is right just when the region that is found is not
halved, and then it is nothing. -/
theorem reserveRegion_exact_iff
    (reserved : backend.reserveRegion target nodes.counting region = some (brokered, after)) :
    (Exact target backend brokered after <-> WholeRegion target nodes backend region) ∧
      (WholeRegion target nodes backend region -> brokered.overheadUsed = 0) := by
  rcases reserveRegion_cases reserved with
    ⟨search, rfl, rfl⟩ | ⟨node, final, finalDepth, search, ⟨middle, removed, trimmed⟩, rfl⟩
  · have whole : WholeRegion target nodes after region := by
      intro node found
      cases search.symm.trans found
    refine ⟨⟨fun _ => whole, fun _ => ?_⟩, fun _ => rfl⟩
    rw [Exact, Nat.sub_self]
    rfl
  · have small := depthFromPageLength_lt target node.contents.length
    have sized := depthFromPageLength_lt target region.length
    rcases trimLoop_counts (Nat.lt_trans small (by decide)) trimmed with
      ⟨new, begun, counted, halvings⟩
    have sameCount := removeNode_counts removed
    have grown : after.created - backend.created = new := by
      rw [counted, sameCount]
      exact Nat.add_sub_cancel_left _ _
    have exactly := @reversed_exact_iff target _ _ _ node.contents final _ _ _ small sized halvings
    have whole : WholeRegion target nodes backend region <->
        new = 0 ∧ finalDepth = depthFromPageLength target region.length := by
      have made := halvings.made
      have refused := halvings.refused
      have reached := halvings.final
      have idle := halvings.idle
      constructor
      · intro whole
        rcases whole node search with same | ⟨deeper, noNode⟩
        · have none : begun = 0 := idle.mpr (.inl same.symm)
          omega
        · rw [deeper] at trimmed
          have refusal := (trimLoop_refused_iff sized trimmed).mpr (noNode middle removed)
          have unchanged := refusal.1
          exact ⟨by omega, refusal.2⟩
      · rintro ⟨nothing, done⟩ other found
        cases search.symm.trans found
        by_cases none : begun = 0
        · exact .inl (by omega)
        · have deeper : depthFromPageLength target node.contents.length =
              depthFromPageLength target region.length + 1 := by
            omega
          refine .inr ⟨deeper, fun other sameRemoved => ?_⟩
          cases removed.symm.trans sameRemoved
          rw [deeper] at trimmed
          exact (trimLoop_refused_iff sized trimmed).mp ⟨by omega, done⟩
    rw [Exact, grown, exactly, whole]
    refine ⟨Iff.rfl, fun nothing => ?_⟩
    rw [exactly.mpr nothing, nothing.1, Nat.mul_zero]

end PageAllocatorBackend

/-! ## The runway -/

namespace PageBroker

open PageAllocatorBackend

variable {target : Target} {nodes : NodeAllocator State}
variable {broker before after : PageBroker (State × Nat)} {call : PageCall}

def perform (target : Target) (nodes : NodeAllocator State) (broker : PageBroker State) :
    PageCall -> Option (PageBroker State)
  | .add region => broker.add target nodes region
  | .allocate numPages pageAlignment =>
      (broker.allocate target nodes numPages pageAlignment).map Prod.snd
  | .reserveRegion region => (broker.reserveRegion target nodes region).map Prod.snd
  | .free alloc => broker.free target nodes alloc

def Step (target : Target) (nodes : NodeAllocator State) (before : PageBroker (State × Nat))
    (call : PageCall) (after : PageBroker (State × Nat)) : Prop :=
  before.perform target nodes.counting call = some after

/-- A kind of request to the page allocator. -/
abbrev Request (State : Type) :=
  PageAllocatorBackend (State × Nat) ->
    Option (BrokeredAllocation × PageAllocatorBackend (State × Nat))

/-- What is taken off a runway is the size of the nodes that were created, and the
runway has it. -/
def Affords (target : Target) (request : Request State) (backend : PageAllocatorBackend (State × Nat))
    (runway : BrokeredAllocation -> Nat) : Prop :=
  forall brokered after, request backend = some (brokered, after) ->
    Exact target backend brokered after ∧ brokered.overheadUsed ≤ runway brokered

/-- The same of a request of the broker, which allocates for itself first when the
runway is short. -/
def Pays (target : Target) (nodes : NodeAllocator State) (request : Request State)
    (broker : PageBroker (State × Nat)) : Prop :=
  (broker.currRunway < requiredRunway target ->
    Affords target
      (fun backend => backend.allocate target nodes.counting (requiredRunwayInPages target) .Page)
      broker.pageAllocator
      fun brokered => (broker.currRunway + brokered.size) % target.wordLimit) ∧
  forall ready, broker.ensureRunway target nodes.counting = some (true, ready) ->
    Affords target request ready.pageAllocator fun _ => ready.currRunway

/-- What a call promises: its accounts are exact, and the runway does not wrap. -/
def Promise (target : Target) (nodes : NodeAllocator State) (before : PageBroker (State × Nat))
    (call : PageCall) (_ : PageBroker (State × Nat)) : Prop :=
  match call with
  | .allocate numPages pageAlignment => Pays target nodes
      (fun backend => backend.allocate target nodes.counting numPages pageAlignment) before
  | .reserveRegion region => Pays target nodes
      (fun backend => backend.reserveRegion target nodes.counting region) before
  | _ => True

/-- Regions that are found for a request, and before it for the runway, are not halved. -/
def Finds (target : Target) (nodes : NodeAllocator State)
    (whole : PageAllocatorBackend (State × Nat) -> Prop) (broker : PageBroker (State × Nat)) : Prop :=
  (broker.currRunway < requiredRunway target ->
    WholePages target broker.pageAllocator (requiredRunwayInPages target) .Page) ∧
  forall ready, broker.ensureRunway target nodes.counting = some (true, ready) ->
    whole ready.pageAllocator

def FindsWhole (target : Target) (nodes : NodeAllocator State) (broker : PageBroker (State × Nat)) :
    PageCall -> Prop
  | .allocate numPages pageAlignment =>
      Finds target nodes (fun backend => WholePages target backend numPages pageAlignment) broker
  | .reserveRegion region =>
      Finds target nodes (fun backend => WholeRegion target nodes backend region) broker
  | _ => True

/-- A request that returned affords its cost just when it halves nothing. -/
theorem affords_iff {request : Request State} {whole : Prop} {backend : PageAllocatorBackend (State × Nat)}
    {runway : BrokeredAllocation -> Nat}
    (returned : Exists fun result => request backend = some result)
    (exactly : forall brokered after, request backend = some (brokered, after) ->
      (Exact target backend brokered after <-> whole) ∧ (whole -> brokered.overheadUsed = 0)) :
    Affords target request backend runway <-> whole := by
  constructor
  · intro affords
    rcases returned with ⟨⟨brokered, after⟩, ran⟩
    exact (exactly brokered after ran).1.mp (affords brokered after ran).1
  · intro holds brokered after ran
    refine ⟨(exactly brokered after ran).1.mpr holds, ?_⟩
    rw [(exactly brokered after ran).2 holds]
    exact Nat.zero_le _

/-- The broker's request pays exactly just when neither it nor what precedes it halves. -/
theorem pays_iff {request : Request State} {whole : PageAllocatorBackend (State × Nat) -> Prop}
    {ready : Bool} {prepared : PageBroker (State × Nat)}
    (ensured : broker.ensureRunway target nodes.counting = some (ready, prepared))
    (returned : ready = true -> Exists fun result => request prepared.pageAllocator = some result)
    (exactly : forall backend brokered after, request backend = some (brokered, after) ->
      (Exact target backend brokered after <-> whole backend) ∧
        (whole backend -> brokered.overheadUsed = 0)) :
    Pays target nodes request broker <-> Finds target nodes whole broker := by
  refine and_congr (imp_congr_right fun short => ?_) (forall_congr' fun next => ?_)
  · refine affords_iff ?_ fun _ _ ran => allocate_exact_iff ran
    rw [ensureRunway, if_pos short] at ensured
    rcases Option.bind_eq_some_iff.mp ensured with ⟨result, ran, _⟩
    exact ⟨result, ran⟩
  · refine imp_congr_right fun isReady => ?_
    cases ensured.symm.trans isReady
    exact affords_iff (returned rfl) fun _ _ ran => exactly _ _ _ ran

theorem promise_iff (stepped : Step target nodes before call after) :
    Promise target nodes before call after <-> FindsWhole target nodes before call := by
  cases call with
  | add region => exact Iff.rfl
  | free alloc => exact Iff.rfl
  | allocate numPages pageAlignment =>
      rcases Option.map_eq_some_iff.mp stepped with ⟨result, ran, _⟩
      rcases Option.bind_eq_some_iff.mp ran with ⟨⟨ready, prepared⟩, ensured, rest⟩
      refine pays_iff ensured (fun isReady => ?_) fun _ _ _ ran => allocate_exact_iff ran
      simp only [isReady, if_true] at rest
      rcases Option.bind_eq_some_iff.mp rest with ⟨result, ran, _⟩
      exact ⟨result, ran⟩
  | reserveRegion region =>
      rcases Option.map_eq_some_iff.mp stepped with ⟨result, ran, _⟩
      rcases Option.bind_eq_some_iff.mp ran with ⟨⟨ready, prepared⟩, ensured, rest⟩
      refine pays_iff ensured (fun isReady => ?_) fun _ _ _ ran => reserveRegion_exact_iff ran
      simp only [isReady, if_true] at rest
      rcases Option.bind_eq_some_iff.mp rest with ⟨result, ran, _⟩
      exact ⟨result, ran⟩

/-- The overhead that is reported is the size of the nodes that were created, and the
runway never wraps, just where the regions that are found need not be halved.  The
first two parts are about single calls in any state, the third about runs of the
broker from any state. -/
theorem overhead_exact_iff {calls : List PageCall} :
    (forall (backend : PageAllocatorBackend (State × Nat)) numPages pageAlignment brokered after,
      backend.allocate target nodes.counting numPages pageAlignment = some (brokered, after) ->
      (Exact target backend brokered after <->
        WholePages target backend numPages pageAlignment)) ∧
    (forall (backend : PageAllocatorBackend (State × Nat)) region brokered after,
      backend.reserveRegion target nodes.counting region = some (brokered, after) ->
      (Exact target backend brokered after <-> WholeRegion target nodes backend region)) ∧
    (Reaches (keeping (Step target nodes) (Promise target nodes)) before calls after <->
      Reaches (guarded (Step target nodes) (FindsWhole target nodes)) before calls after) := by
  refine ⟨fun _ _ _ _ _ ran => (allocate_exact_iff ran).1,
    fun _ _ _ _ ran => (reserveRegion_exact_iff ran).1, ?_⟩
  exact Reaches.keeping_iff_guarded (fun _ => True) trivial (fun _ _ _ _ stepped => promise_iff stepped)
    fun _ _ _ _ _ _ => trivial

/-- 512 MiB, and four pages of storage for nodes. -/
def machine : Option (PageBroker (SlabAllocator .aarch32 (regionNode .aarch32) × Nat)) :=
  PageBroker.init .aarch32 (slabNodes .aarch32).counting (SlabAllocator.empty _ _, 0) ⟨0, 131072⟩
    ⟨512, 4⟩

/-- Three pages cost fifteen nodes of sixteen bytes, and 3840 bytes are reported.  Two
pages in the middle cost no node; what is reported is more than the runway, which
wraps and has grown by 4096 bytes. -/
theorem three_pages_overcharged : Exists fun broker => Exists fun allocated => Exists fun after =>
    Exists fun reserved => Exists fun last => machine = some broker ∧
    broker.pageAllocator.allocate .aarch32 (slabNodes .aarch32).counting 3 .Page =
      some (allocated, after) ∧
    allocated.overheadUsed = 3840 ∧
    regionNodeSize .aarch32 * (after.created - broker.pageAllocator.created) = 240 ∧
    broker.pageAllocator.reserveRegion .aarch32 (slabNodes .aarch32).counting ⟨65535, 2⟩ =
      some (reserved, last) ∧
    last.created = broker.pageAllocator.created ∧
    broker.currRunway = 16368 ∧ reserved.overheadUsed = 4294963200 ∧
    (broker.reserveRegion .aarch32 (slabNodes .aarch32).counting ⟨65535, 2⟩).map
      (fun result => result.2.currRunway) = some 20464 := by
  have ran : (machine.bind fun broker =>
      (broker.pageAllocator.allocate .aarch32 (slabNodes .aarch32).counting 3 .Page).bind fun first =>
      (broker.pageAllocator.reserveRegion .aarch32 (slabNodes .aarch32).counting ⟨65535, 2⟩).map
        fun second => ((first.1.overheadUsed, first.2.created - broker.pageAllocator.created),
          (second.1.overheadUsed, second.2.created, broker.pageAllocator.created),
          broker.currRunway,
          (broker.reserveRegion .aarch32 (slabNodes .aarch32).counting ⟨65535, 2⟩).map
            fun result => result.2.currRunway)) =
      some ((3840, 15), (4294963200, 1, 1), 16368, some 20464) := by
    decide +kernel
  rcases Option.bind_eq_some_iff.mp ran with ⟨broker, made, rest⟩
  rcases Option.bind_eq_some_iff.mp rest with ⟨⟨allocated, after⟩, first, later⟩
  rcases Option.map_eq_some_iff.mp later with ⟨⟨reserved, last⟩, second, facts⟩
  simp only [Prod.mk.injEq] at facts
  rcases facts with ⟨⟨cost, new⟩, ⟨reversed, sameCreated, wasCreated⟩, runway, wrapped⟩
  refine ⟨broker, allocated, after, reserved, last, made, first, cost, ?_, second, ?_, runway,
    reversed, wrapped⟩
  · rw [new]
    rfl
  · rw [sameCreated, wasCreated]

end PageBroker

end Pine
end Pinyon
