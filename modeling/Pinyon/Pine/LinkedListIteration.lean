import Mathlib
import Pinyon.Pine.LinkedListSequence

namespace Pinyon
namespace Pine

open Library

/-!
# Going through the linked list

An iterator stands between two parts of the sequence: at the first node of the second
part, or behind the last node.  Both directions go from one such place to the next,
so that the loops come to each node once.
-/

variable {target : Target} {Content : Type} {state : ListState target Content}
variable {head tail : NodePtr target} {before behind members : List (NodeAddress target)}
variable {node : NodeAddress target}

namespace NodeIter

/-! ## Places -/

def between (before : List (NodeAddress target)) :
    List (NodeAddress target) -> NodeIter target
  | [] => ⟨before.getLast?, true⟩
  | node :: _ => ⟨some node, false⟩

theorem begin_eq (linked : DoublyLinked state.next state.prev state.list.head state.list.tail members) :
    begin state.list = between [] members := by
  rw [begin, linked.head_eq, linked.tail_eq]
  cases members with
  | nil => rfl
  | cons node rest => rfl

theorem end_eq (linked : DoublyLinked state.next state.prev state.list.head state.list.tail members) :
    end_ state.list = between members [] := by
  rw [end_, linked.tail_eq, between]

/-- The places but the last are not at the end. -/
theorem between_ne_end (before rest : List (NodeAddress target)) (node : NodeAddress target) :
    between before (node :: rest) ≠ between members [] := by
  intro same
  cases congrArg NodeIter.atEnd same

theorem ptr_between_nil (members : List (NodeAddress target)) :
    (between [] members).ptr = members.head? := by
  cases members with
  | nil => rfl
  | cons node rest => rfl

/-- The places but the first are not at the beginning. -/
theorem between_ne_begin (once : (before ++ node :: behind).Nodup) :
    between (before ++ [node]) behind ≠ between [] (before ++ node :: behind) := by
  intro same
  cases behind with
  | nil =>
      cases before with
      | nil => cases congrArg NodeIter.atEnd same
      | cons first rest => cases congrArg NodeIter.atEnd same
  | cons following rest =>
      rw [List.append_cons before node (following :: rest)] at once same
      have nonempty : before ++ [node] ≠ [] :=
        List.append_ne_nil_of_right_ne_nil before (List.cons_ne_nil node [])
      have first : some following = (before ++ [node]).head? := by
        have ptrs := congrArg NodeIter.ptr same
        rw [ptr_between_nil, List.head?_append_of_ne_nil _ nonempty] at ptrs
        exact ptrs
      have earlier := List.mem_of_head? first.symm
      exact (List.nodup_append.mp once).2.2 following earlier following List.mem_cons_self rfl

/-! ## Steps -/

theorem increment_between
    (linked : DoublyLinked state.next state.prev head tail (before ++ node :: behind)) :
    (between before (node :: behind)).increment state.memory =
      some (between (before ++ [node]) behind) := by
  have next : (state.memory node).next = behind.head? := linked.next_eq
  cases behind with
  | nil => simp [increment, between, next]
  | cons following rest => simp [increment, between, next]

theorem decrement_between
    (linked : DoublyLinked state.next state.prev head tail (before ++ node :: behind)) :
    (between (before ++ [node]) behind).decrement state.memory =
      some (between before (node :: behind)) := by
  cases behind with
  | nil => simp [decrement, between]
  | cons following rest =>
      rw [List.append_cons] at linked
      have prev : (state.memory following).prev = (before ++ [node]).getLast? := linked.prev_eq
      simp [decrement, between, prev]

/-! ## Loops -/

theorem forwardLoop_between
    (linked : DoublyLinked state.next state.prev head tail (before ++ behind)) :
    forwardLoop state.memory (between (before ++ behind) []) (behind.length + 1)
      (between before behind) = some behind := by
  induction behind generalizing before with
  | nil =>
      rw [List.append_nil]
      exact if_pos rfl
  | cons node rest inductionHypothesis =>
      have onward := @inductionHypothesis (before ++ [node]) (by rwa [← List.append_cons])
      rw [← List.append_cons] at onward
      rw [List.length_cons, forwardLoop, if_neg (between_ne_end before rest node),
        increment_between linked]
      simp only [Option.bind_eq_bind, Option.bind_some, onward]
      rfl

theorem backwardLoop_between
    (linked : DoublyLinked state.next state.prev head tail (before ++ behind)) :
    backwardLoop state.memory (between [] (before ++ behind)) (before.length + 1)
      (between before behind) = some before.reverse := by
  induction before using List.reverseRecOn generalizing behind with
  | nil => exact if_pos rfl
  | append_singleton front node inductionHypothesis =>
      rw [← List.append_cons] at linked ⊢
      have onward := inductionHypothesis linked
      rw [List.length_append, List.length_singleton, backwardLoop,
        if_neg (between_ne_begin linked.once), decrement_between linked]
      simp only [Option.bind_eq_bind, Option.bind_some, onward]
      rw [List.reverse_append]
      rfl

/-! ## The search -/

/-- The iterators as `lower_bound` uses them. -/
def iterClass (memory : NodeMemory target Content) :
    IterClass (NodeIter target) (NodeAddress target) where
  increment it := it.increment memory
  deref it := it.ptr
  equal it other := it == other
  randomAccess := none

/-- They go through the nodes of the sequence, place by place. -/
theorem walks (linked : DoublyLinked state.next state.prev head tail members) :
    (iterClass state.memory).Walks members fun pos =>
      between (members.take pos) (members.drop pos) := by
  have split : forall pos (inside : pos < members.length),
      members.drop pos = members[pos] :: members.drop (pos + 1) := fun pos inside =>
    List.drop_eq_getElem_cons inside
  apply IterClass.Walks.of_increment rfl
  · intro pos inside
    rw [← List.take_append_drop pos members, split pos inside] at linked
    rw [split pos inside, ← List.take_concat_get' members pos inside]
    exact increment_between linked
  · intro pos inside
    rw [split pos inside, List.getElem?_eq_getElem inside]
    rfl

end NodeIter

/-! ## What the users of the list see -/

namespace ListState

/-- The list is the sequence, from both ends and for both loops. -/
structure Implements (state : ListState target Content)
    (sequence : NodeSequence (NodeAddress target)) : Prop where
  once : sequence.members.Nodup
  forward : Path state.next state.list.head sequence.members none
  backward : Path state.prev state.list.tail sequence.members.reverse none
  length : state.list.length = sequence.members.length
  loose : forall node, node ∈ sequence.loose -> state.next node = none ∧ state.prev node = none
  ascending : Exists fun turns => NodeIter.forwardLoop state.memory (NodeIter.end_ state.list) turns
    (NodeIter.begin state.list) = some sequence.members
  descending : Exists fun turns => NodeIter.backwardLoop state.memory (NodeIter.begin state.list) turns
    (NodeIter.end_ state.list) = some sequence.members.reverse

theorem Represents.implements {sequence : NodeSequence (NodeAddress target)}
    (represents : Represents state sequence) : Implements state sequence where
  once := represents.linked.once
  forward := represents.linked.forward
  backward := represents.linked.backward
  length := represents.length
  loose := represents.loose
  ascending := by
    have linked := represents.linked
    refine ⟨sequence.members.length + 1, ?_⟩
    rw [NodeIter.begin_eq linked, NodeIter.end_eq linked]
    exact @NodeIter.forwardLoop_between _ _ state _ _ [] _ linked
  descending := by
    have linked := represents.linked
    refine ⟨sequence.members.length + 1, ?_⟩
    rw [NodeIter.begin_eq linked, NodeIter.end_eq linked]
    rw [← List.append_nil sequence.members] at linked
    have loop := NodeIter.backwardLoop_between linked
    rw [List.append_nil] at loop
    exact loop

/-- Every run of legal calls, from an empty list over storage of any contents. -/
theorem implements_sequence (destroy : Content -> Content) (memory : NodeMemory target Content)
    (calls : List (ListCall (NodeAddress target) Content))
    (sequence : NodeSequence (NodeAddress target))
    (legal : Reaches NodeSequence.Step NodeSequence.empty calls sequence) :
    Exists fun state => Reaches (Runs destroy) (fresh memory) calls state ∧
      Implements state sequence := by
  rcases legal.simulated (fun sequence state => Represents state sequence)
      (represents_fresh memory) (fun _ _ _ _ represents step =>
        represents_step destroy represents step) with ⟨state, ran, represents⟩
  exact ⟨state, ran, represents.implements⟩

/-- Of three nodes, one is put in between the two others, and the first is removed. -/
theorem implements_sequence_again :
    Exists fun first : NodeAddress .aarch64 => Exists fun second => Exists fun third =>
      Exists fun loose => Exists fun state =>
        Reaches (Runs id) (fresh fun _ => ⟨none, none, 0⟩)
            [.remove first, .insertAfter (some first) second, .append third, .append first,
              .construct third 3, .construct second 2, .construct first 1] state ∧
          Implements state ⟨[second, third], loose⟩ := by
  let first : NodeAddress .aarch64 := ⟨4096, by decide, by decide⟩
  let second : NodeAddress .aarch64 := ⟨8192, by decide, by decide⟩
  let third : NodeAddress .aarch64 := ⟨12288, by decide, by decide⟩
  let loose : Set (NodeAddress .aarch64) := insert third (insert second (insert first ∅))
  refine ⟨first, second, third, insert first (((loose \ {first}) \ {third}) \ {second}),
    implements_sequence id _ _ _ ?_⟩
  have distinct : second ≠ first ∧ second ≠ third ∧ third ≠ first := by
    decide
  have constructed : Reaches NodeSequence.Step NodeSequence.empty
      [ListCall.construct third 3, .construct second 2, .construct first 1] ⟨[], loose⟩ :=
    ((Reaches.refl.tail (.construct List.not_mem_nil)).tail
      (.construct List.not_mem_nil)).tail (.construct List.not_mem_nil)
  have appended : Reaches NodeSequence.Step NodeSequence.empty
      [.append third, .append first, .construct third 3, .construct second 2, .construct first 1]
      ⟨[first, third], (loose \ {first}) \ {third}⟩ :=
    (constructed.tail (.append (by simp [loose]))).tail
      (.append ⟨by simp [loose], distinct.2.2⟩)
  have inserted : Reaches NodeSequence.Step NodeSequence.empty
      [.insertAfter (some first) second, .append third, .append first, .construct third 3,
        .construct second 2, .construct first 1]
      ⟨[first, second, third], ((loose \ {first}) \ {third}) \ {second}⟩ :=
    appended.tail (@NodeSequence.Step.insertAfter _ _ [] [third] _ first second
      ⟨⟨by simp [loose], distinct.1⟩, distinct.2.1⟩)
  exact inserted.tail (@NodeSequence.Step.remove _ _ [] [second, third] _ first)

end ListState
end Pine
end Pinyon
