import Mathlib
import Pinyon.Pine.LinkedList
import Pinyon.Pine.PageAllocator

namespace Pinyon
namespace Pine

open Library

universe u v

/-!
# The linked list is a sequence

What the users of `ManualLinkedList` have in mind is a sequence of nodes, and nodes
beside it that are linked to nothing: those just constructed and those removed.  A
call is legal when a node to be put in is one of these and a node to be taken out is
a member.  Every run of legal calls is run by the list, whose links then spell the
sequence in both directions.
-/

/-! ## Sequences -/

structure NodeSequence (Node : Type u) where
  members : List Node
  loose : Set Node

/-- The calls that change the list.  A node is constructed before its first one. -/
inductive ListCall (Node : Type u) (Content : Type v) where
  | construct (node : Node) (contents : Content)
  | insertAfter (afterNode : Option Node) (newNode : Node)
  | append (newNode : Node)
  | remove (node : Node)

namespace NodeSequence

variable {Node : Type u} {Content : Type v}

def empty : NodeSequence Node :=
  ⟨[], ∅⟩

/-- What the legal calls do.  Behind no node is at the end. -/
inductive Step : NodeSequence Node -> ListCall Node Content -> NodeSequence Node -> Prop
  | construct {members : List Node} {loose : Set Node} {node : Node} {contents : Content} :
      node ∉ members ->
      Step ⟨members, loose⟩ (.construct node contents) ⟨members, insert node loose⟩
  | insertAfterNull {members : List Node} {loose : Set Node} {newNode : Node} :
      newNode ∈ loose ->
      Step ⟨members, loose⟩ (.insertAfter none newNode)
        ⟨members ++ [newNode], loose \ {newNode}⟩
  | insertAfter {before behind : List Node} {loose : Set Node} {afterNode newNode : Node} :
      newNode ∈ loose ->
      Step ⟨before ++ afterNode :: behind, loose⟩ (.insertAfter (some afterNode) newNode)
        ⟨before ++ afterNode :: newNode :: behind, loose \ {newNode}⟩
  | append {members : List Node} {loose : Set Node} {newNode : Node} :
      newNode ∈ loose ->
      Step ⟨members, loose⟩ (.append newNode) ⟨members ++ [newNode], loose \ {newNode}⟩
  | remove {before behind : List Node} {loose : Set Node} {node : Node} :
      Step ⟨before ++ node :: behind, loose⟩ (.remove node) ⟨before ++ behind, insert node loose⟩

end NodeSequence

/-! ## The list under the same calls -/

namespace ListState

variable {target : Target} {Content : Type} {state after : ListState target Content}
variable {members before behind : List (NodeAddress target)} {loose : Set (NodeAddress target)}
variable {node afterNode newNode : NodeAddress target}

/-- A list that was just made, over any storage. -/
def fresh (memory : NodeMemory target Content) : ListState target Content :=
  ⟨{}, memory⟩

def call (destroy : Content -> Content) (state : ListState target Content) :
    ListCall (NodeAddress target) Content -> Option (ListState target Content)
  | .construct node contents => some { state with memory := state.memory.construct node contents }
  | .insertAfter afterNode newNode => state.insertAfter afterNode newNode
  | .append newNode => state.append newNode
  | .remove node => state.remove destroy (some node)

/-- A call that comes back. -/
def Runs (destroy : Content -> Content) (before : ListState target Content)
    (listCall : ListCall (NodeAddress target) Content) (after : ListState target Content) : Prop :=
  before.call destroy listCall = some after

def next (state : ListState target Content) (node : NodeAddress target) : NodePtr target :=
  (state.memory node).next

def prev (state : ListState target Content) (node : NodeAddress target) : NodePtr target :=
  (state.memory node).prev

/-- The links of the list are those of the sequence. -/
structure Represents (state : ListState target Content)
    (sequence : NodeSequence (NodeAddress target)) : Prop where
  linked : DoublyLinked state.next state.prev state.list.head state.list.tail sequence.members
  length : state.list.length = sequence.members.length
  loose : forall node, node ∈ sequence.loose -> state.next node = none ∧ state.prev node = none
  apart : forall node, node ∈ sequence.loose -> node ∉ sequence.members

/-- There are fewer nodes than a counter can hold. -/
theorem length_lt (once : members.Nodup) : members.length < target.wordLimit := by
  have injective : Function.Injective (@NodeAddress.word target) := by
    rintro ⟨first, _, _⟩ ⟨second, _, _⟩ same
    cases same
    rfl
  have distinct := once.map injective
  have within : (members.map NodeAddress.word).toFinset ⊆ (Finset.range target.wordLimit).erase 0 := by
    intro word member
    rcases List.mem_map.mp (List.mem_toFinset.mp member) with ⟨node, _, rfl⟩
    exact Finset.mem_erase.mpr ⟨node.nonnull, Finset.mem_range.mpr node.isWord⟩
  have counted := Finset.card_le_card within
  have positive : 0 < target.wordLimit := Nat.two_pow_pos _
  rw [List.toFinset_card_of_nodup distinct, List.length_map, Finset.card_erase_of_mem
    (Finset.mem_range.mpr positive), Finset.card_range] at counted
  omega

/-! ## Constructing -/

theorem represents_construct (represents : Represents state ⟨members, loose⟩)
    (absent : node ∉ members) (contents : Content) :
    Represents { state with memory := state.memory.construct node contents }
      ⟨members, insert node loose⟩ := by
  have same : forall other, other ≠ node ->
      state.memory.construct node contents other = state.memory other := fun other different =>
    Function.update_of_ne different _ _
  constructor
  case linked =>
      apply represents.linked.congr
      intro other member
      have different : other ≠ node := fun equal => absent (equal ▸ member)
      simp only [next, prev, same other different, and_self]
  case length => exact represents.length
  case loose =>
      intro other member
      by_cases equal : other = node
      · simp [next, prev, equal, NodeMemory.construct]
      · simp only [next, prev, same other equal]
        exact represents.loose other (member.resolve_left equal)
  case apart =>
      rintro other (rfl | member)
      · exact absent
      · exact represents.apart other member

/-! ## Putting a node in -/

/-- Behind a node the new one gets between the links of that node. -/
theorem insertAfter_eq (nonempty : state.list.head ≠ none) (unlinked : state.next newNode = none)
    (different : newNode ≠ afterNode) :
    Exists fun after => state.insertAfter (some afterNode) newNode = some after ∧
      after.list = { head := state.list.head
                     tail := if state.next afterNode = none then some newNode else state.list.tail
                     length := (state.list.length + 1) % target.wordLimit } ∧
      (forall other, after.next other =
        if other = afterNode then some newNode
        else if other = newNode then state.next afterNode else state.next other) ∧
      forall other, after.prev other =
        if state.next afterNode = some other then some newNode
        else if other = newNode then some afterNode else state.prev other := by
  cases onward : state.next afterNode with
  | none =>
      unfold next at onward
      refine ⟨_, by simp [insertAfter, nonempty, onward]; rfl, rfl, ?_, ?_⟩
      · intro other
        by_cases isNew : other = newNode
        · subst isNew
          simpa [next, different] using unlinked
        · simp [next, isNew]
      · intro other
        simp [prev]
  | some following =>
      unfold next at onward
      refine ⟨_, by simp [insertAfter, nonempty, onward]; rfl, rfl, ?_, ?_⟩
      · intro other
        by_cases isAfter : other = afterNode
        · subst isAfter
          simp [next, Ne.symm different]
        · simp [next, isAfter]
      · intro other
        simp [prev, eq_comm]

/-- The first node of a list. -/
theorem represents_first (represents : Represents state ⟨[], loose⟩) (isLoose : newNode ∈ loose)
    (afterNodePtr : NodePtr target) :
    Exists fun after => state.insertAfter afterNodePtr newNode = some after ∧
      Represents after ⟨[newNode], loose \ {newNode}⟩ := by
  have noHead : state.list.head = none := represents.linked.head_eq
  have unlinked := represents.loose newNode isLoose
  refine ⟨_, by simp only [insertAfter, noHead, if_true]; rfl, ?_⟩
  constructor
  case linked => exact ⟨⟨rfl, unlinked.1⟩, ⟨rfl, unlinked.2⟩, List.nodup_singleton newNode⟩
  case length =>
      have counted : state.list.length = 0 := represents.length
      change (state.list.length + 1) % target.wordLimit = 1
      rw [counted]
      exact Nat.mod_eq_of_lt (length_lt (List.nodup_singleton newNode))
  case loose =>
      intro other member
      exact represents.loose other member.1
  case apart =>
      intro other member same
      exact member.2 (List.mem_singleton.mp same)

theorem represents_insert (represents : Represents state ⟨before ++ behind, loose⟩)
    (last : before.getLast? = some afterNode) (isLoose : newNode ∈ loose) :
    Exists fun after => state.insertAfter (some afterNode) newNode = some after ∧
      Represents after ⟨before ++ newNode :: behind, loose \ {newNode}⟩ := by
  have linked := represents.linked
  have absent : newNode ∉ before ++ behind := represents.apart newNode isLoose
  have unlinked := represents.loose newNode isLoose
  have afterMember : afterNode ∈ before := List.mem_of_getLast? last
  have different : newNode ≠ afterNode := by
    rintro rfl
    exact absent (List.mem_append_left _ afterMember)
  have onward : state.next afterNode = behind.head? := by
    rcases List.getLast?_eq_some_iff.mp last with ⟨front, rfl⟩
    simp only [List.append_assoc, List.singleton_append] at linked
    exact linked.next_eq
  have nonempty : state.list.head ≠ none := by
    rw [linked.head_eq]
    intro empty
    have nothing := List.head?_eq_none_iff.mp empty
    exact List.ne_nil_of_mem (List.mem_append_left behind afterMember) nothing
  rcases insertAfter_eq nonempty unlinked.1 different with ⟨after, ran, list, nextIs, prevIs⟩
  rw [onward] at list nextIs prevIs
  refine ⟨after, ran, ?_⟩
  constructor
  case linked =>
      rw [list]
      exact linked.insert absent last nextIs prevIs
  case length =>
      have counted : state.list.length = (before ++ behind).length := represents.length
      have once : (before ++ newNode :: behind).Nodup :=
        List.nodup_middle.mpr (List.nodup_cons.mpr ⟨absent, linked.once⟩)
      have small := length_lt once
      have grown : (before ++ newNode :: behind).length = (before ++ behind).length + 1 := by
        simp [Nat.add_assoc]
      rw [grown] at small ⊢
      rw [list, counted]
      exact Nat.mod_eq_of_lt small
  case loose =>
      intro other member
      have outside : other ∉ before ++ behind := represents.apart other member.1
      have isNotNew : other ≠ newNode := member.2
      have isNotAfter : other ≠ afterNode := fun same =>
        outside (List.mem_append_left _ (same ▸ afterMember))
      rw [nextIs, prevIs, if_neg isNotAfter, if_neg (ne_seam outside).2, if_neg isNotNew,
        if_neg isNotNew]
      exact represents.loose other member.1
  case apart =>
      intro other member again
      have outside : other ∉ before ++ behind := represents.apart other member.1
      rcases List.mem_append.mp again with left | right
      · exact outside (List.mem_append_left _ left)
      · rcases List.mem_cons.mp right with same | right
        · exact member.2 same
        · exact outside (List.mem_append_right _ right)

theorem insertAfter_null (state : ListState target Content) (newNode : NodeAddress target) :
    state.insertAfter none newNode = state.append newNode := by
  rw [append, insertAfter, insertAfter, if_pos rfl, ite_self]

theorem represents_append (represents : Represents state ⟨members, loose⟩)
    (isLoose : newNode ∈ loose) :
    Exists fun after => state.append newNode = some after ∧
      Represents after ⟨members ++ [newNode], loose \ {newNode}⟩ := by
  rw [append, represents.linked.tail_eq]
  cases last : members.getLast? with
  | none =>
      have empty := List.getLast?_eq_none_iff.mp last
      subst empty
      exact represents_first represents isLoose none
  | some afterNode =>
      rw [← List.append_nil members] at represents
      exact represents_insert represents last isLoose

/-! ## Taking a node out -/

theorem remove_eq (destroy : Content -> Content) (state : ListState target Content)
    (node : NodeAddress target) :
    Exists fun after => state.remove destroy (some node) = some after ∧
      after.list = { head := if some node = state.list.head then state.next node else state.list.head
                     tail := if some node = state.list.tail then
                         if state.prev node = none then state.next node else state.prev node
                       else state.list.tail
                     length := (state.list.length + (target.wordLimit - 1)) % target.wordLimit } ∧
      (forall other, after.next other =
        if state.prev node = some other then state.next node
        else if other = node then none else state.next other) ∧
      forall other, after.prev other =
        if state.next node = some other then state.prev node
        else if other = node then none else state.prev other :=
  ⟨_, rfl, rfl, fun other => NodeMemory.destruct_next state.memory node other destroy,
    fun other => NodeMemory.destruct_prev state.memory node other destroy⟩

theorem represents_remove (destroy : Content -> Content)
    (represents : Represents state ⟨before ++ node :: behind, loose⟩) :
    Exists fun after => state.remove destroy (some node) = some after ∧
      Represents after ⟨before ++ behind, insert node loose⟩ := by
  have linked := represents.linked
  have once : (before ++ node :: behind).Nodup := linked.once
  have absent : node ∉ before ++ behind := (List.nodup_cons.mp (List.nodup_middle.mp once)).1
  have fewer : before ++ behind ⊆ before ++ node :: behind :=
    ((List.sublist_cons_self node behind).append_left before).subset
  rcases remove_eq destroy state node with ⟨after, ran, list, nextIs, prevIs⟩
  refine ⟨after, ran, ?_⟩
  constructor
  case linked =>
      rw [list]
      exact linked.remove nextIs prevIs
  case length =>
      have counted : state.list.length = (before ++ node :: behind).length := represents.length
      have small := length_lt (List.nodup_cons.mp (List.nodup_middle.mp once)).2
      have sum : (before ++ node :: behind).length + (target.wordLimit - 1) =
          (before ++ behind).length + target.wordLimit := by
        simp only [List.length_append, List.length_cons] at small ⊢
        omega
      rw [list, counted, sum, Nat.add_mod_right]
      exact Nat.mod_eq_of_lt small
  case loose =>
      rw [linked.next_eq, linked.prev_eq] at nextIs prevIs
      rintro other (rfl | member)
      · rw [nextIs, prevIs, if_neg (ne_seam absent).1, if_neg (ne_seam absent).2, if_pos rfl,
          if_pos rfl]
        exact ⟨rfl, rfl⟩
      · have apart : other ∉ before ++ node :: behind := represents.apart other member
        have isNotNode : other ≠ node := fun same =>
          apart (same ▸ List.mem_append_right _ List.mem_cons_self)
        have outside : other ∉ before ++ behind := fun inside => apart (fewer inside)
        rw [nextIs, prevIs, if_neg (ne_seam outside).1, if_neg (ne_seam outside).2,
          if_neg isNotNode, if_neg isNotNode]
        exact represents.loose other member
  case apart =>
      rintro other (rfl | member)
      · exact absent
      · have apart : other ∉ before ++ node :: behind := represents.apart other member
        exact fun inside => apart (fewer inside)

/-! ## Runs -/

theorem represents_fresh (memory : NodeMemory target Content) :
    Represents (fresh memory) NodeSequence.empty where
  linked := DoublyLinked.empty _ _
  length := rfl
  loose := by
    intro node member
    cases member
  apart := by
    intro node member
    cases member

theorem represents_step (destroy : Content -> Content)
    {sequence sequenceAfter : NodeSequence (NodeAddress target)}
    {listCall : ListCall (NodeAddress target) Content} (represents : Represents state sequence)
    (legal : NodeSequence.Step sequence listCall sequenceAfter) :
    Exists fun after => state.Runs destroy listCall after ∧ Represents after sequenceAfter := by
  cases legal with
  | construct absent => exact ⟨_, rfl, represents_construct represents absent _⟩
  | insertAfterNull isLoose =>
      rcases represents_append represents isLoose with ⟨after, ran, represented⟩
      exact ⟨after, (insertAfter_null state _).trans ran, represented⟩
  | @insertAfter before behind loose afterNode newNode isLoose =>
      rw [List.append_cons before afterNode behind] at represents
      rw [List.append_cons before afterNode (newNode :: behind)]
      exact represents_insert represents List.getLast?_concat isLoose
  | append isLoose => exact represents_append represents isLoose
  | remove => exact represents_remove destroy represents

end ListState

end Pine
end Pinyon
